import Mathlib.Data.List.Forall2
import RowMapper.Proofs.ColumnReferences

/-!
# Compilations do not depend on what was compiled before

A scope that expressions were compiled into has parameters, joins and bindings of theirs, also of
those that failed. An expression over rows of the root compiles into it as into a new scope: the
bindings all lead to the root, its placeholders are numbered behind the parameters that are there,
and where it navigates along a path that is joined already, it uses that join.

* `Scope.Twin` relates the aliases that stand for one navigation in two scopes.
* `Scope.Beside` relates a scope that began new to one that began with something in it, after the
  same steps.
* `CompileM.Simulates` relates two compilations, with one lemma for each of their steps;
  `compile_simulates` is the induction over the expression.
* `compile_independent` reads the relation as a renaming of aliases.
-/

namespace RowMapper

/-! ## Renamings -/

/-- The token, with its alias renamed and its parameter behind others. -/
def Token.moved (rename : String → String) (before : Nat) : Token → Token
  | .word text => .word text
  | .identifier qualifier name => .identifier (rename qualifier) name
  | .parameter index => .parameter (before + index)

/-- The join, with its aliases renamed. -/
def Join.renamed (rename : String → String) (j : Join) : Join :=
  { j with tableAlias := rename j.tableAlias, leftAlias := rename j.leftAlias }

namespace Scope

/-- What an alias is in another scope: a join has the alias of the join for the same navigation
there, and nothing else has another alias. -/
def aliasIn (f g : Scope) (a : String) : String :=
  match f.joins.find? (·.tableAlias == a) with
  | some j => ((g.join? j.path).map (·.tableAlias)).getD a
  | none => a

/-! ## Twins -/

/-- The aliases stand for the root of both scopes, or for one navigation in both of them. -/
inductive Twin (f g : Scope) : String → String → Prop where
  | root : Twin f g f.tableAlias g.tableAlias
  | join {path : String} {j j' : Join} (first : f.join? path = some j)
    (second : g.join? path = some j') : Twin f g j.tableAlias j'.tableAlias

variable {s f f' g g' : Scope}

theorem Twin.mono (hf : f.Extends f') (hg : g.Extends g') {a b : String} (h : f.Twin g a b) :
    f'.Twin g' a b := by
  cases h with
  | root =>
    rw [← hf.tableAlias, ← hg.tableAlias]
    exact .root
  | join first second => exact .join (hf.join? first) (hg.join? second)

end Scope

/-- The joins are for one navigation, and go from and to aliases that stand for the same. -/
structure Join.Twin (f g : Scope) (j j' : Join) : Prop where
  path : j'.path = j.path
  kind : j'.kind = j.kind
  table : j'.table = j.table
  leftColumn : j'.leftColumn = j.leftColumn
  rightColumn : j'.rightColumn = j.rightColumn
  tableAlias : f.Twin g j.tableAlias j'.tableAlias
  leftAlias : f.Twin g j.leftAlias j'.leftAlias

/-- The tokens differ in what their aliases are, and by the parameters before. -/
inductive Token.Twin (f g : Scope) (before : Nat) : Token → Token → Prop where
  | word (text : String) : Twin f g before (.word text) (.word text)
  | bare (name : String) : Twin f g before (.identifier "" name) (.identifier "" name)
  | column {a b : String} (twins : f.Twin g a b) (name : String) :
    Twin f g before (.identifier a name) (.identifier b name)
  | parameter (index : Nat) : Twin f g before (.parameter index) (.parameter (before + index))

/-- The same number of tokens, pair by pair. -/
abbrev Tokens.Twins (f g : Scope) (before : Nat) : Tokens → Tokens → Prop :=
  List.Forall₂ (Token.Twin f g before)

section

variable {f f' g g' : Scope} {before : Nat}

theorem Join.Twin.mono (hf : f.Extends f') (hg : g.Extends g') {j j' : Join}
    (h : Join.Twin f g j j') : Join.Twin f' g' j j' :=
  { h with tableAlias := h.tableAlias.mono hf hg, leftAlias := h.leftAlias.mono hf hg }

theorem Token.Twin.mono (hf : f.Extends f') (hg : g.Extends g') {t t' : Token}
    (h : Token.Twin f g before t t') : Token.Twin f' g' before t t' := by
  cases h with
  | word text => exact .word text
  | bare name => exact .bare name
  | column twins name => exact .column (twins.mono hf hg) name
  | parameter index => exact .parameter index

namespace Tokens.Twins

variable {ts ts' us us' : Tokens}

theorem mono (hf : f.Extends f') (hg : g.Extends g') (h : Tokens.Twins f g before ts ts') :
    Tokens.Twins f' g' before ts ts' :=
  h.imp fun _ _ => Token.Twin.mono hf hg

theorem append (h : Tokens.Twins f g before ts ts') (h' : Tokens.Twins f g before us us') :
    Tokens.Twins f g before (ts ++ us) (ts' ++ us') :=
  List.rel_append h h'

theorem word (text : String) (h : Tokens.Twins f g before ts ts') :
    Tokens.Twins f g before (.word text :: ts) (.word text :: ts') :=
  .cons (.word text) h

theorem singleton {t t' : Token} (h : Token.Twin f g before t t') :
    Tokens.Twins f g before [t] [t'] :=
  .cons h .nil

theorem parenthesized (h : Tokens.Twins f g before ts ts') :
    Tokens.Twins f g before ts.parenthesized ts'.parenthesized :=
  (h.append (.singleton (.word ")"))).word "("

theorem parenthesizedIf (needed : Bool) (h : Tokens.Twins f g before ts ts') :
    Tokens.Twins f g before (ts.parenthesizedIf needed) (ts'.parenthesizedIf needed) := by
  cases needed with
  | true => exact h.parenthesized
  | false => exact h

/-- The pieces are alike, and so is what goes between them. -/
theorem separated {pieces pieces' : List Tokens}
    (h : List.Forall₂ (Tokens.Twins f g before) pieces pieces') :
    Tokens.Twins f g before (Text.separated [.word ", "] pieces)
      (Text.separated [.word ", "] pieces') :=
  Text.rel_separated (singleton (.word ", ")) h

end Tokens.Twins

end

/-! ## Two scopes after the same steps -/

namespace Scope

/-- The scope `f` began new, and the scope `g` began as `s`. Since then both got the same
parameters, and `g` got the joins of `f` that `s` did not have. -/
structure Beside (s f g : Scope) : Prop where
  entity : f.entity = s.entity ∧ g.entity = s.entity
  tableAlias : f.tableAlias = s.tableAlias ∧ g.tableAlias = s.tableAlias
  bound : (∀ b ∈ f.bindings, b.2 = f.tableAlias) ∧ ∀ b ∈ g.bindings, b.2 = g.tableAlias
  parameters : g.parameters = s.parameters ++ f.parameters
  joins : ∃ added, g.joins = s.joins ++ added
    ∧ List.Forall₂ (Join.Twin f g) (f.joins.filter (·.path ∉ s.joins.map (·.path))) added

variable {s f f' g g' : Scope}

/-- Every navigation that was joined in the new scope is joined in the other one. -/
theorem Beside.joined (h : Beside s f g) {path : String} {j : Join}
    (hj : f.join? path = some j) : ∃ j', g.join? path = some j' := by
  by_contra hnone
  have habsent : path ∉ g.joins.map (·.path) :=
    join?_eq_none.1 (Option.eq_none_iff_forall_ne_some.2 fun j' hj' => hnone ⟨j', hj'⟩)
  obtain ⟨added, hadded, htwins⟩ := h.joins
  rw [hadded, List.map_append, List.mem_append, not_or] at habsent
  have hpath : j.path = path := by simpa using List.find?_some hj
  have hmem : j ∈ f.joins.filter (·.path ∉ s.joins.map (·.path)) :=
    List.mem_filter.2 ⟨List.mem_of_find?_eq_some hj, by simpa [hpath] using habsent.1⟩
  obtain ⟨j', hj', htwin⟩ := exists_of_forall₂ htwins.flip hmem
  exact habsent.2 (List.mem_map.2 ⟨j', hj', htwin.path.trans hpath⟩)

/-- What is joined only in the other scope was joined there from the beginning. -/
theorem Beside.joined_before (h : Beside s f g) {path : String} {j' : Join}
    (hnone : f.join? path = none) (hj' : g.join? path = some j') :
    path ∈ s.joins.map (·.path) := by
  obtain ⟨added, hadded, htwins⟩ := h.joins
  have hmem := List.mem_of_find?_eq_some hj'
  have hpath : j'.path = path := by simpa using List.find?_some hj'
  rw [hadded] at hmem
  rcases List.mem_append.1 hmem with hmem | hmem
  · exact List.mem_map.2 ⟨j', hmem, hpath⟩
  · obtain ⟨j, hj, htwin⟩ := exists_of_forall₂ htwins hmem
    refine absurd (List.mem_map.2 ⟨j, List.mem_of_mem_filter hj, ?_⟩) (join?_eq_none.1 hnone)
    exact htwin.path.symm.trans hpath

/-- A join that is added leaves those that are there. -/
theorem extends_addJoin (s : Scope) (j : Join) : s.Extends (s.addJoin j) :=
  ⟨rfl, List.prefix_rfl, List.prefix_append _ _⟩

/-- The join of a new path is found under it. -/
theorem join?_addJoin {j : Join} (h : s.join? j.path = none) :
    (s.addJoin j).join? j.path = some j := by
  unfold Scope.join? at h ⊢
  show (s.joins ++ [j]).find? _ = _
  rw [List.find?_append, h]
  simp

/-- Where no join is added on either side, the joins stay twins. -/
theorem Beside.of_same_joins (h : Beside s f g) (hf : f.Extends f') (hg : g.Extends g')
    (hjoins : f'.joins = f.joins) (hjoins' : g'.joins = g.joins) :
    ∃ added, g'.joins = s.joins ++ added
      ∧ List.Forall₂ (Join.Twin f' g') (f'.joins.filter (·.path ∉ s.joins.map (·.path))) added := by
  obtain ⟨added, hadded, htwins⟩ := h.joins
  rw [hjoins, hjoins']
  exact ⟨added, hadded, htwins.imp fun _ _ => Join.Twin.mono hf hg⟩

/-- Both scopes take the same value. -/
theorem Beside.addParameter (h : Beside s f g) (v : Value) :
    Beside s (f.addParameters [v]) (g.addParameters [v]) where
  entity := h.entity
  tableAlias := h.tableAlias
  bound := h.bound
  parameters := by
    show g.parameters ++ [v] = _
    rw [h.parameters, List.append_assoc]
    rfl
  joins := h.of_same_joins ⟨rfl, List.prefix_append _ _, List.prefix_rfl⟩
    ⟨rfl, List.prefix_append _ _, List.prefix_rfl⟩ rfl rfl

theorem Beside.bind (h : Beside s f g) (name : String) :
    Beside s (f.bind name f.tableAlias) (g.bind name g.tableAlias)
      ∧ f.Extends (f.bind name f.tableAlias) ∧ g.Extends (g.bind name g.tableAlias) := by
  have hf := (Step.bind f name).extends
  have hg := (Step.bind g name).extends
  have hbound (r : Scope) (hr : ∀ b ∈ r.bindings, b.2 = r.tableAlias) :
      ∀ b ∈ (r.bind name r.tableAlias).bindings, b.2 = (r.bind name r.tableAlias).tableAlias := by
    intro b hb
    rw [bind_tableAlias]
    rcases mem_bind hb with hb | rfl
    · exact hr b hb
    · rfl
  refine ⟨⟨?_, ?_, ⟨hbound f h.bound.1, hbound g h.bound.2⟩, ?_, ?_⟩, hf, hg⟩
  · rw [bind_entity, bind_entity]
    exact h.entity
  · rw [bind_tableAlias, bind_tableAlias]
    exact h.tableAlias
  · rw [bind_parameters, bind_parameters]
    exact h.parameters
  · exact h.of_same_joins hf hg (bind_joins _ _ _) (bind_joins _ _ _)

/-- A navigation is joined in both scopes, from aliases that stand for the same: in none of them
again, in the new one alone, or in both under the next number of each. -/
theorem Beside.requireJoin (h : Beside s f g) {a b : String} (twins : f.Twin g a b)
    (path table leftColumn rightColumn : String) :
    let required := f.requireJoin path table a leftColumn rightColumn
    let required' := g.requireJoin path table b leftColumn rightColumn
    Beside s required.2 required'.2 ∧ f.Extends required.2 ∧ g.Extends required'.2
      ∧ required.2.Twin required'.2 required.1 required'.1 := by
  intro required required'
  cases hf : f.join? path with
  | some j =>
    -- joined in the new scope means joined in both
    obtain ⟨j', hg⟩ := h.joined hf
    have hrequired : required = (j.tableAlias, f) := requireJoin_of_join? hf _ _ _ _
    have hrequired' : required' = (j'.tableAlias, g) := requireJoin_of_join? hg _ _ _ _
    rw [hrequired, hrequired']
    exact ⟨h, .refl f, .refl g, .join hf hg⟩
  | none =>
    let j : Join := {
      path, table, tableAlias := "t" ++ toString f.nextNumber, leftAlias := a, leftColumn,
      rightColumn }
    have hrequired : required = (j.tableAlias, f.addJoin j) := requireJoin_of_none hf _ _ _ _
    have hjoined : (f.addJoin j).join? path = some j := join?_addJoin hf
    rw [hrequired]
    obtain ⟨added, hadded, htwins⟩ := h.joins
    have hfilter : (f.addJoin j).joins.filter (·.path ∉ s.joins.map (·.path))
        = f.joins.filter (·.path ∉ s.joins.map (·.path))
          ++ [j].filter (·.path ∉ s.joins.map (·.path)) := List.filter_append _ _
    cases hg : g.join? path with
    | some j' =>
      -- the new join is one that the other scope began with, which the filter leaves out
      have hrequired' : required' = (j'.tableAlias, g) := requireJoin_of_join? hg _ _ _ _
      have hbefore := h.joined_before hf hg
      have hextends := f.extends_addJoin j
      rw [hrequired']
      refine ⟨⟨h.entity, h.tableAlias, h.bound, h.parameters, added, hadded, ?_⟩, hextends,
        .refl g, .join hjoined hg⟩
      rw [hfilter, List.filter_cons_of_neg (by simpa [j] using hbefore), List.filter_nil,
        List.append_nil]
      exact htwins.imp fun _ _ => Join.Twin.mono hextends (.refl g)
    | none =>
      let j' : Join := {
        path, table, tableAlias := "t" ++ toString g.nextNumber, leftAlias := b, leftColumn,
        rightColumn }
      have hrequired' : required' = (j'.tableAlias, g.addJoin j') :=
        requireJoin_of_none hg _ _ _ _
      have hjoined' : (g.addJoin j').join? path = some j' := join?_addJoin hg
      have hextends := f.extends_addJoin j
      have hextends' := g.extends_addJoin j'
      -- both joins are new, and the filter keeps the one of the new scope
      have hfresh : path ∉ s.joins.map (·.path) := by
        have habsent := join?_eq_none.1 hg
        rw [hadded, List.map_append, List.mem_append, not_or] at habsent
        exact habsent.1
      have htwin : Join.Twin (f.addJoin j) (g.addJoin j') j j' :=
        ⟨rfl, rfl, rfl, rfl, rfl, .join hjoined hjoined', twins.mono hextends hextends'⟩
      rw [hrequired']
      refine ⟨⟨h.entity, h.tableAlias, h.bound, h.parameters, added ++ [j'], ?_, ?_⟩, hextends,
        hextends', .join hjoined hjoined'⟩
      · show g.joins ++ [j'] = _
        rw [hadded, List.append_assoc]
      · rw [hfilter, List.filter_cons_of_pos (by simpa [j] using hfresh), List.filter_nil]
        exact List.rel_append (htwins.imp fun _ _ => Join.Twin.mono hextends hextends')
          (.cons htwin .nil)

end Scope

/-! ## Steps of compilations -/

/-- Two outcomes that are the same failure, or results that are related. -/
inductive Concordant (Q : α → β → Prop) : Except ε α → Except ε β → Prop where
  | failed (cause : ε) : Concordant Q (.error cause) (.error cause)
  | returned {a : α} {b : β} (related : Q a b) : Concordant Q (.ok a) (.ok b)

namespace CompileM

/-- From two states whose scopes are beside each other the steps lead to such states again, with
concordant outcomes. How results are related depends on the scopes that they come with. -/
def Simulates (s : Scope) (Q : Scope → Scope → α → β → Prop) (x : CompileM α) (y : CompileM β)
    (c c' : Compilation) : Prop :=
  s.Beside c.scope c'.scope →
    s.Beside (x.runFrom c).2.scope (y.runFrom c').2.scope
      ∧ c.scope.Extends (x.runFrom c).2.scope ∧ c'.scope.Extends (y.runFrom c').2.scope
      ∧ Concordant (Q (x.runFrom c).2.scope (y.runFrom c').2.scope) (x.runFrom c).1
        (y.runFrom c').1

section Steps

variable {α β γ δ : Type} {s : Scope} {Q : Scope → Scope → α → β → Prop}
  {P : Scope → Scope → γ → δ → Prop} {c c' : Compilation}

theorem Simulates.pure {a : α} {b : β} (h : Q c.scope c'.scope a b) :
    Simulates s Q (Pure.pure a) (Pure.pure b) c c' :=
  fun hbeside => ⟨hbeside, .refl _, .refl _, .returned h⟩

theorem Simulates.reject (defect : Defect) (node : Expr) :
    Simulates s Q (CompileM.reject defect node) (CompileM.reject defect node) c c' :=
  fun hbeside => ⟨hbeside, .refl _, .refl _, .failed _⟩

theorem Simulates.bind {x : CompileM α} {y : CompileM β} {f : α → CompileM γ} {g : β → CompileM δ}
    (hxy : Simulates s Q x y c c')
    (hfg : ∀ a b c₁ c₁', Q c₁.scope c₁'.scope a b → c.scope.Extends c₁.scope →
      c'.scope.Extends c₁'.scope → Simulates s P (f a) (g b) c₁ c₁') :
    Simulates s P (x >>= f) (y >>= g) c c' := by
  intro hbeside
  obtain ⟨hafter, hgrown, hgrown', houtcomes⟩ := hxy hbeside
  rw [runFrom_bind, runFrom_bind]
  generalize x.runFrom c = first at hafter hgrown houtcomes ⊢
  generalize y.runFrom c' = second at hafter hgrown' houtcomes ⊢
  obtain ⟨outcome, c₁⟩ := first
  obtain ⟨outcome', c₁'⟩ := second
  cases houtcomes with
  | failed cause => exact ⟨hafter, hgrown, hgrown', .failed cause⟩
  | returned related =>
    obtain ⟨hlast, hlonger, hlonger', hresults⟩ := hfg _ _ c₁ c₁' related hgrown hgrown' hafter
    exact ⟨hlast, hgrown.trans hlonger, hgrown'.trans hlonger', hresults⟩

/-- The scopes that are read stand beside each other. -/
theorem Simulates.scope :
    Simulates s (fun f g a b => a = f ∧ b = g ∧ s.Beside f g) CompileM.scope CompileM.scope c c' :=
  fun hbeside => ⟨hbeside, .refl _, .refl _, .returned ⟨rfl, rfl, hbeside⟩⟩

/-- The place of a value is moved by the values that were there before. -/
theorem Simulates.addParameter (v : Value) :
    Simulates s (fun f g => Token.Twin f g s.parameters.length) (CompileM.addParameter v)
      (CompileM.addParameter v) c c' := by
  intro hbeside
  have hposition : c'.scope.parameters.length
      = s.parameters.length + c.scope.parameters.length := by
    rw [hbeside.parameters, List.length_append]
  have hfirst : (CompileM.addParameter v).runFrom c
      = (.ok (.parameter c.scope.parameters.length),
        { c with scope := c.scope.addParameters [v] }) := rfl
  have hsecond : (CompileM.addParameter v).runFrom c'
      = (.ok (.parameter c'.scope.parameters.length),
        { c' with scope := c'.scope.addParameters [v] }) := rfl
  rw [hfirst, hsecond, hposition]
  exact ⟨hbeside.addParameter v, (Scope.Step.parameter _ v).extends,
    (Scope.Step.parameter _ v).extends, .returned (.parameter _)⟩

/-- The same navigation from twin aliases is joined to twin aliases, made or found. -/
theorem Simulates.requireJoin {a b : String} (twins : c.scope.Twin c'.scope a b)
    (path table leftColumn rightColumn : String) :
    Simulates s Scope.Twin (CompileM.requireJoin path table a leftColumn rightColumn)
      (CompileM.requireJoin path table b leftColumn rightColumn) c c' := by
  intro hbeside
  obtain ⟨hafter, hgrown, hgrown', hjoined⟩ :=
    hbeside.requireJoin twins path table leftColumn rightColumn
  exact ⟨hafter, hgrown, hgrown', .returned hjoined⟩

theorem Simulates.bindName (name : String) :
    Simulates s (fun _ _ _ _ => True) (CompileM.bindName name c.scope.tableAlias)
      (CompileM.bindName name c'.scope.tableAlias) c c' := by
  intro hbeside
  obtain ⟨hafter, hgrown, hgrown'⟩ := hbeside.bind name
  exact ⟨hafter, hgrown, hgrown', .returned trivial⟩

/-- Mappings do not depend on the scope. -/
theorem Simulates.mapping (env : Environment) (entity : EntityType) :
    Simulates s (fun _ _ m m' => m' = m) (env.mapping entity) (env.mapping entity) c c' := by
  unfold Environment.mapping
  cases env.mappings entity with
  | ok m => exact .pure rfl
  | error cause => exact fun hbeside => ⟨hbeside, .refl _, .refl _, .failed _⟩

/-! ### Members and rows -/

/-- A row of the root has the alias of the root, whether its name is bound or not. -/
theorem runFrom_parameterAlias (name : String) {entity : EntityType}
    (hrow : entity = c.scope.entity) (hbound : ∀ b ∈ c.scope.bindings, b.2 = c.scope.tableAlias) :
    (parameterAlias name entity).runFrom c = (.ok c.scope.tableAlias, c) := by
  have hscope : CompileM.scope.runFrom c = (.ok c.scope, c) := rfl
  unfold RowMapper.parameterAlias
  rw [runFrom_bind, hscope]
  dsimp only
  cases hb : c.scope.binding? name with
  | some a =>
    obtain ⟨before, after, happend, -⟩ := List.lookup_eq_some_iff.1 hb
    have ha : a = c.scope.tableAlias := hbound (name, a) (by simp [happend])
    rw [ha]
    rfl
  | none =>
    dsimp only
    rw [if_pos hrow]
    rfl

/-- A row of the root stands for the root, bound or not. -/
theorem Simulates.parameterAlias (name : String) {entity : EntityType} (hrow : entity = s.entity) :
    Simulates s (fun f g a b => a = s.tableAlias ∧ b = s.tableAlias ∧ f.Twin g a b)
      (parameterAlias name entity) (parameterAlias name entity) c c' := by
  intro hbeside
  have hfirst := runFrom_parameterAlias (c := c) name (hrow.trans hbeside.entity.1.symm)
    hbeside.bound.1
  have hsecond := runFrom_parameterAlias (c := c') name (hrow.trans hbeside.entity.2.symm)
    hbeside.bound.2
  rw [hfirst, hsecond]
  exact ⟨hbeside, .refl _, .refl _,
    .returned ⟨hbeside.tableAlias.1, hbeside.tableAlias.2, .root⟩⟩

/-- The columns are the same, of aliases that stand for the same. -/
def SameColumn (f g : Scope) (r r' : ColumnReference) : Prop :=
  f.Twin g r.tableAlias r'.tableAlias ∧ r'.column = r.column

/-- A chain of members is followed through the same joins on both sides. -/
theorem Simulates.follow (env : Environment) (node : Expr) {a b : String} (navigation : String)
    (entity : EntityType) (members : List String) (twins : c.scope.Twin c'.scope a b) :
    Simulates s SameColumn (follow env node a navigation entity members)
      (follow env node b navigation entity members) c c' := by
  induction members generalizing a b navigation entity c c' with
  | nil => exact .reject _ _
  | cons segment rest ih =>
    cases rest with
    | nil =>
      rw [RowMapper.follow, RowMapper.follow]
      refine .bind (.mapping env entity) fun m m' c₁ c₁' hm hgrown hgrown' => ?_
      subst hm
      cases m'.member? segment with
      | none => exact .reject _ _
      | some member =>
        cases member with
        | field k | foreign k reference => exact .pure ⟨twins.mono hgrown hgrown', rfl⟩
        | list l => exact .reject _ _
    | cons next rest =>
      rw [RowMapper.follow, RowMapper.follow]
      · refine .bind (.mapping env entity) fun m m' c₁ c₁' hm hgrown hgrown' => ?_
        subst hm
        cases m'.member? segment with
        | none => exact .reject _ _
        | some member =>
          cases member with
          | field k | list l => exact .reject _ _
          | foreign k reference =>
            dsimp only
            split
            · exact .pure ⟨twins.mono hgrown hgrown', rfl⟩
            -- the rest is followed from the joins, which stand for one navigation
            · exact .bind (.requireJoin (twins.mono hgrown hgrown') _ _ _ _)
                fun joined joined' c₂ c₂' hjoined _ _ => ih _ reference.target hjoined
      · simp
      · simp

/-- An access to a member of a row of the root reads the same column behind twin aliases. -/
theorem Simulates.resolveAccess (env : Environment) {node : Expr}
    (hrow : ∀ p, node.path? = some p → p.entity = s.entity) :
    Simulates s SameColumn (resolveAccess env node) (resolveAccess env node) c c' := by
  unfold RowMapper.resolveAccess
  cases hpath : node.path? with
  | none => exact .reject _ _
  | some p =>
    dsimp only
    split
    · exact .reject _ _
    · refine .bind (.parameterAlias _ (hrow p hpath)) fun a b c₁ c₁' ⟨ha, hb, twins⟩ _ _ => ?_
      -- both walks begin with the same text of the navigation
      rw [ha, hb] at twins ⊢
      exact .follow env node s.tableAlias p.entity p.members twins

/-! ### Tokens -/

/-- Compilations to tokens that differ in what their aliases are and by the parameters before. -/
abbrev SimulatesTokens (s : Scope) : CompileM Tokens → CompileM Tokens → Compilation →
    Compilation → Prop :=
  Simulates s fun f g => Tokens.Twins f g s.parameters.length

/-- A column behind twin aliases. -/
theorem twin_column (env : Environment) {f g : Scope} {before : Nat} {a b : String}
    (twins : f.Twin g a b) (column : String) :
    Token.Twin f g before (env.column a column) (env.column b column) := by
  unfold Environment.column
  cases env.context.qualified with
  | true => exact .column twins column
  | false => exact .bare column

theorem Simulates.memberTokens (env : Environment) {node : Expr}
    (hrow : ∀ p, node.path? = some p → p.entity = s.entity) :
    SimulatesTokens s (memberTokens env node) (memberTokens env node) c c' := by
  refine .bind (.resolveAccess env hrow) fun r r' c₁ c₁' ⟨twins, hcolumn⟩ _ _ => .pure ?_
  rw [hcolumn]
  exact .singleton (twin_column env twins r.column)

theorem Simulates.conditionTokens (env : Environment) {node : Expr}
    (hrow : ∀ p, node.path? = some p → p.entity = s.entity) :
    SimulatesTokens s (conditionTokens env node) (conditionTokens env node) c c' := by
  refine .bind (.resolveAccess env hrow) fun r r' c₁ c₁' ⟨twins, hcolumn⟩ _ _ =>
    .bind (.addParameter _) fun t t' c₂ c₂' hplaceholder hgrown hgrown' => .pure ?_
  rw [hcolumn]
  exact .cons (twin_column env (twins.mono hgrown hgrown') r.column)
    (Tokens.Twins.word " = " (.singleton hplaceholder))

theorem Simulates.rowTokens (env : Environment) (name : String) {entity : EntityType}
    (hrow : entity = s.entity) :
    SimulatesTokens s (rowTokens env name entity) (rowTokens env name entity) c c' := by
  refine .bind (.parameterAlias name hrow) fun a b c₁ c₁' ⟨_, _, twins⟩ _ _ =>
    .bind (.mapping env entity) fun m m' c₂ c₂' hm hgrown hgrown' => ?_
  subst hm
  split
  · rename_i key _
    exact .pure (.singleton (twin_column env (twins.mono hgrown hgrown') key.column))
  · exact .reject _ _

theorem Simulates.addParameters (vs : List Value) :
    Simulates s (fun f g => List.Forall₂ (Tokens.Twins f g s.parameters.length))
      (addParameters vs) (addParameters vs) c c' := by
  induction vs generalizing c c' with
  | nil => exact .pure .nil
  | cons v vs ih =>
    exact .bind (.addParameter v) fun t t' c₁ c₁' ht _ _ =>
      .bind ih fun ts ts' c₂ c₂' hts hgrown hgrown' =>
        .pure (.cons (.singleton (ht.mono hgrown hgrown')) hts)

/-- The values of a list take places one behind the other on both sides. -/
theorem Simulates.listTokens (vs : List Value) :
    SimulatesTokens s (listTokens vs) (listTokens vs) c c' := by
  unfold RowMapper.listTokens
  split
  · exact .pure (.parenthesized (.singleton (.word _)))
  · exact .bind (.addParameters vs) fun ps ps' c₁ c₁' hps _ _ =>
      .pure (.parenthesized (.separated hps))

theorem Simulates.valueTokens (v : Value) :
    SimulatesTokens s (valueTokens v) (valueTokens v) c c' := by
  unfold RowMapper.valueTokens
  split
  · exact .pure (.singleton (.word _))
  · exact .bind (.addParameter v) fun t t' c₁ c₁' ht _ _ => .pure (.singleton ht)

/-- The key of an entity takes a place on both sides, or is refused on both. -/
theorem Simulates.keyTokens (env : Environment) (node : Expr) (keys : List Value) :
    SimulatesTokens s (keyTokens env node keys) (keyTokens env node keys) c c' := by
  unfold RowMapper.keyTokens
  split
  · split
    · exact .reject _ _
    · exact .bind (.addParameter _) fun t t' c₁ c₁' ht _ _ => .pure (.singleton ht)
  · exact .reject _ _

end Steps

end CompileM

/-! ## The induction -/

/-- The rows among the nodes are rows of the entity type. -/
def Expr.RowsOf (entity : EntityType) (nodes : List Expr) : Prop :=
  ∀ name row, .parameter name row ∈ nodes → row = entity

theorem Expr.RowsOf.mono {entity : EntityType} {nodes more : List Expr}
    (h : RowsOf entity more) (hsub : nodes ⊆ more) : RowsOf entity nodes :=
  fun name row hmem => h name row (hsub hmem)

/-- An expression about rows of the root compiles to twins in a new scope and in one that was used,
and both stand beside each other afterwards. It fails in both or in none. -/
theorem compile_simulates {env : Environment} (hr : env.Standard) {s : Scope} (e : Expr)
    (hrows : Expr.RowsOf s.entity e.nodes) (parent : Option Expr) (c c' : Compilation) :
    CompileM.SimulatesTokens s (compile env parent e) (compile env parent e) c c' := by
  -- by the expression, from any two states: an operand starts where the one before it ended
  induction e generalizing parent c c' with
  | lambda row body _ ih =>
    have hbody : Expr.RowsOf s.entity body.nodes := hrows.mono (List.subset_cons_self _ _)
    rcases row.parameter_or_ne with ⟨name, entity, rfl⟩ | hrow
    · rw [compile_lambda hr]
      refine .bind .scope fun f g c₁ c₁' ⟨hf, hg, hbeside⟩ _ _ => ?_
      subst hf hg
      rw [hbeside.entity.1, hbeside.entity.2]
      split
      · exact .bind (.bindName name) fun _ _ c₂ c₂' _ _ _ => ih hbody _ c₂ c₂'
      · exact .reject _ _
    · rw [compile_lambda_of_ne hr hrow]
      exact .reject _ _
  | parameter name entity =>
    rw [compile_parameter hr]
    exact .rowTokens env name (hrows name entity List.mem_cons_self)
  | member target name _ =>
    have hpath : ∀ p, (Expr.member target name).path? = some p → p.entity = s.entity :=
      fun p hp => hrows p.parameter p.entity (Expr.root_mem_nodes hp)
    rw [compile_member hr]
    split
    · exact .conditionTokens env hpath
    · split
      · exact .memberTokens env hpath
      · exact .memberTokens env hpath
      · exact .reject _ _
  | constant k =>
    cases k with
    | value v =>
      rw [compile_value hr]
      exact .valueTokens v
    | list vs =>
      rw [compile_list hr]
      exact .listTokens vs
    | entity entity keys =>
      rw [compile_entity hr]
      exact .keyTokens env _ keys
  | unary op arg ih =>
    have harg : Expr.RowsOf s.entity arg.nodes := hrows.mono (List.subset_cons_self _ _)
    rw [compile_unary hr]
    exact .bind (ih harg _ c c') fun ts ts' c₁ c₁' hts _ _ =>
      .pure ((hts.parenthesizedIf _).word op.text)
  | binary op lhs rhs ihl ihr =>
    have hl : Expr.RowsOf s.entity lhs.nodes :=
      hrows.mono fun _ h => List.mem_cons_of_mem _ (List.mem_append_left _ h)
    have hrhs : Expr.RowsOf s.entity rhs.nodes :=
      hrows.mono fun _ h => List.mem_cons_of_mem _ (List.mem_append_right _ h)
    rw [compile_binary hr]
    split
    · rename_i operand htested
      refine .bind (Q := fun f g => Tokens.Twins f g s.parameters.length) ?_
        fun ts ts' c₁ c₁' hts _ _ => .pure ((hts.parenthesizedIf _).append (.singleton (.word _)))
      rcases Expr.eq_of_nullTested? htested with rfl | rfl
      · exact ihl hl _ c c'
      · exact ihr hrhs _ c c'
    -- the tokens of the left side are still alike in the scopes that the right side leaves
    · exact .bind (ihl hl _ c c') fun ts ts' c₁ c₁' hts _ _ =>
        .bind (ihr hrhs _ c₁ c₁') fun us us' c₂ c₂' hus hgrown hgrown' =>
          .pure (((hts.mono hgrown hgrown').parenthesizedIf _).append
            ((hus.parenthesizedIf _).word op.text))
  | convert arg type ih =>
    rw [compile_convert hr]
    exact ih (hrows.mono (List.subset_cons_self _ _)) _ c c'
  | contains collection item ihc ihi =>
    have hc : Expr.RowsOf s.entity collection.nodes :=
      hrows.mono fun _ h => List.mem_cons_of_mem _ (List.mem_append_left _ h)
    have hi : Expr.RowsOf s.entity item.nodes :=
      hrows.mono fun _ h => List.mem_cons_of_mem _ (List.mem_append_right _ h)
    rw [compile_contains hr]
    split
    · exact .pure (.singleton (.word _))
    · exact .bind (ihi hi _ c c') fun ts ts' c₁ c₁' hts _ _ =>
        .bind (ihc hc _ c₁ c₁') fun us us' c₂ c₂' hus hgrown hgrown' =>
          .pure (((hts.mono hgrown hgrown').parenthesizedIf _).append (hus.word " IN "))
    · exact .reject _ _

/-! ## The renaming -/

namespace Scope

variable {f g : Scope}

/-- No join has the alias of columns that are not qualified. -/
theorem Numbered.tableAlias_ne_empty (h : f.Numbered) {j : Join} (hj : j ∈ f.joins) :
    j.tableAlias ≠ "" := by
  have hmem : j.tableAlias ∈ f.joins.map (·.tableAlias) := List.mem_map_of_mem hj
  rw [h.numbered] at hmem
  obtain ⟨i, -, hi⟩ := List.mem_map.1 hmem
  rw [← hi]
  simp

/-- An alias that no join has is not renamed. -/
theorem aliasIn_of_ne {a : String} (h : ∀ j ∈ f.joins, j.tableAlias ≠ a) (g : Scope) :
    f.aliasIn g a = a := by
  have hnone : f.joins.find? (·.tableAlias == a) = none :=
    List.find?_eq_none.2 fun j hj => by simpa using h j hj
  unfold aliasIn
  rw [hnone]

/-- In a numbered scope, what stands for the same is the renamed alias. -/
theorem Twin.aliasIn_eq (h : f.Numbered) (hroot : g.tableAlias = f.tableAlias) {a b : String}
    (twins : f.Twin g a b) : f.aliasIn g a = b := by
  cases twins with
  | root => rw [aliasIn_of_ne (fun j hj => h.tableAlias_ne hj), hroot]
  | @join path j j' first second =>
    have hpath : j.path = path := by simpa using List.find?_some first
    unfold aliasIn
    rw [find?_of_nodup h.nodup_aliases (List.mem_of_find?_eq_some first)]
    simp only [hpath, second, Option.map_some, Option.getD_some]

end Scope

section

variable {f g : Scope} {before : Nat}

/-- Of twin tokens, the one is the other renamed and moved. -/
theorem Token.Twin.moved_eq (h : f.Numbered) (hroot : g.tableAlias = f.tableAlias) {t t' : Token}
    (twins : Token.Twin f g before t t') : t.moved (f.aliasIn g) before = t' := by
  cases twins with
  | word text => rfl
  | bare name =>
    have hempty : f.aliasIn g "" = "" :=
      Scope.aliasIn_of_ne (fun j hj => h.tableAlias_ne_empty hj) g
    rw [Token.moved, hempty]
  | column twins name => rw [Token.moved, twins.aliasIn_eq h hroot]
  | parameter index => rfl

/-- Of twin joins, the one is the other renamed. -/
theorem Join.Twin.renamed_eq (h : f.Numbered) (hroot : g.tableAlias = f.tableAlias) {j j' : Join}
    (twins : Join.Twin f g j j') : j.renamed (f.aliasIn g) = j' := by
  rw [Join.renamed, twins.tableAlias.aliasIn_eq h hroot, twins.leftAlias.aliasIn_eq h hroot,
    ← twins.path, ← twins.kind, ← twins.table, ← twins.leftColumn, ← twins.rightColumn]

/-- Item by item, the second list is the first one under the function. -/
theorem map_eq_of_forall₂ {α β : Type} {r : α → β} {xs : List α} {ys : List β}
    (h : List.Forall₂ (fun x y => r x = y) xs ys) : xs.map r = ys := by
  have hmap := List.forall₂_map_left_iff.2 h
  rwa [List.forall₂_eq_eq_eq] at hmap

end

/-- A scope that was used stands beside the new one. -/
theorem Scope.Reached.beside {m : TypeMapping} {s : Scope} (h : Scope.Reached m s) :
    s.Beside (.ofMapping m) s where
  entity := ⟨h.steps.entity.symm, rfl⟩
  tableAlias := ⟨h.numbered.tableAlias.symm, rfl⟩
  bound := ⟨fun _ hb => absurd hb List.not_mem_nil, h.wellFormed.bound⟩
  parameters := (List.append_nil _).symm
  joins := ⟨[], (List.append_nil _).symm, .nil⟩

/-- An expression over rows of the root, under the standard table, and any scope that compilations
under that table led to, be it that they failed. The expression compiles there if it compiles into
a new scope, and fails with the same error otherwise. Its tokens are those of the new scope, with
the placeholders moved behind the parameters that were there and each alias of a join renamed to
that of the join for the same navigation; there is one such join. The scope gets the parameters of
the new one, and of its joins those for navigations that were not joined yet, in their order. -/
theorem compile_independent {m : TypeMapping} {s : Scope} (hs : Scope.Reached m s)
    {env : Environment} (hr : env.Standard) {e : Expr} (hrows : Expr.RowsOf m.entity e.nodes) :
    let fresh := e.compileInto env (.ofMapping m)
    let after := e.compileInto env s
    let rename := fresh.scope.aliasIn after.scope
    after.outcome = fresh.outcome.map (·.map (Token.moved rename s.parameters.length))
      ∧ after.scope.parameters = s.parameters ++ fresh.scope.parameters
      ∧ after.scope.joins = s.joins
        ++ (fresh.scope.joins.filter (·.path ∉ s.joins.map (·.path))).map (Join.renamed rename)
      ∧ (∀ j ∈ fresh.scope.joins, ∃ j' ∈ after.scope.joins,
        j'.path = j.path ∧ j'.tableAlias = rename j.tableAlias)
      ∧ (after.scope.joins.map (·.path)).Nodup
      ∧ rename fresh.scope.tableAlias = after.scope.tableAlias := by
  intro fresh after rename
  have hentity : s.entity = m.entity := hs.steps.entity
  obtain ⟨hbeside, hsame⟩ : s.Beside fresh.scope after.scope
      ∧ Concordant (Tokens.Twins fresh.scope after.scope s.parameters.length) fresh.outcome
        after.outcome := by
    obtain ⟨hbeside, -, -, hsame⟩ :=
      compile_simulates hr e (hentity ▸ hrows) none ⟨.ofMapping m, []⟩ ⟨s, []⟩ hs.beside
    exact ⟨hbeside, hsame⟩
  -- the aliases of joins are told apart by their numbers, so that the relation is a function
  have hnumbered : fresh.scope.Numbered := (Scope.Reached.compile .new hr e).numbered
  have hnumbered' : after.scope.Numbered := (hs.compile hr e).numbered
  have hroot : after.scope.tableAlias = fresh.scope.tableAlias :=
    hbeside.tableAlias.2.trans hbeside.tableAlias.1.symm
  obtain ⟨added, hadded, htwins⟩ := hbeside.joins
  refine ⟨?_, hbeside.parameters, ?_, fun j hj => ?_, hnumbered'.paths, ?_⟩
  · generalize fresh.outcome = outcome at hsame ⊢
    generalize after.outcome = outcome' at hsame ⊢
    cases hsame with
    | failed cause => rfl
    | @returned ts ts' related =>
      have hmoved : ts.map (Token.moved rename s.parameters.length) = ts' :=
        map_eq_of_forall₂ (related.imp fun _ _ => Token.Twin.moved_eq hnumbered hroot)
      exact congrArg Except.ok hmoved.symm
  · have hrenamed := map_eq_of_forall₂
      (htwins.imp fun _ _ => Join.Twin.renamed_eq hnumbered hroot)
    rw [hadded, ← hrenamed]
  · have hfound : fresh.scope.join? j.path = some j := find?_of_nodup hnumbered.paths hj
    obtain ⟨j', hj'⟩ := hbeside.joined hfound
    have htwin : fresh.scope.Twin after.scope j.tableAlias j'.tableAlias := .join hfound hj'
    exact ⟨j', List.mem_of_find?_eq_some hj', by simpa using List.find?_some hj',
      (htwin.aliasIn_eq hnumbered hroot).symm⟩
  · exact Scope.Twin.root.aliasIn_eq hnumbered hroot

/-- Behind the name of a mentor and a comparison that failed, the manager of an employee is `t2`
and the department is new. In a new scope they are `t1` and `t2`. -/
theorem compile_independent_leading :
    let d := Dialect.generic
    let env := d.environment Company.mappings {}
    let named (row : Expr) : Expr :=
      .binary .equal (.member row "name") (.constant (.value (.of (.varchar "Ann"))))
    let mentored := named (.member (.parameter "x" Company.employee) "mentor")
    let led : Expr := .lambda (.parameter "x" Company.employee)
      (.binary .or (named Company.leader) (named (.member Company.leader "department")))
    let new := Scope.ofMapping (Company.mapping Company.employee)
    let s := (Company.misled.compileInto env (mentored.compileInto env new).scope).scope
    let fresh := led.compileInto env new
    let after := led.compileInto env s
    after.outcome = fresh.outcome.map
        (·.map (Token.moved (fresh.scope.aliasIn after.scope) s.parameters.length))
      ∧ fresh.outcome.toOption.map d.text = some "t1.\"name\" = @p0 OR t2.\"name\" = @p1"
      ∧ after.outcome.toOption.map d.text = some "t2.\"name\" = @p1 OR t3.\"name\" = @p2"
      ∧ after.scope.joins.map (fun j => (j.path, j.leftAlias, j.tableAlias))
        = [("t0.mentor", "t0", "t1"), ("t0.manager", "t0", "t2"),
          ("t0.manager.department", "t2", "t3")] := by
  intro d env named mentored led new s fresh after
  have hr : env.Standard := rfl
  have hs : Scope.Reached (Company.mapping Company.employee) s :=
    .compile (.compile .new hr mentored) hr Company.misled
  have hrows : Expr.RowsOf (Company.mapping Company.employee).entity led.nodes := by
    have hnodes : ∀ node ∈ led.nodes, ∀ row ∈ node.row?,
        row.2 = (Company.mapping Company.employee).entity := by
      decide +kernel
    exact fun name row hmem => hnodes _ hmem (name, row) rfl
  obtain ⟨houtcome, -⟩ := compile_independent hs hr hrows
  exact ⟨houtcome, by decide +kernel, by decide +kernel, by decide +kernel⟩

end RowMapper
