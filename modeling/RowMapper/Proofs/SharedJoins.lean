import Mathlib.Data.List.Induction
import RowMapper.Proofs.ColumnReferences
import RowMapper.Proofs.Rendering

/-!
# Which accesses share a join

An access to a member goes through foreign objects and reads a column behind the alias of the
last one that is joined. The compiler finds joins by a text: the alias where the access starts
and the names of the members on the way, with dots between them. So two accesses share a join
exactly if these texts are the same, and they go through the same foreign objects if the texts
can be cut in one way only.

* `Crossing` is a foreign object that is joined on the way, `Mappings.crossings` those of a chain.
* `Scope.Reads` is what a row or an access reads in a scope.
* `Compiles.reads` finds what is read in the tokens of a compiled expression.
* `joins_shared_of_calls` is the result for all that is compiled into a statement.
-/

namespace RowMapper

/-! ## Foreign objects on the way -/

/-- A foreign object that is joined on the way along a chain of members. -/
structure Crossing where
  owner : EntityType
  member : String
  /-- The column that holds the key of the other row. -/
  column : String
  reference : Reference
  deriving DecidableEq

/-- The text of the navigation that joins the foreign objects, from the alias of a row. -/
def Crossing.navigation (start : String) (crossings : List Crossing) : String :=
  crossings.foldl (fun n c => n ++ "." ++ c.member) start

/-- The foreign objects that a chain of members joins, in order. The last one is not joined if
the chain ends in the key that it holds. -/
def Mappings.crossings (mappings : Mappings) (entity : EntityType) : List String → List Crossing
  | [] | [_] => []
  | segment :: rest =>
    match (mappings entity).toOption.bind (·.member? segment) with
    | some (.foreign c reference) =>
      if rest = [reference.targetKey] then []
      else ⟨entity, segment, c.column, reference⟩ :: mappings.crossings reference.target rest
    | _ => []

section

variable {mappings : Mappings}

/-- The first foreign object of a chain, and those behind it. -/
theorem Mappings.crossings_eq_cons {entity : EntityType} {members : List String} {x : Crossing}
    {xs : List Crossing} (h : mappings.crossings entity members = x :: xs) :
    ∃ m c rest, mappings entity = .ok m ∧ m.member? x.member = some (.foreign c x.reference)
      ∧ x = ⟨entity, x.member, c.column, x.reference⟩
      ∧ xs = mappings.crossings x.reference.target rest := by
  cases members with
  | nil => cases h
  | cons segment rest =>
    cases rest with
    | nil => cases h
    | cons next rest =>
      rw [Mappings.crossings] at h
      · split at h
        · rename_i c reference hmember
          split at h
          · cases h
          · obtain ⟨rfl, rfl⟩ := List.cons.inj h
            obtain ⟨m, hm, hmember⟩ := Option.bind_eq_some_iff.1 hmember
            exact ⟨m, c, next :: rest, Except.eq_ok_of_toOption hm, hmember, rfl, rfl⟩
        · cases h
      · simp

/-- The names tell the foreign objects on the way from a type. -/
theorem Mappings.crossings_ext {entity : EntityType} {members members' : List String}
    (h : (mappings.crossings entity members).map (·.member)
      = (mappings.crossings entity members').map (·.member)) :
    mappings.crossings entity members = mappings.crossings entity members' := by
  generalize hx : mappings.crossings entity members = xs at h
  generalize hy : mappings.crossings entity members' = ys at h
  induction xs generalizing entity members members' ys with
  | nil => exact (List.map_eq_nil_iff.1 h.symm).symm
  | cons x xs ih =>
    cases ys with
    | nil => cases h
    | cons y ys =>
      obtain ⟨hname, hnames⟩ : x.member = y.member ∧ xs.map (·.member) = ys.map (·.member) :=
        List.cons.inj h
      obtain ⟨m, c, rest, hm, hmember, hxeq, hxs⟩ := Mappings.crossings_eq_cons hx
      obtain ⟨m', c', rest', hm', hmember', hyeq, hys⟩ := Mappings.crossings_eq_cons hy
      -- the type has one mapping, and the mapping one member of the name
      obtain rfl := Except.ok.inj (hm.symm.trans hm')
      rw [hname, hmember', Option.some.injEq, MemberMapping.foreign.injEq] at hmember
      obtain ⟨hc, href⟩ := hmember
      rw [← href] at hxs
      rw [hxeq, hyeq, hname, hc, href, ih hxs.symm ys hys.symm hnames]

/-- No foreign object on the way has a dot in its name. -/
theorem Mappings.Navigable.undotted_crossings (hm : mappings.Navigable) {entity : EntityType}
    {members : List String} :
    ∀ x ∈ mappings.crossings entity members, '.' ∉ x.member.toList := by
  generalize hx : mappings.crossings entity members = xs
  induction xs generalizing entity members with
  | nil => exact fun x hmem => absurd hmem List.not_mem_nil
  | cons x xs ih =>
    obtain ⟨m, c, rest, hmapping, hmember, -, hxs⟩ := Mappings.crossings_eq_cons hx
    exact List.forall_mem_cons.2 ⟨hm.undotted _ _ _ _ _ hmapping hmember, ih hxs.symm⟩

end

namespace Crossing

theorem navigation_concat (start : String) (xs : List Crossing) (x : Crossing) :
    navigation start (xs ++ [x]) = navigation start xs ++ "." ++ x.member := by
  rw [navigation, List.foldl_append]
  rfl

/-- From the root, a navigation through names without dots is cut in one way only. -/
theorem map_member_eq_of_navigation {xs ys : List Crossing}
    (hxs : ∀ x ∈ xs, '.' ∉ x.member.toList) (hys : ∀ y ∈ ys, '.' ∉ y.member.toList)
    (h : navigation "t0" xs = navigation "t0" ys) :
    xs.map (·.member) = ys.map (·.member) := by
  -- from the ends, where the last names are cut off
  induction xs using List.reverseRec generalizing ys with
  | nil =>
    rcases List.eq_nil_or_concat ys with rfl | ⟨front, last, rfl⟩
    · rfl
    · rw [List.concat_eq_append, navigation_concat] at h
      exact absurd h (Scope.root_ne_navigation _ _)
  | append_singleton xs x ih =>
    rcases List.eq_nil_or_concat ys with rfl | ⟨front, last, rfl⟩
    · rw [navigation_concat] at h
      exact absurd h.symm (Scope.root_ne_navigation _ _)
    · rw [List.concat_eq_append] at h hys ⊢
      rw [navigation_concat, navigation_concat] at h
      obtain ⟨hfronts, hlasts⟩ := List.forall_mem_append.1 hys
      obtain ⟨hxs, hx⟩ := List.forall_mem_append.1 hxs
      obtain ⟨hnavigation, hname⟩ := Scope.navigation_inj (hx x List.mem_cons_self)
        (hlasts last List.mem_cons_self) h
      rw [List.map_append, List.map_append, ih hxs hfronts hnavigation, List.map_singleton,
        List.map_singleton, hname]

end Crossing

/-! ## What an access reads -/

namespace Scope

/-- A row reads its key, an access the column at the end of its chain. Both start at the alias
of a row; an access goes through the foreign objects to another alias. -/
inductive Reads (mappings : Mappings) (s : Scope) :
    Expr → String → List Crossing → String → String → Prop where
  | row {name entity start m key} (alias? : s.rowAlias? name entity = some start)
      (mapping : mappings entity = .ok m) (single : m.primaryKeys = [key]) :
      Reads mappings s (.parameter name entity) start [] start key.column
  | access {node p start a column} (chain : node.path? = some p)
      (alias? : s.rowAlias? p.parameter p.entity = some start)
      (located : s.locate mappings start start p.entity p.members = some (a, column)) :
      Reads mappings s node start (mappings.crossings p.entity p.members) a column

section

variable {mappings : Mappings} {s s' : Scope} {a n b column : String} {entity : EntityType}
  {members : List String}

/-- Where a chain ends that is located: at the alias it starts at if it joins nothing, else the
join for its first foreign object is there and the rest of the chain goes on from it. -/
theorem locate_cases (h : s.locate mappings a n entity members = some (b, column)) :
    (mappings.crossings entity members = [] ∧ b = a)
      ∨ ∃ m c reference segment rest j, mappings entity = .ok m
        ∧ m.member? segment = some (.foreign c reference)
        ∧ members = segment :: rest
        ∧ mappings.crossings entity members
          = ⟨entity, segment, c.column, reference⟩ :: mappings.crossings reference.target rest
        ∧ s.join? (n ++ "." ++ segment) = some j
        ∧ s.locate mappings j.tableAlias (n ++ "." ++ segment) reference.target rest
          = some (b, column) := by
  cases members with
  | nil => cases h
  | cons segment rest =>
    cases rest with
    | nil =>
      simp only [locate, Option.bind_eq_bind, Option.bind_eq_some_iff, Option.pure_def,
        Option.some.injEq, Prod.mk.injEq] at h
      obtain ⟨-, -, -, -, rfl, -⟩ := h
      exact .inl ⟨rfl, rfl⟩
    | cons next rest =>
      rw [locate] at h
      · obtain ⟨m, hm, h⟩ := Option.bind_eq_some_iff.1 h
        have hmapping := Except.eq_ok_of_toOption hm
        cases hmember : m.member? segment with
        | none =>
          rw [hmember] at h
          cases h
        | some member =>
          rw [hmember] at h
          cases member with
          | field | list => cases h
          | foreign c reference =>
            have hfound : (mappings entity).toOption.bind (·.member? segment)
                = some (.foreign c reference) := by
              rw [hm]
              exact hmember
            have hcrossings : mappings.crossings entity (segment :: next :: rest)
                = if next :: rest = [reference.targetKey] then []
                  else ⟨entity, segment, c.column, reference⟩
                    :: mappings.crossings reference.target (next :: rest) := by
              rw [Mappings.crossings, hfound]
              simp
            -- a chain that ends with the target key of the reference crosses nothing
            by_cases hkey : next :: rest = [reference.targetKey]
            · simp only [if_pos hkey] at h
              rw [if_pos hkey] at hcrossings
              exact .inl ⟨hcrossings, (congrArg Prod.fst (Option.some.inj h)).symm⟩
            · simp only [if_neg hkey] at h
              rw [if_neg hkey] at hcrossings
              obtain ⟨j, hj, h⟩ := Option.bind_eq_some_iff.1 h
              exact .inr ⟨m, c, reference, segment, next :: rest, j, hmapping, hmember, rfl,
                hcrossings, hj, h⟩
      · simp

/-- The alias at the end is that of the join for the navigation, if there are joins. -/
theorem join?_of_locate (h : s.locate mappings a n entity members = some (b, column)) :
    (mappings.crossings entity members = [] ∧ b = a)
      ∨ ∃ j, s.join? (Crossing.navigation n (mappings.crossings entity members)) = some j
        ∧ j.tableAlias = b := by
  induction members generalizing a n entity with
  | nil => cases h
  | cons segment rest ih =>
    rcases locate_cases h with hnone | ⟨m, c, reference, _, _, j, -, -, heq, hcrossings, hj, htail⟩
    · exact .inl hnone
    · obtain ⟨rfl, rfl⟩ := List.cons.inj heq
      rw [hcrossings]
      right
      rcases ih htail with ⟨hlast, rfl⟩ | htail
      · rw [hlast]
        exact ⟨j, hj, rfl⟩
      · exact htail

/-- An alias is found for a row exactly if its name is bound or its type is that of the root, and
then it is the alias of the root. -/
theorem WellFormed.rowAlias?_iff (wf : s.WellFormed) {name : String} :
    s.rowAlias? name entity = some a ↔
      a = s.tableAlias ∧ (entity = s.entity ∨ ∃ b ∈ s.bindings, b.1 = name) := by
  constructor
  · intro h
    refine ⟨wf.rowAlias h, ?_⟩
    unfold rowAlias? at h
    cases hb : s.binding? name with
    | some bound =>
      -- a name that is bound stands for the root, whatever the type of the row
      obtain ⟨before, after, happend, -⟩ := List.lookup_eq_some_iff.1 hb
      exact .inr ⟨(name, bound), by simp [happend], rfl⟩
    | none =>
      simp only [hb] at h
      split at h
      · rename_i hentity
        exact .inl hentity
      · cases h
  · rintro ⟨rfl, hrow⟩
    unfold rowAlias?
    cases hb : s.binding? name with
    | some bound =>
      obtain ⟨before, after, happend, -⟩ := List.lookup_eq_some_iff.1 hb
      exact congrArg some (wf.bound (name, bound) (by simp [happend]))
    | none =>
      rcases hrow with rfl | ⟨x, hx, rfl⟩
      · exact if_pos rfl
      · exact absurd (List.lookup_eq_none_iff.1 hb x hx) (by simp)

theorem Step.bound (step : Step s s') {name : String} (h : ∃ b ∈ s.bindings, b.1 = name) :
    ∃ b ∈ s'.bindings, b.1 = name := by
  cases step with
  | parameter v => exact h
  | join path table leftAlias leftColumn rightColumn known =>
    cases hj : s.join? path with
    | some j => rwa [requireJoin_of_join? hj]
    | none => rwa [requireJoin_of_none hj]
  | bind row =>
    obtain ⟨b, hb, rfl⟩ := h
    unfold Scope.bind
    split
    · refine ⟨_, List.mem_map_of_mem hb, ?_⟩
      split
      · rename_i hrow
        exact (by simpa using hrow : b.1 = row).symm
      · rfl
    · exact ⟨b, List.mem_append_left _ hb, rfl⟩

/-- A row that is known keeps its alias. -/
theorem Steps.rowAlias? (steps : Steps s s') (wf : s.WellFormed) {name : String}
    (h : s.rowAlias? name entity = some a) : s'.rowAlias? name entity = some a := by
  obtain ⟨rfl, hrow⟩ := wf.rowAlias?_iff.1 h
  refine (steps.wellFormed wf).rowAlias?_iff.2 ⟨(steps.extends).tableAlias.symm, ?_⟩
  rcases hrow with hentity | hbound
  · exact .inl (hentity.trans steps.entity.symm)
  · right
    induction steps with
    | refl => exact hbound
    | tail _ step ih => exact step.bound ih

/-! ### Accesses that read the same alias -/

/-- What is read behind a join is read from the alias of the join for the navigation. -/
theorem Reads.join? {node : Expr} {start : String} {crossings : List Crossing}
    (h : s.Reads mappings node start crossings a column) (hjoins : crossings ≠ []) :
    ∃ j, s.join? (Crossing.navigation start crossings) = some j ∧ j.tableAlias = a := by
  cases h with
  | row => exact absurd rfl hjoins
  | access _ _ located => exact (join?_of_locate located).resolve_left fun h => hjoins h.1

/-- Behind joins, the same alias is read exactly at the end of the same navigation. -/
theorem Numbered.reads_iff (h : s.Numbered) {x y : Expr} {start start' a' column' : String}
    {xs ys : List Crossing} (hx : s.Reads mappings x start xs a column) (hxs : xs ≠ [])
    (hy : s.Reads mappings y start' ys a' column') (hys : ys ≠ []) :
    a = a' ↔ Crossing.navigation start xs = Crossing.navigation start' ys := by
  obtain ⟨i, hi, rfl⟩ := hx.join? hxs
  obtain ⟨j, hj, rfl⟩ := hy.join? hys
  constructor
  · intro halias
    obtain rfl := h.join_ext (List.mem_of_find?_eq_some hi) (List.mem_of_find?_eq_some hj) halias
    have hpath : i.path = Crossing.navigation start xs := by simpa using List.find?_some hi
    have hpath' : i.path = Crossing.navigation start' ys := by simpa using List.find?_some hj
    exact hpath.symm.trans hpath'
  · intro hnavigation
    rw [hnavigation, hj] at hi
    rw [Option.some.inj hi]

/-- The join under the alias at the end of a chain is made for the last foreign object. -/
theorem Navigable.join_of_locate {root : TypeMapping} {names : String → Prop}
    (hs : s.Navigable mappings root names) (hm : mappings.Navigable)
    (hstands : s.StandsFor mappings a n entity)
    (h : s.locate mappings a n entity members = some (b, column)) :
    ∀ x ∈ (mappings.crossings entity members).getLast?, ∃ j ∈ s.joins, j.tableAlias = b
      ∧ j.table = x.reference.targetTable ∧ j.leftColumn = x.column
      ∧ j.rightColumn = x.reference.targetKeyColumn := by
  induction members generalizing a n entity with
  | nil => cases h
  | cons segment rest ih =>
    rcases locate_cases h with
      ⟨hnone, -⟩ | ⟨m, c, reference, _, _, j, mapping, member, heq, hcrossings, hj, htail⟩
    · rw [hnone]
      exact nofun
    · obtain ⟨rfl, rfl⟩ := List.cons.inj heq
      obtain ⟨hmem, -, hthrough⟩ := hs.through_of_join? hm hstands mapping member hj
      have hnext : s.StandsFor mappings j.tableAlias (n ++ "." ++ segment) reference.target :=
        hthrough.path ▸ hthrough.standsFor hmem
      intro x hx
      rw [hcrossings] at hx
      cases hrest : mappings.crossings reference.target rest with
      | nil =>
        -- the chain joins nothing more, so that it ends at this join
        rw [hrest] at hx
        obtain rfl := Option.some.inj hx
        rcases locate_cases htail with ⟨-, rfl⟩ | ⟨_, _, _, _, _, _, -, -, -, hmore, -⟩
        · exact ⟨j, hmem, rfl, hthrough.table, hthrough.leftColumn, hthrough.rightColumn⟩
        · rw [hrest] at hmore
          cases hmore
      | cons y ys =>
        rw [hrest, List.getLast?_cons_cons] at hx
        exact ih hnext htail x (hrest ▸ hx)

end

end Scope

/-! ## Accesses of an expression -/

/-- The rows and accesses that the expression writes as columns, in order. -/
def Expr.accesses : Expr → List Expr
  | .lambda _ body => body.accesses
  | .parameter name entity => [.parameter name entity]
  | .member target name => [.member target name]
  | .constant _ => []
  | .unary _ arg => arg.accesses
  | .binary op lhs rhs =>
    if (nullTested? op lhs rhs).isNone then lhs.accesses ++ rhs.accesses
    else if lhs.isNullConstant then rhs.accesses
    else lhs.accesses
  | .convert arg _ => arg.accesses
  | .contains collection item =>
    match collection.unwrapConvert with
    | .constant (.list (_ :: _)) => item.accesses
    | _ => []

/-- The row that an access starts at is a node of the expression. -/
theorem Expr.root_mem_nodes_of_mem_accesses {e x : Expr} (hx : x ∈ e.accesses) {p : Path}
    (h : x.path? = some p) : p.root ∈ e.nodes := by
  induction e with
  | lambda row body _ ih => exact List.mem_cons_of_mem _ (ih hx)
  | parameter name entity | member target name =>
    obtain rfl := List.mem_singleton.1 hx
    exact root_mem_nodes h
  | constant c => exact absurd hx List.not_mem_nil
  | unary op arg ih | convert arg type ih => exact List.mem_cons_of_mem _ (ih hx)
  | binary op lhs rhs ihl ihr =>
    -- the accesses of a test for NULL are those of the side that is tested
    have hside : x ∈ lhs.accesses ∨ x ∈ rhs.accesses := by
      rw [accesses] at hx
      split at hx
      · exact List.mem_append.1 hx
      · split at hx
        · exact .inr hx
        · exact .inl hx
    refine List.mem_cons_of_mem _ ?_
    rcases hside with hx | hx
    · exact List.mem_append_left _ (ihl hx)
    · exact List.mem_append_right _ (ihr hx)
  | contains collection item _ ih =>
    rw [accesses] at hx
    split at hx
    · exact List.mem_cons_of_mem _ (List.mem_append_right _ (ih hx))
    · exact absurd hx List.not_mem_nil

/-- The token is a column. -/
def Token.isColumn : Token → Bool
  | .identifier _ _ => true
  | _ => false

/-- The columns among the tokens. -/
def Tokens.columns (ts : Tokens) : Tokens := ts.filter Token.isColumn

/-- Columns are found part by part. -/
@[simp] theorem Tokens.columns_append (ts us : Tokens) :
    Tokens.columns (ts ++ us) = ts.columns ++ us.columns :=
  List.filter_append ts us

@[simp] theorem Tokens.columns_word (w : String) (ts : Tokens) :
    Tokens.columns (.word w :: ts) = ts.columns := rfl

@[simp] theorem Tokens.columns_parenthesizedIf (needed : Bool) (ts : Tokens) :
    Tokens.columns (Tokens.parenthesizedIf needed ts) = ts.columns := by
  cases needed with
  | true => exact (columns_append ts [.word ")"]).trans (List.append_nil _)
  | false => rfl

@[simp] theorem Tokens.columns_nullTest (ts : Tokens) (negated : Bool) :
    Tokens.columns (ts ++ [nullTest negated]) = ts.columns := by
  rw [columns_append]
  exact List.append_nil _

@[simp] theorem Tokens.columns_parameterList (first count : Nat) :
    Tokens.columns (Tokens.parameterList first count) = [] := by
  apply List.filter_eq_nil_iff.2
  intro t ht
  rcases mem_of_mem_parameterList ht with ⟨w, -, rfl⟩ | ⟨i, -, rfl⟩
  · exact Bool.false_ne_true
  · exact Bool.false_ne_true

/-- The token is the column that the row or access reads in the scope. -/
def Scope.Writes (env : Environment) (s : Scope) (node : Expr) (t : Token) : Prop :=
  ∃ start crossings a column, s.Reads env.mappings node start crossings a column
    ∧ t = env.column a column

/-- An access that is resolved is written as its column, then and later. -/
theorem Resolves.writes {env : Environment} {s s₁ last : Scope} {node : Expr}
    {ref : ColumnReference} (h : Resolves env s node ref s₁) (wf : s.WellFormed)
    (later : Scope.Steps s₁ last) :
    last.Writes env node (env.column ref.tableAlias ref.column) := by
  obtain ⟨path, start, hpath, hrow, hwalk⟩ := h
  have hknows := Scope.knows_rowAlias hrow
  have hrow' := Scope.Steps.rowAlias? ((hwalk.steps hknows).1.trans later) wf hrow
  exact ⟨start, _, _, _, .access hpath hrow'
    (hwalk.locate hknows (Scope.Steps.extends later)), rfl⟩

/-- The columns in the tokens of a compiled expression are, one after the other, what its rows and
accesses read, in every later scope. -/
theorem Compiles.reads {env : Environment} {parent : Option Expr} {e : Expr} {s s' last : Scope}
    {ts : Tokens} (h : Compiles env parent e s ts s') (wf : s.WellFormed)
    (later : Scope.Steps s' last) : List.Forall₂ (last.Writes env) e.accesses ts.columns := by
  -- by the derivation: a node has the columns of its operands in the order it writes them, and
  -- every later scope keeps what was read before
  induction h with
  | lambda inner ih => exact ih ((Scope.Step.bind _ _).wellFormed wf) later
  | @nullTest parent op lhs rhs operand s ts s' tested inner ih =>
    have hoperand : (Expr.binary op lhs rhs).accesses = operand.accesses :=
      Expr.side_of_nullTested? tested Expr.accesses _
    rw [hoperand, Tokens.columns_nullTest, Tokens.columns_parenthesizedIf]
    exact ih wf later
  | binary untested first second ihl ihr =>
    have hright := ihr (Scope.Steps.wellFormed first.steps wf) later
    have hleft := ihl wf (second.steps.trans later)
    simp only [Expr.accesses, untested, Option.isNone_none, if_true, Tokens.columns_append,
      Tokens.columns_word, Tokens.columns_parenthesizedIf]
    exact List.rel_append hleft hright
  | unary inner ih =>
    rw [Tokens.columns_word, Tokens.columns_parenthesizedIf]
    exact ih wf later
  | convert inner ih => exact ih wf later
  | nothing empty =>
    rw [Expr.accesses, empty]
    exact .nil
  | @membership parent collection item s ts s₁ vs list filled inner ih =>
    obtain ⟨v, more, rfl⟩ := List.exists_cons_of_ne_nil filled
    rw [Expr.accesses, list, Tokens.columns_append, Tokens.columns_word,
      Tokens.columns_parameterList, List.append_nil, Tokens.columns_parenthesizedIf]
    exact ih wf ((Scope.steps_addParameters _ _).trans later)
  | emptyList | key | null | value => exact .nil
  | list filled =>
    rw [Tokens.columns_parameterList]
    exact .nil
  | row alias? mapping single =>
    exact .cons ⟨_, _, _, _, .row (later.rowAlias? wf alias?) mapping single, rfl⟩ .nil
  | condition admitted resolved =>
    exact .cons (resolved.writes wf ((Scope.steps_addParameters _ _).trans later)) .nil
  | member plain resolved => exact .cons (resolved.writes wf later) .nil

/-! ## Statements -/

section

variable {mappings : Mappings} {root : TypeMapping} {s : Scope} {all : List Expr}

/-- Where the names of foreign objects have no dot in them and rows with a bound name are rows of
the root, an access behind joins starts at the root, and the alias that it reads is that of the
join made for its last foreign object. -/
theorem Scope.Navigable.reads (hs : s.Navigable mappings root (Scope.Binds root.entity all))
    (hm : mappings.Navigable) (hrows : Scope.Agreeing root.entity all) {node : Expr}
    (hnode : ∀ p, node.path? = some p → p.root ∈ all) {start a column : String}
    {crossings : List Crossing} (h : s.Reads mappings node start crossings a column)
    (hjoins : crossings ≠ []) :
    start = "t0" ∧ (∃ members, crossings = mappings.crossings root.entity members)
      ∧ ∃ j ∈ s.joins, j.tableAlias = a
        ∧ j.table = (crossings.getLast hjoins).reference.targetTable
        ∧ j.leftColumn = (crossings.getLast hjoins).column
        ∧ j.rightColumn = (crossings.getLast hjoins).reference.targetKeyColumn := by
  cases h with
  | row => exact absurd rfl hjoins
  | @access _ path _ _ _ chain alias? located =>
    have hstands := hs.standsFor_rowAlias (hrows.row (hnode path chain)) alias?
    have hstart : start = s.tableAlias := by
      rcases Scope.rowAlias?_eq_some alias? with hroot | ⟨b, hb, rfl⟩
      · exact hroot
      · exact (hs.bound b hb).2
    have hentity : path.entity = root.entity := by
      have hroot : s.StandsFor mappings s.tableAlias s.tableAlias s.entity := .root
      rw [hstart] at hstands
      exact (hs.unique hstands hroot).2.trans hs.entity
    refine ⟨hstart.trans hs.tableAlias, ⟨path.members, by rw [hentity]⟩, ?_⟩
    exact hs.join_of_locate hm hstands located _ (List.getLast?_eq_some_getLast hjoins)

end

/-- Which accesses share a join, in a statement over a mapping of a registry, whatever is compiled
into it. The columns of an expression are, one after the other, what its rows and accesses read
at the end. Two accesses behind joins read from the same alias exactly if they have the same
navigation. If the names of foreign objects have no dot in them, and a row whose name is bound is
one of the root, that is if they start at the same alias and go through the same foreign objects;
then the join under the alias is made for the last one of these. -/
theorem joins_shared_of_calls {schema : Schema} {r : Registry} (hr : Registry.Reached schema r)
    {d : Dialect} (hd : d ∈ Dialect.shipped) {entity : EntityType} {m : TypeMapping}
    (hm : r.lookup schema entity = .ok m) (calls : List (Context × Expr)) :
    let mappings : Mappings := r.lookup schema
    let last := (Scope.ofMapping m).compileAll d mappings calls
    (∀ before context e after, calls = before ++ (context, e) :: after → ∀ ts,
        (e.compileInto (d.environment mappings context)
          ((Scope.ofMapping m).compileAll d mappings before)).outcome = .ok ts →
        List.Forall₂ (last.Writes (d.environment mappings context)) e.accesses ts.columns)
      ∧ ∀ x ∈ calls.flatMap (·.2.accesses), ∀ y ∈ calls.flatMap (·.2.accesses),
        ∀ start xs a column start' ys a' column' (hxs : xs ≠ []), ys ≠ [] →
        last.Reads mappings x start xs a column → last.Reads mappings y start' ys a' column' →
        (a = a' ↔ Crossing.navigation start xs = Crossing.navigation start' ys)
          ∧ (schema.Undotted → Scope.Agreeing entity (Scope.nodesOf calls) →
            (a = a' ↔ start = start' ∧ xs = ys)
              ∧ ∃ j ∈ last.joins, j.tableAlias = a
                ∧ j.table = (xs.getLast hxs).reference.targetTable
                ∧ j.leftColumn = (xs.getLast hxs).column
                ∧ j.rightColumn = (xs.getLast hxs).reference.targetKeyColumn) := by
  intro mappings last
  have hsteps : Scope.Steps (Scope.ofMapping m) last := Scope.steps_compileAll hd calls
  have hnumbered := hsteps.numbered (Scope.numbered_ofMapping m)
  refine ⟨?_, ?_⟩
  · rintro before context e after rfl ts hts
    have hbefore : Scope.Steps (Scope.ofMapping m)
        ((Scope.ofMapping m).compileAll d mappings before) := Scope.steps_compileAll hd before
    have hcompiles := Compiles.of_compileInto
      (Dialect.environment_standard hd mappings context) hts
    have hlast : last = Scope.compileAll d mappings (e.compileInto (d.environment mappings context)
        ((Scope.ofMapping m).compileAll d mappings before)).scope after := List.foldl_append
    -- what the calls behind it do to the scope leaves its columns as they are
    rw [hlast]
    exact hcompiles.reads (hbefore.wellFormed (Scope.wellFormed_ofMapping m))
      (Scope.steps_compileAll hd after)
  · intro x hx y hy start xs a column start' ys a' column' hxs hys hreads hreads'
    have hnavigation := hnumbered.reads_iff hreads hxs hreads' hys
    refine ⟨hnavigation, fun hdots hrows => ?_⟩
    have hentity : m.entity = entity := by
      obtain ⟨z, hz, rfl⟩ := Except.map_eq_ok.1 hm
      exact (resolve_sound (hr.sound.resolve_of_request hz)).1
    subst hentity
    have hnavigable := hr.sound.navigable hdots
    have hlast := (Scope.navigable_ofMapping mappings m _).compileAll hd hnavigable hrows
      (List.Subset.refl _)
    have hroots : ∀ z ∈ calls.flatMap (·.2.accesses), ∀ p, z.path? = some p →
        p.root ∈ Scope.nodesOf calls := by
      intro z hz p hp
      obtain ⟨call, hcall, hz⟩ := List.mem_flatMap.1 hz
      exact List.mem_flatMap.2 ⟨call, hcall, Expr.root_mem_nodes_of_mem_accesses hz hp⟩
    obtain ⟨rfl, ⟨members, hmembers⟩, hjoin⟩ :=
      hlast.reads hnavigable hrows (hroots x hx) hreads hxs
    obtain ⟨rfl, ⟨members', hmembers'⟩, -⟩ :=
      hlast.reads hnavigable hrows (hroots y hy) hreads' hys
    refine ⟨?_, hjoin⟩
    rw [hnavigation, and_iff_right rfl]
    constructor
    · -- the text gives the names, and these the foreign objects
      intro htext
      rw [hmembers, hmembers'] at htext ⊢
      exact Mappings.crossings_ext (Crossing.map_member_eq_of_navigation
        hnavigable.undotted_crossings hnavigable.undotted_crossings htext)
    · exact fun h => congrArg _ h

/-- Who leads a department of another name, behind a comparison that failed. -/
theorem joins_shared_of_calls_leading :
    let d := Dialect.generic
    let mappings := Company.mappings
    let env := d.environment mappings { clause := .ordering }
    let new := Scope.ofMapping (Company.mapping Company.employee)
    let last := new.compileAll d mappings
      [({}, Company.misled), ({ clause := .ordering }, Company.leading)]
    let led := Expr.member Company.leader "name"
    let housed := Expr.member (.member Company.leader "department") "name"
    let managers := mappings.crossings Company.employee ["manager", "name"]
    let departments := mappings.crossings Company.employee ["manager", "department", "name"]
    (managers.map (·.member) = ["manager"]
        ∧ departments.map (·.member) = ["manager", "department"])
      ∧ (last.Reads mappings led "t0" managers "t1" "name"
        ∧ last.Reads mappings housed "t0" departments "t2" "name")
      ∧ List.Forall₂ (last.Writes env) [led, housed]
        [env.column "t1" "name", env.column "t2" "name"]
      ∧ ("t2" = "t1" ↔ "t0" = "t0" ∧ departments = managers)
      ∧ ∃ j ∈ last.joins, j.tableAlias = "t2" ∧ j.table = "departments"
        ∧ j.leftColumn = "department_id" ∧ j.rightColumn = "id" := by
  intro d mappings env new last led housed managers departments
  have hled : last.Reads mappings led "t0" managers "t1" "name" :=
    .access (p := ⟨"x", Company.employee, ["manager", "name"]⟩) rfl (by decide +kernel)
      (by decide +kernel)
  have hhoused : last.Reads mappings housed "t0" departments "t2" "name" :=
    .access (p := ⟨"x", Company.employee, ["manager", "department", "name"]⟩) rfl
      (by decide +kernel) (by decide +kernel)
  have hm : (Registry.lookup {} Company.schema Company.employee).toOption
      = some (Company.mapping Company.employee) := by
    decide +kernel
  have hdots : Company.schema.Undotted := by
    unfold Schema.Undotted
    decide +kernel
  have hrows : Scope.Agreeing Company.employee (Scope.nodesOf
      [(({} : Context), Company.misled), ({ clause := .ordering }, Company.leading)]) := by
    unfold Scope.Agreeing
    decide +kernel
  have hne : departments ≠ [] ∧ managers ≠ [] := by decide +kernel
  have htarget : departments.getLast?.map
      (fun x => (x.reference.targetTable, x.column, x.reference.targetKeyColumn))
      = some ("departments", "department_id", "id") := by
    decide +kernel
  rw [List.getLast?_eq_some_getLast hne.1, Option.map_some, Option.some.injEq] at htarget
  have htokens : (Company.leading.compileInto env
      (new.compileAll d mappings [({}, Company.misled)])).outcome.toOption
      = some [env.column "t1" "name", .word " != ", env.column "t2" "name"] := by
    decide +kernel
  obtain ⟨hwrites, hshared⟩ := joins_shared_of_calls .new (d := d) (by decide)
    (Except.eq_ok_of_toOption hm) [({}, Company.misled), ({ clause := .ordering }, Company.leading)]
  obtain ⟨-, hsame⟩ := hshared housed (by decide +kernel) led (by decide +kernel) _ _ _ _ _ _ _ _
    hne.1 hne.2 hhoused hled
  obtain ⟨hiff, j, hj, halias, htable, hleft, hright⟩ := hsame hdots hrows
  refine ⟨by decide +kernel, ⟨hled, hhoused⟩, ?_, hiff, j, hj, halias, ?_, ?_, ?_⟩
  · exact hwrites [({}, Company.misled)] _ Company.leading [] rfl _
      (Except.eq_ok_of_toOption htokens)
  · exact htable.trans (congrArg Prod.fst htarget)
  · exact hleft.trans (congrArg (·.2.1) htarget)
  · exact hright.trans (congrArg (·.2.2) htarget)

namespace Dotted

/-- Orders, whose shop is called like the way to the town of the customer. -/
def order : EntityType := ⟨"Order"⟩

/-- Customers live in towns. -/
def customer : EntityType := ⟨"Customer"⟩

/-- Shops have doors. -/
def shop : EntityType := ⟨"Shop"⟩

/-- Towns have citizens. -/
def town : EntityType := ⟨"Town"⟩

/-- The declarations. -/
def schema : Schema := ⟨[
  (order,
    { table := "orders"
      members := [Company.key .int64, Company.reference "buyer" "buyer_id" customer,
        Company.reference "buyer.home" "shop_id" shop] }),
  (customer,
    { table := "customers"
      members := [Company.key .int64, Company.reference "home" "town_id" town] }),
  (shop, { table := "shops", members := [Company.key .int64, Company.field "doors" .int64] }),
  (town, { table := "towns", members := [Company.key .int64, Company.field "citizens" .int64] })]⟩

/-- The mappings of the types. -/
def mappings : Mappings := fun e => Registry.lookup {} schema e

/-- As many citizens as doors. -/
def crowded : Expr :=
  let x := Expr.parameter "x" order
  .binary .equal (.member (.member (.member x "buyer") "home") "citizens")
    (.member (.member x "buyer.home") "doors")

end Dotted

/-- Where a foreign object has a dot in its name, the way through it is taken for the one through
two others: the accesses share a join that is made for the town, where the shop should be. -/
theorem dotted_navigations_share_a_join :
    let mappings := Dotted.mappings
    let x := Expr.parameter "x" Dotted.order
    let compiled := Dotted.crowded.compileInto (Dialect.generic.environment mappings {})
      { entity := Dotted.order, table := "orders" }
    let towns := mappings.crossings Dotted.order ["buyer", "home", "citizens"]
    let shops := mappings.crossings Dotted.order ["buyer.home", "doors"]
    compiled.outcome.toOption.map Dialect.generic.text = some "t2.\"citizens\" = t2.\"doors\""
      ∧ compiled.scope.Reads mappings (.member (.member (.member x "buyer") "home") "citizens")
        "t0" towns "t2" "citizens"
      ∧ compiled.scope.Reads mappings (.member (.member x "buyer.home") "doors")
        "t0" shops "t2" "doors"
      ∧ ¬("t2" = "t2" ↔ "t0" = "t0" ∧ towns = shops)
      ∧ shops.getLast?.map (·.reference.targetTable) = some "shops"
      ∧ compiled.scope.table? "t2" = some "towns" := by
  intro mappings x compiled towns shops
  have hcitizens : compiled.scope.locate mappings "t0" "t0" Dotted.order
      ["buyer", "home", "citizens"] = some ("t2", "citizens") := by
    decide +kernel
  have hdoors : compiled.scope.locate mappings "t0" "t0" Dotted.order ["buyer.home", "doors"]
      = some ("t2", "doors") := by
    decide +kernel
  have hrow : compiled.scope.rowAlias? "x" Dotted.order = some "t0" := by decide +kernel
  refine ⟨by decide +kernel, ?_, ?_, by decide +kernel, by decide +kernel, by decide +kernel⟩
  · exact .access (p := ⟨"x", Dotted.order, ["buyer", "home", "citizens"]⟩) rfl hrow hcitizens
  · exact .access (p := ⟨"x", Dotted.order, ["buyer.home", "doors"]⟩) rfl hrow hdoors

end RowMapper
