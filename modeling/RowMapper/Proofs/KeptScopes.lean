import RowMapper.Proofs.Derivation
import RowMapper.Proofs.Resolution

/-!
# Properties that a compilation keeps

Whether a compilation succeeds or fails, and however far it gets, it changes its scope by a few
primitive steps only. A property of scopes that each of them keeps is kept by every run of the
compiler: what has to be shown of a property is said once, node by node, and no proof about it
has to follow the rules of the compiler again.

* `CompileM.Keeps` says so of steps of a compilation, with one lemma for each primitive.
* `Expr.nodes` are the nodes that a compilation may visit.
* `Kept` is what has to be shown of a property, `compile_keeps` what follows from it. Beside the
  property of scopes it has one of the places that a walk along members comes to.
-/

namespace RowMapper

/-! ## Nodes -/

/-- The nodes of the expression that a compilation may visit. The row that a lambda names is not
one of them. -/
def Expr.nodes : Expr → List Expr
  | .lambda row body => .lambda row body :: body.nodes
  | .parameter name entity => [.parameter name entity]
  | .member target name => .member target name :: target.nodes
  | .constant c => [.constant c]
  | .unary op arg => .unary op arg :: arg.nodes
  | .binary op lhs rhs => .binary op lhs rhs :: (lhs.nodes ++ rhs.nodes)
  | .convert arg type => .convert arg type :: arg.nodes
  | .contains collection item => .contains collection item :: (collection.nodes ++ item.nodes)

/-- A chain of members starts at a node. -/
theorem Expr.root_mem_nodes {e : Expr} {p : Path} (h : e.path? = some p) : p.root ∈ e.nodes := by
  induction e generalizing p with
  | parameter name entity =>
    cases h
    exact List.mem_cons_self
  | member target name ih =>
    obtain ⟨q, hq, rfl⟩ := Option.map_eq_some_iff.1 h
    have hroot : q.root ∈ target.nodes := ih hq
    exact List.mem_cons_of_mem _ hroot
  | convert arg type ih => exact List.mem_cons_of_mem _ (ih h)
  | lambda | constant | unary | binary | contains => cases h

/-! ## Walks -/

/-- Each join of a walk keeps a property of scopes, from a place with a property of its own to the
next one. A place is an alias, the navigation to it and the type of its rows. -/
def JoinsKeep (env : Environment) (P : Scope → Prop)
    (Q : Scope → String → String → EntityType → Prop) : Prop :=
  ∀ s a navigation entity m segment k reference, P s → Q s a navigation entity →
    env.mappings entity = .ok m → m.member? segment = some (.foreign k reference) →
    ∀ joined s', s.requireJoin (navigation ++ "." ++ segment) reference.targetTable a k.column
      reference.targetKeyColumn = (joined, s') →
    P s' ∧ Q s' joined (navigation ++ "." ++ segment) reference.target

/-- A walk ends at a place that it keeps, and reads a column of the type there. -/
theorem Follows.keeps {env : Environment} {P : Scope → Prop}
    {Q : Scope → String → String → EntityType → Prop} (join : JoinsKeep env P Q) {s s' : Scope}
    {a navigation : String} {entity : EntityType} {members : List String} {ref : ColumnReference}
    (h : Follows env s a navigation entity members ref s') (hP : P s)
    (hQ : Q s a navigation entity) :
    P s' ∧ ∃ navigation' entity' m, Q s' ref.tableAlias navigation' entity'
      ∧ env.mappings entity' = .ok m ∧ ∃ k ∈ m.columns, k.column = ref.column := by
  induction h with
  | column mapping found column =>
    exact ⟨hP, _, _, _, hQ, mapping, _, TypeMapping.mem_columns_of_member? found column, rfl⟩
  | key mapping found =>
    exact ⟨hP, _, _, _, hQ, mapping, _, TypeMapping.mem_columns_of_member? found rfl, rfl⟩
  | join mapping found _ _ required _ ih =>
    obtain ⟨hP', hQ'⟩ := join _ _ _ _ _ _ _ _ hP hQ mapping found _ _ required
    exact ih hP' hQ'

/-! ## Steps -/

namespace CompileM

/-- Whatever becomes of the steps from this state, the scope has the property after them if it
had it before. -/
def Keeps (P : Scope → Prop) (x : CompileM α) (c : Compilation) : Prop :=
  P c.scope → P (x.runFrom c).2.scope

section

variable {P : Scope → Prop} {α β : Type} {c : Compilation}

theorem Keeps.pure (a : α) : (Pure.pure a : CompileM α).Keeps P c := id

theorem Keeps.reject (defect : Defect) (node : Expr) :
    (reject defect node : CompileM α).Keeps P c := id

/-- One step after the other: the second one starts where the first one ended. -/
theorem Keeps.bind {x : CompileM α} {f : α → CompileM β} (hx : x.Keeps P c)
    (hf : ∀ a c₁, x.Returns c a c₁ → (f a).Keeps P c₁) : (x >>= f).Keeps P c := by
  unfold Keeps at hx ⊢
  intro hP
  rw [runFrom_bind]
  cases hrun : x.runFrom c with
  | mk outcome c₁ =>
    have h₁ : P c₁.scope := by
      have := hx hP
      rwa [hrun] at this
    cases outcome with
    | error cause => exact h₁
    | ok a => exact hf a c₁ hrun h₁

theorem Keeps.scope : CompileM.scope.Keeps P c := id

/-- Mappings are read only. -/
theorem Keeps.mapping (env : Environment) (entity : EntityType) :
    (env.mapping entity).Keeps P c := by
  unfold Environment.mapping
  cases env.mappings entity with
  | ok m => exact .pure m
  | error cause => exact id

/-- The alias of a row is read only. -/
theorem Keeps.parameterAlias (name : String) (entity : EntityType) :
    (parameterAlias name entity).Keeps P c := by
  refine .bind .scope fun s c₁ _ => ?_
  split
  · exact .pure _
  · split
    · exact .pure _
    · exact .reject _ _

/-- A row is written without a change of the scope. -/
theorem Keeps.rowTokens (env : Environment) (name : String) (entity : EntityType) :
    (rowTokens env name entity).Keeps P c := by
  refine .bind (.parameterAlias _ _) fun a c₁ _ => .bind (.mapping env entity) fun m c₂ _ => ?_
  split
  · exact .pure _
  · exact .reject _ _

/-- A walk keeps the property if each of its joins does, from the place that the walk has come
to. -/
theorem Keeps.follow {Q : Scope → String → String → EntityType → Prop} {env : Environment}
    {node : Expr} (join : JoinsKeep env P Q)
    {a navigation : String} {entity : EntityType} {members : List String}
    (start : P c.scope → Q c.scope a navigation entity) :
    (follow env node a navigation entity members).Keeps P c := by
  -- along the chain: only a segment with another one behind it joins, and a join keeps the property
  induction members generalizing a navigation entity c with
  | nil => exact .reject _ _
  | cons segment rest ih =>
    cases rest with
    | nil =>
      rw [RowMapper.follow]
      refine .bind (.mapping env entity) fun m c₁ _ => ?_
      split
      · exact .pure _
      · exact .pure _
      · exact .reject _ _
      · exact .reject _ _
    | cons next rest =>
      rw [RowMapper.follow]
      · refine .bind (.mapping env entity) fun m c₁ hm => ?_
        obtain ⟨hmapping, rfl⟩ := returns_mapping.1 hm
        split
        · rename_i k reference hfound
          split
          · exact .pure _
          · intro hP
            obtain ⟨hP', hQ⟩ := join _ _ _ _ _ _ _ _ hP (start hP) hmapping hfound _ _ rfl
            refine (Keeps.bind (fun _ => hP') fun joined c₂ hjoin => ?_) hP
            obtain ⟨rfl, rfl⟩ := returns_requireJoin.1 hjoin
            exact ih fun _ => hQ
        · exact .reject _ _
      · simp

end

/-! ## Parameters -/

section

variable {P : Scope → Prop} {c : Compilation}

/-- Parameters are added one at a time, wherever they come from. -/
theorem Keeps.addParameter (hP : ∀ s v, P s → P (s.addParameters [v])) (v : Value) :
    (CompileM.addParameter v).Keeps P c := hP c.scope v

/-- What one more parameter keeps, any number of them keep. -/
theorem Keeps.addParameters (hP : ∀ s v, P s → P (s.addParameters [v])) (vs : List Value) :
    (addParameters vs).Keeps P c := by
  induction vs generalizing c with
  | nil => exact .pure _
  | cons v vs ih => exact .bind (.addParameter hP v) fun _ _ _ => .bind ih fun _ _ _ => .pure _

/-- The values of a list are parameters more. -/
theorem Keeps.listTokens (hP : ∀ s v, P s → P (s.addParameters [v])) (vs : List Value) :
    (listTokens vs).Keeps P c := by
  unfold RowMapper.listTokens
  split
  · exact .pure _
  · exact .bind (.addParameters hP vs) fun _ _ _ => .pure _

theorem Keeps.keyTokens (hP : ∀ s v, P s → P (s.addParameters [v])) (env : Environment)
    (node : Expr) (keys : List Value) : (keyTokens env node keys).Keeps P c := by
  unfold RowMapper.keyTokens
  split
  · split
    · exact .reject _ _
    · exact .bind (.addParameter hP _) fun _ _ _ => .pure _
  · exact .reject _ _

/-- A value is a parameter more at most. -/
theorem Keeps.valueTokens (hP : ∀ s v, P s → P (s.addParameters [v])) (v : Value) :
    (valueTokens v).Keeps P c := by
  unfold RowMapper.valueTokens
  split
  · exact .pure _
  · exact .bind (.addParameter hP v) fun _ _ _ => .pure _

end

end CompileM

/-! ## Runs -/

/-- What a property of scopes has to stand so that a compilation of these nodes keeps it: more
parameters, the names of rows, and joins. Walks start at the rows of parameters. -/
structure Kept (env : Environment) (nodes : List Expr) (P : Scope → Prop)
    (Q : Scope → String → String → EntityType → Prop) : Prop where
  parameter : ∀ s v, P s → P (s.addParameters [v])
  row : ∀ name entity body, .lambda (.parameter name entity) body ∈ nodes →
    ∀ s, entity = s.entity → P s → P (s.bind name s.tableAlias)
  start : ∀ name entity, .parameter name entity ∈ nodes →
    ∀ s a, P s → s.rowAlias? name entity = some a → Q s a a entity
  join : JoinsKeep env P Q

section

variable {env : Environment} {nodes : List Expr} {P : Scope → Prop}
  {Q : Scope → String → String → EntityType → Prop} {c : Compilation}

theorem Kept.mono {fewer : List Expr} (h : Kept env nodes P Q) (hsub : fewer ⊆ nodes) :
    Kept env fewer P Q :=
  ⟨h.parameter, fun name entity body hnode => h.row name entity body (hsub hnode),
    fun name entity hnode => h.start name entity (hsub hnode), h.join⟩

open CompileM

/-- An access requires the joins of its chain. -/
theorem Kept.resolveAccess {node : Expr} (h : Kept env node.nodes P Q) :
    (resolveAccess env node).Keeps P c := by
  unfold RowMapper.resolveAccess
  split
  · exact .reject _ _
  · rename_i path hpath
    split
    · exact .reject _ _
    · refine .bind (.parameterAlias _ _) fun a c₁ ha => ?_
      obtain ⟨hrow, rfl⟩ := returns_parameterAlias ha
      exact .follow h.join fun hP => h.start _ _ (Expr.root_mem_nodes hpath) _ a hP hrow

theorem Kept.memberTokens {node : Expr} (h : Kept env node.nodes P Q) :
    (memberTokens env node).Keeps P c :=
  .bind h.resolveAccess fun _ _ _ => .pure _

/-- A boolean member requires its joins and adds a parameter. -/
theorem Kept.conditionTokens {node : Expr} (h : Kept env node.nodes P Q) :
    (conditionTokens env node).Keeps P c :=
  .bind h.resolveAccess fun _ _ _ => .bind (.addParameter h.parameter _) fun _ _ _ => .pure _

/-- Every run of the compiler under the standard table keeps the property, also one that fails. -/
theorem compile_keeps (hr : env.Standard) (e : Expr) (hP : Kept env e.nodes P Q)
    (parent : Option Expr) (c : Compilation) : (compile env parent e).Keeps P c := by
  -- by the expression, from any state: a node that is rejected leaves what its children did
  induction e generalizing parent c with
  | lambda row body _ ih =>
    rcases row.parameter_or_ne with ⟨name, entity, rfl⟩ | hrow
    · rw [compile_lambda hr]
      refine .bind .scope fun s c₁ hs => ?_
      obtain ⟨rfl, rfl⟩ := returns_scope.1 hs
      split
      · rename_i hentity
        refine .bind ?_ fun _ c₂ _ => ih (hP.mono (List.subset_cons_self _ _)) _ c₂
        exact hP.row name entity body List.mem_cons_self c₁.scope hentity
      · exact .reject _ _
    · rw [compile_lambda_of_ne hr hrow]
      exact .reject _ _
  | parameter name entity =>
    rw [compile_parameter hr]
    exact .rowTokens env name entity
  | member target name _ =>
    rw [compile_member hr]
    split
    · exact hP.conditionTokens
    · split
      · exact hP.memberTokens
      · exact hP.memberTokens
      · exact .reject _ _
  | constant k =>
    cases k with
    | value v =>
      rw [compile_value hr]
      exact .valueTokens hP.parameter v
    | list vs =>
      rw [compile_list hr]
      exact .listTokens hP.parameter vs
    | entity entity keys =>
      rw [compile_entity hr]
      exact .keyTokens hP.parameter env _ keys
  | unary op arg ih =>
    rw [compile_unary hr]
    exact .bind (ih (hP.mono (List.subset_cons_self _ _)) _ c) fun _ _ _ => .pure _
  | binary op lhs rhs ihl ihr =>
    have hl : Kept env lhs.nodes P Q :=
      hP.mono fun _ h => List.mem_cons_of_mem _ (List.mem_append_left _ h)
    have hrhs : Kept env rhs.nodes P Q :=
      hP.mono fun _ h => List.mem_cons_of_mem _ (List.mem_append_right _ h)
    rw [compile_binary hr]
    split
    · rename_i operand htested
      refine .bind ?_ fun _ _ _ => .pure _
      rcases Expr.eq_of_nullTested? htested with rfl | rfl
      · exact ihl hl _ c
      · exact ihr hrhs _ c
    · exact .bind (ihl hl _ c) fun _ c₁ _ => .bind (ihr hrhs _ c₁) fun _ _ _ => .pure _
  | convert arg type ih =>
    rw [compile_convert hr]
    exact ih (hP.mono (List.subset_cons_self _ _)) _ c
  | contains collection item ihc ihi =>
    have hc : Kept env collection.nodes P Q :=
      hP.mono fun _ h => List.mem_cons_of_mem _ (List.mem_append_left _ h)
    have hi : Kept env item.nodes P Q :=
      hP.mono fun _ h => List.mem_cons_of_mem _ (List.mem_append_right _ h)
    rw [compile_contains hr]
    split
    · exact .pure _
    · exact .bind (ihi hi _ c) fun _ c₁ _ => .bind (ihc hc _ c₁) fun _ _ _ => .pure _
    · exact .reject _ _

end

end RowMapper
