import Mathlib.Data.List.Nodup
import Mathlib.Logic.Relation
import RowMapper.Proofs.KeptScopes
import RowMapper.Proofs.Legible

/-!
# Steps of statement scopes

A compilation changes its scope in three ways only: it adds a parameter, asks for a join that
starts at an alias the scope gave out, or binds a name to the alias of the root. Whether it
succeeds or fails, the scope it leaves behind is some such steps away from the scope it began
with, so that an invariant of scopes is checked once for each kind of step.

* `compile_steps` takes the steps out of any run of the compiler, `Compiles.steps` out of a
  derivation.
* `Scope.Reached` are the scopes of a statement: a new one, or one that a compilation left.
* `Scope.WellFormed` is their invariant: every alias is one that a scope gives out, and all
  names stand for the row of the root table.
* `Scope.Extends` is what a later scope keeps of an earlier one.
* `Scope.Numbered` says how the joins of a scope are numbered.
-/

namespace RowMapper

namespace Scope

/-- The alias is the one of the root table, of a join or of a name. -/
def Knows (s : Scope) (a : String) : Prop :=
  a = s.tableAlias ∨ (∃ j ∈ s.joins, j.tableAlias = a) ∨ ∃ b ∈ s.bindings, b.2 = a

/-- What a compilation does to its scope at a time. -/
inductive Step : Scope → Scope → Prop where
  | parameter (s : Scope) (v : Value) : Step s (s.addParameters [v])
  | join (s : Scope) (path table leftAlias leftColumn rightColumn : String)
      (known : s.Knows leftAlias) :
      Step s (s.requireJoin path table leftAlias leftColumn rightColumn).2
  | bind (s : Scope) (name : String) : Step s (s.bind name s.tableAlias)

/-- What a compilation does to its scope in all. -/
abbrev Steps : Scope → Scope → Prop := Relation.ReflTransGen Step

/-! ### Aliases -/

/-- A scope knows the alias of its root. -/
theorem knows_tableAlias (s : Scope) : s.Knows s.tableAlias := .inl rfl

/-- A row has the alias of the root table or the one that its name is bound to. -/
theorem rowAlias?_eq_some {s : Scope} {name a : String} {entity : EntityType}
    (h : s.rowAlias? name entity = some a) :
    a = s.tableAlias ∨ ∃ b ∈ s.bindings, b.2 = a := by
  unfold rowAlias? at h
  cases hb : s.binding? name with
  | none =>
    simp only [hb] at h
    split at h
    · exact .inl (Option.some.inj h).symm
    · cases h
  | some bound =>
    simp only [hb, Option.some.injEq] at h
    subst h
    obtain ⟨before, after, happend, -⟩ := List.lookup_eq_some_iff.1 hb
    exact .inr ⟨(name, bound), by simp [happend], rfl⟩

/-- The alias of a row is known: that of the root, or one that was bound. -/
theorem knows_rowAlias {s : Scope} {name a : String} {entity : EntityType}
    (h : s.rowAlias? name entity = some a) : s.Knows a := by
  rcases rowAlias?_eq_some h with rfl | hbound
  · exact s.knows_tableAlias
  · exact .inr (.inr hbound)

/-- A join that is found is asked for in vain. -/
theorem requireJoin_of_join? {s : Scope} {path : String} {j : Join} (h : s.join? path = some j)
    (table leftAlias leftColumn rightColumn : String) :
    s.requireJoin path table leftAlias leftColumn rightColumn = (j.tableAlias, s) := by
  unfold requireJoin
  rw [h]

/-- A join that is not found is made, under the next alias. -/
theorem requireJoin_of_none {s : Scope} {path : String} (h : s.join? path = none)
    (table leftAlias leftColumn rightColumn : String) :
    s.requireJoin path table leftAlias leftColumn rightColumn =
      ("t" ++ toString s.nextNumber,
        { s with
          nextNumber := s.nextNumber + 1
          joins := s.joins ++ [{
            path, table, tableAlias := "t" ++ toString s.nextNumber, leftAlias, leftColumn,
            rightColumn }] }) := by
  unfold requireJoin
  rw [h]
  rfl

/-- The alias of a join that was asked for is known. -/
theorem knows_requireJoin (s : Scope) (path table leftAlias leftColumn rightColumn : String) :
    (s.requireJoin path table leftAlias leftColumn rightColumn).2.Knows
      (s.requireJoin path table leftAlias leftColumn rightColumn).1 := by
  cases h : s.join? path with
  | none =>
    rw [requireJoin_of_none h]
    exact .inr (.inl ⟨_, List.mem_append_right _ (List.mem_singleton.2 rfl), rfl⟩)
  | some j =>
    rw [requireJoin_of_join? h]
    exact .inr (.inl ⟨j, List.mem_of_find?_eq_some h, rfl⟩)

/-- Several parameters are as many steps. -/
theorem steps_addParameters (s : Scope) (vs : List Value) : Steps s (s.addParameters vs) := by
  induction vs generalizing s with
  | nil =>
    have hsame : s.addParameters [] = s := by simp [addParameters]
    rw [hsame]
  | cons v vs ih =>
    have hsplit : s.addParameters (v :: vs) = (s.addParameters [v]).addParameters vs := by
      simp [addParameters]
    rw [hsplit]
    exact .head (.parameter s v) (ih _)

end Scope

open Scope

/-! ## Steps of derivations -/

/-- The joins of a walk are steps, each from the alias of the one before. -/
theorem joinsKeep_steps (env : Environment) (s₀ : Scope) :
    JoinsKeep env (Steps s₀) fun s a _ _ => s.Knows a := by
  intro s a navigation entity m segment k reference hsteps known _ _ joined s' required
  have hstep := Step.join s (navigation ++ "." ++ segment) reference.targetTable a k.column
    reference.targetKeyColumn known
  have hknows := s.knows_requireJoin (navigation ++ "." ++ segment) reference.targetTable a
    k.column reference.targetKeyColumn
  rw [required] at hstep hknows
  exact ⟨hsteps.tail hstep, hknows⟩

/-- Along a chain of members every join is a step, and starts at a known alias. -/
theorem Follows.steps {env : Environment} {s s' : Scope} {rowAlias navigation : String}
    {entity : EntityType} {members : List String} {ref : ColumnReference}
    (h : Follows env s rowAlias navigation entity members ref s') (known : s.Knows rowAlias) :
    Steps s s' ∧ s'.Knows ref.tableAlias := by
  obtain ⟨hsteps, -, -, -, hlast, -⟩ := h.keeps (joinsKeep_steps env s) .refl known
  exact ⟨hsteps, hlast⟩

/-- An access takes the steps of its chain. -/
theorem Resolves.steps {env : Environment} {s s' : Scope} {node : Expr} {ref : ColumnReference}
    (h : Resolves env s node ref s') : Steps s s' ∧ s'.Knows ref.tableAlias := by
  obtain ⟨path, rowAlias, -, hrow, hwalk⟩ := h
  exact hwalk.steps (knows_rowAlias hrow)

/-- A derivation leads from scope to scope by steps. -/
theorem Compiles.steps {env : Environment} {parent : Option Expr} {e : Expr} {s s' : Scope}
    {ts : Tokens} (h : Compiles env parent e s ts s') : Steps s s' := by
  induction h with
  | lambda _ ih => exact .head (.bind _ _) ih
  | nullTest _ _ ih | unary _ ih | convert _ ih => exact ih
  | binary _ _ _ ihl ihr => exact ihl.trans ihr
  | membership _ _ _ ih => exact ih.trans (steps_addParameters _ _)
  | nothing | emptyList | null | row => exact .refl
  | list | key | value => exact steps_addParameters _ _
  | condition _ resolved => exact resolved.steps.1.trans (steps_addParameters _ _)
  | member _ resolved => exact resolved.steps.1

/-! ## Steps of runs -/

/-- Every run of the compiler under the standard table changes the scope by steps, also one that
fails. -/
theorem compile_steps {env : Environment} (hr : env.Standard) (parent : Option Expr) (e : Expr)
    (c : Compilation) : Steps c.scope ((compile env parent e).runFrom c).2.scope := by
  have hkept : Kept env e.nodes (Steps c.scope) fun s a _ _ => s.Knows a := {
    parameter := fun s v hsteps => hsteps.tail (.parameter s v)
    row := fun name _ _ _ s _ hsteps => hsteps.tail (.bind s name)
    start := fun _ _ _ s a _ hrow => knows_rowAlias hrow
    join := joinsKeep_steps env c.scope }
  exact compile_keeps hr e hkept parent c .refl

namespace Scope

/-- The scopes of a statement over a mapping: a new one, and what a compilation under the
standard table makes of one, even if it fails. -/
inductive Reached (m : TypeMapping) : Scope → Prop where
  | new : Reached m (ofMapping m)
  | compile {s : Scope} (before : Reached m s) {env : Environment} (standard : env.Standard)
      (e : Expr) : Reached m (e.compileInto env s).scope

/-- The scopes of a statement are some steps away from a new one. -/
theorem Reached.steps {m : TypeMapping} {s : Scope} (h : Reached m s) :
    Steps (ofMapping m) s := by
  induction h with
  | new => exact .refl
  | @compile s _ env standard e ih => exact ih.trans (compile_steps standard none e ⟨s, []⟩)

/-- The scope after the expressions, whether they compile or not, each under rules, mappings and
a context of its own. -/
def compileEach (s : Scope) (calls : List (Environment × Expr)) : Scope :=
  calls.foldl (fun s call => (call.2.compileInto call.1 s).scope) s

theorem compileEach_append (s : Scope) (before after : List (Environment × Expr)) :
    s.compileEach (before ++ after) = (s.compileEach before).compileEach after :=
  List.foldl_append

/-- Under the standard table the expressions change the scope by steps. -/
theorem steps_compileEach {calls : List (Environment × Expr)}
    (standard : ∀ call ∈ calls, call.1.Standard) (s : Scope) : Steps s (s.compileEach calls) := by
  induction calls generalizing s with
  | nil => exact .refl
  | cons call calls ih =>
    obtain ⟨hcall, hcalls⟩ := List.forall_mem_cons.1 standard
    exact (compile_steps hcall none call.2 ⟨s, []⟩).trans (ih hcalls _)

/-! ## What the steps keep -/

/-- The invariant of scopes. -/
structure WellFormed (s : Scope) : Prop where
  root : IsAlias s.tableAlias
  joined : ∀ j ∈ s.joins, IsAlias j.tableAlias ∧ IsAlias j.leftAlias
  bound : ∀ b ∈ s.bindings, b.2 = s.tableAlias

/-- What a well-formed scope knows is an alias. -/
theorem WellFormed.isAlias {s : Scope} (h : s.WellFormed) {a : String} (known : s.Knows a) :
    IsAlias a := by
  rcases known with rfl | ⟨j, hj, rfl⟩ | ⟨b, hb, rfl⟩
  · exact h.root
  · exact (h.joined j hj).1
  · exact h.bound b hb ▸ h.root

/-- Every name stands for the row of the root table. -/
theorem WellFormed.rowAlias {s : Scope} (h : s.WellFormed) {name a : String}
    {entity : EntityType} (hrow : s.rowAlias? name entity = some a) : a = s.tableAlias := by
  rcases rowAlias?_eq_some hrow with hroot | ⟨b, hb, rfl⟩
  · exact hroot
  · exact h.bound b hb

/-- What a later scope keeps of an earlier one. -/
structure Extends (s s' : Scope) : Prop where
  tableAlias : s'.tableAlias = s.tableAlias
  parameters : s.parameters <+: s'.parameters
  joins : s.joins <+: s'.joins

theorem Extends.refl (s : Scope) : Extends s s :=
  ⟨rfl, List.prefix_rfl, List.prefix_rfl⟩

theorem Extends.trans {s₁ s₂ s₃ : Scope} (h₁ : Extends s₁ s₂) (h₂ : Extends s₂ s₃) :
    Extends s₁ s₃ :=
  ⟨h₂.tableAlias.trans h₁.tableAlias, h₁.parameters.trans h₂.parameters,
    h₁.joins.trans h₂.joins⟩

/-- A join that was found is found in every later scope. -/
theorem Extends.join? {s s' : Scope} (h : Extends s s') {path : String} {j : Join}
    (hj : s.join? path = some j) : s'.join? path = some j := by
  obtain ⟨more, hmore⟩ := h.joins
  unfold Scope.join? at hj ⊢
  rw [← hmore, List.find?_append, hj]
  rfl

/-- A new scope is well-formed. -/
theorem wellFormed_ofMapping (m : TypeMapping) : (ofMapping m).WellFormed :=
  ⟨isAlias_root, fun _ h => absurd h List.not_mem_nil, fun _ h => absurd h List.not_mem_nil⟩

/-- A binding to the alias of the root keeps all the others there. -/
theorem mem_bind {s : Scope} {name a : String} {b : String × String}
    (h : b ∈ (s.bind name a).bindings) : b ∈ s.bindings ∨ b = (name, a) := by
  unfold bind at h
  split at h
  · obtain ⟨x, hx, rfl⟩ := List.mem_map.1 h
    split
    · exact .inr rfl
    · exact .inl hx
  · rcases List.mem_append.1 h with h | h
    · exact .inl h
    · exact .inr (List.mem_singleton.1 h)

theorem bind_entity (s : Scope) (name a : String) : (s.bind name a).entity = s.entity := by
  unfold bind
  split <;> rfl

theorem bind_tableAlias (s : Scope) (name a : String) :
    (s.bind name a).tableAlias = s.tableAlias := by
  unfold bind
  split <;> rfl

theorem bind_joins (s : Scope) (name a : String) : (s.bind name a).joins = s.joins := by
  unfold bind
  split <;> rfl

theorem bind_parameters (s : Scope) (name a : String) :
    (s.bind name a).parameters = s.parameters := by
  unfold bind
  split <;> rfl

/-- A step from a known alias leads to a well-formed scope. -/
theorem Step.wellFormed {s s' : Scope} (step : Step s s') (h : s.WellFormed) :
    s'.WellFormed := by
  cases step with
  | parameter v => exact ⟨h.root, h.joined, h.bound⟩
  | join path table leftAlias leftColumn rightColumn known =>
    cases hj : s.join? path with
    | some j => rwa [requireJoin_of_join? hj]
    | none =>
      rw [requireJoin_of_none hj]
      refine ⟨h.root, fun j hmem => ?_, h.bound⟩
      rcases List.mem_append.1 hmem with hmem | hmem
      · exact h.joined j hmem
      · rw [List.mem_singleton.1 hmem]
        -- a new join has a fresh alias, and starts at one that is known
        exact ⟨⟨_, rfl⟩, h.isAlias known⟩
  | bind name =>
    refine ⟨?_, ?_, fun b hb => ?_⟩
    · rw [bind_tableAlias]
      exact h.root
    · rw [bind_joins]
      exact h.joined
    · rw [bind_tableAlias]
      rcases mem_bind hb with hb | rfl
      · exact h.bound b hb
      · rfl

/-- A step takes nothing away. -/
theorem Step.extends {s s' : Scope} (step : Step s s') : Extends s s' := by
  cases step with
  | parameter v => exact ⟨rfl, List.prefix_append _ _, List.prefix_rfl⟩
  | join path table leftAlias leftColumn rightColumn known =>
    cases hj : s.join? path with
    | some j =>
      rw [requireJoin_of_join? hj]
      exact .refl s
    | none =>
      rw [requireJoin_of_none hj]
      exact ⟨rfl, List.prefix_rfl, List.prefix_append _ _⟩
  | bind name =>
    refine ⟨bind_tableAlias s name _, ?_, ?_⟩
    · exact (bind_parameters s name _).symm ▸ List.prefix_rfl
    · exact (bind_joins s name _).symm ▸ List.prefix_rfl

theorem Step.entity {s s' : Scope} (step : Step s s') : s'.entity = s.entity := by
  cases step with
  | parameter v => rfl
  | join path table leftAlias leftColumn rightColumn known =>
    cases hj : s.join? path with
    | some j => rw [requireJoin_of_join? hj]
    | none => rw [requireJoin_of_none hj]
  | bind name => exact bind_entity s name _

/-- Any steps lead to a well-formed scope. -/
theorem Steps.wellFormed {s s' : Scope} (steps : Steps s s') (h : s.WellFormed) :
    s'.WellFormed := by
  induction steps with
  | refl => exact h
  | tail _ step ih => exact step.wellFormed ih

/-- No steps take anything away. -/
theorem Steps.extends {s s' : Scope} (steps : Steps s s') : Extends s s' := by
  induction steps with
  | refl => exact .refl s
  | tail _ step ih => exact ih.trans step.extends

theorem Steps.entity {s s' : Scope} (steps : Steps s s') : s'.entity = s.entity := by
  induction steps with
  | refl => rfl
  | tail _ step ih => exact step.entity.trans ih

/-- Every scope that is reached is well-formed. -/
theorem Reached.wellFormed {m : TypeMapping} {s : Scope} (h : Reached m s) : s.WellFormed :=
  Steps.wellFormed h.steps (wellFormed_ofMapping m)

/-! ## Numbers of joins -/

/-- Aliases with different numbers are different. -/
theorem alias_inj {i j : Nat} (h : "t" ++ toString i = "t" ++ toString j) : i = j := by
  have hdigits : (toString i).toList = (toString j).toList := by
    have hchars := congrArg String.toList h
    rw [String.toList_append, String.toList_append] at hchars
    exact List.append_cancel_left hchars
  have hnumber := number?_toString i
  rw [hdigits, number?_toString j] at hnumber
  exact (Option.some.inj hnumber).symm

/-- The scope with one more join. -/
def addJoin (s : Scope) (j : Join) : Scope :=
  { s with nextNumber := s.nextNumber + 1, joins := s.joins ++ [j] }

/-- A path is free if no join has it. -/
theorem join?_eq_none {s : Scope} {path : String} :
    s.join? path = none ↔ path ∉ s.joins.map (·.path) := by
  simp [join?]

/-- The joins are numbered as they come, behind the root, and no navigation is joined twice. -/
structure Numbered (s : Scope) : Prop where
  tableAlias : s.tableAlias = "t0"
  next : s.nextNumber = s.joins.length + 1
  numbered : s.joins.map (·.tableAlias)
    = (List.range s.joins.length).map fun i => "t" ++ toString (i + 1)
  paths : (s.joins.map (·.path)).Nodup

namespace Numbered

variable {s s' : Scope}

/-- No two joins have the same alias. -/
theorem nodup_aliases (h : s.Numbered) : (s.joins.map (·.tableAlias)).Nodup := by
  rw [h.numbered]
  refine List.Nodup.map (fun i j hij => ?_) List.nodup_range
  have := alias_inj hij
  omega

/-- No join has the alias of the root. -/
theorem tableAlias_ne (h : s.Numbered) {j : Join} (hj : j ∈ s.joins) :
    j.tableAlias ≠ s.tableAlias := by
  have hmem : j.tableAlias ∈ s.joins.map (·.tableAlias) := List.mem_map_of_mem hj
  rw [h.numbered] at hmem
  obtain ⟨i, -, hi⟩ := List.mem_map.1 hmem
  intro heq
  have hzero : "t" ++ toString (i + 1) = "t" ++ toString 0 :=
    hi.trans (heq.trans h.tableAlias)
  exact absurd (alias_inj hzero) (by omega)

/-- Joins are told apart by their aliases. -/
theorem join_ext (h : s.Numbered) {i j : Join} (hi : i ∈ s.joins) (hj : j ∈ s.joins)
    (heq : i.tableAlias = j.tableAlias) : i = j :=
  List.inj_on_of_nodup_map h.nodup_aliases hi hj heq

/-- One more join, under the next number and for a navigation that was not joined yet. -/
theorem addJoin (h : s.Numbered) {j : Join} (hnumber : j.tableAlias = "t" ++ toString s.nextNumber)
    (hfresh : j.path ∉ s.joins.map (·.path)) : (s.addJoin j).Numbered := by
  refine ⟨h.tableAlias, ?_, ?_, ?_⟩
  · show s.nextNumber + 1 = (s.joins ++ [j]).length + 1
    rw [List.length_append, h.next]
    rfl
  · show (s.joins ++ [j]).map (·.tableAlias) = (List.range (s.joins ++ [j]).length).map _
    rw [List.map_append, h.numbered, List.length_append, List.length_singleton, List.range_succ,
      List.map_append]
    simp [hnumber, h.next]
  · show ((s.joins ++ [j]).map (·.path)).Nodup
    rw [List.map_append]
    exact List.nodup_append.2 ⟨h.paths, List.nodup_singleton _, fun x hx y hy => by
      rw [List.map_singleton, List.mem_singleton] at hy
      rintro rfl
      exact hfresh (hy ▸ hx)⟩

/-- A step gives the next number to its join. -/
theorem step (h : s.Numbered) (step : Step s s') : s'.Numbered := by
  cases step with
  | parameter v => exact ⟨h.tableAlias, h.next, h.numbered, h.paths⟩
  | join path table leftAlias leftColumn rightColumn known =>
    cases hj : s.join? path with
    | some j => rwa [requireJoin_of_join? hj]
    | none =>
      rw [requireJoin_of_none hj]
      exact h.addJoin rfl (join?_eq_none.1 hj)
  | bind name =>
    unfold Scope.bind
    split <;> exact ⟨h.tableAlias, h.next, h.numbered, h.paths⟩

end Numbered

/-- Joins are numbered through all steps. -/
theorem Steps.numbered {s s' : Scope} (steps : Steps s s') (h : s.Numbered) : s'.Numbered := by
  induction steps with
  | refl => exact h
  | tail _ step ih => exact ih.step step

theorem numbered_ofMapping (m : TypeMapping) : (ofMapping m).Numbered := ⟨rfl, rfl, rfl, .nil⟩

/-- The joins of every scope that is reached are numbered. -/
theorem Reached.numbered {m : TypeMapping} {s : Scope} (h : Reached m s) : s.Numbered :=
  Steps.numbered h.steps (numbered_ofMapping m)

end Scope

end RowMapper
