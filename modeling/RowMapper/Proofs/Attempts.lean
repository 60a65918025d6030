import RowMapper.Proofs.Outcome
import RowMapper.Statement.Selection

/-!
# Calls commit or leave no trace

A call on a selection can only fail in a compilation. By then the compilation may have asked for
joins, numbered aliases, bound names and added parameters, but in a copy of the scope: steps that
begin with a compilation and go on with what cannot fail either succeed or leave the selection as it
was (`SelectionM.Commits`).

* `SelectionM.runFrom_compile` is what a compilation does to a selection.
* `Selection.selection_attempt` says of every call that it leaves no trace if it fails.
* `Selection.addFilter_eq` and `Selection.addOrder_eq` are what a selection grows by.
-/

namespace RowMapper

/-! ## Steps -/

namespace SelectionM

variable {α β : Type} {d : Dialect} {mappings : Mappings} {clause : Clause} {e : Expr}

/-- What the steps lead to from a selection: their outcome and the selection after them. -/
def runFrom (x : SelectionM α) (s : Selection) : Except CompileError α × Selection := x.run.run s

theorem runFrom_bind (x : SelectionM α) (f : α → SelectionM β) (s : Selection) :
    (x >>= f).runFrom s = match x.runFrom s with
      | (.ok a, s₁) => (f a).runFrom s₁
      | (.error cause, s₁) => (.error cause, s₁) := by
  show (ExceptT.bindCont f (x.runFrom s).1).run (x.runFrom s).2 = _
  rcases x.runFrom s with ⟨_ | _, _⟩ <;> rfl

/-- A compilation that succeeds changes the scope and nothing else. What one that fails did to the
scope, it did to a copy. -/
theorem runFrom_compile (s : Selection) :
    (SelectionM.compile d mappings clause e).runFrom s
      = let compiled := e.compileInto (d.environment mappings ⟨clause, true⟩) s.scope
        match compiled.outcome with
        | .ok tokens => (.ok tokens, { s with scope := compiled.scope })
        | .error cause => (.error cause, s) := by
  have hcommit (compiled : Compiled) :
      SelectionM.runFrom (do
          let tokens ← compiled.outcome
          modify ({ · with scope := compiled.scope })
          return tokens) s
        = match compiled.outcome with
          | .ok tokens => (.ok tokens, { s with scope := compiled.scope })
          | .error cause => (.error cause, s) := by
    obtain ⟨outcome, scope, questions⟩ := compiled
    cases outcome <;> rfl
  exact hcommit _

/-- The steps leave every selection on which they fail as it was. -/
def Commits (x : SelectionM α) : Prop :=
  ∀ s s' cause, x.runFrom s = (.error cause, s') → s' = s

theorem commits_compile : (SelectionM.compile d mappings clause e).Commits := by
  intro s s' cause h
  rw [runFrom_compile] at h
  dsimp only at h
  split at h
  · cases h
  · cases h
    rfl

/-- Steps that cannot fail commit. -/
theorem commits_modify (f : Selection → Selection) : (modify f : SelectionM Unit).Commits := by
  intro s s' cause h
  cases h

/-- A change that cannot fail may follow on steps that commit. -/
theorem Commits.bind_modify {x : SelectionM α} (h : x.Commits) (f : α → Selection → Selection) :
    (x >>= fun a => modify (f a) : SelectionM Unit).Commits := by
  intro s s' cause hfails
  rw [runFrom_bind] at hfails
  cases hx : x.runFrom s with
  | mk outcome s₁ =>
    rw [hx] at hfails
    cases outcome with
    | ok a => cases hfails
    | error cause' =>
      cases hfails
      exact h s s' cause hx

end SelectionM

/-! ## Calls -/

namespace Selection

variable {d : Dialect} {mappings : Mappings} {s : Selection} {call : Call}

/-- Every call commits: nothing that can fail comes behind its compilation. -/
theorem Call.commits_steps (call : Call) : (call.steps d mappings).Commits := by
  cases call with
  | setTable | addColumn | setLimit => exact SelectionM.commits_modify _
  | addFilter condition => exact SelectionM.commits_compile.bind_modify _
  | addOrder e order => exact SelectionM.commits_compile.bind_modify _

/-- A call that fails leaves no trace in the selection. -/
theorem selection_attempt {cause : CompileError}
    (h : (s.attempt d mappings call).outcome = .error cause) :
    (s.attempt d mappings call).selection = s :=
  call.commits_steps s _ cause (Prod.ext h rfl)

theorem result_attempt_eq_error {cause : CompileError} :
    (s.attempt d mappings call).result = .error cause
      ↔ (s.attempt d mappings call).outcome = .error cause :=
  Except.map_eq_error

/-- What a call leaves is its result, or else the selection as it was. -/
theorem perform_eq (s : Selection) (d : Dialect) (mappings : Mappings) (call : Call) :
    s.perform d mappings call = (s.attempt d mappings call).result.toOption.getD s := by
  unfold perform Attempt.result
  cases houtcome : (s.attempt d mappings call).outcome with
  | ok _ => rfl
  | error cause => exact selection_attempt houtcome

/-- A call that compiles an expression first, and then does with its tokens what cannot fail. -/
theorem result_of_compile {clause : Clause} {e : Expr} {f : Tokens → Selection → Selection}
    (h : call.steps d mappings
      = (SelectionM.compile d mappings clause e >>= fun tokens => modify (f tokens))) :
    (s.attempt d mappings call).result
      = let compiled := e.compileInto (d.environment mappings ⟨clause, true⟩) s.scope
        compiled.outcome.map fun tokens => f tokens { s with scope := compiled.scope } := by
  have hrun := SelectionM.runFrom_bind (SelectionM.compile d mappings clause e)
    (fun tokens => modify (f tokens)) s
  rw [SelectionM.runFrom_compile, ← h] at hrun
  dsimp only at hrun ⊢
  show ((call.steps d mappings).runFrom s).1.map (fun _ => ((call.steps d mappings).runFrom s).2) = _
  rw [hrun]
  cases (e.compileInto (d.environment mappings ⟨clause, true⟩) s.scope).outcome <;> rfl

/-- A filter goes behind the others, and the scope has what its expression asked for. -/
theorem addFilter_eq (s : Selection) (d : Dialect) (mappings : Mappings) (e : Expr) :
    s.addFilter d mappings e
      = let compiled := e.compileInto (d.environment mappings ⟨.filter, true⟩) s.scope
        compiled.outcome.map fun tokens =>
          { s with scope := compiled.scope, filters := s.filters ++ [tokens] } := by
  have hsteps : (Call.addFilter e).steps d mappings
      = (SelectionM.compile d mappings .filter e >>= fun tokens =>
          modify fun s => { s with filters := s.filters ++ [tokens] }) := rfl
  exact result_of_compile hsteps

/-- An ordering goes behind the others, and the scope has what its expression asked for. -/
theorem addOrder_eq (s : Selection) (d : Dialect) (mappings : Mappings) (e : Expr)
    (order : Order) :
    s.addOrder d mappings e order
      = let compiled := e.compileInto (d.environment mappings ⟨.ordering, true⟩) s.scope
        compiled.outcome.map fun tokens =>
          { s with scope := compiled.scope, orders := s.orders ++ [(tokens, order)] } := by
  have hsteps : (Call.addOrder e order).steps d mappings
      = (SelectionM.compile d mappings .ordering e >>= fun tokens =>
          modify fun s => { s with orders := s.orders ++ [(tokens, order)] }) := rfl
  exact result_of_compile hsteps

end Selection

end RowMapper
