import RowMapper.Proofs.ColumnReferences
import RowMapper.Proofs.Vocabulary

/-!
# The joins of a statement as its FROM clause

Joins are asked for one at a time, from deep inside of expressions, and an expression that fails
leaves behind those it asked for. Still the list of joins can be written behind FROM as it is:
no two tables share an alias, and a join starts at a table that is already written.

* `Scope.Chained` is what such a list is; `Scope.Step.chained` keeps it, whatever asks for a join.
* `Tokens.Written.qualifies` finds the aliases in texts: they are those of tables of the scope.
* `joins_of_calls` is the result for every sequence of compilations into a new scope.
-/

namespace RowMapper

/-- The alias stands before a dot. -/
def Lexeme.Qualifies (ls : List Lexeme) (a : String) : Prop := [.word a, .symbol "."] <:+: ls

/-- The joins can be written one behind the other. -/
structure Scope.Chained (s : Scope) : Prop where
  /-- No navigation is joined twice. -/
  paths : (s.joins.map (·.path)).Nodup
  /-- The tables have aliases of their own. -/
  aliases : (s.tableAlias :: s.joins.map (·.tableAlias)).Nodup
  /-- Each join starts at the root or at a join before it. -/
  left : ∀ before j after, s.joins = before ++ j :: after →
    j.leftAlias ∈ s.tableAlias :: before.map (·.tableAlias)

namespace Scope

section

variable {s s' : Scope} {a : String}

/-- A scope owns the aliases of its root and its joins. -/
theorem mem_aliases : a ∈ s.tableAlias :: s.joins.map (·.tableAlias) ↔ s.Owns a := by
  rw [List.mem_cons, List.mem_map]
  rfl

/-- Joins whose left sides stand before them are chained. -/
theorem Numbered.chained (h : s.Numbered)
    (hleft : ∀ before j after, s.joins = before ++ j :: after →
      j.leftAlias ∈ s.tableAlias :: before.map (·.tableAlias)) : s.Chained where
  paths := h.paths
  aliases := by
    refine List.nodup_cons.2 ⟨fun hmem => ?_, h.nodup_aliases⟩
    obtain ⟨j, hj, hroot⟩ := List.mem_map.1 hmem
    exact h.tableAlias_ne hj hroot
  left := hleft

/-- A new join starts at a table that is there, and changes nothing for those before it. -/
theorem left_of_append {root : String} {joins : List Join} {new : Join}
    (hleft : ∀ before j after, joins = before ++ j :: after →
      j.leftAlias ∈ root :: before.map (·.tableAlias))
    (hnew : new.leftAlias ∈ root :: joins.map (·.tableAlias)) {before after : List Join} {j : Join}
    (heq : joins ++ [new] = before ++ j :: after) :
    j.leftAlias ∈ root :: before.map (·.tableAlias) := by
  -- by what stands behind the join: nothing, if it is the new one
  rcases List.eq_nil_or_concat after with rfl | ⟨front, last, rfl⟩
  · obtain ⟨rfl, hlast⟩ := List.append_inj_left' heq rfl, List.append_inj_right' heq rfl
    obtain rfl := List.singleton_inj.1 hlast
    exact hnew
  · rw [List.concat_eq_append, ← List.cons_append, ← List.append_assoc] at heq
    exact hleft before j front (List.append_inj_left' heq rfl)

/-- A step joins from an alias that is there. -/
theorem Step.chained (step : Step s s') (wf : s.WellFormed) (numbered : s.Numbered)
    (h : s.Chained) : s'.Chained := by
  refine (numbered.step step).chained ?_
  cases step with
  | parameter v => exact h.left
  | join path table leftAlias leftColumn rightColumn known =>
    cases hj : s.join? path with
    | some j =>
      rw [requireJoin_of_join? hj]
      exact h.left
    | none =>
      rw [requireJoin_of_none hj]
      intro before j after heq
      exact left_of_append h.left (mem_aliases.2 (wf.owns known)) heq
  | bind name =>
    rw [bind_joins, bind_tableAlias]
    exact h.left

/-- Any steps leave the joins chained. -/
theorem Steps.chained (steps : Steps s s') (wf : s.WellFormed) (numbered : s.Numbered)
    (h : s.Chained) : s'.Chained := by
  induction steps with
  | refl => exact h
  | tail first step ih =>
    exact step.chained (Steps.wellFormed first wf) (Steps.numbered first numbered) ih

theorem chained_ofMapping (m : TypeMapping) : (ofMapping m).Chained :=
  (numbered_ofMapping m).chained fun before j after heq => absurd heq (by simp [ofMapping])

end

end Scope

/-! ## Aliases in texts -/

/-- No word of expressions has a dot of its own. -/
theorem Tokens.isDotless_of_mem_vocabulary {w : String} (h : w ∈ Tokens.vocabulary) :
    Text.isDotless w = true := by
  have hall : ∀ w ∈ Tokens.vocabulary, Text.isDotless w = true := by decide
  exact hall w h

section

variable {d : Dialect} {env : Environment} {s : Scope} {ts : Tokens}

/-- What is written names columns behind aliases that the scope owns. -/
theorem Tokens.Written.columned (h : Tokens.Written env s ts) :
    Tokens.Columned env (fun a _ => s.Owns a) ts := by
  intro t ht
  cases h t ht with
  | word h => exact .inl (isDotless_of_mem_vocabulary h)
  | column owned column => exact .inr ⟨_, column, rfl, owned⟩
  | parameter => exact .inl trivial

/-- What stands before a dot is an alias of the scope. -/
theorem Tokens.Written.qualifies (hd : d.quoting ∈ Quoting.usual) (wf : s.WellFormed)
    (h : Tokens.Written env s ts) {a : String}
    (hread : Lexeme.Qualifies (Tokens.lexemes d ts) a) : s.Owns a := by
  obtain ⟨b, -, -, howned, hword, -⟩ :=
    h.columned.dotted hd (fun _ _ howned => wf.isAlias_of_owns howned) hread
  rwa [Lexeme.word.inj hword]

end

/-! ## Statements -/

/-- Whatever is compiled into the scope of a statement, and whether it compiles or not: the joins
can be written behind FROM as they are, a navigation keeps the join that it got, and an alias in
a text is that of the root or of a join. -/
theorem joins_of_calls (m : TypeMapping) {calls : List (Environment × Expr)}
    (standard : ∀ call ∈ calls, call.1.Standard) :
    let last := (Scope.ofMapping m).compileEach calls
    last.Chained
      ∧ (∀ before after, calls = before ++ after → ∀ path j,
        ((Scope.ofMapping m).compileEach before).join? path = some j →
        last.join? path = some j)
      ∧ ∀ before env e after, calls = before ++ (env, e) :: after → ∀ d ∈ Dialect.shipped, ∀ ts,
        (e.compileInto env ((Scope.ofMapping m).compileEach before)).outcome = .ok ts →
        ∀ a, Lexeme.Qualifies (d.lexemes (d.text ts)) a →
          a = last.tableAlias ∨ ∃ j ∈ last.joins, j.tableAlias = a := by
  intro last
  have wfNew := Scope.wellFormed_ofMapping m
  refine ⟨?_, ?_, ?_⟩
  · exact Scope.Steps.chained (Scope.steps_compileEach standard _) wfNew
      (Scope.numbered_ofMapping m) (Scope.chained_ofMapping m)
  · rintro before after rfl path j hj
    have hafter := Scope.steps_compileEach (List.forall_mem_append.1 standard).2
      ((Scope.ofMapping m).compileEach before)
    rw [← Scope.compileEach_append] at hafter
    exact (Scope.Steps.extends hafter).join? hj
  · rintro before env e after rfl d hd ts hts a hread
    obtain ⟨hbefore, hrest⟩ := List.forall_mem_append.1 standard
    obtain ⟨henv, hafter⟩ := List.forall_mem_cons.1 hrest
    have wf := Scope.Steps.wellFormed (Scope.steps_compileEach hbefore _) wfNew
    have hcompiles := Compiles.of_compileInto henv hts
    have hquoting := Dialect.quoting_mem_usual hd
    rw [(hcompiles.legible hquoting wf).lexemes_text] at hread
    have howned := (hcompiles.written wf).qualifies hquoting
      (Scope.Steps.wellFormed hcompiles.steps wf) hread
    -- the calls behind this one keep its tables
    have hlast := Scope.Steps.extends (Scope.steps_compileEach hafter
      (e.compileInto env ((Scope.ofMapping m).compileEach before)).scope)
    have heq : last = Scope.compileEach
        (e.compileInto env ((Scope.ofMapping m).compileEach before)).scope after :=
      Scope.compileEach_append _ before ((env, e) :: after)
    rw [heq]
    exact howned.mono hlast

/-- A comparison that failed leaves its join to the one behind it. -/
theorem joins_of_calls_misled :
    let env := Dialect.generic.environment Company.mappings {}
    let new := Scope.ofMapping (Company.mapping Company.employee)
    let failed := new.compileEach [(env, Company.misled)]
    let last := new.compileEach [(env, Company.misled), (env, Company.leading)]
    (Company.misled.compileInto env new).outcome.toOption = none
      ∧ (failed.join? "t0.manager").isSome = true
      ∧ last.Chained
      ∧ last.join? "t0.manager" = failed.join? "t0.manager"
      ∧ last.joins.map (fun j => (j.leftAlias, j.tableAlias)) = [("t0", "t1"), ("t1", "t2")]
      ∧ Lexeme.Qualifies (Dialect.generic.lexemes "t1.\"name\" != t2.\"name\"") "t2"
      ∧ ("t2" = last.tableAlias ∨ ∃ j ∈ last.joins, j.tableAlias = "t2") := by
  intro env new failed last
  have hfailed : (failed.join? "t0.manager").isSome = true := by decide +kernel
  have hqualifies :
      Lexeme.Qualifies (Dialect.generic.lexemes "t1.\"name\" != t2.\"name\"") "t2" := by
    unfold Lexeme.Qualifies
    decide +kernel
  have htext : (Company.leading.compileInto env failed).outcome.toOption.map Dialect.generic.text
      = some "t1.\"name\" != t2.\"name\"" := by
    decide +kernel
  obtain ⟨ts, hts, htokens⟩ := Option.map_eq_some_iff.1 htext
  have hstandard : ∀ call ∈ [(env, Company.misled), (env, Company.leading)], call.1.Standard := by
    intro call hcall
    simp only [List.mem_cons, List.not_mem_nil, or_false] at hcall
    rcases hcall with rfl | rfl <;> rfl
  obtain ⟨hchained, hkept, halias⟩ :=
    joins_of_calls (Company.mapping Company.employee) hstandard
  obtain ⟨j, hj⟩ := Option.isSome_iff_exists.1 hfailed
  refine ⟨by decide +kernel, hfailed, hchained, ?_, by decide +kernel, hqualifies, ?_⟩
  · rw [hj]
    exact hkept [(env, Company.misled)] [(env, Company.leading)] rfl _ _ hj
  · exact halias [(env, Company.misled)] env Company.leading [] rfl .generic (by decide) ts
      (Except.eq_ok_of_toOption hts) _ (htokens ▸ hqualifies)

end RowMapper
