import RowMapper.Proofs.Parentheses
import RowMapper.Proofs.Placeholders
import RowMapper.Proofs.WrittenCommands

/-!
# Calls on selections

A filter or an ordering that does not compile has asked for joins, numbered aliases, bound names
and added parameters before it failed, but all of it in a copy of the scope. A selection is what
the calls that succeed make of it, in the order in which they were made; each of them succeeds
without the others too. Several filters are joined by AND, each between parentheses of its own,
which no filter can close early.

* `Selection.succeeding` are the calls that succeed, each made on the selection that the call before
  it left; `attemptAll_succeeding` and `performAll_of_attemptAll` say that they alone make the same
  selection.
* `SelectParts.conditions_line` is what a reader finds behind WHERE.
* `failed_calls_leave_no_trace` is the result for selections from their first call on.
-/

namespace RowMapper

/-! ## Calls that succeed -/

namespace Selection

/-- The calls that succeed in their turn. -/
def succeeding (s : Selection) (d : Dialect) (mappings : Mappings) : List Call → List Call
  | [] => []
  | call :: rest =>
    let attempt := s.attempt d mappings call
    let more := attempt.selection.succeeding d mappings rest
    match attempt.outcome with
    | .ok _ => call :: more
    | .error _ => more

/-- The selection after calls none of which may fail. -/
def attemptAll (s : Selection) (d : Dialect) (mappings : Mappings) (calls : List Call) :
    Except CompileError Selection :=
  calls.foldlM (fun s call => (s.attempt d mappings call).result) s

/-- The expression that a call compiles, and the clause that it compiles it for. -/
def Call.expression? : Call → Option (Clause × Expr)
  | .addFilter e => some (.filter, e)
  | .addOrder e _ => some (.ordering, e)
  | .setTable _ | .addColumn _ | .setLimit _ => none

/-- The condition that a call adds. -/
def Call.condition? : Call → Option Expr
  | .addFilter e => some e
  | _ => none

variable {d : Dialect} {mappings : Mappings} {s s' next : Selection} {call : Call}
  {calls rest : List Call}

/-- The calls that follow find the selection that the first one left. -/
theorem performAll_cons : s.performAll d mappings (call :: rest)
    = (s.attempt d mappings call).selection.performAll d mappings rest := rfl

theorem performAll_append {before after : List Call} :
    s.performAll d mappings (before ++ after)
      = (s.performAll d mappings before).performAll d mappings after :=
  List.foldl_append ..

theorem performAll_cons_of_ok (h : (s.attempt d mappings call).result = .ok next) :
    s.performAll d mappings (call :: rest) = next.performAll d mappings rest := by
  obtain ⟨-, -, hnext⟩ := Except.map_eq_ok.1 h
  rw [performAll_cons, hnext]

/-- A call that fails leaves the selection to the following calls as it was. -/
theorem performAll_cons_of_error {cause : CompileError}
    (h : (s.attempt d mappings call).outcome = .error cause) :
    s.performAll d mappings (call :: rest) = s.performAll d mappings rest := by
  rw [performAll_cons, selection_attempt h]

theorem attemptAll_cons :
    s.attemptAll d mappings (call :: rest)
      = (s.attempt d mappings call).result >>= fun next => next.attemptAll d mappings rest :=
  List.foldlM_cons ..

/-- Attempts are made one behind the other, up to the first that fails. -/
theorem attemptAll_append {before after : List Call} :
    s.attemptAll d mappings (before ++ after)
      = s.attemptAll d mappings before >>= fun middle => middle.attemptAll d mappings after :=
  List.foldlM_append ..

/-- The calls that succeed, in their order. -/
theorem succeeding_sublist (s : Selection) (calls : List Call) :
    (s.succeeding d mappings calls).Sublist calls := by
  induction calls generalizing s with
  | nil => exact .slnil
  | cons call rest ih =>
    rw [succeeding]
    cases (s.attempt d mappings call).outcome with
    | ok _ => exact (ih _).cons_cons call
    | error cause => exact (ih _).cons call

/-- A call that fails has failed in the compilation of its expression, in the scope as it was. -/
theorem failure_of_attempt {cause : CompileError}
    (h : (s.attempt d mappings call).outcome = .error cause) :
    ∃ clause e, call.expression? = some (clause, e)
      ∧ (e.compileInto (d.environment mappings ⟨clause, true⟩) s.scope).outcome = .error cause := by
  have hresult := result_attempt_eq_error.2 h
  cases call with
  | setTable | addColumn | setLimit => cases h
  | addFilter e =>
    have hfilter : s.addFilter d mappings e = .error cause := hresult
    rw [addFilter_eq] at hfilter
    exact ⟨.filter, e, rfl, Except.map_eq_error.1 hfilter⟩
  | addOrder e order =>
    have horder : s.addOrder d mappings e order = .error cause := hresult
    rw [addOrder_eq] at horder
    exact ⟨.ordering, e, rfl, Except.map_eq_error.1 horder⟩

/-- The calls that compile no expression are among those that succeed. -/
theorem filter_succeeding (s : Selection) (calls : List Call) :
    (s.succeeding d mappings calls).filter (·.expression?.isNone)
      = calls.filter (·.expression?.isNone) := by
  induction calls generalizing s with
  | nil => rfl
  | cons call rest ih =>
    rw [succeeding]
    cases hcall : (s.attempt d mappings call).outcome with
    | ok _ => simp only [List.filter_cons, ih]
    | error cause =>
      obtain ⟨clause, e, hexpression, -⟩ := failure_of_attempt hcall
      rw [List.filter_cons, if_neg (by rw [hexpression]; exact Bool.false_ne_true)]
      exact ih _

/-- The calls that succeed lead to the selection after all calls, and none of them fails without
the others. -/
theorem attemptAll_succeeding (s : Selection) (calls : List Call) :
    s.attemptAll d mappings (s.succeeding d mappings calls)
      = .ok (s.performAll d mappings calls) := by
  induction calls generalizing s with
  | nil => rfl
  | cons call rest ih =>
    rw [succeeding]
    cases hcall : (s.attempt d mappings call).outcome with
    | ok _ =>
      have hresult : (s.attempt d mappings call).result
          = .ok (s.attempt d mappings call).selection := by
        rw [Attempt.result, hcall]
        rfl
      rw [performAll_cons, attemptAll_cons, hresult]
      exact ih _
    | error cause =>
      -- the calls behind one that fails are made on the selection as it was before
      dsimp only
      rw [performAll_cons_of_error hcall, selection_attempt hcall]
      exact ih s

/-- Calls that all succeed leave what their attempts leave. -/
theorem performAll_of_attemptAll (h : s.attemptAll d mappings calls = .ok s') :
    s.performAll d mappings calls = s' := by
  induction calls generalizing s with
  | nil =>
    cases h
    rfl
  | cons call rest ih =>
    rw [attemptAll_cons] at h
    obtain ⟨next, hcall, hrest⟩ := Except.bind_eq_ok.1 h
    rw [performAll_cons_of_ok hcall]
    exact ih hrest

/-! ## Filters in their order -/

/-- A condition is compiled in the scope as it is. -/
theorem attempt_addFilter {condition : Expr}
    (h : (s.attempt d mappings (.addFilter condition)).result = .ok s') :
    ∃ ts, (condition.compileInto (d.environment mappings ⟨.filter, true⟩) s.scope).outcome = .ok ts
      ∧ s'.filters = s.filters ++ [ts] := by
  have hadded : s.addFilter d mappings condition = .ok s' := h
  rw [addFilter_eq] at hadded
  obtain ⟨ts, houtcome, rfl⟩ := Except.map_eq_ok.1 hadded
  exact ⟨ts, houtcome, rfl⟩

/-- Other calls leave the filters alone. -/
theorem filters_attempt (hcondition : call.condition? = none)
    (h : (s.attempt d mappings call).result = .ok s') : s'.filters = s.filters := by
  cases call with
  | addFilter condition => cases hcondition
  | setTable | addColumn | setLimit =>
    cases h
    rfl
  | addOrder e order =>
    have hadded : s.addOrder d mappings e order = .ok s' := h
    rw [addOrder_eq] at hadded
    obtain ⟨ts, -, rfl⟩ := Except.map_eq_ok.1 hadded
    rfl

/-- There are as many new filters as conditions, behind the former filters. -/
theorem filters_attemptAll (h : s.attemptAll d mappings calls = .ok s') :
    ∃ added, s'.filters = s.filters ++ added
      ∧ added.length = (calls.filterMap Call.condition?).length := by
  -- along the calls: one that adds a condition adds a filter, no other touches them
  induction calls generalizing s with
  | nil =>
    cases h
    exact ⟨[], (List.append_nil _).symm, rfl⟩
  | cons call rest ih =>
    rw [attemptAll_cons] at h
    obtain ⟨next, hcall, hrest⟩ := Except.bind_eq_ok.1 h
    obtain ⟨added, hadded, hlength⟩ := ih hrest
    cases hcondition : call.condition? with
    | none =>
      rw [filters_attempt hcondition hcall] at hadded
      exact ⟨added, hadded, by rw [List.filterMap_cons_none hcondition, hlength]⟩
    | some condition =>
      cases call with
      | addFilter condition =>
        obtain ⟨ts, -, hts⟩ := attempt_addFilter hcall
        refine ⟨ts :: added, by rw [hadded, hts, List.append_assoc]; rfl, ?_⟩
        rw [List.filterMap_cons_some hcondition, List.length_cons, List.length_cons, hlength]
      | _ => cases hcondition

/-- The filter of a condition stands behind those of the conditions before it. -/
theorem filter_of_condition {before after : List Call} {condition : Expr}
    (h : s.attemptAll d mappings (before ++ .addFilter condition :: after) = .ok s') :
    ∃ ts, (condition.compileInto (d.environment mappings ⟨.filter, true⟩)
        (s.performAll d mappings before).scope).outcome = .ok ts
      ∧ s'.filters[s.filters.length + (before.filterMap Call.condition?).length]? = some ts := by
  -- the calls before the condition add the filters in front of its own, those behind it the rest
  rw [attemptAll_append] at h
  obtain ⟨middle, hbefore, h⟩ := Except.bind_eq_ok.1 h
  rw [attemptAll_cons] at h
  obtain ⟨next, hcall, hafter⟩ := Except.bind_eq_ok.1 h
  obtain ⟨ts, houtcome, hts⟩ := attempt_addFilter hcall
  obtain ⟨earlier, hearlier, hlength⟩ := filters_attemptAll hbefore
  obtain ⟨later, hlater, -⟩ := filters_attemptAll hafter
  refine ⟨ts, by rw [performAll_of_attemptAll hbefore]; exact houtcome, ?_⟩
  rw [hlater, hts, hearlier, ← hlength, ← List.length_append]
  simp

end Selection

/-! ## The WHERE clause -/

/-- What may follow a WHERE clause begins with one of these. -/
def Lexeme.clauseEnds : List Lexeme := [.word "ORDER", .word "LIMIT", .symbol ";"]

/-- The conditions of a WHERE clause: what stands between the words AND that are outside of all
parentheses. -/
def Lexeme.conditions (ls : List Lexeme) : List (List Lexeme) :=
  match ls.dropWhile (· != .word "WHERE") with
  | [] => []
  | _ :: clause => cut [.word "AND"] 0 ((cut clauseEnds 0 clause).headD [])

/-- The conditions that the text of a statement asks for. -/
def Statement.conditions (st : Statement) (d : Dialect) : List (List Lexeme) :=
  Lexeme.conditions (d.lexemes st.sql)

section Clause

variable {d : Dialect} {filters : List Tokens}

/-- What follows the filters of a selection begins with the end of their clause. -/
theorem SelectParts.exists_clauseEnd (hd : d.quoting ∈ Quoting.usual) (p : SelectParts) :
    ∃ l ∈ Lexeme.clauseEnds, ∃ more, Tokens.lexemes d (p.tail d) = l :: more := by
  have hend : (Token.word ";").lexemes d = [.symbol ";"] := lexemes_word hd (by decide)
  unfold tail orderTokens
  cases p.orders with
  | cons o orders =>
    have horder : (Token.word "\nORDER BY ").lexemes d = [.word "ORDER", .word "BY"] :=
      lexemes_word hd (by decide)
    simp only [List.isEmpty_cons, Bool.false_eq_true, if_false, List.cons_append,
      Tokens.lexemes_cons, horder]
    exact ⟨.word "ORDER", by decide, _, rfl⟩
  | nil =>
    cases p.limit with
    | none => exact ⟨.symbol ";", by decide, [], by simp [hend]⟩
    | some n =>
      unfold Dialect.trailingLimit
      cases d.limitStyle with
      | leading =>
        have hempty : (Token.word "").lexemes d = [] := lexemes_word hd (by decide)
        exact ⟨.symbol ";", by decide, [], by simp [hend, hempty]⟩
      | trailing =>
        -- the limit is one word of the text, and is read as two
        have hnumber : Legible d [.word "\nLIMIT ", .word (toString n)] :=
          (legible_number hd n).cons hd (by decide) (by decide)
        have hmerged : (Token.word ("\nLIMIT " ++ toString n)).lexemes d
            = Tokens.lexemes d [.word "\nLIMIT ", .word (toString n)] :=
          (hnumber.merge (by simp [Dialect.token]) rfl).2
        have hlimit : (Token.word "\nLIMIT ").lexemes d = [.word "LIMIT"] :=
          lexemes_word hd (by decide)
        refine ⟨.word "LIMIT", by decide, Tokens.lexemes d [.word (toString n), .word ";"], ?_⟩
        simp only [List.isEmpty_nil, if_true, List.nil_append, Option.toList_some, List.map_cons,
          List.map_nil, List.cons_append, Tokens.lexemes_cons, Tokens.lexemes_nil, List.append_nil,
          hmerged, hlimit]

/-- Several filters are parenthesized each. -/
theorem filterTokens_of_many (h : 1 < filters.length) :
    filterTokens filters = .word "\nWHERE " :: allOf (filters.map Tokens.parenthesized) := by
  have hempty : filters ≠ [] := by
    intro hnil
    rw [hnil] at h
    cases h
  have hmany : Tokens.parenthesizedIf (1 < filters.length) = Tokens.parenthesized := by
    funext f
    rw [Tokens.parenthesizedIf, if_pos (decide_eq_true h)]
  simp [filterTokens, hempty, hmany]

/-- Several filters are written each between parentheses, with AND between them. -/
theorem text_filterTokens (h : 1 < filters.length) :
    d.text (filterTokens filters)
      = "\nWHERE " ++ " AND ".intercalate (filters.map fun f => "(" ++ d.text f ++ ")") := by
  have hpieces : ∀ p ∈ filters.map Tokens.parenthesized, p ≠ [] := by
    intro p hp
    obtain ⟨f, -, rfl⟩ := List.mem_map.1 hp
    exact List.cons_ne_nil _ _
  have hwritten (f : Tokens) : d.text f.parenthesized = "(" ++ d.text f ++ ")" := by
    simp [Tokens.parenthesized, String.append_assoc]
  rw [filterTokens_of_many h, Dialect.text_cons, allOf, text_separated _ hpieces, List.map_map]
  simp only [Function.comp_def, hwritten]
  rfl

/-- Several balanced filters are read again, one operand for each. -/
theorem SelectParts.conditions_line (hd : d.quoting ∈ Quoting.usual) {p : SelectParts}
    (halias : IsAlias p.tableAlias)
    (hjoins : ∀ j ∈ p.joins, IsAlias j.tableAlias ∧ IsAlias j.leftAlias)
    (hfilters : ∀ f ∈ p.filters, Lexeme.Balanced (Tokens.lexemes d f))
    (hmany : 1 < p.filters.length) :
    Lexeme.conditions (Tokens.lexemes d (p.line d))
      = p.filters.map fun f => Lexeme.enclosed (Tokens.lexemes d f) := by
  let operands : Tokens := allOf (p.filters.map Tokens.parenthesized)
  obtain ⟨l, hl, more, hmore⟩ := p.exists_clauseEnd hd
  have hwhere : (Token.word "\nWHERE ").lexemes d = [.word "WHERE"] := lexemes_word hd (by decide)
  have hand : (Token.word " AND ").lexemes d = [.word "AND"] := lexemes_word hd (by decide)
  have hundivided (separators : List Lexeme) (hopen : Lexeme.symbol "(" ∉ separators) :
      ∀ q ∈ p.filters.map Tokens.parenthesized,
        q ≠ [] ∧ Lexeme.Undivided separators (Tokens.lexemes d q) := by
    intro q hq
    obtain ⟨f, hf, rfl⟩ := List.mem_map.1 hq
    rw [Tokens.lexemes_parenthesized hd]
    exact ⟨List.cons_ne_nil _ _, (hfilters f hf).undivided_enclosed hopen⟩
  -- the operands and the words between them are one piece of the text, up to the end of the clause
  have hclause : Lexeme.Undivided Lexeme.clauseEnds (Tokens.lexemes d operands) := by
    refine holds_separated .nil (fun _ _ => Lexeme.Undivided.append) ?_
      fun q hq => (hundivided _ (by decide) q hq).2
    rw [Tokens.lexemes_cons, hand]
    exact Lexeme.undivided_singleton (by decide) (by decide)
  have hoperands : Lexeme.cut [.word "AND"] 0 (Tokens.lexemes d operands)
      = p.filters.map fun f => Lexeme.enclosed (Tokens.lexemes d f) := by
    have hcut := cut_separated hand (List.mem_singleton.2 rfl)
      (by simpa using List.length_pos_iff.1 (Nat.lt_of_succ_lt hmany))
      (hundivided [.word "AND"] (by decide))
    rw [List.map_map] at hcut
    simp only [Function.comp_def, Tokens.lexemes_parenthesized hd] at hcut
    exact hcut
  have hskip : ∀ x ∈ Tokens.lexemes d (p.head d), (x != .word "WHERE") = true := by
    intro x hx
    rw [bne_iff_ne]
    rintro rfl
    exact where_not_mem_head hd halias hjoins hx
  have hlexemes : Tokens.lexemes d (p.line d) = Tokens.lexemes d (p.head d)
      ++ .word "WHERE" :: (Tokens.lexemes d operands ++ l :: more) := by
    rw [line_eq, filterTokens_of_many hmany, Tokens.lexemes_append, Tokens.lexemes_append,
      Tokens.lexemes_cons, hwhere, hmore]
    simp [operands]
  rw [Lexeme.conditions, hlexemes, List.dropWhile_append_of_pos hskip]
  show Lexeme.cut [.word "AND"] 0
    ((Lexeme.cut Lexeme.clauseEnds 0 (Tokens.lexemes d operands ++ l :: more)).headD []) = _
  rw [hclause.cut_at hl]
  exact hoperands

end Clause

/-- The statement asks for all of the filters: its conditions are as many, in the same order, and
each is a filter between parentheses that match. -/
structure Statement.Conjoins (st : Statement) (d : Dialect) (filters : List Tokens) : Prop where
  written : ∃ front back, st.sql = front ++ "\nWHERE "
    ++ " AND ".intercalate (filters.map fun f => "(" ++ d.text f ++ ")") ++ back
  read : d ∈ Dialect.shipped → st.conditions d
    = filters.map fun f => Lexeme.enclosed (d.lexemes (d.text f))
  matched : d ∈ Dialect.shipped → ∀ f ∈ filters, Lexeme.Balanced (d.lexemes (d.text f))

namespace Selection

variable {d : Dialect} {mappings : Mappings} {s s' : Selection}

/-- The filters of a selection leave no parenthesis open. -/
def Matched (d : Dialect) (s : Selection) : Prop :=
  ∀ f ∈ s.filters, Lexeme.Balanced (Tokens.lexemes d f)

/-- A call that succeeds leaves no parenthesis open. -/
theorem Matched.attempt (hd : d ∈ Dialect.shipped) (h : s.Matched d) (wf : s.scope.WellFormed)
    {call : Call} (hcall : (s.attempt d mappings call).result = .ok s') : s'.Matched d := by
  cases hcondition : call.condition? with
  | none =>
    unfold Matched
    rw [filters_attempt hcondition hcall]
    exact h
  | some condition =>
    cases call with
    | addFilter condition =>
      obtain ⟨ts, scope, rfl, hcompiles⟩ :=
        Selection.addFilter_eq_ok (Dialect.rules_of_shipped hd) hcall
      have hlast : ∀ f ∈ [ts], Lexeme.Balanced (Tokens.lexemes d f) :=
        List.forall_mem_singleton.2 (hcompiles.balanced (Dialect.quoting_mem_usual hd) wf)
      exact List.forall_mem_append.2 ⟨h, hlast⟩
    | _ => cases hcondition

theorem Matched.performAll (hd : d ∈ Dialect.shipped) (h : s.Matched d) (hs : Sound d s)
    (calls : List Call) : (s.performAll d mappings calls).Matched d := by
  induction calls generalizing s with
  | nil => exact h
  | cons call rest ih =>
    cases hcall : (s.attempt d mappings call).result with
    | ok next =>
      rw [performAll_cons_of_ok hcall]
      exact ih (h.attempt hd hs.scope hcall) (hs.attempt hd hcall)
    | error cause =>
      rw [performAll_cons_of_error (result_attempt_eq_error.1 hcall)]
      exact ih h hs

/-- A selection with several filters asks for all of them. -/
theorem conjoins_of_build {m : TypeMapping} {calls : List Call} {built : Built}
    (hbuild : ((ofMapping m).performAll d mappings calls).build d = .ok built)
    (hmany : 1 < ((ofMapping m).performAll d mappings calls).filters.length) :
    built.statement.Conjoins d ((ofMapping m).performAll d mappings calls).filters := by
  have hblank : (ofMapping m).Matched d := fun _ h => absurd h List.not_mem_nil
  have hlegible (hd : d ∈ Dialect.shipped) : Sound d ((ofMapping m).performAll d mappings calls) :=
    (Sound.ofMapping m).performAll hd calls
  have hmatched (hd : d ∈ Dialect.shipped) :
      Matched d ((ofMapping m).performAll d mappings calls) :=
    hblank.performAll hd (Sound.ofMapping m) calls
  generalize (ofMapping m).performAll d mappings calls = last at hbuild hmany hlegible hmatched ⊢
  have hsql : built.statement.sql = d.batch [last.parts.line d] := by
    rw [build_eq_ok hbuild]
  refine ⟨⟨d.text (last.parts.head d), d.text (last.parts.tail d), ?_⟩, fun hd => ?_,
    fun hd f hf => ?_⟩
  · -- the filters stand in one place of the only line
    have htext : d.batch [last.parts.line d] = d.text (last.parts.line d) := by
      simp [Dialect.batch]
    have hclause : d.text (filterTokens last.parts.filters) = "\nWHERE "
        ++ " AND ".intercalate (last.filters.map fun f => "(" ++ d.text f ++ ")") :=
      text_filterTokens hmany
    rw [hsql, htext, SelectParts.line_eq, Dialect.text_append, Dialect.text_append, hclause]
    simp only [String.append_assoc]
  · -- read back, the condition falls into its filters: their own connectives are in parentheses
    have hquoting := Dialect.quoting_mem_usual hd
    have hs := hlegible hd
    have hlines := SelectParts.legible_lines hquoting (s := last.parts) hs.scope.root
      hs.scope.joined hs.filters hs.orders
    rw [Statement.conditions, hsql, lexemes_batch hquoting hlines, List.flatMap_singleton,
      SelectParts.conditions_line (p := last.parts) hquoting hs.scope.root hs.scope.joined
        (hmatched hd) hmany]
    refine List.map_congr_left fun f hf => ?_
    rw [(hs.filters f hf).lexemes_text]
  · rw [((hlegible hd).filters f hf).lexemes_text]
    exact hmatched hd f hf

end Selection

/-- A call that fails leaves the selection as it was, whatever its compilation had asked of the
scope by then. So calls of which some fail make the same selection as those that succeed, in the same
order and without the others; of these none fails, and the same statement or error is built. Only
filters and orderings fail. There is one filter for each condition that succeeds, in their order,
compiled in the scope that the calls before it left; a statement with several filters is their
conjunction. -/
theorem failed_calls_leave_no_trace (d : Dialect) (mappings : Mappings) (m : TypeMapping)
    (calls : List Selection.Call) :
    let blank := Selection.ofMapping m
    let kept := blank.succeeding d mappings calls
    let last := blank.performAll d mappings calls
    (∀ before call after cause, calls = before ++ call :: after →
        let s := blank.performAll d mappings before
        let failed := s.attempt d mappings call
        failed.outcome = .error cause →
          failed.selection = s ∧ last = s.performAll d mappings after
            ∧ ∃ clause e, call.expression? = some (clause, e)
              ∧ (e.compileInto (d.environment mappings ⟨clause, true⟩) s.scope).outcome
                = .error cause)
      ∧ kept.Sublist calls
      ∧ kept.filter (·.expression?.isNone) = calls.filter (·.expression?.isNone)
      ∧ blank.attemptAll d mappings kept = .ok last
      ∧ blank.performAll d mappings kept = last
      ∧ (blank.performAll d mappings kept).build d = last.build d
      ∧ last.filters.length = (kept.filterMap Selection.Call.condition?).length
      ∧ (∀ before condition after, kept = before ++ .addFilter condition :: after →
        ∃ ts, (condition.compileInto (d.environment mappings ⟨.filter, true⟩)
            (blank.performAll d mappings before).scope).outcome = .ok ts
          ∧ last.filters[(before.filterMap Selection.Call.condition?).length]? = some ts)
      ∧ ∀ built, last.build d = .ok built → 1 < last.filters.length →
        built.statement.Conjoins d last.filters := by
  intro blank kept last
  have hkept : blank.attemptAll d mappings kept = .ok last :=
    Selection.attemptAll_succeeding blank calls
  have hsame : blank.performAll d mappings kept = last :=
    Selection.performAll_of_attemptAll hkept
  obtain ⟨added, hadded, hlength⟩ := Selection.filters_attemptAll hkept
  have hfilters : last.filters = added := hadded
  refine ⟨fun before call after cause hsplit => ?_, Selection.succeeding_sublist blank calls,
    Selection.filter_succeeding blank calls, hkept, hsame, by rw [hsame], by rw [hfilters, hlength],
    fun before condition after hsplit => ?_,
    fun built hbuild hmany => Selection.conjoins_of_build hbuild hmany⟩
  · intro s failed hfailed
    have hlast : last = s.performAll d mappings after := by
      show blank.performAll d mappings calls = _
      rw [hsplit, Selection.performAll_append, Selection.performAll_cons_of_error hfailed]
    exact ⟨Selection.selection_attempt hfailed, hlast, Selection.failure_of_attempt hfailed⟩
  · rw [hsplit] at hkept
    obtain ⟨ts, houtcome, hts⟩ := Selection.filter_of_condition hkept
    have hnone : blank.filters.length = 0 := rfl
    rw [hnone, Nat.zero_add] at hts
    exact ⟨ts, houtcome, hts⟩

namespace Company

/-- A filter that fails behind a join and a parameter. -/
def misfiled : Expr :=
  let x := Expr.parameter "x" employee
  let value (k : Datum) := Expr.constant (.value (.of k))
  .binary .and
    (.binary .equal (.member (.member x "department") "name") (value (.varchar "IT")))
    (.binary .equal (.member x "nothing") (value (.int64 1)))

/-- A filter by the name of the manager. -/
def reporting : Expr :=
  .binary .equal (.member (.member (.parameter "x" employee) "manager") "name")
    (.constant (.value (.of (.varchar "Ann"))))

/-- A filter with an operator that binds more loosely than AND. -/
def named : Expr :=
  let x := Expr.parameter "x" employee
  .binary .or (.binary .equal (.member x "name") (.constant (.value (.of (.varchar ") AND (")))))
    (.member x "active")

/-- Calls of which the third and the fourth fail. -/
def staffing : List Selection.Call :=
  [.addColumn "id", .addFilter reporting, .addFilter misfiled,
    .addOrder (.member (.member (.parameter "x" employee) "mentor") "nothing") .ascending,
    .addFilter named, .setTable "staff", .setLimit (some 5)]

end Company

/-- Calls of which some fail behind joins and parameters that they asked for. -/
theorem failed_calls_leave_no_trace_staffing :
    let d := Dialect.generic
    let blank := Selection.ofMapping (Company.mapping Company.employee)
    let kept : List Selection.Call := [.addColumn "id", .addFilter Company.reporting,
      .addFilter Company.named, .setTable "staff", .setLimit (some 5)]
    let last := blank.performAll d Company.mappings Company.staffing
    let s := blank.performAll d Company.mappings (Company.staffing.take 2)
    let copy := (Company.misfiled.compileInto (d.environment Company.mappings ⟨.filter, true⟩)
      s.scope).scope
    copy.joins.map (·.path) = ["t0.manager", "t0.department"]
      ∧ copy.parameters.length = 2
      ∧ (s.attempt d Company.mappings (.addFilter Company.misfiled)).outcome.toOption = none
      ∧ (s.attempt d Company.mappings (.addFilter Company.misfiled)).selection = s
      ∧ last.scope.joins.map (·.path) = ["t0.manager"]
      ∧ blank.performAll d Company.mappings kept = last
      ∧ ∃ built, last.build d = .ok built ∧ built.statement.Conjoins d last.filters
        ∧ built.statement.sql = "SELECT t0.\"id\"\nFROM \"staff\" t0\n"
          ++ "LEFT OUTER JOIN \"managers\" t1 ON t0.\"manager_id\" = t1.\"id\"\n"
          ++ "WHERE (t1.\"name\" = @p0) AND (t0.\"name\" = @p1 OR t0.\"active\" = @p2)\n"
          ++ "LIMIT 5;" := by
  intro d blank kept last s copy
  have hcopy : copy.joins.map (·.path) = ["t0.manager", "t0.department"] := by decide +kernel
  have hparameters : copy.parameters.length = 2 := by decide +kernel
  have hfails : (s.attempt d Company.mappings (.addFilter Company.misfiled)).outcome.toOption
      = none := by
    decide +kernel
  have hjoins : last.scope.joins.map (·.path) = ["t0.manager"] := by decide +kernel
  have hkept : blank.succeeding d Company.mappings Company.staffing = kept := by decide +kernel
  have hmany : 1 < last.filters.length := by decide +kernel
  have hbuilt : (last.build d).toOption.map (·.statement.sql)
      = some ("SELECT t0.\"id\"\nFROM \"staff\" t0\n"
        ++ "LEFT OUTER JOIN \"managers\" t1 ON t0.\"manager_id\" = t1.\"id\"\n"
        ++ "WHERE (t1.\"name\" = @p0) AND (t0.\"name\" = @p1 OR t0.\"active\" = @p2)\n"
        ++ "LIMIT 5;") := by
    decide +kernel
  obtain ⟨built, hbuild, hsql⟩ := Option.map_eq_some_iff.1 hbuilt
  obtain ⟨hfailing, -, -, -, hsame, -, -, -, hconjoins⟩ :=
    failed_calls_leave_no_trace d Company.mappings (Company.mapping Company.employee)
      Company.staffing
  have hbuild := Except.eq_ok_of_toOption hbuild
  -- the filter that fails has asked the copy for a join and two parameters
  have hleft : (s.attempt d Company.mappings (.addFilter Company.misfiled)).selection = s := by
    cases houtcome : (s.attempt d Company.mappings (.addFilter Company.misfiled)).outcome with
    | ok _ =>
      rw [houtcome] at hfails
      cases hfails
    | error cause =>
      have hsplit : Company.staffing = Company.staffing.take 2
          ++ .addFilter Company.misfiled :: Company.staffing.drop 3 := rfl
      exact (hfailing _ _ _ cause hsplit houtcome).1
  exact ⟨hcopy, hparameters, hfails, hleft, hjoins, hkept ▸ hsame, built, hbuild,
    hconjoins built hbuild hmany, hsql⟩

end RowMapper
