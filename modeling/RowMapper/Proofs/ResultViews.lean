import Mathlib.Algebra.Ring.Nat
import RowMapper.Result.Cursor

/-!
# Three views of results

Rows, counts and failures come in any order, and three readers go through them: a fetch keeps the
rows and failures, an execution adds up the counts, and a cursor stands on one row after the other
and adds up the counts on its way. Here a cursor is advanced until it stops, and what it saw by
then is compared with what the other two make of the same items (`Results.views_agree`).

All three stop in the same place, which is the first failure: a cursor has then consumed what
stands before it (`Results.settled`), and the failure itself.
-/

namespace RowMapper

/-! ## Counts -/

namespace Affected

/-- The counts of a list, added to one that is already known. -/
def extend (known : Affected) (counts : List Affected) : Affected := counts.foldl add known

/-- Counts may be added in any grouping. -/
theorem add_assoc (a b c : Affected) : (a.add b).add c = a.add (b.add c) := by
  unfold add
  dsimp only
  rw [UInt64.add_assoc]
  congr 1
  cases c.lastId <;> rfl

theorem extend_cons (known a : Affected) (counts : List Affected) :
    known.extend (a :: counts) = (known.add a).extend counts := rfl

theorem extend_append (known : Affected) (counts more : List Affected) :
    known.extend (counts ++ more) = (known.extend counts).extend more :=
  List.foldl_append

/-- What is known already is added once. -/
theorem add_extend (known a : Affected) (counts : List Affected) :
    (known.add a).extend counts = known.add (a.extend counts) := by
  induction counts generalizing a with
  | nil => rfl
  | cons b counts ih => rw [extend_cons, extend_cons, add_assoc, ih]

/-- Counts may be added up apart before they are added. -/
theorem extend_eq_add_total (known : Affected) (counts : List Affected) :
    known.extend counts = known.add (total counts) := by
  have hnothing : known.add {} = known := by
    unfold add
    simp
  calc known.extend counts = (known.add {}).extend counts := by rw [hnothing]
    _ = known.add (total counts) := add_extend known {} counts

/-- The sum does not wrap as long as it fits. -/
theorem toNat_rows_extend (known : Affected) (counts : List Affected)
    (h : known.rows.toNat + (counts.map (·.rows.toNat)).sum < 2 ^ 64) :
    (known.extend counts).rows.toNat
      = known.rows.toNat + (counts.map (·.rows.toNat)).sum := by
  induction counts generalizing known with
  | nil => rfl
  | cons a counts ih =>
    rw [List.map_cons, List.sum_cons] at h ⊢
    have hfirst : (known.add a).rows.toNat = known.rows.toNat + a.rows.toNat := by
      show (known.rows + a.rows).toNat = _
      rw [UInt64.toNat_add]
      exact Nat.mod_eq_of_lt (by omega)
    rw [extend_cons, ih (known.add a) (by omega)]
    omega

/-- The last identifier is the one of the last count that has one. -/
theorem lastId_extend (known : Affected) (counts : List Affected) :
    (known.extend counts).lastId
      = ((counts.filterMap (·.lastId)).getLast? <|> known.lastId) := by
  induction counts generalizing known with
  | nil => rfl
  | cons a counts ih =>
    rw [extend_cons, ih, List.filterMap_cons]
    show (_ <|> (a.lastId <|> known.lastId)) = _
    cases a.lastId with
    | none => rfl
    | some id =>
      rw [List.getLast?_cons]
      cases (counts.filterMap (·.lastId)).getLast? <;> rfl

end Affected

/-! ## Items of a stream -/

namespace ResultItem

/-- What a fetch passes on of the item. -/
def fetched? : ResultItem → Option (Except String Row)
  | .row r => some (.ok r)
  | .affected _ => none
  | .failure message => some (.error message)

/-- What an execution adds up of the item. -/
def affected? : ResultItem → Option Affected
  | .affected a => some a
  | .row _ | .failure _ => none

/-- The message of a failure. -/
def failure? : ResultItem → Option String
  | .failure message => some message
  | .row _ | .affected _ => none

end ResultItem

namespace Results

/-- The counts among the items, in order. -/
def counts (results : Results) : List Affected := results.filterMap (·.affected?)

/-- The failures among the items, in order. -/
def failures (results : Results) : List String := results.filterMap (·.failure?)

/-- The items before the first failure. -/
def settled (results : Results) : Results := results.takeWhile (·.failure?.isNone)

theorem rows_eq (results : Results) : results.rows = results.filterMap (·.fetched?) := by
  induction results with
  | nil => rfl
  | cons item rest ih =>
    cases item with
    | row r => exact congrArg (.ok r :: ·) ih
    | affected a => exact ih
    | failure message => exact congrArg (.error message :: ·) ih

/-- An execution counts all, unless there is a failure: then it ends with the first one. -/
theorem executeFrom_eq (known : Affected) (results : Results) :
    results.executeFrom known
      = results.failures.head?.elim (.ok (known.extend results.counts)) .error := by
  induction results generalizing known with
  | nil => rfl
  | cons item rest ih =>
    cases item with
    | row r => exact ih known
    | affected a => exact ih (known.add a)
    | failure message => rfl

/-- What is settled has no failures. -/
theorem failures_settled (results : Results) : results.settled.failures = [] := by
  induction results with
  | nil => rfl
  | cons item rest ih =>
    cases item with
    | row r => exact ih
    | affected a => exact ih
    | failure message => rfl

/-- The counts before the first failure are no more than all of them. -/
theorem sum_settled_le (results : Results) :
    (results.settled.counts.map (·.rows.toNat)).sum
      ≤ (results.counts.map (·.rows.toNat)).sum := by
  have hsplit : results.counts = results.settled.counts
      ++ Results.counts (results.dropWhile (·.failure?.isNone)) := by
    unfold counts settled
    rw [← List.filterMap_append, List.takeWhile_append_dropWhile]
  rw [hsplit, List.map_append, List.sum_append]
  omega

/-- What is settled is counted to its end. -/
theorem execute_settled (results : Results) :
    results.settled.execute = .ok (Affected.extend {} results.settled.counts) := by
  unfold execute
  rw [executeFrom_eq, failures_settled]
  rfl

end Results

/-! ## A cursor that is advanced until it stops -/

namespace Cursor

/-- What came of a cursor that was advanced until it stopped: the rows it stood on, how the last
advance ended, and the cursor after it. -/
structure Exhausted where
  rows : List Row
  outcome : Except String Bool
  cursor : Cursor

/-- A cursor that goes on has less ahead of it. -/
theorem length_ahead_of_next {c c' : Cursor} (h : c.next = (.ok true, c')) :
    c'.ahead.length < c.ahead.length := by
  obtain ⟨ahead, current, affected⟩ := c
  have hnext : advance current affected ahead = (.ok true, c') := h
  show c'.ahead.length < ahead.length
  induction ahead generalizing affected with
  | nil => cases hnext
  | cons item rest ih =>
    cases item with
    | row r =>
      cases hnext
      exact Nat.lt_succ_self _
    | affected a => exact Nat.lt_succ_of_lt (ih (affected.add a) hnext hnext)
    | failure message => cases hnext

/-- Moves to the next row as long as there is one, and reads each. -/
def exhaust (c : Cursor) : Exhausted :=
  match h : c.next with
  | (.ok true, c') =>
    have := length_ahead_of_next h
    let rest := c'.exhaust
    { rest with rows := c'.current.toList ++ rest.rows }
  | (outcome, c') => ⟨[], outcome, c'⟩
termination_by c.ahead.length

section

variable (current : Option Row) (affected : Affected) (rest : Results)

theorem exhaust_nil :
    exhaust ⟨[], current, affected⟩ = ⟨[], .ok false, ⟨[], none, affected⟩⟩ := by
  rw [exhaust]
  rfl

/-- A row is current until the next one comes. -/
theorem exhaust_row (r : Row) :
    exhaust ⟨.row r :: rest, current, affected⟩
      = { exhaust ⟨rest, some r, affected⟩ with
          rows := r :: (exhaust ⟨rest, some r, affected⟩).rows } := by
  rw [exhaust]
  rfl

/-- A count is added, and the cursor goes on to the next item. -/
theorem exhaust_affected (a : Affected) :
    exhaust ⟨.affected a :: rest, current, affected⟩
      = exhaust ⟨rest, current, affected.add a⟩ := by
  rw [exhaust, exhaust]
  rfl

/-- A failure stops the cursor, with the items behind it still ahead. -/
theorem exhaust_failure (message : String) :
    exhaust ⟨.failure message :: rest, current, affected⟩
      = ⟨[], .error message, ⟨rest, current, affected⟩⟩ := by
  rw [exhaust]
  rfl

end

/-- A cursor stands on the rows before the first failure, ends with that failure or without a row,
and has added up the counts that it consumed. -/
theorem exhaust_eq (results : Results) (current : Option Row) (affected : Affected) :
    let stopped := exhaust ⟨results, current, affected⟩
    results.settled.rows = stopped.rows.map .ok
      ∧ stopped.outcome = results.failures.head?.elim (.ok false) .error
      ∧ stopped.cursor.affected = affected.extend results.settled.counts
      ∧ results = results.settled ++ (results.failures.head?.map .failure).toList
        ++ stopped.cursor.ahead := by
  -- along the results, from any cursor: what was added up before them is handed on
  induction results generalizing current affected with
  | nil =>
    rw [exhaust_nil]
    exact ⟨rfl, rfl, rfl, rfl⟩
  | cons item rest ih =>
    cases item with
    | row r =>
      obtain ⟨hrows, houtcome, haffected, hsplit⟩ := ih (some r) affected
      rw [exhaust_row]
      refine ⟨?_, houtcome, haffected, congrArg (.row r :: ·) hsplit⟩
      show .ok r :: Results.rows (Results.settled rest) = _
      rw [hrows]
      rfl
    | affected a =>
      obtain ⟨hrows, houtcome, haffected, hsplit⟩ := ih current (affected.add a)
      rw [exhaust_affected]
      exact ⟨hrows, houtcome, haffected, congrArg (.affected a :: ·) hsplit⟩
    | failure message =>
      rw [exhaust_failure]
      exact ⟨rfl, rfl, rfl, rfl⟩

/-- What is collected of a stream is what a cursor ends with, unless a failure ends both: the rows
for a fetch, the counts for an execution. -/
theorem collected_eq (results : Results) (current : Option Row) (affected : Affected) :
    let stopped := exhaust ⟨results, current, affected⟩
    results.fetch = stopped.outcome.map (fun _ => stopped.rows)
      ∧ results.executeFrom affected = stopped.outcome.map (fun _ => stopped.cursor.affected) := by
  -- along the results: a row is added to what is fetched, a count to what is executed
  induction results generalizing current affected with
  | nil =>
    rw [exhaust_nil]
    exact ⟨rfl, rfl⟩
  | cons item rest ih =>
    cases item with
    | row r =>
      obtain ⟨hfetch, hexecute⟩ := ih (some r) affected
      rw [exhaust_row]
      refine ⟨?_, hexecute⟩
      show (Results.fetch rest).map (r :: ·) = _
      rw [hfetch]
      cases (exhaust ⟨rest, some r, affected⟩).outcome <;> rfl
    | affected a =>
      rw [exhaust_affected]
      exact ih current (affected.add a)
    | failure message =>
      rw [exhaust_failure]
      exact ⟨rfl, rfl⟩

end Cursor

namespace Results

/-- The three readers agree: a fetch passes on the rows and failures in the order of the stream,
an execution ends with the first failure or the sum of the counts, and an exhausted cursor stood on
the rows before that failure, ended with it, and added up what an execution adds up of the items
it consumed. Counts may be added up in parts. -/
theorem views_agree (results : Results)
    (hsum : (results.counts.map (·.rows.toNat)).sum < 2 ^ 64) :
    let stopped := ({ ahead := results } : Cursor).exhaust
    results.rows = results.filterMap (·.fetched?)
      ∧ (∀ message, results.failures.head? = some message → results.execute = .error message)
      ∧ (results.failures = [] → ∃ total, results.execute = .ok total
        ∧ total.rows.toNat = (results.counts.map (·.rows.toNat)).sum
        ∧ total.lastId = (results.counts.filterMap (·.lastId)).getLast?)
      ∧ results.settled.rows = stopped.rows.map .ok
      ∧ stopped.outcome = results.failures.head?.elim (.ok false) .error
      ∧ results = results.settled ++ (results.failures.head?.map .failure).toList
        ++ stopped.cursor.ahead
      ∧ results.settled.execute = .ok stopped.cursor.affected
      ∧ stopped.cursor.affected.rows.toNat = (results.settled.counts.map (·.rows.toNat)).sum
      ∧ results.execute = stopped.outcome.map (fun _ => stopped.cursor.affected)
      ∧ results.fetch = stopped.outcome.map (fun _ => stopped.rows)
      ∧ ∀ (known : Affected) (counts more : List Affected),
        known.extend (counts ++ more) = (known.extend counts).extend more
          ∧ known.extend (counts ++ more)
            = known.add ((Affected.total counts).add (Affected.total more)) := by
  intro stopped
  obtain ⟨hrows, houtcome, haffected, hsplit⟩ := Cursor.exhaust_eq results none {}
  have hcollected := Cursor.collected_eq results none {}
  -- all views read the results one by one, so each is compared with the cursor that is exhausted
  have hexecute := executeFrom_eq {} results
  have htotal (counts : List Affected) (h : (counts.map (·.rows.toNat)).sum < 2 ^ 64) :
      (Affected.extend {} counts).rows.toNat = (counts.map (·.rows.toNat)).sum := by
    have hzero : ({} : Affected).rows.toNat = 0 := rfl
    rw [Affected.toNat_rows_extend _ _ (by omega), hzero, Nat.zero_add]
  refine ⟨results.rows_eq, fun message hfirst => ?_, fun hnone => ?_, hrows, houtcome, hsplit,
    ?_, ?_, hcollected.2, hcollected.1, fun known counts more => ⟨?_, ?_⟩⟩
  · rw [hfirst] at hexecute
    exact hexecute
  · rw [hnone] at hexecute
    refine ⟨_, hexecute, htotal _ hsum, ?_⟩
    rw [Affected.lastId_extend]
    cases (results.counts.filterMap (·.lastId)).getLast? <;> rfl
  · rw [execute_settled, ← haffected]
  · have hle := results.sum_settled_le
    show (Cursor.exhaust ⟨results, none, {}⟩).cursor.affected.rows.toNat = _
    rw [haffected]
    exact htotal _ (by omega)
  · exact known.extend_append counts more
  · rw [Affected.extend_append, Affected.extend_eq_add_total, Affected.extend_eq_add_total,
      Affected.add_assoc]

end Results

namespace Company

/-- A count, a row, two counts, a failure, and a row and a count that come too late. -/
def brokenOff : Results :=
  [.affected ⟨2, some 7⟩, .row ⟨["id"], [.of (.int64 4)]⟩, .affected ⟨1, none⟩,
    .affected ⟨3, some 9⟩, .failure "deadlock detected", .row ⟨["id"], [.of (.int64 5)]⟩,
    .affected ⟨8, some 11⟩]

end Company

/-- The failure ends an execution and a fetch of all rows. A cursor has seen the row before it, and
the counts around that row. -/
theorem Results.views_agree_brokenOff :
    let results := Company.brokenOff
    let stopped := ({ ahead := results } : Cursor).exhaust
    (results.counts.map (·.rows.toNat)).sum < 2 ^ 64
      ∧ results.execute = .error "deadlock detected"
      ∧ results.fetch = .error "deadlock detected"
      ∧ stopped.rows.map Except.ok = [(.ok ⟨["id"], [.of (.int64 4)]⟩ : Except String Row)]
      ∧ stopped.outcome = .error "deadlock detected"
      ∧ stopped.cursor.affected = ⟨6, some 9⟩
      ∧ stopped.cursor.ahead = results.drop 5 := by
  intro results stopped
  obtain ⟨-, hfailed, -, hrows, houtcome, hsplit, hconsumed, -, -, hfetch, -⟩ :=
    Results.views_agree results (by decide)
  have hfirst : results.failures.head? = some "deadlock detected" := by decide
  rw [hfirst] at houtcome hsplit
  have houtcome : stopped.outcome = .error "deadlock detected" := houtcome
  refine ⟨by decide, hfailed _ hfirst, ?_, ?_, houtcome, ?_, ?_⟩
  · rw [hfetch]
    exact congrArg (Except.map _) houtcome
  · exact hrows.symm
  · have haffected : results.settled.execute = .ok ⟨6, some 9⟩ := rfl
    exact Except.ok.inj (hconsumed.symm.trans haffected)
  · have hleft : results.take 5 ++ results.drop 5 = results.take 5 ++ stopped.cursor.ahead := hsplit
    exact (List.append_cancel_left hleft).symm

end RowMapper
