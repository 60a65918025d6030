import RowMapper.Cell
import RowMapper.Proofs.ExactNumber

/-!
# Cells and their history

What a cell is in is told by what was done with it: its current value is the one set last, or the
one that a rollback went back to; its committed value is the one loaded last, or the one that a
commit promoted. Both are read off the history, in which commits and rollbacks stand with their
answers, without comparing any values (`Cell.lastSet`, `Cell.lastSettled`).

A copy of a cell has the history of the original, and goes its own way from then on. Both tell the
same listener.

A cell is clean right after a commit, a rollback or a load, unless its value is no number: such a
value differs from itself, and the cell stays dirty whatever is done with it.
-/

namespace RowMapper

namespace Cell

variable {type : NativeType}

/-! ## Operations -/

/-- What is done with a cell. -/
inductive Operation (type : NativeType) where
  | set (a : type.Carrier)
  | setValue (v : Value)
  | load (a : type.Carrier)
  | loadValue (v : Value)
  | commit
  | rollback
  | subscribe (property : String)

/-- What an operation answers. -/
inductive Answer where
  | done
  | refused (cause : ConversionError)
  /-- Whether the cell was dirty. -/
  | dirty (was : Bool)
  deriving DecidableEq

/-- The cell after an operation, the answer, and the property that was notified. -/
structure Performed (type : NativeType) where
  cell : Cell type
  answer : Answer
  notified : Option String := none

def perform (cell : Cell type) : Operation type → Performed type
  | .set a => { cell := cell.set a, answer := .done }
  | .setValue v =>
    match cell.setValue v with
    | .ok changed => { cell := changed, answer := .done }
    | .error cause => { cell, answer := .refused cause }
  | .load a => { cell := cell.load a, answer := .done }
  | .loadValue v =>
    match cell.loadValue v with
    | .ok loaded => { cell := loaded, answer := .done }
    | .error cause => { cell, answer := .refused cause }
  | .commit =>
    { cell := cell.commit.cell, answer := .dirty cell.commit.changed
      notified := cell.commit.notified }
  | .rollback => { cell := cell.rollback.1, answer := .dirty cell.rollback.2 }
  | .subscribe property => { cell := cell.subscribe property, answer := .done }

namespace Operation

/-- The value that the operation gives to the cell. -/
def given? : Operation type → Option type.Carrier
  | .set a | .load a => some a
  | .setValue v | .loadValue v => (type.ofValue v).toOption
  | .commit | .rollback | .subscribe _ => none

/-- The value that comes from the database. -/
def loaded? : Operation type → Option type.Carrier
  | .load a => some a
  | .loadValue v => (type.ofValue v).toOption
  | .set _ | .setValue _ | .commit | .rollback | .subscribe _ => none

def subscribed? : Operation type → Option String
  | .subscribe property => some property
  | _ => none

def isCommit : Operation type → Bool
  | .commit => true
  | _ => false

def isRollback : Operation type → Bool
  | .rollback => true
  | _ => false

/-- The operation makes the current and the committed value one: a commit, a rollback or a load
that is not refused. -/
def Settles (operation : Operation type) : Prop :=
  operation.isCommit ∨ operation.isRollback ∨ operation.loaded?.isSome

end Operation

/-! ## Histories -/

/-- An operation with its answer and the property that was notified. -/
structure Event (type : NativeType) where
  operation : Operation type
  answer : Answer
  notified : Option String

namespace Event

/-- A commit told that the cell was dirty. -/
def promotes (event : Event type) : Bool :=
  event.operation.isCommit && event.answer == .dirty true

/-- A rollback told that the cell was dirty. -/
def reverts (event : Event type) : Bool :=
  event.operation.isRollback && event.answer == .dirty true

end Event

mutual

/-- The value that was set last, or that a rollback went back to since. The latest event of a
history is the first one, and `a` is what the cell was made with. -/
def lastSet (a : type.Carrier) : List (Event type) → type.Carrier
  | [] => a
  | event :: older =>
    match event.operation.given? with
    | some b => b
    | none => if event.reverts then lastSettled a older else lastSet a older

/-- The value that was loaded last, or that a commit promoted since. -/
def lastSettled (a : type.Carrier) : List (Event type) → type.Carrier
  | [] => a
  | event :: older =>
    match event.operation.loaded? with
    | some b => b
    | none => if event.promotes then lastSet a older else lastSettled a older

end

/-- The property that was subscribed last. -/
def subscription? (events : List (Event type)) : Option String :=
  events.findSome? (·.operation.subscribed?)

/-- A cell with what happened to it so far, the latest event first. -/
structure History (type : NativeType) where
  cell : Cell type
  events : List (Event type) := []

namespace History

def act (h : History type) (operation : Operation type) : History type :=
  let performed := h.cell.perform operation
  ⟨performed.cell, ⟨operation, performed.answer, performed.notified⟩ :: h.events⟩

/-- The cell is what its history says. -/
structure Sound (a : type.Carrier) (h : History type) : Prop where
  current : h.cell.current = lastSet a h.events
  committed : h.cell.committed = lastSettled a h.events
  property : h.cell.property = subscription? h.events
  told : ∀ newer event older, h.events = newer ++ event :: older →
    event.notified = if event.promotes then subscription? older else none

end History

/-! ## Single operations -/

/-- A cell is clean if its two values stand for the same. -/
theorem isChanged_eq_false (cell : Cell type) :
    cell.isChanged = false
      ↔ ∃ m, type.meaning? cell.current = some m ∧ type.meaning? cell.committed = some m := by
  rw [isChanged, Bool.not_eq_false', type.equal_iff]

/-- A commit of a changed cell takes over the current value and notifies its subscriber. -/
theorem commit_of_changed {cell : Cell type} (h : cell.isChanged) :
    cell.commit = ⟨{ cell with committed := cell.current }, true, cell.property⟩ := if_pos h

/-- A commit of a clean cell does nothing. -/
theorem commit_of_clean {cell : Cell type} (h : cell.isChanged = false) :
    cell.commit = ⟨cell, false, none⟩ := if_neg (by simp [h])

/-- A rollback of a changed cell takes the committed value back. -/
theorem rollback_of_changed {cell : Cell type} (h : cell.isChanged) :
    cell.rollback = ({ cell with current := cell.committed }, true) := if_pos h

/-- A rollback of a clean cell does nothing. -/
theorem rollback_of_clean {cell : Cell type} (h : cell.isChanged = false) :
    cell.rollback = (cell, false) := if_neg (by simp [h])

/-- A value of another type leaves the cell as it is; one of its type is set. -/
theorem perform_setValue (cell : Cell type) (v : Value) :
    (∀ b, type.ofValue v = .ok b → cell.perform (.setValue v) = cell.perform (.set b))
      ∧ ∀ cause, type.ofValue v = .error cause →
        cell.perform (.setValue v) = { cell, answer := .refused cause } := by
  constructor
  · intro b hb
    simp only [perform, setValue, hb, Except.map]
  · intro cause hcause
    simp only [perform, setValue, hcause, Except.map]

/-- A value of another type leaves the cell as it is; one of its type is loaded. -/
theorem perform_loadValue (cell : Cell type) (v : Value) :
    (∀ b, type.ofValue v = .ok b → cell.perform (.loadValue v) = cell.perform (.load b))
      ∧ ∀ cause, type.ofValue v = .error cause →
        cell.perform (.loadValue v) = { cell, answer := .refused cause } := by
  constructor
  · intro b hb
    simp only [perform, loadValue, hb, Except.map]
  · intro cause hcause
    simp only [perform, loadValue, hcause, Except.map]

/-- What an operation makes of a cell, and what it notifies. A commit and a rollback do something if
they answer that the cell was dirty. -/
theorem perform_eq (cell : Cell type) (operation : Operation type) :
    let performed := cell.perform operation
    let wasDirty := performed.answer == .dirty true
    performed.cell.current = operation.given?.getD
        (if operation.isRollback && wasDirty then cell.committed else cell.current)
      ∧ performed.cell.committed = operation.loaded?.getD
        (if operation.isCommit && wasDirty then cell.current else cell.committed)
      ∧ performed.cell.property = operation.subscribed?.or cell.property
      ∧ performed.notified = if operation.isCommit && wasDirty then cell.property else none := by
  -- a value that is not of the type changes nothing, and neither does settling a clean cell
  cases operation with
  | set b => exact ⟨rfl, rfl, rfl, rfl⟩
  | load b => exact ⟨rfl, rfl, rfl, rfl⟩
  | subscribe property => exact ⟨rfl, rfl, rfl, rfl⟩
  | setValue v =>
    cases hv : type.ofValue v with
    | ok b =>
      rw [(cell.perform_setValue v).1 b hv, Operation.given?, hv]
      exact ⟨rfl, rfl, rfl, rfl⟩
    | error cause =>
      rw [(cell.perform_setValue v).2 cause hv, Operation.given?, hv]
      exact ⟨rfl, rfl, rfl, rfl⟩
  | loadValue v =>
    cases hv : type.ofValue v with
    | ok b =>
      rw [(cell.perform_loadValue v).1 b hv, Operation.given?, Operation.loaded?, hv]
      exact ⟨rfl, rfl, rfl, rfl⟩
    | error cause =>
      rw [(cell.perform_loadValue v).2 cause hv, Operation.given?, Operation.loaded?, hv]
      exact ⟨rfl, rfl, rfl, rfl⟩
  | commit =>
    cases hchanged : cell.isChanged with
    | true =>
      simp only [perform, commit_of_changed hchanged]
      exact ⟨rfl, rfl, rfl, rfl⟩
    | false =>
      simp only [perform, commit_of_clean hchanged]
      exact ⟨rfl, rfl, rfl, rfl⟩
  | rollback =>
    cases hchanged : cell.isChanged with
    | true =>
      simp only [perform, rollback_of_changed hchanged]
      exact ⟨rfl, rfl, rfl, rfl⟩
    | false =>
      simp only [perform, rollback_of_clean hchanged]
      exact ⟨rfl, rfl, rfl, rfl⟩

/-- What a settled cell has in both places stands for the same, if it stands for anything. -/
theorem isChanged_of_settles (cell : Cell type) {operation : Operation type}
    (h : operation.Settles) :
    (cell.perform operation).cell.isChanged
      = type.isNan (cell.perform operation).cell.committed := by
  have hself (b : type.Carrier) : (!type.equal b b) = type.isNan b := by
    rw [type.equal_self, Bool.not_not]
  have hclean (hsame : cell.isChanged = false) : cell.isChanged = type.isNan cell.committed := by
    rw [hsame, (NativeType.isNan_of_equal (by simpa [isChanged] using hsame)).2]
  -- a NaN is not equal to itself, so a cell that holds one never comes clean
  cases operation with
  | commit =>
    cases hchanged : cell.isChanged with
    | true =>
      simp only [perform, commit_of_changed hchanged]
      exact hself cell.current
    | false =>
      simp only [perform, commit_of_clean hchanged]
      exact hclean hchanged
  | rollback =>
    cases hchanged : cell.isChanged with
    | true =>
      simp only [perform, rollback_of_changed hchanged]
      exact hself cell.committed
    | false =>
      simp only [perform, rollback_of_clean hchanged]
      exact hclean hchanged
  | load b => exact hself b
  | loadValue v =>
    cases hv : type.ofValue v with
    | ok b =>
      rw [(cell.perform_loadValue v).1 b hv]
      exact hself b
    | error cause =>
      -- a load that fails settles nothing
      have hloaded : (Operation.loadValue v : Operation type).loaded? = none :=
        congrArg Except.toOption hv
      simp [Operation.Settles, Operation.isCommit, Operation.isRollback, hloaded] at h
  | _ => simp [Operation.Settles, Operation.isCommit, Operation.isRollback, Operation.loaded?] at h

/-! ## Runs -/

section

variable {a b : type.Carrier} {event : Event type} {older : List (Event type)}

/-- The current value is the one given last, or the one that a rollback took back. -/
theorem lastSet_cons : lastSet a (event :: older) = event.operation.given?.getD
    (if event.reverts then lastSettled a older else lastSet a older) := by
  rw [lastSet]
  cases event.operation.given? <;> rfl

/-- The committed value is the one loaded last, or the one that a commit took over. -/
theorem lastSettled_cons : lastSettled a (event :: older) = event.operation.loaded?.getD
    (if event.promotes then lastSet a older else lastSettled a older) := by
  rw [lastSettled]
  cases event.operation.loaded? <;> rfl

/-- Who subscribed last is notified. -/
theorem subscription?_cons :
    subscription? (event :: older) = event.operation.subscribed?.or (subscription? older) := by
  rw [subscription?, List.findSome?_cons]
  cases event.operation.subscribed? <;> rfl

end

namespace History

variable {a : type.Carrier} {h : History type}

/-- What is done next is told by the history before it. -/
theorem Sound.act (sound : h.Sound a) (operation : Operation type) : (h.act operation).Sound a := by
  obtain ⟨hcurrent, hcommitted, hproperty, hnotified⟩ := h.cell.perform_eq operation
  constructor
  · show (h.cell.perform operation).cell.current = lastSet a (_ :: h.events)
    rw [hcurrent, lastSet_cons, sound.current, sound.committed]
    rfl
  · show (h.cell.perform operation).cell.committed = lastSettled a (_ :: h.events)
    rw [hcommitted, lastSettled_cons, sound.current, sound.committed]
    rfl
  · show (h.cell.perform operation).cell.property = subscription? (_ :: h.events)
    rw [hproperty, subscription?_cons, sound.property]
  · intro newer event older hsplit
    cases newer with
    | nil =>
      obtain ⟨rfl, rfl⟩ := List.cons.inj hsplit
      rw [← sound.property]
      exact hnotified
    | cons _ newer => exact sound.told newer event older (List.cons.inj hsplit).2

end History

/-! ## Copies -/

/-- Something is done with one of several cells, or one of them is copied. -/
inductive Call (type : NativeType) where
  | act (number : Nat) (operation : Operation type)
  | clone (number : Nat)

/-- A cell and its copies, each with a history, and the properties notified by all of them. -/
structure Copies (type : NativeType) where
  histories : List (History type)
  notified : List String := []

namespace Copies

/-- A new cell. -/
def start (a : type.Carrier) : Copies type := { histories := [{ cell := .new a }] }

/-- A copy comes behind the others. A number that no cell has stands for none. -/
def after (copies : Copies type) : Call type → Copies type
  | .act number operation =>
    match copies.histories[number]? with
    | some h =>
      { histories := copies.histories.set number (h.act operation)
        notified := copies.notified ++ (h.cell.perform operation).notified.toList }
    | none => copies
  | .clone number =>
    match copies.histories[number]? with
    | some h => { copies with histories := copies.histories ++ [h] }
    | none => copies

def afterAll (copies : Copies type) (calls : List (Call type)) : Copies type :=
  calls.foldl after copies

variable {a : type.Carrier} {copies : Copies type} {h : History type} {number : Nat}

theorem after_act (found : copies.histories[number]? = some h) (operation : Operation type) :
    copies.after (.act number operation)
      = { histories := copies.histories.set number (h.act operation)
          notified := copies.notified ++ (h.cell.perform operation).notified.toList } := by
  simp only [after, found]

/-- A copy starts with the history of the cell that was cloned, and goes on by itself. -/
theorem after_clone (found : copies.histories[number]? = some h) :
    copies.after (.clone number) = { copies with histories := copies.histories ++ [h] } := by
  simp only [after, found]

/-- A call acts on one cell only, so that the others stay what they were. -/
theorem sound_after (sound : ∀ h ∈ copies.histories, h.Sound a) (call : Call type) :
    ∀ h ∈ (copies.after call).histories, h.Sound a := by
  intro h' hmem
  cases call with
  | act number operation =>
    cases hfound : copies.histories[number]? with
    | none =>
      simp only [after, hfound] at hmem
      exact sound h' hmem
    | some h =>
      rw [after_act hfound] at hmem
      rcases List.mem_or_eq_of_mem_set hmem with hmem | rfl
      · exact sound h' hmem
      · -- the cell acted on has a history with one operation more
        exact (sound h (List.mem_of_getElem? hfound)).act operation
  | clone number =>
    cases hfound : copies.histories[number]? with
    | none =>
      simp only [after, hfound] at hmem
      exact sound h' hmem
    | some h =>
      rw [after_clone hfound] at hmem
      rcases List.mem_append.1 hmem with hmem | hmem
      · exact sound h' hmem
      · -- the copy has the history of its original
        exact List.mem_singleton.1 hmem ▸ sound h (List.mem_of_getElem? hfound)

/-- Every cell is what its history says, whatever was done with it and with its copies. -/
theorem sound_afterAll (sound : ∀ h ∈ copies.histories, h.Sound a) (calls : List (Call type)) :
    ∀ h ∈ (copies.afterAll calls).histories, h.Sound a := by
  induction calls generalizing copies with
  | nil => exact sound
  | cons call rest ih => exact ih (sound_after sound call)

theorem sound_start (a : type.Carrier) : ∀ h ∈ (start a).histories, h.Sound a := by
  intro h hmem
  rw [List.mem_singleton.1 hmem]
  refine ⟨rfl, rfl, rfl, fun newer event older hsplit => ?_⟩
  exact absurd hsplit.symm (by simp)

end Copies

/-! ## The two states -/

/-- A commit tells whether the cell was changed. -/
theorem answer_commit (cell : Cell type) :
    (cell.perform .commit).answer = .dirty cell.isChanged := by
  cases h : cell.isChanged with
  | true => simp only [perform, commit_of_changed h]
  | false => simp only [perform, commit_of_clean h]

/-- A rollback tells whether the cell was changed. -/
theorem answer_rollback (cell : Cell type) :
    (cell.perform .rollback).answer = .dirty cell.isChanged := by
  cases h : cell.isChanged with
  | true => simp only [perform, rollback_of_changed h]
  | false => simp only [perform, rollback_of_clean h]

/-- A cell of any type, with all that was ever done with it and with its copies. It is clean exactly
if its two values stand for the same. A commit tells whether it was dirty and promotes the value set
last, a rollback tells the same and goes back to the value committed or loaded last; both leave a
clean cell alone. Each leaves the cell clean, as a load does, unless its value is no number; then
the cell stays dirty. A value that does not convert changes nothing. Each commit of a dirty cell
notifies the property subscribed last, nothing else notifies any, and copies are apart from the
original. -/
theorem two_states (type : NativeType) (a : type.Carrier) (calls : List (Call type)) :
    let copies := (Copies.start a).afterAll calls
    (∀ h ∈ copies.histories,
      let cell := h.cell
      let committed := cell.perform .commit
      let rolledBack := cell.perform .rollback
      (cell.current = lastSet a h.events ∧ cell.committed = lastSettled a h.events)
      ∧ (cell.isChanged = false
          ↔ ∃ m, type.meaning? cell.current = some m ∧ type.meaning? cell.committed = some m)
      ∧ (committed.answer = .dirty cell.isChanged
        ∧ (cell.isChanged → committed.cell.committed = lastSet a h.events)
        ∧ (cell.isChanged = false → committed.cell = cell))
      ∧ (rolledBack.answer = .dirty cell.isChanged
        ∧ (cell.isChanged → rolledBack.cell.current = lastSettled a h.events)
        ∧ (cell.isChanged = false → rolledBack.cell = cell))
      ∧ (∀ operation : Operation type, operation.Settles →
        let settled := (cell.perform operation).cell
        settled.isChanged = type.isNan settled.committed
          ∧ (settled.perform .commit).answer = .dirty (type.isNan settled.committed)
          ∧ (settled.perform .rollback).answer = .dirty (type.isNan settled.committed))
      ∧ (∀ v cause, type.ofValue v = .error cause →
        cell.perform (.setValue v) = { cell, answer := .refused cause }
          ∧ cell.perform (.loadValue v) = { cell, answer := .refused cause })
      ∧ ∀ newer event older, h.events = newer ++ event :: older →
        event.notified = if event.promotes then subscription? older else none)
    ∧ ∀ number h, copies.histories[number]? = some h →
      (∀ operation,
        let acted := copies.after (.act number operation)
        acted.histories[number]? = some (h.act operation)
          ∧ (∀ other, number ≠ other → acted.histories[other]? = copies.histories[other]?)
          ∧ acted.notified = copies.notified ++ (h.cell.perform operation).notified.toList)
      ∧ (copies.after (.clone number)).histories = copies.histories ++ [h]
      ∧ (copies.after (.clone number)).notified = copies.notified := by
  intro copies
  have sound : ∀ h ∈ copies.histories, h.Sound a :=
    Copies.sound_afterAll (Copies.sound_start a) calls
  refine ⟨fun h hmem => ?_, fun number h found => ⟨fun operation => ?_, ?_⟩⟩
  · intro cell committed rolledBack
    obtain ⟨hcurrent, hcommitted, -, htold⟩ := sound h hmem
    refine ⟨⟨hcurrent, hcommitted⟩, cell.isChanged_eq_false,
      ⟨cell.answer_commit, fun hchanged => ?_, fun hclean => ?_⟩,
      ⟨cell.answer_rollback, fun hchanged => ?_, fun hclean => ?_⟩,
      fun operation hsettles => ?_, fun v cause hcause => ?_, htold⟩
    · show cell.commit.cell.committed = _
      rw [commit_of_changed hchanged]
      exact hcurrent
    · show cell.commit.cell = _
      rw [commit_of_clean hclean]
    · show cell.rollback.1.current = _
      rw [rollback_of_changed hchanged]
      exact hcommitted
    · show cell.rollback.1 = _
      rw [rollback_of_clean hclean]
    · intro settled
      have hsettled : settled.isChanged = type.isNan settled.committed :=
        cell.isChanged_of_settles hsettles
      rw [settled.answer_commit, settled.answer_rollback, hsettled]
      exact ⟨rfl, rfl, rfl⟩
    · exact ⟨(cell.perform_setValue v).2 cause hcause, (cell.perform_loadValue v).2 cause hcause⟩
  · intro acted
    have hacted := Copies.after_act found operation
    have hlt := (List.getElem?_eq_some_iff.1 found).1
    refine ⟨?_, fun other hother => ?_, congrArg Copies.notified hacted⟩
    · show (copies.after _).histories[number]? = _
      rw [hacted]
      exact List.getElem?_set_self hlt
    · show (copies.after _).histories[other]? = _
      rw [hacted]
      exact List.getElem?_set_ne hother
  · rw [Copies.after_clone found]
    exact ⟨rfl, rfl⟩

/-- A title is changed, its cell is copied, and the original is committed twice: it notifies once,
and is clean from then on. The copy is still dirty and goes back to the draft. A number is no
title. -/
theorem two_states_draft :
    let title : NativeType := .required .varchar
    let number : Value := .of (.int64 1)
    let copies := (Copies.start "draft" : Copies title).afterAll
      [.act 0 (.subscribe "title"), .act 0 (.set "final"), .clone 0, .act 0 .commit, .act 0 .commit]
    ∃ original copy, copies.histories = [original, copy] ∧ copies.notified = ["title"]
      ∧ original.cell.committed = "final" ∧ (original.cell.perform .commit).answer = .dirty false
      ∧ copy.cell.isChanged = true ∧ (copy.cell.perform .rollback).cell.current = "draft"
      ∧ (original.cell.perform (.setValue number)).answer
        = .refused (.mismatch number .varchar) := by
  intro title number copies
  obtain ⟨hcells, -⟩ := two_states title "draft"
    [.act 0 (.subscribe "title"), .act 0 (.set "final"), .clone 0, .act 0 .commit, .act 0 .commit]
  refine ⟨_, _, rfl, rfl, rfl, ?_, rfl, ?_, ?_⟩
  · obtain ⟨-, -, hcommit, -⟩ := hcells _ List.mem_cons_self
    exact hcommit.1
  · obtain ⟨-, -, -, hrollback, -⟩ := hcells _ (List.mem_cons_of_mem _ List.mem_cons_self)
    exact hrollback.2.1 rfl
  · obtain ⟨-, -, -, -, -, hrefused, -⟩ := hcells _ List.mem_cons_self
    exact congrArg Performed.answer (hrefused number _ rfl).1

/-- What is no number is dirty as soon as it is loaded, and every commit of it tells so, and
notifies. -/
theorem loaded_nan_is_dirty :
    let nan : Binary64 := ⟨0x7ff8000000000000⟩
    let watched := (Cell.new ⟨0⟩ : Cell (.required .float64)).subscribe "salary"
    let loaded := watched.perform (.load nan)
    let committed := loaded.cell.perform .commit
    loaded.cell.isChanged = true
      ∧ committed.answer = .dirty true ∧ committed.notified = some "salary"
      ∧ committed.cell.isChanged = true
      ∧ (committed.cell.perform .commit).answer = .dirty true
      ∧ (committed.cell.perform .commit).notified = some "salary" := by
  decide

end Cell

end RowMapper
