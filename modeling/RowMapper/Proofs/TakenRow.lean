import RowMapper.Collection.Basic
import RowMapper.Proofs.StoredRow

/-!
# Rows that instances take over

A row that was read back is loaded column by column. Whether a labelled value is taken depends on
the members of the instance and their types only, neither of which a commit or a load changes, so
that the first value which is refused is known beforehand: what stands before it is loaded, and
nothing behind it is.

* `Instance.refusal?` says of one labelled value whether it is refused, and why.
* `Instance.loadEntries_eq` is the result of loading a row, in closed form.
* `Collection.failed_round_trip` is what a task that failed leaves of its instance: all of it as it
  was, unless a row was read back one of whose values is refused.
-/

namespace RowMapper

namespace Instance

/-! ## Members and their types -/

/-- The native type of a member. -/
def typeOf? (i : Instance) (name : String) : Option NativeType := (i.member? name).map (·.type)

/-- The member that replaces the first one of its name is found from then on, the others stay. -/
theorem member?_replace (i : Instance) (m : TrackedMember) (name : String) :
    (i.replace m).member? name
      = if m.name = name then (i.member? name).map fun _ => m else i.member? name := by
  show (replace.go m i.members).find? (·.name == name) = _
  unfold member?
  induction i.members with
  | nil => simp [replace.go]
  | cons head rest ih =>
    rw [replace.go]
    by_cases hhead : head.name = m.name
    · by_cases hname : m.name = name
      · simp [hhead, hname]
      · simp [hhead, hname]
    · by_cases hname : m.name = name
      · have hother : head.name ≠ name := fun h => hhead (h.trans hname.symm)
        simp [hhead, hother, ih]
      · have hother : name ≠ m.name := fun h => hname h.symm
        by_cases hfound : head.name = name
        · simp [hname, hfound, hother]
        · simp [hhead, hname, hfound, ih]

/-- A member of the same name and type in place of the first one leaves all types alone. -/
theorem typeOf?_replace {i : Instance} {m : TrackedMember}
    (h : i.typeOf? m.name = some m.type) (name : String) :
    (i.replace m).typeOf? name = i.typeOf? name := by
  unfold typeOf? at h ⊢
  rw [member?_replace]
  split
  · rename_i hname
    subst hname
    rw [Option.map_map, h]
    obtain ⟨x, hx, -⟩ := Option.map_eq_some_iff.1 h
    rw [hx]
    rfl
  · rfl

/-- The member that is found has the name. -/
theorem name_of_member? {i : Instance} {m : TrackedMember} {name : String}
    (h : i.member? name = some m) : m.name = name := by
  simpa using List.find?_some h

theorem typeOf?_of_member? {i : Instance} {m : TrackedMember} {name : String}
    (h : i.member? name = some m) : i.typeOf? name = some m.type := by
  rw [typeOf?, h]
  rfl

/-- A commit changes no type. -/
theorem typeOf?_commit (i : Instance) (name other : String) :
    (i.commit name).1.typeOf? other = i.typeOf? other := by
  unfold commit step
  cases hm : i.member? name with
  | none => rfl
  | some m =>
    refine typeOf?_replace ?_ other
    show i.typeOf? m.name = some m.type
    rw [name_of_member? hm, typeOf?_of_member? hm]

theorem typeOf?_commitAll (i : Instance) (d : Declaration) (name : String) :
    (i.commitAll d).1.typeOf? name = i.typeOf? name := by
  unfold commitAll
  induction d.trackedNames generalizing i with
  | nil => rfl
  | cons head rest ih =>
    show (stepAll _ rest (i.commit head).1).1.typeOf? name = _
    rw [ih, typeOf?_commit]

/-! ## Labelled values -/

/-- Why a labelled value of a row is refused, if it is: its member is not tracked, or the value
does not convert to the type of the member. A label that is no column of the mapping is passed
over. -/
def refusal? (i : Instance) (m : TypeMapping) (entry : String × Value) : Option Error :=
  (m.byColumn? entry.1).bind fun c =>
    match i.typeOf? c.name with
    | none => some (.collection (.untracked c.name m.entity))
    | some type =>
      match type.ofValue entry.2 with
      | .ok _ => none
      | .error cause => some (.conversion cause)

/-- The instance after a labelled value that is not refused. -/
def taken (i : Instance) (m : TypeMapping) (entry : String × Value) : Instance :=
  match (m.byColumn? entry.1).map fun c => i.loadValue c.name entry.2 with
  | some (.ok (some loaded)) => loaded
  | _ => i

/-- Whether a value is refused is a matter of the types. -/
theorem refusal?_congr {i j : Instance} (h : ∀ name, i.typeOf? name = j.typeOf? name)
    (m : TypeMapping) : i.refusal? m = j.refusal? m := by
  funext entry
  simp only [refusal?, h]

theorem refusal?_commitAll (i : Instance) (d : Declaration) (m : TypeMapping) :
    (i.commitAll d).1.refusal? m = i.refusal? m :=
  refusal?_congr (i.typeOf?_commitAll d) m

/-- Loading a value changes no type. -/
theorem typeOf?_loadValue {i loaded : Instance} {name : String} {v : Value}
    (h : i.loadValue name v = .ok (some loaded)) (other : String) :
    loaded.typeOf? other = i.typeOf? other := by
  unfold loadValue at h
  cases hm : i.member? name with
  | none =>
    rw [hm] at h
    cases h
  | some m =>
    rw [hm] at h
    obtain ⟨m', hm', hloaded⟩ := Except.map_eq_ok.1 h
    obtain ⟨cell, -, rfl⟩ := Except.map_eq_ok.1 hm'
    obtain rfl := Option.some.inj hloaded
    refine typeOf?_replace ?_ other
    show i.typeOf? m.name = some m.type
    rw [name_of_member? hm, typeOf?_of_member? hm]

theorem refusal?_taken (i : Instance) (m : TypeMapping) (entry : String × Value) :
    (i.taken m entry).refusal? m = i.refusal? m := by
  refine refusal?_congr (fun name => ?_) m
  unfold taken
  split
  · rename_i loaded hloaded
    obtain ⟨c, -, hload⟩ := Option.map_eq_some_iff.1 hloaded
    exact typeOf?_loadValue hload name
  · rfl

/-! ## Rows -/

/-- The first value of a row is loaded, or the loading ends there. -/
theorem loadEntries_cons (i : Instance) (m : TypeMapping) (entry : String × Value)
    (rest : List (String × Value)) :
    match i.refusal? m entry with
    | some e => (loadEntries m i (entry :: rest)).outcome = .error e
        ∧ (loadEntries m i (entry :: rest)).target = i
    | none => (loadEntries m i (entry :: rest)).outcome
          = (loadEntries m (i.taken m entry) rest).outcome
        ∧ (loadEntries m i (entry :: rest)).target
          = (loadEntries m (i.taken m entry) rest).target := by
  obtain ⟨label, v⟩ := entry
  unfold refusal? taken
  rw [loadEntries]
  cases hc : m.byColumn? label with
  | none => exact ⟨rfl, rfl⟩
  | some c =>
    simp only [Option.bind_some, Option.map_some, typeOf?, loadValue]
    cases hm : i.member? c.name with
    | none => exact ⟨rfl, rfl⟩
    | some member =>
      simp only [Option.map_some, TrackedMember.loadValue, Cell.loadValue]
      cases member.type.ofValue v with
      | error cause => exact ⟨rfl, rfl⟩
      | ok x => exact ⟨rfl, rfl⟩

/-- A row is loaded up to the first value that is refused, and fails if there is one. -/
theorem loadEntries_eq (i : Instance) (m : TypeMapping) (entries : List (String × Value)) :
    (loadEntries m i entries).outcome
        = (match entries.findSome? (i.refusal? m) with
          | none => .ok ()
          | some e => .error e)
      ∧ (loadEntries m i entries).target
        = (entries.takeWhile fun entry => (i.refusal? m entry).isNone).foldl (·.taken m ·) i := by
  induction entries generalizing i with
  | nil => exact ⟨rfl, rfl⟩
  | cons entry rest ih =>
    have hcons := loadEntries_cons i m entry rest
    cases hrefusal : i.refusal? m entry with
    | some e =>
      rw [hrefusal] at hcons
      rw [hcons.1, hcons.2]
      simp [hrefusal]
    | none =>
      rw [hrefusal] at hcons
      have hrest := ih (i.taken m entry)
      rw [refusal?_taken] at hrest
      rw [hcons.1, hcons.2, hrest.1, hrest.2]
      simp [hrefusal]

end Instance

/-! ## Tasks that fail -/

/-- A row was read back and refused: the values before the first one that is refused are loaded
into the instance, the others are not. -/
structure Collection.Refused (fetched : Collection.Fetched) (start target : Instance) (e : Error) :
    Prop where
  first : fetched.row.entries.findSome? (start.refusal? fetched.mapping) = some e
  loaded : target = (fetched.row.entries.takeWhile fun entry =>
    (start.refusal? fetched.mapping entry).isNone).foldl (·.taken fetched.mapping ·) start

theorem Work.outcome_map {α β : Type} (f : α → β) (t : Work α) (s : Session) :
    ((f <$> t) s).outcome = (t s).outcome.map f := by
  show (Work.andThen t (fun a => pure (f a)) s).outcome = _
  unfold Work.andThen
  rcases t s with ⟨_ | a, session, log⟩ <;> rfl

namespace Collection

variable {c : Collection} {i : Instance} {s : Session} {e : Error}

/-- A task that fails to take over a row failed to fetch one, or the row is refused. -/
theorem taking_eq_error {fetch : Work (Option Fetched)} {commit : Bool}
    (h : (taking fetch commit i s).outcome = .error e) :
    ((fetch s).outcome = .error e ∧ (taking fetch commit i s).target = i
        ∧ (taking fetch commit i s).notified = [])
      ∨ ∃ fetched, (fetch s).outcome = .ok (some fetched)
        ∧ Refused fetched
          (if commit then (i.commitAll (s.model.schema.declaration i.entity)).1 else i)
          (taking fetch commit i s).target e
        ∧ (taking fetch commit i s).notified
          = if commit then i.notices (s.model.schema.declaration i.entity) else [] := by
  unfold taking at h ⊢
  cases hfetch : fetch s with
  | mk outcome session log =>
    rw [hfetch] at h
    rcases outcome with cause | _ | fetched
    · cases h
      exact .inl ⟨rfl, rfl, rfl⟩
    · cases h
    · right
      refine ⟨fetched, rfl, ?_, rfl⟩
      -- what was committed stays, also when an entry of the row is refused
      obtain ⟨houtcome, htarget⟩ := Instance.loadEntries_eq
        (if commit then (i.commitAll (s.model.schema.declaration i.entity)).1 else i)
        fetched.mapping fetched.row.entries
      refine ⟨?_, htarget⟩
      simp only [Instance.load, houtcome] at h
      split at h
      · cases h
      · rename_i cause hfirst
        cases h
        exact hfirst

/-- Telling a failure changes nothing else. -/
theorem reported_eq {α : Type} (w : Written α) :
    w.reported.outcome = w.outcome ∧ w.reported.target = w.target
      ∧ w.reported.notified = w.notified := by
  unfold Written.reported
  split <;> exact ⟨rfl, rfl, rfl⟩

/-- What a failure leaves of an instance, whatever the instance, the session and the answers of
its servers are. Before a row was read back, it is as it was, and nothing was notified. A row that
was read back and refused leaves the values loaded before the refused one; an insertion and an
update have committed all members by then, and notified those which were changed, a reload has
not. -/
theorem failed_round_trip (c : Collection) (i : Instance) (s : Session) (e : Error) :
    let declaration := s.model.schema.declaration i.entity
    let committed := (i.commitAll declaration).1
    ((c.insert i s).outcome = .error e →
        ((c.insertRow i s).outcome = .error e ∧ (c.insert i s).target = i
          ∧ (c.insert i s).notified = [])
        ∨ ∃ fetched, (c.insertRow i s).outcome = .ok fetched
          ∧ Refused fetched committed (c.insert i s).target e
          ∧ (c.insert i s).notified = i.notices declaration)
      ∧ ((c.update i s).outcome = .error e →
        ((c.updateRow i s).outcome = .error e ∧ (c.update i s).target = i
          ∧ (c.update i s).notified = [])
        ∨ ∃ fetched, (c.updateRow i s).outcome = .ok (some fetched)
          ∧ Refused fetched committed (c.update i s).target e
          ∧ (c.update i s).notified = i.notices declaration)
      ∧ ((c.reload i s).outcome = .error e → (c.reload i s).notified = []
        ∧ (((c.readRow i s).outcome = .error e ∧ (c.reload i s).target = i)
          ∨ ∃ fetched, (c.readRow i s).outcome = .ok (some fetched)
            ∧ Refused fetched i (c.reload i s).target e)) := by
  intro declaration committed
  refine ⟨fun h => ?_, fun h => ?_, fun h => ?_⟩
  · obtain ⟨houtcome, htarget, hnotified⟩ :=
      reported_eq (taking (some <$> c.insertRow i) true i s)
    have h : (taking (some <$> c.insertRow i) true i s).outcome = .error e := by
      rw [← houtcome]
      exact Except.map_eq_error.1 h
    have hinsert : (c.insert i s).target = (taking (some <$> c.insertRow i) true i s).target
        ∧ (c.insert i s).notified = (taking (some <$> c.insertRow i) true i s).notified :=
      ⟨htarget, hnotified⟩
    rw [hinsert.1, hinsert.2]
    -- an insert takes the row it stored; it fails before that or when the row is refused
    have hfetched := taking_eq_error h
    rw [Work.outcome_map] at hfetched
    rcases hfetched with ⟨hfetch, hkept⟩ | ⟨fetched, hfetch, hrefused⟩
    · exact .inl ⟨Except.map_eq_error.1 hfetch, hkept⟩
    · obtain ⟨row, hrow, hsame⟩ := Except.map_eq_ok.1 hfetch
      obtain rfl := Option.some.inj hsame
      exact .inr ⟨row, hrow, hrefused⟩
  · obtain ⟨houtcome, htarget, hnotified⟩ := reported_eq (taking (c.updateRow i) true i s)
    have h : (taking (c.updateRow i) true i s).outcome = .error e := houtcome.symm.trans h
    rw [update, htarget, hnotified]
    exact taking_eq_error h
  · obtain ⟨houtcome, htarget, hnotified⟩ := reported_eq (taking (c.readRow i) false i s)
    have h : (taking (c.readRow i) false i s).outcome = .error e := houtcome.symm.trans h
    rw [reload, htarget, hnotified]
    rcases taking_eq_error h with ⟨hfetch, hkept, hnone⟩ | ⟨fetched, hfetch, hrefused, hnone⟩
    · exact ⟨hnone, .inl ⟨hfetch, hkept⟩⟩
    · exact ⟨hnone, .inr ⟨fetched, hfetch, hrefused⟩⟩

end Collection

namespace Company

/-- A session on a server that has answers for the statements to come. -/
def answering (answers : List Results) : Session :=
  let network : Network := { servers := [{ name := "srv", answers }] }
  { session model with pool := { manager := { config := {} }, network } }

/-- A new department with a name that is watched and not committed yet. -/
def founded : Instance :=
  let blank := model.newInstance department
  let i := ((blank.setValues [("name", .of (.varchar "Sales"))]).toOption).getD blank
  match i.member? "name" with
  | some m => i.replace (m.withCell (m.cell.subscribe "name"))
  | none => i

/-- The committed and the current value of each member. -/
def cells (i : Instance) : List (String × Value × Value) :=
  i.members.map fun m => (m.name, m.cell.committedValue, m.cell.value)

/-- The row of a department, whose key is no number. -/
def unnumbered : Row := ⟨["name", "id"], [.of (.varchar "Trade"), .of (.varchar "x")]⟩

end Company

theorem failed_round_trip_lost :
    let s := Company.answering []
    let inserted := (Company.rows Company.department).insert Company.founded s
    inserted.outcome = .error (.collection (.notInserted "departments"))
      ∧ inserted.target = Company.founded ∧ inserted.notified = [] := by
  intro s inserted
  have houtcome : inserted.outcome = .error (.collection (.notInserted "departments")) := rfl
  have hfetch : ((Company.rows Company.department).insertRow Company.founded
      s).outcome.toOption.isNone = true := by
    decide +kernel
  refine ⟨houtcome, ?_⟩
  obtain ⟨hinsert, -, -⟩ :=
    Collection.failed_round_trip (Company.rows Company.department) Company.founded s _
  rcases hinsert houtcome with ⟨-, hkept⟩ | ⟨fetched, hrow, -⟩
  · exact hkept
  · rw [hrow] at hfetch
    cases hfetch

/-- A row that is refused commits the instance and is loaded in part; so is one that is read
again. -/
theorem refused_row_is_taken_in_part :
    let s := Company.answering [[.row Company.unnumbered]]
    let text (t : String) := Value.of (.varchar t)
    let number (n : Int64) := Value.of (.int64 n)
    let inserted := (Company.rows Company.department).insert Company.founded s
    let reloaded := (Company.rows Company.department).reload Company.renumbered s
    (Company.cells Company.founded = [("id", number 0, number 0), ("name", text "", text "Sales")]
        ∧ inserted.outcome.toOption = none
        ∧ Company.cells inserted.target
          = [("id", number 0, number 0), ("name", text "Trade", text "Trade")]
        ∧ inserted.notified = ["name"])
      ∧ Company.cells Company.renumbered = [("id", number 3, number 4), ("name", text "", text "")]
      ∧ reloaded.outcome.toOption = none
      ∧ Company.cells reloaded.target
        = [("id", number 3, number 4), ("name", text "Trade", text "Trade")] := by
  decide +kernel

end RowMapper
