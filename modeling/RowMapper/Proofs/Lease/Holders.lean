import RowMapper.Proofs.Lease.Halves

/-!
# Holders of references

Whoever acquires a key holds a reference to it: a lease, or an acquire that still waits for the
connection. Any number of acquires of one key may wait; the one that connects gets the connection
for all of them.

The entry of a key counts the holders whose references no sweep took (`LeaseEntry.Backs`). Those
whose references were taken belong to an older generation, so that nothing happens to the entry
when they let go. A step of the manager keeps this up together with the holders of the key
(`LeaseManager.Tended`).
-/

namespace RowMapper

/-- One who was given a reference. -/
structure Holder where
  got : Lease ⊕ Opening
  /-- A sweep took the reference. -/
  swept : Bool := false
  deriving DecidableEq

namespace Holder

def key (x : Holder) : LeaseKey := x.got.elim (·.key) (·.key)

def generation (x : Holder) : Nat := x.got.elim (·.generation) (·.generation)

/-- The connection of a lease; an acquire that waits has none yet. -/
def connection? (x : Holder) : Option Connection := x.got.getLeft?.map (·.connection)

def waitsFor (key : LeaseKey) (x : Holder) : Bool := x.key == key && x.got.isRight

/-- Whoever waits for the connection of the key gets it. -/
def receive (key : LeaseKey) (c : Connection) (x : Holder) : Holder :=
  match x.got with
  | .inl _ => x
  | .inr o => if o.key = key then { x with got := .inl ⟨key, o.generation, c⟩ } else x

def take (x : Holder) : Holder := { x with swept := true }

section

variable {x : Holder} {key : LeaseKey} {c : Connection}

@[simp] theorem key_take (x : Holder) : x.take.key = x.key := rfl

@[simp] theorem generation_take (x : Holder) : x.take.generation = x.generation := rfl

/-- Who loses a reference keeps the connection. -/
@[simp] theorem connection_take (x : Holder) : x.take.connection? = x.connection? := rfl

@[simp] theorem swept_take (x : Holder) : x.take.swept = true := rfl

/-- A holder receives a connection if it waits for one of the key; otherwise it is left alone. -/
theorem receive_cases (key : LeaseKey) (c : Connection) (x : Holder) :
    (x.waitsFor key = false ∧ x.receive key c = x)
      ∨ (x.waitsFor key = true ∧ x.connection? = none ∧ (x.receive key c).key = x.key
        ∧ (x.receive key c).generation = x.generation ∧ (x.receive key c).swept = x.swept
        ∧ (x.receive key c).connection? = some c) := by
  obtain ⟨got, swept⟩ := x
  cases got with
  | inl lease => exact Or.inl ⟨Bool.and_false _, rfl⟩
  | inr o =>
    by_cases hkey : o.key = key
    · subst hkey
      refine Or.inr ⟨?_, rfl, ?_⟩
      · simp [waitsFor, Holder.key]
      · simp [receive, Holder.key, Holder.generation, Holder.connection?]
    · refine Or.inl ⟨?_, ?_⟩
      · simp [waitsFor, Holder.key, hkey]
      · simp [receive, hkey]

@[simp] theorem key_receive (k : LeaseKey) (c : Connection) (x : Holder) :
    (x.receive k c).key = x.key := by
  obtain ⟨-, h⟩ | ⟨-, -, h, -⟩ := receive_cases k c x
  · rw [h]
  · exact h

@[simp] theorem generation_receive (k : LeaseKey) (c : Connection) (x : Holder) :
    (x.receive k c).generation = x.generation := by
  obtain ⟨-, h⟩ | ⟨-, -, -, h, -⟩ := receive_cases k c x
  · rw [h]
  · exact h

@[simp] theorem swept_receive (k : LeaseKey) (c : Connection) (x : Holder) :
    (x.receive k c).swept = x.swept := by
  obtain ⟨-, h⟩ | ⟨-, -, -, -, h, -⟩ := receive_cases k c x
  · rw [h]
  · exact h

/-- An acquire that waits has no connection, and a lease has one. -/
theorem connection_of_isRight (h : x.got.isRight) : x.connection? = none := by
  obtain ⟨got, swept⟩ := x
  cases got with
  | inl lease => cases h
  | inr o => rfl

/-- A lease has a connection. -/
theorem isSome_connection (h : x.got.isLeft) : x.connection?.isSome := by
  obtain ⟨got, swept⟩ := x
  cases got with
  | inl lease => rfl
  | inr o => cases h

/-- The connection of a key is received by nobody who holds another one. -/
theorem receive_of_key_ne (h : x.key ≠ key) : x.receive key c = x := by
  obtain ⟨-, h'⟩ | ⟨h', -⟩ := receive_cases key c x
  · exact h'
  · simp [waitsFor, h] at h'

/-- Those who wait for the connection of a key are those of its holders that have none. -/
theorem connection_receive (hkey : x.key = key) (hnone : x.connection? = none) :
    (x.receive key c).connection? = some c := by
  obtain ⟨h, -⟩ | ⟨-, -, -, -, -, h⟩ := receive_cases key c x
  · obtain ⟨got, swept⟩ := x
    cases got with
    | inl lease => cases hnone
    | inr o => simp [waitsFor, hkey] at h
  · exact h

/-- The connection is in use once for each acquire that waited for it. -/
theorem connections_receive (key : LeaseKey) (c : Connection) (xs : List Holder) :
    ((xs.map (·.receive key c)).filterMap (·.connection?)).Perm
      (List.replicate (xs.countP (·.waitsFor key)) c ++ xs.filterMap (·.connection?)) := by
  induction xs with
  | nil => exact .refl _
  | cons x xs ih =>
    rw [List.map_cons]
    obtain ⟨hwaits, hsame⟩ | ⟨hwaits, hnone, -, -, -, hsome⟩ := receive_cases key c x
    · rw [hsame, List.countP_cons_of_neg (by simp [hwaits])]
      cases hx : x.connection? with
      | none =>
        rw [List.filterMap_cons_none hx, List.filterMap_cons_none hx]
        exact ih
      | some own =>
        rw [List.filterMap_cons_some hx, List.filterMap_cons_some hx]
        exact (ih.cons own).trans List.perm_middle.symm
    · rw [List.filterMap_cons_some hsome, List.filterMap_cons_none hnone,
        List.countP_cons_of_pos hwaits, List.replicate_succ, List.cons_append]
      exact ih.cons c

end

end Holder

/-! ## The entry of a key and its holders -/

/-- The entry counts those holders whose references were not taken. They are of its generation, the
others of older ones. All have the connection of the entry, or wait for it. -/
structure LeaseEntry.Backs (e : LeaseEntry) (held : List Holder) : Prop where
  references : e.references = held.countP fun x => !x.swept
  current : ∀ x ∈ held, x.swept = false → x.generation = e.generation
  older : ∀ x ∈ held, x.swept = true → x.generation < e.generation
  shared : ∀ x ∈ held, x.connection? = e.connection

namespace LeaseEntry.Backs

variable {e e' : LeaseEntry} {held : List Holder} {x : Holder}

/-- With no references left, a sweep took them from all who still hold. -/
theorem swept (h : e.Backs held) (hidle : e.references = 0) : ∀ x ∈ held, x.swept = true := by
  intro x hx
  have hnone := List.countP_eq_zero.1 (h.references.symm.trans hidle) x hx
  simpa using hnone

/-- A holder whose reference was taken lets go. -/
theorem erase_swept (h : e.Backs held) (hx : x ∈ held) (hswept : x.swept = true) :
    e.Backs (held.erase x) where
  references := by
    rw [h.references, (List.perm_cons_erase hx).countP_eq,
      List.countP_cons_of_neg (by simp [hswept])]
  current y hy := h.current y (List.mem_of_mem_erase hy)
  older y hy := h.older y (List.mem_of_mem_erase hy)
  shared y hy := h.shared y (List.mem_of_mem_erase hy)

/-- A holder whose reference was not taken is counted. -/
theorem references_pos (h : e.Backs held) (hx : x ∈ held) (hswept : x.swept = false) :
    0 < e.references := by
  rw [h.references]
  exact List.countP_pos_iff.2 ⟨x, hx, by simp [hswept]⟩

/-- A holder that leaves takes one reference with it. -/
theorem erase (h : e.Backs held) (hx : x ∈ held) (hswept : x.swept = false)
    (hreferences : e'.references = e.references - 1) (hgeneration : e'.generation = e.generation)
    (hconnection : e'.connection = e.connection) : e'.Backs (held.erase x) where
  references := by
    have hcount := h.references
    rw [(List.perm_cons_erase hx).countP_eq, List.countP_cons_of_pos (by simp [hswept])] at hcount
    omega
  current y hy hy' := (h.current y (List.mem_of_mem_erase hy) hy').trans hgeneration.symm
  older y hy hy' := by
    rw [hgeneration]
    exact h.older y (List.mem_of_mem_erase hy) hy'
  shared y hy := (h.shared y (List.mem_of_mem_erase hy)).trans hconnection.symm

/-- All that wait for the connection of the entry get it. -/
theorem receive (h : e.Backs held) {key : LeaseKey} (hkey : ∀ x ∈ held, x.key = key)
    (hnone : e.connection = none) (c : Connection) :
    LeaseEntry.Backs { e with connection := some c } (held.map (·.receive key c)) where
  references := by
    have hsame : (fun x : Holder => !x.swept) ∘ Holder.receive key c = fun x => !x.swept := by
      funext x
      simp
    rw [List.countP_map, hsame]
    exact h.references
  current := by simpa using h.current
  older := by simpa using h.older
  shared := by
    simp only [List.forall_mem_map]
    exact fun x hx => Holder.connection_receive (hkey x hx) ((h.shared x hx).trans hnone)

/-- A sweep takes the references from all holders, and they go on with an entry of a new generation.
-/
theorem take (h : e.Backs held) (time : Nat) : (e.sweptAt time).Backs (held.map (·.take)) where
  references := by
    show 0 = (held.map _).countP _
    rw [List.countP_map, eq_comm, List.countP_eq_zero]
    simp
  current := by simp
  older := by
    simp only [List.forall_mem_map, Holder.generation_take]
    intro x hx _
    show x.generation < e.generation + 1
    cases hswept : x.swept with
    | true => exact Nat.lt_succ_of_lt (h.older x hx hswept)
    | false =>
      rw [h.current x hx hswept]
      exact Nat.lt_succ_self _
  shared := by
    simp only [List.forall_mem_map, Holder.connection_take]
    exact h.shared

end LeaseEntry.Backs

namespace LeaseManager

variable {m m' : LeaseManager} {key k : LeaseKey} {e : LeaseEntry} {held : List Holder}
  {dropped : Option Nat} {x : Holder}

/-- When the references to a key last dropped to zero, once the manager has gone on. -/
def lastDrop (m m' : LeaseManager) (key : LeaseKey) (dropped : Option Nat) : Option Nat :=
  if 0 < m.references key ∧ m'.references key = 0 then some m'.now else dropped

/-- A key that keeps its references has not dropped to zero. -/
theorem lastDrop_of_references (h : m'.references key = m.references key)
    (dropped : Option Nat) : m.lastDrop m' key dropped = dropped := by
  unfold lastDrop
  rw [if_neg]
  rintro ⟨hpos, hzero⟩
  omega

/-- A step that leaves the entry alone drops nothing. -/
theorem lastDrop_of_find? (h : m'.find? key = m.find? key) (dropped : Option Nat) :
    m.lastDrop m' key dropped = dropped :=
  lastDrop_of_references (references_eq_of_find? h) dropped

/-- References that drop to zero do so at the present moment. -/
theorem lastDrop_of_drops (hdrops : 0 < m.references key ∧ m'.references key = 0)
    (halike : Alike m m') (dropped : Option Nat) : m.lastDrop m' key dropped = some m.now := by
  unfold lastDrop
  rw [if_pos hdrops, halike.now]

/-- An entry that is to be closed lost its last reference now. -/
theorem lastDrop_schedule (he : m.find? key = some e) (hpos : 0 < e.references)
    (dropped : Option Nat) : m.lastDrop (m.schedule e).1 key dropped = some m.now := by
  refine lastDrop_of_drops ⟨?_, ?_⟩ (alike_schedule m e) dropped
  · rw [references_of_find? he]
    exact hpos
  · have hfind : (m.schedule e).1.find? key
        = some { e with references := 0, releasedAt := some m.now } := by
      rw [find?_schedule, if_pos (key_of_find? he).symm]
    rw [references_of_find? hfind]

/-- An orphan that is swept loses its references now. -/
theorem drops_sweep_of_orphan (h : m.Ordered) (he : m.find? key = some e) (ho : m.isOrphan e)
    (hpos : 0 < e.references) : 0 < m.references key ∧ m.sweep.2.1.references key = 0 := by
  rw [references_of_find? he, references_of_find? (find?_sweep_of_orphan h he ho hpos)]
  exact ⟨hpos, rfl⟩

/-- A manager agrees with the holders of a key. A closing waits for an entry without references,
for the grace period after they dropped to zero. Either all holders have the same connection or all
of them wait. Only the references of an ended thread are taken. -/
structure Tended (m : LeaseManager) (key : LeaseKey) (held : List Holder)
    (dropped : Option Nat) : Prop where
  closing : ∀ c ∈ m.closings, c.key = key → ∃ e time, m.find? key = some e ∧ e.references = 0
    ∧ dropped = some time ∧ c.due = time + m.config.grace
  present : ∀ e, m.find? key = some e → e.Backs held
  absent : m.find? key = none → ∀ x ∈ held, x.swept = true
  agree : ∀ x ∈ held, ∀ y ∈ held, x.connection? = y.connection?
  ended : ∀ x ∈ held, x.swept = true → ∃ thread, key.thread = some thread ∧ thread ∈ m.ended

/-- No closing waits for an entry with references. -/
theorem Tended.closing_ne (h : m.Tended key held dropped) (he : m.find? key = some e)
    (hpos : 0 < e.references) : ∀ c ∈ m.closings, c.key ≠ key := by
  intro c hc hck
  obtain ⟨e', -, he', hzero, -⟩ := h.closing c hc hck
  rw [he] at he'
  obtain rfl := Option.some.inj he'
  omega

/-- A step that concerns neither the key nor its holders. -/
theorem Tended.untouched (h : m.Tended key held dropped) (hfind : m'.find? key = m.find? key)
    (hclosings : ∀ c ∈ m'.closings, c.key = key → c ∈ m.closings)
    (hconfig : m'.config = m.config) (hended : m.ended ⊆ m'.ended) :
    m'.Tended key held (m.lastDrop m' key dropped) where
  closing c hc hck := by
    rw [hfind, hconfig, lastDrop_of_find? hfind]
    exact h.closing c (hclosings c hc hck) hck
  present e he := h.present e (hfind ▸ he)
  absent hnone := h.absent (hfind ▸ hnone)
  agree := h.agree
  ended x hx hswept :=
    have ⟨thread, hthread, hmem⟩ := h.ended x hx hswept
    ⟨thread, hthread, hended hmem⟩

/-- A manager agrees with the holders of a key whose entry is there. -/
theorem Tended.of_present (hfind : m.find? key = some e) (hbacks : e.Backs held)
    (hclosing : ∀ c ∈ m.closings, c.key = key →
      e.references = 0 ∧ ∃ time, dropped = some time ∧ c.due = time + m.config.grace)
    (hended : ∀ x ∈ held, x.swept = true →
      ∃ thread, key.thread = some thread ∧ thread ∈ m.ended) : m.Tended key held dropped where
  closing c hc hck :=
    have ⟨hidle, time, hdropped, hdue⟩ := hclosing c hc hck
    ⟨e, time, hfind, hidle, hdropped, hdue⟩
  present e' he' := by
    rw [hfind] at he'
    rw [← Option.some.inj he']
    exact hbacks
  absent hnone := by
    rw [hfind] at hnone
    cases hnone
  agree x hx y hy := (hbacks.shared x hx).trans (hbacks.shared y hy).symm
  ended := hended

/-! ## A reference more -/

/-- The references of a key are not taken as long as its thread has not ended. -/
theorem Tended.not_swept (h : m.Tended key held dropped)
    (hruns : ∀ thread, key.thread = some thread → thread ∉ m.ended) :
    ∀ x ∈ held, x.swept = false := by
  intro x hx
  by_contra hswept
  obtain ⟨thread, hthread, hended⟩ := h.ended x hx (by simpa using hswept)
  exact hruns thread hthread hended

/-- An acquire adds a reference, and has the connection of the entry or waits for it. -/
theorem Tended.enter (h : m.Tended key held dropped) (url : ConnectionString)
    (hruns : ∀ thread, key.thread = some thread → thread ∉ m.ended) (hx : x.swept = false)
    (hgeneration : x.generation = (m.enter key url).1.generation)
    (hconnection : x.connection? = (m.enter key url).1.connection) (dropped' : Option Nat) :
    (m.enter key url).2.1.Tended key (x :: held) dropped' := by
  have hnone := h.not_swept hruns
  have hfind := m.find?_enter key url key
  rw [if_pos rfl] at hfind
  have hswept : ∀ y ∈ x :: held, y.swept = false := List.forall_mem_cons.2 ⟨hx, hnone⟩
  refine .of_present hfind ⟨?_, ?_, ?_, ?_⟩ ?_ ?_
  · rw [List.countP_cons_of_pos (by simp [hx])]
    cases hold : m.find? key with
    | none =>
      -- an entry is missing only where nobody holds a reference
      have hempty : held = [] := by
        refine List.eq_nil_iff_forall_not_mem.2 fun y hy => ?_
        cases (h.absent hold y hy).symm.trans (hnone y hy)
      rw [enter_of_none hold, hempty]
      rfl
    | some e =>
      rw [enter_of_some hold]
      exact congrArg (· + 1) (h.present e hold).references
  · refine List.forall_mem_cons.2 ⟨fun _ => hgeneration, fun y hy hytaken => ?_⟩
    cases hold : m.find? key with
    | none => cases (h.absent hold y hy).symm.trans hytaken
    | some e =>
      rw [enter_of_some hold]
      exact (h.present e hold).current y hy hytaken
  · exact fun y hy htaken => by cases (hswept y hy).symm.trans htaken
  · refine List.forall_mem_cons.2 ⟨hconnection, fun y hy => ?_⟩
    cases hold : m.find? key with
    | none => cases (h.absent hold y hy).symm.trans (hnone y hy)
    | some e =>
      rw [enter_of_some hold]
      exact (h.present e hold).shared y hy
  · intro c hc hck
    exact absurd hck (mem_closings_enter.1 hc).2
  · exact fun y hy htaken => by cases (hswept y hy).symm.trans htaken

/-- All that wait for the connection of a key get the one that its entry gets. -/
theorem Tended.opened (h : m.Tended key held dropped) (hkey : ∀ x ∈ held, x.key = key)
    (he : m.find? key = some e) (hnone : e.connection = none) (c : Connection) :
    (m.put { e with connection := some c }).Tended key (held.map (·.receive key c))
      (m.lastDrop (m.put { e with connection := some c }) key dropped) := by
  have hek := key_of_find? he
  have halike := alike_put m { e with connection := some c }
  have hfind : (m.put { e with connection := some c }).find? key
      = some { e with connection := some c } := by
    rw [find?_put, if_pos hek.symm]
  -- an entry that gets a connection counts what it did before
  have hdropped : m.lastDrop (m.put { e with connection := some c }) key dropped = dropped :=
    lastDrop_of_references ((references_of_find? hfind).trans (references_of_find? he).symm) _
  refine .of_present hfind ((h.present e he).receive hkey hnone c) (fun d hd hdk => ?_) ?_
  · rw [closings_put] at hd
    obtain ⟨e', time, he', hzero, htime, hdue⟩ := h.closing d hd hdk
    rw [he] at he'
    obtain rfl := Option.some.inj he'
    rw [hdropped, halike.config]
    exact ⟨hzero, time, htime, hdue⟩
  · rw [halike.ended]
    simpa using h.ended

/-- The entry is gone: the connection belongs to those that waited for it. -/
theorem Tended.received (h : m.Tended key held dropped) (hkey : ∀ x ∈ held, x.key = key)
    (he : m.find? key = none) (hnone : ∀ x ∈ held, x.connection? = none) (c : Connection) :
    m.Tended key (held.map (·.receive key c)) dropped where
  closing := h.closing
  present e he' := by
    rw [he] at he'
    cases he'
  absent _ := by simpa using h.absent he
  agree := by
    simp only [List.forall_mem_map]
    intro x hx y hy
    rw [Holder.connection_receive (hkey x hx) (hnone x hx),
      Holder.connection_receive (hkey y hy) (hnone y hy)]
  ended := by simpa using h.ended

/-! ## A reference less -/

/-- A holder whose reference was taken lets go: nothing happens to the entry. -/
theorem Tended.leave_swept (h : m.Tended key held dropped) (hx : x ∈ held)
    (hswept : x.swept = true) : (m.leave key x.generation).1.Tended key (held.erase x)
      (m.lastDrop (m.leave key x.generation).1 key dropped) := by
  rw [leave_of_stale fun e he => (Nat.ne_of_lt ((h.present e he).older x hx hswept)).symm,
    lastDrop_of_find? rfl]
  exact
    { closing := h.closing, present := fun e he => (h.present e he).erase_swept hx hswept
      absent := fun he y hy => h.absent he y (List.mem_of_mem_erase hy)
      agree := fun y hy z hz => h.agree y (List.mem_of_mem_erase hy) z (List.mem_of_mem_erase hz)
      ended := fun y hy => h.ended y (List.mem_of_mem_erase hy) }

/-- A holder gives its reference back. With the last one gone, the entry is to be closed. -/
theorem Tended.leave_current (h : m.Tended key held dropped) (hx : x ∈ held)
    (hswept : x.swept = false) : (m.leave key x.generation).1.Tended key (held.erase x)
      (m.lastDrop (m.leave key x.generation).1 key dropped) := by
  obtain ⟨e, he⟩ : ∃ e, m.find? key = some e := by
    refine Option.ne_none_iff_exists'.1 fun hnone => ?_
    cases (h.absent hnone x hx).symm.trans hswept
  have hek := key_of_find? he
  have hb := h.present e he
  -- the entry counts the holder, so that no closing waits for it yet
  have hpos := hb.references_pos hx hswept
  have hclosing := h.closing_ne he hpos
  have halike := alike_leave m key x.generation
  have hended : ∀ y ∈ held.erase x, y.swept = true →
      ∃ thread, key.thread = some thread ∧ thread ∈ (m.leave key x.generation).1.ended := by
    rw [halike.ended]
    exact fun y hy => h.ended y (List.mem_of_mem_erase hy)
  rw [hb.current x hx hswept] at halike hended ⊢
  by_cases hlast : e.references ≤ 1
  · rw [leave_of_last he hlast] at halike hended ⊢
    have hfind : (m.schedule e).1.find? key
        = some { e with references := 0, releasedAt := some m.now } := by
      rw [find?_schedule, if_pos hek.symm]
    rw [lastDrop_schedule he hpos]
    refine .of_present hfind (hb.erase hx hswept ?_ rfl rfl) (fun c hc hck => ?_) hended
    · show 0 = e.references - 1
      omega
    · rw [mem_closings_schedule] at hc
      obtain ⟨hc, -⟩ | ⟨-, -, hdue⟩ := hc
      · exact absurd hck (hclosing c hc)
      · rw [halike.config]
        exact ⟨rfl, m.now, rfl, hdue⟩
  · have hshared : 1 < e.references := by omega
    rw [leave_of_shared he hshared] at hended ⊢
    have hfind : (m.put { e with references := e.references - 1 }).find? key
        = some { e with references := e.references - 1 } := by
      rw [find?_put, if_pos hek.symm]
    refine .of_present hfind (hb.erase hx hswept rfl rfl rfl) (fun c hc hck => ?_) hended
    rw [closings_put] at hc
    exact absurd hck (hclosing c hc)

/-- Whoever lets go, the manager agrees with those who are left. -/
theorem Tended.leave (h : m.Tended key held dropped) (hx : x ∈ held) :
    (m.leave key x.generation).1.Tended key (held.erase x)
      (m.lastDrop (m.leave key x.generation).1 key dropped) := by
  cases hswept : x.swept with
  | true => exact h.leave_swept hx hswept
  | false => exact h.leave_current hx hswept

/-! ## References are taken, entries closed -/

/-- A sweep takes the references of all holders of a key or of none. -/
theorem Tended.sweep (h : m.Tended key held dropped) (ho : m.Ordered) :
    m.sweep.2.1.Tended key
      (if 0 < m.references key ∧ m.sweep.2.1.references key = 0 then held.map (·.take) else held)
      (m.lastDrop m.sweep.2.1 key dropped) := by
  have halike := alike_sweep m
  rcases m.orphaned_or_kept key with ⟨e, he, horphan, hpos⟩ | hkept
  · have hek := key_of_find? he
    have hfind := find?_sweep_of_orphan ho he horphan hpos
    have hdrops := drops_sweep_of_orphan ho he horphan hpos
    rw [if_pos hdrops, lastDrop_of_drops hdrops halike]
    -- all closings of the key are new, for there was none as long as there were references
    refine .of_present hfind ((h.present e he).take m.now) ?_ ?_
    · intro c hc hck
      rw [← hck] at he
      obtain ⟨hc, -⟩ | ⟨-, hdue⟩ := (mem_closings_sweep_of_orphan ho he horphan hpos).1 hc
      · exact absurd hck (h.closing_ne (hck ▸ he) hpos c hc)
      · rw [halike.config]
        exact ⟨rfl, m.now, rfl, hdue⟩
    · simp only [List.forall_mem_map]
      intro x _ _
      rw [halike.ended, ← hek]
      unfold isOrphan at horphan
      cases hthread : e.key.thread with
      | none =>
        rw [hthread] at horphan
        cases horphan
      | some thread =>
        rw [hthread] at horphan
        exact ⟨thread, rfl, by simpa using horphan⟩
  · have hfind := find?_sweep_of_kept ho hkept
    rw [if_neg]
    · refine h.untouched hfind (fun c hc hck => ?_) halike.config ?_
      · subst hck
        exact (mem_closings_sweep_of_kept ho hkept).1 hc
      · rw [halike.ended]
        exact List.Subset.refl _
    · rw [references_eq_of_find? hfind]
      rintro ⟨hpos, hzero⟩
      omega

/-- Without its entry a key has holders only whose references were taken. -/
theorem Tended.close (h : m.Tended key held dropped) (he : m.find? key = some e)
    (hidle : e.references = 0) (dropped' : Option Nat) :
    ((m.cancel key).remove key).Tended key held dropped' where
  closing c hc hck := absurd hck (mem_closings_cancel.1 hc).2
  present e he' := by
    rw [find?_remove, if_pos rfl] at he'
    cases he'
  absent _ := (h.present e he).swept hidle
  agree := h.agree
  ended := h.ended

end LeaseManager

end RowMapper
