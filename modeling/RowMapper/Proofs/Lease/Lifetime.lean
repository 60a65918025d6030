import RowMapper.Proofs.Lease.Elapsing
import RowMapper.Proofs.Lease.Safekeeping
import RowMapper.Sample.Databases

/-!
# Lifetime of a connection

Inside a runtime, where no wait passes a closing (`Custody.Timed`), the entry of a key is there as
long as the key is warm: it has references, or they dropped to zero less than the grace period ago.
Its connection is open if a connect succeeded since the entry was made.

Any number of acquires of a key may overlap. One that enters shares the connection if it is open,
and waits otherwise. One that waits attempts to connect when it gets its turn and nobody has
connected before it; all that wait share the connection that is opened. A key that never goes cold
keeps its connection, and all who hold the key have it.

At the very moment at which a closing is due the entry may be there or not.
-/

namespace RowMapper

namespace LeaseManager

variable {m m' : LeaseManager} {key k : LeaseKey} {e : LeaseEntry} {dropped dropped' : Option Nat}
  {connected connected' : Bool}

/-- A key is told from its past: when its references last dropped to zero, and whether a connect
succeeded since its entry was made. An entry without references waits for its closing if there is
a runtime; without an entry, the grace period of the last drop is over. -/
structure Tells (m : LeaseManager) (key : LeaseKey) (dropped : Option Nat) (connected : Bool) :
    Prop where
  idle : ∀ e, m.find? key = some e → e.references = 0 → ∃ time, dropped = some time
    ∧ e.releasedAt = some time ∧ (m.hasRuntime → ⟨key, time + m.config.grace⟩ ∈ m.closings)
  busy : ∀ e, m.find? key = some e → 0 < e.references → e.releasedAt = none
  connected : ∀ e, m.find? key = some e → e.connection.isSome = connected
  past : m.find? key = none → ∀ time, dropped = some time → time + m.config.grace ≤ m.now

/-- A key whose entry is there. -/
theorem Tells.of_present (hfind : m.find? key = some e)
    (hidle : e.references = 0 → ∃ time, dropped = some time ∧ e.releasedAt = some time
      ∧ (m.hasRuntime → ⟨key, time + m.config.grace⟩ ∈ m.closings))
    (hbusy : 0 < e.references → e.releasedAt = none) (hconnected : e.connection.isSome = connected) :
    m.Tells key dropped connected where
  idle e' he' := by
    rw [hfind] at he'
    rw [← Option.some.inj he']
    exact hidle
  busy e' he' := by
    rw [hfind] at he'
    rw [← Option.some.inj he']
    exact hbusy
  connected e' he' := by
    rw [hfind] at he'
    rw [← Option.some.inj he']
    exact hconnected
  past hnone := by
    rw [hfind] at hnone
    cases hnone

/-- A key without an entry. -/
theorem Tells.of_absent (hfind : m.find? key = none)
    (hpast : ∀ time, dropped = some time → time + m.config.grace ≤ m.now) :
    m.Tells key dropped connected where
  idle e he := by
    rw [hfind] at he
    cases he
  busy e he := by
    rw [hfind] at he
    cases he
  connected e he := by
    rw [hfind] at he
    cases he
  past _ := hpast

/-- A step that leaves the entry of a key and its closing alone, while time may go on. -/
theorem Tells.untouched (h : m.Tells key dropped connected) (hfind : m'.find? key = m.find? key)
    (hclosings : ∀ d ∈ m.closings, d.key = key → d ∈ m'.closings)
    (hconfig : m'.config = m.config) (hruntime : m'.hasRuntime = m.hasRuntime)
    (hnow : m.now ≤ m'.now) : m'.Tells key (m.lastDrop m' key dropped) connected := by
  rw [lastDrop_of_find? hfind]
  constructor
  · intro e he hzero
    rw [hfind] at he
    obtain ⟨time, hdropped, hreleased, hclosing⟩ := h.idle e he hzero
    rw [hconfig, hruntime]
    exact ⟨time, hdropped, hreleased, fun h => hclosings _ (hclosing h) rfl⟩
  · rw [hfind]
    exact h.busy
  · rw [hfind]
    exact h.connected
  · intro hnone time htime
    rw [hfind] at hnone
    rw [hconfig]
    exact Nat.le_trans (h.past hnone time htime) hnow

/-! ## What each step does to its key -/

/-- An acquire adds a reference. An entry that it makes has no connection. -/
theorem Tells.enter (h : m.Tells key dropped connected) (url : ConnectionString)
    (dropped' : Option Nat) : (m.startSweeping.enter key url).2.1.Tells key dropped'
      (if (m.find? key).isNone then false else connected) := by
  have hfind := m.startSweeping.find?_enter key url key
  rw [if_pos rfl] at hfind
  have hbefore := m.find?_startSweeping key
  cases he : m.find? key with
  | none =>
    rw [he] at hbefore
    rw [enter_of_none hbefore] at hfind
    exact .of_present hfind (fun hzero => (by cases hzero)) (fun _ => rfl) rfl
  | some e =>
    rw [he] at hbefore
    rw [enter_of_some hbefore] at hfind
    exact .of_present hfind (fun hzero => (by cases hzero)) (fun _ => rfl) (h.connected e he)

/-- The entry of a key gets a connection. -/
theorem Tells.opened (h : m.Tells key dropped connected) (he : m.find? key = some e)
    (d : Connection) : (m.put { e with connection := some d }).Tells key
      (m.lastDrop (m.put { e with connection := some d }) key dropped) true := by
  have halike := alike_put m { e with connection := some d }
  have hfind : (m.put { e with connection := some d }).find? key
      = some { e with connection := some d } := by
    rw [find?_put, if_pos (key_of_find? he).symm]
  -- it counts what it did before
  rw [lastDrop_of_references ((references_of_find? hfind).trans (references_of_find? he).symm)]
  refine .of_present hfind (fun hzero => ?_) (h.busy e he) rfl
  rw [halike.config, halike.hasRuntime, closings_put]
  exact h.idle e he hzero

/-- The last reference is given back: from now on the entry waits for its closing. -/
theorem Tells.schedule (h : m.Tells key dropped connected) (he : m.find? key = some e)
    (hpos : 0 < e.references) :
    (m.schedule e).1.Tells key (m.lastDrop (m.schedule e).1 key dropped) connected := by
  have hek := key_of_find? he
  have halike := alike_schedule m e
  have hfind : (m.schedule e).1.find? key
      = some { e with references := 0, releasedAt := some m.now } := by
    rw [find?_schedule, if_pos hek.symm]
  rw [lastDrop_schedule he hpos]
  refine .of_present hfind (fun _ => ⟨m.now, rfl, rfl, fun hruntime => ?_⟩)
    (fun hbusy => absurd hbusy (Nat.lt_irrefl 0)) (h.connected e he)
  rw [halike.hasRuntime] at hruntime
  rw [halike.config, mem_closings_schedule]
  exact Or.inr ⟨hruntime, hek.symm, rfl⟩

/-- A reference is given back. One of the generation of the entry is among those that it counts. -/
theorem Tells.leave (h : m.Tells key dropped connected) {generation : Nat}
    (hcounted : ∀ e, m.find? key = some e → e.generation = generation → 0 < e.references) :
    (m.leave key generation).1.Tells key (m.lastDrop (m.leave key generation).1 key dropped)
      connected := by
  by_cases hstale : ∀ e, m.find? key = some e → e.generation ≠ generation
  · rw [leave_of_stale hstale, lastDrop_of_find? rfl]
    exact h
  obtain ⟨e, he, rfl⟩ : ∃ e, m.find? key = some e ∧ e.generation = generation := by
    simpa using hstale
  have hpos := hcounted e he rfl
  by_cases hlast : e.references ≤ 1
  · rw [leave_of_last he hlast]
    exact h.schedule he hpos
  · have hshared : 1 < e.references := by omega
    rw [leave_of_shared he hshared]
    have hfind : (m.put { e with references := e.references - 1 }).find? key
        = some { e with references := e.references - 1 } := by
      rw [find?_put, if_pos (key_of_find? he).symm]
    refine .of_present hfind (fun hzero => ?_) (fun _ => h.busy e he hpos) (h.connected e he)
    -- one reference is left at least
    have hzero' : e.references - 1 = 0 := hzero
    omega

/-- A sweep takes the references of a key, or leaves it alone. -/
theorem Tells.sweep (h : m.Tells key dropped connected) (ho : m.Ordered) :
    m.sweep.2.1.Tells key (m.lastDrop m.sweep.2.1 key dropped) connected := by
  have halike := alike_sweep m
  rcases m.orphaned_or_kept key with ⟨e, he, horphan, hpos⟩ | hkept
  · have hfind := find?_sweep_of_orphan ho he horphan hpos
    rw [lastDrop_of_drops (drops_sweep_of_orphan ho he horphan hpos) halike]
    refine .of_present hfind (fun _ => ⟨m.now, rfl, rfl, fun hruntime => ?_⟩)
      (fun hbusy => absurd hbusy (Nat.lt_irrefl 0)) (h.connected e he)
    rw [halike.hasRuntime] at hruntime
    rw [halike.config]
    exact (mem_closings_sweep_of_orphan ho he horphan hpos).2 (Or.inr ⟨hruntime, rfl⟩)
  · refine h.untouched (find?_sweep_of_kept ho hkept) (fun d hd hdk => ?_) halike.config
      halike.hasRuntime (Nat.le_of_eq halike.now.symm)
    subst hdk
    exact (mem_closings_sweep_of_kept ho hkept).2 hd

end LeaseManager

namespace Custody

variable {origin : Network} {c c' c'' : Custody} {key k : LeaseKey} {x : Holder} {pool : Pool}
  {m : LeaseManager}

/-! ## Runs in time -/

/-- No wait passes a closing, and closings run in the background all the time or never. -/
def Punctual (c : Custody) : Event → Prop
  | .wait time => ∀ d ∈ c.pool.manager.closings, time ≤ d.due
  | .runtime present => present = c.pool.manager.hasRuntime
  | .enter .. | .connect _ | .leave _ | .sweep | .exit _ | .close _ | .keep _ | .letGo _
  | .outside _ => True

/-- What a manager comes to in time that started empty on a network. -/
inductive Timed (origin : Network) : Custody → Prop where
  | fresh (config : LeaseConfig) (hasRuntime : Bool) :
      Timed origin (fresh config hasRuntime origin)
  | step {c : Custody} (before : Timed origin c) {event : Event} (allowed : c.Allows event)
      (punctual : c.Punctual event) : Timed origin (c.after event)

/-- What comes to be in time comes to be. -/
theorem Timed.reached (h : Timed origin c) : Reached origin c := by
  induction h with
  | fresh config hasRuntime => exact .fresh config hasRuntime
  | step _ allowed _ ih => exact ih.step allowed

/-- Events lead from one custody to another, and something holds all the way. -/
inductive Runs (P : Custody → Prop) (c : Custody) : Custody → Prop where
  | here (holds : P c) : Runs P c c
  | step {c' : Custody} (before : Runs P c c') {event : Event} (allowed : c'.Allows event)
      (holds : P (c'.after event)) : Runs P c (c'.after event)

variable {P : Custody → Prop}

theorem Reached.runs (h : Reached origin c) (r : Runs P c c') : Reached origin c' := by
  induction r with
  | here => exact h
  | step _ allowed _ ih => exact ih.step allowed

theorem Runs.holds (r : Runs P c c') : P c' := by
  cases r with
  | here holds => exact holds
  | step _ _ holds => exact holds

/-! ## Keys are told from their past -/

/-- No closing is late, and every key is told from its past. -/
structure Clocked (c : Custody) : Prop where
  timely : c.pool.manager.Timely
  tells : ∀ key, c.pool.manager.Tells key (c.dropped key) (c.connected key)

/-- A step that concerns one key. -/
theorem Clocked.tells_step (h : c.Clocked) (concerns : c.pool.manager.Concerns m k)
    {connected : LeaseKey → Bool}
    (hk : m.Tells k (c.pool.manager.lastDrop m k (c.dropped k)) (connected k))
    (hother : ∀ key, key ≠ k → connected key = c.connected key) (key : LeaseKey) :
    m.Tells key (c.pool.manager.lastDrop m key (c.dropped key)) (connected key) := by
  by_cases hkey : key = k
  · rw [hkey]
    exact hk
  · rw [hother key hkey]
    exact (h.tells key).untouched (concerns.entry key hkey)
      (fun d hd hdk => (concerns.closings d (hdk ▸ hkey)).2 hd) concerns.alike.config
      concerns.alike.hasRuntime (Nat.le_of_eq concerns.alike.now.symm)

/-- A step that leaves all entries and closings alone, while time may go on. -/
theorem Clocked.tells_same (h : c.Clocked) (hfind : ∀ key, m.find? key = c.pool.manager.find? key)
    (hclosings : m.closings = c.pool.manager.closings) (hconfig : m.config = c.pool.manager.config)
    (hruntime : m.hasRuntime = c.pool.manager.hasRuntime) (hnow : c.pool.manager.now ≤ m.now)
    (key : LeaseKey) :
    m.Tells key (c.pool.manager.lastDrop m key (c.dropped key)) (c.connected key) :=
  (h.tells key).untouched (hfind key) (fun _ hd _ => hclosings ▸ hd) hconfig hruntime hnow

/-- An acquire that starts cancels the closing of its key. -/
theorem Clocked.enter (h : c.Clocked) (thread : ThreadId) (url : ConnectionString) :
    (c.after (.enter thread url)).Clocked := by
  obtain ⟨e, he⟩ : ∃ e, (c.pool.manager.startSweeping.enter
    (c.pool.manager.keyOf thread url) url).1 = e := ⟨_, rfl⟩
  obtain ⟨x, hx⟩ : ∃ x : Holder, x = ⟨(c.pool.enter thread url).1, false⟩ := ⟨_, rfl⟩
  obtain ⟨hkey, -⟩ := c.pool.enter_spec thread url he hx
  have hmanager := c.pool.enter_manager thread url
  have hafter : c.after (.enter thread url) = c.enlist x (c.pool.enter thread url).2 := by
    rw [hx]
    rfl
  rw [hafter]
  generalize c.pool.manager.keyOf thread url = k at *
  generalize (c.pool.enter thread url).2 = pool at *
  have concerns := c.pool.manager.concerns_enter k url
  have hk := fun dropped => (h.tells k).enter url dropped
  have htimely := h.timely.enter k url
  rw [← hmanager] at concerns hk htimely
  refine ⟨htimely, h.tells_step concerns ?_ fun key hne => ?_⟩
  · -- an entry that is made starts without a connection
    have hmade : (c.enlist x pool).connected k
        = if (c.pool.manager.find? k).isNone then false else c.connected k := by
      unfold enlist
      dsimp only
      rw [hkey]
      split
      · rw [Function.update_self]
      · rfl
    rw [hmade]
    exact hk _
  · unfold enlist
    dsimp only
    rw [hkey]
    split
    · rw [Function.update_of_ne hne]
    · rfl

/-- A reference of its generation is counted by the entry. -/
theorem Sound.counted (h : c.Sound origin) (hx : x ∈ c.holders) {e : LeaseEntry}
    (he : c.pool.manager.find? x.key = some e) (hgeneration : e.generation = x.generation) :
    0 < e.references := by
  have hb := (h.tended x.key).present e he
  have hheld := mem_holdersOf.2 ⟨hx, rfl⟩
  refine hb.references_pos hheld ?_
  -- a reference that a sweep took is of an older generation
  by_contra hswept
  have holder := hb.older x hheld (by simpa using hswept)
  omega

theorem Clocked.left (h : c.Clocked) (hs : c.Sound origin) (hx : x ∈ c.holders)
    (hmanager : pool.manager = (c.pool.manager.leave x.key x.generation).1) :
    Clocked { c.proceed pool with holders := c.holders.erase x } := by
  have concerns := c.pool.manager.concerns_leave x.key x.generation
  have hk := (h.tells x.key).leave fun _ he hgeneration => hs.counted hx he hgeneration
  have htimely := h.timely.leave x.key x.generation
  rw [← hmanager] at concerns hk htimely
  exact ⟨htimely, h.tells_step concerns hk fun _ _ => rfl⟩

/-- A connection is opened, and the entry keeps it if it is still there. -/
theorem Clocked.received (h : c.Clocked) {o : Opening} {lease : Lease}
    (hconclude : c.pool.conclude o = (.ok lease, pool)) :
    (c.receive o.key lease.connection pool).Clocked := by
  obtain ⟨-, -, hmanager⟩ := Pool.conclude_of_ok hconclude
  have hconnected : ∀ key, key ≠ o.key →
      Function.update c.connected o.key true key = c.connected key :=
    fun _ hne => Function.update_of_ne hne _ _
  cases he : c.pool.manager.find? o.key with
  | none =>
    rw [he] at hmanager
    have hmanager' : pool.manager = c.pool.manager := hmanager
    have concerns : c.pool.manager.Concerns pool.manager o.key := by
      rw [hmanager']
      exact ⟨.refl _, fun _ _ => rfl, fun _ _ => .rfl⟩
    refine ⟨hmanager' ▸ h.timely, h.tells_step concerns ?_ hconnected⟩
    rw [hmanager', LeaseManager.lastDrop_of_find? rfl]
    exact .of_absent he ((h.tells o.key).past he)
  | some e =>
    rw [he] at hmanager
    have hmanager' : pool.manager
        = c.pool.manager.put { e with connection := some lease.connection } := hmanager
    have hek : e.key = o.key := LeaseManager.key_of_find? he
    have concerns := c.pool.manager.concerns_put
      (e := { e with connection := some lease.connection }) hek
    have hk := (h.tells o.key).opened he lease.connection
    have htimely := h.timely.put { e with connection := some lease.connection }
    rw [← hmanager'] at concerns hk htimely
    refine ⟨htimely, h.tells_step concerns ?_ hconnected⟩
    have hopened : (c.receive o.key lease.connection pool).connected o.key = true :=
      Function.update_self _ _ _
    rw [hopened]
    exact hk

/-- An acquire that gets its turn opens the connection, or gives its reference back. -/
theorem Clocked.connect (h : c.Clocked) (hs : c.Sound origin) (allowed : c.Allows (.connect x)) :
    (c.after (.connect x)).Clocked := by
  obtain ⟨hx, o, -, hkey, hgeneration, -, hconnect⟩ := connect_cases allowed
  rcases hconnect with ⟨lease, pool, hconclude, hafter⟩ | ⟨cause, pool, hconclude, hafter⟩
  · rw [hafter]
    exact h.received hconclude
  · rw [hafter]
    refine h.left hs hx ?_
    rw [Pool.conclude_of_error hconclude, hkey, hgeneration]

/-- A closing takes out an entry whose grace period is over. -/
theorem Clocked.close (h : c.Clocked) (hs : c.Sound origin) (allowed : c.Allows (.close key)) :
    (c.after (.close key)).Clocked := by
  obtain ⟨e, time, he, hidle, hdropped, hgrace⟩ := hs.due allowed
  have hmanager := Pool.close_manager he hidle
  have concerns := c.pool.manager.concerns_close key
  have htimely := h.timely.close key
  have hgone : ((c.pool.manager.cancel key).remove key).find? key = none := by
    rw [LeaseManager.find?_remove, if_pos rfl]
  rw [← hmanager] at concerns htimely hgone
  refine ⟨htimely, h.tells_step concerns (.of_absent hgone fun t ht => ?_) fun _ _ => rfl⟩
  -- the entry had no references, so that they dropped to zero before
  rw [LeaseManager.lastDrop_of_references, hdropped] at ht
  · obtain rfl := Option.some.inj ht
    rw [concerns.alike.config, concerns.alike.now]
    exact hgrace
  · rw [LeaseManager.references_of_none hgone, LeaseManager.references_of_find? he, hidle]

/-- Every event that comes in time keeps the keys told from their past. -/
theorem Clocked.after (h : c.Clocked) (hs : c.Sound origin) {event : Event}
    (allowed : c.Allows event) (punctual : c.Punctual event) : (c.after event).Clocked := by
  cases event with
  | enter thread url => exact h.enter thread url
  | connect x => exact h.connect hs allowed
  | leave x => exact h.left hs allowed (c.pool.drop_spec x).1
  | sweep => exact ⟨h.timely.sweep, fun key => (h.tells key).sweep hs.ordered⟩
  | exit thread =>
    exact ⟨h.timely, h.tells_same (fun _ => rfl) rfl rfl rfl (Nat.le_refl _)⟩
  | runtime present =>
    exact ⟨h.timely, h.tells_same (fun _ => rfl) rfl rfl punctual (Nat.le_refl _)⟩
  | wait time => exact ⟨punctual, h.tells_same (fun _ => rfl) rfl rfl rfl allowed⟩
  | close key => exact h.close hs allowed
  | keep d => exact ⟨h.timely, h.tells_same (fun _ => rfl) rfl rfl rfl (Nat.le_refl _)⟩
  | letGo d => exact ⟨h.timely, h.tells_same (fun _ => rfl) rfl rfl rfl (Nat.le_refl _)⟩
  | outside network => exact ⟨h.timely, h.tells_same (fun _ => rfl) rfl rfl rfl (Nat.le_refl _)⟩

theorem clocked_fresh (config : LeaseConfig) (hasRuntime : Bool) :
    (fresh config hasRuntime origin).Clocked where
  timely _ hd := absurd hd List.not_mem_nil
  tells _ := .of_absent rfl fun _ htime => by cases htime

/-- In time, every key is told from its past. -/
theorem Timed.clocked (h : Timed origin c) : c.Clocked := by
  induction h with
  | fresh config hasRuntime => exact clocked_fresh config hasRuntime
  | step before allowed punctual ih => exact ih.after before.reached.sound allowed punctual

/-! ## Warm keys -/

/-- There are references to the key, or they dropped to zero less than the grace period ago. -/
def IsWarm (c : Custody) (key : LeaseKey) : Prop :=
  0 < c.pool.manager.references key ∨ ∃ time, c.dropped key = some time
    ∧ c.pool.manager.now < time + c.pool.manager.config.grace

/-- It is not the moment at which the entry of the key is due to be closed. -/
def OffDeadline (c : Custody) (key : LeaseKey) : Prop :=
  ∀ time, c.dropped key = some time →
    c.pool.manager.now ≠ time + c.pool.manager.config.grace

/-- Off its deadline, a key has an entry as long as it is warm. -/
theorem Clocked.exists_iff_isWarm (h : c.Clocked) (hruntime : c.pool.manager.hasRuntime)
    (hoff : c.OffDeadline key) : (c.pool.manager.find? key).isSome ↔ c.IsWarm key := by
  cases he : c.pool.manager.find? key with
  | none =>
    refine ⟨fun hsome => (by cases hsome), ?_⟩
    rintro (hpos | ⟨time, hdropped, hbefore⟩)
    · rw [LeaseManager.references_of_none he] at hpos
      omega
    · -- without an entry the grace period of the last drop is over
      have hpast := (h.tells key).past he time hdropped
      omega
  | some e =>
    refine ⟨fun _ => ?_, fun _ => rfl⟩
    by_cases hpos : 0 < e.references
    · refine Or.inl ?_
      rw [LeaseManager.references_of_find? he]
      exact hpos
    · obtain ⟨time, hdropped, -, hclosing⟩ := (h.tells key).idle e he (by omega)
      -- an entry without references waits for its closing, whose time has not come
      have hnow : c.pool.manager.now ≤ time + c.pool.manager.config.grace :=
        h.timely _ (hclosing hruntime)
      have hdeadline := hoff time hdropped
      exact Or.inr ⟨time, hdropped, by omega⟩

/-- A key is open if a connect succeeded since its entry was made. -/
theorem Clocked.isOpen_iff (h : c.Clocked) :
    c.pool.manager.isOpen key ↔ (c.pool.manager.find? key).isSome ∧ c.connected key := by
  unfold LeaseManager.isOpen
  cases he : c.pool.manager.find? key with
  | none => simp
  | some e => simp [← (h.tells key).connected e he]

/-- The time of the release is told as long as the entry counts no references. -/
theorem Clocked.releasedAt_eq (h : c.Clocked) (key : LeaseKey) :
    c.pool.manager.releasedAt key
      = if (c.pool.manager.find? key).isSome ∧ c.pool.manager.references key = 0 then c.dropped key
        else none := by
  unfold LeaseManager.releasedAt
  cases he : c.pool.manager.find? key with
  | none => rfl
  | some e =>
    rw [LeaseManager.references_of_find? he]
    show e.releasedAt = _
    by_cases hidle : e.references = 0
    · obtain ⟨time, hdropped, hreleased, -⟩ := (h.tells key).idle e he hidle
      rw [if_pos ⟨rfl, hidle⟩, hreleased, hdropped]
    · rw [(h.tells key).busy e he (by omega), if_neg fun hboth => hidle hboth.2]

/-- An idle entry was given back at some time. -/
theorem Clocked.isSome_dropped (h : c.Clocked) (hsome : (c.pool.manager.find? key).isSome)
    (hidle : c.pool.manager.references key = 0) : (c.dropped key).isSome := by
  obtain ⟨e, he⟩ := Option.isSome_iff_exists.1 hsome
  rw [LeaseManager.references_of_find? he] at hidle
  obtain ⟨time, hdropped, -⟩ := (h.tells key).idle e he hidle
  exact Option.isSome_iff_exists.2 ⟨time, hdropped⟩

/-! ## Which acquires connect -/

/-- A connection of the key is open: in the cache, or with those who hold references to the key. -/
def HasConnection (c : Custody) (key : LeaseKey) : Prop :=
  c.pool.manager.isOpen key ∨ ∃ x ∈ c.holdersOf key, x.connection?.isSome

/-- Whoever holds references to a key has the connection of its entry. -/
theorem Sound.shared (h : c.Sound origin) (hx : x ∈ c.holdersOf key) {e : LeaseEntry}
    (he : c.pool.manager.find? key = some e) :
    x.connection? = c.pool.manager.connection? key := by
  rw [LeaseManager.connection_of_find? he]
  exact ((h.tended key).present e he).shared x hx

/-- With its entry there, a key has a connection if the one of the entry is open. -/
theorem Sound.hasConnection_iff_isOpen (h : c.Sound origin)
    (hsome : (c.pool.manager.find? key).isSome) :
    c.HasConnection key ↔ c.pool.manager.isOpen key := by
  obtain ⟨e, he⟩ := Option.isSome_iff_exists.1 hsome
  refine ⟨?_, Or.inl⟩
  rintro (hopen | ⟨x, hx, hconnection⟩)
  · exact hopen
  · rwa [LeaseManager.isOpen_eq, ← h.shared hx he]

/-- An acquire of a key attempts to connect, when it gets its turn, if no connection is open. -/
theorem Sound.allows_connect_iff (h : c.Sound origin) (hx : x ∈ c.holdersOf key) :
    c.Allows (.connect x) ↔ ¬c.HasConnection key := by
  have hmem := (mem_holdersOf.1 hx).1
  constructor
  · rintro ⟨-, hwaits⟩ hconnection
    have hnone := Holder.connection_of_isRight hwaits
    rcases hconnection with hopen | ⟨y, hy, hsome⟩
    · rw [LeaseManager.isOpen_eq] at hopen
      obtain ⟨e, he, -⟩ := Option.bind_eq_some_iff.1 (Option.eq_some_of_isSome hopen)
      rw [← h.shared hx he, hnone] at hopen
      cases hopen
    · -- all holders of a key wait, or none of them
      rw [(h.tended key).agree y hy x hx, hnone] at hsome
      cases hsome
  · intro hnone
    refine ⟨hmem, ?_⟩
    by_contra hlease
    refine hnone (Or.inr ⟨x, hx, ?_⟩)
    exact Holder.isSome_connection (by simpa using hlease)

/-- Who enters shares the connection of the key if it is open, and waits otherwise. Nothing is
opened yet. -/
theorem enters (c : Custody) {thread : ThreadId} {url : ConnectionString}
    (hkey : c.pool.manager.keyOf thread url = key) :
    ∃ x, (c.after (.enter thread url)).holders = x :: c.holders ∧ x.key = key
      ∧ x.connection? = c.pool.manager.connection? key
      ∧ (c.after (.enter thread url)).pool.network = c.pool.network := by
  subst hkey
  obtain ⟨x, hx⟩ : ∃ x : Holder, x = ⟨(c.pool.enter thread url).1, false⟩ := ⟨_, rfl⟩
  obtain ⟨hxkey, -, hconnection, -⟩ := c.pool.enter_spec thread url rfl hx
  refine ⟨x, by rw [hx]; rfl, hxkey, ?_, c.pool.enter_network thread url⟩
  rw [hconnection, LeaseManager.connection_enter]

/-- An acquire that gets its turn connects once. If it succeeds, all who hold the key have the
connection, and so has the entry if it is still there; otherwise the acquire is given up. -/
theorem Sound.attempts (h : c.Sound origin) (allowed : c.Allows (.connect x)) (hkey : x.key = key) :
    ∃ o, x.got = .inr o
      ∧ (c.after (.connect x)).pool.network = (c.pool.network.connect o.url).2
      ∧ match (c.pool.network.connect o.url).1 with
        | .ok d => (c.after (.connect x)).holders = c.holders.map (·.receive key d)
          ∧ (∀ y ∈ c.holdersOf key, (y.receive key d).connection? = some d)
          ∧ ((c.pool.manager.find? key).isSome →
            (c.after (.connect x)).pool.manager.connection? key = some d)
        | .error _ => (c.after (.connect x)).holders = c.holders.erase x := by
  obtain ⟨hx, o, ho, hxkey, -, hnone, hconnect⟩ := connect_cases allowed
  obtain rfl : key = o.key := hkey.symm.trans hxkey
  have hnetwork := (c.pool.conclude_network o).1
  refine ⟨o, ho, ?_⟩
  rcases hconnect with ⟨lease, pool, hconclude, hafter⟩ | ⟨cause, pool, hconclude, hafter⟩
  · have hopened := Pool.conclude_connect hconclude
    obtain ⟨-, -, hmanager⟩ := Pool.conclude_of_ok hconclude
    rw [hafter, hopened]
    refine ⟨rfl, rfl, fun y hy => ?_, fun hsome => ?_⟩
    · -- who holds the key waits, as the acquire does that got its turn
      refine Holder.connection_receive (mem_holdersOf.1 hy).2 ?_
      exact ((h.tended o.key).agree y hy x (mem_holdersOf.2 ⟨hx, hxkey⟩)).trans hnone
    · obtain ⟨e, he⟩ := Option.isSome_iff_exists.1 hsome
      rw [he] at hmanager
      have hmanager' : pool.manager
          = c.pool.manager.put { e with connection := some lease.connection } := hmanager
      show pool.manager.connection? o.key = _
      rw [hmanager', LeaseManager.connection_put, if_pos (LeaseManager.key_of_find? he).symm]
  · obtain ⟨cause', hrefused⟩ := Pool.conclude_error hconclude
    rw [hconclude] at hnetwork
    rw [hafter]
    refine ⟨hnetwork, ?_⟩
    rw [hrefused]

/-! ## A warm key keeps its connection -/

/-- An event that finds a key warm leaves it its connection. -/
theorem Sound.connection_after (h : c.Sound origin) {event : Event} (allowed : c.Allows event)
    (hwarm : c.IsWarm key) {d : Connection} (hd : c.pool.manager.connection? key = some d) :
    (c.after event).pool.manager.connection? key = some d := by
  cases event with
  | enter thread url =>
    show (c.pool.enter thread url).2.manager.connection? key = _
    rw [Pool.enter_manager, connection_entered, hd]
  | connect x =>
    obtain ⟨hx, o, -, hxkey, -, hnone, hconnect⟩ := connect_cases allowed
    rcases hconnect with ⟨lease, pool, hconclude, hafter⟩ | ⟨cause, pool, hconclude, hafter⟩
    · obtain ⟨-, -, hmanager⟩ := Pool.conclude_of_ok hconclude
      obtain ⟨concerns, -⟩ := h.put_connection (mem_holdersOf.2 ⟨hx, hxkey⟩) hnone
        lease.connection hmanager
      rw [hafter]
      show pool.manager.connection? key = _
      rw [concerns.connection, hd]
      -- a key with a connection has nobody who waits for one
      rintro rfl
      obtain ⟨e, he, -⟩ := Option.bind_eq_some_iff.1 hd
      have hshared := h.shared (mem_holdersOf.2 ⟨hx, hxkey⟩) he
      rw [hnone, hd] at hshared
      cases hshared
    · rw [hafter]
      show pool.manager.connection? key = _
      rw [Pool.conclude_of_error hconclude, LeaseManager.connection_leave, hd]
  | leave x =>
    show (c.pool.drop x).manager.connection? key = _
    rw [(c.pool.drop_spec x).1, LeaseManager.connection_leave, hd]
  | sweep =>
    show c.pool.manager.sweep.2.1.connection? key = _
    rw [LeaseManager.connection_sweep h.ordered, hd]
  | close k =>
    obtain ⟨e, time, he, hidle, hdropped, hgrace⟩ := h.due allowed
    show (c.pool.close k).1.manager.connection? key = _
    rw [Pool.close_manager he hidle, (c.pool.manager.concerns_close k).connection, hd]
    -- the entry of a warm key is not due
    rintro rfl
    rcases hwarm with hpos | ⟨t, ht, hbefore⟩
    · rw [LeaseManager.references_of_find? he] at hpos
      omega
    · rw [hdropped] at ht
      obtain rfl := Option.some.inj ht
      omega
  | exit thread => exact hd
  | runtime present => exact hd
  | wait time => exact hd
  | keep d => exact hd
  | letGo d => exact hd
  | outside network => exact hd

/-- A key that stays warm keeps its connection, and all who hold the key have it. -/
theorem Reached.connection_of_runs (h : Reached origin c) {d : Connection}
    (hd : c.pool.manager.connection? key = some d) (r : Runs (·.IsWarm key) c c') :
    c'.pool.manager.connection? key = some d
      ∧ ∀ x ∈ c'.holdersOf key, x.connection? = some d := by
  have hkept : c'.pool.manager.connection? key = some d := by
    induction r with
    | here => exact hd
    | step before allowed _ ih => exact (h.runs before).sound.connection_after allowed before.holds ih
  refine ⟨hkept, fun x hx => ?_⟩
  obtain ⟨e, he, -⟩ := Option.bind_eq_some_iff.1 hkept
  rw [(h.runs r).sound.shared hx he, hkept]

/-! ## The closed form -/

/-- The lifetime of the connection of a key in closed form. -/
structure Lifetime (c : Custody) (key : LeaseKey) : Prop where
  /-- Off its deadline, the entry is there as long as the key is warm. -/
  entry : c.OffDeadline key → ((c.pool.manager.find? key).isSome ↔ c.IsWarm key)
  /-- The connection is open if a connect succeeded since the entry was made. -/
  isOpen : c.pool.manager.isOpen key ↔ (c.pool.manager.find? key).isSome ∧ c.connected key
  /-- The release of an entry without references is told, and of no other. -/
  released : (c.pool.manager.releasedAt key).isSome
    ↔ (c.pool.manager.find? key).isSome ∧ c.pool.manager.references key = 0
  releasedAt : ∀ time, c.pool.manager.releasedAt key = some time → c.dropped key = some time
  /-- An acquire that starts attempts nothing. It shares the connection that is open, if any. -/
  enters : ∀ thread url, c.pool.manager.keyOf thread url = key →
    ∃ x, (c.after (.enter thread url)).holders = x :: c.holders ∧ x.key = key
      ∧ x.connection? = c.pool.manager.connection? key
      ∧ (c.after (.enter thread url)).pool.network = c.pool.network
  /-- When an acquire gets its turn, it attempts to connect if no connection is open, and only
  then. -/
  turn : ∀ x ∈ c.holdersOf key, (c.Allows (.connect x) ↔ ¬c.HasConnection key)
  cached : (c.pool.manager.find? key).isSome → (c.HasConnection key ↔ c.pool.manager.isOpen key)
  /-- An attempt is one connect. All who hold the key share the connection that it opens. -/
  attempts : ∀ x, c.Allows (.connect x) → x.key = key → ∃ o, x.got = .inr o
    ∧ (c.after (.connect x)).pool.network = (c.pool.network.connect o.url).2
    ∧ match (c.pool.network.connect o.url).1 with
      | .ok d => (c.after (.connect x)).holders = c.holders.map (·.receive key d)
        ∧ (∀ y ∈ c.holdersOf key, (y.receive key d).connection? = some d)
        ∧ ((c.pool.manager.find? key).isSome →
          (c.after (.connect x)).pool.manager.connection? key = some d)
      | .error _ => (c.after (.connect x)).holders = c.holders.erase x
  /-- However often it is given back and acquired again, a key that stays warm keeps its
  connection. -/
  keeps : ∀ c' d, Runs (·.IsWarm key) c c' → c.pool.manager.connection? key = some d →
    c'.pool.manager.connection? key = some d ∧ ∀ x ∈ c'.holdersOf key, x.connection? = some d

/-- Inside a runtime the connection of every key has the lifetime told. -/
theorem lifetime_of_timed (h : Timed origin c) (hruntime : c.pool.manager.hasRuntime)
    (key : LeaseKey) : c.Lifetime key := by
  have hclocked := h.clocked
  have hsound := h.reached.sound
  have hreleased := hclocked.releasedAt_eq key
  refine
    { entry := hclocked.exists_iff_isWarm hruntime, isOpen := hclocked.isOpen_iff
      released := ?_, releasedAt := fun time htime => ?_
      enters := fun _ _ hkey => c.enters hkey
      turn := fun x hx => hsound.allows_connect_iff hx
      cached := hsound.hasConnection_iff_isOpen
      attempts := fun x allowed hkey => hsound.attempts allowed hkey
      keeps := fun c' d r hd => h.reached.connection_of_runs hd r }
  · rw [hreleased]
    split
    · rename_i hidle
      exact iff_of_true (hclocked.isSome_dropped hidle.1 hidle.2) hidle
    · rename_i hbusy
      exact iff_of_false Bool.false_ne_true hbusy
  · rw [hreleased] at htime
    split at htime
    · exact htime
    · cases htime

/-- Two overlapping acquires share the connection that one of them opens. Given back by both, it is
acquired again within its grace period. -/
theorem lifetime_of_overlapping :
    let key : LeaseKey := ⟨"mock://staff/db", some 1⟩
    let d : Connection := ⟨0, "staff"⟩
    let waiting : Holder := { got := .inr ⟨key, 0, Company.staff⟩ }
    let lease : Holder := { got := .inl ⟨key, 0, d⟩ }
    let first := (fresh { grace := 50, sweep := 60 } true Company.network).after
      (.enter 1 Company.staff)
    let entered := first.after (.enter 1 Company.staff)
    let opened := entered.after (.connect waiting)
    let idle := ((opened.after (.leave lease)).after (.leave lease)).after (.wait 20)
    let again := (idle.after (.enter 1 Company.staff)).after (.enter 1 Company.staff)
    (Timed Company.network entered ∧ entered.pool.manager.hasRuntime
      ∧ entered.holders = [waiting, waiting] ∧ ¬entered.HasConnection key)
    ∧ (Timed Company.network opened ∧ opened.holders = [lease, lease]
      ∧ opened.pool.manager.connection? key = some d ∧ ¬opened.Allows (.connect lease))
    ∧ (Timed Company.network idle ∧ idle.OffDeadline key ∧ idle.dropped key = some 0
      ∧ (idle.pool.manager.find? key).isSome)
    ∧ Runs (·.IsWarm key) opened again
      ∧ again.pool.manager.connection? key = some d
      ∧ ∀ x ∈ again.holdersOf key, x.connection? = some d := by
  intro key d waiting lease first entered opened idle again
  -- each event can happen when its turn comes, and the wait passes no closing
  have hfirst : Timed Company.network first := (Timed.fresh _ _).step (by decide +kernel) trivial
  have hentered : Timed Company.network entered := hfirst.step (by decide +kernel) trivial
  have hconnects : entered.Allows (.connect waiting) := by decide +kernel
  have hopened : Timed Company.network opened := hentered.step hconnects trivial
  have hleaves : opened.Allows (.leave lease)
      ∧ (opened.after (.leave lease)).Allows (.leave lease) := by decide +kernel
  have hwaits : ((opened.after (.leave lease)).after (.leave lease)).Allows (.wait 20)
      ∧ ∀ x ∈ ((opened.after (.leave lease)).after (.leave lease)).pool.manager.closings,
        20 ≤ x.due := by decide +kernel
  have hidle : Timed Company.network idle :=
    ((hopened.step hleaves.1 trivial).step hleaves.2 trivial).step hwaits.1 hwaits.2
  have hagain : idle.Allows (.enter 1 Company.staff)
      ∧ (idle.after (.enter 1 Company.staff)).Allows (.enter 1 Company.staff) := by
    decide +kernel
  have hdropped : idle.dropped key = some 0 := by decide +kernel
  have hoff : idle.OffDeadline key := by
    intro time htime
    rw [hdropped] at htime
    obtain rfl := Option.some.inj htime
    decide +kernel
  have hruntime : entered.pool.manager.hasRuntime ∧ opened.pool.manager.hasRuntime
      ∧ idle.pool.manager.hasRuntime := by decide +kernel
  have hwarm : Runs (·.IsWarm key) opened again := by
    refine .step (.step (.step (.step (.step (.here ?_) hleaves.1 ?_) hleaves.2 ?_) hwaits.1 ?_)
      hagain.1 ?_) hagain.2 ?_
    · exact Or.inl (by decide +kernel)
    · exact Or.inl (by decide +kernel)
    · exact Or.inr ⟨0, by decide +kernel, by decide +kernel⟩
    · exact Or.inr ⟨0, hdropped, by decide +kernel⟩
    · exact Or.inl (by decide +kernel)
    · exact Or.inl (by decide +kernel)
  have hholders : entered.holders = [waiting, waiting] ∧ opened.holders = [lease, lease] := by
    decide +kernel
  have hd : opened.pool.manager.connection? key = some d := by decide +kernel
  have hheld : waiting ∈ entered.holdersOf key ∧ lease ∈ opened.holdersOf key := by decide +kernel
  have hwarm' : idle.IsWarm key := Or.inr ⟨0, hdropped, by decide +kernel⟩
  have hlease : ¬opened.Allows (.connect lease) := by decide +kernel
  clear_value entered opened idle again
  have hclosed := ((lifetime_of_timed hentered hruntime.1 key).turn _ hheld.1).1 hconnects
  obtain ⟨hkept, hshared⟩ := (lifetime_of_timed hopened hruntime.2.1 key).keeps again d hwarm hd
  exact ⟨⟨hentered, hruntime.1, hholders.1, hclosed⟩, ⟨hopened, hholders.2, hd, hlease⟩,
    ⟨hidle, hoff, hdropped, ((lifetime_of_timed hidle hruntime.2.2 key).entry hoff).2 hwarm'⟩,
    hwarm, hkept, hshared⟩

end Custody

end RowMapper
