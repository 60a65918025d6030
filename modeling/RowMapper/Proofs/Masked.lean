import RowMapper.Lease.Tenancy

/-!
# Masked passwords

A connection string is masked if its password is replaced by asterisks, and so is whatever holds
connection strings. Nothing that is done to leases and pools looks at a password: the operation on
the masked state is the masked operation, and tells the same. Two states that differ in passwords
only are the same when they are masked, so that they can not be told apart by what is done to
them.

* `ConnectionString.masked` is what `redacted` shows, so that masked texts are what is told.
* `LeaseManager.masked` and `Pool.masked` mask the entries; each operation has a lemma.
* `Tenancy.masked` does the same for named leases and threads.
-/

namespace RowMapper

/-- Asterisks for the password, if there is one. -/
def Url.masked (u : Url) : Url := { u with password := u.password.map fun _ => "***" }

namespace ConnectionString

/-- Asterisks for the password, if there is one. -/
def masked (c : ConnectionString) : ConnectionString := ⟨c.url.masked⟩

/-- Masking twice is masking once. -/
@[simp] theorem masked_masked (c : ConnectionString) : c.masked.masked = c.masked := by
  simp [masked, Url.masked, Function.comp_def]

/-- What is shown of a connection string is its text without the password. -/
theorem redacted_eq (c : ConnectionString) : c.redacted = c.masked.text := rfl

/-- Asterisks are shown as asterisks. -/
@[simp] theorem redacted_masked (c : ConnectionString) : c.masked.redacted = c.redacted := by
  rw [redacted_eq, masked_masked, redacted_eq]

/-- A key does not tell the password. -/
@[simp] theorem key_masked (c : ConnectionString) : c.masked.key = c.key := rfl

end ConnectionString

/-- A server does not ask for the password. -/
@[simp] theorem Network.connect_masked (n : Network) (url : ConnectionString) :
    n.connect url.masked = n.connect url :=
  rfl

/-! ## Managers -/

/-- The entry with its connection string masked. -/
def LeaseEntry.masked (e : LeaseEntry) : LeaseEntry := { e with url := e.url.masked }

/-- What is told of an entry does not tell the password. -/
@[simp] theorem LeaseEntry.redacted_masked (e : LeaseEntry) :
    e.masked.url.redacted = e.url.redacted :=
  e.url.redacted_masked

/-- Masking an entry leaves it its connection. -/
@[simp] theorem LeaseEntry.connection_masked (e : LeaseEntry) :
    e.masked.connection = e.connection :=
  rfl

namespace LeaseManager

/-- The manager with all connection strings masked. -/
def masked (m : LeaseManager) : LeaseManager :=
  { m with entries := m.entries.map LeaseEntry.masked }

variable (m : LeaseManager) (key : LeaseKey) (url : ConnectionString) (e : LeaseEntry)

@[simp] theorem config_masked : m.masked.config = m.config := rfl

@[simp] theorem closings_masked : m.masked.closings = m.closings := rfl

/-- A thread gets the same key with another password. -/
@[simp] theorem keyOf_masked (thread : ThreadId) :
    m.masked.keyOf thread url.masked = m.keyOf thread url :=
  rfl

/-- Entries are found by their keys, so that masking them first makes no difference. -/
@[simp] theorem find?_masked : m.masked.find? key = (m.find? key).map LeaseEntry.masked := by
  unfold find? masked
  rw [List.find?_map]
  rfl

/-- References are counted without the password. -/
@[simp] theorem references_masked : m.masked.references key = m.references key := by
  unfold references
  rw [find?_masked]
  cases m.find? key <;> rfl

/-- Whether a key is open is known without the password. -/
@[simp] theorem isOpen_masked : m.masked.isOpen key = m.isOpen key := by
  unfold isOpen
  rw [find?_masked]
  cases m.find? key <;> rfl

/-- When a key was released is known without the password. -/
@[simp] theorem releasedAt_masked : m.masked.releasedAt key = m.releasedAt key := by
  unfold releasedAt
  rw [find?_masked]
  cases m.find? key <;> rfl

/-- A masked entry takes the place of a masked entry. -/
@[simp] theorem put_masked : m.masked.put e.masked = (m.put e).masked := by
  have hfind : (m.masked.find? e.masked.key).isSome = (m.find? e.key).isSome := by
    rw [find?_masked, Option.isSome_map]
    rfl
  unfold put
  rw [hfind]
  split
  · simp only [masked, List.map_map, LeaseManager.mk.injEq, true_and, and_true]
    refine List.map_congr_left fun old _ => ?_
    show (if old.key == e.key then e.masked else old.masked)
      = LeaseEntry.masked (if old.key == e.key then e else old)
    exact (apply_ite _ _ _ _).symm
  · simp [masked]

@[simp] theorem remove_masked : m.masked.remove key = (m.remove key).masked := by
  simp only [masked, remove, List.filter_map]
  rfl

@[simp] theorem cancel_masked : m.masked.cancel key = (m.cancel key).masked := rfl

@[simp] theorem isClosing_masked : m.masked.isClosing key = m.isClosing key := rfl

/-- The sweeps start at the same time. -/
@[simp] theorem startSweeping_masked : m.masked.startSweeping = m.startSweeping.masked := by
  unfold startSweeping
  show (if m.config.threadAffine && m.hasRuntime && m.sweepingSince.isNone then _ else _)
    = masked (if m.config.threadAffine && m.hasRuntime && m.sweepingSince.isNone then _ else _)
  split <;> rfl

@[simp] theorem sweepsUntil_masked (time : Nat) : m.masked.sweepsUntil time = m.sweepsUntil time :=
  rfl

/-- The closing is scheduled for the same time, and told in the same words. -/
theorem schedule_masked :
    m.masked.schedule e.masked = ((m.schedule e).1.masked, (m.schedule e).2) := by
  have hput : m.masked.put { e.masked with references := 0, releasedAt := some m.masked.now }
      = (m.put { e with references := 0, releasedAt := some m.now }).masked :=
    m.put_masked { e with references := 0, releasedAt := some m.now }
  unfold schedule
  dsimp only
  rw [hput, e.redacted_masked]
  generalize m.put { e with references := 0, releasedAt := some m.now } = m'
  show (if m'.hasRuntime then _ else _) = _
  split <;> rfl

/-- An acquire compares connection strings with that of an idle entry before it takes its place;
either way the masked one comes out. -/
theorem enter_masked :
    m.masked.enter key url.masked
      = ((m.enter key url).1.masked, (m.enter key url).2.1.masked, (m.enter key url).2.2) := by
  have hentry : ((m.find? key).map LeaseEntry.masked).getD { key, url := url.masked }
      = ((m.find? key).getD { key, url }).masked := by
    cases m.find? key <;> rfl
  unfold enter
  dsimp only
  rw [find?_masked, hentry]
  generalize (m.find? key).getD { key, url } = e
  have htaken : (if e.masked.references = 0 ∧ e.masked.connection.isNone = true then
        { e.masked with url := url.masked } else e.masked)
      = (if e.references = 0 ∧ e.connection.isNone = true then { e with url } else e).masked := by
    show (if e.references = 0 ∧ e.connection.isNone = true then _ else _) = _
    split <;> rfl
  rw [htaken, e.redacted_masked]
  generalize (if e.references = 0 ∧ e.connection.isNone = true then { e with url } else e) = e'
  rw [cancel_masked, isClosing_masked]
  exact congrArg (fun m' => (_, m', _))
    ((m.cancel key).put_masked { e' with references := e'.references + 1, releasedAt := none })

/-- A reference is given back, and the closing told, without a look at the password. -/
theorem leave_masked (generation : Nat) :
    m.masked.leave key generation
      = ((m.leave key generation).1.masked, (m.leave key generation).2) := by
  unfold leave
  rw [find?_masked]
  cases m.find? key with
  | none => rfl
  | some e =>
    show (if e.generation ≠ generation then _ else if e.references ≤ 1 then _ else _) = _
    dsimp only
    split
    · rfl
    split
    · exact m.schedule_masked e
    · exact congrArg (·, []) (m.put_masked { e with references := e.references - 1 })

/-- A sweep tells the masked connection string. -/
theorem sweepEntry_masked :
    m.masked.sweepEntry e.masked = ((m.sweepEntry e).1.masked, (m.sweepEntry e).2) := by
  have hschedule : m.masked.schedule { e.masked with generation := e.masked.generation + 1 }
      = ((m.schedule { e with generation := e.generation + 1 }).1.masked,
        (m.schedule { e with generation := e.generation + 1 }).2) :=
    m.schedule_masked { e with generation := e.generation + 1 }
  unfold sweepEntry
  rw [e.redacted_masked, hschedule]
  rfl

/-- What is done to one entry after the other is done to the masked ones. -/
theorem foldl_masked {f : LeaseManager × Log → LeaseEntry → LeaseManager × Log}
    (hf : ∀ m log e, f (m.masked, log) e.masked = ((f (m, log) e).1.masked, (f (m, log) e).2))
    (es : List LeaseEntry) (log : Log) :
    (es.map LeaseEntry.masked).foldl f (m.masked, log)
      = ((es.foldl f (m, log)).1.masked, (es.foldl f (m, log)).2) := by
  induction es generalizing m log with
  | nil => rfl
  | cons e es ih =>
    rw [List.map_cons, List.foldl_cons, List.foldl_cons, hf]
    exact ih _ _

/-- The same entries are swept, as many of them, and told in the same words. -/
theorem sweep_masked :
    m.masked.sweep = (m.sweep.1, m.sweep.2.1.masked, m.sweep.2.2) := by
  have hswept : (m.masked.entries.filter fun e => m.masked.isOrphan e && 0 < e.references)
      = (m.entries.filter fun e => m.isOrphan e && 0 < e.references).map LeaseEntry.masked := by
    show (m.entries.map LeaseEntry.masked).filter _ = _
    rw [List.filter_map]
    rfl
  unfold sweep
  dsimp only
  rw [hswept, List.length_map, foldl_masked m fun m log e => ?_]
  dsimp only
  rw [sweepEntry_masked]

end LeaseManager

/-! ## Pools -/

namespace Pool

/-- The pool with all connection strings masked. -/
def masked (p : Pool) : Pool := { p with manager := p.manager.masked }

@[simp] theorem manager_masked (p : Pool) : p.masked.manager = p.manager.masked := rfl

/-- The end of an acquire with all connection strings masked. -/
def Acquired.masked (x : Acquired) : Acquired := { x with pool := x.pool.masked }

variable (p : Pool)

/-- The server is asked for the same connection, and a failure shows no password. -/
theorem acquire_masked (thread : ThreadId) (url : ConnectionString) :
    p.masked.acquire thread url.masked = (p.acquire thread url).masked := by
  unfold acquire
  dsimp only
  rw [manager_masked, LeaseManager.startSweeping_masked, LeaseManager.keyOf_masked,
    LeaseManager.enter_masked]
  generalize p.manager.startSweeping.keyOf thread url = key
  generalize p.manager.startSweeping.enter key url = entered
  obtain ⟨e, m, log⟩ := entered
  -- a server does not ask for the password
  have hconnect : p.masked.network.connect e.masked.url = p.network.connect e.url :=
    p.network.connect_masked e.url
  dsimp only
  rw [e.redacted_masked, e.connection_masked, hconnect]
  cases e.connection with
  | some connection => rfl
  | none =>
    obtain ⟨outcome, network⟩ := p.network.connect e.url
    cases outcome with
    | ok connection =>
      have hput : m.masked.put { e.masked with connection := some connection }
          = (m.put { e with connection := some connection }).masked :=
        m.put_masked { e with connection := some connection }
      dsimp only
      rw [hput]
      rfl
    | error cause =>
      have hleave : m.masked.leave key e.masked.generation
          = ((m.leave key e.generation).1.masked, (m.leave key e.generation).2) :=
        m.leave_masked key e.generation
      dsimp only
      rw [hleave]
      rfl

theorem hold_masked (connection : Connection) :
    p.masked.hold connection = (p.hold connection).masked :=
  rfl

theorem unhold_masked (connection : Connection) :
    p.masked.unhold connection = (p.unhold connection).masked :=
  rfl

/-- A lease does not know its password. -/
theorem release_masked (lease : Lease) :
    p.masked.release lease = ((p.release lease).1.masked, (p.release lease).2) := by
  unfold release
  rw [unhold_masked]
  dsimp only
  rw [manager_masked, LeaseManager.leave_masked]
  rfl

theorem sweep_masked : p.masked.sweep = (p.sweep.1, p.sweep.2.1.masked, p.sweep.2.2) := by
  unfold sweep
  rw [manager_masked, LeaseManager.sweep_masked]
  rfl

/-- The same connection is closed, and the same is told of it. -/
theorem closeEntry_masked (e : LeaseEntry) :
    p.masked.closeEntry e.masked = ((p.closeEntry e).1.masked, (p.closeEntry e).2) := by
  unfold closeEntry
  rw [e.redacted_masked, e.connection_masked]
  cases e.connection with
  | none => rfl
  | some connection =>
    show (if p.inUse.contains connection then _ else _) = _
    dsimp only
    split <;> rfl

/-- Whether a closing comes too late does not depend on passwords. -/
theorem close_masked (key : LeaseKey) :
    p.masked.close key = ((p.close key).1.masked, (p.close key).2) := by
  have hfind : (p.masked.manager.cancel key).find? key
      = ((p.manager.cancel key).find? key).map LeaseEntry.masked :=
    (p.manager.cancel key).find?_masked key
  unfold close
  dsimp only
  rw [hfind]
  cases (p.manager.cancel key).find? key with
  | none => rfl
  | some e =>
    show (if e.references ≠ 0 then _ else _) = _
    dsimp only
    split
    · rfl
    · have hremove : (p.masked.manager.cancel key).remove key
          = ((p.manager.cancel key).remove key).masked :=
        (p.manager.cancel key).remove_masked key
      rw [hremove]
      exact closeEntry_masked { p with manager := (p.manager.cancel key).remove key } e

/-- The closings of a queue find the same entries, one behind the other. -/
theorem closeAll_masked (cs : List Closing) :
    p.masked.closeAll cs = ((p.closeAll cs).1.masked, (p.closeAll cs).2) := by
  induction cs generalizing p with
  | nil => rfl
  | cons c rest ih =>
    unfold closeAll
    rw [close_masked]
    dsimp only
    rw [ih]

/-- The same closings are due. -/
theorem closeDue_masked (time : Nat) :
    p.masked.closeDue time = ((p.closeDue time).1.masked, (p.closeDue time).2) := by
  unfold closeDue
  dsimp only
  rw [manager_masked, LeaseManager.closings_masked, closeAll_masked]
  rfl

/-- The sweep of a moment comes between the same closings. -/
theorem sweepAt_masked (time : Nat) :
    p.masked.sweepAt time = ((p.sweepAt time).1.masked, (p.sweepAt time).2) := by
  have hat (p : Pool) : { p.masked with manager := { p.masked.manager with now := time } }
      = ({ p with manager := { p.manager with now := time } } : Pool).masked :=
    rfl
  unfold sweepAt
  dsimp only
  rw [manager_masked, LeaseManager.config_masked, closeDue_masked]
  dsimp only
  rw [hat, sweep_masked]
  dsimp only
  rw [closeDue_masked]

/-- So do all sweeps of a wait. -/
theorem sweepOn_masked (time count : Nat) :
    p.masked.sweepOn time count = ((p.sweepOn time count).1.masked, (p.sweepOn time count).2) := by
  induction count generalizing p time with
  | zero => rfl
  | succ count ih =>
    unfold sweepOn
    dsimp only
    rw [manager_masked, LeaseManager.config_masked, sweepAt_masked]
    dsimp only
    rw [ih]

/-- As time passes, the same sweeps and closings come in the same order. -/
theorem sleep_masked (milliseconds : Nat) :
    p.masked.sleep milliseconds
      = ((p.sleep milliseconds).1.masked, (p.sleep milliseconds).2) := by
  unfold sleep
  dsimp only
  rw [manager_masked, LeaseManager.sweepsUntil_masked, LeaseManager.sweepsUntil_masked,
    sweepOn_masked]
  dsimp only
  rw [closeDue_masked]
  rfl

end Pool

/-! ## Tenants -/

namespace Tenancy

/-- The tenants of the pool with all connection strings masked. -/
def masked (t : Tenancy) : Tenancy := { t with pool := t.pool.masked }

variable (t : Tenancy)

@[simp] theorem pool_masked : t.masked.pool = t.pool.masked := rfl

@[simp] theorem lease?_masked (name : String) : t.masked.lease? name = t.lease? name := rfl

/-- A name stands for the same thread. -/
theorem thread_masked (name : Option String) :
    t.masked.thread name = ((t.thread name).1, (t.thread name).2.masked) := by
  unfold thread
  cases name with
  | none => rfl
  | some name =>
    dsimp only
    rw [show t.masked.threads = t.threads from rfl]
    cases t.threads.lookup name <;> rfl

/-- A thread that ends takes the same leases with it. -/
theorem exit_masked (name : String) : t.masked.exit name = (t.exit name).masked := by
  unfold exit
  rw [thread_masked]
  rfl

/-- A tenant gives back the lease of the same name. -/
theorem release_masked (name : String) :
    t.masked.release name = ((t.release name).1.masked, (t.release name).2) := by
  unfold release
  rw [lease?_masked]
  cases t.lease? name with
  | none => rfl
  | some lease =>
    dsimp only
    rw [pool_masked, Pool.release_masked]
    rfl

/-- A tenant acquires the same lease, or fails with the same words. -/
theorem acquire_masked (thread : Option String) (name : String) (url : ConnectionString) :
    t.masked.acquire thread name url.masked
      = ((t.acquire thread name url).1, (t.acquire thread name url).2.1.masked,
        (t.acquire thread name url).2.2) := by
  unfold acquire
  rw [thread_masked]
  generalize t.thread thread = started
  obtain ⟨id, t⟩ := started
  dsimp only
  rw [pool_masked, Pool.acquire_masked]
  obtain ⟨outcome, pool, log⟩ := t.pool.acquire id url
  cases outcome with
  | error cause => rfl
  | ok lease =>
    have hrelease : ({ t.masked with pool := pool.masked } : Tenancy).release name
        = ((({ t with pool } : Tenancy).release name).1.masked,
          (({ t with pool } : Tenancy).release name).2) :=
      release_masked { t with pool } name
    simp only [Pool.Acquired.masked]
    rw [hrelease]
    rfl

/-- A tenant lets go of the same connection. -/
theorem letGo_masked (name : String) : t.masked.letGo name = (t.letGo name).masked := by
  unfold letGo
  rw [show t.masked.kept = t.kept from rfl]
  cases t.kept.lookup name <;> rfl

theorem keep_masked (name : String) : t.masked.keep name = (t.keep name).masked := by
  unfold keep
  rw [lease?_masked]
  cases t.lease? name with
  | none => rfl
  | some lease =>
    dsimp only
    rw [pool_masked, Pool.hold_masked]
    exact congrArg (fun t : Tenancy => { t with kept := (name, lease.connection) :: t.kept })
      (letGo_masked { t with pool := t.pool.hold lease.connection } name)

end Tenancy

end RowMapper
