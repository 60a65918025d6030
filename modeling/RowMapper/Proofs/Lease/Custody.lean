import Mathlib.Logic.Function.Basic
import RowMapper.Proofs.Lease.Connections
import RowMapper.Proofs.Lease.Holders

/-!
# Custody of connections

A pool together with all that its users hold of it: the references of their leases and of the
acquires that wait, and the connections that they keep apart from leases. Beside the pool stand the
connections that it opened and closed so far and those that it lost sight of, when the references
to a key last dropped to zero, and whether a connect succeeded since the entry of a key was made.

Nothing is said about the order of events but what cannot be otherwise: a thread that has ended
acquires no more, only what is held is let go, and a closing comes when it is due or later. Acquires
of one key may overlap, may be given up while they wait, and may outlive the entry of their key. An
acquire that waits holds its reference like a lease, whose connection is still to come.

Between two events the manager agrees with the holders of every key, the connections in use are
those of the holders and those that are kept, and every connection has its place
(`Custody.Sound`).
-/

namespace RowMapper

/-! ## What becomes of a connection -/

namespace Pool

variable {p q : Pool} {key : LeaseKey}

/-- The connection of the entry of a key, if the entry can be closed. -/
def expiring? (p : Pool) (key : LeaseKey) : Option Connection :=
  (p.manager.find? key).bind fun e => if e.references = 0 then e.connection else none

/-- The connection that is closed with the entry of a key. -/
def parting? (p : Pool) (key : LeaseKey) : Option Connection :=
  (p.expiring? key).filter (· ∉ p.inUse)

/-- The connection that is dropped with the entry of a key, since it is still in use. -/
def forsaken? (p : Pool) (key : LeaseKey) : Option Connection :=
  (p.expiring? key).filter (· ∈ p.inUse)

/-- An idle entry would take its connection with it. -/
theorem expiring_eq {e : LeaseEntry} (he : p.manager.find? key = some e)
    (hidle : e.references = 0) : p.expiring? key = e.connection := by
  unfold expiring?
  rw [he]
  exact if_pos hidle

/-- A connection is closed unless somebody uses it. -/
theorem closeEntry_spec (p : Pool) (e : LeaseEntry) :
    (p.closeEntry e).1.inUse = p.inUse
      ∧ (p.closeEntry e).1.network = match e.connection.filter (· ∉ p.inUse) with
        | some c => (p.network.disconnect c).2
        | none => p.network := by
  unfold closeEntry
  cases e.connection with
  | none => exact ⟨rfl, rfl⟩
  | some c =>
    by_cases hused : c ∈ p.inUse
    · simp [hused, Option.filter]
    · simp [hused, Option.filter]

/-- An entry that is closed leaves the connection that parts with it, and no other. -/
theorem close_spec (p : Pool) (key : LeaseKey) :
    (p.close key).1.inUse = p.inUse
      ∧ (p.close key).1.network = match p.parting? key with
        | some c => (p.network.disconnect c).2
        | none => p.network := by
  have hfind : (p.manager.cancel key).find? key = p.manager.find? key := rfl
  unfold close parting? expiring?
  dsimp only
  rw [hfind]
  cases p.manager.find? key with
  | none => exact ⟨rfl, rfl⟩
  | some e =>
    by_cases hidle : e.references = 0
    -- whether the connection is in use does not depend on the entry
    · simp only [hidle, ne_eq, not_true_eq_false, ↓reduceIte, Option.bind_some]
      exact closeEntry_spec { p with manager := (p.manager.cancel key).remove key } e
    · simp [hidle]

/-- A holder lets go: a lease is given back, or an acquire given up. -/
def drop (p : Pool) (x : Holder) : Pool :=
  match x.got with
  | .inl lease => (p.release lease).1
  | .inr o => { p with manager := (p.manager.leave o.key o.generation).1 }

/-- A holder that leaves gives its reference back, and its use of the connection if it has one. -/
theorem drop_spec (p : Pool) (x : Holder) :
    (p.drop x).manager = (p.manager.leave x.key x.generation).1
      ∧ (p.drop x).network = p.network
      ∧ (p.drop x).inUse = (x.connection?.map p.inUse.erase).getD p.inUse := by
  obtain ⟨got, swept⟩ := x
  cases got <;> exact ⟨rfl, rfl, rfl⟩

/-- Who enters holds the key, with the connection of its entry and one more use of it. -/
theorem enter_spec (p : Pool) (thread : ThreadId) (url : ConnectionString) {e : LeaseEntry}
    (he : (p.manager.startSweeping.enter (p.manager.keyOf thread url) url).1 = e) {x : Holder}
    (hx : x = ⟨(p.enter thread url).1, false⟩) :
    x.key = p.manager.keyOf thread url ∧ x.generation = e.generation
      ∧ x.connection? = e.connection
      ∧ (p.enter thread url).2.inUse = x.connection?.toList ++ p.inUse := by
  subst he hx
  unfold enter
  dsimp only
  cases hc : (p.manager.startSweeping.enter (p.manager.keyOf thread url) url).1.connection with
  | none => exact ⟨rfl, rfl, rfl, rfl⟩
  | some c => exact ⟨rfl, rfl, rfl, rfl⟩

/-- A lease that is concluded has the connection that the network opened. -/
theorem conclude_connect {o : Opening} {lease : Lease} (h : p.conclude o = (.ok lease, q)) :
    p.network.connect o.url = (.ok lease.connection, q.network) := by
  unfold conclude at h
  split at h
  · rename_i hconnect
    cases h
    exact hconnect
  · cases h

/-- An acquire fails if the network does. -/
theorem conclude_error {o : Opening} {cause : ConnectError} (h : p.conclude o = (.error cause, q)) :
    ∃ cause, (p.network.connect o.url).1 = .error cause := by
  unfold conclude at h
  split at h
  · cases h
  · rename_i hconnect
    exact ⟨_, congrArg Prod.fst hconnect⟩

/-- The connection that is opened is in use once. -/
theorem conclude_inUse {o : Opening} {lease : Lease} (h : p.conclude o = (.ok lease, q)) :
    q.inUse = lease.connection :: p.inUse := by
  unfold conclude at h
  split at h
  · cases h
    rfl
  · cases h

/-- A failed acquire leaves the network and the uses of connections alone. -/
theorem conclude_refused {o : Opening} {cause : ConnectError}
    (h : p.conclude o = (.error cause, q)) : q.network = p.network ∧ q.inUse = p.inUse := by
  unfold conclude at h
  split at h
  · cases h
  · rename_i hconnect
    cases h
    exact ⟨Network.connect_of_error hconnect, rfl⟩

end Pool

/-! ## What happens to a pool -/

/-- A pool, what its users hold of it, and what became of its connections. -/
structure Custody where
  pool : Pool
  /-- All who were given a reference and have not let go, whether or not a sweep took it. -/
  holders : List Holder := []
  /-- The connections that are kept apart from leases. -/
  kept : List Connection := []
  opened : List Connection := []
  closed : List Connection := []
  /-- The connections that the cache dropped without closing them, since they were still used. -/
  outlived : List Connection := []
  /-- The connections that never came into the cache, since their entries were gone before. -/
  late : List Connection := []
  /-- When the references to a key last dropped to zero. -/
  dropped : LeaseKey → Option Nat := fun _ => none
  /-- A connect succeeded since the entry of a key was made. -/
  connected : LeaseKey → Bool := fun _ => false

namespace Custody

/-- One thing that happens to a pool. -/
inductive Event where
  /-- A thread starts to acquire. -/
  | enter (thread : ThreadId) (url : ConnectionString)
  /-- An acquire that waits tries to open the connection. -/
  | connect (x : Holder)
  /-- A lease is given back, or an acquire that waits is given up. -/
  | leave (x : Holder)
  /-- The references of ended threads are taken. -/
  | sweep
  | exit (thread : ThreadId)
  /-- From now on closings run in the background, or do not. -/
  | runtime (present : Bool)
  | wait (time : Nat)
  /-- A closing that is due is carried out. -/
  | close (key : LeaseKey)
  /-- A connection is kept apart from the lease or the handle that it is taken from. -/
  | keep (c : Connection)
  | letGo (c : Connection)
  /-- Servers change, statements run. -/
  | outside (network : Network)

/-- What can happen. -/
def Allows (c : Custody) : Event → Prop
  | .enter thread _ => thread ∉ c.pool.manager.ended
  | .connect x => x ∈ c.holders ∧ x.got.isRight
  | .leave x => x ∈ c.holders
  | .wait time => c.pool.manager.now ≤ time
  | .close key => ∃ x ∈ c.pool.manager.closings, x.key = key ∧ x.due ≤ c.pool.manager.now
  | .keep d => d ∈ c.pool.inUse
  | .letGo d => d ∈ c.kept
  | .outside network => c.pool.network.Keeps network
  | .sweep | .exit _ | .runtime _ => True

instance (c : Custody) : (event : Event) → Decidable (c.Allows event)
  | .enter thread _ => inferInstanceAs (Decidable (thread ∉ c.pool.manager.ended))
  | .connect x => inferInstanceAs (Decidable (x ∈ c.holders ∧ x.got.isRight = true))
  | .leave x => inferInstanceAs (Decidable (x ∈ c.holders))
  | .wait time => inferInstanceAs (Decidable (c.pool.manager.now ≤ time))
  | .close key => inferInstanceAs
    (Decidable (∃ x ∈ c.pool.manager.closings, x.key = key ∧ x.due ≤ c.pool.manager.now))
  | .keep d => inferInstanceAs (Decidable (d ∈ c.pool.inUse))
  | .letGo d => inferInstanceAs (Decidable (d ∈ c.kept))
  | .outside network => inferInstanceAs (Decidable (c.pool.network.Keeps network))
  | .sweep | .exit _ | .runtime _ => inferInstanceAs (Decidable True)

/-- The pool changes, and with it when references dropped to zero. -/
def proceed (c : Custody) (pool : Pool) : Custody :=
  { c with
    pool
    dropped := fun key => c.pool.manager.lastDrop pool.manager key (c.dropped key) }

/-- Somebody is given a reference. An entry that is made for it has no connection yet. -/
def enlist (c : Custody) (x : Holder) (pool : Pool) : Custody :=
  { c.proceed pool with
    holders := x :: c.holders
    connected :=
      if (c.pool.manager.find? x.key).isNone then Function.update c.connected x.key false
      else c.connected }

/-- A connection is opened for a key, and all that wait for it share it. It goes into the cache if
the entry of the key is still there. -/
def receive (c : Custody) (key : LeaseKey) (d : Connection) (pool : Pool) : Custody :=
  { c.proceed { pool with
      inUse := List.replicate (c.holders.countP (·.waitsFor key)) d ++ c.pool.inUse } with
    holders := c.holders.map (·.receive key d)
    opened := d :: c.opened
    late := if (c.pool.manager.find? key).isSome then c.late else d :: c.late
    connected := Function.update c.connected key true }

/-- The holders after a sweep: the references of a key were taken if the manager counts none of
those any more that it counted before. -/
def holdersSwept (c : Custody) (m : LeaseManager) : List Holder :=
  c.holders.map fun x =>
    if 0 < c.pool.manager.references x.key ∧ m.references x.key = 0 then x.take else x

def after (c : Custody) : Event → Custody
  | .enter thread url =>
    let (got, pool) := c.pool.enter thread url
    c.enlist { got } pool
  | .connect x =>
    match x.got with
    | .inl _ => c
    | .inr o =>
      match c.pool.conclude o with
      | (.ok lease, pool) => c.receive o.key lease.connection pool
      | (.error _, pool) => { c.proceed pool with holders := c.holders.erase x }
  | .leave x => { c.proceed (c.pool.drop x) with holders := c.holders.erase x }
  | .sweep =>
    { c.proceed c.pool.sweep.2.1 with holders := c.holdersSwept c.pool.manager.sweep.2.1 }
  | .exit thread => c.proceed { c.pool with manager := c.pool.manager.endThread thread }
  | .runtime present =>
    c.proceed { c.pool with manager := { c.pool.manager with hasRuntime := present } }
  | .wait time => c.proceed { c.pool with manager := { c.pool.manager with now := time } }
  | .close key =>
    { c.proceed (c.pool.close key).1 with
      closed := (c.pool.parting? key).toList ++ c.closed
      outlived := (c.pool.forsaken? key).toList ++ c.outlived }
  | .keep d => { c.proceed (c.pool.hold d) with kept := d :: c.kept }
  | .letGo d => { c.proceed (c.pool.unhold d) with kept := c.kept.erase d }
  | .outside network => c.proceed { c.pool with network }

/-- Events happen one after the other. -/
def afterAll (c : Custody) (events : List Event) : Custody := events.foldl after c

/-- Each of the events can happen when its turn comes. -/
def AllowsAll (c : Custody) : List Event → Prop
  | [] => True
  | event :: rest => c.Allows event ∧ (c.after event).AllowsAll rest

instance decidableAllowsAll (c : Custody) : (events : List Event) → Decidable (c.AllowsAll events)
  | [] => inferInstanceAs (Decidable True)
  | event :: rest =>
    have := decidableAllowsAll (c.after event) rest
    inferInstanceAs (Decidable (c.Allows event ∧ (c.after event).AllowsAll rest))

/-- A new manager on a network. -/
def fresh (config : LeaseConfig) (hasRuntime : Bool) (network : Network) : Custody :=
  { pool := { manager := { config, hasRuntime }, network } }

/-- What a manager that started empty on a network comes to. -/
inductive Reached (origin : Network) : Custody → Prop where
  | fresh (config : LeaseConfig) (hasRuntime : Bool) :
      Reached origin (fresh config hasRuntime origin)
  | step {c : Custody} (before : Reached origin c) {event : Event} (allowed : c.Allows event) :
      Reached origin (c.after event)

variable {origin : Network} {c c' : Custody} {key : LeaseKey} {x : Holder} {pool : Pool}

/-- What is reached goes on with events that can happen. -/
theorem Reached.afterAll (h : Reached origin c) {events : List Event}
    (allowed : c.AllowsAll events) : Reached origin (c.afterAll events) := by
  induction events generalizing c with
  | nil => exact h
  | cons event rest ih => exact ih (h.step allowed.1) allowed.2

/-- An acquire that waits opens the connection, or is refused and lets go. -/
theorem connect_cases (allowed : c.Allows (.connect x)) :
    x ∈ c.holders ∧ ∃ o, x.got = .inr o ∧ x.key = o.key ∧ x.generation = o.generation
      ∧ x.connection? = none
      ∧ ((∃ lease pool, c.pool.conclude o = (.ok lease, pool)
          ∧ c.after (.connect x) = c.receive o.key lease.connection pool)
        ∨ ∃ cause pool, c.pool.conclude o = (.error cause, pool)
          ∧ c.after (.connect x) = { c.proceed pool with holders := c.holders.erase x }) := by
  obtain ⟨hx, hwaits⟩ := allowed
  obtain ⟨got, swept⟩ := x
  cases got with
  | inl lease => cases hwaits
  | inr o =>
    refine ⟨hx, o, rfl, rfl, rfl, rfl, ?_⟩
    cases hconclude : c.pool.conclude o with
    | mk result pool =>
      cases result with
      | ok lease => exact Or.inl ⟨lease, pool, rfl, by simp only [after, hconclude]⟩
      | error cause => exact Or.inr ⟨cause, pool, rfl, by simp only [after, hconclude]⟩

/-! ## The holders of a key -/

def holdersOf (c : Custody) (key : LeaseKey) : List Holder := c.holders.filter (·.key == key)

/-- The holders of a key are those that have it. -/
theorem mem_holdersOf : x ∈ c.holdersOf key ↔ x ∈ c.holders ∧ x.key = key := by
  simp [holdersOf]

theorem holdersOf_cons (c : Custody) (x : Holder) (key : LeaseKey) :
    (x :: c.holders).filter (·.key == key)
      = if x.key = key then x :: c.holdersOf key else c.holdersOf key := by
  rw [List.filter_cons]
  simp [holdersOf]

/-- A holder that leaves is a holder less of its key. -/
theorem holdersOf_erase (c : Custody) (x : Holder) (key : LeaseKey) :
    (c.holders.erase x).filter (·.key == key) = (c.holdersOf key).erase x := List.erase_filter.symm

theorem holdersOf_map (c : Custody) (f : Holder → Holder) (hf : ∀ x, (f x).key = x.key)
    (key : LeaseKey) :
    (c.holders.map f).filter (·.key == key) = (c.holdersOf key).map f := by
  rw [List.filter_map]
  congr 2
  funext x
  simp [hf]

/-- A sweep takes the references from all holders of a key, or from none. -/
theorem holdersOf_swept (c : Custody) (m : LeaseManager) (key : LeaseKey) :
    (c.holdersSwept m).filter (·.key == key)
      = if 0 < c.pool.manager.references key ∧ m.references key = 0
        then (c.holdersOf key).map (·.take) else c.holdersOf key := by
  unfold holdersSwept
  rw [holdersOf_map c _ fun x => by split <;> rfl]
  split
  · rename_i htaken
    refine List.map_congr_left fun x hx => ?_
    rw [(mem_holdersOf.1 hx).2, if_pos htaken]
  · rename_i hkept
    refine (List.map_congr_left fun x hx => ?_).trans (List.map_id _)
    rw [(mem_holdersOf.1 hx).2, if_neg hkept]
    rfl

theorem got_swept (c : Custody) (m : LeaseManager) :
    (c.holdersSwept m).map (·.got) = c.holders.map (·.got) := by
  unfold holdersSwept
  rw [List.map_map]
  refine List.map_congr_left fun x _ => ?_
  dsimp only [Function.comp_apply]
  split <;> rfl

/-- A sweep leaves all holders their connections. -/
theorem connections_swept (c : Custody) (m : LeaseManager) :
    (c.holdersSwept m).filterMap (·.connection?) = c.holders.filterMap (·.connection?) := by
  unfold holdersSwept
  rw [List.filterMap_map]
  refine List.filterMap_congr fun x _ => ?_
  dsimp only [Function.comp_apply]
  split <;> rfl

/-! ## What holds between two events -/

/-- The manager agrees with the holders, the connections in use are theirs and the kept ones, and
every connection has its place. -/
structure Sound (origin : Network) (c : Custody) : Prop where
  ordered : c.pool.manager.Ordered
  tended : ∀ key, c.pool.manager.Tended key (c.holdersOf key) (c.dropped key)
  users : c.pool.inUse.Perm (c.holders.filterMap (·.connection?) ++ c.kept)
  accounts : Accounts origin c.pool.network c.pool.inUse c.opened c.closed
    c.pool.manager.cached (c.outlived ++ c.late)

/-- An empty manager has no holders. -/
theorem sound_fresh (config : LeaseConfig) (hasRuntime : Bool) :
    Sound origin (fresh config hasRuntime origin) where
  ordered := ⟨List.nodup_nil, List.nodup_nil, .nil, fun _ hd => absurd hd List.not_mem_nil⟩
  tended _ := ⟨fun _ hd => absurd hd List.not_mem_nil, fun _ he => (by cases he),
    fun _ _ hx => absurd hx List.not_mem_nil, fun _ hx => absurd hx List.not_mem_nil,
    fun _ hx => absurd hx List.not_mem_nil⟩
  users := .refl _
  accounts := ⟨.refl _, List.nodup_nil, .refl _, fun _ hd => absurd hd List.not_mem_nil⟩

end Custody

end RowMapper
