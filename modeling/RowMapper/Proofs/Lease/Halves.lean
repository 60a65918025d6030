import RowMapper.Lease.Pool
import RowMapper.Proofs.Lease.Entries

/-!
# The halves of an acquire

An acquire is two events, since others happen while it opens a connection. It adds its reference
first (`Pool.enter`). A connection that is open is shared at once; otherwise the acquire waits for
one to be opened (`Pool.conclude`), which other acquires may do for it. `Pool.acquire` is the two
halves together (`Pool.acquire_of_shared`, `Pool.acquire_of_opening`).
-/

namespace RowMapper

/-- An acquire that opens a connection: the reference it already has, and where it connects to. -/
structure Opening where
  key : LeaseKey
  generation : Nat
  url : ConnectionString
  deriving Repr, DecidableEq

namespace Pool

/-- Adds a reference. A connection that is open is shared at once, otherwise it is to be opened. -/
def enter (p : Pool) (thread : ThreadId) (url : ConnectionString) : (Lease ⊕ Opening) × Pool :=
  let key := p.manager.keyOf thread url
  let (entry, manager, _) := p.manager.startSweeping.enter key url
  match entry.connection with
  | some connection =>
    (.inl ⟨key, entry.generation, connection⟩, { p with manager, inUse := connection :: p.inUse })
  | none => (.inr ⟨key, entry.generation, entry.url⟩, { p with manager })

/-- Opens the connection. The entry keeps it if it is still there; the reference of a connect that
failed is given back. -/
def conclude (p : Pool) (o : Opening) : Except ConnectError Lease × Pool :=
  match p.network.connect o.url with
  | (.ok connection, network) =>
    let manager := match p.manager.find? o.key with
      | some e => p.manager.put { e with connection := some connection }
      | none => p.manager
    (.ok ⟨o.key, o.generation, connection⟩, { manager, network, inUse := connection :: p.inUse })
  | (.error cause, network) =>
    (.error cause, { p with manager := (p.manager.leave o.key o.generation).1, network })

variable {p q : Pool} {thread : ThreadId} {url : ConnectionString}

/-- An acquire that shares a connection ends with its first half. -/
theorem acquire_of_shared {l : Lease} (h : p.enter thread url = (.inl l, q)) :
    (p.acquire thread url).outcome = .ok l ∧ (p.acquire thread url).pool = q := by
  unfold enter at h
  unfold acquire
  dsimp only at h ⊢
  rw [p.manager.keyOf_startSweeping]
  generalize p.manager.startSweeping.enter (p.manager.keyOf thread url) url = entered at h ⊢
  obtain ⟨entry, manager, log⟩ := entered
  dsimp only at h ⊢
  cases hconnection : entry.connection with
  | some connection =>
    rw [hconnection] at h
    cases h
    exact ⟨rfl, rfl⟩
  | none =>
    rw [hconnection] at h
    cases h

/-- An acquire that opens a connection is its two halves. -/
theorem acquire_of_opening {o : Opening} (h : p.enter thread url = (.inr o, q)) :
    (p.acquire thread url).outcome.toOption = (q.conclude o).1.toOption
      ∧ (p.acquire thread url).pool = (q.conclude o).2 := by
  unfold enter at h
  unfold acquire
  dsimp only at h ⊢
  rw [p.manager.keyOf_startSweeping]
  -- the entry that was entered is the one that keeps the connection
  have hentry := p.manager.startSweeping.find?_enter (p.manager.keyOf thread url) url
    (p.manager.keyOf thread url)
  rw [if_pos rfl] at hentry
  generalize p.manager.startSweeping.enter (p.manager.keyOf thread url) url = entered
    at h hentry ⊢
  obtain ⟨entry, manager, log⟩ := entered
  dsimp only at h hentry ⊢
  cases hconnection : entry.connection with
  | some connection =>
    rw [hconnection] at h
    cases h
  | none =>
    rw [hconnection] at h
    cases h
    unfold conclude
    dsimp only
    cases p.network.connect _ with
    | mk result network =>
      cases result with
      | ok connection =>
        rw [hentry]
        exact ⟨rfl, rfl⟩
      | error cause => exact ⟨rfl, rfl⟩

/-! ## What becomes of the manager -/

/-- The first half concerns the manager as entering the key does. -/
theorem enter_manager (p : Pool) (thread : ThreadId) (url : ConnectionString) :
    (p.enter thread url).2.manager
      = (p.manager.startSweeping.enter (p.manager.keyOf thread url) url).2.1 := by
  unfold enter
  dsimp only
  split <;> rfl

/-- An open connection is shared, a closed one is to be opened. -/
theorem enter_got (p : Pool) (thread : ThreadId) (url : ConnectionString) {e : LeaseEntry}
    (he : (p.manager.startSweeping.enter (p.manager.keyOf thread url) url).1 = e) :
    (p.enter thread url).1 = match e.connection with
      | some connection => .inl ⟨p.manager.keyOf thread url, e.generation, connection⟩
      | none => .inr ⟨p.manager.keyOf thread url, e.generation, e.url⟩ := by
  subst he
  unfold enter
  dsimp only
  split <;> rfl

theorem alike_enter (p : Pool) (thread : ThreadId) (url : ConnectionString) :
    LeaseManager.Alike p.manager (p.enter thread url).2.manager := by
  rw [enter_manager]
  exact p.manager.alike_startSweeping.trans (LeaseManager.alike_enter _ _ _)

/-- Nothing is opened by the first half. -/
theorem enter_network (p : Pool) (thread : ThreadId) (url : ConnectionString) :
    (p.enter thread url).2.network = p.network := by
  unfold enter
  dsimp only
  split <;> rfl

/-- The second half is one connect, and has the connection that this gives. -/
theorem conclude_network (p : Pool) (o : Opening) :
    (p.conclude o).2.network = (p.network.connect o.url).2
      ∧ (p.conclude o).1.toOption.map (·.connection) = (p.network.connect o.url).1.toOption := by
  unfold conclude
  split
  · rename_i hconnect
    rw [hconnect]
    exact ⟨rfl, rfl⟩
  · rename_i hconnect
    rw [hconnect]
    exact ⟨rfl, rfl⟩

/-- A connection that was opened goes to the entry of its key, if that is still there. -/
theorem conclude_of_ok {o : Opening} {l : Lease} (h : p.conclude o = (.ok l, q)) :
    l.key = o.key ∧ l.generation = o.generation
      ∧ q.manager = match p.manager.find? o.key with
        | some e => p.manager.put { e with connection := some l.connection }
        | none => p.manager := by
  unfold conclude at h
  split at h
  · cases h
    exact ⟨rfl, rfl, rfl⟩
  · cases h

/-- A connect that failed gives the reference back. -/
theorem conclude_of_error {o : Opening} {cause : ConnectError}
    (h : p.conclude o = (.error cause, q)) :
    q.manager = (p.manager.leave o.key o.generation).1 := by
  unfold conclude at h
  split at h
  · cases h
  · cases h
    rfl

theorem alike_conclude {o : Opening} {result : Except ConnectError Lease}
    (h : p.conclude o = (result, q)) : LeaseManager.Alike p.manager q.manager := by
  cases result with
  | ok l =>
    obtain ⟨-, -, hmanager⟩ := conclude_of_ok h
    rw [hmanager]
    split
    · exact LeaseManager.alike_put _ _
    · exact LeaseManager.Alike.refl _
  | error cause =>
    rw [conclude_of_error h]
    exact LeaseManager.alike_leave _ _ _

theorem closeEntry_manager (p : Pool) (e : LeaseEntry) :
    (p.closeEntry e).1.manager = p.manager := by
  unfold closeEntry
  split
  · rfl
  · split <;> rfl

/-- An entry without references is taken out. -/
theorem close_manager {key : LeaseKey} {e : LeaseEntry} (h : p.manager.find? key = some e)
    (hidle : e.references = 0) :
    (p.close key).1.manager = (p.manager.cancel key).remove key := by
  have h' : (p.manager.cancel key).find? key = some e := h
  unfold close
  dsimp only
  rw [h']
  simp only [hidle, ne_eq, not_true_eq_false, ↓reduceIte]
  exact closeEntry_manager _ _

end Pool

end RowMapper
