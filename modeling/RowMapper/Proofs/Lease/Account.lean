import RowMapper.Proofs.Lease.Ledger

/-!
# What holds of one key

Between two events the entry of a key agrees with what its users hold. As long as no sweep took
references of the key, its entry counts one reference for each lease and for the acquire under
way, and all leases have the connection of the entry; afterwards it counts none and belongs to the
next generation (`Ledger.Present`). Only an entry without references waits for its closing.

An event leaves these facts alone for all keys it is not about (`Ledger.Sound.untouched`).
-/

namespace RowMapper

open LeaseManager (Alike)

namespace Ledger

variable {ℓ ℓ' : Ledger} {key : LeaseKey} {e : LeaseEntry}

/-- The leases of a key that are alive or to come, whether or not their references were taken. -/
def outstanding (ℓ : Ledger) (key : LeaseKey) : Nat :=
  (ℓ.leases key).length + (ℓ.opening key).toList.length

/-- What holds of the entry of a key. -/
structure Present (ℓ : Ledger) (key : LeaseKey) (e : LeaseEntry) : Prop where
  generation : e.generation = if (ℓ.reclaimed key).isSome then 1 else 0
  references : e.references = if (ℓ.reclaimed key).isSome then 0 else ℓ.outstanding key
  shared : ℓ.reclaimed key = none → ∀ held ∈ ℓ.leases key, e.connection = some held.2.connection
  opening : (ℓ.opening key).isSome → e.connection = none

/-- What holds of the leases of a key, and of the acquire that opens its connection. -/
structure Held (ℓ : Ledger) (key : LeaseKey) : Prop where
  leases : ∀ held ∈ ℓ.leases key,
    held.2.key = key ∧ held.2.generation = 0 ∧ held.1 < ℓ.count
  opening : ∀ o, ℓ.opening key = some o → o.2.key = key ∧ o.2.generation = 0 ∧ o.1 < ℓ.count
  /-- Only the references of an ended thread are taken, and it has acquired nothing since. -/
  reclaimed : ∀ number, ℓ.reclaimed key = some number →
    (∃ thread, key.thread = some thread ∧ thread ∈ ℓ.pool.manager.ended)
      ∧ (∀ held ∈ ℓ.leases key, held.1 < number) ∧ ∀ o, ℓ.opening key = some o → o.1 < number

/-- What holds of a key. -/
structure Sound (ℓ : Ledger) (key : LeaseKey) : Prop where
  held : ℓ.Held key
  /-- A closing waits for an entry without references. -/
  closing : ∀ c ∈ ℓ.pool.manager.closings, c.key = key →
    ∃ e, ℓ.pool.manager.find? key = some e ∧ e.references = 0
  /-- Without an entry nobody holds a reference that was not taken. -/
  absent : ℓ.pool.manager.find? key = none → ℓ.reclaimed key = none → ℓ.outstanding key = 0
  present : ∀ e, ℓ.pool.manager.find? key = some e → ℓ.Present key e

/-- What holds of a key whose entry is there. -/
theorem sound_of_present (hheld : ℓ.Held key) (hfind : ℓ.pool.manager.find? key = some e)
    (hclosing : ∀ c ∈ ℓ.pool.manager.closings, c.key = key → e.references = 0)
    (hp : ℓ.Present key e) : ℓ.Sound key where
  held := hheld
  closing c hc hck := ⟨e, hfind, hclosing c hc hck⟩
  absent habsent := by
    rw [hfind] at habsent
    cases habsent
  present e' he' := by
    rw [hfind] at he'
    rw [← Option.some.inj he']
    exact hp

/-- Events are counted, and threads that ended stay so. -/
structure Onward (ℓ ℓ' : Ledger) : Prop where
  count : ℓ.count ≤ ℓ'.count
  ended : ℓ.pool.manager.ended ⊆ ℓ'.pool.manager.ended

/-- Nothing happens to the key itself. -/
structure Untouched (ℓ ℓ' : Ledger) (key : LeaseKey) : Prop where
  entry : ℓ'.pool.manager.find? key = ℓ.pool.manager.find? key
  closings : ∀ c ∈ ℓ'.pool.manager.closings, c.key = key → c ∈ ℓ.pool.manager.closings
  leases : ℓ'.leases key = ℓ.leases key
  opening : ℓ'.opening key = ℓ.opening key
  reclaimed : ℓ'.reclaimed key = ℓ.reclaimed key

/-- Fewer leases of a key, and the acquire that opens its connection at most. -/
theorem Held.mono (h : ℓ.Held key) (o : Onward ℓ ℓ') (hleases : ℓ'.leases key ⊆ ℓ.leases key)
    (hopening : ∀ x, ℓ'.opening key = some x → ℓ.opening key = some x)
    (hreclaimed : ℓ'.reclaimed key = ℓ.reclaimed key) : ℓ'.Held key := by
  constructor
  · intro held hheld
    obtain ⟨hkey, hgeneration, hnumber⟩ := h.leases held (hleases hheld)
    exact ⟨hkey, hgeneration, Nat.lt_of_lt_of_le hnumber o.count⟩
  · intro x hx
    obtain ⟨hkey, hgeneration, hnumber⟩ := h.opening x (hopening x hx)
    exact ⟨hkey, hgeneration, Nat.lt_of_lt_of_le hnumber o.count⟩
  · intro number hnumber
    rw [hreclaimed] at hnumber
    obtain ⟨⟨thread, hthread, hended⟩, hbefore, hbefore'⟩ := h.reclaimed number hnumber
    exact ⟨⟨thread, hthread, o.ended hended⟩, fun held hheld => hbefore held (hleases hheld),
      fun x hx => hbefore' x (hopening x hx)⟩

/-- An event leaves the facts alone for all keys it is not about. -/
theorem Sound.untouched (h : ℓ.Sound key) (o : Onward ℓ ℓ') (u : Untouched ℓ ℓ' key) :
    ℓ'.Sound key := by
  have hout : ℓ'.outstanding key = ℓ.outstanding key := by
    unfold outstanding
    rw [u.leases, u.opening]
  constructor
  · refine h.held.mono o ?_ ?_ u.reclaimed
    · rw [u.leases]
      exact List.Subset.refl _
    · rw [u.opening]
      exact fun _ hx => hx
  · intro c hc hkey
    rw [u.entry]
    exact h.closing c (u.closings c hc hkey) hkey
  · rw [u.entry, u.reclaimed, hout]
    exact h.absent
  · intro e he
    rw [u.entry] at he
    have hp := h.present e he
    constructor
    · rw [u.reclaimed]
      exact hp.generation
    · rw [u.reclaimed, hout]
      exact hp.references
    · rw [u.reclaimed, u.leases]
      exact hp.shared
    · rw [u.opening]
      exact hp.opening

/-! ## What an event does to the other keys -/

theorem onward_of_alike (hcount : ℓ.count ≤ ℓ'.count)
    (h : Alike ℓ.pool.manager ℓ'.pool.manager) : Onward ℓ ℓ' where
  count := hcount
  ended := by rw [h.ended]; exact List.Subset.refl _

/-- A step that leaves the entry of a key alone, and queues no closing for it. -/
theorem untouched_proceed {pool : Pool}
    (hentry : pool.manager.find? key = ℓ.pool.manager.find? key)
    (hclosings : ∀ c ∈ pool.manager.closings, c.key = key → c ∈ ℓ.pool.manager.closings) :
    Untouched ℓ (ℓ.proceed pool) key where
  entry := hentry
  closings := hclosings
  leases := rfl
  opening := rfl
  reclaimed := rfl

end Ledger

end RowMapper
