import RowMapper.Proofs.Lease.Connections
import RowMapper.Proofs.Lease.Elapsing
import RowMapper.Proofs.Lease.Steps

/-!
# Operations are events

What a pool offers is made of the events of its ledger: an acquire is its two halves, and time that
passes is a sequence of waits, closings and background sweeps. So whatever is done with a pool, its
ledger stays among those that are reached (`Pool.Operated.ledger`).
-/

namespace RowMapper

namespace Ledger

variable {ℓ : Ledger} {key : LeaseKey}

/-! ## Acquires -/

/-- What becomes of a ledger when an acquire comes to its end. -/
theorem after_conclude {number : Nat} {o : Opening} (ho : ℓ.opening key = some (number, o)) :
    (ℓ.after (.conclude key)).pool = (ℓ.pool.conclude o).2
      ∧ (ℓ.after (.conclude key)).opening = Function.update ℓ.opening key none
      ∧ (ℓ.after (.conclude key)).leases = match (ℓ.pool.conclude o).1.toOption with
        | some lease => Function.update ℓ.leases key ((number, lease) :: ℓ.leases key)
        | none => ℓ.leases := by
  cases hconclude : ℓ.pool.conclude o with
  | mk result pool =>
    cases result with
    | ok lease =>
      rw [after_conclude_of_ok ho hconclude]
      exact ⟨rfl, rfl, rfl⟩
    | error cause =>
      rw [after_conclude_of_error ho hconclude]
      exact ⟨rfl, rfl, rfl⟩

/-- An acquire of the pool is its two halves, and the lease that it gives is in the books. -/
theorem Reached.acquire (h : Reached ℓ) {thread : ThreadId} {url : ConnectionString}
    (hkey : ℓ.pool.manager.keyOf thread url = key) (allowed : ℓ.Allows (.enter thread url)) :
    ∃ ℓ', Reached ℓ' ∧ ℓ'.pool = (ℓ.pool.acquire thread url).pool ∧ ℓ'.opening = ℓ.opening
      ∧ ℓ'.leases = match (ℓ.pool.acquire thread url).outcome.toOption with
        | some lease => Function.update ℓ.leases key ((ℓ.count, lease) :: ℓ.leases key)
        | none => ℓ.leases := by
  subst hkey
  cases hgot : ℓ.pool.enter thread url with
  | mk got pool =>
    cases got with
    | inl lease =>
      obtain ⟨houtcome, hpool⟩ := Pool.acquire_of_shared hgot
      have hentered := h.step allowed
      rw [after_enter_of_shared hgot] at hentered
      refine ⟨_, hentered, hpool.symm, rfl, ?_⟩
      rw [houtcome]
      rfl
    | inr o =>
      -- the call is two events with nothing in between: the acquire is entered and concluded
      obtain ⟨houtcome, hpool⟩ := Pool.acquire_of_opening hgot
      obtain ⟨ℓ₁, hℓ₁⟩ : ∃ ℓ₁, ℓ.after (.enter thread url) = ℓ₁ := ⟨_, rfl⟩
      have hentered := h.step allowed
      rw [hℓ₁] at hentered
      rw [after_enter_of_opening hgot] at hℓ₁
      obtain ⟨-, hnone⟩ := allowed
      generalize ℓ.pool.manager.keyOf thread url = key at *
      have hopening : ℓ₁.opening = Function.update ℓ.opening key (some (ℓ.count, o)) := by
        rw [← hℓ₁]
      have hbefore : ℓ₁.pool = pool ∧ ℓ₁.leases = ℓ.leases := by
        rw [← hℓ₁]
        exact ⟨rfl, rfl⟩
      have hopened : ℓ₁.opening key = some (ℓ.count, o) := by
        rw [hopening, Function.update_self]
      have hconcluding : ℓ₁.Allows (.conclude key) := Option.isSome_iff_exists.2 ⟨_, hopened⟩
      obtain ⟨hpool', hopening', hleases'⟩ := after_conclude hopened
      rw [hbefore.1] at hpool' hleases'
      refine ⟨_, hentered.step hconcluding, hpool'.trans hpool.symm, ?_, ?_⟩
      · rw [hopening', hopening, Function.update_idem, ← hnone, Function.update_eq_self]
      · rw [hleases', hbefore.2, houtcome]

end Ledger

/-! ## What is done with a pool -/

namespace Pool

/-- A pool after operations that do not overlap, with the leases that are alive and the connections
that are kept apart from them. -/
inductive Operated (origin : Network) : Pool → List Lease → List Connection → Prop where
  | new (config : LeaseConfig) (hasRuntime : Bool) :
      Operated origin { manager := { config, hasRuntime }, network := origin } [] []
  | acquire {p : Pool} {held : List Lease} {kept : List Connection}
      (before : Operated origin p held kept) {thread : ThreadId}
      (runs : thread ∉ p.manager.ended) (url : ConnectionString) :
      Operated origin (p.acquire thread url).pool
        ((p.acquire thread url).outcome.toOption.toList ++ held) kept
  | release {p : Pool} {held : List Lease} {kept : List Connection}
      (before : Operated origin p held kept) {lease : Lease} (alive : lease ∈ held) :
      Operated origin (p.release lease).1 (held.erase lease) kept
  | hold {p : Pool} {held : List Lease} {kept : List Connection}
      (before : Operated origin p held kept) {c : Connection} (used : c ∈ p.inUse) :
      Operated origin (p.hold c) held (c :: kept)
  | unhold {p : Pool} {held : List Lease} {kept : List Connection}
      (before : Operated origin p held kept) {c : Connection} (mem : c ∈ kept) :
      Operated origin (p.unhold c) held (kept.erase c)
  | run {p : Pool} {held : List Lease} {kept : List Connection}
      (before : Operated origin p held kept) (lease : Lease) (statement : Statement) :
      Operated origin (p.run lease statement).2.1 held kept
  | sweep {p : Pool} {held : List Lease} {kept : List Connection}
      (before : Operated origin p held kept) : Operated origin p.sweep.2.1 held kept
  | sleep {p : Pool} {held : List Lease} {kept : List Connection}
      (before : Operated origin p held kept) (milliseconds : Nat) :
      Operated origin (p.sleep milliseconds).1 held kept
  | exit {p : Pool} {held : List Lease} {kept : List Connection}
      (before : Operated origin p held kept) (thread : ThreadId) :
      Operated origin { p with manager := p.manager.endThread thread } held kept
  | outside {p : Pool} {held : List Lease} {kept : List Connection}
      (before : Operated origin p held kept) {network : Network}
      (keeps : p.network.Keeps network) : Operated origin { p with network } held kept

end Pool

namespace Ledger

variable {ℓ : Ledger} {held : List Lease}

/-- The books agree with a list of the leases that are alive, and no acquire is under way. -/
structure Records (ℓ : Ledger) (held : List Lease) : Prop where
  reached : Reached ℓ
  opening : ∀ key, ℓ.opening key = none
  leases : ∀ key, (held.filter (·.key == key)).Perm ((ℓ.leases key).map (·.2))

theorem Records.acquire (h : ℓ.Records held) {thread : ThreadId}
    (runs : thread ∉ ℓ.pool.manager.ended) (url : ConnectionString) :
    ∃ ℓ' : Ledger, ℓ'.pool = (ℓ.pool.acquire thread url).pool
      ∧ ℓ'.Records ((ℓ.pool.acquire thread url).outcome.toOption.toList ++ held) := by
  have allowed : ℓ.Allows (.enter thread url) := ⟨runs, h.opening _⟩
  obtain ⟨ℓ', hreached, hpool, hopening, hleases⟩ := h.reached.acquire rfl allowed
  refine ⟨ℓ', hpool, hreached, fun key => by rw [hopening, h.opening key], fun key => ?_⟩
  cases hgot : (ℓ.pool.acquire thread url).outcome.toOption with
  | none =>
    rw [hleases, hgot]
    exact h.leases key
  | some lease =>
    rw [hgot] at hleases
    have hleases' : ℓ'.leases = Function.update ℓ.leases (ℓ.pool.manager.keyOf thread url)
      ((ℓ.count, lease) :: ℓ.leases (ℓ.pool.manager.keyOf thread url)) := hleases
    -- the books are sound, so the new lease is one of the key it was asked for
    have hlease : lease.key = ℓ.pool.manager.keyOf thread url := by
      have hsound := hreached.balanced.sound (ℓ.pool.manager.keyOf thread url)
      refine (hsound.held.leases (ℓ.count, lease) ?_).1
      rw [hleases', Function.update_self]
      exact List.mem_cons_self
    rw [hleases']
    show ((lease :: held).filter _).Perm _
    rw [List.filter_cons]
    -- its key gets one more, and the leases of the others are as before
    by_cases hkey : key = ℓ.pool.manager.keyOf thread url
    · subst hkey
      rw [if_pos (by simpa using hlease), Function.update_self]
      exact (h.leases _).cons lease
    · have hother : lease.key ≠ key := fun h => hkey (h.symm.trans hlease)
      rw [if_neg (by simpa using hother), Function.update_of_ne hkey]
      exact h.leases key

theorem Records.release (h : ℓ.Records held) {lease : Lease} (alive : lease ∈ held) :
    ∃ ℓ' : Ledger, ℓ'.pool = (ℓ.pool.release lease).1 ∧ ℓ'.Records (held.erase lease) := by
  have hfiltered : lease ∈ held.filter (·.key == lease.key) :=
    List.mem_filter.2 ⟨alive, beq_self_eq_true _⟩
  -- the books have the lease as well, under the number of its acquire
  obtain ⟨⟨number, l⟩, hmem, hl⟩ := List.mem_map.1 ((h.leases lease.key).mem_iff.1 hfiltered)
  obtain rfl : l = lease := hl
  have allowed : ℓ.Allows (.release (number, l)) := hmem
  refine ⟨ℓ.after (.release (number, l)), rfl, h.reached.step allowed, h.opening, fun key => ?_⟩
  have hheld := (List.perm_cons_erase alive).filter (·.key == key)
  rw [List.filter_cons] at hheld
  by_cases hkey : key = l.key
  · subst hkey
    rw [if_pos (beq_self_eq_true _)] at hheld
    have hleases := (List.perm_cons_erase hmem).map (·.2)
    rw [List.map_cons] at hleases
    have hafter : (ℓ.after (.release (number, l))).leases l.key
        = (ℓ.leases l.key).erase (number, l) := Function.update_self _ _ _
    rw [hafter]
    exact (hheld.symm.trans ((h.leases l.key).trans hleases)).cons_inv
  · have hother : l.key ≠ key := fun h => hkey h.symm
    rw [if_neg (by simpa using hother)] at hheld
    have hafter : (ℓ.after (.release (number, l))).leases key = ℓ.leases key :=
      Function.update_of_ne hkey _ _
    rw [hafter]
    exact hheld.symm.trans (h.leases key)

/-- Time that passes leaves the leases alone. -/
theorem Records.elapses (h : ℓ.Records held) {q : Pool} (elapses : Pool.Elapses ℓ.pool q) :
    ∃ ℓ' : Ledger, ℓ'.pool = q ∧ ℓ'.Records held := by
  induction elapses with
  | here => exact ⟨ℓ, rfl, h⟩
  | wait _ later punctual ih =>
    obtain ⟨ℓ', rfl, h'⟩ := ih
    have allowed : ℓ'.Allows (.wait _) := ⟨later, punctual⟩
    exact ⟨_, rfl, h'.reached.step allowed, h'.opening, h'.leases⟩
  | sweep _ ih =>
    obtain ⟨ℓ', rfl, h'⟩ := ih
    have allowed : ℓ'.Allows .sweep := trivial
    exact ⟨_, rfl, h'.reached.step allowed, h'.opening, h'.leases⟩
  | close _ due ih =>
    obtain ⟨ℓ', rfl, h'⟩ := ih
    have allowed : ℓ'.Allows (.close _) := due
    exact ⟨_, rfl, h'.reached.step allowed, h'.opening, h'.leases⟩

end Ledger

/-- However a pool is operated, there are books that agree with it. -/
theorem Pool.Operated.ledger {origin : Network} {p : Pool} {held : List Lease}
    {kept : List Connection} (h : Pool.Operated origin p held kept) :
    ∃ ℓ : Ledger, ℓ.pool = p ∧ ℓ.Records held := by
  -- connections that are kept, statements and servers are nothing to the books
  have houtside {ℓ : Ledger} {held : List Lease} (hrecords : ℓ.Records held) (network : Network)
      (inUse : List Connection) :
      ∃ ℓ' : Ledger, ℓ'.pool = { ℓ.pool with network, inUse } ∧ ℓ'.Records held := by
    have allowed : ℓ.Allows (.outside network inUse) := trivial
    exact ⟨_, rfl, hrecords.reached.step allowed, hrecords.opening, hrecords.leases⟩
  -- by what was done with the pool: the books before it take one or two events more
  induction h with
  | new config hasRuntime =>
    exact ⟨_, rfl, .fresh config hasRuntime origin, fun _ => rfl, fun _ => .refl _⟩
  | acquire _ runs url ih =>
    obtain ⟨ℓ, rfl, hrecords⟩ := ih
    exact hrecords.acquire runs url
  | release _ alive ih =>
    obtain ⟨ℓ, rfl, hrecords⟩ := ih
    exact hrecords.release alive
  | hold _ _ ih =>
    obtain ⟨ℓ, rfl, hrecords⟩ := ih
    exact houtside hrecords _ _
  | unhold _ _ ih =>
    obtain ⟨ℓ, rfl, hrecords⟩ := ih
    exact houtside hrecords _ _
  | run _ _ _ ih =>
    obtain ⟨ℓ, rfl, hrecords⟩ := ih
    exact houtside hrecords _ _
  | sweep _ ih =>
    obtain ⟨ℓ, rfl, hrecords⟩ := ih
    exact hrecords.elapses (.sweep .here)
  | sleep _ milliseconds ih =>
    obtain ⟨ℓ, rfl, hrecords⟩ := ih
    have hbalanced := hrecords.reached.balanced
    exact hrecords.elapses (Pool.elapses_sleep hbalanced.ordered hbalanced.timely milliseconds)
  | exit _ thread ih =>
    obtain ⟨ℓ, rfl, hrecords⟩ := ih
    have allowed : ℓ.Allows (.exit thread) := trivial
    exact ⟨_, rfl, hrecords.reached.step allowed, hrecords.opening, hrecords.leases⟩
  | outside _ _ ih =>
    obtain ⟨ℓ, rfl, hrecords⟩ := ih
    exact houtside hrecords _ _

end RowMapper
