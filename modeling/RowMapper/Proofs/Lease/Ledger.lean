import Mathlib.Logic.Function.Basic
import RowMapper.Proofs.Lease.Halves

/-!
# Ledgers of leases

A pool together with what its users hold: the leases that are alive, and the acquires that still
open a connection, of which a key has one at most. The ledger numbers the events that happen to
the pool and keeps, beside the pool, which sweep last took the references of a key. None of this is
read off the entries except the number of references.
-/

namespace RowMapper

/-- A pool, what its users hold of it, and when their references were taken. -/
structure Ledger where
  pool : Pool
  /-- The number of events up to now, which is the number of the next one. -/
  count : Nat := 0
  /-- The live leases of a key, each with the number of the event that added its reference. -/
  leases : LeaseKey → List (Nat × Lease) := fun _ => []
  /-- The acquire of a key that opens a connection, numbered in the same way. -/
  opening : LeaseKey → Option (Nat × Opening) := fun _ => none
  /-- The number of the last sweep that took the references of a key. -/
  reclaimed : LeaseKey → Option Nat := fun _ => none

namespace Ledger

/-- The ledger of a new manager. -/
def fresh (config : LeaseConfig) (hasRuntime : Bool) (network : Network) : Ledger :=
  { pool := { manager := { config, hasRuntime }, network } }

/-- The references to a key, as the manager tells them. -/
def references (ℓ : Ledger) (key : LeaseKey) : Nat := ℓ.pool.manager.references key

/-- One thing that happens to a pool. -/
inductive Event where
  /-- A thread starts to acquire. -/
  | enter (thread : ThreadId) (url : ConnectionString)
  /-- The acquire of a key that opens a connection comes to its end. -/
  | conclude (key : LeaseKey)
  /-- A lease is given back. -/
  | release (held : Nat × Lease)
  /-- The references of ended threads are taken. -/
  | sweep
  | exit (thread : ThreadId)
  | wait (time : Nat)
  /-- A closing that is due is carried out. -/
  | close (key : LeaseKey)
  /-- Servers change, statements run, connections are kept or let go apart from leases. -/
  | outside (network : Network) (inUse : List Connection)

/-- What can happen. Acquires of one key do not overlap and an ended thread acquires no more; only
what is held is given back; time does not pass a closing that waits. -/
def Allows (ℓ : Ledger) : Event → Prop
  | .enter thread url =>
    thread ∉ ℓ.pool.manager.ended ∧ ℓ.opening (ℓ.pool.manager.keyOf thread url) = none
  | .conclude key => (ℓ.opening key).isSome
  | .release held => held ∈ ℓ.leases held.2.key
  | .wait time => ℓ.pool.manager.now ≤ time ∧ ∀ c ∈ ℓ.pool.manager.closings, time ≤ c.due
  | .close key => ∃ c ∈ ℓ.pool.manager.closings, c.key = key ∧ c.due ≤ ℓ.pool.manager.now
  | .sweep | .exit _ | .outside _ _ => True

instance (ℓ : Ledger) : (event : Event) → Decidable (ℓ.Allows event)
  | .enter _ _ => inferInstanceAs (Decidable (_ ∧ _))
  | .conclude key => inferInstanceAs (Decidable ((ℓ.opening key).isSome = true))
  | .release held => inferInstanceAs (Decidable (held ∈ ℓ.leases held.2.key))
  | .wait _ => inferInstanceAs (Decidable (_ ∧ _))
  | .close key => inferInstanceAs
    (Decidable (∃ c ∈ ℓ.pool.manager.closings, c.key = key ∧ c.due ≤ ℓ.pool.manager.now))
  | .sweep | .exit _ | .outside _ _ => inferInstanceAs (Decidable True)

/-- The pool changes with the next event. -/
def proceed (ℓ : Ledger) (pool : Pool) : Ledger := { ℓ with pool, count := ℓ.count + 1 }

/-- A lease goes with the reference that was added under a number. -/
def lend (ℓ : Ledger) (key : LeaseKey) (number : Nat) (lease : Lease) : Ledger :=
  { ℓ with leases := Function.update ℓ.leases key ((number, lease) :: ℓ.leases key) }

/-- An event happens. -/
def after (ℓ : Ledger) : Event → Ledger
  | .enter thread url =>
    let key := ℓ.pool.manager.keyOf thread url
    match ℓ.pool.enter thread url with
    | (.inl lease, pool) => (ℓ.proceed pool).lend key ℓ.count lease
    | (.inr o, pool) =>
      { ℓ.proceed pool with opening := Function.update ℓ.opening key (some (ℓ.count, o)) }
  | .conclude key =>
    match ℓ.opening key with
    | none => ℓ
    | some (number, o) =>
      let opening := Function.update ℓ.opening key none
      match ℓ.pool.conclude o with
      | (.ok lease, pool) => { ℓ.proceed pool with opening }.lend key number lease
      | (.error _, pool) => { ℓ.proceed pool with opening }
  | .release held =>
    let key := held.2.key
    { ℓ.proceed (ℓ.pool.release held.2).1 with
      leases := Function.update ℓ.leases key ((ℓ.leases key).erase held) }
  | .sweep =>
    let ℓ' := ℓ.proceed ℓ.pool.sweep.2.1
    { ℓ' with
      reclaimed := fun key =>
        if 0 < ℓ.references key ∧ ℓ'.references key = 0 then some ℓ.count else ℓ.reclaimed key }
  | .exit thread => ℓ.proceed { ℓ.pool with manager := ℓ.pool.manager.endThread thread }
  | .wait time => ℓ.proceed { ℓ.pool with manager := { ℓ.pool.manager with now := time } }
  | .close key => ℓ.proceed (ℓ.pool.close key).1
  | .outside network inUse => ℓ.proceed { ℓ.pool with network, inUse }

/-- Events happen one after the other. -/
def afterAll (ℓ : Ledger) (events : List Event) : Ledger := events.foldl after ℓ

/-- Each of the events can happen when its turn comes. -/
def AllowsAll (ℓ : Ledger) : List Event → Prop
  | [] => True
  | event :: rest => ℓ.Allows event ∧ (ℓ.after event).AllowsAll rest

instance decidableAllowsAll (ℓ : Ledger) : (events : List Event) → Decidable (ℓ.AllowsAll events)
  | [] => inferInstanceAs (Decidable True)
  | event :: rest =>
    have := decidableAllowsAll (ℓ.after event) rest
    inferInstanceAs (Decidable (ℓ.Allows event ∧ (ℓ.after event).AllowsAll rest))

section

variable {ℓ : Ledger} {thread : ThreadId} {url : ConnectionString} {key : LeaseKey} {pool : Pool}
  {lease : Lease} {o : Opening} {number : Nat}

/-- An acquire that finds a connection is a lease at once. -/
theorem after_enter_of_shared (h : ℓ.pool.enter thread url = (.inl lease, pool)) :
    ℓ.after (.enter thread url)
      = (ℓ.proceed pool).lend (ℓ.pool.manager.keyOf thread url) ℓ.count lease := by
  simp only [after, h]

/-- An acquire that finds none is under way. -/
theorem after_enter_of_opening (h : ℓ.pool.enter thread url = (.inr o, pool)) :
    ℓ.after (.enter thread url)
      = { ℓ.proceed pool with
          opening := Function.update ℓ.opening (ℓ.pool.manager.keyOf thread url)
            (some (ℓ.count, o)) } := by
  simp only [after, h]

/-- What an acquire does, whether or not the connection is open. -/
theorem after_enter (ℓ : Ledger) (thread : ThreadId) (url : ConnectionString) :
    (ℓ.after (.enter thread url)).pool = (ℓ.pool.enter thread url).2
      ∧ (ℓ.after (.enter thread url)).count = ℓ.count + 1
      ∧ (ℓ.after (.enter thread url)).reclaimed = ℓ.reclaimed := by
  cases h : ℓ.pool.enter thread url with
  | mk got pool =>
    cases got with
    | inl lease =>
      rw [after_enter_of_shared h]
      exact ⟨rfl, rfl, rfl⟩
    | inr o =>
      rw [after_enter_of_opening h]
      exact ⟨rfl, rfl, rfl⟩

/-- A connection that is opened ends the acquire with a lease. -/
theorem after_conclude_of_ok (ho : ℓ.opening key = some (number, o))
    (h : ℓ.pool.conclude o = (.ok lease, pool)) :
    ℓ.after (.conclude key)
      = { ℓ.proceed pool with opening := Function.update ℓ.opening key none }.lend key number
          lease := by
  simp only [after, ho, h]

/-- A connect that fails ends the acquire without one. -/
theorem after_conclude_of_error {cause : ConnectError} (ho : ℓ.opening key = some (number, o))
    (h : ℓ.pool.conclude o = (.error cause, pool)) :
    ℓ.after (.conclude key)
      = { ℓ.proceed pool with opening := Function.update ℓ.opening key none } := by
  simp only [after, ho, h]

end

/-- The ledgers of a manager that started empty. -/
inductive Reached : Ledger → Prop where
  | fresh (config : LeaseConfig) (hasRuntime : Bool) (network : Network) :
      Reached (fresh config hasRuntime network)
  | step {ℓ : Ledger} (before : Reached ℓ) {event : Event} (allowed : ℓ.Allows event) :
      Reached (ℓ.after event)

variable {ℓ : Ledger}

/-- What events that can happen lead to is reached. -/
theorem Reached.afterAll (h : Reached ℓ) {events : List Event} (allowed : ℓ.AllowsAll events) :
    Reached (ℓ.afterAll events) := by
  induction events generalizing ℓ with
  | nil => exact h
  | cons event rest ih => exact ih (h.step allowed.1) allowed.2

end Ledger

end RowMapper
