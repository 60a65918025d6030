import RowMapper.Proofs.Lease.Steps
import RowMapper.Sample.Databases

/-!
# References balance

The references that a manager tells for a key are the live leases of the key that no sweep took the
reference of, and the acquire that still opens its connection. Giving one of these leases back
takes one reference away, so that the count never goes below zero; giving back one whose reference
was taken changes nothing, be its entry there or not.
-/

namespace RowMapper

namespace Ledger

variable {ℓ : Ledger} {key : LeaseKey} {e : LeaseEntry}

/-- A reference of this number was added after the last sweep that took those of the key. -/
def isCurrent (ℓ : Ledger) (key : LeaseKey) (number : Nat) : Bool :=
  (ℓ.reclaimed key).all (· < number)

/-- The live leases of a key that were acquired after the last sweep that took its references. -/
def current (ℓ : Ledger) (key : LeaseKey) : List (Nat × Lease) :=
  (ℓ.leases key).filter fun held => ℓ.isCurrent key held.1

/-- The acquire of a key that opens a connection, unless a sweep took its reference. -/
def arriving (ℓ : Ledger) (key : LeaseKey) : List (Nat × Opening) :=
  (ℓ.opening key).toList.filter fun o => ℓ.isCurrent key o.1

theorem isCurrent_of_none (h : ℓ.reclaimed key = none) (number : Nat) :
    ℓ.isCurrent key number = true := by
  unfold isCurrent
  rw [h]
  rfl

/-- Before the first sweep of a key, all its leases are current. -/
theorem current_of_none (h : ℓ.reclaimed key = none) : ℓ.current key = ℓ.leases key :=
  List.filter_eq_self.2 fun held _ => isCurrent_of_none h held.1

/-- Before the first sweep of a key, the acquire under way will be current. -/
theorem arriving_of_none (h : ℓ.reclaimed key = none) :
    ℓ.arriving key = (ℓ.opening key).toList :=
  List.filter_eq_self.2 fun o _ => isCurrent_of_none h o.1

/-- What was acquired before the sweep is current no more. -/
theorem isCurrent_eq_false {number r : Nat} (h : ℓ.reclaimed key = some r) (hr : number < r) :
    ℓ.isCurrent key number = false := by
  unfold isCurrent
  rw [h]
  have hr' : ¬r < number := by omega
  simpa using hr'

/-- Once a sweep took the references of a key, none of its leases is a current one. -/
theorem Sound.current_eq_nil (h : ℓ.Sound key) {r : Nat} (hr : ℓ.reclaimed key = some r) :
    ℓ.current key = [] ∧ ℓ.arriving key = [] := by
  obtain ⟨-, hleases, hopening⟩ := h.held.reclaimed r hr
  refine ⟨List.filter_eq_nil_iff.2 fun held hheld => ?_, List.filter_eq_nil_iff.2 fun o ho => ?_⟩
  · rw [isCurrent_eq_false hr (hleases held hheld)]
    exact Bool.false_ne_true
  · rw [isCurrent_eq_false hr (hopening o (Option.mem_toList.1 ho))]
    exact Bool.false_ne_true

/-- An entry counts the current leases, and the acquire that will be one. -/
theorem Sound.references_eq (h : ℓ.Sound key) :
    ℓ.references key = (ℓ.current key).length + (ℓ.arriving key).length := by
  cases hr : ℓ.reclaimed key with
  | some r =>
    -- once taken, the references count nothing, and no lease is current
    obtain ⟨hcurrent, harriving⟩ := h.current_eq_nil hr
    rw [hcurrent, harriving]
    cases he : ℓ.pool.manager.find? key with
    | none => exact LeaseManager.references_of_none he
    | some e =>
      rw [Ledger.references, LeaseManager.references_of_find? he, (h.present e he).references, hr]
      rfl
  | none =>
    rw [current_of_none hr, arriving_of_none hr]
    cases he : ℓ.pool.manager.find? key with
    | none =>
      rw [Ledger.references, LeaseManager.references_of_none he]
      exact (h.absent he hr).symm
    | some e =>
      rw [Ledger.references, LeaseManager.references_of_find? he, (h.present e he).references, hr]
      rfl

/-- A current lease refers to the connection of an entry. -/
theorem Sound.connection_of_current (h : ℓ.Sound key) {held : Nat × Lease}
    (hheld : held ∈ ℓ.current key) :
    ∃ e, ℓ.pool.manager.find? key = some e ∧ e.connection = some held.2.connection := by
  obtain ⟨hmem, hcurrent⟩ := List.mem_filter.1 hheld
  have hnone : ℓ.reclaimed key = none := by
    cases hr : ℓ.reclaimed key with
    | none => rfl
    | some r =>
      rw [(h.current_eq_nil hr).1] at hheld
      cases hheld
  cases he : ℓ.pool.manager.find? key with
  | none =>
    have hzero := h.absent he hnone
    have hpos := List.length_pos_of_mem hmem
    unfold outstanding at hzero
    omega
  | some e => exact ⟨e, rfl, (h.present e he).shared hnone held hmem⟩

/-- A current lease that is given back is one less. -/
theorem length_current_release {held : Nat × Lease} (hheld : held ∈ ℓ.current held.2.key) :
    ((ℓ.after (.release held)).current held.2.key).length + 1 = (ℓ.current held.2.key).length := by
  obtain ⟨hmem, hcurrent⟩ := List.mem_filter.1 hheld
  have hafter : (ℓ.after (.release held)).current held.2.key
      = ((ℓ.leases held.2.key).erase held).filter fun x => ℓ.isCurrent held.2.key x.1 :=
    congrArg (List.filter _) (Function.update_self _ _ _)
  have hperm := (List.perm_cons_erase hmem).filter fun x => ℓ.isCurrent held.2.key x.1
  rw [List.filter_cons, if_pos hcurrent] at hperm
  rw [hafter, ← List.length_cons, ← hperm.length_eq]
  rfl

/-- The references that a manager tells are exact. Giving a current lease back takes one of them,
giving another lease back changes nothing, and all current leases share one connection. -/
theorem references_eq_current (h : Reached ℓ) (key : LeaseKey) :
    ℓ.references key = (ℓ.current key).length + (ℓ.arriving key).length
      ∧ (∀ held ∈ ℓ.leases key, held.2.key = key
        ∧ if held ∈ ℓ.current key
          then (ℓ.after (.release held)).references key + 1 = ℓ.references key
          else (ℓ.pool.release held.2).1.manager = ℓ.pool.manager)
      ∧ ∀ held ∈ ℓ.current key, ∀ other ∈ ℓ.current key,
        held.2.connection = other.2.connection := by
  have hsound := h.balanced.sound key
  refine ⟨hsound.references_eq, fun held hheld => ?_, fun held hheld other hother => ?_⟩
  · obtain ⟨hkey, hgeneration, -⟩ := hsound.held.leases held hheld
    subst hkey
    refine ⟨rfl, ?_⟩
    split
    · rename_i hcurrent
      have hallowed : ℓ.Allows (.release held) := hheld
      have hafter := (h.step hallowed).balanced.sound held.2.key
      have harriving : (ℓ.after (.release held)).arriving held.2.key = ℓ.arriving held.2.key := rfl
      rw [hafter.references_eq, hsound.references_eq, harriving, ← length_current_release hcurrent]
      omega
    · rename_i hstale
      show (ℓ.pool.manager.leave held.2.key held.2.generation).1 = ℓ.pool.manager
      rw [LeaseManager.leave_of_stale]
      intro e he
      -- a lease that is no current one is older than a sweep that took the references
      have hsome : (ℓ.reclaimed held.2.key).isSome := by
        cases hr : ℓ.reclaimed held.2.key with
        | some r => rfl
        | none =>
          rw [current_of_none hr] at hstale
          exact absurd hheld hstale
      rw [(hsound.present e he).generation, if_pos hsome, hgeneration]
      exact Nat.one_ne_zero
  · obtain ⟨e, he, hconnection⟩ := hsound.connection_of_current hheld
    obtain ⟨e', he', hconnection'⟩ := hsound.connection_of_current hother
    rw [he] at he'
    obtain rfl := Option.some.inj he'
    exact Option.some.inj (hconnection.symm.trans hconnection')

/-- A thread has ended with two leases. A sweep takes their references; those of another thread,
acquired before the sweep and after it, stay, and so does the count when a connect fails. -/
theorem references_after_sweep :
    let gone : LeaseKey := ⟨"mock://staff/db", some 1⟩
    let stays : LeaseKey := ⟨"mock://staff/db", some 2⟩
    let ℓ := (fresh { grace := 50, sweep := 60 } true Company.network).afterAll
      [.enter 1 Company.staff, .conclude gone, .enter 1 Company.staff, .enter 2 Company.staff,
        .conclude stays, .exit 1, .sweep, .enter 2 Company.staff, .enter 2 Company.archive,
        .conclude ⟨"mock://archive/db", some 2⟩]
    Reached ℓ
      ∧ (ℓ.references stays = 2 ∧ (ℓ.leases stays).length = 2)
      ∧ (ℓ.references gone = 0 ∧ (ℓ.leases gone).length = 2)
      ∧ ∀ held ∈ ℓ.leases gone, (ℓ.pool.release held.2).1.manager = ℓ.pool.manager := by
  intro gone stays ℓ
  have hreached : Reached ℓ :=
    (Reached.fresh { grace := 50, sweep := 60 } true Company.network).afterAll (by decide +kernel)
  have hstays : (ℓ.current stays).length + (ℓ.arriving stays).length = 2 := by decide +kernel
  have hgone : ℓ.current gone = [] ∧ ℓ.arriving gone = [] := by decide +kernel
  have hheld : (ℓ.leases stays).length = 2 ∧ (ℓ.leases gone).length = 2 := by decide +kernel
  -- the run is not looked at any more
  clear_value ℓ
  obtain ⟨hcount, -⟩ := references_eq_current hreached stays
  obtain ⟨hzero, hleases, -⟩ := references_eq_current hreached gone
  rw [hgone.1, hgone.2] at hzero
  refine ⟨hreached, ⟨hcount.trans hstays, hheld.1⟩, ⟨hzero, hheld.2⟩, fun held hheld => ?_⟩
  have hstale : held ∉ ℓ.current gone := by
    rw [hgone.1]
    exact List.not_mem_nil
  have hrelease := (hleases held hheld).2
  rw [if_neg hstale] at hrelease
  exact hrelease

end Ledger

end RowMapper
