import RowMapper.Proofs.Lease.Account

/-!
# A reference is given back

A lease that is given back, and a connect that failed, give back the reference that an acquire
added. If a sweep took it before, nothing happens. Otherwise the count drops by one; with the last
reference gone the entry is to be closed after the grace period.
-/

namespace RowMapper

namespace Ledger

variable {ℓ ℓ' : Ledger} {key : LeaseKey} {e : LeaseEntry}

/-- One of the leases of a key, or the acquire that opens its connection, gives its reference
back. -/
structure Leaves (ℓ ℓ' : Ledger) (key : LeaseKey) : Prop where
  onward : Onward ℓ ℓ'
  manager : ℓ'.pool.manager = (ℓ.pool.manager.leave key 0).1
  leases : ℓ'.leases key ⊆ ℓ.leases key
  opening : ∀ o, ℓ'.opening key = some o → ℓ.opening key = some o
  outstanding : ℓ'.outstanding key + 1 = ℓ.outstanding key
  reclaimed : ℓ'.reclaimed key = ℓ.reclaimed key

/-- The references were taken before: nothing is given back. -/
theorem Sound.leaves_of_stale (h : ℓ.Sound key) (l : Leaves ℓ ℓ' key)
    (hstale : ∀ e, ℓ.pool.manager.find? key = some e → (ℓ.reclaimed key).isSome) :
    ℓ'.Sound key := by
  -- a lease is of generation 0, and the entry by now of generation 1
  have hmanager : ℓ'.pool.manager = ℓ.pool.manager := by
    rw [l.manager, LeaseManager.leave_of_stale]
    intro e he
    rw [(h.present e he).generation, if_pos (hstale e he)]
    exact Nat.one_ne_zero
  constructor
  · exact h.held.mono l.onward l.leases l.opening l.reclaimed
  · rw [hmanager]
    exact h.closing
  · rw [hmanager, l.reclaimed]
    intro habsent hnone
    have hzero := h.absent habsent hnone
    have hone := l.outstanding
    omega
  · rw [hmanager]
    intro e he
    have hp := h.present e he
    have hsome := hstale e he
    have hgeneration := hp.generation
    have hreferences := hp.references
    rw [← l.reclaimed] at hsome hgeneration hreferences
    rw [if_pos hsome] at hreferences
    refine { generation := hgeneration, references := ?_, shared := ?_, opening := ?_ }
    · rw [if_pos hsome]
      exact hreferences
    · intro hnone
      rw [hnone] at hsome
      cases hsome
    · intro hopening
      obtain ⟨o, ho⟩ := Option.isSome_iff_exists.1 hopening
      exact hp.opening (Option.isSome_iff_exists.2 ⟨o, l.opening o ho⟩)

/-- What an entry has that no sweep took the references of, before one of them is given back. -/
structure Leaving (ℓ ℓ' : Ledger) (key : LeaseKey) (e : LeaseEntry) : Prop where
  entry : ℓ.pool.manager.find? key = some e
  leaves : Leaves ℓ ℓ' key
  held : ℓ'.Held key
  reclaimed : ℓ'.reclaimed key = none
  generation : e.generation = 0
  references : e.references = ℓ'.outstanding key + 1
  shared : ∀ held ∈ ℓ'.leases key, e.connection = some held.2.connection
  opening : (ℓ'.opening key).isSome → e.connection = none
  /-- No closing waits for an entry with references. -/
  closing : ∀ c ∈ ℓ.pool.manager.closings, c.key ≠ key

/-- What an entry has that counts the reference which is given back. -/
theorem Sound.leaving (h : ℓ.Sound key) (l : Leaves ℓ ℓ' key)
    (he : ℓ.pool.manager.find? key = some e) (hnone : ℓ.reclaimed key = none) :
    Leaving ℓ ℓ' key e := by
  have hp := h.present e he
  have hgeneration := hp.generation
  have hreferences := hp.references
  simp only [hnone, Option.isSome_none, Bool.false_eq_true, ↓reduceIte] at hgeneration hreferences
  have hone := l.outstanding
  refine
    { entry := he, leaves := l, held := h.held.mono l.onward l.leases l.opening l.reclaimed
      reclaimed := by rw [l.reclaimed, hnone], generation := hgeneration, references := by omega
      shared := fun held hmem => hp.shared hnone held (l.leases hmem), opening := fun hsome => ?_
      closing := fun c hc hck => ?_ }
  · obtain ⟨o, ho⟩ := Option.isSome_iff_exists.1 hsome
    exact hp.opening (Option.isSome_iff_exists.2 ⟨o, l.opening o ho⟩)
  · obtain ⟨e', he', hzero⟩ := h.closing c hc hck
    rw [he] at he'
    obtain rfl := Option.some.inj he'
    omega

/-- The last reference is given back: the entry is to be closed. -/
theorem Leaving.sound_of_last (l : Leaving ℓ ℓ' key e) (hlast : e.references ≤ 1) :
    ℓ'.Sound key := by
  have hek := LeaseManager.key_of_find? l.entry
  have hone := l.references
  have hmanager : ℓ'.pool.manager = (ℓ.pool.manager.schedule e).1 := by
    rw [l.leaves.manager, ← l.generation, LeaseManager.leave_of_last l.entry hlast]
  have hfind : ℓ'.pool.manager.find? key
      = some { e with references := 0, releasedAt := some ℓ.pool.manager.now } := by
    rw [hmanager, LeaseManager.find?_schedule, if_pos hek.symm]
  refine sound_of_present l.held hfind (fun _ _ _ => rfl)
    { generation := ?_, references := ?_, shared := fun _ => l.shared, opening := l.opening }
  · rw [l.reclaimed]
    exact l.generation
  · -- the one reference there was is gone
    rw [l.reclaimed]
    show 0 = ℓ'.outstanding key
    omega

/-- Others still use the entry. -/
theorem Leaving.sound_of_shared (l : Leaving ℓ ℓ' key e) (hshared : 1 < e.references) :
    ℓ'.Sound key := by
  have hek := LeaseManager.key_of_find? l.entry
  have hone := l.references
  have hmanager : ℓ'.pool.manager
      = ℓ.pool.manager.put { e with references := e.references - 1 } := by
    rw [l.leaves.manager, ← l.generation, LeaseManager.leave_of_shared l.entry hshared]
  have hfind : ℓ'.pool.manager.find? key
      = some { e with references := e.references - 1 } := by
    rw [hmanager, LeaseManager.find?_put, if_pos hek.symm]
  refine sound_of_present l.held hfind (fun c hc hck => ?_) ?_
  · rw [hmanager, LeaseManager.closings_put] at hc
    exact absurd hck (l.closing c hc)
  · refine
      { generation := ?_, references := ?_, shared := fun _ => l.shared, opening := l.opening }
    · rw [l.reclaimed]
      exact l.generation
    · rw [l.reclaimed]
      show e.references - 1 = ℓ'.outstanding key
      omega

/-- Whoever gives a reference back, the facts about its key hold. -/
theorem Sound.leaves (h : ℓ.Sound key) (l : Leaves ℓ ℓ' key) : ℓ'.Sound key := by
  by_cases hstale : ∀ e, ℓ.pool.manager.find? key = some e → (ℓ.reclaimed key).isSome
  · exact h.leaves_of_stale l hstale
  obtain ⟨e, he, hnone⟩ : ∃ e, ℓ.pool.manager.find? key = some e ∧ ℓ.reclaimed key = none := by
    simpa using hstale
  have hleaving := h.leaving l he hnone
  by_cases hlast : e.references ≤ 1
  · exact hleaving.sound_of_last hlast
  · exact hleaving.sound_of_shared (by omega)

theorem sound_release {held : Nat × Lease} (h : ℓ.Sound held.2.key)
    (allowed : ℓ.Allows (.release held)) : (ℓ.after (.release held)).Sound held.2.key := by
  have hmem : held ∈ ℓ.leases held.2.key := allowed
  obtain ⟨-, hgeneration, -⟩ := h.held.leases held hmem
  have hleases : (ℓ.after (.release held)).leases held.2.key
      = (ℓ.leases held.2.key).erase held := Function.update_self _ _ _
  refine h.leaves
    { onward := onward_of_alike (Nat.le_succ _) (LeaseManager.alike_leave _ _ _), manager := ?_
      leases := ?_, opening := fun _ ho => ho, outstanding := ?_, reclaimed := rfl }
  · show (ℓ.pool.manager.leave held.2.key held.2.generation).1 = _
    rw [hgeneration]
  · rw [hleases]
    exact List.erase_subset
  · unfold outstanding
    rw [hleases, List.length_erase_of_mem hmem]
    show (ℓ.leases held.2.key).length - 1 + (ℓ.opening held.2.key).toList.length + 1 = _
    have hpos := List.length_pos_of_mem hmem
    omega

theorem untouched_release {held : Nat × Lease} (hkey : key ≠ held.2.key) :
    Untouched ℓ (ℓ.after (.release held)) key := by
  have u : Untouched ℓ (ℓ.proceed (ℓ.pool.release held.2).1) key :=
    untouched_proceed (LeaseManager.find?_leave_of_ne hkey _)
      fun _ hc hck => (LeaseManager.mem_closings_leave_of_ne (hck ▸ hkey) _).1 hc
  exact { u with leases := Function.update_of_ne hkey _ _ }

end Ledger

end RowMapper
