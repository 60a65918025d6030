import RowMapper.Proofs.Lease.Acquiring
import RowMapper.Proofs.Lease.Elapsing

/-!
# Every event keeps the books in order

Besides acquires and what is given back, a sweep takes the references of ended threads and a
closing that is due is carried out. Each event keeps what holds of the key it is about, and all
others are left alone. So it holds of every ledger that is reached (`Ledger.Reached.balanced`).
-/

namespace RowMapper

open LeaseManager (Alike Ordered)

namespace Ledger

variable {ℓ ℓ' : Ledger} {key : LeaseKey} {e : LeaseEntry}

/-! ## The references of ended threads are taken -/

/-- A key without references, or of a running thread. -/
theorem untouched_sweep (hordered : ℓ.pool.manager.Ordered)
    (hkept : ∀ e, ℓ.pool.manager.find? key = some e → ℓ.pool.manager.isOrphan e →
      e.references = 0) :
    Untouched ℓ (ℓ.after .sweep) key := by
  have hfind := LeaseManager.find?_sweep_of_kept hordered hkept
  have u : Untouched ℓ (ℓ.proceed ℓ.pool.sweep.2.1) key := by
    refine untouched_proceed hfind fun c hc hck => ?_
    subst hck
    exact (LeaseManager.mem_closings_sweep_of_kept hordered hkept).1 hc
  refine { u with reclaimed := ?_ }
  show (if 0 < ℓ.references key ∧ ℓ.pool.manager.sweep.2.1.references key = 0 then _ else _) = _
  rw [LeaseManager.references_eq_of_find? hfind]
  refine if_neg fun hboth => ?_
  have hzero : ℓ.references key = 0 := hboth.2
  omega

/-- An entry that counts references is of the time before any were taken. -/
theorem Present.reclaimed_eq_none (hp : ℓ.Present key e) (hpos : 0 < e.references) :
    ℓ.reclaimed key = none := by
  cases hreclaimed : ℓ.reclaimed key with
  | none => rfl
  | some number =>
    have hzero := hp.references
    rw [hreclaimed] at hzero
    exact absurd hzero (Nat.ne_of_gt hpos)

/-- The sweep notes that it took the references of an orphan. -/
theorem reclaimed_sweep_of_orphan (hordered : ℓ.pool.manager.Ordered)
    (he : ℓ.pool.manager.find? key = some e) (horphan : ℓ.pool.manager.isOrphan e)
    (hpos : 0 < e.references) : (ℓ.after .sweep).reclaimed key = some ℓ.count := by
  have hswept := LeaseManager.find?_sweep_of_orphan hordered he horphan hpos
  refine if_pos ⟨?_, ?_⟩
  · show 0 < ℓ.pool.manager.references key
    rw [LeaseManager.references_of_find? he]
    exact hpos
  · show ℓ.pool.manager.sweep.2.1.references key = 0
    rw [LeaseManager.references_of_find? hswept]
    rfl

/-- All leases of an orphan are older than the sweep, and so is its acquire. -/
theorem Held.sweep_of_orphan (h : ℓ.Held key) (hek : e.key = key)
    (horphan : ℓ.pool.manager.isOrphan e)
    (hreclaimed : (ℓ.after .sweep).reclaimed key = some ℓ.count) : (ℓ.after .sweep).Held key where
  leases held hheld :=
    have ⟨hk, hg, hn⟩ := h.leases held hheld
    ⟨hk, hg, Nat.lt_succ_of_lt hn⟩
  opening o ho :=
    have ⟨hk, hg, hn⟩ := h.opening o ho
    ⟨hk, hg, Nat.lt_succ_of_lt hn⟩
  reclaimed number hnumber := by
    rw [hreclaimed] at hnumber
    obtain rfl := Option.some.inj hnumber
    refine ⟨?_, fun held hheld => (h.leases held hheld).2.2, fun o ho => (h.opening o ho).2.2⟩
    show ∃ thread, key.thread = some thread ∧ thread ∈ ℓ.pool.manager.sweep.2.1.ended
    rw [(LeaseManager.alike_sweep ℓ.pool.manager).ended, ← hek]
    unfold LeaseManager.isOrphan at horphan
    obtain ⟨thread, hthread, hended⟩ := (Option.any_eq_true _ _).1 horphan
    exact ⟨thread, hthread, by simpa using hended⟩

/-- A sweep takes the references of an orphan, which belongs to the next generation from then on. -/
theorem sound_sweep_of_orphan (hordered : ℓ.pool.manager.Ordered) (h : ℓ.Sound key)
    (he : ℓ.pool.manager.find? key = some e) (horphan : ℓ.pool.manager.isOrphan e)
    (hpos : 0 < e.references) : (ℓ.after .sweep).Sound key := by
  have hp := h.present e he
  have hgeneration := hp.generation
  rw [hp.reclaimed_eq_none hpos] at hgeneration
  have hreclaimed := reclaimed_sweep_of_orphan hordered he horphan hpos
  refine sound_of_present
    (h.held.sweep_of_orphan (LeaseManager.key_of_find? he) horphan hreclaimed)
    (LeaseManager.find?_sweep_of_orphan hordered he horphan hpos) (fun _ _ _ => rfl)
    { generation := ?_, references := ?_, shared := ?_, opening := hp.opening }
  · rw [hreclaimed]
    exact congrArg (· + 1) hgeneration
  · rw [hreclaimed]
    rfl
  · rw [hreclaimed]
    intro habsent
    cases habsent

/-! ## A closing is carried out -/

/-- A closing that is due is one of an entry without references. -/
theorem Sound.due (h : ℓ.Sound key) (allowed : ℓ.Allows (.close key)) :
    ∃ e, ℓ.pool.manager.find? key = some e ∧ e.references = 0 :=
  have ⟨c, hc, hck, _⟩ := allowed
  h.closing c hc hck

theorem onward_close (h : ℓ.Sound key) (allowed : ℓ.Allows (.close key)) :
    Onward ℓ (ℓ.after (.close key)) := by
  obtain ⟨e, he, hidle⟩ := h.due allowed
  refine onward_of_alike (Nat.le_succ _) ?_
  show Alike _ (ℓ.pool.close key).1.manager
  rw [Pool.close_manager he hidle]
  exact ⟨rfl, rfl, rfl, rfl⟩

theorem untouched_close {k : LeaseKey} (h : ℓ.Sound k) (allowed : ℓ.Allows (.close k))
    (hk : key ≠ k) : Untouched ℓ (ℓ.after (.close k)) key := by
  obtain ⟨e, he, hidle⟩ := h.due allowed
  refine untouched_proceed ?_ fun c hc _ => ?_
  · rw [Pool.close_manager he hidle, LeaseManager.find?_remove, if_neg hk]
    rfl
  · rw [Pool.close_manager he hidle] at hc
    exact (LeaseManager.mem_closings_cancel.1 hc).1

/-- With its entry a key loses the closing, and nobody holds a reference that was not taken. -/
theorem sound_close (h : ℓ.Sound key) (allowed : ℓ.Allows (.close key)) :
    (ℓ.after (.close key)).Sound key := by
  have onward := onward_close h allowed
  obtain ⟨e, he, hidle⟩ := h.due allowed
  have hmanager : (ℓ.after (.close key)).pool.manager
      = (ℓ.pool.manager.cancel key).remove key := Pool.close_manager he hidle
  have hfind : (ℓ.after (.close key)).pool.manager.find? key = none := by
    rw [hmanager, LeaseManager.find?_remove, if_pos rfl]
  refine ⟨h.held.mono onward (List.Subset.refl _) (fun _ ho => ho) rfl, fun c hc hck => ?_,
    fun _ hnone => ?_, fun e' he' => ?_⟩
  · have hc' : c ∈ (ℓ.after (.close key)).pool.manager.closings := hc
    rw [hmanager] at hc'
    exact absurd hck (LeaseManager.mem_closings_cancel.1 hc').2
  · -- no lease is left to come back: the entry counted none, and none were taken
    have hzero := (h.present e he).references
    have hnone' : ℓ.reclaimed key = none := hnone
    rw [hnone', hidle] at hzero
    exact hzero.symm
  · rw [hfind] at he'
    cases he'

/-! ## Every event keeps the books in order -/

/-- What holds of every ledger that is reached. -/
structure Balanced (ℓ : Ledger) : Prop where
  ordered : ℓ.pool.manager.Ordered
  timely : ℓ.pool.manager.Timely
  sound : ∀ key, ℓ.Sound key

theorem balanced_fresh (config : LeaseConfig) (hasRuntime : Bool) (network : Network) :
    (fresh config hasRuntime network).Balanced where
  ordered :=
    ⟨List.nodup_nil, List.nodup_nil, List.Pairwise.nil, fun c hc => absurd hc List.not_mem_nil⟩
  timely c hc := absurd hc List.not_mem_nil
  sound key :=
    { held :=
        { leases := fun held hheld => absurd hheld List.not_mem_nil
          opening := fun o ho => by cases ho
          reclaimed := fun number hnumber => by cases hnumber }
      closing := fun c hc => absurd hc List.not_mem_nil
      absent := fun _ _ => rfl
      present := fun e he => by cases he }

/-- Every event is counted. -/
theorem onward_after (h : ℓ.Balanced) {event : Event} (allowed : ℓ.Allows event) :
    Onward ℓ (ℓ.after event) := by
  cases event with
  | enter thread url =>
    obtain ⟨hpool, hcount, -⟩ := ℓ.after_enter thread url
    refine onward_of_alike (by omega) ?_
    rw [hpool]
    exact ℓ.pool.alike_enter thread url
  | conclude key =>
    obtain ⟨⟨number, o⟩, ho⟩ := Option.isSome_iff_exists.1 allowed
    cases hconclude : ℓ.pool.conclude o with
    | mk result pool =>
      have halike := Pool.alike_conclude hconclude
      cases result with
      | ok lease =>
        rw [after_conclude_of_ok ho hconclude]
        exact onward_of_alike (Nat.le_succ _) halike
      | error cause =>
        rw [after_conclude_of_error ho hconclude]
        exact onward_of_alike (Nat.le_succ _) halike
  | release held => exact onward_of_alike (Nat.le_succ _) (LeaseManager.alike_leave _ _ _)
  | sweep => exact onward_of_alike (Nat.le_succ _) (LeaseManager.alike_sweep _)
  | exit thread => exact ⟨Nat.le_succ _, List.subset_cons_self _ _⟩
  | wait time => exact ⟨Nat.le_succ _, List.Subset.refl _⟩
  | close key => exact onward_close (h.sound key) allowed
  | outside network inUse =>
    exact onward_of_alike (Nat.le_succ _) (LeaseManager.Alike.refl _)

/-- What holds of a key holds after the next event. -/
theorem Balanced.sound_after (h : ℓ.Balanced) {event : Event} (allowed : ℓ.Allows event)
    (key : LeaseKey) : (ℓ.after event).Sound key := by
  have onward := onward_after h allowed
  -- the key the event is about, or another one
  cases event with
  | enter thread url =>
    by_cases hkey : key = ℓ.pool.manager.keyOf thread url
    · rw [hkey]
      exact sound_enter (h.sound _) allowed
    · exact (h.sound key).untouched onward (untouched_enter hkey)
  | conclude k =>
    by_cases hkey : key = k
    · rw [hkey]
      exact sound_conclude (h.sound k) allowed
    · exact (h.sound key).untouched onward (untouched_conclude (h.sound k) allowed hkey)
  | release held =>
    by_cases hkey : key = held.2.key
    · rw [hkey]
      exact sound_release (h.sound _) allowed
    · exact (h.sound key).untouched onward (untouched_release hkey)
  | sweep =>
    rcases ℓ.pool.manager.orphaned_or_kept key with ⟨e, he, horphan, hpos⟩ | hkept
    · exact sound_sweep_of_orphan h.ordered (h.sound key) he horphan hpos
    · exact (h.sound key).untouched onward (untouched_sweep h.ordered hkept)
  | exit thread =>
    exact (h.sound key).untouched onward (untouched_proceed rfl fun _ hc _ => hc)
  | wait time =>
    exact (h.sound key).untouched onward (untouched_proceed rfl fun _ hc _ => hc)
  | close k =>
    by_cases hkey : key = k
    · rw [hkey]
      exact sound_close (h.sound k) allowed
    · exact (h.sound key).untouched onward (untouched_close (h.sound k) allowed hkey)
  | outside network inUse =>
    exact (h.sound key).untouched onward (untouched_proceed rfl fun _ hc _ => hc)

/-- The closings stand in order of time after the next event, and none of them is late. -/
theorem Balanced.ordered_after (h : ℓ.Balanced) {event : Event} (allowed : ℓ.Allows event) :
    (ℓ.after event).pool.manager.Ordered ∧ (ℓ.after event).pool.manager.Timely := by
  have hordered := h.ordered
  have htimely := h.timely
  cases event with
  | enter thread url =>
    obtain ⟨hpool, -⟩ := ℓ.after_enter thread url
    rw [hpool, Pool.enter_manager]
    exact ⟨hordered.startSweeping.enter _ url, htimely.enter _ url⟩
  | conclude key =>
    obtain ⟨⟨number, o⟩, ho⟩ := Option.isSome_iff_exists.1 allowed
    cases hconclude : ℓ.pool.conclude o with
    | mk result pool =>
      cases result with
      | ok lease =>
        obtain ⟨-, -, hmanager⟩ := Pool.conclude_of_ok hconclude
        rw [after_conclude_of_ok ho hconclude]
        show pool.manager.Ordered ∧ pool.manager.Timely
        rw [hmanager]
        split
        · exact ⟨hordered.put _, htimely.put _⟩
        · exact ⟨hordered, htimely⟩
      | error cause =>
        rw [after_conclude_of_error ho hconclude]
        show pool.manager.Ordered ∧ pool.manager.Timely
        rw [Pool.conclude_of_error hconclude]
        exact ⟨hordered.leave _ _, htimely.leave _ _⟩
  | release held => exact ⟨hordered.leave _ _, htimely.leave _ _⟩
  | sweep => exact ⟨hordered.sweep, htimely.sweep⟩
  | exit thread =>
    exact ⟨hordered.mono hordered.keys (List.Sublist.refl _) (Nat.le_refl _) rfl, htimely⟩
  | wait time =>
    exact ⟨hordered.mono hordered.keys (List.Sublist.refl _) allowed.1 rfl, allowed.2⟩
  | close key =>
    -- a closing that is due finds its entry without references
    obtain ⟨e, he, hidle⟩ := (h.sound key).due allowed
    show (ℓ.pool.close key).1.manager.Ordered ∧ (ℓ.pool.close key).1.manager.Timely
    rw [Pool.close_manager he hidle]
    exact ⟨(hordered.cancel key).remove key, htimely.close key⟩
  | outside network inUse => exact ⟨hordered, htimely⟩

/-- The books of a manager that started empty are in order. -/
theorem Reached.balanced (h : Reached ℓ) : ℓ.Balanced := by
  induction h with
  | fresh config hasRuntime network => exact balanced_fresh config hasRuntime network
  | step _ allowed ih =>
    obtain ⟨hordered, htimely⟩ := ih.ordered_after allowed
    exact ⟨hordered, htimely, ih.sound_after allowed⟩

end Ledger

end RowMapper
