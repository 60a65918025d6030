import RowMapper.Proofs.Lease.Safekeeping
import RowMapper.Sample.Databases

/-!
# What a sweep takes, and what it leaves alone

A sweep takes the references of the entries whose thread has ended and which have any. Each of them
starts its grace period; every other entry stays as it is, with its closing, and a sweep right
behind it finds nothing to take (`LeaseManager.sweep_sweep`).

The references that were taken are spent: the thread of their key never acquires again, so that the
key keeps the entry it has, of a younger generation, until that is closed, and then has none
(`Custody.Spent`). Whoever lets go of such a reference later changes nothing.
-/

namespace RowMapper

/-- Nobody holds a reference of a generation that is yet to come. -/
theorem LeaseEntry.Backs.generation_le {e : LeaseEntry} {held : List Holder} (h : e.Backs held)
    {x : Holder} (hx : x ∈ held) : x.generation ≤ e.generation := by
  cases hswept : x.swept with
  | true => exact Nat.le_of_lt (h.older x hx hswept)
  | false => exact Nat.le_of_eq (h.current x hx hswept)

namespace LeaseManager

variable {m : LeaseManager} {key k : LeaseKey} {e e' : LeaseEntry}

/-! ## A sweep behind a sweep -/

/-- Without orphans a sweep does nothing. -/
theorem sweep_of_no_orphans (h : m.orphans = []) : m.sweep = (0, m, []) := by
  have hnone : (m.entries.filter fun e => m.isOrphan e && 0 < e.references) = [] := h
  unfold sweep
  dsimp only
  rw [hnone]
  rfl

/-- Whatever has references after a sweep is not of an ended thread. -/
theorem orphans_sweep (h : m.Ordered) : m.sweep.2.1.orphans = [] := by
  refine List.eq_nil_iff_forall_not_mem.2 fun e he => ?_
  obtain ⟨hmem, horphan, hpos⟩ := mem_orphans.1 he
  have hfind := find?_of_mem h.sweep hmem
  rcases m.orphaned_or_kept e.key with ⟨old, hold, horphan', hpos'⟩ | hkept
  · rw [find?_sweep_of_orphan h hold horphan' hpos'] at hfind
    cases hfind
    exact Nat.lt_irrefl 0 hpos
  · -- the entry is as it was, and so are the ended threads
    rw [find?_sweep_of_kept h hkept] at hfind
    have horphan' : m.isOrphan e := by
      unfold isOrphan at horphan ⊢
      rwa [(alike_sweep m).ended] at horphan
    have hzero := hkept e hfind horphan'
    omega

/-- A second sweep finds nothing to take. -/
theorem sweep_sweep (h : m.Ordered) : m.sweep.2.1.sweep = (0, m.sweep.2.1, []) :=
  sweep_of_no_orphans (orphans_sweep h)

/-! ## The generation of an entry never drops -/

/-- Where a key has an entry now, it had one of the same or an older generation before. -/
def Ages (m m' : LeaseManager) (key : LeaseKey) : Prop :=
  ∀ e', m'.find? key = some e' → ∃ e, m.find? key = some e ∧ e.generation ≤ e'.generation

theorem ages_of_find? {m' : LeaseManager} (h : m'.find? key = m.find? key) : m.Ages m' key :=
  fun e' he' => ⟨e', h ▸ he', Nat.le_refl _⟩

/-- Giving a reference back does not change generations. -/
theorem ages_leave (m : LeaseManager) (k : LeaseKey) (generation : Nat) (key : LeaseKey) :
    m.Ages (m.leave k generation).1 key := by
  by_cases hk : key = k
  · subst hk
    by_cases hcurrent : ∃ e, m.find? key = some e ∧ e.generation = generation
    · obtain ⟨e, he, rfl⟩ := hcurrent
      have hek := key_of_find? he
      intro e' he'
      -- the entry that counts one less is still of its generation
      by_cases hlast : e.references ≤ 1
      · rw [leave_of_last he hlast, find?_schedule, if_pos hek.symm] at he'
        cases he'
        exact ⟨e, he, Nat.le_refl _⟩
      · have hput := find?_put m { e with references := e.references - 1 } key
        rw [if_pos hek.symm] at hput
        rw [leave_of_shared he (by omega), hput] at he'
        cases he'
        exact ⟨e, he, Nat.le_refl _⟩
    · have hstale : m.leave key generation = (m, []) :=
        leave_of_stale fun e he hsame => hcurrent ⟨e, he, hsame⟩
      rw [hstale]
      exact ages_of_find? rfl
  · exact ages_of_find? (find?_leave_of_ne hk generation)

/-- A sweep makes the entries younger whose references it takes. -/
theorem ages_sweep (h : m.Ordered) (key : LeaseKey) : m.Ages m.sweep.2.1 key := by
  rcases m.orphaned_or_kept key with ⟨e, he, horphan, hpos⟩ | hkept
  · intro e' he'
    rw [find?_sweep_of_orphan h he horphan hpos] at he'
    cases he'
    exact ⟨e, he, Nat.le_succ _⟩
  · exact ages_of_find? (find?_sweep_of_kept h hkept)

/-- An entry that gets a connection keeps its generation. -/
theorem ages_put_connection (he : m.find? k = some e) (d : Connection) (key : LeaseKey) :
    m.Ages (m.put { e with connection := some d }) key := by
  intro e' he'
  rw [find?_put, key_of_find? he] at he'
  split at he'
  · rename_i hkey
    cases he'
    exact ⟨e, hkey ▸ he, Nat.le_refl _⟩
  · exact ⟨e', he', Nat.le_refl _⟩

theorem ages_remove (m : LeaseManager) (k key : LeaseKey) :
    m.Ages ((m.cancel k).remove k) key := by
  intro e' he'
  rw [find?_remove] at he'
  split at he'
  · cases he'
  · exact ⟨e', he', Nat.le_refl _⟩

end LeaseManager

namespace Custody

variable {origin : Network} {c : Custody} {key : LeaseKey} {generation : Nat} {event : Event}

/-! ## References that were taken -/

/-- The references to a key of a generation or older ones were taken from an ended thread: all
that hold references to the key hold those, and its entry, if there still is one, is younger. -/
structure Spent (c : Custody) (key : LeaseKey) (generation : Nat) : Prop where
  ended : ∃ thread, key.thread = some thread ∧ thread ∈ c.pool.manager.ended
  holders : ∀ x ∈ c.holders, x.key = key → x.generation ≤ generation
  younger : ∀ e, c.pool.manager.find? key = some e → generation < e.generation

/-- No running thread has the key of an ended one. -/
theorem Spent.keyOf_ne (h : c.Spent key generation) {thread : ThreadId} {url : ConnectionString}
    (hthread : thread ∉ c.pool.manager.ended) : key ≠ c.pool.manager.keyOf thread url := by
  intro hkey
  obtain ⟨owner, howner, hended⟩ := h.ended
  rw [hkey] at howner
  unfold LeaseManager.keyOf at howner
  dsimp only at howner
  split at howner
  · cases howner
    exact hthread hended
  · cases howner

/-- What holds of a key goes on as long as nobody is given a new reference to it. -/
theorem Spent.mono (h : c.Spent key generation) {c' : Custody}
    (hended : c.pool.manager.ended ⊆ c'.pool.manager.ended)
    (hholders : ∀ x ∈ c'.holders, x.key = key →
      ∃ y ∈ c.holders, y.key = key ∧ y.generation = x.generation)
    (hages : c.pool.manager.Ages c'.pool.manager key) : c'.Spent key generation where
  ended :=
    have ⟨thread, hthread, hmem⟩ := h.ended
    ⟨thread, hthread, hended hmem⟩
  holders x hx hkey := by
    obtain ⟨y, hy, hykey, hsame⟩ := hholders x hx hkey
    rw [← hsame]
    exact h.holders y hy hykey
  younger e' he' := by
    obtain ⟨e, he, hle⟩ := hages e' he'
    exact Nat.lt_of_lt_of_le (h.younger e he) hle

/-- One of the holders lets go. -/
theorem Spent.left (h : c.Spent key generation) {x : Holder} {pool : Pool}
    (hmanager : pool.manager = (c.pool.manager.leave x.key x.generation).1) :
    Spent { c.proceed pool with holders := c.holders.erase x } key generation := by
  refine h.mono ?_ (fun y hy hykey => ⟨y, List.mem_of_mem_erase hy, hykey, rfl⟩) ?_
  · show _ ⊆ pool.manager.ended
    rw [hmanager, (LeaseManager.alike_leave _ _ _).ended]
    exact List.Subset.refl _
  · show c.pool.manager.Ages pool.manager key
    rw [hmanager]
    exact LeaseManager.ages_leave _ _ _ _

/-- A new acquire does not bring back what a sweep took. -/
theorem Spent.enter (h : c.Spent key generation) {thread : ThreadId} {url : ConnectionString}
    (allowed : c.Allows (.enter thread url)) :
    (c.after (.enter thread url)).Spent key generation := by
  have hne : key ≠ c.pool.manager.keyOf thread url := h.keyOf_ne allowed
  refine h.mono ?_ (fun x hx hkey => ?_) (LeaseManager.ages_of_find? ?_)
  · show _ ⊆ (c.pool.enter thread url).2.manager.ended
    rw [(c.pool.alike_enter thread url).ended]
    exact List.Subset.refl _
  · rcases List.mem_cons.1 hx with hx | hx
    · -- who enters is of a running thread
      obtain ⟨hentered, -⟩ := c.pool.enter_spec thread url rfl hx
      exact absurd (hkey.symm.trans hentered) hne
    · exact ⟨x, hx, hkey, rfl⟩
  · show (c.pool.enter thread url).2.manager.find? key = _
    rw [Pool.enter_manager, LeaseManager.find?_enter, if_neg hne,
      LeaseManager.find?_startSweeping]

theorem Spent.connect (h : c.Spent key generation) {x : Holder}
    (allowed : c.Allows (.connect x)) : (c.after (.connect x)).Spent key generation := by
  obtain ⟨-, o, -, hkey, hgeneration, -, hconnect⟩ := connect_cases allowed
  rcases hconnect with ⟨lease, pool, hconclude, hafter⟩ | ⟨cause, pool, hconclude, hafter⟩
  · rw [hafter]
    have halike := Pool.alike_conclude hconclude
    obtain ⟨-, -, hmanager⟩ := Pool.conclude_of_ok hconclude
    refine h.mono ?_ (fun y hy hykey => ?_) ?_
    · show _ ⊆ pool.manager.ended
      rw [halike.ended]
      exact List.Subset.refl _
    · obtain ⟨z, hz, rfl⟩ := List.mem_map.1 hy
      exact ⟨z, hz, by simpa using hykey, by simp⟩
    · show c.pool.manager.Ages pool.manager key
      rw [hmanager]
      split
      · rename_i e he
        exact LeaseManager.ages_put_connection he _ _
      · exact LeaseManager.ages_of_find? rfl
  · rw [hafter]
    -- a connect that failed is a lease given back
    refine h.left ?_
    rw [Pool.conclude_of_error hconclude, hkey, hgeneration]

/-- Nor does another sweep. -/
theorem Spent.sweep (h : c.Spent key generation) (hordered : c.pool.manager.Ordered) :
    (c.after .sweep).Spent key generation := by
  refine h.mono ?_ (fun x hx hkey => ?_) (LeaseManager.ages_sweep hordered key)
  · show _ ⊆ c.pool.manager.sweep.2.1.ended
    rw [(LeaseManager.alike_sweep _).ended]
    exact List.Subset.refl _
  · obtain ⟨y, hy, rfl⟩ := List.mem_map.1 hx
    refine ⟨y, hy, ?_, ?_⟩
    · split at hkey <;> exact hkey
    · split <;> rfl

/-- References that were taken stay so, whatever happens. -/
theorem Spent.after (h : c.Spent key generation) (hsound : c.Sound origin)
    (allowed : c.Allows event) : (c.after event).Spent key generation := by
  cases event with
  | enter thread url => exact h.enter allowed
  | connect x => exact h.connect allowed
  | leave x => exact h.left (c.pool.drop_spec x).1
  | sweep => exact h.sweep hsound.ordered
  | exit thread =>
    exact h.mono (List.subset_cons_self _ _) (fun x hx hkey => ⟨x, hx, hkey, rfl⟩)
      (LeaseManager.ages_of_find? rfl)
  | close k =>
    obtain ⟨e, -, he, hidle, -⟩ := hsound.due allowed
    -- the entry is gone, and that of an ended thread does not come back
    have hmanager := Pool.close_manager he hidle
    refine h.mono ?_ (fun x hx hkey => ⟨x, hx, hkey, rfl⟩) ?_
    · show _ ⊆ (c.pool.close k).1.manager.ended
      rw [hmanager]
      exact List.Subset.refl _
    · show c.pool.manager.Ages (c.pool.close k).1.manager key
      rw [hmanager]
      exact LeaseManager.ages_remove _ _ _
  | _ =>
    exact h.mono (List.Subset.refl _) (fun x hx hkey => ⟨x, hx, hkey, rfl⟩)
      (LeaseManager.ages_of_find? rfl)

/-- What a sweep took stays taken. -/
theorem Spent.afterAll (h : c.Spent key generation) (hc : Reached origin c)
    {events : List Event} (allowed : c.AllowsAll events) :
    (c.afterAll events).Spent key generation := by
  induction events generalizing c with
  | nil => exact h
  | cons event rest ih =>
    exact ih (h.after hc.sound allowed.1) (hc.step allowed.1) allowed.2

/-- Who lets go of a reference that was taken changes nothing. -/
theorem Spent.leave (h : c.Spent key generation) {g : Nat} (hg : g ≤ generation) :
    c.pool.manager.leave key g = (c.pool.manager, []) :=
  LeaseManager.leave_of_stale fun e he => by
    have hyounger := h.younger e he
    omega

/-- A sweep takes the references of an entry: those that it counted are spent from then on. -/
theorem Sound.spent (h : c.Sound origin) {e : LeaseEntry}
    (he : c.pool.manager.find? key = some e) (horphan : c.pool.manager.isOrphan e)
    (hpos : 0 < e.references) : (c.after .sweep).Spent key e.generation := by
  have halike := LeaseManager.alike_sweep c.pool.manager
  have hfind := LeaseManager.find?_sweep_of_orphan h.ordered he horphan hpos
  -- the leases given out so far are of this generation at most, and the entry is of the next one
  have hbacks := (h.tended key).present e he
  refine ⟨?_, fun x hx hkey => ?_, fun e' he' => ?_⟩
  · unfold LeaseManager.isOrphan at horphan
    obtain ⟨thread, hthread, hended⟩ := (Option.any_eq_true _ _).1 horphan
    rw [← LeaseManager.key_of_find? he]
    refine ⟨thread, hthread, ?_⟩
    show thread ∈ c.pool.manager.sweep.2.1.ended
    rw [halike.ended]
    simpa using hended
  · obtain ⟨y, hy, rfl⟩ := List.mem_map.1 hx
    have hykey : y.key = key := by split at hkey <;> exact hkey
    have hle := hbacks.generation_le (mem_holdersOf.2 ⟨hy, hykey⟩)
    split <;> exact hle
  · have hsame : c.pool.manager.sweep.2.1.find? key = some e' := he'
    rw [hfind] at hsame
    cases hsame
    exact Nat.lt_succ_self _

/-- A sweep takes what ended threads hold, and nothing else. It tells how many entries it took the
references of: those have none from then on, and their grace period starts. All others keep their
entry and their closing, and a second sweep changes nothing. Whoever lets go of a reference that
was taken, sooner or later, changes nothing either. -/
theorem sweep_takes_orphans (h : Reached origin c) :
    let m := c.pool.manager
    let swept := m.sweep.2.1
    m.sweep.1 = m.entries.countP (fun e => m.isOrphan e && 0 < e.references)
      ∧ (∀ key e, m.find? key = some e → m.isOrphan e → 0 < e.references →
        swept.find? key = some (e.sweptAt m.now)
          ∧ ∀ x : Closing, x.key = key →
            (x ∈ swept.closings ↔ m.hasRuntime ∧ x.due = m.now + m.config.grace))
      ∧ (∀ key, (∀ e, m.find? key = some e → m.isOrphan e → e.references = 0) →
        swept.find? key = m.find? key
          ∧ ∀ x : Closing, x.key = key → (x ∈ swept.closings ↔ x ∈ m.closings))
      ∧ swept.sweep = (0, swept, [])
      ∧ ∀ key e, m.find? key = some e → m.isOrphan e → 0 < e.references →
        ∀ events, (c.after .sweep).AllowsAll events →
          let later := (c.after .sweep).afterAll events
          (∀ x ∈ c.holders, x.key = key →
            later.pool.manager.leave key x.generation = (later.pool.manager, []))
          ∧ ∀ x ∈ later.holders, x.key = key →
            (later.after (.leave x)).pool.manager = later.pool.manager
              ∧ (later.after (.leave x)).pool.network = later.pool.network := by
  intro m swept
  have hsound := h.sound
  have hordered : m.Ordered := hsound.ordered
  refine ⟨List.countP_eq_length_filter.symm, fun key e he horphan hpos => ?_, fun key hkept => ?_,
    LeaseManager.sweep_sweep hordered, fun key e he horphan hpos events allowed => ?_⟩
  · refine ⟨LeaseManager.find?_sweep_of_orphan hordered he horphan hpos, fun x hx => ?_⟩
    -- no closing waited for an entry with references
    have hbefore : x ∉ m.closings := fun hmem => (hsound.tended key).closing_ne he hpos x hmem hx
    subst hx
    rw [LeaseManager.mem_closings_sweep_of_orphan hordered he horphan hpos]
    simp [hbefore]
  · refine ⟨LeaseManager.find?_sweep_of_kept hordered hkept, fun x hx => ?_⟩
    subst hx
    exact LeaseManager.mem_closings_sweep_of_kept hordered hkept
  · intro later
    have hspent := hsound.spent he horphan hpos
    have hlater : later.Spent key e.generation := hspent.afterAll (h.step trivial) allowed
    have hbacks := (hsound.tended key).present e he
    refine ⟨fun x hx hkey => hlater.leave (hbacks.generation_le (mem_holdersOf.2 ⟨hx, hkey⟩)),
      fun x hx hkey => ?_⟩
    · obtain ⟨hmanager, hnetwork, -⟩ := later.pool.drop_spec x
      refine ⟨?_, hnetwork⟩
      show (later.pool.drop x).manager = _
      rw [hmanager, hkey, hlater.leave (hlater.holders x hx hkey)]

/-- The thread of two leases on one connection ends while another thread has one of its own. The
sweep takes the two; one of them is given back before their entry is closed, and one after it. -/
theorem sweep_takes_orphans_of_exit :
    let first : LeaseKey := ⟨"mock://staff/db", some 1⟩
    let second : LeaseKey := ⟨"mock://staff/db", some 2⟩
    let waiting (key : LeaseKey) : Holder := { got := .inr ⟨key, 0, Company.staff⟩ }
    let taken : Holder := { got := .inl ⟨first, 0, ⟨0, "staff"⟩⟩, swept := true }
    let c := (fresh { grace := 50, sweep := 60 } true Company.network).afterAll
      [.enter 1 Company.staff, .connect (waiting first), .enter 1 Company.staff,
        .enter 2 Company.staff, .connect (waiting second), .exit 1]
    let early := (c.after .sweep).afterAll [.wait 20]
    let late := (c.after .sweep).afterAll [.wait 20, .leave taken, .wait 50, .close first]
    Reached Company.network c
      ∧ c.pool.manager.references first = 2 ∧ c.pool.manager.references second = 1
      ∧ c.pool.manager.sweep.1 = 1
      ∧ c.pool.manager.sweep.2.1.references first = 0
      ∧ c.pool.manager.sweep.2.1.find? second = c.pool.manager.find? second
      ∧ taken ∈ early.holders ∧ taken ∈ late.holders
      ∧ late.pool.manager.find? first = none
      ∧ (early.after (.leave taken)).pool.manager = early.pool.manager
      ∧ (late.after (.leave taken)).pool.manager = late.pool.manager := by
  intro first second waiting taken c early late
  have hc : Reached Company.network c := (Reached.fresh _ _).afterAll (by decide +kernel)
  have hearly : (c.after .sweep).AllowsAll [.wait 20] := by decide +kernel
  have hlate : (c.after .sweep).AllowsAll [.wait 20, .leave taken, .wait 50, .close first] := by
    decide +kernel
  have hheld : taken ∈ early.holders ∧ taken ∈ late.holders
      ∧ late.pool.manager.find? first = none := by decide +kernel
  have hcounts : c.pool.manager.references first = 2 ∧ c.pool.manager.references second = 1
      ∧ c.pool.manager.sweep.1 = 1 := by decide +kernel
  have horphaned : (c.pool.manager.find? first).any fun e =>
      c.pool.manager.isOrphan e && 0 < e.references := by decide +kernel
  have hrunning : (c.pool.manager.find? second).all fun e => !c.pool.manager.isOrphan e := by
    decide +kernel
  -- from here on nothing but the facts above is known of the custody
  clear_value c
  obtain ⟨-, htaken, hothers, -, hspent⟩ := sweep_takes_orphans hc
  obtain ⟨e, he, horphan⟩ := (Option.any_eq_true _ _).1 horphaned
  obtain ⟨horphan, hpos⟩ : c.pool.manager.isOrphan e ∧ 0 < e.references := by
    simpa using horphan
  refine ⟨hc, hcounts.1, hcounts.2.1, hcounts.2.2, ?_, ?_, hheld.1, hheld.2.1, hheld.2.2, ?_, ?_⟩
  · exact LeaseManager.references_of_find? (htaken first e he horphan hpos).1
  · refine (hothers second fun e he horphan => ?_).1
    rw [he] at hrunning
    simp [horphan] at hrunning
  · exact ((hspent first e he horphan hpos _ hearly).2 taken hheld.1 rfl).1
  · exact ((hspent first e he horphan hpos _ hlate).2 taken hheld.2.1 rfl).1

end Custody

end RowMapper
