import Mathlib.Data.List.TakeWhile
import RowMapper.Proofs.Lease.Halves

/-!
# Time passes

What a pool does by itself while time passes is a sequence of waits, closings and background sweeps,
each at its own moment: no wait passes a closing that is due (`Pool.Elapses`). So no closing that
waits is ever late (`LeaseManager.Timely`).
-/

namespace RowMapper

namespace LeaseManager

variable {m m' : LeaseManager} {key : LeaseKey}

/-! ## No closing is late -/

/-- No closing that waits is late. -/
def Timely (m : LeaseManager) : Prop := ∀ c ∈ m.closings, m.now ≤ c.due

/-- A step that queues closings only for later. -/
theorem Timely.step (h : m.Timely) (halike : Alike m m')
    (hclosings : ∀ c ∈ m'.closings, c ∈ m.closings ∨ m.now ≤ c.due) : m'.Timely := by
  intro c hc
  rw [halike.now]
  rcases hclosings c hc with hc | hdue
  · exact h c hc
  · exact hdue

theorem Timely.put (h : m.Timely) (e : LeaseEntry) : (m.put e).Timely :=
  h.step (alike_put m e) fun c hc => Or.inl (by rwa [closings_put] at hc)

/-- An entry is to be closed once the grace period is over. -/
theorem Timely.schedule (h : m.Timely) (e : LeaseEntry) : (m.schedule e).1.Timely := by
  refine h.step (alike_schedule m e) fun c hc => ?_
  rcases mem_closings_schedule.1 hc with ⟨hc, -⟩ | ⟨-, -, hdue⟩
  · exact Or.inl hc
  · exact Or.inr (by omega)

/-- An acquire schedules no closing. -/
theorem Timely.enter (h : m.Timely) (key : LeaseKey) (url : ConnectionString) :
    (m.startSweeping.enter key url).2.1.Timely := by
  refine h.step (m.alike_startSweeping.trans (alike_enter _ _ _)) fun c hc => ?_
  rw [mem_closings_enter, closings_startSweeping] at hc
  exact Or.inl hc.1

/-- Giving a reference back schedules a closing in the future at most. -/
theorem Timely.leave (h : m.Timely) (key : LeaseKey) (generation : Nat) :
    (m.leave key generation).1.Timely := by
  unfold LeaseManager.leave
  split
  · exact h
  · split
    · exact h
    · split
      · exact h.schedule _
      · exact h.put _

/-- So does a sweep. -/
theorem Timely.sweep (h : m.Timely) : m.sweep.2.1.Timely := by
  refine h.step (alike_sweep m) fun c hc => ?_
  rw [sweep_eq_reclaim, mem_closings_reclaim] at hc
  rcases hc with ⟨hc, -⟩ | ⟨-, -, hdue⟩
  · exact Or.inl hc
  · exact Or.inr (by omega)

theorem Timely.close (h : m.Timely) (key : LeaseKey) : ((m.cancel key).remove key).Timely :=
  h.step ⟨rfl, rfl, rfl, rfl⟩ fun _ hc => Or.inl (mem_closings_cancel.1 hc).1

/-! ## Background sweeps -/

/-- The next background sweep is to come, and the last one that is counted has come in time. -/
theorem sweeps_between {since now stop period count : Nat}
    (hcount : count = (stop - since) / period - (now - since) / period) (hpos : 0 < count) :
    0 < period ∧ now < since + (now - since) / period * period + period
      ∧ since + (now - since) / period * period + count * period ≤ stop := by
  have hperiod : 0 < period := by
    rcases Nat.eq_zero_or_pos period with rfl | h
    · simp at hcount
      omega
    · exact h
  -- the sweeps so far and the counted ones make all that come until the end
  have hnow := Nat.div_add_mod (now - since) period
  have hrest := Nat.mod_lt (now - since) hperiod
  have hstop := Nat.div_mul_le_self (stop - since) period
  have hsum : (now - since) / period * period + count * period
      = (stop - since) / period * period := by
    rw [← Nat.add_mul]
    congr 1
    omega
  have hsweeps : 0 < (stop - since) / period :=
    Nat.lt_of_lt_of_le hpos (hcount ▸ Nat.sub_le _ _)
  have hsome : 0 < (stop - since) / period * period := Nat.mul_pos hsweeps hperiod
  rw [Nat.mul_comm] at hnow
  exact ⟨hperiod, by omega, by omega⟩

/-- The background sweeps up to a time: the next one is to come, the last one comes in time. -/
theorem sweepsUntil_between (m : LeaseManager) {start stop count : Nat}
    (hstart : m.sweepingSince.getD 0 + m.sweepsUntil m.now * m.config.sweep = start)
    (hcount : m.sweepsUntil stop - m.sweepsUntil m.now = count) (hpos : 0 < count) :
    0 < m.config.sweep ∧ m.now < start + m.config.sweep
      ∧ start + count * m.config.sweep ≤ stop := by
  unfold sweepsUntil at hcount hstart
  cases hsince : m.sweepingSince with
  | none =>
    rw [hsince] at hcount
    have hzero : 0 - 0 = count := hcount
    omega
  | some since =>
    rw [hsince] at hcount hstart
    subst hstart
    exact sweeps_between hcount.symm hpos

end LeaseManager

/-- The pool at another time. -/
def Pool.at (p : Pool) (time : Nat) : Pool :=
  { p with manager := { p.manager with now := time } }

/-- Nor does what becomes of its connection. -/
theorem Pool.closeEntry_at (p : Pool) (e : LeaseEntry) (time : Nat) :
    ((p.at time).closeEntry e).1 = (p.closeEntry e).1.at time := by
  unfold closeEntry
  cases e.connection with
  | none => rfl
  | some c =>
    show (if p.inUse.contains c then _ else _ : Pool × Log).1
      = Pool.at (if p.inUse.contains c then _ else _ : Pool × Log).1 time
    split <;> rfl

/-- Closing an entry does not look at the time. -/
theorem Pool.close_at (p : Pool) (key : LeaseKey) (time : Nat) :
    ((p.at time).close key).1 = (p.close key).1.at time := by
  have hfind : ((p.at time).manager.cancel key).find? key = (p.manager.cancel key).find? key := rfl
  unfold close
  dsimp only
  rw [hfind]
  cases (p.manager.cancel key).find? key with
  | none => rfl
  | some e =>
    dsimp only
    split
    · rfl
    · exact Pool.closeEntry_at { p with manager := (p.manager.cancel key).remove key } e time

/-- Closings do not look at the clock. -/
theorem Pool.closeAll_at (p : Pool) (cs : List Closing) (time : Nat) :
    ((p.at time).closeAll cs).1 = (p.closeAll cs).1.at time := by
  induction cs generalizing p with
  | nil => rfl
  | cons c rest ih =>
    show (((p.at time).close c.key).1.closeAll rest).1 = _
    rw [close_at, ih]
    rfl

namespace Pool

variable {p q : Pool} {time : Nat}

/-! ## Moments of a pool -/

/-- Time passes: each closing and each sweep comes at its moment, and none that is due is passed. -/
inductive Elapses (p : Pool) : Pool → Prop where
  | here : Elapses p p
  | wait {q : Pool} (before : Elapses p q) {time : Nat} (later : q.manager.now ≤ time)
      (punctual : ∀ d ∈ q.manager.closings, time ≤ d.due) : Elapses p (q.at time)
  | sweep {q : Pool} (before : Elapses p q) : Elapses p q.sweep.2.1
  | close {q : Pool} (before : Elapses p q) {key : LeaseKey}
      (due : ∃ d ∈ q.manager.closings, d.key = key ∧ d.due ≤ q.manager.now) :
      Elapses p (q.close key).1

/-- A closing that is carried out waits no more, and the others still do. -/
theorem close_closings (p : Pool) (key : LeaseKey) :
    (p.close key).1.manager.closings = (p.manager.cancel key).closings
      ∧ LeaseManager.Alike p.manager (p.close key).1.manager := by
  have hentry (m : LeaseManager) (e : LeaseEntry) :
      ({ p with manager := m }.closeEntry e).1.manager = m := closeEntry_manager _ e
  unfold close
  dsimp only
  split
  · exact ⟨rfl, rfl, rfl, rfl, rfl⟩
  · split
    · exact ⟨rfl, rfl, rfl, rfl, rfl⟩
    · rw [hentry]
      exact ⟨rfl, rfl, rfl, rfl, rfl⟩

theorem ordered_close (h : p.manager.Ordered) (key : LeaseKey) :
    (p.close key).1.manager.Ordered := by
  have hentry (m : LeaseManager) (e : LeaseEntry) :
      ({ p with manager := m }.closeEntry e).1.manager = m := closeEntry_manager _ e
  unfold close
  dsimp only
  split
  · exact h.cancel key
  · split
    · exact h.cancel key
    · rw [hentry]
      exact (h.cancel key).remove key

/-- One entry and one closing for a key remain, as time passes. -/
theorem Elapses.ordered (h : Elapses p q) (hp : p.manager.Ordered) : q.manager.Ordered := by
  induction h with
  | here => exact hp
  | wait _ later _ ih => exact ih.mono ih.keys (.refl _) later rfl
  | sweep _ ih => exact ih.sweep
  | close _ _ ih => exact ordered_close ih _

/-- No closing is missed, as time passes. -/
theorem Elapses.timely (h : Elapses p q) (hp : p.manager.Timely) : q.manager.Timely := by
  induction h with
  | here => exact hp
  | wait _ _ punctual _ => exact punctual
  | sweep _ ih => exact ih.sweep
  | close _ _ ih =>
    obtain ⟨hclosings, halike⟩ := close_closings _ _
    refine ih.step halike fun c hc => Or.inl ?_
    rw [hclosings] at hc
    exact (LeaseManager.mem_closings_cancel.1 hc).1

theorem Elapses.config (h : Elapses p q) : q.manager.config = p.manager.config := by
  induction h with
  | here => rfl
  | wait _ _ _ ih => exact ih
  | sweep _ ih => exact (LeaseManager.alike_sweep _).config.trans ih
  | close _ _ ih => exact (close_closings _ _).2.config.trans ih

/-! ## What is due is closed in order of time -/

/-- The first closing that waits is carried out at its time. -/
theorem Elapses.closeFirst (h : Elapses p q) (hordered : q.manager.Ordered)
    (htimely : q.manager.Timely) {c : Closing} {rest : List Closing}
    (hclosings : q.manager.closings = c :: rest) :
    Elapses p ((q.close c.key).1.at c.due)
      ∧ ((q.close c.key).1.at c.due).manager.closings = rest := by
  have hmem : c ∈ q.manager.closings := by
    rw [hclosings]
    exact List.mem_cons_self
  -- no other closing is due before the first one, so the time until then may pass
  have hpunctual : ∀ d ∈ q.manager.closings, c.due ≤ d.due := by
    have hsorted := hordered.sorted
    rw [hclosings] at hsorted ⊢
    exact List.forall_mem_cons.2 ⟨Nat.le_refl _, (List.pairwise_cons.1 hsorted).1⟩
  have hwaited := h.wait (htimely c hmem) hpunctual
  have hdue : ∃ d ∈ (q.at c.due).manager.closings, d.key = c.key
      ∧ d.due ≤ (q.at c.due).manager.now := ⟨c, hmem, rfl, Nat.le_refl _⟩
  have hclosed := hwaited.close hdue
  rw [close_at] at hclosed
  refine ⟨hclosed, ?_⟩
  show (q.close c.key).1.manager.closings = rest
  rw [(close_closings q c.key).1]
  show q.manager.closings.filter (·.key != c.key) = rest
  -- a key waits for one closing at most, so only this one is gone
  have hkeys := hordered.closingKeys
  rw [hclosings, List.map_cons, List.nodup_cons] at hkeys
  rw [hclosings, List.filter_cons_of_neg (by simp), List.filter_eq_self]
  intro x hx
  have hne : x.key ≠ c.key := fun hkey => hkeys.1 (hkey ▸ List.mem_map_of_mem hx)
  simpa using hne

/-- The closings at the head of the queue are carried out, each at its time. -/
theorem Elapses.closeAll (h : Elapses p q) (hp : p.manager.Ordered) (ht : p.manager.Timely)
    (hnow : q.manager.now ≤ time) {cs rest : List Closing}
    (hclosings : q.manager.closings = cs ++ rest) (hdue : ∀ c ∈ cs, c.due ≤ time) :
    ∃ q', Elapses p q' ∧ q'.at time = (q.closeAll cs).1.at time
      ∧ q'.manager.closings = rest ∧ q'.manager.now ≤ time := by
  induction cs generalizing q with
  | nil => exact ⟨q, h, rfl, hclosings, hnow⟩
  | cons c cs ih =>
    obtain ⟨hfirst, hrest⟩ := h.closeFirst (h.ordered hp) (h.timely ht) hclosings
    obtain ⟨hc, hcs⟩ := List.forall_mem_cons.1 hdue
    obtain ⟨q', hothers, hpool, hdone⟩ := ih hfirst hc hrest hcs
    refine ⟨q', hothers, ?_, hdone⟩
    rw [hpool, closeAll_at]
    rfl

/-- What is not due in a queue that stands in order of time is later. -/
theorem lt_due_of_mem_dropWhile {cs : List Closing} (hsorted : cs.Pairwise (·.due ≤ ·.due))
    {time : Nat} {c : Closing} (hc : c ∈ cs.dropWhile (·.due ≤ time)) : time < c.due := by
  induction cs with
  | nil => cases hc
  | cons first rest ih =>
    obtain ⟨hfirst, hrest⟩ := List.pairwise_cons.1 hsorted
    rw [List.dropWhile_cons] at hc
    split at hc
    · exact ih hrest hc
    · rename_i hlater
      have hlater' : time < first.due := by simpa using hlater
      rcases List.mem_cons.1 hc with rfl | hc
      · exact hlater'
      · exact Nat.lt_of_lt_of_le hlater' (hfirst c hc)

/-- What is due by a time is closed until the time comes, and what waits then is due later. -/
theorem Elapses.closeDue (h : Elapses p q) (hp : p.manager.Ordered) (ht : p.manager.Timely)
    (later : q.manager.now ≤ time) :
    Elapses p (q.closeDue time).1 ∧ ∀ c ∈ (q.closeDue time).1.manager.closings, time < c.due := by
  have hsplit := (q.manager.closings.takeWhile_append_dropWhile (p := (·.due ≤ time))).symm
  have hdue : ∀ c ∈ q.manager.closings.takeWhile (·.due ≤ time), c.due ≤ time := by
    intro c hc
    simpa using List.mem_takeWhile_imp hc
  have hlater : ∀ c ∈ q.manager.closings.dropWhile (·.due ≤ time), time < c.due :=
    fun c hc => lt_due_of_mem_dropWhile (h.ordered hp).sorted hc
  obtain ⟨q', hclosed, hpool, hrest, hnow⟩ := h.closeAll hp ht later hsplit hdue
  rw [← hrest] at hlater
  have hwaited := hclosed.wait hnow fun c hc => Nat.le_of_lt (hlater c hc)
  rw [hpool] at hwaited
  refine ⟨hwaited, ?_⟩
  show ∀ c ∈ ((q.closeAll _).1.at time).manager.closings, time < c.due
  rw [← hpool]
  exact hlater

/-! ## Sweeps come in time -/

/-- A background sweep at its time, which is to come. -/
theorem Elapses.sweepAt (h : Elapses p q) (hp : p.manager.Ordered) (ht : p.manager.Timely)
    (later : q.manager.now < time) : Elapses p (q.sweepAt time).1 := by
  unfold Pool.sweepAt
  dsimp only
  -- what goes before the sweep
  generalize hearly : (if q.manager.config.sweep < q.manager.config.grace then time
    else time - 1) = early
  have hbounds : q.manager.now ≤ early ∧ early ≤ time ∧ time ≤ early + 1 := by
    split at hearly <;> omega
  obtain ⟨hclosed, hlater⟩ := h.closeDue hp ht hbounds.1
  have hwaited := hclosed.wait hbounds.2.1 fun c hc => by
    have hdue := hlater c hc
    omega
  exact (hwaited.sweep.closeDue hp ht (Nat.le_of_eq (LeaseManager.alike_sweep _).now)).1

/-- Background sweeps, each at its time. -/
theorem Elapses.sweepOn (h : Elapses p q) (hp : p.manager.Ordered) (ht : p.manager.Timely)
    {start stop count : Nat} (hnow : q.manager.now ≤ stop)
    (hnext : 0 < count → q.manager.now < start + q.manager.config.sweep)
    (hperiod : 0 < count → 0 < q.manager.config.sweep)
    (hlast : 0 < count → start + count * q.manager.config.sweep ≤ stop) :
    Elapses p (q.sweepOn start count).1 ∧ (q.sweepOn start count).1.manager.now ≤ stop := by
  -- by the number of sweeps that are due: after each one the next is a period later
  induction count generalizing q start with
  | zero => exact ⟨h, hnow⟩
  | succ count ih =>
    have hpos := Nat.succ_pos count
    have hswept := h.sweepAt hp ht (hnext hpos)
    have hconfig : (q.sweepAt (start + q.manager.config.sweep)).1.manager.config
        = q.manager.config := hswept.config.trans h.config.symm
    have hnow' : (q.sweepAt (start + q.manager.config.sweep)).1.manager.now
        = start + q.manager.config.sweep := rfl
    have hstop := hlast hpos
    rw [Nat.succ_mul] at hstop
    have hsweep := hperiod hpos
    refine ih hswept ?_ (fun _ => ?_) (fun _ => ?_) (fun _ => ?_)
    · omega
    · rw [hconfig, hnow']
      omega
    · rw [hconfig]
      exact hsweep
    · rw [hconfig]
      omega

/-- Time that passes is a sequence of waits, closings and sweeps. -/
theorem elapses_sleep (hp : p.manager.Ordered) (ht : p.manager.Timely) (milliseconds : Nat) :
    Elapses p (p.sleep milliseconds).1 := by
  unfold Pool.sleep
  dsimp only
  generalize hstop : p.manager.now + milliseconds = stop
  generalize hstart : p.manager.sweepingSince.getD 0
    + p.manager.sweepsUntil p.manager.now * p.manager.config.sweep = start
  generalize hcount : p.manager.sweepsUntil stop - p.manager.sweepsUntil p.manager.now = count
  have hsweeps := fun hpos => p.manager.sweepsUntil_between hstart hcount hpos
  obtain ⟨hswept, hnow⟩ := Elapses.here.sweepOn hp ht (by omega) (fun hpos => (hsweeps hpos).2.1)
    (fun hpos => (hsweeps hpos).1) (fun hpos => (hsweeps hpos).2.2)
  exact (hswept.closeDue hp ht hnow).1

end Pool

end RowMapper
