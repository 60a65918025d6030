import Mathlib.Data.List.Nodup
import RowMapper.Lease.Manager
import RowMapper.Proofs.Outcome

/-!
# Entries and closings

What each step of a lease manager does to the entry of a key and to the closings that wait. A step
concerns one key, a sweep those of the ended threads; every other key keeps its entry and its
closing.

A manager that started empty has one entry and one closing for a key at most, and its closings
stand in order of time (`LeaseManager.Ordered`).
-/

namespace RowMapper

/-- What a sweep at a time makes of an entry whose references it takes. -/
def LeaseEntry.sweptAt (e : LeaseEntry) (time : Nat) : LeaseEntry :=
  { e with references := 0, releasedAt := some time, generation := e.generation + 1 }

namespace LeaseManager

variable {m m' : LeaseManager} {e : LeaseEntry} {key k : LeaseKey} {c : Closing}

/-! ## The entry of a key -/

/-- What is found under a key has this key. -/
theorem key_of_find? (h : m.find? key = some e) : e.key = key := by
  simpa using List.find?_some h

theorem mem_of_find? (h : m.find? key = some e) : e ∈ m.entries := List.mem_of_find?_eq_some h

/-- The references of a key are those that its entry counts. -/
theorem references_of_find? (h : m.find? key = some e) : m.references key = e.references := by
  unfold references
  rw [h]
  rfl

/-- A key without an entry has no references. -/
theorem references_of_none (h : m.find? key = none) : m.references key = 0 := by
  unfold references
  rw [h]
  rfl

/-- References are told by the entry alone. -/
theorem references_eq_of_find? (h : m'.find? key = m.find? key) :
    m'.references key = m.references key := by
  unfold references
  rw [h]

/-- A replaced entry is found under its own key, and no other search sees it. -/
theorem find?_map_replace (es : List LeaseEntry) (e : LeaseEntry) (key : LeaseKey) :
    (es.map fun old => if old.key == e.key then e else old).find? (·.key == key)
      = if key = e.key then (es.find? (·.key == key)).map fun _ => e
        else es.find? (·.key == key) := by
  induction es with
  | nil => simp
  | cons x xs ih =>
    rw [List.map_cons]
    by_cases hx : x.key = e.key
    · by_cases hkey : key = e.key
      · simp [hx, hkey]
      · have hother : e.key ≠ key := fun h => hkey h.symm
        simpa [hx, hkey, hother] using ih
    · by_cases hfound : x.key = key
      · have hkey : key ≠ e.key := fun h => hx (hfound.trans h)
        simp [hfound, hkey]
      · simpa [hx, hfound] using ih

/-- An entry that is put in is the one of its key, and the other keys keep theirs. -/
theorem find?_put (m : LeaseManager) (e : LeaseEntry) (key : LeaseKey) :
    (m.put e).find? key = if key = e.key then some e else m.find? key := by
  unfold put
  split
  · rename_i hpresent
    show (m.entries.map _).find? _ = _
    -- an entry that is there is replaced in its place, a new one comes last
    rw [find?_map_replace]
    by_cases hkey : key = e.key
    · obtain ⟨old, hold⟩ := Option.isSome_iff_exists.1 hpresent
      have hold' : m.entries.find? (·.key == key) = some old := by rw [hkey]; exact hold
      rw [if_pos hkey, if_pos hkey, hold']
      rfl
    · rw [if_neg hkey, if_neg hkey]
      rfl
  · rename_i habsent
    have habsent' : m.entries.find? (·.key == e.key) = none := by simpa [find?] using habsent
    show (m.entries ++ [e]).find? _ = _
    rw [List.find?_append]
    by_cases hkey : key = e.key
    · subst hkey
      simp [habsent']
    · have hother : e.key ≠ key := fun h => hkey h.symm
      simp [find?, hkey, hother]

/-- An entry that is taken out is found no more, and no other goes with it. -/
theorem find?_remove (m : LeaseManager) (k key : LeaseKey) :
    (m.remove k).find? key = if key = k then none else m.find? key := by
  show (m.entries.filter _).find? _ = _
  rw [List.find?_filter]
  split
  · rename_i hkey
    subst hkey
    simp
  · rename_i hkey
    show _ = m.entries.find? _
    congr 1
    funext x
    by_cases hx : x.key = key
    · simp [hx, hkey]
    · simp [hx]

/-! ## What a step leaves alone -/

/-- Two managers have the same settings, time and threads. -/
structure Alike (m m' : LeaseManager) : Prop where
  config : m'.config = m.config
  hasRuntime : m'.hasRuntime = m.hasRuntime
  now : m'.now = m.now
  ended : m'.ended = m.ended

theorem Alike.refl (m : LeaseManager) : Alike m m := ⟨rfl, rfl, rfl, rfl⟩

theorem Alike.trans {m'' : LeaseManager} (h : Alike m m') (h' : Alike m' m'') : Alike m m'' :=
  ⟨h'.config.trans h.config, h'.hasRuntime.trans h.hasRuntime, h'.now.trans h.now,
    h'.ended.trans h.ended⟩

theorem alike_put (m : LeaseManager) (e : LeaseEntry) : Alike m (m.put e) := by
  unfold put
  split <;> exact ⟨rfl, rfl, rfl, rfl⟩

/-- To schedule a closing changes neither the clock nor the configuration. -/
theorem alike_schedule (m : LeaseManager) (e : LeaseEntry) : Alike m (m.schedule e).1 := by
  refine (alike_put m { e with references := 0, releasedAt := some m.now }).trans ?_
  unfold schedule
  dsimp only
  split <;> exact ⟨rfl, rfl, rfl, rfl⟩

theorem alike_startSweeping (m : LeaseManager) : Alike m m.startSweeping := by
  unfold startSweeping
  split <;> exact ⟨rfl, rfl, rfl, rfl⟩

/-- The first acquire starts the background sweeps. No entry changes with that. -/
theorem find?_startSweeping (m : LeaseManager) (key : LeaseKey) :
    m.startSweeping.find? key = m.find? key := by
  unfold startSweeping
  split <;> rfl

theorem closings_startSweeping (m : LeaseManager) : m.startSweeping.closings = m.closings := by
  unfold startSweeping
  split <;> rfl

/-- Keys are made from the configuration, the same before and after. -/
theorem keyOf_startSweeping (m : LeaseManager) (thread : ThreadId) (url : ConnectionString) :
    m.startSweeping.keyOf thread url = m.keyOf thread url := by
  unfold startSweeping
  split <;> rfl

theorem closings_put (m : LeaseManager) (e : LeaseEntry) : (m.put e).closings = m.closings := by
  unfold put
  split <;> rfl

/-- Only the closings of the key are cancelled. -/
theorem mem_closings_cancel : c ∈ (m.cancel k).closings ↔ c ∈ m.closings ∧ c.key ≠ k := by
  show c ∈ m.closings.filter _ ↔ _
  simp

/-! ## An entry is to be closed -/

/-- An entry with a scheduled closing has no references and tells when it lost them. -/
theorem find?_schedule (m : LeaseManager) (e : LeaseEntry) (key : LeaseKey) :
    (m.schedule e).1.find? key
      = if key = e.key then some { e with references := 0, releasedAt := some m.now }
        else m.find? key := by
  have hput := find?_put m { e with references := 0, releasedAt := some m.now } key
  unfold schedule
  dsimp only
  split <;> exact hput

/-- A scheduled closing replaces an earlier one of its key. Without a runtime there is none. -/
theorem closings_schedule (m : LeaseManager) (e : LeaseEntry) :
    (m.schedule e).1.closings
      = if m.hasRuntime then (m.cancel e.key).closings ++ [⟨e.key, m.now + m.config.grace⟩]
        else m.closings := by
  have hput := alike_put m { e with references := 0, releasedAt := some m.now }
  have hclosings := closings_put m { e with references := 0, releasedAt := some m.now }
  unfold schedule
  dsimp only
  rw [hput.hasRuntime]
  split
  · show List.filter _ _ ++ [_] = List.filter _ _ ++ [_]
    simp only [cancel, hclosings, hput.now, hput.config]
  · exact hclosings

/-- The closings after one was scheduled: the old ones of other keys, and the new one a grace period
from now. -/
theorem mem_closings_schedule :
    c ∈ (m.schedule e).1.closings
      ↔ (c ∈ m.closings ∧ (m.hasRuntime → c.key ≠ e.key))
        ∨ (m.hasRuntime ∧ c.key = e.key ∧ c.due = m.now + m.config.grace) := by
  rw [closings_schedule]
  split
  · rename_i hruntime
    rw [List.mem_append, mem_closings_cancel, List.mem_singleton]
    simp only [hruntime, true_implies, true_and]
    obtain ⟨key, due⟩ := c
    rw [Closing.mk.injEq]
  · rename_i hruntime
    simp [hruntime]

/-! ## A reference more, a reference less -/

/-- The first acquire of a key makes an entry without a connection. -/
theorem enter_of_none (h : m.find? key = none) (url : ConnectionString) :
    (m.enter key url).1 = { key, url, references := 1 } := by
  unfold enter
  rw [h]
  rfl

/-- A later acquire adds a reference, and the release is forgotten. An entry that is idle and has no
connection takes over the connection string. -/
theorem enter_of_some (h : m.find? key = some e) (url : ConnectionString) :
    (m.enter key url).1
      = { e with
          url := if e.references = 0 ∧ e.connection.isNone then url else e.url
          references := e.references + 1
          releasedAt := none } := by
  unfold enter
  rw [h]
  dsimp only [Option.getD_some]
  split <;> rfl

/-- The entry that is entered is the one of the key. -/
theorem enter_key (m : LeaseManager) (key : LeaseKey) (url : ConnectionString) :
    (m.enter key url).1.key = key := by
  cases h : m.find? key with
  | none => rw [enter_of_none h]
  | some e =>
    rw [enter_of_some h, ← key_of_find? h]

/-- An acquire changes the entry of its own key only. -/
theorem find?_enter (m : LeaseManager) (key : LeaseKey) (url : ConnectionString) (k : LeaseKey) :
    (m.enter key url).2.1.find? k
      = if k = key then some (m.enter key url).1 else m.find? k := by
  show ((m.cancel key).put (m.enter key url).1).find? k = _
  rw [find?_put, enter_key]
  rfl

/-- An acquire cancels the closing of its key. -/
theorem mem_closings_enter {url : ConnectionString} :
    c ∈ (m.enter key url).2.1.closings ↔ c ∈ m.closings ∧ c.key ≠ key := by
  show c ∈ ((m.cancel key).put (m.enter key url).1).closings ↔ _
  rw [closings_put, mem_closings_cancel]

/-- An acquire takes no time. -/
theorem alike_enter (m : LeaseManager) (key : LeaseKey) (url : ConnectionString) :
    Alike m (m.enter key url).2.1 := by
  have hcancel : Alike m (m.cancel key) := ⟨rfl, rfl, rfl, rfl⟩
  exact hcancel.trans (alike_put _ _)

/-- A reference of another generation gives nothing back. -/
theorem leave_of_stale {generation : Nat}
    (h : ∀ e, m.find? key = some e → e.generation ≠ generation) :
    m.leave key generation = (m, []) := by
  unfold leave
  split
  · rfl
  · rename_i e he
    rw [if_pos (h e he)]

/-- With the last reference given back, the entry is to be closed. -/
theorem leave_of_last (h : m.find? key = some e) (hlast : e.references ≤ 1) :
    m.leave key e.generation = m.schedule e := by
  simp only [leave, h, ne_eq, not_true_eq_false, ↓reduceIte, hlast]

/-- As long as others are left, giving a reference back only counts down. -/
theorem leave_of_shared (h : m.find? key = some e) (hshared : 1 < e.references) :
    m.leave key e.generation = (m.put { e with references := e.references - 1 }, []) := by
  have hmore : ¬e.references ≤ 1 := by omega
  simp only [leave, h, ne_eq, not_true_eq_false, ↓reduceIte, hmore]

/-- Giving a reference back takes no time. -/
theorem alike_leave (m : LeaseManager) (key : LeaseKey) (generation : Nat) :
    Alike m (m.leave key generation).1 := by
  unfold leave
  split
  · exact Alike.refl m
  · split
    · exact Alike.refl m
    · split
      · exact alike_schedule m _
      · exact alike_put m _

/-- A reference that is given back concerns its own key only. -/
theorem find?_leave_of_ne (h : k ≠ key) (generation : Nat) :
    (m.leave key generation).1.find? k = m.find? k := by
  unfold leave
  split
  · rfl
  · rename_i e he
    have hk : k ≠ e.key := fun hk => h (hk.trans (key_of_find? he))
    split
    · rfl
    · split
      · rw [find?_schedule, if_neg hk]
      · show (m.put _).find? k = _
        rw [find?_put]
        exact if_neg hk

/-- The closings of other keys stay when a reference is given back. -/
theorem mem_closings_leave_of_ne (h : c.key ≠ key) (generation : Nat) :
    c ∈ (m.leave key generation).1.closings ↔ c ∈ m.closings := by
  unfold leave
  split
  · exact Iff.rfl
  · rename_i e he
    have hk : c.key ≠ e.key := fun hk => h (hk.trans (key_of_find? he))
    split
    · exact Iff.rfl
    · split
      · rw [mem_closings_schedule]
        simp [hk]
      · show c ∈ (m.put _).closings ↔ _
        rw [closings_put]

/-! ## The references of ended threads are taken -/

/-- Takes the references from entries one after the other. -/
def reclaim (m : LeaseManager) (es : List LeaseEntry) : LeaseManager :=
  es.foldl (fun m e => (m.sweepEntry e).1) m

/-- The entries that a sweep takes the references from. -/
def orphans (m : LeaseManager) : List LeaseEntry :=
  m.entries.filter fun e => m.isOrphan e && 0 < e.references

/-- A sweep takes the references of all orphans, one entry behind the other. -/
theorem sweep_eq_reclaim (m : LeaseManager) : m.sweep.2.1 = m.reclaim m.orphans := by
  unfold sweep reclaim orphans
  dsimp only
  generalize m.entries.filter _ = es
  suffices h : ∀ (m : LeaseManager) (log : Log),
      (es.foldl (fun (x : LeaseManager × Log) e => ((x.1.sweepEntry e).1,
        x.2 ++ (x.1.sweepEntry e).2)) (m, log)).1 = es.foldl (fun m e => (m.sweepEntry e).1) m from
    h m []
  induction es with
  | nil => exact fun _ _ => rfl
  | cons e es ih => exact fun m log => ih (m.sweepEntry e).1 (log ++ (m.sweepEntry e).2)

theorem alike_sweepEntry (m : LeaseManager) (e : LeaseEntry) : Alike m (m.sweepEntry e).1 :=
  alike_schedule m { e with generation := e.generation + 1 }

/-- To sweep entries changes neither the clock nor the configuration. -/
theorem alike_reclaim (m : LeaseManager) (es : List LeaseEntry) : Alike m (m.reclaim es) := by
  induction es generalizing m with
  | nil => exact Alike.refl m
  | cons e es ih =>
    exact (alike_sweepEntry m e).trans (ih _)

/-- A swept entry is idle from now on, and of a new generation. -/
theorem find?_sweepEntry (m : LeaseManager) (e : LeaseEntry) (key : LeaseKey) :
    (m.sweepEntry e).1.find? key = if key = e.key then some (e.sweptAt m.now) else m.find? key :=
  find?_schedule m { e with generation := e.generation + 1 } key

/-- A key that is not swept keeps its entry. -/
theorem find?_reclaim_of_notMem {es : List LeaseEntry} (h : key ∉ es.map (·.key)) :
    (m.reclaim es).find? key = m.find? key := by
  induction es generalizing m with
  | nil => rfl
  | cons e es ih =>
    rw [List.map_cons, List.mem_cons, not_or] at h
    show ((m.sweepEntry e).1.reclaim es).find? key = _
    rw [ih h.2, find?_sweepEntry, if_neg h.1]

/-- A key that is swept keeps what became of its entry then: no later one has the same key. -/
theorem find?_reclaim_of_mem {es : List LeaseEntry} (hkeys : (es.map (·.key)).Nodup)
    (h : e ∈ es) : (m.reclaim es).find? e.key = some (e.sweptAt m.now) := by
  induction es generalizing m with
  | nil => exact absurd h List.not_mem_nil
  | cons x xs ih =>
    rw [List.map_cons, List.nodup_cons] at hkeys
    show ((m.sweepEntry x).1.reclaim xs).find? e.key = _
    rcases List.mem_cons.1 h with rfl | h
    · rw [find?_reclaim_of_notMem hkeys.1, find?_sweepEntry, if_pos rfl]
    · rw [ih hkeys.2 h, (alike_sweepEntry m x).now]

/-- Every swept key gets a closing a grace period from now, in place of the one that it had. -/
theorem mem_closings_reclaim {es : List LeaseEntry} :
    c ∈ (m.reclaim es).closings
      ↔ (c ∈ m.closings ∧ (m.hasRuntime → c.key ∉ es.map (·.key)))
        ∨ (m.hasRuntime ∧ c.key ∈ es.map (·.key) ∧ c.due = m.now + m.config.grace) := by
  induction es generalizing m with
  | nil => simp [reclaim]
  | cons e es ih =>
    have hfirst := alike_sweepEntry m e
    show c ∈ ((m.sweepEntry e).1.reclaim es).closings ↔ _
    rw [ih, hfirst.hasRuntime, hfirst.now, hfirst.config]
    have hclosings : c ∈ (m.sweepEntry e).1.closings ↔ _ :=
      mem_closings_schedule (m := m) (e := { e with generation := e.generation + 1 })
    rw [hclosings, List.map_cons, List.mem_cons, not_or]
    grind

/-! ## One entry and one closing for a key, closings in order of time -/

/-- No key has two entries or two closings, and the closings stand in order of time; none of them
is further off than the grace period. -/
structure Ordered (m : LeaseManager) : Prop where
  keys : (m.entries.map (·.key)).Nodup
  closingKeys : (m.closings.map (·.key)).Nodup
  sorted : m.closings.Pairwise (·.due ≤ ·.due)
  soon : ∀ c ∈ m.closings, c.due ≤ m.now + m.config.grace

/-- An entry that is put in takes the place of the one that has its key. -/
theorem nodup_keys_put (h : (m.entries.map (·.key)).Nodup) (e : LeaseEntry) :
    ((m.put e).entries.map (·.key)).Nodup := by
  unfold put
  split
  · -- an entry that is there is replaced by one with the same key
    have hkeys : (m.entries.map fun old => if old.key == e.key then e else old).map (·.key)
        = m.entries.map (·.key) := by
      rw [List.map_map]
      refine List.map_congr_left fun old _ => ?_
      by_cases hold : old.key = e.key
      · simp [hold]
      · simp [hold]
    show (List.map _ (List.map _ _)).Nodup
    rw [hkeys]
    exact h
  · rename_i habsent
    show (List.map _ (m.entries ++ [e])).Nodup
    rw [List.map_append, List.map_singleton, ← List.concat_eq_append, List.nodup_concat]
    refine ⟨fun hmem => habsent ?_, h⟩
    obtain ⟨old, hold, hkey⟩ := List.mem_map.1 hmem
    exact List.find?_isSome.2 ⟨old, hold, by simpa using hkey⟩

/-- Fewer closings at a later time. -/
theorem Ordered.mono (h : m.Ordered) (hkeys : (m'.entries.map (·.key)).Nodup)
    (hclosings : m'.closings.Sublist m.closings) (hnow : m.now ≤ m'.now)
    (hconfig : m'.config = m.config) : m'.Ordered where
  keys := hkeys
  closingKeys := h.closingKeys.sublist (hclosings.map _)
  sorted := h.sorted.sublist hclosings
  soon c hc := by
    have hdue := h.soon c (hclosings.subset hc)
    rw [hconfig]
    omega

theorem Ordered.cancel (h : m.Ordered) (key : LeaseKey) : (m.cancel key).Ordered :=
  h.mono h.keys List.filter_sublist (Nat.le_refl _) rfl

theorem Ordered.put (h : m.Ordered) (e : LeaseEntry) : (m.put e).Ordered := by
  have halike := alike_put m e
  have hclosings : (m.put e).closings.Sublist m.closings := by
    rw [closings_put]
  exact h.mono (nodup_keys_put h.keys e) hclosings (Nat.le_of_eq halike.now.symm) halike.config

/-- The new closing is the last one: it is due a whole grace period from now. -/
theorem Ordered.schedule (h : m.Ordered) (e : LeaseEntry) : (m.schedule e).1.Ordered := by
  have halike := alike_schedule m e
  have hkeys : ((m.schedule e).1.entries.map (·.key)).Nodup := by
    have hput := nodup_keys_put h.keys { e with references := 0, releasedAt := some m.now }
    unfold LeaseManager.schedule
    dsimp only
    split <;> exact hput
  have hother := h.cancel e.key
  have hclosings := closings_schedule m e
  -- a closing is only scheduled in a runtime, behind all others: none of them is due later than a
  -- grace period from now
  split at hclosings
  · refine ⟨hkeys, ?_, ?_, ?_⟩
    · rw [hclosings, List.map_append, List.map_singleton, ← List.concat_eq_append,
        List.nodup_concat]
      refine ⟨fun hmem => ?_, hother.closingKeys⟩
      obtain ⟨c, hc, hkey⟩ := List.mem_map.1 hmem
      exact (mem_closings_cancel.1 hc).2 hkey
    · rw [hclosings, List.pairwise_append]
      refine ⟨hother.sorted, List.pairwise_singleton _ _, fun c hc last hlast => ?_⟩
      rw [List.mem_singleton.1 hlast]
      exact hother.soon c hc
    · intro c hc
      rw [halike.now, halike.config]
      rcases mem_closings_schedule.1 hc with ⟨hold, -⟩ | ⟨-, -, hdue⟩
      · exact h.soon c hold
      · exact Nat.le_of_eq hdue
  · refine h.mono hkeys ?_ (Nat.le_of_eq halike.now.symm) halike.config
    rw [hclosings]

theorem Ordered.remove (h : m.Ordered) (key : LeaseKey) : (m.remove key).Ordered :=
  h.mono (h.keys.sublist (List.filter_sublist.map _)) (List.Sublist.refl _) (Nat.le_refl _) rfl

theorem Ordered.startSweeping (h : m.Ordered) : m.startSweeping.Ordered := by
  unfold LeaseManager.startSweeping
  split
  · exact h.mono h.keys (List.Sublist.refl _) (Nat.le_refl _) rfl
  · exact h

/-- An acquire adds an entry under a key that had none, or changes the one that is there. -/
theorem Ordered.enter (h : m.Ordered) (key : LeaseKey) (url : ConnectionString) :
    (m.enter key url).2.1.Ordered :=
  (h.cancel key).put _

/-- Giving a reference back may schedule a closing, and nothing else. -/
theorem Ordered.leave (h : m.Ordered) (key : LeaseKey) (generation : Nat) :
    (m.leave key generation).1.Ordered := by
  unfold LeaseManager.leave
  split
  · exact h
  · split
    · exact h
    · split
      · exact h.schedule _
      · exact h.put _

/-- Swept entries are closed last, all of them a grace period from now. -/
theorem Ordered.reclaim (h : m.Ordered) (es : List LeaseEntry) : (m.reclaim es).Ordered := by
  induction es generalizing m with
  | nil => exact h
  | cons e es ih => exact ih (h.schedule { e with generation := e.generation + 1 })

/-! ## The entries and closings after a sweep -/

/-- An entry is found under its key, for there is no other. -/
theorem find?_of_mem (h : m.Ordered) (he : e ∈ m.entries) : m.find? e.key = some e :=
  find?_of_nodup h.keys he

/-- No two orphans have the same key. -/
theorem nodup_keys_orphans (h : m.Ordered) : (m.orphans.map (·.key)).Nodup :=
  h.keys.sublist (List.filter_sublist.map _)

/-- Orphans have references that their ended thread can not give back. -/
theorem mem_orphans : e ∈ m.orphans ↔ e ∈ m.entries ∧ m.isOrphan e ∧ 0 < e.references := by
  simp [orphans]

/-- The key of an orphan is told by its entry. -/
theorem key_mem_orphans (h : m.Ordered) :
    key ∈ m.orphans.map (·.key)
      ↔ ∃ e, m.find? key = some e ∧ m.isOrphan e ∧ 0 < e.references := by
  rw [List.mem_map]
  constructor
  · rintro ⟨e, he, rfl⟩
    obtain ⟨hmem, horphan⟩ := mem_orphans.1 he
    exact ⟨e, find?_of_mem h hmem, horphan⟩
  · rintro ⟨e, he, horphan⟩
    exact ⟨e, mem_orphans.2 ⟨mem_of_find? he, horphan⟩, key_of_find? he⟩

theorem Ordered.sweep (h : m.Ordered) : m.sweep.2.1.Ordered := by
  rw [sweep_eq_reclaim]
  exact h.reclaim m.orphans

theorem alike_sweep (m : LeaseManager) : Alike m m.sweep.2.1 := by
  rw [sweep_eq_reclaim]
  exact alike_reclaim m m.orphans

/-- A sweep takes the references of a key, or there are none for it to take. -/
theorem orphaned_or_kept (m : LeaseManager) (key : LeaseKey) :
    (∃ e, m.find? key = some e ∧ m.isOrphan e ∧ 0 < e.references)
      ∨ ∀ e, m.find? key = some e → m.isOrphan e → e.references = 0 := by
  by_cases horphan : ∃ e, m.find? key = some e ∧ m.isOrphan e ∧ 0 < e.references
  · exact .inl horphan
  · refine .inr fun e he ho => Nat.eq_zero_of_not_pos fun hpos => ?_
    exact horphan ⟨e, he, ho, hpos⟩

/-- A sweep takes all references of an orphan. -/
theorem find?_sweep_of_orphan (h : m.Ordered) (he : m.find? key = some e) (ho : m.isOrphan e)
    (hr : 0 < e.references) : m.sweep.2.1.find? key = some (e.sweptAt m.now) := by
  have hkey := key_of_find? he
  subst hkey
  rw [sweep_eq_reclaim]
  exact find?_reclaim_of_mem (nodup_keys_orphans h) (mem_orphans.2 ⟨mem_of_find? he, ho, hr⟩)

/-- Entries of living threads and idle ones are left alone by a sweep. -/
theorem find?_sweep_of_kept (h : m.Ordered)
    (hkept : ∀ e, m.find? key = some e → m.isOrphan e → e.references = 0) :
    m.sweep.2.1.find? key = m.find? key := by
  rw [sweep_eq_reclaim]
  refine find?_reclaim_of_notMem fun hmem => ?_
  obtain ⟨e, he, ho, hr⟩ := (key_mem_orphans h).1 hmem
  have hzero := hkept e he ho
  omega

/-- In a runtime, a swept key is closed a grace period from now, and not earlier. -/
theorem mem_closings_sweep_of_orphan (h : m.Ordered) (he : m.find? c.key = some e)
    (ho : m.isOrphan e) (hr : 0 < e.references) :
    c ∈ m.sweep.2.1.closings
      ↔ (c ∈ m.closings ∧ ¬m.hasRuntime) ∨ (m.hasRuntime ∧ c.due = m.now + m.config.grace) := by
  have hmem : c.key ∈ m.orphans.map (·.key) := (key_mem_orphans h).2 ⟨e, he, ho, hr⟩
  rw [sweep_eq_reclaim, mem_closings_reclaim]
  simp [hmem]

/-- The closing of a key that is not swept stays as it is. -/
theorem mem_closings_sweep_of_kept (h : m.Ordered)
    (hkept : ∀ e, m.find? c.key = some e → m.isOrphan e → e.references = 0) :
    c ∈ m.sweep.2.1.closings ↔ c ∈ m.closings := by
  have hmem : c.key ∉ m.orphans.map (·.key) := by
    intro hmem
    obtain ⟨e, he, ho, hr⟩ := (key_mem_orphans h).1 hmem
    have hzero := hkept e he ho
    omega
  rw [sweep_eq_reclaim, mem_closings_reclaim]
  simp [hmem]

/-! ## The connection of a key -/

/-- The open connection of a key. -/
def connection? (m : LeaseManager) (key : LeaseKey) : Option Connection :=
  (m.find? key).bind (·.connection)

/-- The connection of a key is that of its entry. -/
theorem connection_of_find? (he : m.find? key = some e) : m.connection? key = e.connection := by
  unfold connection?
  rw [he]
  rfl

/-- A key is open if it has a connection. -/
theorem isOpen_eq (m : LeaseManager) (key : LeaseKey) :
    m.isOpen key = (m.connection? key).isSome := by
  unfold isOpen connection?
  cases m.find? key with
  | none => rfl
  | some e => cases h : e.connection <;> simp [h]

/-- The entry that is entered has the connection that the key had. -/
theorem connection_enter (m : LeaseManager) (key : LeaseKey) (url : ConnectionString) :
    (m.startSweeping.enter key url).1.connection = m.connection? key := by
  have hfind := m.find?_startSweeping key
  unfold connection?
  cases he : m.find? key with
  | none =>
    rw [he] at hfind
    rw [enter_of_none hfind]
    rfl
  | some e =>
    rw [he] at hfind
    rw [enter_of_some hfind]
    rfl

/-- A key has the connection of the entry that is put in. -/
theorem connection_put (m : LeaseManager) (e : LeaseEntry) (key : LeaseKey) :
    (m.put e).connection? key = if key = e.key then e.connection else m.connection? key := by
  unfold connection?
  rw [find?_put]
  split <;> rfl

/-- A key keeps its connection when its closing is scheduled. -/
theorem connection_schedule (m : LeaseManager) (e : LeaseEntry) (key : LeaseKey) :
    (m.schedule e).1.connection? key = if key = e.key then e.connection else m.connection? key := by
  unfold connection?
  rw [find?_schedule]
  split <;> rfl

/-- A reference that is given back leaves every key its connection. -/
theorem connection_leave (m : LeaseManager) (k : LeaseKey) (generation : Nat) (key : LeaseKey) :
    (m.leave k generation).1.connection? key = m.connection? key := by
  unfold leave
  split
  · rfl
  · rename_i e he
    have hek := key_of_find? he
    -- the entry is put back with its connection
    have hsame : (if key = e.key then e.connection else m.connection? key)
        = m.connection? key := by
      split
      · rename_i hkey
        rw [hkey, hek, connection_of_find? he]
      · rfl
    split
    · rfl
    · split
      · rw [connection_schedule, hsame]
      · show (m.put _).connection? key = _
        rw [connection_put]
        exact hsame

/-- A sweep takes references, not connections. -/
theorem connection_sweep (h : m.Ordered) (key : LeaseKey) :
    m.sweep.2.1.connection? key = m.connection? key := by
  rcases m.orphaned_or_kept key with ⟨e, he, horphan, hpos⟩ | hkept
  · rw [connection_of_find? he, connection_of_find? (find?_sweep_of_orphan h he horphan hpos)]
    rfl
  · unfold connection?
    rw [find?_sweep_of_kept h hkept]

end LeaseManager

end RowMapper
