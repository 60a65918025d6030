import RowMapper.Proofs.Lease.Custody

/-!
# Events keep custody

What holds of a pool and its users between two events holds after the next one (`Custody.Sound`).
An event concerns one key, a sweep those of the ended threads (`LeaseManager.Concerns`). A
connection leaves the cache only when its entry is closed: it is closed then unless somebody uses
it.
-/

namespace RowMapper

namespace LeaseManager

variable {m m' : LeaseManager} {key : LeaseKey} {e : LeaseEntry}

/-- A step concerns the entry and the closing of one key only. -/
structure Concerns (m m' : LeaseManager) (key : LeaseKey) : Prop where
  alike : Alike m m'
  entry : ∀ k, k ≠ key → m'.find? k = m.find? k
  closings : ∀ d, d.key ≠ key → (d ∈ m'.closings ↔ d ∈ m.closings)

/-- An acquire concerns its key. -/
theorem concerns_enter (m : LeaseManager) (key : LeaseKey) (url : ConnectionString) :
    Concerns m (m.startSweeping.enter key url).2.1 key where
  alike := m.alike_startSweeping.trans (alike_enter _ _ _)
  entry k hk := by rw [find?_enter, if_neg hk, find?_startSweeping]
  closings d hdk := by
    rw [mem_closings_enter, closings_startSweeping]
    exact and_iff_left hdk

/-- A connection that is put into an entry concerns the key of the entry. -/
theorem concerns_put (m : LeaseManager) (hkey : e.key = key) : Concerns m (m.put e) key where
  alike := alike_put m e
  entry k hk := by
    rw [find?_put, hkey]
    exact if_neg hk
  closings d _ := by rw [closings_put]

/-- Giving a reference back concerns its key. -/
theorem concerns_leave (m : LeaseManager) (key : LeaseKey) (generation : Nat) :
    Concerns m (m.leave key generation).1 key where
  alike := alike_leave m key generation
  entry _ hk := find?_leave_of_ne hk generation
  closings _ hdk := mem_closings_leave_of_ne hdk generation

/-- A closing concerns its key. -/
theorem concerns_close (m : LeaseManager) (key : LeaseKey) :
    Concerns m ((m.cancel key).remove key) key where
  alike := ⟨rfl, rfl, rfl, rfl⟩
  entry k hk := by
    rw [find?_remove, if_neg hk]
    rfl
  closings _ hdk := mem_closings_cancel.trans (and_iff_left hdk)

/-- All other keys keep their connections. -/
theorem Concerns.connection (h : Concerns m m' key) {k : LeaseKey} (hk : k ≠ key) :
    m'.connection? k = m.connection? k := by
  unfold connection?
  rw [h.entry k hk]

end LeaseManager

namespace Custody

variable {origin : Network} {c : Custody} {key k : LeaseKey} {x : Holder} {pool : Pool}
  {m : LeaseManager} {holders : List Holder}

/-- A step that concerns one key, and the holders of that key only. -/
theorem Sound.tended_step (h : c.Sound origin) (concerns : c.pool.manager.Concerns m k)
    (hk : m.Tended k (holders.filter (·.key == k)) (c.pool.manager.lastDrop m k (c.dropped k)))
    (hother : ∀ key, key ≠ k → holders.filter (·.key == key) = c.holdersOf key)
    (key : LeaseKey) : m.Tended key (holders.filter (·.key == key))
      (c.pool.manager.lastDrop m key (c.dropped key)) := by
  by_cases hkey : key = k
  · rw [hkey]
    exact hk
  · rw [hother key hkey]
    refine (h.tended key).untouched (concerns.entry key hkey)
      (fun d hd hdk => (concerns.closings d (hdk ▸ hkey)).1 hd) concerns.alike.config ?_
    rw [concerns.alike.ended]
    exact List.Subset.refl _

/-- A step that leaves all entries and holders alone. -/
theorem Sound.tended_same (h : c.Sound origin)
    (hfind : ∀ key, m.find? key = c.pool.manager.find? key)
    (hclosings : m.closings = c.pool.manager.closings)
    (hconfig : m.config = c.pool.manager.config) (hended : c.pool.manager.ended ⊆ m.ended)
    (key : LeaseKey) : m.Tended key (c.holdersOf key)
      (c.pool.manager.lastDrop m key (c.dropped key)) :=
  (h.tended key).untouched (hfind key) (fun _ hd _ => hclosings ▸ hd) hconfig hended

/-! ## Acquires -/

/-- Every key keeps its connection when a reference is added. -/
theorem connection_entered (m : LeaseManager) (k : LeaseKey) (url : ConnectionString)
    (key : LeaseKey) :
    (m.startSweeping.enter k url).2.1.connection? key = m.connection? key := by
  by_cases hk : key = k
  · subst hk
    have hfind := m.startSweeping.find?_enter key url key
    rw [if_pos rfl] at hfind
    rw [LeaseManager.connection_of_find? hfind, LeaseManager.connection_enter]
  · exact (m.concerns_enter k url).connection hk

/-- Who enters is a holder more, with the connection of the entry. -/
theorem tended_enter {thread : ThreadId} {url : ConnectionString} {held : List Holder}
    {dropped : Option Nat} (h : m.Tended (m.keyOf thread url) held dropped)
    (hthread : thread ∉ m.ended) {e : LeaseEntry}
    (he : (m.startSweeping.enter (m.keyOf thread url) url).1 = e) (hx : x.swept = false)
    (hgeneration : x.generation = e.generation) (hconnection : x.connection? = e.connection)
    (dropped' : Option Nat) :
    (m.startSweeping.enter (m.keyOf thread url) url).2.1.Tended (m.keyOf thread url) (x :: held)
      dropped' := by
  have hstart := m.alike_startSweeping
  have hruns : ∀ t, (m.keyOf thread url).thread = some t → t ∉ m.startSweeping.ended := by
    intro t ht
    unfold LeaseManager.keyOf at ht
    dsimp only at ht
    split at ht
    · rw [hstart.ended, ← Option.some.inj ht]
      exact hthread
    · cases ht
  generalize m.keyOf thread url = k at *
  have hbefore := h.untouched (m.find?_startSweeping k)
    (fun _ hd _ => by rwa [m.closings_startSweeping] at hd) hstart.config
    (by rw [hstart.ended]; exact List.Subset.refl _)
  subst he
  exact hbefore.enter url hruns hx hgeneration hconnection dropped'

/-- An acquire that starts keeps what holds between events. -/
theorem sound_enter {thread : ThreadId} {url : ConnectionString} (h : c.Sound origin)
    (allowed : c.Allows (.enter thread url)) : (c.after (.enter thread url)).Sound origin := by
  have hmanager := c.pool.enter_manager thread url
  have hnetwork := c.pool.enter_network thread url
  obtain ⟨e, he⟩ : ∃ e, (c.pool.manager.startSweeping.enter
    (c.pool.manager.keyOf thread url) url).1 = e := ⟨_, rfl⟩
  -- who enters, whether or not there is a connection to share
  obtain ⟨x, hx⟩ : ∃ x : Holder, x = ⟨(c.pool.enter thread url).1, false⟩ := ⟨_, rfl⟩
  obtain ⟨hkey, hgeneration, hconnection, hinUse⟩ := c.pool.enter_spec thread url he hx
  have htended := tended_enter (h.tended _) allowed he (by rw [hx]) hgeneration hconnection
  have hcached := c.pool.manager.connection_enter (c.pool.manager.keyOf thread url) url
  have hafter : c.after (.enter thread url) = c.enlist x (c.pool.enter thread url).2 := by
    rw [hx]
    rfl
  rw [hafter]
  generalize c.pool.manager.keyOf thread url = k at *
  generalize (c.pool.enter thread url).2 = pool at *
  have concerns := c.pool.manager.concerns_enter k url
  have hordered := h.ordered.startSweeping.enter k url
  have hsame := connection_entered c.pool.manager k url
  rw [← hmanager] at htended concerns hordered hsame
  refine ⟨hordered, h.tended_step concerns ?_ fun key hk => ?_, ?_, ?_⟩
  · show pool.manager.Tended k ((x :: c.holders).filter (·.key == k)) _
    rw [holdersOf_cons, if_pos hkey]
    exact htended _
  · show (x :: c.holders).filter (·.key == key) = _
    rw [holdersOf_cons, if_neg (hkey ▸ Ne.symm hk)]
  · show pool.inUse.Perm ((x :: c.holders).filterMap _ ++ c.kept)
    rw [hinUse]
    cases hc : x.connection? with
    | none =>
      rw [List.filterMap_cons_none hc]
      exact h.users
    | some d =>
      rw [List.filterMap_cons_some hc]
      exact h.users.cons d
  · show Accounts origin pool.network pool.inUse c.opened c.closed pool.manager.cached
      (c.outlived ++ c.late)
    rw [hnetwork]
    refine h.accounts.reuse (h.ordered.cached_perm hordered hsame) fun d hd => ?_
    rw [hinUse, List.mem_append] at hd
    rcases hd with hd | hd
    · -- the connection that is shared is the one of the cache
      refine Or.inr (h.ordered.mem_cached.2 ⟨k, ?_⟩)
      rw [← hcached, he, ← hconnection]
      simpa using hd
    · exact Or.inl hd

/-- Those who wait for the connection of a key share the one that is opened. -/
theorem users_receive (h : c.Sound origin) (key : LeaseKey) (d : Connection) :
    (List.replicate (c.holders.countP (·.waitsFor key)) d ++ c.pool.inUse).Perm
      ((c.holders.map (·.receive key d)).filterMap (·.connection?) ++ c.kept) := by
  have hreceive := Holder.connections_receive key d c.holders
  have husers := h.users.append_left (List.replicate (c.holders.countP (·.waitsFor key)) d)
  rw [← List.append_assoc] at husers
  exact husers.trans (hreceive.symm.append_right _)

/-- A connection that is received by one key leaves the holders of another one alone. -/
theorem holdersOf_receive_of_ne (c : Custody) (d : Connection) (hk : key ≠ k) :
    (c.holders.map (·.receive k d)).filter (·.key == key) = c.holdersOf key := by
  rw [holdersOf_map c (·.receive k d) (fun y => by simp)]
  refine (List.map_congr_left fun y hy => ?_).trans (List.map_id _)
  refine Holder.receive_of_key_ne fun hyk => hk ?_
  rw [← (mem_holdersOf.1 hy).2, hyk]

/-- What a manager comes to that puts a connection that was opened where its entry is. -/
theorem Sound.put_connection (h : c.Sound origin) (hx : x ∈ c.holdersOf k)
    (hnone : x.connection? = none) (d : Connection)
    (hm : m = match c.pool.manager.find? k with
      | some e => c.pool.manager.put { e with connection := some d }
      | none => c.pool.manager) :
    c.pool.manager.Concerns m k ∧ m.Ordered
      ∧ m.Tended k ((c.holdersOf k).map (·.receive k d))
        (c.pool.manager.lastDrop m k (c.dropped k))
      ∧ if (c.pool.manager.find? k).isSome then m.cached.Perm (d :: c.pool.manager.cached)
        else m = c.pool.manager := by
  have hkeys : ∀ y ∈ c.holdersOf k, y.key = k := fun y hy => (mem_holdersOf.1 hy).2
  cases he : c.pool.manager.find? k with
  | none =>
    rw [he] at hm
    have hm' : m = c.pool.manager := hm
    subst hm'
    refine ⟨⟨.refl _, fun _ _ => rfl, fun _ _ => .rfl⟩, h.ordered, ?_, rfl⟩
    rw [LeaseManager.lastDrop_of_find? rfl]
    -- they all wait, like the one that connects
    exact (h.tended k).received hkeys he
      (fun y hy => ((h.tended k).agree y hy x hx).trans hnone) d
  | some e =>
    rw [he] at hm
    have hm' : m = c.pool.manager.put { e with connection := some d } := hm
    subst hm'
    have hek := LeaseManager.key_of_find? he
    -- the one that waits knows that the entry has no connection
    have hclosed : e.connection = none := (((h.tended k).present e he).shared x hx).symm.trans hnone
    have concerns := c.pool.manager.concerns_put (e := { e with connection := some d }) hek
    have hordered := h.ordered.put { e with connection := some d }
    refine ⟨concerns, hordered, (h.tended k).opened hkeys he hclosed d, ?_⟩
    rw [if_pos Option.isSome_some]
    refine h.ordered.cached_perm_cons hordered
      ((LeaseManager.connection_of_find? he).trans hclosed) ?_ fun _ hk => concerns.connection hk
    rw [LeaseManager.connection_put, if_pos hek.symm]

/-- A connection is opened. It goes into the cache with the entry of its key; if that is gone, it
belongs to those who waited for it. -/
theorem sound_receive (h : c.Sound origin) {o : Opening} (hx : x ∈ c.holdersOf o.key)
    (hnone : x.connection? = none) {lease : Lease}
    (hconclude : c.pool.conclude o = (.ok lease, pool)) :
    (c.receive o.key lease.connection pool).Sound origin := by
  obtain ⟨-, -, hmanager⟩ := Pool.conclude_of_ok hconclude
  have hconnect := Pool.conclude_connect hconclude
  obtain ⟨concerns, hordered, htended, hcached⟩ :=
    h.put_connection hx hnone lease.connection hmanager
  refine ⟨hordered, h.tended_step concerns ?_ fun key hk => ?_, users_receive h _ _, ?_⟩
  · show pool.manager.Tended o.key ((c.holders.map _).filter (·.key == o.key)) _
    rw [holdersOf_map c (·.receive o.key lease.connection) (fun y => by simp)]
    exact htended
  · exact c.holdersOf_receive_of_ne _ hk
  · refine h.accounts.connect hconnect ?_ fun d hd => ?_
    · show (pool.manager.cached ++ (c.outlived ++ if (c.pool.manager.find? o.key).isSome
        then c.late else lease.connection :: c.late)).Perm _
      -- a connection whose entry is gone belongs to its holders alone
      split at hcached
      · rename_i hsome
        rw [if_pos hsome]
        exact hcached.append_right _
      · rename_i hgone
        rw [if_neg hgone, hcached]
        exact (List.perm_middle.append_left _).trans List.perm_middle
    · rcases List.mem_append.1 hd with hd | hd
      · exact Or.inr (List.eq_of_mem_replicate hd)
      · exact Or.inl hd

/-! ## References are given back -/

/-- A holder that leaves takes its use of the connection with it. -/
theorem Sound.left (h : c.Sound origin) (hx : x ∈ c.holders)
    (hmanager : pool.manager = (c.pool.manager.leave x.key x.generation).1)
    (hnetwork : pool.network = c.pool.network)
    (hinUse : pool.inUse = (x.connection?.map c.pool.inUse.erase).getD c.pool.inUse) :
    Sound origin { c.proceed pool with holders := c.holders.erase x } := by
  have concerns := c.pool.manager.concerns_leave x.key x.generation
  have hordered := h.ordered.leave x.key x.generation
  have hsame := c.pool.manager.connection_leave x.key x.generation
  have htended := (h.tended x.key).leave (mem_holdersOf.2 ⟨hx, rfl⟩)
  rw [← hmanager] at concerns hordered hsame htended
  refine ⟨hordered, h.tended_step concerns ?_ fun key hk => ?_, ?_, ?_⟩
  · rw [holdersOf_erase]
    exact htended
  · rw [holdersOf_erase, List.erase_of_not_mem]
    exact fun hmem => hk (mem_holdersOf.1 hmem).2.symm
  · show pool.inUse.Perm ((c.holders.erase x).filterMap _ ++ c.kept)
    -- one use of the connection goes with the holder
    have husers := h.users.trans
      (((List.perm_cons_erase hx).filterMap (·.connection?)).append_right c.kept)
    rw [hinUse]
    cases hc : x.connection? with
    | none =>
      rw [List.filterMap_cons_none hc] at husers
      exact husers
    | some d =>
      rw [List.filterMap_cons_some hc] at husers
      have herased := husers.erase d
      rwa [List.cons_append, List.erase_cons_head] at herased
  · show Accounts origin pool.network pool.inUse c.opened c.closed pool.manager.cached
      (c.outlived ++ c.late)
    rw [hnetwork]
    refine h.accounts.reuse (h.ordered.cached_perm hordered hsame) fun d hd => Or.inl ?_
    rw [hinUse] at hd
    cases hc : x.connection? with
    | none =>
      rw [hc] at hd
      exact hd
    | some own =>
      rw [hc] at hd
      exact List.mem_of_mem_erase hd

/-- A lease that is given back keeps what holds between events. -/
theorem sound_leave (h : c.Sound origin) (allowed : c.Allows (.leave x)) :
    (c.after (.leave x)).Sound origin :=
  have ⟨hmanager, hnetwork, hinUse⟩ := c.pool.drop_spec x
  h.left allowed hmanager hnetwork hinUse

/-- So does an acquire that gets its turn, whether it connects or fails. -/
theorem sound_connect (h : c.Sound origin) (allowed : c.Allows (.connect x)) :
    (c.after (.connect x)).Sound origin := by
  obtain ⟨hx, o, -, hkey, hgeneration, hnone, hconnect⟩ := connect_cases allowed
  rcases hconnect with ⟨lease, pool, hconclude, hafter⟩ | ⟨cause, pool, hconclude, hafter⟩
  · rw [hafter]
    exact sound_receive h (mem_holdersOf.2 ⟨hx, hkey⟩) hnone hconclude
  · -- the reference is given back
    obtain ⟨hnetwork, hinUse⟩ := Pool.conclude_refused hconclude
    rw [hafter]
    refine h.left hx ?_ hnetwork ?_
    · rw [Pool.conclude_of_error hconclude, hkey, hgeneration]
    · rw [hnone, hinUse]
      rfl

/-! ## References are taken, entries closed -/

/-- So does a sweep: the holders that it takes the references from keep their connections. -/
theorem sound_sweep (h : c.Sound origin) : (c.after .sweep).Sound origin := by
  refine ⟨h.ordered.sweep, fun key => ?_, ?_, ?_⟩
  · show c.pool.manager.sweep.2.1.Tended key ((c.holdersSwept _).filter (·.key == key)) _
    rw [holdersOf_swept]
    exact (h.tended key).sweep h.ordered
  · show c.pool.inUse.Perm ((c.holdersSwept _).filterMap _ ++ c.kept)
    rw [connections_swept]
    exact h.users
  · exact h.accounts.reuse
      (h.ordered.cached_perm h.ordered.sweep (LeaseManager.connection_sweep h.ordered))
      fun d hd => Or.inl hd

/-- The entry of a key that is due has no references since the time told. -/
theorem Sound.due (h : c.Sound origin) (allowed : c.Allows (.close key)) :
    ∃ e time, c.pool.manager.find? key = some e ∧ e.references = 0 ∧ c.dropped key = some time
      ∧ time + c.pool.manager.config.grace ≤ c.pool.manager.now := by
  obtain ⟨x, hx, hkey, hdue⟩ := allowed
  obtain ⟨e, time, he, hidle, hdropped, hgrace⟩ := (h.tended key).closing x hx hkey
  exact ⟨e, time, he, hidle, hdropped, by omega⟩

/-- So does a closing, which takes out an entry that nobody refers to. -/
theorem sound_close (h : c.Sound origin) (allowed : c.Allows (.close key)) :
    (c.after (.close key)).Sound origin := by
  obtain ⟨e, time, he, hidle, -⟩ := h.due allowed
  have hmanager := Pool.close_manager he hidle
  obtain ⟨hinUse, hnetwork⟩ := c.pool.close_spec key
  have hexpiring := Pool.expiring_eq he hidle
  have concerns := c.pool.manager.concerns_close key
  have hordered := (h.ordered.cancel key).remove key
  have htended := (h.tended key).close he hidle
  have hgone : ((c.pool.manager.cancel key).remove key).connection? key = none := by
    unfold LeaseManager.connection?
    rw [LeaseManager.find?_remove, if_pos rfl]
    rfl
  have hbefore := LeaseManager.connection_of_find? he
  rw [← hmanager] at concerns hordered htended hgone
  -- those who hold references to the key lost them to a sweep: they stay as they are
  refine ⟨hordered, h.tended_step concerns (htended _) fun key _ => rfl, ?_, ?_⟩
  · show (c.pool.close key).1.inUse.Perm _
    rw [hinUse]
    exact h.users
  · show Accounts origin (c.pool.close key).1.network (c.pool.close key).1.inUse c.opened
      ((c.pool.parting? key).toList ++ c.closed) (c.pool.close key).1.manager.cached
      ((c.pool.forsaken? key).toList ++ c.outlived ++ c.late)
    rw [hinUse, hnetwork]
    unfold Pool.parting? Pool.forsaken?
    rw [hexpiring]
    cases hc : e.connection with
    | none =>
      -- the entry never had a connection
      rw [hc] at hbefore
      refine h.accounts.reuse (h.ordered.cached_perm hordered fun k => ?_) fun d hd => Or.inl hd
      by_cases hk : k = key
      · rw [hk, hgone, hbefore]
      · exact concerns.connection hk
    | some d =>
      -- the connection leaves the cache, for one place or the other
      rw [hc] at hbefore
      have hcached := hordered.cached_perm_cons h.ordered hgone hbefore
        fun k hk => (concerns.connection hk).symm
      by_cases hused : d ∈ c.pool.inUse
      · simp only [Option.filter, hused, not_true_eq_false, decide_false, decide_true, ↓reduceIte,
          Bool.false_eq_true, Option.toList_none, Option.toList_some, List.nil_append,
          List.singleton_append]
        exact h.accounts.abandon hcached
      · simp only [Option.filter, hused, not_false_eq_true, decide_false, decide_true, ↓reduceIte,
          Bool.false_eq_true, Option.toList_none, Option.toList_some, List.nil_append,
          List.singleton_append]
        exact h.accounts.close hcached hused

/-! ## What happens beside the entries -/

/-- A connection that is used apart from leases is one in use. -/
theorem sound_keep {d : Connection} (h : c.Sound origin) (allowed : c.Allows (.keep d)) :
    (c.after (.keep d)).Sound origin where
  ordered := h.ordered
  tended := h.tended_same (fun _ => rfl) rfl rfl (List.Subset.refl _)
  users := (h.users.cons d).trans List.perm_middle.symm
  accounts := h.accounts.reuse (.refl _) fun _ hd => by
    rcases List.mem_cons.1 hd with rfl | hd
    · exact Or.inl allowed
    · exact Or.inl hd

theorem sound_letGo {d : Connection} (h : c.Sound origin) (allowed : c.Allows (.letGo d)) :
    (c.after (.letGo d)).Sound origin where
  ordered := h.ordered
  tended := h.tended_same (fun _ => rfl) rfl rfl (List.Subset.refl _)
  users := by
    have hkept : d ∈ c.kept := allowed
    have husers := (h.users.trans ((List.perm_cons_erase hkept).append_left _)).trans
      List.perm_middle
    have herased := husers.erase d
    rwa [List.erase_cons_head] at herased
  accounts := h.accounts.reuse (.refl _) fun _ hd => Or.inl (List.mem_of_mem_erase hd)

/-- Servers may change in all but their counts. -/
theorem sound_outside {network : Network} (h : c.Sound origin)
    (allowed : c.Allows (.outside network)) : (c.after (.outside network)).Sound origin where
  ordered := h.ordered
  tended := h.tended_same (fun _ => rfl) rfl rfl (List.Subset.refl _)
  users := h.users
  accounts := h.accounts.keeps allowed

theorem sound_wait {time : Nat} (h : c.Sound origin) (allowed : c.Allows (.wait time)) :
    (c.after (.wait time)).Sound origin where
  ordered := h.ordered.mono h.ordered.keys (.refl _) allowed rfl
  tended := h.tended_same (fun _ => rfl) rfl rfl (List.Subset.refl _)
  users := h.users
  accounts := h.accounts

theorem sound_exit (h : c.Sound origin) (thread : ThreadId) :
    (c.after (.exit thread)).Sound origin where
  ordered := h.ordered.mono h.ordered.keys (.refl _) (Nat.le_refl _) rfl
  tended := h.tended_same (fun _ => rfl) rfl rfl (List.subset_cons_self _ _)
  users := h.users
  accounts := h.accounts

theorem sound_runtime (h : c.Sound origin) (present : Bool) :
    (c.after (.runtime present)).Sound origin where
  ordered := h.ordered.mono h.ordered.keys (.refl _) (Nat.le_refl _) rfl
  tended := h.tended_same (fun _ => rfl) rfl rfl (List.Subset.refl _)
  users := h.users
  accounts := h.accounts

/-! ## Runs -/

/-- Every event keeps what holds between events. -/
theorem Sound.after (h : c.Sound origin) {event : Event} (allowed : c.Allows event) :
    (c.after event).Sound origin := by
  cases event with
  | enter thread url => exact sound_enter h allowed
  | connect x => exact sound_connect h allowed
  | leave x => exact sound_leave h allowed
  | sweep => exact sound_sweep h
  | exit thread => exact sound_exit h thread
  | runtime present => exact sound_runtime h present
  | wait time => exact sound_wait h allowed
  | close key => exact sound_close h allowed
  | keep d => exact sound_keep h allowed
  | letGo d => exact sound_letGo h allowed
  | outside network => exact sound_outside h allowed

/-- What holds between events holds in every run. -/
theorem Reached.sound (h : Reached origin c) : c.Sound origin := by
  induction h with
  | fresh config hasRuntime => exact sound_fresh config hasRuntime
  | step _ allowed ih => exact ih.after allowed

end Custody

end RowMapper
