import RowMapper.Proofs.Lease.Safekeeping
import RowMapper.Sample.Databases

/-!
# Every connection is closed at most once, and under nobody

A connection is closed at most once, with the entry that it belongs to, once the grace period has
passed since the references to that entry dropped to zero, and never as long as a lease or a kept
handle is on it.

Not all connections are closed. One that was in use when its entry expired, by those whose
references a sweep took or by those who kept it, is dropped without closing it
(`Custody.outlived`). One that was opened so late that its entry had expired before never comes into
the cache (`Custody.late`): its acquire was under way when its thread ended, and a sweep took the
reference. Every connection that was opened was closed, is open in the cache, outlived its entry or
came late, and only one of these (`Custody.connections_conserved`).
-/

namespace RowMapper

namespace Custody

variable {origin : Network} {c : Custody} {event : Event} {d : Connection}

/-- The event closes the connection. -/
inductive Closes (c : Custody) : Event → Connection → Prop where
  /-- The entry that the connection belongs to is due, and nobody uses the connection. -/
  | expired {key : LeaseKey} {e : LeaseEntry} {time : Nat} {d : Connection}
      (entry : c.pool.manager.find? key = some e) (connection : e.connection = some d)
      (idle : e.references = 0) (since : c.dropped key = some time)
      (grace : time + c.pool.manager.config.grace ≤ c.pool.manager.now)
      (unheld : ∀ x ∈ c.holders, x.connection? ≠ some d) (unkept : d ∉ c.kept)
      (disconnects : (c.pool.close key).1.network = (c.pool.network.disconnect d).2) :
      Closes c (.close key) d

/-- The event drops the connection from the cache without closing it. -/
inductive Outlives (c : Custody) : Event → Connection → Prop where
  /-- The entry that the connection belongs to is due, but the connection is still used. -/
  | expired {key : LeaseKey} {e : LeaseEntry} {d : Connection}
      (entry : c.pool.manager.find? key = some e) (connection : e.connection = some d)
      (idle : e.references = 0)
      (used : (∃ x ∈ c.holders, x.swept ∧ x.connection? = some d) ∨ d ∈ c.kept) :
      Outlives c (.close key) d

/-- The event opens the connection when its entry has expired. -/
inductive ArrivesLate (c : Custody) : Event → Connection → Prop where
  /-- The acquire was still under way when a sweep took its reference and its entry expired. -/
  | swept {x : Holder} {o : Opening} {thread : ThreadId} {network : Network} {d : Connection}
      (holds : x ∈ c.holders) (swept : x.swept) (waits : x.got = .inr o)
      (ofThread : x.key.thread = some thread) (ended : thread ∈ c.pool.manager.ended)
      (gone : c.pool.manager.find? x.key = none)
      (connects : c.pool.network.connect o.url = (.ok d, network)) : ArrivesLate c (.connect x) d

/-- The connections in use are those of the holders and the kept ones. -/
theorem Sound.mem_inUse (h : c.Sound origin) :
    d ∈ c.pool.inUse ↔ (∃ x ∈ c.holders, x.connection? = some d) ∨ d ∈ c.kept := by
  rw [h.users.mem_iff, List.mem_append, List.mem_filterMap]

/-- A connection in the cache belongs to one key. -/
theorem Sound.connection_inj (h : c.Sound origin) {key k : LeaseKey}
    (hkey : c.pool.manager.connection? key = some d) (hk : c.pool.manager.connection? k = some d) :
    key = k := by
  have hnodup := (List.nodup_append.1 h.accounts.apart.2.1).1
  rw [← LeaseManager.map_links] at hnodup
  have hsame := List.inj_on_of_nodup_map hnodup (h.ordered.mem_links.2 hkey)
    (h.ordered.mem_links.2 hk) rfl
  exact congrArg Prod.fst hsame

/-- Who holds the connection of an entry without references lost the own reference to a sweep. -/
theorem Sound.swept_of_idle (h : c.Sound origin) {key : LeaseKey} {e : LeaseEntry}
    (he : c.pool.manager.find? key = some e) (hidle : e.references = 0)
    (hd : e.connection = some d) {x : Holder} (hx : x ∈ c.holders) (hxd : x.connection? = some d) :
    x.swept = true := by
  have hheld : x ∈ c.holdersOf x.key := mem_holdersOf.2 ⟨hx, rfl⟩
  cases hfound : c.pool.manager.find? x.key with
  | none => exact (h.tended x.key).absent hfound x hheld
  | some e' =>
    have hb := (h.tended x.key).present e' hfound
    have hshared := LeaseManager.connection_of_find? hfound
    rw [← hb.shared x hheld, hxd] at hshared
    have hown := LeaseManager.connection_of_find? he
    rw [hd] at hown
    -- the entry of the holder is the one of the connection
    have hkey := h.connection_inj hshared hown
    rw [hkey, he] at hfound
    obtain rfl := Option.some.inj hfound
    exact hb.swept hidle x hheld

/-- A connect takes no connection from the cache, whether it succeeds or not. -/
theorem connect_drops_nothing {x : Holder} (allowed : c.Allows (.connect x)) :
    (c.after (.connect x)).closed = c.closed ∧ (c.after (.connect x)).outlived = c.outlived := by
  obtain ⟨-, o, -, -, -, -, hconnect⟩ := connect_cases allowed
  rcases hconnect with ⟨lease, pool, -, hafter⟩ | ⟨cause, pool, -, hafter⟩
  · rw [hafter]
    exact ⟨rfl, rfl⟩
  · rw [hafter]
    exact ⟨rfl, rfl⟩

/-- Only an entry that expires closes a connection. -/
theorem Sound.closes (h : c.Sound origin) (allowed : c.Allows event)
    (hd : d ∈ (c.after event).closed) (hnew : d ∉ c.closed) : c.Closes event d := by
  cases event with
  | close key =>
    obtain ⟨e, time, he, hidle, hdropped, hgrace⟩ := h.due allowed
    have hexpiring := Pool.expiring_eq he hidle
    have hnetwork := (c.pool.close_spec key).2
    have hmem : d ∈ (c.pool.parting? key).toList ++ c.closed := hd
    have hparts : c.pool.parting? key = some d := by
      rcases List.mem_append.1 hmem with hmem | hmem
      · simpa using hmem
      · exact absurd hmem hnew
    rw [hparts] at hnetwork
    unfold Pool.parting? at hparts
    obtain ⟨hconnection, hidle'⟩ := Option.filter_eq_some_iff.1 hparts
    rw [hexpiring] at hconnection
    -- a closing parts only with a connection that nobody uses, neither a holder nor outside
    have hunused : d ∉ c.pool.inUse := by simpa using hidle'
    rw [h.mem_inUse, not_or] at hunused
    exact .expired he hconnection hidle hdropped hgrace
      (fun x hx hxd => hunused.1 ⟨x, hx, hxd⟩) hunused.2 hnetwork
  | connect x => exact absurd ((connect_drops_nothing allowed).1 ▸ hd) hnew
  | _ => exact absurd hd hnew

/-- Only an entry that expires drops a connection without closing it. -/
theorem Sound.outlives (h : c.Sound origin) (allowed : c.Allows event)
    (hd : d ∈ (c.after event).outlived) (hnew : d ∉ c.outlived) : c.Outlives event d := by
  cases event with
  | close key =>
    obtain ⟨e, time, he, hidle, -⟩ := h.due allowed
    have hexpiring := Pool.expiring_eq he hidle
    have hmem : d ∈ (c.pool.forsaken? key).toList ++ c.outlived := hd
    have hforsaken : c.pool.forsaken? key = some d := by
      rcases List.mem_append.1 hmem with hmem | hmem
      · simpa using hmem
      · exact absurd hmem hnew
    -- the connection is in use, hence that of a holder or a kept one
    unfold Pool.forsaken? at hforsaken
    obtain ⟨hconnection, hused⟩ := Option.filter_eq_some_iff.1 hforsaken
    rw [hexpiring] at hconnection
    refine .expired he hconnection hidle ?_
    rcases h.mem_inUse.1 (by simpa using hused) with ⟨x, hx, hxd⟩ | hkept
    · exact Or.inl ⟨x, hx, h.swept_of_idle he hidle hconnection hx hxd, hxd⟩
    · exact Or.inr hkept
  | connect x => exact absurd ((connect_drops_nothing allowed).2 ▸ hd) hnew
  | _ => exact absurd hd hnew

/-- Only an acquire whose entry is gone opens a connection that does not come into the cache. -/
theorem Sound.arrivesLate (h : c.Sound origin) (allowed : c.Allows event)
    (hd : d ∈ (c.after event).late) (hnew : d ∉ c.late) : c.ArrivesLate event d := by
  cases event with
  | connect x =>
    obtain ⟨hx, o, ho, hkey, -, -, hconnect⟩ := connect_cases allowed
    rcases hconnect with ⟨lease, pool, hconclude, hafter⟩ | ⟨cause, pool, -, hafter⟩
    · rw [hafter] at hd
      have hmem : d ∈ if (c.pool.manager.find? o.key).isSome then c.late
        else lease.connection :: c.late := hd
      split at hmem
      · exact absurd hmem hnew
      · rename_i hgone
        have hgone' : c.pool.manager.find? x.key = none := by
          rw [hkey]
          simpa using hgone
        -- without an entry the reference of whoever waits was taken, which needs an ended thread
        have hheld := mem_holdersOf.2 ⟨hx, rfl⟩
        have hswept := (h.tended x.key).absent hgone' x hheld
        obtain ⟨thread, hthread, hended⟩ := (h.tended x.key).ended x hheld hswept
        rcases List.mem_cons.1 hmem with rfl | hmem
        · exact .swept hx hswept ho hthread hended hgone' (Pool.conclude_connect hconclude)
        · exact absurd hmem hnew
    · rw [hafter] at hd
      exact absurd hd hnew
  | _ => exact absurd hd hnew

/-- Connections are closed at most once and under nobody, and each of them has one place: it was
closed, it is in the cache, it outlived its entry, or it came late. -/
theorem connections_conserved (h : Reached origin c) :
    (c.opened.Nodup ∧ c.closed.Nodup
      ∧ c.opened.Perm (c.closed ++ (c.pool.manager.cached ++ (c.outlived ++ c.late)))
      ∧ c.opened.length
        = c.closed.length + c.pool.manager.cached.length + c.outlived.length + c.late.length)
    ∧ (∀ name,
      c.pool.network.connects name = origin.connects name + c.opened.countP (·.server == name)
      ∧ c.pool.network.disconnects name
        = origin.disconnects name + c.closed.countP (·.server == name))
    ∧ (∀ x ∈ c.holders, ∀ d, x.connection? = some d → d ∈ c.opened ∧ d ∉ c.closed)
    ∧ (∀ d ∈ c.kept, d ∈ c.opened ∧ d ∉ c.closed)
    ∧ ∀ event, c.Allows event →
      (∀ d ∈ (c.after event).closed, d ∉ c.closed → c.Closes event d)
      ∧ (∀ d ∈ (c.after event).outlived, d ∉ c.outlived → c.Outlives event d)
      ∧ ∀ d ∈ (c.after event).late, d ∉ c.late → c.ArrivesLate event d := by
  have hsound := h.sound
  have haccounts := hsound.accounts
  have hlength := haccounts.placed.length_eq
  rw [List.length_append, List.length_append, List.length_append, ← Nat.add_assoc,
    ← Nat.add_assoc] at hlength
  refine ⟨⟨haccounts.nodup, haccounts.apart.1, haccounts.placed, hlength⟩,
    fun name => ⟨haccounts.tallied.connects name, haccounts.tallied.disconnects name⟩,
    fun x hx d hd => haccounts.live d (hsound.mem_inUse.2 (Or.inl ⟨x, hx, hd⟩)),
    fun d hd => haccounts.live d (hsound.mem_inUse.2 (Or.inr hd)), fun event allowed => ?_⟩
  exact ⟨fun d hd hnew => hsound.closes allowed hd hnew,
    fun d hd hnew => hsound.outlives allowed hd hnew,
    fun d hd hnew => hsound.arrivesLate allowed hd hnew⟩

/-- The thread of two overlapping acquires ends while one of its leases is alive, so that their
connection outlives its entry; the one of another thread is given back and closed; an acquire of a
third thread connects when its entry has expired. -/
theorem connections_conserved_of_exit :
    let key (thread : ThreadId) : LeaseKey := ⟨"mock://staff/db", some thread⟩
    let waiting (thread : ThreadId) : Holder := { got := .inr ⟨key thread, 0, Company.staff⟩ }
    let lease (thread : ThreadId) (d : Connection) : Holder := { got := .inl ⟨key thread, 0, d⟩ }
    let swept := (fresh { grace := 50, sweep := 60 } true Company.network).afterAll
      [.enter 1 Company.staff, .enter 1 Company.staff, .connect (waiting 1),
        .leave (lease 1 ⟨0, "staff"⟩), .enter 3 Company.staff, .exit 1, .exit 3, .sweep, .wait 50]
    let idle := (swept.after (.close (key 1))).afterAll
      [.enter 2 Company.staff, .connect (waiting 2), .leave (lease 2 ⟨1, "staff"⟩), .wait 100]
    let gone := (idle.after (.close (key 2))).after (.close (key 3))
    Reached Company.network swept ∧ swept.Outlives (.close (key 1)) ⟨0, "staff"⟩
      ∧ Reached Company.network idle ∧ idle.Closes (.close (key 2)) ⟨1, "staff"⟩
      ∧ Reached Company.network gone
      ∧ gone.ArrivesLate (.connect (waiting 3).take) ⟨2, "staff"⟩
      ∧ gone.opened.Perm (gone.closed ++ (gone.pool.manager.cached ++ (gone.outlived ++ gone.late)))
      := by
  intro key waiting lease swept idle gone
  have hswept : Reached Company.network swept := (Reached.fresh _ _).afterAll (by decide +kernel)
  have hdue : swept.Allows (.close (key 1)) := by decide +kernel
  have hidle : Reached Company.network idle := (hswept.step hdue).afterAll (by decide +kernel)
  have hdue' : idle.Allows (.close (key 2)) := by decide +kernel
  have hdue'' : (idle.after (.close (key 2))).Allows (.close (key 3)) := by decide +kernel
  have hgone : Reached Company.network gone := (hidle.step hdue').step hdue''
  have hconnects : gone.Allows (.connect (waiting 3).take) := by decide +kernel
  have houtlived : (⟨0, "staff"⟩ : Connection) ∈ (swept.after (.close (key 1))).outlived
      ∧ (⟨0, "staff"⟩ : Connection) ∉ swept.outlived := by decide +kernel
  have hclosed : (⟨1, "staff"⟩ : Connection) ∈ (idle.after (.close (key 2))).closed
      ∧ (⟨1, "staff"⟩ : Connection) ∉ idle.closed := by decide +kernel
  have hlate : (⟨2, "staff"⟩ : Connection) ∈ (gone.after (.connect (waiting 3).take)).late
      ∧ (⟨2, "staff"⟩ : Connection) ∉ gone.late := by decide +kernel
  clear_value swept idle gone
  obtain ⟨-, -, -, -, hevents⟩ := connections_conserved hswept
  obtain ⟨-, -, -, -, hevents'⟩ := connections_conserved hidle
  obtain ⟨⟨-, -, hplaced, -⟩, -, -, -, hevents''⟩ := connections_conserved hgone
  exact ⟨hswept, (hevents _ hdue).2.1 _ houtlived.1 houtlived.2, hidle,
    (hevents' _ hdue').1 _ hclosed.1 hclosed.2, hgone,
    (hevents'' _ hconnects).2.2 _ hlate.1 hlate.2, hplaced⟩

/-- Neither a connection that a swept lease still held when its entry expired nor one that was
opened after that is ever closed, though nobody holds it any more; the latter is not even among
those that outlived their entries. -/
theorem late_connection_unaccounted :
    let key : LeaseKey := ⟨"mock://staff/db", some 1⟩
    let waiting : Holder := { got := .inr ⟨key, 0, Company.staff⟩ }
    let lease : Holder := { got := .inl ⟨key, 0, ⟨0, "staff"⟩⟩ }
    let start := fresh { grace := 50, sweep := 60 } true Company.network
    let late := start.afterAll [.enter 1 Company.staff, .exit 1, .sweep, .wait 50, .close key,
      .connect waiting.take, .leave lease.take]
    let outlived := start.afterAll [.enter 1 Company.staff, .connect waiting, .exit 1, .sweep,
      .wait 50, .close key, .leave lease.take]
    (Reached Company.network late ∧ late.opened = [⟨0, "staff"⟩]
      ∧ late.holders = [] ∧ late.kept = [] ∧ late.pool.manager.closings = []
      ∧ late.opened.length
        ≠ late.closed.length + late.pool.manager.cached.length + late.outlived.length
      ∧ late.pool.network.connects "staff" = Company.network.connects "staff" + 1
      ∧ late.pool.network.disconnects "staff" = Company.network.disconnects "staff")
    ∧ Reached Company.network outlived ∧ outlived.opened = [⟨0, "staff"⟩]
      ∧ outlived.holders = [] ∧ outlived.kept = [] ∧ outlived.pool.manager.closings = []
      ∧ outlived.closed = [] ∧ outlived.pool.manager.cached = [] := by
  intro key waiting lease start late outlived
  have hlate : Reached Company.network late := (Reached.fresh _ _).afterAll (by decide +kernel)
  have houtlived : Reached Company.network outlived :=
    (Reached.fresh _ _).afterAll (by decide +kernel)
  refine ⟨⟨hlate, ?_⟩, houtlived, ?_⟩
  · decide +kernel
  · decide +kernel

end Custody

end RowMapper
