import RowMapper.Proofs.Lease.Safekeeping
import RowMapper.Proofs.UrlReading
import RowMapper.Sample.Databases

/-!
# To which key a connection belongs

A connection is opened for one key, and it stays with that key for as long as somebody holds it,
also after its entry is gone. So two acquires at any two times of a run share a connection only if
their keys are the same, and what their keys say of databases decides whose statements it carries.

* `Custody.Owned` says to whom the connections belong.
* `Custody.key_of_shared` compares two times of a run.
* `Custody.shared_database` is about the databases of the connection strings.
-/

namespace RowMapper

namespace Custody

variable {origin : Network} {owner owner' : Connection → Option LeaseKey} {c c' : Custody}
  {d : Connection} {event : Event}

/-- Every connection belongs to the key of those who hold it, and to that of the entry that has it.
Only connections that were opened belong to a key. -/
structure Owned (owner : Connection → Option LeaseKey) (c : Custody) : Prop where
  held : ∀ x ∈ c.holders, ∀ d, x.connection? = some d → owner d = some x.key
  cached : ∀ key d, c.pool.manager.connection? key = some d → owner d = some key
  known : ∀ d key, owner d = some key → d ∈ c.opened

/-- The first owners stay owners. -/
def Extends (owner owner' : Connection → Option LeaseKey) : Prop :=
  ∀ d key, owner d = some key → owner' d = some key

theorem owned_fresh (config : LeaseConfig) (hasRuntime : Bool) (network : Network) :
    Owned (fun _ => none) (fresh config hasRuntime network) where
  held _ hx := absurd hx List.not_mem_nil
  cached _ _ hd := by cases hd
  known _ _ hd := by cases hd

/-! ## Events that open nothing -/

/-- Owners do not change where connections are held that were held or cached for the key before, and
nothing else comes into the cache. -/
theorem Owned.keeps (h : Owned owner c)
    (hheld : ∀ y ∈ c'.holders, ∀ d, y.connection? = some d →
      (∃ x ∈ c.holders, x.key = y.key ∧ x.connection? = some d)
        ∨ c.pool.manager.connection? y.key = some d)
    (hcached : ∀ key d, c'.pool.manager.connection? key = some d →
      c.pool.manager.connection? key = some d)
    (hopened : c'.opened = c.opened) : Owned owner c' where
  held y hy d hd := by
    rcases hheld y hy d hd with ⟨x, hx, hkey, hxd⟩ | hentry
    · rw [← hkey]
      exact h.held x hx d hxd
    · exact h.cached _ _ hentry
  cached key d hd := h.cached key d (hcached key d hd)
  known d key hd := hopened ▸ h.known d key hd

/-- Beside the entries and the holders, all may change. -/
theorem Owned.same (h : Owned owner c) (hholders : c'.holders = c.holders)
    (hcached : ∀ key, c'.pool.manager.connection? key = c.pool.manager.connection? key)
    (hopened : c'.opened = c.opened) : Owned owner c' :=
  h.keeps (fun y hy _ hd => .inl ⟨y, hholders ▸ hy, rfl, hd⟩)
    (fun key _ hd => (hcached key).symm.trans hd) hopened

/-- Who enters shares the connection of the entry. -/
theorem owned_enter (h : Owned owner c) (thread : ThreadId) (url : ConnectionString) :
    Owned owner (c.after (.enter thread url)) := by
  obtain ⟨e, he⟩ : ∃ e, (c.pool.manager.startSweeping.enter
    (c.pool.manager.keyOf thread url) url).1 = e := ⟨_, rfl⟩
  obtain ⟨x, hx⟩ : ∃ x : Holder, x = ⟨(c.pool.enter thread url).1, false⟩ := ⟨_, rfl⟩
  obtain ⟨hkey, -, hconnection, -⟩ := c.pool.enter_spec thread url he hx
  have hentry := LeaseManager.connection_enter c.pool.manager (c.pool.manager.keyOf thread url) url
  have hmanager := c.pool.enter_manager thread url
  refine h.keeps (fun y hy d hd => ?_) (fun key d hd => ?_) rfl
  · change y ∈ (⟨(c.pool.enter thread url).1, false⟩ : Holder) :: c.holders at hy
    rw [← hx] at hy
    rcases List.mem_cons.1 hy with rfl | hy
    · right
      rw [hkey, ← hentry, he, ← hconnection, hd]
    · exact .inl ⟨y, hy, rfl, hd⟩
  · change (c.pool.enter thread url).2.manager.connection? key = some d at hd
    rwa [hmanager, connection_entered] at hd

/-- Who lets go takes nothing along. -/
theorem Owned.left (h : Owned owner c) {x : Holder} {pool : Pool}
    (hmanager : pool.manager = (c.pool.manager.leave x.key x.generation).1) :
    Owned owner { c.proceed pool with holders := c.holders.erase x } := by
  refine h.keeps (fun y hy d hd => .inl ⟨y, List.mem_of_mem_erase hy, rfl, hd⟩) ?_ rfl
  intro key d hd
  change pool.manager.connection? key = some d at hd
  rwa [hmanager, LeaseManager.connection_leave] at hd

theorem owned_sweep (h : Owned owner c) (hsound : c.Sound origin) :
    Owned owner (c.after .sweep) := by
  refine h.keeps (fun y hy d hd => ?_) (fun key d hd => ?_) rfl
  · obtain ⟨x, hx, rfl⟩ := List.mem_map.1 hy
    refine .inl ⟨x, hx, ?_, ?_⟩
    · split <;> rfl
    · split at hd <;> exact hd
  · change c.pool.manager.sweep.2.1.connection? key = some d at hd
    rwa [LeaseManager.connection_sweep hsound.ordered] at hd

theorem owned_close (h : Owned owner c) (hsound : c.Sound origin) {key : LeaseKey}
    (allowed : c.Allows (.close key)) : Owned owner (c.after (.close key)) := by
  obtain ⟨e, -, he, hidle, -⟩ := hsound.due allowed
  have hmanager := Pool.close_manager he hidle
  refine h.keeps (fun y hy d hd => .inl ⟨y, hy, rfl, hd⟩) (fun k d hd => ?_) rfl
  change (c.pool.close key).1.manager.connection? k = some d at hd
  rw [hmanager] at hd
  by_cases hk : k = key
  · subst hk
    unfold LeaseManager.connection? at hd
    rw [LeaseManager.find?_remove, if_pos rfl] at hd
    cases hd
  · rwa [(c.pool.manager.concerns_close key).connection hk] at hd

/-! ## A connection is opened -/

/-- A new connection belongs to the key that it is opened for. -/
theorem owned_receive (h : Owned owner c) (hsound : c.Sound origin) {x : Holder} {o : Opening}
    (hx : x ∈ c.holdersOf o.key) (hnone : x.connection? = none) {lease : Lease} {pool : Pool}
    (hconclude : c.pool.conclude o = (.ok lease, pool)) :
    ∃ owner', Extends owner owner' ∧ Owned owner' (c.receive o.key lease.connection pool) := by
  obtain ⟨-, -, hmanager⟩ := Pool.conclude_of_ok hconclude
  obtain ⟨hnew, -⟩ := hsound.accounts.tallied.connect (Pool.conclude_connect hconclude)
  obtain ⟨concerns, -, -, -⟩ := hsound.put_connection hx hnone lease.connection hmanager
  -- a new connection is one that had no owner
  have hextends : Extends owner
      fun d => if d = lease.connection then some o.key else owner d := by
    intro d key hd
    have hother : d ≠ lease.connection := by
      rintro rfl
      exact hnew (h.known _ key hd)
    exact (if_neg hother).trans hd
  refine ⟨_, hextends, fun y hy d hd => ?_, fun key d hd => ?_, fun d key hd => ?_⟩
  · obtain ⟨z, hz, rfl⟩ := List.mem_map.1 hy
    rw [Holder.key_receive]
    rcases z.receive_cases o.key lease.connection with ⟨-, hsame⟩ | ⟨hwaits, -, -, -, -, hgot⟩
    · rw [hsame] at hd
      exact hextends _ _ (h.held z hz d hd)
    · have hkey : z.key = o.key := by
        simp only [Holder.waitsFor, Bool.and_eq_true, beq_iff_eq] at hwaits
        exact hwaits.1
      cases hgot.symm.trans hd
      rw [if_pos rfl, hkey]
  · change pool.manager.connection? key = some d at hd
    by_cases hkey : key = o.key
    · -- the entry of the key, if it is still there, has got the connection
      subst hkey
      cases he : c.pool.manager.find? o.key with
      | none =>
        rw [he] at hmanager
        change pool.manager = c.pool.manager at hmanager
        rw [hmanager] at hd
        exact hextends _ _ (h.cached o.key d hd)
      | some e =>
        rw [he] at hmanager
        change pool.manager = c.pool.manager.put { e with connection := some _ } at hmanager
        rw [hmanager, LeaseManager.connection_put, if_pos (LeaseManager.key_of_find? he).symm] at hd
        cases hd
        exact if_pos rfl
    · rw [concerns.connection hkey] at hd
      exact hextends _ _ (h.cached key d hd)
  · show d ∈ lease.connection :: c.opened
    by_cases hsame : d = lease.connection
    · exact hsame ▸ List.mem_cons_self
    · rw [if_neg hsame] at hd
      exact List.mem_cons_of_mem _ (h.known d key hd)

/-! ## Runs -/

/-- After every event there are owners who extend those before. -/
theorem Owned.after (h : Owned owner c) (hsound : c.Sound origin) (allowed : c.Allows event) :
    ∃ owner', Extends owner owner' ∧ Owned owner' (c.after event) := by
  have hkept (hsame : Owned owner (c.after event)) :
      ∃ owner', Extends owner owner' ∧ Owned owner' (c.after event) :=
    ⟨owner, fun _ _ hd => hd, hsame⟩
  cases event with
  | enter thread url => exact hkept (owned_enter h thread url)
  | connect x =>
    obtain ⟨hx, o, -, hkey, hgeneration, hnone, hconnect⟩ := connect_cases allowed
    rcases hconnect with ⟨lease, pool, hconclude, hafter⟩ | ⟨cause, pool, hconclude, hafter⟩
    · rw [hafter]
      exact owned_receive h hsound (mem_holdersOf.2 ⟨hx, hkey⟩) hnone hconclude
    · -- a connect that failed is a lease given back
      refine hkept ?_
      rw [hafter]
      refine h.left ?_
      rw [Pool.conclude_of_error hconclude, hkey, hgeneration]
  | leave x => exact hkept (h.left (c.pool.drop_spec x).1)
  | sweep => exact hkept (owned_sweep h hsound)
  | close key => exact hkept (owned_close h hsound allowed)
  | _ => exact hkept (h.same rfl (fun _ => rfl) rfl)

theorem Owned.afterAll (h : Owned owner c) (hc : Reached origin c) {events : List Event}
    (allowed : c.AllowsAll events) :
    ∃ owner', Extends owner owner' ∧ Owned owner' (c.afterAll events) := by
  induction events generalizing c owner with
  | nil => exact ⟨owner, fun _ _ hd => hd, h⟩
  | cons event rest ih =>
    obtain ⟨next, hnext, howned⟩ := h.after hc.sound allowed.1
    obtain ⟨last, hlast, howned⟩ := ih howned (hc.step allowed.1) allowed.2
    exact ⟨last, fun d key hd => hlast d key (hnext d key hd), howned⟩

theorem Reached.owned (h : Reached origin c) : ∃ owner, Owned owner c := by
  induction h with
  | fresh config hasRuntime => exact ⟨_, owned_fresh config hasRuntime origin⟩
  | step before allowed ih =>
    obtain ⟨owner, howned⟩ := ih
    obtain ⟨next, -, howned⟩ := howned.after before.sound allowed
    exact ⟨next, howned⟩

/-- Whoever holds a connection, now or later, holds it for one and the same key. -/
theorem key_of_shared (h : Reached origin c) {events : List Event} (allowed : c.AllowsAll events)
    {x y : Holder} (hx : x ∈ c.holders) (hy : y ∈ (c.afterAll events).holders)
    (hxd : x.connection? = some d) (hyd : y.connection? = some d) : x.key = y.key := by
  obtain ⟨owner, howned⟩ := h.owned
  obtain ⟨owner', hextends, howned'⟩ := howned.afterAll h allowed
  have hfirst := hextends d x.key (howned.held x hx d hxd)
  exact Option.some.inj (hfirst.symm.trans (howned'.held y hy d hyd))

/-- Two connection strings that are read have one key exactly if scheme, host, port and path are the
same, or the path of the one, which is then neither empty nor behind a slash, is written like host,
port and path of the other. User, password, query and fragment do not count. An acquire holds a
reference under the key of its connection string. So in any run, and at any two times of it, those
who share a connection hold it for one database, or for two of which the one passes for the
other. -/
theorem shared_database {s s' : String} {u u' : ConnectionString}
    (hu : ConnectionString.read s = .ok u) (hu' : ConnectionString.read s' = .ok u') :
    (u.key = u'.key ↔ u.SameDatabase u' ∨ u.PassesFor u' ∨ u'.PassesFor u)
      ∧ (∀ (c : Custody) (thread : ThreadId),
        ∃ x, (c.after (.enter thread u)).holders = x :: c.holders
          ∧ x.key = c.pool.manager.keyOf thread u)
      ∧ ∀ origin c, Reached origin c → ∀ events, c.AllowsAll events →
        ∀ x ∈ c.holders, ∀ y ∈ (c.afterAll events).holders, ∀ d,
          x.connection? = some d → y.connection? = some d →
          x.key.database = u.key → y.key.database = u'.key →
          u.SameDatabase u' ∨ u.PassesFor u' ∨ u'.PassesFor u := by
  rw [← ConnectionString.readBy_read] at hu hu'
  have hkeys := Url.reading.key_eq_iff hu hu'
  refine ⟨hkeys, fun c thread => ?_, ?_⟩
  · obtain ⟨hkey, -, -, -⟩ := c.pool.enter_spec thread u rfl rfl
    exact ⟨_, rfl, hkey⟩
  · intro origin c hc events allowed x hx y hy d hxd hyd hxu hyu
    rw [← hkeys, ← hxu, ← hyu, key_of_shared hc allowed hx hy hxd hyd]

/-- A thread acquires the database of the staff, gives the lease back and acquires the same database
with credentials and an option within the grace period. -/
theorem shared_database_of_options :
    let options : ConnectionString :=
      ⟨{ Company.staff.url with user := "ada", password := some "pw", query := some "tls=on" }⟩
    let key : LeaseKey := ⟨"mock://staff/db", some 1⟩
    let first : Holder := { got := .inl ⟨key, 0, ⟨0, "staff"⟩⟩ }
    let c := (fresh {} true Company.network).afterAll
      [.enter 1 Company.staff, .connect { got := .inr ⟨key, 0, Company.staff⟩ }]
    let events : List Event := [.leave first, .wait 10, .enter 1 options]
    ConnectionString.read "mock://staff/db" = .ok Company.staff
      ∧ ConnectionString.read "mock://ada:pw@staff/db?tls=on" = .ok options
      ∧ Company.staff.key = options.key
      ∧ Reached Company.network c ∧ c.AllowsAll events
      ∧ (c.afterAll events).holders.map (·.connection?) = [some ⟨0, "staff"⟩]
      ∧ (Company.staff.SameDatabase options ∨ Company.staff.PassesFor options
        ∨ options.PassesFor Company.staff) := by
  intro options key first c events
  have hplain : (ConnectionString.read "mock://staff/db").toOption = some Company.staff := by
    decide +kernel
  have hoptions : (ConnectionString.read "mock://ada:pw@staff/db?tls=on").toOption
      = some options := by decide +kernel
  have hread := Except.eq_ok_of_toOption hplain
  have hread' := Except.eq_ok_of_toOption hoptions
  have hc : Reached Company.network c := (Reached.fresh _ _).afterAll (by decide +kernel)
  have hallowed : c.AllowsAll events := by decide +kernel
  obtain ⟨hkeys, -, hshared⟩ := shared_database hread hread'
  have hsame : Company.staff.SameDatabase options := by decide +kernel
  refine ⟨hread, hread', hkeys.2 (.inl hsame), hc, hallowed, by decide +kernel, ?_⟩
  exact hshared _ c hc events hallowed first (by decide +kernel) first (by decide +kernel)
    ⟨0, "staff"⟩ rfl rfl (by decide +kernel) (by decide +kernel)

/-- A path passes for a host: a thread that acquires the one gets the connection that it opened to
the other. -/
theorem path_passes_for_host :
    let host : ConnectionString :=
      ⟨{ scheme := "mock", hasAuthority := true, host := some (.name "staff"), path := "" }⟩
    let path : ConnectionString := ⟨{ scheme := "mock", hasAuthority := false, path := "staff" }⟩
    let key : LeaseKey := ⟨"mock://staff", some 1⟩
    let events : List Event :=
      [.enter 1 host, .connect { got := .inr ⟨key, 0, host⟩ }, .enter 1 path]
    ConnectionString.read "mock://staff" = .ok host ∧ ConnectionString.read "mock:staff" = .ok path
      ∧ host.key = path.key ∧ ¬host.SameDatabase path
      ∧ (fresh {} true Company.network).AllowsAll events
      ∧ ((fresh {} true Company.network).afterAll events).holders.map
          (fun x => (x.key, x.connection?))
        = [(key, some ⟨0, "staff"⟩), (key, some ⟨0, "staff"⟩)] := by
  intro host path key events
  have hhost : (ConnectionString.read "mock://staff").toOption = some host := by decide +kernel
  have hpath : (ConnectionString.read "mock:staff").toOption = some path := by decide +kernel
  exact ⟨Except.eq_ok_of_toOption hhost, Except.eq_ok_of_toOption hpath, by decide +kernel,
    by decide +kernel, by decide +kernel, by decide +kernel⟩

end Custody

end RowMapper
