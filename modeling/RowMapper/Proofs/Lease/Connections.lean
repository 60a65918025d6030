import Mathlib.Data.List.Perm.Basic
import RowMapper.Proofs.Lease.Entries
import RowMapper.Proofs.Sending

/-!
# Connections of a manager and of its network

The connections that are open in the cache are those of the entries (`LeaseManager.cached`). As no
key has two entries, they change with the connections of single keys, whatever the order of the
entries: steps that leave every key its connection leave the cache the same connections.

A network counts on its servers how often they were connected to and left. Whoever keeps the lists
of the connections that were opened and closed finds these numbers in them
(`Network.Tallied`).

Every connection that was opened is in exactly one place: it was closed, it is open in the cache,
or it was abandoned. Those in use are not among the closed ones (`Accounts`).
-/

namespace RowMapper

/-! ## The cache -/

namespace LeaseManager

variable {m m' : LeaseManager} {key : LeaseKey} {c : Connection}

/-- The connections that are open in the cache. -/
def cached (m : LeaseManager) : List Connection := m.entries.filterMap (·.connection)

/-- The same connections, with the keys of their entries. -/
def links (m : LeaseManager) : List (LeaseKey × Connection) :=
  m.entries.filterMap fun e => e.connection.map (e.key, ·)

/-- The connections of the cache are those of its keys. -/
theorem map_links (m : LeaseManager) : m.links.map (·.2) = m.cached := by
  unfold links cached
  rw [List.map_filterMap]
  refine List.filterMap_congr fun e _ => ?_
  cases e.connection <;> rfl

/-- No key is linked twice. -/
theorem Ordered.nodup_links (h : m.Ordered) : m.links.Nodup := by
  refine .of_map (·.1) (h.keys.sublist ?_)
  unfold links
  induction m.entries with
  | nil => exact .slnil
  | cons e es ih =>
    rw [List.filterMap_cons]
    cases e.connection with
    | none => exact ih.cons _
    | some c => exact ih.cons_cons _

/-- A key is linked to its connection. -/
theorem Ordered.mem_links (h : m.Ordered) :
    (key, c) ∈ m.links ↔ m.connection? key = some c := by
  simp only [links, List.mem_filterMap, Option.map_eq_some_iff, Prod.mk.injEq, connection?,
    Option.bind_eq_some_iff]
  constructor
  · rintro ⟨e, he, _, hc, rfl, rfl⟩
    exact ⟨e, find?_of_mem h he, hc⟩
  · rintro ⟨e, he, hc⟩
    exact ⟨e, mem_of_find? he, c, hc, key_of_find? he, rfl⟩

/-- A connection in the cache is that of a key. -/
theorem Ordered.mem_cached (h : m.Ordered) : c ∈ m.cached ↔ ∃ key, m.connection? key = some c := by
  rw [← map_links, List.mem_map]
  constructor
  · rintro ⟨⟨key, _⟩, hlink, rfl⟩
    exact ⟨key, h.mem_links.1 hlink⟩
  · rintro ⟨key, hkey⟩
    exact ⟨(key, c), h.mem_links.2 hkey, rfl⟩

/-- If all keys keep their connections, the cache does. -/
theorem Ordered.cached_perm (h : m.Ordered) (h' : m'.Ordered)
    (hsame : ∀ key, m'.connection? key = m.connection? key) : m'.cached.Perm m.cached := by
  rw [← map_links, ← map_links]
  -- the links have no duplicates, whereas the connections alone might
  refine ((List.perm_ext_iff_of_nodup h'.nodup_links h.nodup_links).2 fun ⟨key, c⟩ => ?_).map _
  rw [h'.mem_links, h.mem_links, hsame]

/-- A key that gets a connection adds it to the cache. -/
theorem Ordered.cached_perm_cons (h : m.Ordered) (h' : m'.Ordered)
    (hnone : m.connection? key = none) (hsome : m'.connection? key = some c)
    (hother : ∀ k, k ≠ key → m'.connection? k = m.connection? k) :
    m'.cached.Perm (c :: m.cached) := by
  have hnew : ((key, c) :: m.links).Nodup := by
    refine List.nodup_cons.2 ⟨fun hmem => ?_, h.nodup_links⟩
    rw [h.mem_links, hnone] at hmem
    cases hmem
  have hlinks : m'.links.Perm ((key, c) :: m.links) := by
    refine (List.perm_ext_iff_of_nodup h'.nodup_links hnew).2 fun ⟨k, d⟩ => ?_
    rw [h'.mem_links, List.mem_cons, h.mem_links, Prod.mk.injEq]
    by_cases hk : k = key
    · subst hk
      rw [hsome, hnone, Option.some.injEq]
      simp [eq_comm]
    · simp [hk, hother k hk]
  rw [← map_links, ← map_links]
  exact hlinks.map _

end LeaseManager

/-! ## What a network counts -/

/-- A server counts connections that are opened and closed. -/
def Server.count (opens closes : Nat) (s : Server) : Server :=
  { s with connects := s.connects + opens, disconnects := s.disconnects + closes }

namespace Network

variable {n n' origin : Network} {name : String} {c : Connection}
  {opened closed : List Connection}

/-- How often the server of a name was connected to. -/
def connects (n : Network) (name : String) : Nat := ((n.find? name).map (·.connects)).getD 0

/-- How often connections to the server of a name were closed. -/
def disconnects (n : Network) (name : String) : Nat :=
  ((n.find? name).map (·.disconnects)).getD 0

/-- The servers stay and count neither a connection that was opened nor one that was closed. They
may run statements and get other scripts; servers that are new were not connected to. -/
def Keeps (n n' : Network) : Prop :=
  n'.opened = n.opened ∧ ∀ s ∈ n.servers ++ n'.servers,
    ((n.find? s.name).isSome → (n'.find? s.name).isSome)
      ∧ n'.connects s.name = n.connects s.name ∧ n'.disconnects s.name = n.disconnects s.name

instance (n n' : Network) : Decidable (n.Keeps n') := inferInstanceAs (Decidable (_ ∧ _))

theorem name_of_find? {s : Server} (h : n.find? name = some s) : s ∈ n.servers ∧ s.name = name :=
  ⟨List.mem_of_find?_eq_some h, by simpa using List.find?_some h⟩

/-- What is not on the network counts nothing. -/
theorem connects_of_none (h : n.find? name = none) :
    n.connects name = 0 ∧ n.disconnects name = 0 := by
  unfold connects disconnects
  rw [h]
  exact ⟨rfl, rfl⟩

/-- A network that keeps its counts has the same ones under every name. -/
theorem Keeps.same (h : n.Keeps n') (name : String) :
    ((n.find? name).isSome → (n'.find? name).isSome)
      ∧ n'.connects name = n.connects name ∧ n'.disconnects name = n.disconnects name := by
  cases hs : n.find? name with
  | some s =>
    obtain ⟨hmem, rfl⟩ := name_of_find? hs
    have hsame := h.2 s (List.mem_append_left _ hmem)
    rwa [hs] at hsame
  | none =>
    -- a server that is new counts nothing, as one that is missing
    refine ⟨fun hsome => (by cases hsome), ?_⟩
    cases hs' : n'.find? name with
    | some s =>
      obtain ⟨hmem, rfl⟩ := name_of_find? hs'
      exact (h.2 s (List.mem_append_right _ hmem)).2
    | none =>
      obtain ⟨hconnects, hdisconnects⟩ := connects_of_none hs
      obtain ⟨hconnects', hdisconnects'⟩ := connects_of_none hs'
      exact ⟨hconnects'.trans hconnects.symm, hdisconnects'.trans hdisconnects.symm⟩

/-- Since the first network the connections were opened, and those of them that are closed were
closed, each once. -/
structure Tallied (origin n : Network) (opened closed : List Connection) : Prop where
  numbered : ∀ c ∈ opened, c.id < n.opened
  reachable : ∀ c ∈ opened, (n.find? c.server).isSome
  connects : ∀ name, n.connects name = origin.connects name + opened.countP (·.server == name)
  disconnects : ∀ name,
    n.disconnects name = origin.disconnects name + closed.countP (·.server == name)

theorem Tallied.refl (n : Network) : n.Tallied n [] [] :=
  ⟨fun _ hc => absurd hc List.not_mem_nil, fun _ hc => absurd hc List.not_mem_nil,
    fun _ => rfl, fun _ => rfl⟩

/-- Statements and changes of answers leave the tally as it is. -/
theorem Tallied.keeps (h : origin.Tallied n opened closed) (hkeeps : n.Keeps n') :
    origin.Tallied n' opened closed where
  numbered c hc := hkeeps.1 ▸ h.numbered c hc
  reachable c hc := (hkeeps.same c.server).1 (h.reachable c hc)
  connects name := (hkeeps.same name).2.1.trans (h.connects name)
  disconnects name := (hkeeps.same name).2.2.trans (h.disconnects name)

section

variable (opens closes : Nat) {server : String}

/-- A server that counts is found under its own name. -/
theorem find?_count (name : String) :
    (n.change server (·.count opens closes)).find? name
      = if name = server then (n.find? name).map (·.count opens closes) else n.find? name := by
  have hnames : ∀ s : Server, s.name = server → (s.count opens closes).name = server :=
    fun _ hs => hs
  rw [find?_change hnames]
  cases hs : n.find? name with
  | none => simp
  | some s =>
    obtain ⟨-, rfl⟩ := name_of_find? hs
    by_cases hname : s.name = server
    · simp [hname]
    · simp [hname]

theorem isSome_find?_count {name : String} (h : (n.find? name).isSome) :
    ((n.change server (·.count opens closes)).find? name).isSome := by
  rw [find?_count]
  split
  · rw [Option.isSome_map]
    exact h
  · exact h

/-- Only the server that is connected to counts it. -/
theorem connects_count (hserver : (n.find? server).isSome) (name : String) :
    (n.change server (·.count opens closes)).connects name
      = n.connects name + if server == name then opens else 0 := by
  unfold connects
  rw [find?_count]
  by_cases hname : name = server
  · subst hname
    obtain ⟨s, hs⟩ := Option.isSome_iff_exists.1 hserver
    simp [hs, Server.count]
  · have hother : server ≠ name := fun hsame => hname hsame.symm
    simp [hname, hother]

/-- Only the server that is left counts it. -/
theorem disconnects_count (hserver : (n.find? server).isSome) (name : String) :
    (n.change server (·.count opens closes)).disconnects name
      = n.disconnects name + if server == name then closes else 0 := by
  unfold disconnects
  rw [find?_count]
  by_cases hname : name = server
  · subst hname
    obtain ⟨s, hs⟩ := Option.isSome_iff_exists.1 hserver
    simp [hs, Server.count]
  · have hother : server ≠ name := fun hsame => hname hsame.symm
    simp [hname, hother]

end

/-- A connection that was opened is a new one of a server within reach. -/
theorem connect_of_ok {url : ConnectionString} (h : n.connect url = (.ok c, n')) :
    c.id = n.opened ∧ (n.find? c.server).isSome
      ∧ n' = { n.change c.server (·.count 1 0) with opened := n.opened + 1 } := by
  unfold connect at h
  dsimp only at h
  split at h
  · cases h
  · rename_i s hs
    split at h
    · cases h
    · cases h
      exact ⟨rfl, by rw [hs]; rfl, rfl⟩

/-- A connect that fails is not counted. -/
theorem connect_of_error {url : ConnectionString} {cause : ConnectError}
    (h : n.connect url = (.error cause, n')) : n' = n := by
  unfold connect at h
  dsimp only at h
  split at h
  · cases h
    rfl
  · split at h
    · cases h
      rfl
    · cases h

/-- A connection that is opened is a new one, and the tally goes on with it. -/
theorem Tallied.connect (h : origin.Tallied n opened closed) {url : ConnectionString}
    (hconnect : n.connect url = (.ok c, n')) :
    c ∉ opened ∧ origin.Tallied n' (c :: opened) closed := by
  obtain ⟨hid, hserver, rfl⟩ := connect_of_ok hconnect
  refine ⟨fun hmem => ?_, ?_, ?_, fun name => ?_, fun name => ?_⟩
  · have hlt := h.numbered c hmem
    omega
  · refine List.forall_mem_cons.2 ⟨?_, fun d hd => Nat.lt_succ_of_lt (h.numbered d hd)⟩
    rw [hid]
    exact Nat.lt_succ_self _
  · exact List.forall_mem_cons.2 ⟨isSome_find?_count 1 0 hserver,
      fun d hd => isSome_find?_count 1 0 (h.reachable d hd)⟩
  · rw [List.countP_cons, ← Nat.add_assoc, ← h.connects name]
    exact connects_count 1 0 hserver name
  · have hsame := disconnects_count 1 0 hserver name
    rw [ite_self] at hsame
    exact hsame.trans (h.disconnects name)

/-- A connection that was opened is closed at the server that it was opened to. -/
theorem Tallied.disconnect (h : origin.Tallied n opened closed) (hc : c ∈ opened) :
    origin.Tallied (n.disconnect c).2 opened (c :: closed) := by
  have hserver := h.reachable c hc
  refine ⟨h.numbered, fun d hd => isSome_find?_count 0 1 (h.reachable d hd),
    fun name => ?_, fun name => ?_⟩
  · have hsame := connects_count 0 1 hserver name
    rw [ite_self] at hsame
    exact hsame.trans (h.connects name)
  · rw [List.countP_cons, ← Nat.add_assoc, ← h.disconnects name]
    exact disconnects_count 0 1 hserver name

/-- A statement that runs over a connection opens and closes none. -/
theorem keeps_run (n : Network) (c : Connection) (statement : Statement) :
    n.Keeps (n.run c statement).2.1 := by
  unfold run
  cases hs : n.find? c.server with
  | none => exact ⟨rfl, fun _ _ => ⟨id, rfl, rfl⟩⟩
  | some s =>
    obtain ⟨-, hname⟩ := name_of_find? hs
    have hran : (s.run statement).2.name = c.server := hname
    -- the statement changes the server it is sent to, and not its connections
    have hfind : ∀ name, (n.change c.server fun _ => (s.run statement).2).find? name
        = if name = c.server then some (s.run statement).2 else n.find? name := by
      intro name
      rw [find?_change fun _ _ => hran]
      cases ht : n.find? name with
      | none =>
        have hother : name ≠ c.server := fun hsame => by
          rw [hsame, hs] at ht
          cases ht
        rw [if_neg hother]
        rfl
      | some t =>
        obtain ⟨-, rfl⟩ := name_of_find? ht
        by_cases hsame : t.name = c.server
        · simp [hsame]
        · simp [hsame]
    refine ⟨rfl, fun t _ => ?_⟩
    unfold connects disconnects
    show (_ → ((n.change _ _).find? t.name).isSome)
      ∧ (((n.change _ _).find? t.name).map _).getD 0 = _
      ∧ (((n.change _ _).find? t.name).map _).getD 0 = _
    rw [hfind]
    split
    · rename_i hsame
      rw [hsame, hs]
      exact ⟨id, rfl, rfl⟩
    · exact ⟨id, rfl, rfl⟩

end Network

/-! ## Where connections are -/

/-- Since the first network the connections were opened, of which these are closed, in the cache
and abandoned, and these are in use. -/
structure Accounts (origin n : Network) (inUse opened closed cached abandoned : List Connection) :
    Prop where
  tallied : origin.Tallied n opened closed
  nodup : opened.Nodup
  placed : opened.Perm (closed ++ (cached ++ abandoned))
  live : ∀ c ∈ inUse, c ∈ opened ∧ c ∉ closed

namespace Accounts

open scoped List

variable {origin n n' : Network} {c : Connection}
  {inUse inUse' opened closed cached cached' abandoned : List Connection}

/-- What is closed was opened. -/
theorem closed_subset (h : Accounts origin n inUse opened closed cached abandoned) :
    closed ⊆ opened :=
  fun _ hc => h.placed.mem_iff.2 (List.mem_append_left _ hc)

/-- What is cached was opened. -/
theorem cached_subset (h : Accounts origin n inUse opened closed cached abandoned) :
    cached ⊆ opened :=
  fun _ hc => h.placed.mem_iff.2 (List.mem_append_right _ (List.mem_append_left _ hc))

/-- No connection is in two places. -/
theorem apart (h : Accounts origin n inUse opened closed cached abandoned) :
    closed.Nodup ∧ (cached ++ abandoned).Nodup ∧ ∀ c ∈ closed, c ∉ cached ++ abandoned := by
  obtain ⟨hclosed, hothers, happart⟩ := List.nodup_append.1 (h.placed.nodup_iff.1 h.nodup)
  exact ⟨hclosed, hothers, fun c hc hmem => happart c hc c hmem rfl⟩

/-- The connections in use are others, the rest is the same up to the order. -/
theorem reuse (h : Accounts origin n inUse opened closed cached abandoned)
    (hcached : cached'.Perm cached) (hlive : ∀ c ∈ inUse', c ∈ inUse ∨ c ∈ cached) :
    Accounts origin n inUse' opened closed cached' abandoned where
  tallied := h.tallied
  nodup := h.nodup
  placed := h.placed.trans (((hcached.append_right _).append_left _).symm)
  live c hc := by
    rcases hlive c hc with hc | hc
    · exact h.live c hc
    · exact ⟨h.cached_subset hc, fun hclosed => h.apart.2.2 c hclosed (List.mem_append_left _ hc)⟩

/-- Statements and changes of answers leave the accounts as they are. -/
theorem keeps (h : Accounts origin n inUse opened closed cached abandoned) (hn : n.Keeps n') :
    Accounts origin n' inUse opened closed cached abandoned :=
  { h with tallied := h.tallied.keeps hn }

/-- A connection is opened and used; it comes into the cache or is abandoned at once. -/
theorem connect {abandoned' : List Connection}
    (h : Accounts origin n inUse opened closed cached abandoned) {url : ConnectionString}
    (hconnect : n.connect url = (.ok c, n'))
    (hplaced : (cached' ++ abandoned').Perm (c :: (cached ++ abandoned)))
    (hlive : ∀ d ∈ inUse', d ∈ inUse ∨ d = c) :
    Accounts origin n' inUse' (c :: opened) closed cached' abandoned' := by
  obtain ⟨hnew, htallied⟩ := h.tallied.connect hconnect
  refine ⟨htallied, List.nodup_cons.2 ⟨hnew, h.nodup⟩, ?_, fun d hd => ?_⟩
  · calc
      c :: opened
      _ ~ c :: (closed ++ (cached ++ abandoned)) := h.placed.cons c
      _ ~ closed ++ c :: (cached ++ abandoned) := List.perm_middle.symm
      _ ~ closed ++ (cached' ++ abandoned') := hplaced.symm.append_left _
  · rcases hlive d hd with hd | rfl
    · exact ⟨List.mem_cons_of_mem _ (h.live d hd).1, (h.live d hd).2⟩
    · exact ⟨List.mem_cons_self, fun hclosed => hnew (h.closed_subset hclosed)⟩

/-- A connection that nobody uses goes from the cache to those that are closed. -/
theorem close (h : Accounts origin n inUse opened closed cached abandoned)
    (hcached : cached.Perm (c :: cached')) (hidle : c ∉ inUse) :
    Accounts origin (n.disconnect c).2 inUse opened (c :: closed) cached' abandoned where
  tallied := h.tallied.disconnect (h.cached_subset (hcached.mem_iff.2 List.mem_cons_self))
  nodup := h.nodup
  placed := calc
    opened
    _ ~ closed ++ (cached ++ abandoned) := h.placed
    _ ~ closed ++ c :: (cached' ++ abandoned) := (hcached.append_right _).append_left _
    _ ~ c :: closed ++ (cached' ++ abandoned) := List.perm_middle
  live d hd := by
    refine ⟨(h.live d hd).1, fun hmem => ?_⟩
    rcases List.mem_cons.1 hmem with rfl | hmem
    · exact hidle hd
    · exact (h.live d hd).2 hmem

/-- A connection that is still in use goes from the cache to those that are abandoned. -/
theorem abandon (h : Accounts origin n inUse opened closed cached abandoned)
    (hcached : cached.Perm (c :: cached')) :
    Accounts origin n inUse opened closed cached' (c :: abandoned) where
  tallied := h.tallied
  nodup := h.nodup
  placed := calc
    opened
    _ ~ closed ++ (cached ++ abandoned) := h.placed
    _ ~ closed ++ c :: (cached' ++ abandoned) := (hcached.append_right _).append_left _
    _ ~ closed ++ (cached' ++ c :: abandoned) := List.perm_middle.symm.append_left _
  live := h.live

end Accounts

end RowMapper
