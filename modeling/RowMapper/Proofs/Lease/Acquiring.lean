import RowMapper.Proofs.Lease.Leaving

/-!
# A reference is added

An acquire adds a reference first, and shares the connection of the entry if it is open. Otherwise
it opens one: the entry keeps it for those that come later, unless it was closed in the meantime.
A connect that fails gives the reference back.
-/

namespace RowMapper

open LeaseManager (Alike)

namespace Ledger

variable {ℓ ℓ' : Ledger} {key : LeaseKey} {e : LeaseEntry}

/-! ## A reference is added -/

/-- An acquire finds a key whose references no sweep has taken. -/
theorem Sound.reclaimed_eq_none {thread : ThreadId} {url : ConnectionString}
    (h : ℓ.Sound (ℓ.pool.manager.keyOf thread url)) (hthread : thread ∉ ℓ.pool.manager.ended) :
    ℓ.reclaimed (ℓ.pool.manager.keyOf thread url) = none := by
  cases hreclaimed : ℓ.reclaimed (ℓ.pool.manager.keyOf thread url) with
  | none => rfl
  | some number =>
    obtain ⟨⟨t, ht, hended⟩, -⟩ := h.held.reclaimed number hreclaimed
    unfold LeaseManager.keyOf at ht
    dsimp only at ht
    split at ht
    · rw [Option.some.inj ht] at hthread
      exact absurd hended hthread
    · cases ht

/-- The entry that an acquire makes of the former one. -/
theorem Sound.entered (h : ℓ.Sound key) (hreclaimed : ℓ.reclaimed key = none)
    (url : ConnectionString) (hentry : (ℓ.pool.manager.startSweeping.enter key url).1 = e) :
    e.generation = 0 ∧ e.references = ℓ.outstanding key + 1
      ∧ ∀ held ∈ ℓ.leases key, e.connection = some held.2.connection := by
  have hfind := ℓ.pool.manager.find?_startSweeping key
  cases hold : ℓ.pool.manager.find? key with
  | none =>
    rw [hold] at hfind
    rw [LeaseManager.enter_of_none hfind] at hentry
    subst hentry
    -- a key without an entry has no lease, so the new entry counts the first one
    have hzero := h.absent hold hreclaimed
    refine ⟨rfl, by rw [hzero], fun held hheld => ?_⟩
    unfold outstanding at hzero
    have hnone := List.length_pos_of_mem hheld
    omega
  | some old =>
    rw [hold] at hfind
    rw [LeaseManager.enter_of_some hfind] at hentry
    subst hentry
    have hp := h.present old hold
    have hgeneration := hp.generation
    have hreferences := hp.references
    rw [hreclaimed] at hgeneration hreferences
    exact ⟨hgeneration, congrArg (· + 1) hreferences, hp.shared hreclaimed⟩

/-- What an acquire gets whose reference is counted in the entry: a lease with the connection of the
entry at once, or else it is to open one. -/
inductive Enters (ℓ ℓ' : Ledger) (key : LeaseKey) (e : LeaseEntry) : Prop where
  | shares (lease : Lease) (leases : ℓ'.leases key = (ℓ.count, lease) :: ℓ.leases key)
    (opening : ℓ'.opening key = none) (ofKey : lease.key = key)
    (generation : lease.generation = e.generation) (connection : e.connection = some lease.connection)
  | opens (o : Opening) (leases : ℓ'.leases key = ℓ.leases key)
    (opening : ℓ'.opening key = some (ℓ.count, o)) (ofKey : o.key = key)
    (generation : o.generation = e.generation) (connection : e.connection = none)

/-- An acquire that starts enters. -/
theorem enters_enter {thread : ThreadId} {url : ConnectionString}
    (hkey : ℓ.pool.manager.keyOf thread url = key) (hnone : ℓ.opening key = none)
    (he : (ℓ.pool.manager.startSweeping.enter key url).1 = e) :
    Enters ℓ (ℓ.after (.enter thread url)) key e := by
  subst hkey
  have hgot := ℓ.pool.enter_got thread url he
  cases hentered : ℓ.pool.enter thread url with
  | mk got pool =>
    rw [hentered] at hgot
    cases hc : e.connection with
    | some c =>
      rw [hc] at hgot
      obtain rfl : got = _ := hgot
      rw [after_enter_of_shared hentered]
      exact .shares _ (Function.update_self _ _ _) hnone rfl rfl hc
    | none =>
      rw [hc] at hgot
      obtain rfl : got = _ := hgot
      rw [after_enter_of_opening hentered]
      exact .opens _ rfl (Function.update_self _ _ _) rfl rfl hc

/-- A new acquire has the number behind all others. -/
theorem Enters.held (enters : Enters ℓ ℓ' key e) (h : ℓ.Held key)
    (hcount : ℓ'.count = ℓ.count + 1) (hgeneration : e.generation = 0)
    (hreclaimed : ℓ'.reclaimed key = none) : ℓ'.Held key where
  leases := by
    have hold : ∀ held ∈ ℓ.leases key,
        held.2.key = key ∧ held.2.generation = 0 ∧ held.1 < ℓ.count + 1 := fun held hheld =>
      have ⟨hk, hg, hn⟩ := h.leases held hheld
      ⟨hk, hg, Nat.lt_succ_of_lt hn⟩
    rw [hcount]
    cases enters with
    | shares lease leases _ ofKey generation =>
      rw [leases]
      exact List.forall_mem_cons.2 ⟨⟨ofKey, generation.trans hgeneration, Nat.lt_succ_self _⟩, hold⟩
    | opens o leases =>
      rw [leases]
      exact hold
  opening x hx := by
    rw [hcount]
    cases enters with
    | shares lease _ opening =>
      rw [opening] at hx
      cases hx
    | opens o _ opening ofKey generation =>
      rw [opening] at hx
      obtain rfl := Option.some.inj hx
      exact ⟨ofKey, generation.trans hgeneration, Nat.lt_succ_self _⟩
  reclaimed number hnumber := by
    rw [hreclaimed] at hnumber
    cases hnumber

/-- An acquire that starts counts once, with a lease or under way. -/
theorem Enters.outstanding (enters : Enters ℓ ℓ' key e) (hnone : ℓ.opening key = none) :
    ℓ'.outstanding key = ℓ.outstanding key + 1 := by
  unfold Ledger.outstanding
  cases enters with
  | shares lease leases opening =>
    rw [leases, opening, hnone]
    rfl
  | opens o leases opening =>
    rw [leases, opening, hnone]
    rfl

/-- An acquire of another key. -/
theorem untouched_enter {thread : ThreadId} {url : ConnectionString}
    (hkey : key ≠ ℓ.pool.manager.keyOf thread url) :
    Untouched ℓ (ℓ.after (.enter thread url)) key := by
  have hmanager := ℓ.pool.enter_manager thread url
  have u : Untouched ℓ (ℓ.proceed (ℓ.pool.enter thread url).2) key := by
    refine untouched_proceed ?_ fun c hc _ => ?_
    · rw [hmanager, LeaseManager.find?_enter, if_neg hkey, LeaseManager.find?_startSweeping]
    · rw [hmanager, LeaseManager.mem_closings_enter, LeaseManager.closings_startSweeping] at hc
      exact hc.1
  cases hentered : ℓ.pool.enter thread url with
  | mk got pool =>
    rw [hentered] at u
    cases got with
    | inl lease =>
      rw [after_enter_of_shared hentered]
      exact { u with leases := Function.update_of_ne hkey _ _ }
    | inr o =>
      rw [after_enter_of_opening hentered]
      exact { u with opening := Function.update_of_ne hkey _ _ }

/-- An acquire that starts keeps what holds between events. -/
theorem sound_enter {thread : ThreadId} {url : ConnectionString}
    (h : ℓ.Sound (ℓ.pool.manager.keyOf thread url)) (allowed : ℓ.Allows (.enter thread url)) :
    (ℓ.after (.enter thread url)).Sound (ℓ.pool.manager.keyOf thread url) := by
  obtain ⟨hthread, hnone⟩ := allowed
  have hreclaimed := h.reclaimed_eq_none hthread
  have hmanager := ℓ.pool.enter_manager thread url
  generalize hkey : ℓ.pool.manager.keyOf thread url = key at *
  obtain ⟨e, he⟩ : ∃ e, (ℓ.pool.manager.startSweeping.enter key url).1 = e := ⟨_, rfl⟩
  obtain ⟨hgeneration, hreferences, hshared⟩ := h.entered hreclaimed url he
  have enters := enters_enter hkey hnone he
  obtain ⟨hpool, hcount, hpast⟩ := ℓ.after_enter thread url
  have hfind : (ℓ.after (.enter thread url)).pool.manager.find? key = some e := by
    rw [hpool, hmanager, LeaseManager.find?_enter, if_pos rfl, he]
  have hclosings : ∀ c ∈ (ℓ.after (.enter thread url)).pool.manager.closings, c.key ≠ key := by
    intro c hc
    rw [hpool, hmanager, LeaseManager.mem_closings_enter] at hc
    exact hc.2
  rw [← hpast] at hreclaimed
  -- from here on only what the acquire does to its key matters
  generalize ℓ.after (.enter thread url) = ℓ' at *
  refine sound_of_present (enters.held h.held hcount hgeneration hreclaimed) hfind
    (fun c hc hck => absurd hck (hclosings c hc))
    { generation := ?_, references := ?_, shared := fun _ => ?_, opening := fun hsome => ?_ }
  · rw [hreclaimed]
    exact hgeneration
  · rw [hreclaimed, hreferences, enters.outstanding hnone]
    rfl
  · cases enters with
    | shares lease leases _ _ _ connection =>
      rw [leases]
      exact List.forall_mem_cons.2 ⟨connection, hshared⟩
    | opens o leases =>
      rw [leases]
      exact hshared
  · cases enters with
    | shares lease _ opening =>
      rw [opening] at hsome
      cases hsome
    | opens o _ _ _ _ connection => exact connection

/-! ## A connection is opened, or not -/

/-- The connection of a key is opened, and the acquire that asked for it gets a lease. -/
structure Opens (ℓ ℓ' : Ledger) (key : LeaseKey) (number : Nat) (lease : Lease) : Prop where
  onward : Onward ℓ ℓ'
  manager : ℓ'.pool.manager = match ℓ.pool.manager.find? key with
    | some e => ℓ.pool.manager.put { e with connection := some lease.connection }
    | none => ℓ.pool.manager
  before : ∃ o, ℓ.opening key = some (number, o)
    ∧ lease.key = o.key ∧ lease.generation = o.generation
  leases : ℓ'.leases key = (number, lease) :: ℓ.leases key
  opening : ℓ'.opening key = none
  reclaimed : ℓ'.reclaimed key = ℓ.reclaimed key

theorem Opens.held {number : Nat} {lease : Lease} (opens : Opens ℓ ℓ' key number lease)
    (h : ℓ.Held key) : ℓ'.Held key := by
  obtain ⟨o, ho, hlk, hlg⟩ := opens.before
  obtain ⟨hkey, hgeneration, hnumber⟩ := h.opening _ ho
  constructor
  · rw [opens.leases]
    refine List.forall_mem_cons.2 ⟨⟨hlk.trans hkey, hlg.trans hgeneration, ?_⟩, ?_⟩
    · exact Nat.lt_of_lt_of_le hnumber opens.onward.count
    · intro held hheld
      obtain ⟨hk, hg, hn⟩ := h.leases held hheld
      exact ⟨hk, hg, Nat.lt_of_lt_of_le hn opens.onward.count⟩
  · rw [opens.opening]
    intro x hx
    cases hx
  · intro r hr
    rw [opens.reclaimed] at hr
    obtain ⟨⟨thread, hthread, hended⟩, hbefore, hbefore'⟩ := h.reclaimed r hr
    rw [opens.leases, opens.opening]
    -- the lease has the number of its acquire, which was older than the sweep
    refine ⟨⟨thread, hthread, opens.onward.ended hended⟩, ?_, fun x hx => by cases hx⟩
    exact List.forall_mem_cons.2 ⟨hbefore' _ ho, hbefore⟩

/-- An acquire that opens a connection goes from under way to its lease. -/
theorem Opens.outstanding {number : Nat} {lease : Lease} (opens : Opens ℓ ℓ' key number lease) :
    ℓ'.outstanding key = ℓ.outstanding key := by
  obtain ⟨o, ho, -⟩ := opens.before
  unfold Ledger.outstanding
  rw [opens.leases, opens.opening, ho]
  rfl

/-- The entry was closed in the meantime: the connection belongs to the lease alone. -/
theorem Opens.sound_of_absent {number : Nat} {lease : Lease} (opens : Opens ℓ ℓ' key number lease)
    (h : ℓ.Sound key) (he : ℓ.pool.manager.find? key = none) : ℓ'.Sound key := by
  have hmanager := opens.manager
  rw [he] at hmanager
  -- there is no entry to keep the connection, so the manager does not see it
  have hmanager' : ℓ'.pool.manager = ℓ.pool.manager := hmanager
  refine ⟨opens.held h.held, ?_, fun _ => ?_, ?_⟩
  · rw [hmanager']
    exact h.closing
  · rw [opens.reclaimed, opens.outstanding]
    exact h.absent he
  · rw [hmanager', he]
    intro e habsent
    cases habsent

/-- The entry of a key keeps the connection that was opened. -/
theorem Opens.sound_of_present {number : Nat} {lease : Lease} (opens : Opens ℓ ℓ' key number lease)
    (h : ℓ.Sound key) (he : ℓ.pool.manager.find? key = some e) : ℓ'.Sound key := by
  obtain ⟨o, ho, -⟩ := opens.before
  have hp := h.present e he
  have hmanager := opens.manager
  rw [he] at hmanager
  have hmanager' : ℓ'.pool.manager
      = ℓ.pool.manager.put { e with connection := some lease.connection } := hmanager
  have hfind : ℓ'.pool.manager.find? key
      = some { e with connection := some lease.connection } := by
    rw [hmanager', LeaseManager.find?_put, if_pos (LeaseManager.key_of_find? he).symm]
  have hclosings : ℓ'.pool.manager.closings = ℓ.pool.manager.closings := by
    rw [hmanager', LeaseManager.closings_put]
  refine Ledger.sound_of_present (opens.held h.held) hfind ?_ ?_
  · rw [hclosings]
    intro c hc hck
    obtain ⟨e', he', hidle⟩ := h.closing c hc hck
    rw [he] at he'
    obtain rfl := Option.some.inj he'
    exact hidle
  · refine { generation := ?_, references := ?_, shared := ?_, opening := ?_ }
    · rw [opens.reclaimed]
      exact hp.generation
    · rw [opens.reclaimed, opens.outstanding]
      exact hp.references
    · rw [opens.reclaimed, opens.leases]
      intro hnone
      refine List.forall_mem_cons.2 ⟨rfl, fun held hmem => ?_⟩
      -- an entry with leases was open before
      have hclosed := hp.opening (by rw [ho]; rfl)
      rw [hp.shared hnone held hmem] at hclosed
      cases hclosed
    · rw [opens.opening]
      intro hsome
      cases hsome

/-- An acquire that is concluded well opens. -/
theorem opens_conclude {number : Nat} {o : Opening} {lease : Lease} {pool : Pool}
    (hkey : o.key = key) (ho : ℓ.opening key = some (number, o))
    (hconclude : ℓ.pool.conclude o = (.ok lease, pool)) :
    Opens ℓ (ℓ.after (.conclude key)) key number lease := by
  obtain ⟨hlk, hlg, hmanager⟩ := Pool.conclude_of_ok hconclude
  have halike := Pool.alike_conclude hconclude
  rw [hkey] at hmanager
  rw [after_conclude_of_ok ho hconclude]
  exact
    { onward := onward_of_alike (Nat.le_succ _) halike, manager := hmanager
      before := ⟨o, ho, hlk, hlg⟩, leases := Function.update_self _ _ _
      opening := Function.update_self _ _ _, reclaimed := rfl }

/-- An acquire that is concluded keeps what holds between events, whether it fails or not. -/
theorem sound_conclude (h : ℓ.Sound key) (allowed : ℓ.Allows (.conclude key)) :
    (ℓ.after (.conclude key)).Sound key := by
  obtain ⟨⟨number, o⟩, ho⟩ := Option.isSome_iff_exists.1 allowed
  obtain ⟨hkey, hgeneration, -⟩ := h.held.opening _ ho
  cases hconclude : ℓ.pool.conclude o with
  | mk result pool =>
    cases result with
    | ok lease =>
      have opens := opens_conclude hkey ho hconclude
      cases he : ℓ.pool.manager.find? key with
      | none => exact opens.sound_of_absent h he
      | some e => exact opens.sound_of_present h he
    | error cause =>
      have hmanager := Pool.conclude_of_error hconclude
      rw [after_conclude_of_error ho hconclude]
      -- to the key, a connect that failed is a lease given back
      refine h.leaves
        { onward := onward_of_alike (Nat.le_succ _) (Pool.alike_conclude hconclude), manager := ?_
          leases := List.Subset.refl _, opening := ?_, outstanding := ?_, reclaimed := rfl }
      · show pool.manager = _
        rw [hmanager, hkey, hgeneration]
      · intro x hx
        have hnone : Function.update ℓ.opening key none key = none := Function.update_self _ _ _
        cases hnone.symm.trans hx
      · unfold outstanding
        dsimp only
        rw [Function.update_self, ho]
        rfl

/-- The other keys do not see it. -/
theorem untouched_conclude {k : LeaseKey} (h : ℓ.Sound k) (allowed : ℓ.Allows (.conclude k))
    (hk : key ≠ k) : Untouched ℓ (ℓ.after (.conclude k)) key := by
  obtain ⟨⟨number, o⟩, ho⟩ := Option.isSome_iff_exists.1 allowed
  obtain ⟨hkey, -, -⟩ := h.held.opening _ ho
  have hk' : key ≠ o.key := fun h => hk (h.trans hkey)
  cases hconclude : ℓ.pool.conclude o with
  | mk result pool =>
    cases result with
    | ok lease =>
      obtain ⟨-, -, hmanager⟩ := Pool.conclude_of_ok hconclude
      have u : Untouched ℓ (ℓ.proceed pool) key := by
        -- the entry of the other key gets the connection, if it is still there
        cases he : ℓ.pool.manager.find? o.key with
        | none =>
          rw [he] at hmanager
          have hmanager' : pool.manager = ℓ.pool.manager := hmanager
          refine untouched_proceed (by rw [hmanager']) fun c hc _ => ?_
          rwa [hmanager'] at hc
        | some e =>
          rw [he] at hmanager
          have hmanager' : pool.manager
              = ℓ.pool.manager.put { e with connection := some lease.connection } := hmanager
          have hek : key ≠ e.key := fun h => hk' (h.trans (LeaseManager.key_of_find? he))
          refine untouched_proceed ?_ fun c hc _ => ?_
          · rw [hmanager', LeaseManager.find?_put]
            exact if_neg hek
          · rwa [hmanager', LeaseManager.closings_put] at hc
      rw [after_conclude_of_ok ho hconclude]
      exact
        { u with
          leases := Function.update_of_ne hk _ _, opening := Function.update_of_ne hk _ _ }
    | error cause =>
      have hmanager := Pool.conclude_of_error hconclude
      have u : Untouched ℓ (ℓ.proceed pool) key := by
        refine untouched_proceed ?_ fun c hc hck => ?_
        · rw [hmanager, LeaseManager.find?_leave_of_ne hk']
        · rwa [hmanager, LeaseManager.mem_closings_leave_of_ne (hck ▸ hk')] at hc
      rw [after_conclude_of_error ho hconclude]
      exact { u with opening := Function.update_of_ne hk _ _ }

end Ledger

end RowMapper
