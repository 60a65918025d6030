import RowMapper.Collection.Basic
import RowMapper.Proofs.Lease.Holders
import RowMapper.Proofs.TakenRow

/-!
# Leases that operations give back

Every operation of a collection builds what it sends first. If that fails, or if there is nothing
to send, the pool stays as it is. Otherwise one lease is acquired and given back, or the connect
failed and the acquire gave its reference back itself. Either way all counts of references are what
they were, so they are after any number of operations.

* `LeaseManager.Even` relates two managers with the same counts of references, and `Pool.Serves` two
  pools with one acquire in between whose reference was given back.
* `Collection.prepare` is what an operation builds before it needs the database.
* `Collection.leases_given_back` is about each operation of a sequence.
-/

namespace RowMapper

/-! ## Counts of references -/

namespace LeaseManager

variable {m m' m'' : LeaseManager} {e : LeaseEntry} {key : LeaseKey}

/-- The managers have the same settings and the same counts of references. -/
structure Even (m m' : LeaseManager) : Prop where
  config : m'.config = m.config
  references : ∀ key, m'.references key = m.references key

theorem Even.refl (m : LeaseManager) : Even m m := ⟨rfl, fun _ => rfl⟩

theorem Even.trans (h : Even m m') (h' : Even m' m'') : Even m m'' :=
  ⟨h'.config.trans h.config, fun key => (h'.references key).trans (h.references key)⟩

/-- The key of a connection string keeps its references. -/
theorem Even.references_keyOf (h : Even m m') (thread : ThreadId) (url : ConnectionString) :
    m'.references (m'.keyOf thread url) = m.references (m.keyOf thread url) := by
  have hkey : m'.keyOf thread url = m.keyOf thread url := by
    unfold keyOf
    rw [h.config]
  rw [hkey]
  exact h.references _

/-- The entry that is entered counts one reference more than its key had. -/
theorem references_enter (m : LeaseManager) (key : LeaseKey) (url : ConnectionString) :
    (m.enter key url).1.references = m.references key + 1 := by
  cases hfound : m.find? key with
  | none => simp [enter_of_none hfound, references, hfound]
  | some e => simp [enter_of_some hfound, references, hfound]

/-- A reference of the present generation that is given back is one less of its key. -/
theorem references_leave (h : m.find? key = some e) (k : LeaseKey) :
    (m.leave key e.generation).1.references k
      = if k = key then e.references - 1 else m.references k := by
  have hkey : e.key = key := key_of_find? h
  by_cases hk : k = key
  · subst hk
    by_cases hlast : e.references ≤ 1
    · have hzero : e.references - 1 = 0 := by omega
      simp [leave_of_last h hlast, references, find?_schedule, hkey, hzero]
    · have hshared : 1 < e.references := by omega
      simp [leave_of_shared h hshared, references, find?_put, hkey]
  · have hother : (m.leave key e.generation).1.find? k = m.find? k := find?_leave_of_ne hk _
    simp [references, hother, hk]

/-- A reference that was entered and is given back leaves all counts even, whatever became of the
connection of the entry meanwhile. -/
theorem even_leave_enter {url : ConnectionString}
    (h : m'.find? key = some e) (hgeneration : e.generation = (m.enter key url).1.generation)
    (hreferences : e.references = (m.enter key url).1.references)
    (hothers : ∀ k, k ≠ key → m'.find? k = m.find? k) (hconfig : m'.config = m.config) :
    Even m (m'.leave key (m.enter key url).1.generation).1 where
  config := (alike_leave m' key _).config.trans hconfig
  references k := by
    rw [← hgeneration, references_leave h]
    split
    · rename_i hk
      rw [hreferences, references_enter, hk]
      show m.references key + 1 - 1 = _
      omega
    · rename_i hk
      show _ = m.references k
      unfold references
      rw [hothers k hk]

end LeaseManager

/-! ## Pools -/

namespace Pool

open LeaseManager (Even even_leave_enter find?_startSweeping find?_enter find?_put enter_key
  alike_put alike_startSweeping)

variable {p q : Pool} {thread : ThreadId} {url : ConnectionString}

/-- The number of references to the connection that a thread has to a database. -/
def references (p : Pool) (thread : ThreadId) (url : ConnectionString) : Nat :=
  p.manager.references (p.manager.keyOf thread url)

/-- A lease was acquired and given back in between, or the connect failed. The network went on as
it did. -/
inductive Serves (p : Pool) (thread : ThreadId) (url : ConnectionString) : Pool → Prop where
  | refused {failure : ConnectionFailure} {q : Pool} {log : Log} :
      p.acquire thread url = ⟨.error failure, q, log⟩ → Serves p thread url q
  | released {lease : Lease} {q : Pool} {log : Log} (network : Network) :
      p.acquire thread url = ⟨.ok lease, q, log⟩ →
      Serves p thread url ({ q with network }.release lease).1

/-- The manager once the lease of an acquire is given back, if there is one. -/
def Acquired.givenBack (x : Acquired) : LeaseManager :=
  match x.outcome with
  | .error _ => x.pool.manager
  | .ok lease => (x.pool.manager.leave lease.key lease.generation).1

/-- An acquire leaves the counts of references even once its lease is given back. One that failed
does so by itself. -/
theorem even_acquire (p : Pool) (thread : ThreadId) (url : ConnectionString) :
    Even p.manager (p.acquire thread url).givenBack := by
  have hsweeping : Even p.manager p.manager.startSweeping :=
    ⟨(alike_startSweeping _).config, fun key => by
      unfold LeaseManager.references
      rw [find?_startSweeping]⟩
  unfold acquire
  dsimp only
  generalize p.manager.startSweeping = m at hsweeping
  generalize m.keyOf thread url = key
  have hfound : (m.enter key url).2.1.find? key = some (m.enter key url).1 := by
    rw [find?_enter, if_pos rfl]
  have hothers : ∀ k, k ≠ key → (m.enter key url).2.1.find? k = m.find? k := by
    intro k hk
    rw [find?_enter, if_neg hk]
  have hconfig : (m.enter key url).2.1.config = m.config :=
    (LeaseManager.alike_enter m key url).config
  -- the entry had a connection, gets one, or is refused one
  split
  · rename_i connection hconnection
    exact hsweeping.trans (even_leave_enter hfound rfl rfl hothers hconfig)
  · split
    · rename_i connection network hconnect
      have hkey : (m.enter key url).1.key = key := enter_key m key url
      refine hsweeping.trans (even_leave_enter
        (e := { (m.enter key url).1 with connection := some connection }) ?_ rfl rfl ?_ ?_)
      · show (LeaseManager.put _ _).find? key = _
        rw [find?_put]
        exact if_pos hkey.symm
      · intro k hk
        show (LeaseManager.put _ _).find? k = _
        rw [find?_put, if_neg (fun h => hk (h.trans hkey)), hothers k hk]
      · exact (alike_put _ _).config.trans hconfig
    · rename_i cause network hconnect
      exact hsweeping.trans (even_leave_enter hfound rfl rfl hothers hconfig)

/-- Whoever was served has given the lease back. -/
theorem Serves.even (h : Serves p thread url q) : Even p.manager q.manager := by
  have hacquired := even_acquire p thread url
  cases h with
  | refused hacquire =>
    rw [hacquire] at hacquired
    exact hacquired
  | released network hacquire =>
    rw [hacquire] at hacquired
    exact hacquired

end Pool

/-! ## Tasks -/

namespace Work

variable {α β : Type} {s : Session} {url : ConnectionString}

/-- In the session the task leaves the pool alone. -/
def Rests (t : Work α) (s : Session) : Prop :=
  (t s).session.pool = s.pool ∧ (t s).session.thread = s.thread

/-- The task changes nothing of the pool but its network. -/
def Runs (t : Work α) : Prop :=
  ∀ s : Session, ∃ network, (t s).session.pool = { s.pool with network }

/-- To build a statement needs no lease. -/
theorem Rests.built (b : Except Error Built) : (Work.built b).Rests s := by
  cases b <;> exact ⟨rfl, rfl⟩

theorem Runs.pure (a : α) : (Pure.pure a : Work α).Runs := fun s => ⟨s.pool.network, rfl⟩

theorem Runs.fail (e : Error) : (Work.fail e : Work α).Runs := fun s => ⟨s.pool.network, rfl⟩

theorem Runs.done (outcome : Except Error α) : (Work.done outcome).Runs :=
  fun s => ⟨s.pool.network, rfl⟩

theorem Runs.told (outcome : Except Error α) (log : Log) : (Work.told outcome log).Runs :=
  fun s => ⟨s.pool.network, rfl⟩

theorem Runs.ask (f : Session → α) : (Work.ask f).Runs := fun s => ⟨s.pool.network, rfl⟩

/-- A statement runs over a lease that is held. -/
theorem Runs.run (lease : Lease) (st : Statement) : (Work.run lease st).Runs :=
  fun s => ⟨(s.pool.network.run lease.connection st).2.1, rfl⟩

theorem Runs.bind {t : Work α} {f : α → Work β} (ht : t.Runs) (hf : ∀ a, (f a).Runs) :
    (t >>= f).Runs := by
  intro s
  obtain ⟨network, hfirst⟩ := ht s
  cases hreply : t s with
  | mk outcome s' log =>
    rw [hreply] at hfirst
    cases outcome with
    | error e =>
      rw [bind_of_error hreply]
      exact ⟨network, hfirst⟩
    | ok a =>
      obtain ⟨network', hlast⟩ := hf a s'
      rw [bind_of_ok hreply]
      refine ⟨network', hlast.trans ?_⟩
      show Pool.mk s'.pool.manager network' s'.pool.inUse = _
      rw [show s'.pool = _ from hfirst]

/-- A statement is executed over a lease that is held. -/
theorem Runs.execute (lease : Lease) (st : Statement) : (Work.execute lease st).Runs :=
  .bind (.run lease st) fun _ => .done _

/-- A task sends the statements of a plan: if the plan fails, so does the task, and if it is empty,
the task ends well with a result of the kind. The pool stays as it is then. Otherwise it serves the
task. -/
def Carries (url : ConnectionString) (Idle : α → Prop) (plan : Work (List Statement)) (t : Work α)
    (s : Session) : Prop :=
  match (plan s).outcome with
  | .error e => (t s).outcome = .error e ∧ (t s).session.pool = s.pool
  | .ok [] => (∃ a, (t s).outcome = .ok a ∧ Idle a) ∧ (t s).session.pool = s.pool
  | .ok (_ :: _) => s.pool.Serves s.thread url (t s).session.pool

variable {Idle : α → Prop}

/-- Work that fails in its plan acquires nothing. -/
theorem Carries.fail (e : Error) :
    Carries url Idle (Work.fail e) (Work.fail e) s := ⟨rfl, rfl⟩

/-- The first step of the plan is the first step of the task. -/
theorem Carries.bind {x : Work β} {plan : β → Work (List Statement)} {t : β → Work α}
    (hx : x.Rests s)
    (h : ∀ b s' log, x s = ⟨.ok b, s', log⟩ → Carries url Idle (plan b) (t b) s') :
    Carries url Idle (x >>= plan) (x >>= t) s := by
  obtain ⟨hpool, hthread⟩ := hx
  cases hreply : x s with
  | mk outcome s' log =>
    rw [hreply] at hpool hthread
    unfold Carries
    cases outcome with
    | error e =>
      rw [bind_of_error hreply, bind_of_error hreply]
      exact ⟨rfl, hpool⟩
    | ok b =>
      rw [bind_of_ok hreply, bind_of_ok hreply, ← show s'.pool = s.pool from hpool,
        ← show s'.thread = s.thread from hthread]
      exact h b s' log hreply

/-- A lease is taken for statements that were built. -/
theorem Carries.leased {work : Lease → Work α} {statements : List Statement}
    (hne : statements ≠ []) (hwork : ∀ lease, (work lease).Runs) :
    Carries url Idle (pure statements) (Work.leased url work) s := by
  obtain ⟨st, rest, rfl⟩ := List.exists_cons_of_ne_nil hne
  show s.pool.Serves s.thread url (Work.leased url work s).session.pool
  unfold Work.leased
  split
  · rename_i failure pool log hacquire
    exact .refused hacquire
  · rename_i lease pool log hacquire
    obtain ⟨network, hnetwork⟩ := hwork lease { s with pool }
    dsimp only
    rw [hnetwork]
    exact .released network hacquire

/-- A task that goes on with the result of another one, without a connection. -/
theorem Carries.followed {plan : Work (List Statement)} {t : Work β} {u : Work α}
    {IdleFirst : β → Prop} (h : Carries url IdleFirst plan t s)
    (hpool : (u s).session.pool = (t s).session.pool)
    (herror : ∀ e, (t s).outcome = .error e → (u s).outcome = .error e)
    (hidle : ∀ b, (t s).outcome = .ok b → IdleFirst b → ∃ a, (u s).outcome = .ok a ∧ Idle a) :
    Carries url Idle plan u s := by
  unfold Carries at h ⊢
  rw [hpool]
  split at h
  · exact ⟨herror _ h.1, h.2⟩
  · obtain ⟨⟨b, houtcome, hb⟩, hkept⟩ := h
    exact ⟨hidle b houtcome hb, hkept⟩
  · exact h

/-- What is done with the result of a task that is never idle. -/
theorem Carries.after {plan : Work (List Statement)} {t : Work β} {next : β → Work α}
    (h : Carries url (fun _ => False) plan t s) (hrests : ∀ b s', (next b).Rests s') :
    Carries url Idle plan (t >>= next) s := by
  cases hreply : t s with
  | mk outcome s' log =>
    cases outcome with
    | error e =>
      have hbind : (t >>= next) s = ⟨.error e, s', log⟩ := bind_of_error hreply
      refine h.followed ?_ (fun e' he => ?_) fun b _ hb => hb.elim
      · rw [hbind, hreply]
      · rw [hreply] at he
        rw [hbind]
        cases he
        rfl
    | ok b =>
      have hbind : (t >>= next) s = { next b s' with log := log ++ (next b s').log } :=
        bind_of_ok hreply
      refine h.followed ?_ (fun e' he => ?_) fun b _ hb => hb.elim
      · rw [hbind, hreply]
        exact (hrests b s').1
      · rw [hreply] at he
        cases he

/-- What is reported of work acquires nothing. -/
theorem Carries.reporting {plan : Work (List Statement)} {t : Work α}
    (h : Carries url Idle plan t s) : Carries url Idle plan (Work.reporting t) s := by
  have hsame : (Work.reporting t s).outcome = (t s).outcome
      ∧ (Work.reporting t s).session = (t s).session := by
    unfold Work.reporting
    rcases t s with ⟨_ | a, s', log⟩ <;> exact ⟨rfl, rfl⟩
  refine h.followed (by rw [hsame.2]) (fun e he => hsame.1.trans he) fun a ha hidle => ?_
  exact ⟨a, hsame.1.trans ha, hidle⟩

/-- The counts of references are even in all cases. -/
theorem Carries.even {plan : Work (List Statement)} {t : Work α}
    (h : Carries url Idle plan t s) :
    s.pool.manager.Even (t s).session.pool.manager := by
  unfold Carries at h
  split at h
  · rw [h.2]
    exact .refl _
  · rw [h.2]
    exact .refl _
  · exact h.even

end Work

/-! ## Operations of collections -/

/-- A reply, whatever its result is. -/
def Reply.ended (r : Reply α) : Reply Unit := ⟨r.outcome.map fun _ => (), r.session, r.log⟩

namespace Collection

/-- An operation of a collection. A stream is given up after a number of items. -/
inductive Operation where
  | insert (i : Instance)
  | update (i : Instance)
  | reload (i : Instance)
  | delete (i : Instance)
  | fetchAll (q : Query)
  | fetchOne (q : Query)
  | find (condition : Expr)
  | findOne (condition : Expr)
  | stream (q : Query) (count : Nat)

/-- Performs an operation. A stream fails with the item that failed. -/
def perform (c : Collection) : Operation → Work Unit
  | .insert i => fun s => (c.insert i s).toReply.ended
  | .update i => fun s => (c.update i s).toReply.ended
  | .reload i => fun s => (c.reload i s).toReply.ended
  | .delete i => fun s => (c.delete i s).ended
  | .fetchAll q => fun s => (c.fetchAll q s).ended
  | .fetchOne q => fun s => (c.fetchOne q s).ended
  | .find condition => fun s => (c.find condition s).ended
  | .findOne condition => fun s => (c.findOne condition s).ended
  | .stream q count => fun s =>
    let r := c.stream q count s
    Reply.ended ⟨r.items.mapM (·.item), r.session, r.log⟩

/-- Performs operations one after the other, whatever becomes of them. -/
def performAll (s : Session) : List (Collection × Operation) → Session
  | [] => s
  | (c, op) :: rest => performAll (c.perform op s).session rest

/-- What an update builds before it needs the database: nothing, if there is nothing to write. -/
def prepareUpdate (c : Collection) (i : Instance) : Work (List Statement) := do
  let m ← c.mapping
  match ← Work.ask fun s => i.modification m s.dialect with
  | .error e => Work.fail e
  | .ok none => return []
  | .ok (some built) =>
    let statement ← Work.built (.ok built)
    return [statement]

/-- What a query builds before it needs the database. -/
def prepareQuery (c : Collection) (q : Query) : Work (List Statement) := do
  let statement ← c.statement q
  let _ ← c.mapping
  return [statement]

/-- What an operation builds before it needs the database: the statements it is to send. -/
def prepare (c : Collection) : Operation → Work (List Statement)
  | .insert i => do
    let m ← c.mapping
    let statement ← insertRow.insertion i m
    return [statement]
  | .update i => c.prepareUpdate i
  | .reload i => do
    let m ← c.mapping
    match i.storedKeys m with
    | .error cause => Work.fail (.collection cause)
    | .ok keys =>
      let statement ← Work.built (← Work.ask fun s =>
        (Query.byKeys c.entity keys).statement m s.dialect s.mappings)
      return [statement]
  | .delete i => do
    let m ← c.mapping
    let (outcome, log) ← Work.ask fun s => i.removal m s.dialect
    let removal ← Work.told outcome log
    return removal.cascades.map (·.statement) ++ [removal.own]
  | .fetchAll q => c.prepareQuery q
  | .fetchOne q => c.prepareQuery { q with limit := some 1 }
  | .find condition => c.prepareQuery { filters := [condition] }
  | .findOne condition => c.prepareQuery { filters := [condition], limit := some 1 }
  | .stream q count => if count = 0 then return [] else c.prepareQuery q

variable {c : Collection} {i : Instance} {s : Session}

open Work (Rests Runs Carries)

/-- An insert is planned without a lease. -/
theorem rests_insertion (i : Instance) (m : TypeMapping) (s : Session) :
    Rests (insertRow.insertion i m) s := by
  unfold Rests insertRow.insertion
  dsimp only
  cases (i.insertion m s.dialect s.supply).1 <;> exact ⟨rfl, rfl⟩

/-- A query is planned without a lease. -/
theorem rests_statement (c : Collection) (q : Query) (s : Session) : Rests (c.statement q) s := by
  cases hm : c.mapping s with
  | mk outcome s' log =>
    have hsame : s'.pool = s.pool ∧ s'.thread = s.thread := by
      have hkept : Rests c.mapping s := ⟨rfl, rfl⟩
      unfold Rests at hkept
      rw [hm] at hkept
      exact hkept
    unfold Rests statement
    cases outcome with
    | error e =>
      rw [Work.bind_of_error hm]
      exact hsame
    | ok m =>
      rw [Work.bind_of_ok hm]
      have hbuilt := Rests.built (s := s') (q.statement m s'.dialect s'.mappings)
      exact ⟨hbuilt.1.trans hsame.1, hbuilt.2.trans hsame.2⟩

/-- Cascades run over the lease of the deletion. -/
theorem runs_deleteLists (lease : Lease) (deletions : List Instance.ListDeletion) :
    (deleteLists lease deletions).Runs := by
  induction deletions with
  | nil => exact .pure ()
  | cons l rest ih =>
    exact .bind (.execute lease l.statement) fun _ => .bind (.told _ _) fun _ => ih

/-- One statement whose first row is read back. -/
theorem carries_readBack {Idle : Option Row → Prop} (url : ConnectionString) (st : Statement)
    (s : Session) : Carries url Idle (pure [st]) (Work.readBack url st) s := by
  refine .leased (by simp) fun lease => .bind (.run lease st) fun results => ?_
  split
  · exact .fail _
  · exact .pure _

/-- An insert acquires a lease if it can be planned, and gives it back. -/
theorem carries_insertRow (c : Collection) (i : Instance) (s : Session) :
    Carries c.url (fun _ => False) (c.prepare (.insert i)) (c.insertRow i) s := by
  refine .bind ⟨rfl, rfl⟩ fun m s' log _ => ?_
  refine .bind (rests_insertion i m s') fun st s' log _ => ?_
  refine .after (carries_readBack c.url st s') fun row s' => ?_
  cases row <;> exact ⟨rfl, rfl⟩

/-- An update that has nothing to send gives no row. -/
theorem carries_updateRow (c : Collection) (i : Instance) (s : Session) :
    Carries c.url (· = none) (c.prepareUpdate i) (c.updateRow i) s := by
  refine .bind ⟨rfl, rfl⟩ fun m s' log _ => ?_
  refine .bind ⟨rfl, rfl⟩ fun modification s' log _ => ?_
  rcases modification with e | _ | built
  · exact .fail e
  · exact ⟨⟨none, rfl, rfl⟩, rfl⟩
  · refine .bind (.built (.ok built)) fun st s' log _ => ?_
    refine .after (carries_readBack c.url st s') fun row s' => ?_
    cases row <;> exact ⟨rfl, rfl⟩

/-- A reload acquires a lease if it can be planned, and gives it back. -/
theorem carries_readRow (c : Collection) (i : Instance) (s : Session) :
    Carries c.url (fun _ => False) (c.prepare (.reload i)) (c.readRow i) s := by
  refine .bind ⟨rfl, rfl⟩ fun m s' log _ => ?_
  cases i.storedKeys m with
  | error cause => exact .fail _
  | ok keys =>
    refine .bind ⟨rfl, rfl⟩ fun built s' log _ => ?_
    refine .bind (.built built) fun st s' log _ => ?_
    exact .after (carries_readBack c.url st s') fun row s' => ⟨rfl, rfl⟩

/-- A deletion acquires one lease for its cascades and itself, and gives it back. -/
theorem carries_delete (c : Collection) (i : Instance) (s : Session) :
    Carries c.url (fun _ => False) (c.prepare (.delete i)) (c.delete i) s := by
  refine .reporting (.bind ⟨rfl, rfl⟩ fun m s' log _ => ?_)
  refine .bind ⟨rfl, rfl⟩ fun removal s' log _ => ?_
  refine .bind ⟨rfl, rfl⟩ fun removal s' log _ => ?_
  apply Carries.leased
  · simp
  · exact fun lease => .bind (runs_deleteLists lease removal.cascades) fun _ =>
      .execute lease removal.own

/-- A query acquires a lease if it can be planned, and gives it back, whatever the server yields. -/
theorem carries_items (c : Collection) (q : Query)
    (wanted : List (Except String Row) → List (Except String Row)) (s : Session) :
    Carries c.url (fun _ => False) (c.prepareQuery q) (c.items q wanted) s := by
  refine .bind (rests_statement c q s) fun st s' log _ => ?_
  refine .bind ⟨rfl, rfl⟩ fun m s' log _ => ?_
  refine .leased (by simp) fun lease => .bind (.run lease st) fun results => ?_
  refine .bind (.ask _) fun blank => .bind (.ask _) fun references => ?_
  exact .told _ _

theorem carries_fetchAll (c : Collection) (q : Query) (s : Session) :
    Carries c.url (fun _ => False) (c.prepareQuery q) (c.fetchAll q) s :=
  .reporting (.after (carries_items c q id s) fun _ _ => ⟨rfl, rfl⟩)

/-- To fetch one row is to carry out the query for one. -/
theorem carries_fetchOne (c : Collection) (q : Query) (s : Session) :
    Carries c.url (fun _ => False) (c.prepareQuery { q with limit := some 1 }) (c.fetchOne q)
      s := by
  refine .reporting (.after (carries_items c _ _ s) fun items s' => ?_)
  cases items <;> exact ⟨rfl, rfl⟩

/-- An instance takes over a row without the pool, and is done if there is none. -/
theorem carries_taking {plan : Work (List Statement)} {fetch : Work (Option Fetched)}
    (h : Carries c.url (· = none) plan fetch s) (commit : Bool) (i : Instance) :
    Carries c.url (fun _ => True) plan (fun s => (taking fetch commit i s).reported.toReply.ended)
      s := by
  have hsession : (taking fetch commit i s).reported.session = (fetch s).session := by
    rw [session_reported, session_taking]
  have houtcome : (taking fetch commit i s).reported.outcome = (taking fetch commit i s).outcome :=
    (reported_eq _).1
  refine h.followed ?_ (fun e he => ?_) fun row hrow hnone => ⟨(), ?_, trivial⟩
  · exact congrArg Session.pool hsession
  · show ((taking fetch commit i s).reported.outcome.map fun _ => ()) = _
    rw [houtcome]
    unfold taking
    rcases hfetch : fetch s with ⟨_ | row, s', log⟩ <;> rw [hfetch] at he <;> cases he
    rfl
  · show ((taking fetch commit i s).reported.outcome.map fun _ => ()) = _
    rw [houtcome]
    unfold taking
    subst hnone
    rcases hfetch : fetch s with ⟨_ | row, s', log⟩ <;> rw [hfetch] at hrow <;> cases hrow
    rfl

/-- A task that is never idle may end with nothing, too. -/
theorem carries_ended {α : Type} {Idle : Unit → Prop} {plan : Work (List Statement)} {t : Work α}
    (h : Carries c.url (fun _ => False) plan t s) :
    Carries c.url Idle plan (fun s => (t s).ended) s := by
  refine h.followed rfl (fun e he => ?_) fun _ _ hidle => hidle.elim
  show (t s).outcome.map _ = _
  rw [he]
  rfl

/-- A stream that nobody asks for an item acquires nothing. -/
theorem carries_stream (c : Collection) (q : Query) (count : Nat) (s : Session) :
    Carries c.url (fun _ => True) (c.prepare (.stream q count)) (c.perform (.stream q count))
      s := by
  by_cases hcount : count = 0
  · -- a stream that is not read sends nothing
    have hplan : c.prepare (.stream q count) = pure [] := if_pos hcount
    have hstream : c.perform (.stream q count) s = ⟨.ok (), s, []⟩ := by
      show Reply.ended ⟨(c.stream q count s).items.mapM (·.item), _, _⟩ = _
      rw [stream, if_pos hcount]
      rfl
    rw [hplan]
    unfold Carries
    rw [hstream]
    exact ⟨⟨(), rfl, trivial⟩, rfl⟩
  · have hplan : c.prepare (.stream q count) = c.prepareQuery q := if_neg hcount
    rw [hplan]
    refine (carries_items c q (·.take count) s).followed ?_ (fun e he => ?_)
      fun _ _ hidle => hidle.elim
    · show (c.stream q count s).session.pool = _
      rw [stream, if_neg hcount]
      rcases c.items q (·.take count) s with ⟨_ | items, s', log⟩ <;> rfl
    · show ((c.stream q count s).items.mapM Streamed.item).map _ = _
      rw [stream, if_neg hcount]
      rcases hitems : c.items q (·.take count) s with ⟨_ | items, s', log⟩ <;>
        rw [hitems] at he <;> cases he
      rfl

/-- Every operation sends what it prepares. -/
theorem carries_perform (c : Collection) (op : Operation) (s : Session) :
    Carries c.url (fun _ => True) (c.prepare op) (c.perform op) s := by
  cases op with
  | insert i =>
    have hfetch : Carries c.url (· = none) (c.prepare (.insert i)) (some <$> c.insertRow i) s :=
      .after (carries_insertRow c i s) fun row s' => ⟨rfl, rfl⟩
    -- an insert takes the row that it stored, and answers without it
    have hinsert : c.perform (.insert i)
        = fun s => (taking (some <$> c.insertRow i) true i s).reported.toReply.ended := by
      funext s
      show Reply.ended ⟨(taking (some <$> c.insertRow i) true i s).reported.outcome.map _, _, _⟩ = _
      unfold Reply.ended
      cases (taking (some <$> c.insertRow i) true i s).reported.outcome <;> rfl
    rw [hinsert]
    exact carries_taking hfetch true i
  | update i => exact carries_taking (carries_updateRow c i s) true i
  | reload i =>
    have hfetch := carries_readRow c i s
    exact carries_taking (hfetch.followed rfl (fun _ he => he) fun _ _ hidle => hidle.elim) false i
  | delete i => exact carries_ended (carries_delete c i s)
  | fetchAll q => exact carries_ended (carries_fetchAll c q s)
  | fetchOne q => exact carries_ended (carries_fetchOne c q s)
  | find condition => exact carries_ended (carries_fetchAll c { filters := [condition] } s)
  | findOne condition => exact carries_ended (carries_fetchOne c { filters := [condition] } s)
  | stream q count => exact carries_stream c q count s

/-- Any operations leave all counts of references as they were. -/
theorem even_performAll (s : Session) (steps : List (Collection × Operation)) :
    s.pool.manager.Even (performAll s steps).pool.manager := by
  induction steps generalizing s with
  | nil => exact .refl _
  | cons step rest ih =>
    obtain ⟨c, op⟩ := step
    exact (carries_perform c op s).even.trans (ih (c.perform op s).session)

/-- An update that is built assigns a column whose member was changed. -/
theorem changed_of_modification {m : TypeMapping} {d : Dialect} {built : Built}
    (h : i.modification m d = .ok (some built)) :
    ∃ column ∈ m.columns, column.role.isUpdateable = true
      ∧ ∃ x, i.member? column.name = some x ∧ x.cell.isChanged = true := by
  unfold Instance.modification at h
  split at h
  · cases h
  obtain ⟨fields, hfields, h⟩ := Except.bind_eq_ok.1 h
  have hall := forall₂_of_mapM (Except.mapError_eq_ok.1 hfields)
  dsimp only at h
  split at h
  · rename_i hchanges
    -- a field that is assigned is there
    have hne : Command.assigned ⟨m.table, fields⟩ ≠ [] := by
      simpa [Command.hasChanges] using hchanges
    obtain ⟨f, hf⟩ := List.exists_mem_of_ne_nil _ hne
    obtain ⟨hmem, hassigned⟩ := List.mem_filter.1 hf
    obtain ⟨column, hcolumn, hcontributed⟩ := exists_of_forall₂ hall hmem
    obtain ⟨x, hx, rfl⟩ := Except.map_eq_ok.1 hcontributed
    simp only [Bool.and_eq_true] at hassigned
    refine ⟨column, hcolumn, hassigned.1.1, x, ?_, hassigned.1.2⟩
    unfold Instance.tracked at hx
    split at hx
    · cases hx
      assumption
    · cases hx
  · cases h

/-- An update without a change fails before it needs the database, or has nothing to send. -/
theorem prepare_unchanged
    (h : ∀ m, s.registry.lookup s.model.schema c.entity = .ok m →
      ∀ column ∈ m.columns, column.role.isUpdateable = true →
        ∀ x, i.member? column.name = some x → x.cell.isChanged = false)
    (st : Statement) (rest : List Statement) :
    (c.prepareUpdate i s).outcome ≠ .ok (st :: rest) := by
  intro hprepared
  unfold prepareUpdate at hprepared
  rcases hmapping : c.mapping s with ⟨_ | m, s', log⟩
  · rw [Work.bind_of_error hmapping] at hprepared
    cases hprepared
  · obtain ⟨hlookup, rfl⟩ := Work.mapping_eq_ok hmapping
    rw [Work.bind_of_ok hmapping, Work.bind_ask] at hprepared
    dsimp only at hprepared
    rcases hmodified : i.modification m s.dialect with e | _ | built <;>
      rw [hmodified] at hprepared
    · cases hprepared
    · cases hprepared
    · obtain ⟨column, hcolumn, hupdateable, x, hx, hchanged⟩ := changed_of_modification hmodified
      rw [h m hlookup column hcolumn hupdateable x hx] at hchanged
      cases hchanged

/-- After any operations, whatever became of them, an operation leaves the references to every
connection as they were, however it ends. If it fails before it needs the database, or has nothing
to send, then nothing happens to the pool, so no entry is made and no connection is opened.
Otherwise the pool acquires a lease, which is given back unless the connect failed. An update of an
instance whose columns did not change needs no database. -/
theorem leases_given_back (s : Session) (before : List (Collection × Operation)) (c : Collection)
    (op : Operation) :
    let start := performAll s before
    let ended := c.perform op start
    (∀ thread url, ended.session.pool.references thread url = start.pool.references thread url
        ∧ start.pool.references thread url = s.pool.references thread url)
      ∧ (match (c.prepare op start).outcome with
        | .error e => ended.outcome = .error e ∧ ended.session.pool = start.pool
        | .ok [] => ended.outcome = .ok () ∧ ended.session.pool = start.pool
        | .ok (_ :: _) => start.pool.Serves start.thread c.url ended.session.pool)
      ∧ ∀ i, op = .update i →
        (∀ m, start.registry.lookup start.model.schema c.entity = .ok m →
          ∀ column ∈ m.columns, column.role.isUpdateable = true →
            ∀ x, i.member? column.name = some x → x.cell.isChanged = false) →
        ended.session.pool = start.pool := by
  intro start ended
  have hcarries : Carries c.url (fun _ => True) (c.prepare op) (c.perform op) start :=
    carries_perform c op start
  refine ⟨fun thread url => ⟨?_, ?_⟩, ?_, ?_⟩
  · exact hcarries.even.references_keyOf thread url
  · exact (even_performAll s before).references_keyOf thread url
  · unfold Carries at hcarries
    split at hcarries
    · exact hcarries
    · obtain ⟨⟨⟨⟩, houtcome, -⟩, hpool⟩ := hcarries
      exact ⟨houtcome, hpool⟩
    · exact hcarries
  · rintro i rfl hunchanged
    -- without a change there is no statement to prepare
    have hidle := prepare_unchanged hunchanged
    unfold Carries at hcarries
    split at hcarries
    · exact hcarries.2
    · exact hcarries.2
    · rename_i st rest hprepared
      exact absurd hprepared (hidle st rest)

end Collection

namespace Company

/-- Asks for all employees that meet a condition. -/
def finding (condition : Expr → Expr) : Collection.Operation :=
  .find (.lambdaOver "x" employee condition)

def findActive : Collection.Operation := finding fun x => .member x "active"

/-- A condition on a member that employees do not have. -/
def findNicknamed : Collection.Operation :=
  finding fun x => .binary .equal (.member x "nickname") (.constant (.value (.of (.int64 1))))

def employees : Collection := rows employee

def deadlocking : Session := answering [[.failure "deadlock detected"]]

end Company

/-- A search that the server fails holds nothing afterwards, and one that does not compile leaves
the pool alone. -/
theorem leases_given_back_deadlocked :
    let start := Collection.performAll Company.deadlocking [(Company.employees, Company.findActive)]
    let ended := Company.employees.perform Company.findNicknamed start
    (Company.employees.perform Company.findActive Company.deadlocking).outcome.toOption = none
      ∧ start.pool.manager.entries.length = 1
      ∧ start.pool.references 0 Company.employees.url = 0
      ∧ ended.outcome.toOption = none ∧ ended.session.pool = start.pool
      ∧ (Company.ran ended.session).length = 1 := by
  obtain ⟨hreferences, hprepared, -⟩ := Collection.leases_given_back Company.deadlocking
    [(Company.employees, Company.findActive)] Company.employees Company.findNicknamed
  have hfresh : Company.deadlocking.pool.references 0 Company.employees.url = 0 := by decide
  have hdeadlocked : (Company.employees.perform Company.findActive
      Company.deadlocking).outcome.toOption = none := by
    decide +kernel
  generalize hstart :
    Collection.performAll Company.deadlocking [(Company.employees, Company.findActive)] = start
    at hreferences hprepared
  obtain ⟨hkept, hrefused, hran⟩ : start.pool.manager.entries.length = 1
      ∧ (Company.employees.prepare Company.findNicknamed start).outcome.toOption = none
      ∧ (Company.ran (Company.employees.perform Company.findNicknamed start).session).length
        = 1 := by
    rw [← hstart]
    decide +kernel
  cases hplan : (Company.employees.prepare Company.findNicknamed start).outcome with
  | ok statements =>
    rw [hplan] at hrefused
    cases hrefused
  | error e =>
    rw [hplan] at hprepared
    obtain ⟨hended, hpool⟩ := hprepared
    have hfailed := congrArg Except.toOption hended
    exact ⟨hdeadlocked, hkept, ((hreferences 0 _).2).trans hfresh, hfailed, hpool, hran⟩

end RowMapper
