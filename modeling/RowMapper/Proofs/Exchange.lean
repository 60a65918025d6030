import RowMapper.Proofs.LeaseReturned
import RowMapper.Proofs.Legality

/-!
# Statements and their answers

A task that has a lease sends its statements one after the other, and each takes the next answer
from the script of the server. What it sends and what it ends with are then determined by the
script, which is arbitrary.

* `Network.Exchanged` relates two networks with a list of statements in between, all of which went
  to one server.
* `Work.Exchanges` says which statements a task sends over a connection and how it ends, with one
  lemma for each step of a task.
* `Session.Opens` is the lease of an operation and its server; `Session.Sends` relates the session
  before an operation to the one after it, with a single lease in between.
-/

namespace RowMapper

/-- The answer to the statement of this position, counted from the next one; behind the script there
is nothing. -/
def Server.answer (s : Server) (k : Nat) : Results := (s.answers[k]?).getD []

/-! ## Networks -/

namespace Network

/-- The server of the name was sent these statements in between, in order, each of which took an
answer. No other server was sent anything. -/
def Exchanged (n : Network) (name : String) (statements : List Statement) (n' : Network) : Prop :=
  ∀ other, (n'.find? other).map (fun s => (s.answers, s.statements))
    = (n.find? other).map fun s =>
      if other = name then (s.answers.drop statements.length, s.statements ++ statements)
      else (s.answers, s.statements)

variable {n n' n'' : Network} {name : String} {xs ys : List Statement} {server : Server}

/-- Servers that keep their answers and statements were sent nothing. -/
theorem Exchanged.of_same (h : ∀ other, (n'.find? other).map (fun s => (s.answers, s.statements))
    = (n.find? other).map fun s => (s.answers, s.statements)) : n.Exchanged name [] n' := by
  intro other
  rw [h other]
  simp

theorem Exchanged.refl (n : Network) (name : String) : n.Exchanged name [] n :=
  .of_same fun _ => rfl

theorem Exchanged.trans (h : n.Exchanged name xs n') (h' : n'.Exchanged name ys n'') :
    n.Exchanged name (xs ++ ys) n'' := by
  intro other
  have hfirst := h other
  have hlast := h' other
  by_cases hsame : other = name
  · -- what the server was sent and answered is added up; all other servers are as before
    simp only [hsame, if_true] at hfirst hlast ⊢
    rw [hlast]
    cases hn : n.find? name with
    | none =>
      rw [hn] at hfirst
      rw [Option.map_eq_none_iff.1 hfirst]
      rfl
    | some s =>
      rw [hn] at hfirst
      obtain ⟨s', hs', hscript⟩ := Option.map_eq_some_iff.1 hfirst
      obtain ⟨hanswers, hstatements⟩ := Prod.mk.inj hscript
      simp [hs', hanswers, hstatements]
  · simp only [if_neg hsame] at hfirst hlast ⊢
    exact hlast.trans hfirst

/-- The server is still there, its script is shorter by the answers that were taken. -/
theorem Exchanged.find?_self (h : n.Exchanged name xs n') (hserver : n.find? name = some server) :
    ∃ server', n'.find? name = some server'
      ∧ ∀ k, server'.answer k = server.answer (xs.length + k) := by
  have hname := h name
  rw [hserver] at hname
  obtain ⟨server', hserver', hsame⟩ := Option.map_eq_some_iff.1 hname
  simp only [if_true] at hsame
  refine ⟨server', hserver', fun k => ?_⟩
  unfold Server.answer
  rw [(Prod.mk.inj hsame).1, List.getElem?_drop]

/-- A change that keeps the answers and the statements of a server. -/
theorem Exchanged.change {f : Server → Server} (target : String)
    (hf : ∀ s, (f s).name = s.name ∧ (f s).answers = s.answers ∧ (f s).statements = s.statements) :
    n.Exchanged name [] (n.change target f) := by
  refine .of_same fun other => ?_
  rw [find?_change fun s hs => (hf s).1.trans hs, Option.map_map]
  congr 1
  funext s
  dsimp only [Function.comp_apply]
  split
  · rw [(hf s).2.1, (hf s).2.2]
  · rfl

/-- A connect exchanges nothing. -/
theorem Exchanged.connect (url : ConnectionString) : n.Exchanged name [] (n.connect url).2 := by
  unfold Network.connect
  dsimp only
  cases n.find? (url.host?.getD "") with
  | none => exact .refl n name
  | some s =>
    dsimp only
    split
    · exact .refl n name
    · exact Exchanged.change _ fun s => ⟨rfl, rfl, rfl⟩

/-- A statement takes the next answer of its server. -/
theorem run_of_find? {c : Connection} (h : n.find? c.server = some server) (st : Statement) :
    (n.run c st).1 = server.answer 0 ∧ n.Exchanged c.server [st] (n.run c st).2.1 := by
  have hname : server.name = c.server := by simpa using List.find?_some h
  unfold Network.run
  rw [h]
  refine ⟨by simp [Server.run, Server.answer, List.head?_eq_getElem?], fun other => ?_⟩
  dsimp only
  rw [find?_change fun _ _ => show (server.run st).2.name = c.server from hname, Option.map_map]
  cases hother : n.find? other with
  | none => rfl
  | some s =>
    have hs : s.name = other := by simpa using List.find?_some hother
    by_cases hsame : other = c.server
    · -- the server of that name is the one that was found
      rw [hsame, h] at hother
      cases hother
      simp [hsame, hname, Server.run]
    · have hne : ¬s.name = c.server := fun heq => hsame (hs.symm.trans heq)
      simp [hsame, hne]

end Network

/-! ## Rows of an answer -/

/-- The first row or failure of an answer. -/
def Results.first (results : Results) : Except String (Option Row) :=
  match results.rows with
  | [] => .ok none
  | .ok row :: _ => .ok (some row)
  | .error message :: _ => .error message

/-- A cursor comes to the first row, whatever counts stand before it. -/
theorem Cursor.first_eq (results : Results) :
    results.first = ({ ahead := results : Cursor }.next).1.map
      fun _ => ({ ahead := results : Cursor }.next).2.current := by
  have hadvance : ∀ affected, results.first = (advance none affected results).1.map
      fun _ => (advance none affected results).2.current := by
    induction results with
    | nil => exact fun _ => rfl
    | cons item rest ih =>
      cases item with
      | row r => exact fun _ => rfl
      | affected a => exact fun affected => ih (affected.add a)
      | failure message => exact fun _ => rfl
  exact hadvance {}

/-! ## Tasks over a connection -/

/-- Over the connection the task sends the statements and ends with the outcome. Nothing else of the
session changes. -/
structure Work.Exchanges (c : Connection) (t : Work α) (s : Session) (statements : List Statement)
    (outcome : Except Error α) : Prop where
  outcome : (t s).outcome = outcome
  exchanged : ∃ network, (t s).session = { s with pool := { s.pool with network } }
    ∧ s.pool.network.Exchanged c.server statements network

namespace Work

variable {α β : Type} {c : Connection} {s : Session} {xs ys : List Statement} {a : α} {e : Error}

theorem Exchanges.done (c : Connection) (outcome : Except Error α) :
    (Work.done outcome).Exchanges c s [] outcome := ⟨rfl, s.pool.network, rfl, .refl _ _⟩

theorem Exchanges.told (c : Connection) (outcome : Except Error α) (log : Log) :
    (Work.told outcome log).Exchanges c s [] outcome := ⟨rfl, s.pool.network, rfl, .refl _ _⟩

/-- A question to the session changes nothing. -/
theorem Exchanges.bindAsk {f : Session → α} {g : α → Work β} {outcome : Except Error β}
    (h : (g (f s)).Exchanges c s xs outcome) : (Work.ask f >>= g).Exchanges c s xs outcome :=
  ⟨h.outcome, h.exchanged⟩

/-- One step and then another, which takes the answers behind those of the first. -/
theorem Exchanges.bind {t : Work α} {f : α → Work β} {outcome : Except Error β}
    (ht : t.Exchanges c s xs (.ok a))
    (hf : ∀ network, s.pool.network.Exchanged c.server xs network →
      (f a).Exchanges c { s with pool := { s.pool with network } } ys outcome) :
    (t >>= f).Exchanges c s (xs ++ ys) outcome := by
  obtain ⟨houtcome, network, hsession, hfirst⟩ := ht
  rcases hreply : t s with ⟨first, s', log⟩
  rw [hreply] at houtcome hsession
  subst houtcome hsession
  obtain ⟨hlast, network', hsession', hexchanged⟩ := hf network hfirst
  have hbind := bind_of_ok (f := f) hreply
  refine ⟨?_, network', ?_, hfirst.trans hexchanged⟩
  · rw [hbind]
    exact hlast
  · rw [hbind]
    exact hsession'

/-- A first step that fails is the end of the task. -/
theorem Exchanges.bind_error {t : Work α} {f : α → Work β} (ht : t.Exchanges c s xs (.error e)) :
    (t >>= f).Exchanges c s xs (.error e) := by
  obtain ⟨houtcome, network, hsession, hexchanged⟩ := ht
  rcases hreply : t s with ⟨first, s', log⟩
  rw [hreply] at houtcome hsession
  subst houtcome hsession
  have hbind := bind_of_error (f := f) hreply
  refine ⟨?_, network, ?_, hexchanged⟩
  · rw [hbind]
  · rw [hbind]

/-- A statement takes the next answer. -/
theorem Exchanges.run {lease : Lease} {server : Server} (st : Statement)
    (hserver : s.pool.network.find? lease.connection.server = some server) :
    (Work.run lease st).Exchanges lease.connection s [st] (.ok (server.answer 0)) := by
  obtain ⟨hanswer, hexchanged⟩ := Network.run_of_find? hserver st
  exact ⟨congrArg Except.ok hanswer, _, rfl, hexchanged⟩

/-- A statement whose results count is run, and fails with the first failure among them. -/
theorem Exchanges.execute {lease : Lease} {server : Server} (st : Statement)
    (hserver : s.pool.network.find? lease.connection.server = some server) :
    (Work.execute lease st).Exchanges lease.connection s [st]
      ((server.answer 0).execute.mapError .server) :=
  .bind (.run st hserver) fun _ _ => .done _ _

end Work

/-! ## Leases -/

namespace Session

/-- The operation gets a lease on a connection to the server. -/
structure Opens (s : Session) (url : ConnectionString) (lease : Lease) (server : Server) : Prop
    where
  acquired : (s.pool.acquire s.thread url).outcome = .ok lease
  reached : s.pool.network.find? lease.connection.server = some server

/-- The pool acquired the lease and gave it back. Over its connection the statements were sent in
between, in order, and nothing else was sent. -/
def Sends (s : Session) (url : ConnectionString) (lease : Lease) (statements : List Statement)
    (s' : Session) : Prop :=
  ∃ network,
    s'.pool = ({ (s.pool.acquire s.thread url).pool with network }.release lease).1
      ∧ s.pool.network.Exchanged lease.connection.server statements network

/-- Mappings were asked for in between. Nothing but the registry changed, and it answers as
before. -/
structure Asked (s s' : Session) : Prop where
  same : ∃ registry, s' = { s with registry }
  reached : Registry.Reached s.model.schema s'.registry
  lookup : ∀ e, s'.registry.lookup s.model.schema e = s.registry.lookup s.model.schema e

section

variable {s s' s'' : Session} {url : ConnectionString} {lease : Lease}

/-- To ask for a mapping changes the registry only. -/
theorem Asked.kept (h : s.Asked s') :
    s'.model = s.model ∧ s'.dialect = s.dialect ∧ s'.pool = s.pool := by
  obtain ⟨⟨registry, rfl⟩, -, -⟩ := h
  exact ⟨rfl, rfl, rfl⟩

/-- What is asked for now is what would have been asked for before. -/
theorem Asked.mappings (h : s.Asked s') : s'.mappings = s.mappings := by
  obtain ⟨⟨registry, rfl⟩, -, hlookup⟩ := h
  exact funext hlookup

theorem Asked.opens (h : s.Asked s') {server : Server} (hopens : s.Opens url lease server) :
    s'.Opens url lease server := by
  obtain ⟨⟨registry, rfl⟩, -, -⟩ := h
  exact ⟨hopens.acquired, hopens.reached⟩

/-- To ask for a mapping sends nothing. -/
theorem Asked.sends (h : s.Asked s') {statements : List Statement}
    (hsends : s'.Sends url lease statements s'') : s.Sends url lease statements s'' := by
  obtain ⟨⟨registry, rfl⟩, -, -⟩ := h
  exact hsends

end

end Session

/-- Acquiring a lease takes no answer. -/
theorem Pool.exchanged_acquire (p : Pool) (thread : ThreadId) (url : ConnectionString)
    (name : String) : p.network.Exchanged name [] (p.acquire thread url).pool.network := by
  have hconnect {url : ConnectionString} {outcome : Except ConnectError Connection}
      {network : Network} (h : p.network.connect url = (outcome, network)) :
      p.network.Exchanged name [] network := by
    have hexchanged : p.network.Exchanged name [] (p.network.connect url).2 := .connect url
    rwa [h] at hexchanged
  unfold acquire
  dsimp only
  split
  · exact .refl _ _
  · split
    · rename_i connection network hopened
      exact hconnect hopened
    · rename_i cause network hrefused
      exact hconnect hrefused

namespace Work

variable {α β : Type} {s : Session} {url : ConnectionString} {lease : Lease} {server : Server}

/-- What work with a lease sends and ends with, if the lease is there. The server answers the work
as it would have answered before the lease was acquired. -/
theorem leased_of_opens {work : Lease → Work α} {statements : List Statement}
    {P : Except Error α → Prop} (hopens : s.Opens url lease server)
    (hwork : ∀ s' : Session, s'.model = s.model →
      (∃ server', s'.pool.network.find? lease.connection.server = some server'
        ∧ ∀ k, server'.answer k = server.answer k) →
      ∃ outcome, P outcome ∧ (work lease).Exchanges lease.connection s' statements outcome) :
    P (Work.leased url work s).outcome
      ∧ s.Sends url lease statements (Work.leased url work s).session := by
  obtain ⟨hacquired, hreached⟩ := hopens
  have hexchanged := Pool.exchanged_acquire s.pool s.thread url lease.connection.server
  have hserver := hexchanged.find?_self hreached
  rcases hreply : s.pool.acquire s.thread url with ⟨acquired, pool, log⟩
  rw [hreply] at hacquired hexchanged hserver
  dsimp only at hacquired
  subst hacquired
  unfold Work.leased Session.Sends
  rw [hreply]
  dsimp only at hexchanged hserver ⊢
  simp only [List.length_nil, Nat.zero_add] at hserver
  obtain ⟨_, hP, rfl, network, hsession, hsent⟩ := hwork { s with pool } rfl hserver
  dsimp only at hsent ⊢
  rw [hsession]
  exact ⟨hP, network, rfl, hexchanged.trans hsent⟩

/-- One statement is sent whose answer begins with a row, with a failure, or has neither. -/
theorem readBack_of_opens (hopens : s.Opens url lease server) (st : Statement) :
    (Work.readBack url st s).outcome = (server.answer 0).first.mapError .server
      ∧ s.Sends url lease [st] (Work.readBack url st s).session := by
  refine leased_of_opens (P := (· = _)) hopens fun s' _ hserver => ⟨_, rfl, ?_⟩
  obtain ⟨server', hserver, hanswer⟩ := hserver
  rw [← hanswer 0, Cursor.first_eq]
  refine .bind (.run st hserver) fun network _ => ?_
  dsimp only
  rcases ({ ahead := server'.answer 0 } : Cursor).next with ⟨message | found, cursor⟩
  · exact .done _ _
  · exact .done _ _

/-! ## Steps before a lease -/

section

variable {t : Work α} {f : α → Work β} {a : α} {s' : Session} {log : Log}

/-- Behind a first step that succeeds a task ends as the rest of it does. -/
theorem outcome_bind (h : t s = ⟨.ok a, s', log⟩) : ((t >>= f) s).outcome = (f a s').outcome := by
  rw [bind_of_ok h]

theorem session_bind (h : t s = ⟨.ok a, s', log⟩) : ((t >>= f) s).session = (f a s').session := by
  rw [bind_of_ok h]

end

/-- The mapping that a look-up finds is what a request gives. -/
theorem mapping_of_lookup (hr : Registry.Reached s.model.schema s.registry) {e : EntityType}
    {m : TypeMapping} (hm : s.registry.lookup s.model.schema e = .ok m) :
    ∃ start log, s.Asked start ∧ Work.mapping e s = ⟨.ok m, start, log⟩ := by
  have hanswer : (Work.mapping e s).outcome = .ok m := by
    show (s.registry.lookup s.model.schema e).mapError Error.mapping = _
    rw [hm]
    rfl
  have hasked : s.Asked (Work.mapping e s).session :=
    ⟨⟨_, rfl⟩, .request hr e, hr.sound.lookup_after e⟩
  rcases hmapping : Work.mapping e s with ⟨outcome, start, log⟩
  rw [hmapping] at hanswer hasked
  cases hanswer
  exact ⟨start, log, hasked, rfl⟩

/-- A task that begins with the mapping of a type goes on with the one that a look-up finds. -/
theorem bind_mapping (hr : Registry.Reached s.model.schema s.registry) {e : EntityType}
    {m : TypeMapping} (hm : s.registry.lookup s.model.schema e = .ok m) {t : Work α}
    {next : TypeMapping → Work α} (ht : t = Work.mapping e >>= next) :
    ∃ start, s.Asked start ∧ (t s).outcome = (next m start).outcome
      ∧ (t s).session = (next m start).session := by
  obtain ⟨start, log, hstart, hmapping⟩ := mapping_of_lookup hr hm
  subst ht
  exact ⟨start, hstart, outcome_bind hmapping, session_bind hmapping⟩

/-- Telling a failure changes nothing else. -/
@[simp] theorem outcome_reporting (t : Work α) (s : Session) :
    (Work.reporting t s).outcome = (t s).outcome := by
  unfold Work.reporting
  rcases t s with ⟨_ | a, s', log⟩ <;> rfl

@[simp] theorem session_reporting (t : Work α) (s : Session) :
    (Work.reporting t s).session = (t s).session := by
  unfold Work.reporting
  rcases t s with ⟨_ | a, s', log⟩ <;> rfl

end Work

/-- The server that answers is reached by a new connection. -/
theorem Company.opens_answering (answers : List Results) (e : EntityType) :
    ∃ lease, (Company.answering answers).Opens (Company.rows e).url lease
      { name := "srv", answers } :=
  ⟨_, rfl, rfl⟩

end RowMapper
