import RowMapper.Session

/-!
# What a task sends

Statements leave a session only through its pool: a task that takes a lease and runs statements
over it adds them to what the servers ran, and nothing else does. What a task sends is read off
its servers before and after it, so that nothing has to be assumed about their answers.

* `Network.Sent P` relates two networks of the same servers, which ran statements with the
  property `P` in between and no others.
* `Work.Sends P` says so of a task in a session, with one lemma for each step of a task.
-/

namespace RowMapper

/-- The server ran some more statements, all of which have the property. -/
def Server.Ran (P : Statement → Prop) (s s' : Server) : Prop :=
  s'.name = s.name ∧ ∃ more, s'.statements = s.statements ++ more ∧ ∀ st ∈ more, P st

namespace Network

/-- The networks have the same servers, which ran statements with the property in between. -/
def Sent (P : Statement → Prop) (n n' : Network) : Prop :=
  ∀ name, Option.Rel (Server.Ran P) (n.find? name) (n'.find? name)

section

variable {P : Statement → Prop} {n n' n'' : Network}

/-- Servers that keep their statements were sent nothing. -/
theorem Sent.of_same (h : ∀ name, Option.Rel (fun s s' : Server => s'.name = s.name
    ∧ s'.statements = s.statements) (n.find? name) (n'.find? name)) : n.Sent P n' := by
  intro name
  have hname := h name
  generalize n.find? name = x at hname ⊢
  generalize n'.find? name = y at hname ⊢
  cases hname with
  | none => exact .none
  | some same =>
    refine .some ⟨same.1, [], ?_, fun st hst => absurd hst List.not_mem_nil⟩
    rw [same.2, List.append_nil]

theorem Sent.refl (n : Network) : n.Sent P n := by
  refine .of_same fun name => ?_
  cases n.find? name with
  | none => exact .none
  | some s => exact .some ⟨rfl, rfl⟩

theorem Sent.trans (h : n.Sent P n') (h' : n'.Sent P n'') : n.Sent P n'' := by
  intro name
  have hname := h name
  have hname' := h' name
  generalize n.find? name = x at hname ⊢
  generalize n'.find? name = y at hname hname' ⊢
  generalize n''.find? name = z at hname' ⊢
  cases hname with
  | none =>
    cases hname'
    exact .none
  | some ran =>
    cases hname' with
    | some ran' =>
      -- what ran second stands behind what ran first
      obtain ⟨hsame, more, hmore, hP⟩ := ran
      obtain ⟨hsame', more', hmore', hP'⟩ := ran'
      refine .some ⟨hsame'.trans hsame, more ++ more', ?_, fun st hst => ?_⟩
      · rw [hmore', hmore, List.append_assoc]
      · rcases List.mem_append.1 hst with hst | hst
        · exact hP st hst
        · exact hP' st hst

theorem Sent.mono {Q : Statement → Prop} (h : n.Sent P n') (hPQ : ∀ st, P st → Q st) :
    n.Sent Q n' := by
  intro name
  have hname := h name
  generalize n.find? name = x at hname ⊢
  generalize n'.find? name = y at hname ⊢
  cases hname with
  | none => exact .none
  | some ran =>
    obtain ⟨hsame, more, hmore, hP⟩ := ran
    exact .some ⟨hsame, more, hmore, fun st hst => hPQ st (hP st hst)⟩

/-- A change of a server is found where the server was. -/
theorem find?_change {name : String} {f : Server → Server}
    (hf : ∀ s : Server, s.name = name → (f s).name = name) (x : String) :
    (n.change name f).find? x
      = (n.find? x).map fun s => if s.name == name then f s else s := by
  have hname (s : Server) : (if s.name == name then f s else s).name = s.name := by
    split
    · rename_i h
      rw [hf s (by simpa using h)]
      exact (by simpa using h : s.name = name).symm
    · rfl
  simp only [find?, change, List.find?_map]
  congr 2
  funext s
  simp only [Function.comp_apply, hname]

/-- A change that keeps what a server ran sends nothing. -/
theorem Sent.change (name : String) {f : Server → Server}
    (hf : ∀ s, (f s).name = s.name ∧ (f s).statements = s.statements) :
    n.Sent P (n.change name f) := by
  refine .of_same fun x => ?_
  rw [find?_change fun s hs => (hf s).1.trans hs]
  cases n.find? x with
  | none => exact .none
  | some s =>
    refine .some ?_
    dsimp only
    split
    · exact hf s
    · exact ⟨rfl, rfl⟩

/-- A connect sends no statement. -/
theorem Sent.connect (url : ConnectionString) : n.Sent P (n.connect url).2 := by
  -- a connection is counted on the server, beside the statements
  unfold Network.connect
  dsimp only
  cases n.find? (url.host?.getD "") with
  | none => exact .refl n
  | some s =>
    dsimp only
    split
    · exact .refl n
    · exact Sent.change _ fun s => ⟨rfl, rfl⟩

/-- Running a statement sends it. -/
theorem Sent.run (c : Connection) {st : Statement} (hst : P st) : n.Sent P (n.run c st).2.1 := by
  unfold Network.run
  cases hfound : n.find? c.server with
  | none => exact .refl n
  | some s =>
    have hserver : s.name = c.server := by simpa using List.find?_some hfound
    have hran : (s.run st).2.name = c.server := hserver
    intro x
    dsimp only
    rw [find?_change fun _ _ => hran]
    cases hx : n.find? x with
    | none => exact .none
    | some t =>
      refine .some ?_
      dsimp only
      split
      · rename_i hname
        -- the server of that name is the one that was found
        have htx : t.name = x := by simpa using List.find?_some hx
        have hsame : x = c.server := htx.symm.trans (by simpa using hname)
        rw [hsame, hfound] at hx
        cases hx
        exact ⟨rfl, [st], rfl, fun st' hst' => List.mem_singleton.1 hst' ▸ hst⟩
      · exact ⟨rfl, [], (List.append_nil _).symm, fun st' hst' => absurd hst' List.not_mem_nil⟩

end

end Network

/-! ## Pools -/

namespace Pool

variable {P : Statement → Prop}

/-- Acquiring a lease sends nothing. -/
theorem sent_acquire (p : Pool) (thread : ThreadId) (url : ConnectionString) :
    p.network.Sent P (p.acquire thread url).pool.network := by
  have hconnect {url : ConnectionString} {outcome : Except ConnectError Connection}
      {network : Network} (h : p.network.connect url = (outcome, network)) :
      p.network.Sent P network := by
    have hsent : p.network.Sent P (p.network.connect url).2 := .connect url
    rwa [h] at hsent
  unfold acquire
  dsimp only
  split
  · exact .refl _
  · -- a connection is opened, or refused
    split
    · rename_i connection network hopened
      exact hconnect hopened
    · rename_i cause network hrefused
      exact hconnect hrefused

end Pool

/-! ## Tasks -/

namespace Work

section

variable {s : Session} {α β : Type}

/-- A first step that fails is the end of the task. -/
theorem bind_of_error {t : Work α} {f : α → Work β} {e : Error} {s' : Session} {log : Log}
    (h : t s = ⟨.error e, s', log⟩) : (t >>= f) s = ⟨.error e, s', log⟩ := by
  show Work.andThen t f s = _
  simp only [Work.andThen, h]

/-- A first step that succeeds goes on in the session that it leaves. -/
theorem bind_of_ok {t : Work α} {f : α → Work β} {a : α} {s' : Session} {log : Log}
    (h : t s = ⟨.ok a, s', log⟩) :
    (t >>= f) s = { f a s' with log := log ++ (f a s').log } := by
  show Work.andThen t f s = _
  simp only [Work.andThen, h]

/-- The steps of a task that succeeds succeed. -/
theorem exists_of_bind_ok {t : Work α} {f : α → Work β} {b : β}
    (h : ((t >>= f) s).outcome = .ok b) :
    ∃ a s' log, t s = ⟨.ok a, s', log⟩ ∧ (f a s').outcome = .ok b := by
  rcases hfirst : t s with ⟨e | a, s', log⟩
  · rw [bind_of_error hfirst] at h
    cases h
  · rw [bind_of_ok hfirst] at h
    exact ⟨a, s', log, rfl, h⟩

theorem bind_ask (f : Session → α) (g : α → Work β) (s : Session) :
    (Work.ask f >>= g) s = g (f s) s := rfl

end

/-- In the session the task sends statements with the property only. -/
def Sends (P : Statement → Prop) (t : Work α) (s : Session) : Prop :=
  s.pool.network.Sent P (t s).session.pool.network

section

variable {P : Statement → Prop} {s : Session} {α β : Type}

/-- Work that leaves the network alone sends nothing. -/
theorem Sends.of_same {t : Work α} (h : (t s).session.pool.network = s.pool.network) :
    t.Sends P s := by
  unfold Sends
  rw [h]
  exact .refl _

theorem Sends.pure (a : α) : (Pure.pure a : Work α).Sends P s := .of_same rfl

theorem Sends.fail (e : Error) : (Work.fail e : Work α).Sends P s := .of_same rfl

theorem Sends.done (outcome : Except Error α) : (Work.done outcome).Sends P s := .of_same rfl

theorem Sends.told (outcome : Except Error α) (log : Log) :
    (Work.told outcome log).Sends P s := .of_same rfl

theorem Sends.mapping (e : EntityType) : (Work.mapping e).Sends P s := .of_same rfl

/-- One task and then another, which starts where the first one ended. -/
theorem Sends.bind {t : Work α} {f : α → Work β} (ht : t.Sends P s)
    (hf : ∀ a s' log, t s = ⟨.ok a, s', log⟩ → (f a).Sends P s') : (t >>= f).Sends P s := by
  show s.pool.network.Sent P (Work.andThen t f s).session.pool.network
  unfold Work.andThen
  unfold Sends at ht
  split
  · rename_i e s' log hfirst
    rw [hfirst] at ht
    exact ht
  · rename_i a s' log hfirst
    rw [hfirst] at ht
    exact ht.trans (hf a s' log hfirst)

/-- A question to the session changes nothing. -/
theorem Sends.bindAsk {f : Session → α} {g : α → Work β} (h : (g (f s)).Sends P s) :
    (Work.ask f >>= g).Sends P s := by
  refine .bind (.of_same rfl) fun a s' log hasked => ?_
  cases hasked
  exact h

/-- What is told changes nothing. -/
theorem Sends.bindTold {outcome : Except Error α} {log : Log} {g : α → Work β}
    (h : ∀ a, outcome = .ok a → (g a).Sends P s) : (Work.told outcome log >>= g).Sends P s := by
  refine .bind (.of_same rfl) fun a s' log' htold => ?_
  cases htold
  exact h a rfl

/-- A statement that was built is not sent yet. -/
theorem Sends.bindBuilt {b : Except Error Built} {g : Statement → Work β}
    (h : ∀ x, b = .ok x → (g x.statement).Sends P s) : (Work.built b >>= g).Sends P s := by
  cases b with
  | error e => exact .bind (.fail e) fun _ _ _ hfailed => by cases hfailed
  | ok x =>
    refine .bindTold fun statement hstatement => ?_
    cases hstatement
    exact h x rfl

/-- What is reported sends nothing more. -/
theorem Sends.reporting {t : Work α} (ht : t.Sends P s) : (Work.reporting t).Sends P s := by
  unfold Sends Work.reporting at *
  split
  · rename_i e s' log hfirst
    rw [hfirst] at ht
    exact ht
  · exact ht

/-- Work with a lease, in whatever state the pool is once the lease is there. -/
theorem Sends.leased {url : ConnectionString} {work : Lease → Work α}
    (hwork : ∀ lease pool, (work lease).Sends P { s with pool }) :
    (Work.leased url work).Sends P s := by
  unfold Sends Work.leased
  have hacquired : s.pool.network.Sent P (s.pool.acquire s.thread url).pool.network :=
    Pool.sent_acquire s.pool s.thread url
  split
  · rename_i failure pool log hfailed
    rw [hfailed] at hacquired
    exact hacquired
  · -- giving the lease back keeps the network that the work left
    rename_i lease pool log hlease
    rw [hlease] at hacquired
    exact hacquired.trans (hwork lease pool)

/-- Over a lease, the statement is sent that is run. -/
theorem Sends.run (lease : Lease) {st : Statement} (hst : P st) :
    (Work.run lease st).Sends P s :=
  Network.Sent.run lease.connection hst

theorem Sends.execute (lease : Lease) {st : Statement} (hst : P st) :
    (Work.execute lease st).Sends P s :=
  .bind (.run lease hst) fun _ _ _ _ => .done _

/-- A row is read back with the statement that is given. -/
theorem Sends.readBack (url : ConnectionString) {st : Statement} (hst : P st) :
    (Work.readBack url st).Sends P s := by
  refine .leased fun lease pool => .bind (.run lease hst) fun results s' log _ => ?_
  split
  · exact .fail _
  · exact .pure _

/-- What a request for a mapping answers, and the session after it. -/
theorem mapping_eq_ok {e : EntityType} {m : TypeMapping} {s s' : Session} {log : Log}
    (h : Work.mapping e s = ⟨.ok m, s', log⟩) :
    s.registry.lookup s.model.schema e = .ok m
      ∧ s' = { s with registry := (s.registry.request s.model.schema e).registry } := by
  unfold Work.mapping at h
  simp only [Reply.mk.injEq] at h
  obtain ⟨houtcome, hsession, -⟩ := h
  refine ⟨?_, hsession.symm⟩
  unfold Registry.lookup
  cases hx : (s.registry.request s.model.schema e).outcome with
  | error cause =>
    rw [hx] at houtcome
    cases houtcome
  | ok x =>
    rw [hx] at houtcome
    cases houtcome
    rfl

end

end Work

end RowMapper
