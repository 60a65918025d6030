import RowMapper.Error
import RowMapper.Lease.Pool
import RowMapper.Mapping.Registry
import RowMapper.Model
import RowMapper.Statement.Selection

/-!
# Sessions

What the collections of a program share: the model, the registry of mappings, the dialect,
the keys to come, and the pool of connections. A task runs in a session; whether it succeeds or
fails, it leaves a session behind and tells what it did.
-/

namespace RowMapper

/-- The state that collections share. -/
structure Session where
  model : Model
  registry : Registry
  dialect : Dialect
  supply : KeySupply
  pool : Pool
  /-- The thread that the tasks run on. -/
  thread : ThreadId := 0

namespace Session

/-- The number of references to the connection of a database. -/
def references (s : Session) (url : ConnectionString) : Nat :=
  s.pool.manager.references (s.pool.manager.keyOf s.thread url)

/-- The mappings that expressions are compiled under. -/
def mappings (s : Session) : Mappings := s.registry.lookup s.model.schema

end Session

/-- The end of a task: its outcome, the session after it, and what it told. -/
structure Reply (α : Type) where
  outcome : Except Error α
  session : Session
  log : Log := []

/-- Work in a session. -/
def Work (α : Type) := Session → Reply α

namespace Work

/-- One task, and then another with its result unless it failed. -/
def andThen (t : Work α) (f : α → Work β) : Work β := fun s =>
  match t s with
  | ⟨.error e, s, log⟩ => ⟨.error e, s, log⟩
  | ⟨.ok a, s, log⟩ =>
    let last := f a s
    { last with log := log ++ last.log }

instance : Monad Work where
  pure a := fun s => ⟨.ok a, s, []⟩
  bind := andThen

/-- Fails. -/
def fail (e : Error) : Work α := fun s => ⟨.error e, s, []⟩

/-- Goes on with an outcome. -/
def done (outcome : Except Error α) : Work α := fun s => ⟨outcome, s, []⟩

/-- Goes on with an outcome, and tells something. -/
def told (outcome : Except Error α) (log : Log) : Work α := fun s => ⟨outcome, s, log⟩

/-- What the session has. -/
def ask (f : Session → α) : Work α := fun s => ⟨.ok (f s), s, []⟩

/-- Tells a failure of the task, whatever it was. -/
def reporting (t : Work α) : Work α := fun s =>
  match t s with
  | ⟨.error e, s, log⟩ => ⟨.error e, s, log ++ [.error e.message]⟩
  | reply => reply

/-- The statement that was built. -/
def built (b : Except Error Built) : Work Statement :=
  match b with
  | .error e => fail e
  | .ok b => told (.ok b.statement) b.log

/-- The mapping of an entity type. -/
def mapping (e : EntityType) : Work TypeMapping := fun s =>
  let answer := s.registry.request s.model.schema e
  ⟨(answer.outcome.map (·.mapping)).mapError .mapping, { s with registry := answer.registry },
    answer.log⟩

/-- Works with a lease, which is given back however the work ends. -/
def leased (url : ConnectionString) (work : Lease → Work α) : Work α := fun s =>
  match s.pool.acquire s.thread url with
  | ⟨.error failure, pool, log⟩ => ⟨.error (.connection failure), { s with pool }, log⟩
  | ⟨.ok lease, pool, log⟩ =>
    let reply := work lease { s with pool }
    let (pool, released) := reply.session.pool.release lease
    ⟨reply.outcome, { reply.session with pool }, log ++ reply.log ++ released⟩

/-- Runs a statement. -/
def run (lease : Lease) (statement : Statement) : Work Results := fun s =>
  let (results, pool, log) := s.pool.run lease statement
  ⟨.ok results, { s with pool }, log⟩

/-- Runs a statement for the counts of its results. -/
def execute (lease : Lease) (statement : Statement) : Work Affected := do
  let results ← run lease statement
  done (results.execute.mapError .server)

/-- The first row that a statement yields; those before it in a batch may yield none. -/
def readBack (url : ConnectionString) (statement : Statement) : Work (Option Row) :=
  leased url fun lease => do
    let results ← run lease statement
    match ({ ahead := results } : Cursor).next with
    | (.error message, _) => fail (.server message)
    | (.ok _, cursor) => return cursor.current

end Work

end RowMapper
