import RowMapper.Collection.Command
import RowMapper.Collection.Query
import RowMapper.Session

/-!
# Collections

A collection is the rows of one entity type in one database, as instances. Instances are
inserted, updated, deleted and reloaded; queries yield new instances. Every operation takes a
lease for as long as it needs the connection, and what it builds is built before that.

An instance takes over the row that was read back after a command. A row that does not fit
leaves the columns loaded that come before the faulty one.
-/

namespace RowMapper

/-- The rows of an entity type in a database. -/
structure Collection where
  entity : EntityType
  url : ConnectionString
  deriving Repr, DecidableEq

/-- The end of a task that changes an instance, with the properties that were notified of it. -/
structure Written (α : Type) extends Reply α where
  target : Instance
  notified : List String := []

/-- An item of a stream of instances, and the number of references to the connection while it is
looked at. -/
structure Streamed where
  item : Except Error Instance
  references : Nat

/-- A stream of instances that has ended or is not wanted any more. -/
structure InstanceStream where
  items : List Streamed
  session : Session
  log : Log

namespace Collection

/-- The name of the driver, which is the scheme of its connection strings. -/
def driver : String := Server.scheme

/-- The collection of an entity type in the database of a connection string. -/
def ofUrl (entity : EntityType) (url : String) : Except Error Collection :=
  match ConnectionString.readFor driver url with
  | .ok url => .ok ⟨entity, url⟩
  | .error cause => .error (.connectionString cause)

/-- The mapping of the entity type. -/
def mapping (c : Collection) : Work TypeMapping := Work.mapping c.entity

/-! ### Rows of instances -/

/-- A row that was read back, and the mapping to load it by. -/
structure Fetched where
  mapping : TypeMapping
  row : Row

/-- Inserts the row of an instance and reads it back. -/
def insertRow (c : Collection) (i : Instance) : Work Fetched := do
  let m ← c.mapping
  let statement ← insertion m
  match ← Work.readBack c.url statement with
  | some row => return ⟨m, row⟩
  | none => Work.fail (.collection (.notInserted m.table))
where
  /-- The statement; the keys made for it are used up. -/
  insertion (m : TypeMapping) : Work Statement := fun s =>
    let (built, supply) := i.insertion m s.dialect s.supply
    Work.built built { s with supply }

/-- Updates the row of an instance and reads it back, unless there is nothing to write. -/
def updateRow (c : Collection) (i : Instance) : Work (Option Fetched) := do
  let m ← c.mapping
  match ← Work.ask fun s => i.modification m s.dialect with
  | .error e => Work.fail e
  | .ok none =>
    Work.told (.ok none) [.debug ("No change to write for " ++ m.entity.name)]
  | .ok (some built) =>
    let statement ← Work.built (.ok built)
    match ← Work.readBack c.url statement with
    | some row => return some ⟨m, row⟩
    | none => Work.fail (.collection (.notFound m.table))

/-- Reads the row of an instance, if it is still there. -/
def readRow (c : Collection) (i : Instance) : Work (Option Fetched) := do
  let m ← c.mapping
  match i.storedKeys m with
  | .error cause => Work.fail (.collection cause)
  | .ok keys =>
    let statement ← Work.built (← Work.ask fun s =>
      (Query.byKeys c.entity keys).statement m s.dialect s.mappings)
    return (← Work.readBack c.url statement).map (⟨m, ·⟩)

/-- Has an instance take over the row that a task fetches, if it fetches one. -/
def taking (fetch : Work (Option Fetched)) (commit : Bool) (i : Instance) (s : Session) :
    Written Bool :=
  let declaration := s.model.schema.declaration i.entity
  match fetch s with
  | ⟨.error e, s, log⟩ => { outcome := .error e, session := s, log, target := i }
  | ⟨.ok none, s, log⟩ => { outcome := .ok false, session := s, log, target := i }
  | ⟨.ok (some fetched), s, log⟩ =>
    let start := if commit then (i.commitAll declaration).1 else i
    let loaded := start.load fetched.mapping fetched.row
    { outcome := loaded.outcome.map fun _ => true
      session := s
      log := log ++ loaded.log
      target := loaded.target
      notified := if commit then i.notices declaration else [] }

end Collection

/-- Tells a failure, whatever it was. -/
def Written.reported (w : Written α) : Written α :=
  match w.outcome with
  | .error e => { w with log := w.log ++ [.error e.message] }
  | .ok _ => w

namespace Collection

/-- Inserts an instance, which takes over the row read back with all keys made for it. -/
def insert (c : Collection) (i : Instance) (s : Session) : Written Unit :=
  let w := (taking (some <$> c.insertRow i) true i s).reported
  { w with outcome := w.outcome.map fun _ => () }

/-- Writes the changed members of an instance; tells whether there were any. -/
def update (c : Collection) (i : Instance) (s : Session) : Written Bool :=
  (taking (c.updateRow i) true i s).reported

/-- Reads all columns of an instance again; tells whether its row is still there. -/
def reload (c : Collection) (i : Instance) (s : Session) : Written Bool :=
  (taking (c.readRow i) false i s).reported

/-- Deletes the rows of the reference lists one after the other, up to the first failure. -/
def deleteLists (lease : Lease) : List Instance.ListDeletion → Work Unit
  | [] => pure ()
  | l :: rest => do
    let affected ← Work.execute lease l.statement
    Work.told (.ok ()) [.debug ("Cascade delete of `" ++ l.list ++ "` removed "
      ++ toString affected.rows ++ " rows")]
    deleteLists lease rest

/-- Deletes the row of an instance, after those that refer to it by a cascading reference
list. -/
def delete (c : Collection) (i : Instance) : Work Affected :=
  Work.reporting do
    let m ← c.mapping
    let (outcome, log) ← Work.ask fun s => i.removal m s.dialect
    let removal ← Work.told outcome log
    Work.leased c.url fun lease => do
      deleteLists lease removal.cascades
      Work.execute lease removal.own

/-! ### Queries -/

/-- The statement of a query. -/
def statement (c : Collection) (q : Query) : Work Statement := do
  let m ← c.mapping
  Work.built (← Work.ask fun s => q.statement m s.dialect s.mappings)

/-- The instances of the rows in order, up to the first failure. -/
def instances (blank : Instance) (m : TypeMapping) :
    List (Except String Row) → List (Except Error Instance) × Log
  | [] => ([], [])
  | .error message :: _ => ([.error (.server message)], [])
  | .ok row :: rest =>
    let loaded := blank.load m row
    match loaded.outcome with
    | .error e => ([.error e], loaded.log)
    | .ok () =>
      let (items, log) := instances blank m rest
      (.ok loaded.target :: items, loaded.log ++ log)

/-- The items of a query with those rows of its results that are wanted. -/
def items (c : Collection) (q : Query)
    (wanted : List (Except String Row) → List (Except String Row)) : Work (List Streamed) := do
  let statement ← c.statement q
  let m ← c.mapping
  Work.leased c.url fun lease => do
    let results ← Work.run lease statement
    let blank ← Work.ask (·.model.newInstance c.entity)
    let references ← Work.ask (·.references c.url)
    let (items, log) := instances blank m (wanted results.rows)
    Work.told (.ok (items.map (⟨·, references⟩))) log

/-- The first items of a query, as they arrive. Nothing runs before the first one is wanted; a
failure before there is a connection is an item too. -/
def stream (c : Collection) (q : Query) (count : Nat) (s : Session) : InstanceStream :=
  if count = 0 then ⟨[], s, []⟩
  else
    match c.items q (·.take count) s with
    | ⟨.ok items, s, log⟩ => ⟨items, s, log⟩
    | ⟨.error e, s, log⟩ => ⟨[⟨.error e, s.references c.url⟩], s, log⟩

/-- All instances that a query asks for, or the first failure. -/
def fetchAll (c : Collection) (q : Query) : Work (List Instance) :=
  Work.reporting do
    let items ← c.items q id
    Work.done (items.mapM (·.item))

/-- The first instance that a query asks for, if there is one. -/
def fetchOne (c : Collection) (q : Query) : Work (Option Instance) :=
  Work.reporting do
    match ← c.items { q with limit := some 1 } (·.take 1) with
    | [] => return none
    | first :: _ => Work.done (first.item.map some)

/-- All instances that meet a condition. -/
def find (c : Collection) (condition : Expr) : Work (List Instance) :=
  c.fetchAll { filters := [condition] }

/-- The first instance that meets a condition. -/
def findOne (c : Collection) (condition : Expr) : Work (Option Instance) :=
  c.fetchOne { filters := [condition] }

end Collection

end RowMapper
