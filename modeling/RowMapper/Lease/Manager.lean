import RowMapper.ConnectionString
import RowMapper.Lease.Config
import RowMapper.Log
import RowMapper.Server
import RowMapper.Text.Escaped

/-!
# Lease managers

A lease manager keeps one entry for each database and thread: the open connection, and how many
leases refer to it. An entry whose count drops to zero is closed after the grace period, unless
it is acquired again before. A sweep takes the references from the leases of ended threads;
those leases belong to an older generation of the entry from then on and change nothing when
they are dropped.

The manager is a state with a clock. Closings wait in a queue: since every grace period is of
the same length, the queue is in order of time.
-/

namespace RowMapper

/-- A thread, by its number; numbers are not used again. -/
abbrev ThreadId := Nat

/-- What an entry is found by: the database, and the thread unless all threads share. -/
structure LeaseKey where
  database : String
  thread : Option ThreadId
  deriving Repr, DecidableEq

/-- A connection and its references. -/
structure LeaseEntry where
  key : LeaseKey
  url : ConnectionString
  /-- Nothing until the first connect succeeds. -/
  connection : Option Connection := none
  references : Nat := 0
  /-- When the count dropped to zero. -/
  releasedAt : Option Nat := none
  /-- How often a sweep took the references away. -/
  generation : Nat := 0
  deriving Repr, DecidableEq

/-- A reference to the connection of an entry. -/
structure Lease where
  key : LeaseKey
  generation : Nat
  connection : Connection
  deriving Repr, DecidableEq

/-- An entry that is to be closed at a time. -/
structure Closing where
  key : LeaseKey
  due : Nat
  deriving Repr, DecidableEq

/-- The state of a lease manager. -/
structure LeaseManager where
  config : LeaseConfig
  /-- Closings and sweeps run in the background. -/
  hasRuntime : Bool := true
  now : Nat := 0
  entries : List LeaseEntry := []
  /-- The entries to close, in order of time. -/
  closings : List Closing := []
  /-- When the background sweep was started. -/
  sweepingSince : Option Nat := none
  ended : List ThreadId := []
  deriving Repr, DecidableEq

namespace LeaseManager

/-- What the thread finds the entry of a database by. -/
def keyOf (m : LeaseManager) (thread : ThreadId) (url : ConnectionString) : LeaseKey :=
  ⟨url.key, if m.config.threadAffine then some thread else none⟩

/-- The entry of a key. -/
def find? (m : LeaseManager) (key : LeaseKey) : Option LeaseEntry :=
  m.entries.find? (·.key == key)

/-- The number of entries. -/
def size (m : LeaseManager) : Nat := m.entries.length

/-- The number of references to the entry of a key. -/
def references (m : LeaseManager) (key : LeaseKey) : Nat :=
  ((m.find? key).map (·.references)).getD 0

/-- The connection of the entry is open. -/
def isOpen (m : LeaseManager) (key : LeaseKey) : Bool :=
  (m.find? key).any (·.connection.isSome)

/-- When the references to the entry dropped to zero. -/
def releasedAt (m : LeaseManager) (key : LeaseKey) : Option Nat :=
  (m.find? key).bind (·.releasedAt)

/-- Puts an entry in the place of the former one of its key, or behind the others. -/
def put (m : LeaseManager) (e : LeaseEntry) : LeaseManager :=
  if (m.find? e.key).isSome then
    { m with entries := m.entries.map fun old => if old.key == e.key then e else old }
  else { m with entries := m.entries ++ [e] }

/-- Takes the entry of a key out. -/
def remove (m : LeaseManager) (key : LeaseKey) : LeaseManager :=
  { m with entries := m.entries.filter (·.key != key) }

/-- The entry of the key is to be closed. -/
def isClosing (m : LeaseManager) (key : LeaseKey) : Bool := m.closings.any (·.key == key)

/-- The entry of the key is not to be closed any more. -/
def cancel (m : LeaseManager) (key : LeaseKey) : LeaseManager :=
  { m with closings := m.closings.filter (·.key != key) }

/-- Starts the background sweep when it is needed and not yet running. -/
def startSweeping (m : LeaseManager) : LeaseManager :=
  if m.config.threadAffine && m.hasRuntime && m.sweepingSince.isNone then
    { m with sweepingSince := some m.now }
  else m

/-- Has an entry without references closed after the grace period. -/
def schedule (m : LeaseManager) (e : LeaseEntry) : LeaseManager × Log :=
  let m := m.put { e with references := 0, releasedAt := some m.now }
  if m.hasRuntime then
    let m := m.cancel e.key
    ({ m with closings := m.closings ++ [⟨e.key, m.now + m.config.grace⟩] }, [])
  else
    (m, [.warn ("No async runtime available, " ++ e.url.redacted
      ++ " stays open until the manager is dropped")])

/-- Adds a reference to the entry of a key, which is made if there is none. An entry that never
had a connection takes over the connection string. -/
def enter (m : LeaseManager) (key : LeaseKey) (url : ConnectionString) :
    LeaseEntry × LeaseManager × Log :=
  let e := (m.find? key).getD { key, url }
  let log : Log :=
    if m.isClosing key then [.debug ("Reusing " ++ e.url.redacted ++ " within its grace period")]
    else []
  let e := if e.references = 0 ∧ e.connection.isNone then { e with url } else e
  let e := { e with references := e.references + 1, releasedAt := none }
  (e, (m.cancel key).put e, log)

/-- Gives a reference of a generation back. -/
def leave (m : LeaseManager) (key : LeaseKey) (generation : Nat) : LeaseManager × Log :=
  match m.find? key with
  | none => (m, [])
  | some e =>
    if e.generation ≠ generation then (m, [])
    else if e.references ≤ 1 then m.schedule e
    else (m.put { e with references := e.references - 1 }, [])

/-- The thread of the entry has ended. -/
def isOrphan (m : LeaseManager) (e : LeaseEntry) : Bool := e.key.thread.any (m.ended.contains ·)

/-- Takes the references from one entry. -/
def sweepEntry (m : LeaseManager) (e : LeaseEntry) : LeaseManager × Log :=
  let (m, log) := m.schedule { e with generation := e.generation + 1 }
  (m, .debug ("Sweeping " ++ toString e.references ++ " leases of " ++ e.url.redacted
    ++ " held by an exited thread") :: log)

/-- Takes the references from the entries of ended threads; their number comes with it. -/
def sweep (m : LeaseManager) : Nat × LeaseManager × Log :=
  let swept := m.entries.filter fun e => m.isOrphan e && 0 < e.references
  let (m, log) := swept.foldl (fun (m, log) e =>
    let (m, more) := m.sweepEntry e
    (m, log ++ more)) (m, [])
  (swept.length, m, log)

/-- Ends a thread. -/
def endThread (m : LeaseManager) (thread : ThreadId) : LeaseManager :=
  { m with ended := thread :: m.ended }

/-- The number of background sweeps up to now. -/
def sweepsUntil (m : LeaseManager) (time : Nat) : Nat :=
  match m.sweepingSince with
  | none => 0
  | some start => (time - start) / m.config.sweep

/-- What is shown of the manager. -/
def inspect (m : LeaseManager) : String :=
  "LeaseManager \x7b config: " ++ m.config.inspect ++ ", entries: " ++ toString m.size ++ " \x7d"

end LeaseManager

/-- What is shown of a lease. -/
def Lease.inspect (l : Lease) : String :=
  "Lease \x7b key: " ++ Text.quoted l.key.database ++ " \x7d"

end RowMapper
