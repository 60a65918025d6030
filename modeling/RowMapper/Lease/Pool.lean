import RowMapper.Lease.Manager

/-!
# Pools of connections

A lease manager at work on a network. Acquiring a lease opens a connection if there is none;
as time passes, due entries are closed and background sweeps run. A connection that somebody
still uses when its entry is due is dropped without being closed.
-/

namespace RowMapper

/-- A connection could not be opened. -/
structure ConnectionFailure where
  url : String
  cause : ConnectError
  deriving Repr, DecidableEq

/-- The message of the failure. -/
def ConnectionFailure.message (f : ConnectionFailure) : String :=
  "Could not open a connection to " ++ f.url ++ ": " ++ f.cause.message

/-- What is told of the failure. -/
def ConnectionFailure.record (f : ConnectionFailure) : LogRecord :=
  .error ("Connection error: " ++ f.message)

/-- A lease manager, its network, and the connections in use, once for each use. -/
structure Pool where
  manager : LeaseManager
  network : Network
  inUse : List Connection := []
  deriving DecidableEq

namespace Pool

/-- What became of an acquire. -/
structure Acquired where
  outcome : Except ConnectionFailure Lease
  pool : Pool
  log : Log

/-- Acquires a lease for a thread. The reference that a failed connect leaves behind is given
back, so that the entry is closed after the grace period. -/
def acquire (p : Pool) (thread : ThreadId) (url : ConnectionString) : Acquired :=
  let manager := p.manager.startSweeping
  let key := manager.keyOf thread url
  let (entry, manager, log) := manager.enter key url
  match entry.connection with
  | some connection =>
    ⟨.ok ⟨key, entry.generation, connection⟩,
      { p with manager, inUse := connection :: p.inUse }, log⟩
  | none =>
    let log := log ++ [.debug ("Opening connection to " ++ entry.url.redacted)]
    match p.network.connect entry.url with
    | (.ok connection, network) =>
      ⟨.ok ⟨key, entry.generation, connection⟩,
        { manager := manager.put { entry with connection := some connection }
          network
          inUse := connection :: p.inUse }, log⟩
    | (.error cause, network) =>
      let failure : ConnectionFailure := ⟨entry.url.redacted, cause⟩
      let (manager, more) := manager.leave key entry.generation
      ⟨.error failure, { p with manager, network }, log ++ [failure.record] ++ more⟩

/-- Uses the connection once more, apart from any lease. -/
def hold (p : Pool) (connection : Connection) : Pool :=
  { p with inUse := connection :: p.inUse }

/-- Ends one use of the connection. -/
def unhold (p : Pool) (connection : Connection) : Pool :=
  { p with inUse := p.inUse.erase connection }

/-- Gives a lease back. -/
def release (p : Pool) (lease : Lease) : Pool × Log :=
  let p := p.unhold lease.connection
  let (manager, log) := p.manager.leave lease.key lease.generation
  ({ p with manager }, log)

/-- Runs a statement over the connection of a lease. -/
def run (p : Pool) (lease : Lease) (statement : Statement) : Results × Pool × Log :=
  let (results, network, log) := p.network.run lease.connection statement
  (results, { p with network }, log)

/-- Takes the references from the leases of ended threads. -/
def sweep (p : Pool) : Nat × Pool × Log :=
  let (count, manager, log) := p.manager.sweep
  (count, { p with manager }, log)

/-- Closes the connection of an entry that was taken out. -/
def closeEntry (p : Pool) (e : LeaseEntry) : Pool × Log :=
  match e.connection with
  | none => (p, [])
  | some connection =>
    if p.inUse.contains connection then
      (p, [.warn ("Connection to " ++ e.url.redacted
        ++ " is still referenced, dropping it without closing")])
    else
      let (closed, network) := p.network.disconnect connection
      ({ p with network },
        if closed then [.debug ("Closed connection to " ++ e.url.redacted)]
        else [.error ("While closing the connection to " ++ e.url.redacted
          ++ ": disconnect refused")])

/-- Takes an entry out and closes it, unless it is referenced again. -/
def close (p : Pool) (key : LeaseKey) : Pool × Log :=
  let p := { p with manager := p.manager.cancel key }
  match p.manager.find? key with
  | none => (p, [])
  | some e =>
    if e.references ≠ 0 then (p, [])
    else { p with manager := p.manager.remove key }.closeEntry e

/-- Closes the entries of a queue, the first ones first. -/
def closeAll (p : Pool) : List Closing → Pool × Log
  | [] => (p, [])
  | c :: rest =>
    let (p, log) := p.close c.key
    let (p, more) := p.closeAll rest
    (p, log ++ more)

/-- Lets the time come, and closes what is due by then. -/
def closeDue (p : Pool) (time : Nat) : Pool × Log :=
  let due := p.manager.closings.takeWhile (·.due ≤ time)
  let (p, log) := p.closeAll due
  ({ p with manager := { p.manager with now := time } }, log)

/-- Lets the time of a background sweep come. What is due at the same time goes first if it was
scheduled before the last sweep, which is when the grace period is longer than the period of
sweeps; otherwise it comes behind. -/
def sweepAt (p : Pool) (time : Nat) : Pool × Log :=
  let config := p.manager.config
  let (p, early) := p.closeDue (if config.sweep < config.grace then time else time - 1)
  let (_, p, swept) := { p with manager := { p.manager with now := time } }.sweep
  let (p, late) := p.closeDue time
  (p, early ++ swept ++ late)

/-- Runs the next background sweeps, each at its time, which is the given one plus a period. -/
def sweepOn (p : Pool) (time : Nat) : Nat → Pool × Log
  | 0 => (p, [])
  | count + 1 =>
    let time := time + p.manager.config.sweep
    let (p, log) := p.sweepAt time
    let (p, more) := p.sweepOn time count
    (p, log ++ more)

/-- Lets time pass: closings and background sweeps come in order of time. -/
def sleep (p : Pool) (milliseconds : Nat) : Pool × Log :=
  let start := p.manager.now
  let stop := start + milliseconds
  let before := p.manager.sweepsUntil start
  let (p, swept) := p.sweepOn ((p.manager.sweepingSince.getD 0) + before * p.manager.config.sweep)
    (p.manager.sweepsUntil stop - before)
  let (p, closed) := p.closeDue stop
  (p, swept ++ closed)

end Pool

end RowMapper
