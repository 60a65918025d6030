import RowMapper.Lease.Pool

/-!
# Tenants of a pool

What threads do with a pool of connections over time. Leases are known by names, as are the
threads apart from the main thread: a thread starts when it is first needed, and another one of
that name starts after it has ended. A connection may be kept apart from its lease.
-/

namespace RowMapper

/-- A pool and those who use it. -/
structure Tenancy where
  pool : Pool
  /-- The live leases, in the order of their names. -/
  leases : List (String × Lease) := []
  /-- The connections kept apart from leases, under the name of the lease. -/
  kept : List (String × Connection) := []
  /-- The running threads apart from the main thread. -/
  threads : List (String × ThreadId) := []
  /-- The number of threads started so far. -/
  started : Nat := 0

namespace Tenancy

/-- Adds a lease in the order of names. -/
def insertLease (name : String) (lease : Lease) :
    List (String × Lease) → List (String × Lease)
  | [] => [(name, lease)]
  | head :: rest =>
    if name < head.1 then (name, lease) :: head :: rest else head :: insertLease name lease rest

/-- The lease of a name. -/
def lease? (t : Tenancy) (name : String) : Option Lease := t.leases.lookup name

/-- The thread of a name; the main thread has none. -/
def thread (t : Tenancy) (name : Option String) : ThreadId × Tenancy :=
  match name with
  | none => (0, t)
  | some name =>
    match t.threads.lookup name with
    | some id => (id, t)
    | none =>
      let id := t.started + 1
      (id, { t with threads := (name, id) :: t.threads, started := id })

/-- Ends the thread of a name. -/
def exit (t : Tenancy) (name : String) : Tenancy :=
  let (id, t) := t.thread (some name)
  { t with
    pool := { t.pool with manager := t.pool.manager.endThread id }
    threads := t.threads.filter (·.1 != name) }

/-- Gives the lease of a name back. -/
def release (t : Tenancy) (name : String) : Tenancy × Log :=
  match t.lease? name with
  | none => (t, [])
  | some lease =>
    let (pool, log) := t.pool.release lease
    ({ t with pool, leases := t.leases.filter (·.1 != name) }, log)

/-- Has a thread acquire a lease under a name; the former lease of the name is given back then. -/
def acquire (t : Tenancy) (thread : Option String) (name : String) (url : ConnectionString) :
    Except ConnectionFailure Lease × Tenancy × Log :=
  let (thread, t) := t.thread thread
  match t.pool.acquire thread url with
  | ⟨.error cause, pool, log⟩ => (.error cause, { t with pool }, log)
  | ⟨.ok lease, pool, log⟩ =>
    let (t, released) := { t with pool }.release name
    (.ok lease, { t with leases := insertLease name lease t.leases }, log ++ released)

/-- The names of the live leases on a connection. -/
def sharing (t : Tenancy) (c : Connection) : List String :=
  (t.leases.filter (·.2.connection == c)).map (·.1)

/-- Lets go of the connection kept under a name. -/
def letGo (t : Tenancy) (name : String) : Tenancy :=
  match t.kept.lookup name with
  | none => t
  | some c => { t with pool := t.pool.unhold c, kept := t.kept.filter (·.1 != name) }

/-- Keeps the connection of the lease of a name. -/
def keep (t : Tenancy) (name : String) : Tenancy :=
  match t.lease? name with
  | none => t
  | some lease =>
    let t := { t with pool := t.pool.hold lease.connection }.letGo name
    { t with kept := (name, lease.connection) :: t.kept }

end Tenancy

end RowMapper
