import AgenticPkm.Dispatcher.System

/-!
# Cleanup guards

A cleanup reserves a task with a guard, so that no agent claims the task meanwhile.  The guard is
kept twice: as a row of the metadata table, when there is a database, and as a sidecar file.  The
three guard operations and `claim` hold one file lock while they run; but each is more than one
write, a process may die between two of them, and the lock then goes to the next.

One step is one database transaction, one sidecar write, or the reading of the clock and the
sidecar that comes before; an operation returns with its last write.  A sidecar is found by a
digest of the task identifier, about which nothing is assumed: a record of another task is refused
when it is read.
-/

namespace AgenticPkm.Dispatcher

/-- What `release_cleanup_guard` and `refresh_cleanup_guard` compare. -/
structure GuardId where
  taskId : String
  owner : String
  token : String
  deriving DecidableEq, Repr

structure CleanupGuard where
  taskId : String
  owner : String
  token : String
  expiresAt : ℤ
  deriving DecidableEq, Repr

def CleanupGuard.id (guard : CleanupGuard) : GuardId := ⟨guard.taskId, guard.owner, guard.token⟩

/-- The guard of an identity that expires at a time. -/
def GuardId.guard (id : GuardId) (expiresAt : ℤ) : CleanupGuard :=
  ⟨id.taskId, id.owner, id.token, expiresAt⟩

/-! ### Reading a guard -/

def validatedCleanupGuard (guard : CleanupGuard) (taskId : String) : Except String Unit :=
  raiseIf (guard.taskId != taskId || guard.owner == "" || guard.token == "")
    s!"Cleanup guard for task {taskId} is malformed"

/-- Reads the guard of a task among the records: the active guard, and the records
without a guard that has expired. -/
def readGuardRecord (records : Dict String CleanupGuard) (key taskId : String) (now : ℤ) :
    Except String (Option CleanupGuard × Dict String CleanupGuard) :=
  match records.get? key with
  | none => pure (none, records)
  | some guard => do
      validatedCleanupGuard guard taskId
      pure (if guard.expiresAt ≤ now then (none, records.erase key) else (some guard, records))

/-- `_read_cleanup_guard`; the key of the row is the task identifier after a fixed text. -/
def readCleanupGuard (guards : Dict String CleanupGuard) (taskId : String) (now : ℤ) :
    Except String (Option CleanupGuard × Dict String CleanupGuard) :=
  readGuardRecord guards taskId taskId now

def readCleanupGuardFile (digest : String → String) (files : Dict String CleanupGuard)
    (taskId : String) (now : ℤ) :
    Except String (Option CleanupGuard × Dict String CleanupGuard) :=
  readGuardRecord files (digest taskId) taskId now

/-! ### The database -/

/-- The tables of the store, and the guard rows of `dispatcher_meta`. -/
structure Tables where
  store : Store := {}
  guards : Dict String CleanupGuard := ∅

/-- A database is a file; it may have been created without its tables. -/
inductive Database
  | absent
  | blank
  | tables (tables : Tables)

namespace Database

/-- `db_path.exists()`. -/
def exists? : Database → Bool
  | absent => false
  | _ => true

/-- The database after `_connect`, which creates the file. -/
def connected : Database → Database
  | absent => blank
  | database => database

/-- The database after `initialize`, which creates the tables that are missing. -/
def initialised : Database → Database
  | tables t => tables t
  | _ => tables {}

/-- The tables that a query reads. -/
def openTables (table : String) : Database → Except String Tables
  | tables t => .ok t
  | _ => .error s!"no such table: {table}"

end Database

/-! ### Operations -/

inductive GuardRequest
  | acquire (taskId owner token : String) (ttlSeconds : ℤ)
  | refresh (id : GuardId) (ttlSeconds : ℤ)
  | release (id : GuardId)
  | claim (request : ClaimRequest)
  deriving DecidableEq, Repr

/-- The operation that holds the lock, with what it has read. -/
inductive GuardOperation
  /-- The clock and the sidecar were read. -/
  | acquireRead (guard : CleanupGuard) (now : ℤ) (fileExisting : Option CleanupGuard)
  /-- The row was written, if there is a database; the sidecar is to come. -/
  | acquireWrite (guard : CleanupGuard)
  | refreshRead (id : GuardId) (ttlSeconds now : ℤ) (fileGuard : Option CleanupGuard)
  | refreshWrite (refreshed : CleanupGuard)
  | releaseRead (id : GuardId) (now : ℤ) (fileGuard : Option CleanupGuard)
  | releaseRemove (id : GuardId)
  /-- The write transaction is open; the clock, the task and both guards were read. -/
  | claimCommit (request : ClaimRequest) (now : ℤ) (fileGuard : Option CleanupGuard)
  deriving DecidableEq, Repr

/-- What an operation that returned has reported. -/
inductive Report
  | acquired (guard : CleanupGuard)
  | refreshed (guard : CleanupGuard)
  | released (id : GuardId)
  | claimed (taskId : String)
  deriving DecidableEq, Repr

/-- A step that did not raise: an operation goes on or returns. -/
inductive Progress
  | goesOn (operation : GuardOperation)
  | returns (report : Report)
  deriving DecidableEq, Repr

/-- What a step leaves behind.  A step that raises ends its operation. -/
structure Written where
  database : Database
  files : Dict String CleanupGuard
  outcome : Except String Progress

/-- A step that leaves things as they were when it raises. -/
def Written.attempt (database : Database) (files : Dict String CleanupGuard)
    (body : Except String (Database × Dict String CleanupGuard × Progress)) : Written :=
  match body with
  | .ok (database', files', progress) => ⟨database', files', .ok progress⟩
  | .error msg => ⟨database, files, .error msg⟩

section

variable (digest : String → String) (database : Database) (files : Dict String CleanupGuard)

/-- The first step: the lock is taken, and the clock and the sidecar are read. -/
def GuardRequest.begin (clock : ℤ) : GuardRequest → Written
  | .acquire taskId owner token ttlSeconds =>
      .attempt database files do
        raiseIf (taskId == "" || owner == "" || ttlSeconds ≤ 0)
          "Cleanup guard identity and positive TTL are required"
        let (fileExisting, files) ← readCleanupGuardFile digest files taskId clock
        let guard := ⟨taskId, owner, token, expiresAt ttlSeconds clock⟩
        pure (database, files, .goesOn (.acquireRead guard clock fileExisting))
  | .refresh id ttlSeconds =>
      .attempt database files do
        raiseIf (id.taskId == "" || id.owner == "" || id.token == "" || ttlSeconds ≤ 0)
          "Cleanup guard identity and positive TTL are required"
        let (fileGuard, files) ← readCleanupGuardFile digest files id.taskId clock
        pure (database, files, .goesOn (.refreshRead id ttlSeconds clock fileGuard))
  | .release id =>
      .attempt database files do
        raiseIf (id.taskId == "" || id.owner == "" || id.token == "")
          "Cleanup guard identity is required"
        let (fileGuard, files) ← readCleanupGuardFile digest files id.taskId clock
        pure (database, files, .goesOn (.releaseRead id clock fileGuard))
  | .claim request =>
      match checkExpectedLeaseId request with
      | .error msg => ⟨database, files, .error msg⟩
      | .ok () =>
          -- `_connect` comes before the transaction, and what it creates stays
          .attempt database.connected files do
            let taskId := request.taskId
            let tables ← database.openTables "dispatcher_tasks"
            let _ ← getOrRaise (tables.store.tasks.get? taskId) s!"Task {taskId} not found"
            let (existing, _) ← readCleanupGuard tables.guards taskId clock
            raiseIf existing.isSome s!"Cannot claim task {taskId}: cleanup guard is active"
            let (fileGuard, files) ← readCleanupGuardFile digest files taskId clock
            pure (database, files, .goesOn (.claimCommit request clock fileGuard))

def refuseHeld (guard : CleanupGuard) (held : Option CleanupGuard) : Except String Unit :=
  let taskId := guard.taskId
  checkOption (fun held =>
    if held.owner == guard.owner then
      .error s!"Cleanup guard for task {taskId} is already held by this invocation"
    else .error s!"Cleanup guard for task {taskId} is held by another owner") held

def heldBy (id : GuardId) (guard : CleanupGuard) : Bool :=
  guard.owner == id.owner && guard.token == id.token

/-- The transaction of `acquire_cleanup_guard`. -/
def acquireInDatabase (guard : CleanupGuard) (now : ℤ) (fileExisting : Option CleanupGuard) :
    Except String Database := do
  let taskId := guard.taskId
  let tables ← database.openTables "dispatcher_meta"
  let (existing, guards) ← readCleanupGuard tables.guards taskId now
  raiseIf ((tables.store.tasks.get? taskId).any fun task =>
      task.status == .claimed || task.leaseId.isSome)
    s!"Cannot acquire cleanup guard for task {taskId}: active dispatcher lease"
  refuseHeld guard fileExisting
  refuseHeld guard existing
  pure (.tables { tables with guards := guards.set taskId guard })

/-- The transaction of `refresh_cleanup_guard`: a row that is gone is not written again. -/
def refreshInDatabase (id : GuardId) (now : ℤ) (refreshed : CleanupGuard) :
    Except String Database := do
  let taskId := id.taskId
  let tables ← database.openTables "dispatcher_meta"
  let (dbGuard, guards) ← readCleanupGuard tables.guards taskId now
  raiseIf (dbGuard.any fun guard => !heldBy id guard)
    s!"Cleanup guard for task {taskId} is not held by this owner"
  pure (.tables { tables with
    guards := if dbGuard.isSome then guards.set taskId refreshed else guards })

/-- The transaction of `release_cleanup_guard`: the sidecar decides who holds the guard, and
the row is deleted. -/
def releaseInDatabase (id : GuardId) (now : ℤ) (fileGuard : Option CleanupGuard) :
    Except String Database := do
  let taskId := id.taskId
  let tables ← database.openTables "dispatcher_meta"
  let (dbGuard, guards) ← readCleanupGuard tables.guards taskId now
  raiseIf (!(fileGuard.or dbGuard).any (heldBy id))
    s!"Cleanup guard for task {taskId} is not held by this owner"
  pure (.tables { tables with
    guards := if dbGuard.isSome then guards.erase taskId else guards })

/-- The transaction of `claim`, with the guards in view. -/
def claimInDatabase (request : ClaimRequest) (now : ℤ) (fileGuard : Option CleanupGuard) :
    Except String Database := do
  let tables ← database.openTables "dispatcher_tasks"
  let (existing, guards) ← readCleanupGuard tables.guards request.taskId now
  let store ← claim tables.store now
    { request with guarded := existing.isSome || fileGuard.isSome }
  pure (.tables ⟨store, guards⟩)

/-- `if db_path.exists(): … else: …`. -/
def ifDatabase (present absent : Except String Database) : Except String Database :=
  if database.exists? then present else absent

/-- The next step of the operation that holds the lock. -/
def GuardOperation.next : GuardOperation → Written
  | .acquireRead guard now fileExisting =>
      .attempt database files do
        let database ← ifDatabase database
          (acquireInDatabase database guard now fileExisting)
          (do
            refuseHeld guard fileExisting
            pure database)
        pure (database, files, .goesOn (.acquireWrite guard))
  | .acquireWrite guard =>
      ⟨database, files.set (digest guard.taskId) guard, .ok (.returns (.acquired guard))⟩
  | .refreshRead id ttlSeconds now fileGuard =>
      .attempt database files do
        let taskId := id.taskId
        let fileGuard ← getOrRaise (fileGuard.filter (heldBy id))
          s!"Cleanup guard for task {taskId} is not held by this owner"
        let refreshed := { fileGuard with expiresAt := expiresAt ttlSeconds now }
        let database ← ifDatabase database (refreshInDatabase database id now refreshed)
          (pure database)
        pure (database, files, .goesOn (.refreshWrite refreshed))
  | .refreshWrite refreshed =>
      ⟨database, files.set (digest refreshed.taskId) refreshed,
        .ok (.returns (.refreshed refreshed))⟩
  | .releaseRead id now fileGuard =>
      .attempt database files do
        let taskId := id.taskId
        let database ← ifDatabase database
          (releaseInDatabase database id now fileGuard)
          (do
            raiseIf (!fileGuard.any (heldBy id))
              s!"Cleanup guard for task {taskId} is not held by this owner"
            pure database)
        pure (database, files, .goesOn (.releaseRemove id))
  | .releaseRemove id =>
      ⟨database, files.erase (digest id.taskId), .ok (.returns (.released id))⟩
  | .claimCommit request now fileGuard =>
      .attempt database files do
        let database ← claimInDatabase database request now fileGuard
        pure (database, files, .returns (.claimed request.taskId))

end

/-! ### The system -/

/-- The database, the sidecars, the clock, the operation that holds the lock, and what the
operations have reported, newest first. -/
structure Host where
  database : Database := .absent
  files : Dict String CleanupGuard := ∅
  clock : ℤ := 0
  holder : Option GuardOperation := none
  reports : List Report := []

inductive GuardMove
  /-- The clock moves on. -/
  | wait (now : ℤ)
  /-- The database is initialised. -/
  | initialise
  /-- An issue is synced, one transaction; it waits while a claim has its own open. -/
  | sync (issue : IssueSnapshot) (readyIssueObserved : Bool)
  /-- An operation is called; it waits while another one holds the lock. -/
  | begin (request : GuardRequest)
  /-- The operation that holds the lock makes its next step. -/
  | resume
  /-- The process that holds the lock dies. -/
  | crash
  deriving DecidableEq, Repr

namespace Host

def record (host : Host) (written : Written) : Host :=
  { host with
    database := written.database
    files := written.files
    holder :=
      match written.outcome with
      | .ok (.goesOn operation) => some operation
      | _ => none
    reports :=
      match written.outcome with
      | .ok (.returns report) => report :: host.reports
      | _ => host.reports }

/-- A claim has its transaction open. -/
def inTransaction (host : Host) : Bool :=
  match host.holder with
  | some (.claimCommit ..) => true
  | _ => false

def syncedDatabase (database : Database) (issue : IssueSnapshot) (readyIssueObserved : Bool) :
    Database :=
  match database with
  | .tables tables => .tables { tables with
      store := (tables.store.upsertSyncedTask issue.toTask readyIssueObserved none).store }
  | _ => .blank

def step (digest : String → String) (host : Host) : GuardMove → Host
  | .wait now => { host with clock := max host.clock now }
  | .initialise => { host with database := host.database.initialised }
  | .sync issue readyIssueObserved =>
      if host.inTransaction then host
      else { host with database := syncedDatabase host.database issue readyIssueObserved }
  | .begin request =>
      match host.holder with
      | some _ => host
      | none => host.record (request.begin digest host.database host.files host.clock)
  | .resume =>
      match host.holder with
      | some operation => host.record (operation.next digest host.database host.files)
      | none => host
  | .crash => { host with holder := none }

def after (digest : String → String) (moves : List GuardMove) : Host :=
  Journal.after (step digest) {} moves

end Host

/-- The expiry of a guard that was last reported, unless it was released since; the reports
come newest first. -/
def lastReported (id : GuardId) : List Report → Option ℤ
  | [] => none
  | .acquired guard :: older | .refreshed guard :: older =>
      if guard.id = id then some guard.expiresAt else lastReported id older
  | .released released :: older => if released = id then none else lastReported id older
  | .claimed _ :: older => lastReported id older

end AgenticPkm.Dispatcher
