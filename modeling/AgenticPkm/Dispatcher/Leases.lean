import AgenticPkm.Dispatcher.Store
import AgenticPkm.Lib.Text

/-!
# Lease operations

`claim`, `heartbeat`, `complete` and the reclamation of one expired lease are each one
write transaction.  `release`, `block` and `unblock` read rows and write whole rows back;
here are the checks they make and the rows they write, and the interleaving of their
steps is in `AgenticPkm.Dispatcher.System`.

The active cleanup guard of a task is a fact about other tables and files, and enters
`claim` as a Boolean.
-/

namespace AgenticPkm.Dispatcher

/-- `_expires_at`: the time is written in whole seconds. -/
def expiresAt (ttlSeconds now : ℤ) : ℤ :=
  let expires := now + ttlSeconds * 1000000
  expires - expires % 1000000

def LeaseRecord.isReleased (lease : LeaseRecord) : Bool := lease.releasedAt.isSome

/-! ### Claim -/

structure ClaimRequest where
  taskId : String
  agentId : String
  /-- The identifier that `_make_lease_id` draws. -/
  leaseId : String
  ttlMinutes : ℤ := 90
  takeoverStale : Bool := false
  expectedLeaseId : Option String := none
  /-- A cleanup guard of the task is active. -/
  guarded : Bool := false
  deriving DecidableEq, Repr

/-- The checks of the arguments of `claim`. -/
def checkExpectedLeaseId (request : ClaimRequest) : Except String Unit :=
  checkOption (fun expected => do
    raiseIf (expected == "" || strip expected != expected)
      "Expected stale lease id must be a non-empty exact identifier"
    raiseIf (!request.takeoverStale) "Expected stale lease id requires --takeover-stale")
    request.expectedLeaseId

/-- The leases of the store once the claimed task is free: an expired lease of the task is
released in favour of the new one. -/
def freedLeases (store : Store) (now : ℤ) (request : ClaimRequest) (task : TaskRecord) :
    Except String (Dict String LeaseRecord) := do
  let taskId := request.taskId
  let current := task.status.text
  match task.leaseId with
  | some existingLeaseId =>
      let lease ← getOrRaise (store.leases.get? existingLeaseId)
        s!"Cannot claim task {taskId}: already has active lease"
      raiseIf (!(!lease.isReleased && lease.expiresAt ≤ now))
        s!"Cannot claim task {taskId}: already has active lease"
      raiseIf (!request.takeoverStale)
        s!"Cannot claim task {taskId}: lease has expired; retry with --takeover-stale"
      raiseIf (!(task.status == .claimed || task.status == .ready))
        s!"Cannot claim task {taskId}: not eligible for stale takeover (current: {current})"
      pure (store.leases.set existingLeaseId
        { lease with releasedAt := some now, releaseReason := some "stale_takeover" })
  | none =>
      raiseIf (task.status != .ready)
        s!"Cannot claim task {taskId}: not in ready status (current: {current})"
      pure store.leases

def claimedLease (now : ℤ) (request : ClaimRequest) (task : TaskRecord) : LeaseRecord where
  leaseId := request.leaseId
  resource := "issue:" ++ toString task.issueNumber
  holder := request.agentId
  ttlSeconds := request.ttlMinutes * 60
  acquiredAt := now
  expiresAt := expiresAt (request.ttlMinutes * 60) now
  heartbeatAt := some now

def claimedTask (now : ℤ) (request : ClaimRequest) (task : TaskRecord) : TaskRecord :=
  { task with
    leaseId := some request.leaseId
    claimedBy := some request.agentId
    leaseExpiresAt := some (expiresAt (request.ttlMinutes * 60) now)
    status := .claimed }

/-- `claim`, one transaction. -/
def claim (store : Store) (now : ℤ) (request : ClaimRequest) : Except String Store := do
  let taskId := request.taskId
  checkExpectedLeaseId request
  let task ← getOrRaise (store.tasks.get? taskId) s!"Task {taskId} not found"
  raiseIf request.guarded s!"Cannot claim task {taskId}: cleanup guard is active"
  raiseIf (request.expectedLeaseId.isSome && task.leaseId != request.expectedLeaseId)
    s!"Cannot claim task {taskId}: expected stale lease predecessor changed"
  let leases ← freedLeases store now request task
  raiseIf (leases.get? request.leaseId).isSome
    "UNIQUE constraint failed: dispatcher_leases.lease_id"
  pure
    { tasks := store.tasks.set taskId (claimedTask now request task)
      leases := leases.set request.leaseId (claimedLease now request task)
      claims := store.claims ++ [(taskId, request.leaseId)] }

/-! ### Heartbeat and completion -/

/-- The row of a task and the lease it references. -/
def leasedTask (store : Store) (taskId missing : String) :
    Except String (TaskRecord × String) := do
  let task ← getOrRaise (store.tasks.get? taskId) s!"Task {taskId} not found"
  let leaseId ← getOrRaise task.leaseId missing
  pure (task, leaseId)

def getLease (store : Store) (leaseId : String) : Except String LeaseRecord :=
  getOrRaise (store.leases.get? leaseId) s!"Lease {leaseId} not found"

/-- `heartbeat`, one transaction; `now` was read before it. -/
def heartbeat (store : Store) (now : ℤ) (taskId agentId : String) : Except String Store := do
  let (task, leaseId) ← leasedTask store taskId s!"Task {taskId} has no active lease"
  let lease ← getLease store leaseId
  let holder := lease.holder
  raiseIf (lease.holder != agentId)
    s!"Cannot heartbeat lease {leaseId}: held by {holder}, not {agentId}"
  raiseIf (lease.isReleased || lease.expiresAt ≤ now)
    s!"Cannot heartbeat lease {leaseId}: lease has expired"
  raiseIf (task.claimedBy != some agentId)
    s!"Cannot heartbeat lease {leaseId}: task changed concurrently"
  let expires := expiresAt lease.ttlSeconds now
  pure
    { store with
      tasks := store.tasks.set taskId
        { task with lastHeartbeatAt := some now, leaseExpiresAt := some expires }
      leases := store.leases.set leaseId
        { lease with heartbeatAt := some now, expiresAt := expires } }

def completedTask (task : TaskRecord) (lease : LeaseRecord) : TaskRecord :=
  { task with
    status := .completed
    leaseId := none
    claimedBy := none
    lastHeartbeatAt := none
    leaseExpiresAt := some lease.expiresAt }

/-- `complete`, one transaction; `now` was read before it. -/
def complete (store : Store) (now : ℤ) (taskId actor : String)
    (expectedLeaseId : Option String) : Except String Store := do
  let (task, leaseId) ← leasedTask store taskId s!"Task {taskId} has no active lease"
  let expected := expectedLeaseId.getD ""
  raiseIf (expectedLeaseId.isSome && some leaseId != expectedLeaseId)
    s!"Cannot complete task {taskId}: lease changed from {expected}"
  let lease ← getLease store leaseId
  let holder := lease.holder
  raiseIf (lease.holder != actor)
    s!"Cannot complete task {taskId}: held by {holder}, not {actor}"
  raiseIf lease.isReleased s!"Cannot complete task {taskId}: lease changed concurrently"
  raiseIf (task.claimedBy != some actor)
    s!"Cannot complete task {taskId}: task changed concurrently"
  pure
    { store with
      tasks := store.tasks.set taskId (completedTask task lease)
      leases := store.leases.set leaseId
        { lease with releasedAt := some now, releaseReason := some "completed" } }

/-! ### Release -/

/-- `release` reads the task first. -/
def releaseTarget (store : Store) (taskId : String) : Except String (TaskRecord × String) :=
  leasedTask store taskId s!"Task {taskId} has no active lease to release"

/-- `release` then reads the lease and checks its holder. -/
def checkRelease (store : Store) (leaseId agentId : String) : Except String LeaseRecord := do
  let lease ← getLease store leaseId
  let holder := lease.holder
  raiseIf (lease.holder != agentId)
    s!"Cannot release lease {leaseId}: held by {holder}, not {agentId}"
  pure lease

/-- The lease row that `release` writes. -/
def releasedLease (lease : LeaseRecord) (now : ℤ) (reason : String) : LeaseRecord :=
  { lease with releasedAt := some now, releaseReason := some reason }

/-- A scan of the ready issues that is older than this moment says nothing any more. -/
def SyncState.invalidated (state : SyncState) (now : ℤ) : SyncState :=
  { state with lastPullAt := none, readyScanInvalidatedAt := some (some now) }

/-- Where a task goes when its lease ends. -/
def statusWithoutLease (task : TaskRecord) : TaskStatus :=
  if task.blockedReason.isNone then .ready else .blocked

def releasedTask (task : TaskRecord) (now : ℤ) : TaskRecord :=
  { task with
    leaseId := none
    claimedBy := none
    lastHeartbeatAt := none
    leaseExpiresAt := none
    syncState := task.syncState.invalidated now
    status := statusWithoutLease task }

/-! ### Block and unblock -/

def blockedTask (task : TaskRecord) (reason : String) : TaskRecord :=
  { task with blockedReason := some reason, status := .blocked }

def unblockedTask (task : TaskRecord) : TaskRecord :=
  { task with
    blockedReason := none
    status := if task.status = .blocked then .ready else task.status }

/-! ### Reclamation of expired leases -/

/-- `_observe_expired_leases`: the tasks whose lease looks expired, by time of expiry. -/
def observeExpiredLeases (store : Store) (now : ℤ) : List (String × String) :=
  let expired := store.tasks.items.filterMap fun item => do
    let leaseId ← item.2.leaseId
    let lease ← store.leases.get? leaseId
    if !lease.isReleased && lease.expiresAt < now then some (lease.expiresAt, item.1, leaseId)
    else none
  (expired.insertionSort fun a b => a.1 ≤ b.1).map Prod.snd

/-- The statuses that a reclamation keeps. -/
def TaskStatus.isTerminal : TaskStatus → Bool
  | .completed | .done | .failed => true
  | _ => false

def reclaimedTask (task : TaskRecord) (now : ℤ) : TaskRecord :=
  { task with
    leaseId := none
    claimedBy := none
    lastHeartbeatAt := none
    leaseExpiresAt := none
    status := if task.status.isTerminal then task.status else statusWithoutLease task
    syncState :=
      if task.status.isTerminal then
        { task.syncState.invalidated now with terminalStateProtectedAt := some (some now) }
      else task.syncState.invalidated now }

/-- `_reclaim_one`, one transaction: only while the task still references the observed
lease, and that lease is still unreleased and expired. -/
def reclaimOne (store : Store) (now : ℤ) (taskId leaseId : String) : Store :=
  match store.tasks.get? taskId with
  | none => store
  | some task =>
      if task.leaseId ≠ some leaseId then store
      else
        match store.leases.get? leaseId with
        | none => store
        | some lease =>
            if lease.isReleased || lease.expiresAt ≥ now then store
            else
              { store with
                tasks := store.tasks.set taskId (reclaimedTask task now)
                leases := store.leases.set leaseId
                  { lease with releasedAt := some now, releaseReason := some "expired" } }

end AgenticPkm.Dispatcher
