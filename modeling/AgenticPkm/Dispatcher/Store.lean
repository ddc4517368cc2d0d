import AgenticPkm.Lib.Dict
import AgenticPkm.Lib.Checks

/-!
# The dispatcher store

The dispatcher keeps a table of tasks and a table of leases.  Some operations change them in one
write transaction; others read a row, decide and write the whole row back.  This module has the
records, the single writes and `upsert_synced_task`, which persists a snapshot of an issue without
overwriting a concurrent claim.

Of a task row, the fields are kept that an operation on leases reads or writes.  The event table is
kept as the list of its `task.claimed` events, which say which task a lease was taken for.
-/

namespace AgenticPkm.Dispatcher

inductive TaskStatus
  | ready
  | claimed
  | inProgress
  | blocked
  | completed
  | done
  | failed
  | other (name : String)
  deriving DecidableEq, Repr

/-- The status as it is stored. -/
def TaskStatus.text : TaskStatus → String
  | .ready => "ready"
  | .claimed => "claimed"
  | .inProgress => "in_progress"
  | .blocked => "blocked"
  | .completed => "completed"
  | .done => "done"
  | .failed => "failed"
  | .other name => name

/-- The instant that a stored time stands for; `none` if it cannot be parsed. -/
abbrev Stamp := Option ℤ

/-- The times in the `sync_state` of a task; `none` if the key is absent. -/
structure SyncState where
  lastPullAt : Option Stamp := none
  readyScanInvalidatedAt : Option Stamp := none
  terminalStateProtectedAt : Option Stamp := none
  deriving DecidableEq, Repr

structure TaskRecord where
  taskId : String
  issueNumber : ℤ
  status : TaskStatus
  claimedBy : Option String := none
  leaseId : Option String := none
  leaseExpiresAt : Option ℤ := none
  blockedReason : Option String := none
  lastHeartbeatAt : Option ℤ := none
  syncState : SyncState := {}
  deriving DecidableEq, Repr

structure LeaseRecord where
  leaseId : String
  resource : String
  holder : String
  ttlSeconds : ℤ
  acquiredAt : ℤ
  expiresAt : ℤ
  heartbeatAt : Option ℤ := none
  releasedAt : Option ℤ := none
  releaseReason : Option String := none
  deriving DecidableEq, Repr

/-- The tables.  `claims` lists the task and the lease of every `task.claimed` event. -/
structure Store where
  tasks : Dict String TaskRecord := ∅
  leases : Dict String LeaseRecord := ∅
  claims : List (String × String) := []

namespace Store

/-- `upsert_task`: the whole row is written. -/
def upsertTask (store : Store) (task : TaskRecord) : Store :=
  { store with tasks := store.tasks.set task.taskId task }

/-- `upsert_lease`: the whole row is written. -/
def upsertLease (store : Store) (lease : LeaseRecord) : Store :=
  { store with leases := store.leases.set lease.leaseId lease }

end Store

/-! ### Synced tasks -/

/-- The pull is later than the stored time; both can be parsed. -/
def laterThan (pull : Option Stamp) (stamp : Stamp) : Bool :=
  match pull, stamp with
  | some (some pulled), some stored => pulled > stored
  | _, _ => false

/-- A ready scan that was invalidated stays invalidated without newer ready evidence. -/
def fenceReadyScan (existing incoming : SyncState) (readyIssueObserved : Bool) : SyncState :=
  match existing.readyScanInvalidatedAt with
  | none => incoming
  | some invalidatedAt =>
      if readyIssueObserved && laterThan incoming.lastPullAt invalidatedAt then
        { incoming with readyScanInvalidatedAt := none }
      else
        { incoming with lastPullAt := none, readyScanInvalidatedAt := some invalidatedAt }

/-- A newer ready observation may reopen terminal work. -/
def mayReopenTerminal (existing incoming : SyncState) (readyIssueObserved : Bool) : Bool :=
  match existing.terminalStateProtectedAt with
  | none => false
  | some protectedAt => readyIssueObserved && laterThan incoming.lastPullAt protectedAt

/-- The protection of terminal work stays without such an observation. -/
def fenceTerminal (existing incoming : SyncState) (mayReopen : Bool) : SyncState :=
  match existing.terminalStateProtectedAt with
  | none => incoming
  | some protectedAt =>
      if mayReopen then { incoming with terminalStateProtectedAt := none }
      else { incoming with lastPullAt := none, terminalStateProtectedAt := some protectedAt }

/-- What `upsert_synced_task` persists over an existing row, and whether the expected
transition was applied.  The lifecycle fields of a task that is claimed or leased, that is
not in the expected state or whose terminal state is fenced are carried forward. -/
def persistedTask (existing task : TaskRecord) (readyIssueObserved : Bool)
    (expectedState : Option (TaskStatus × Option String)) : TaskRecord × Bool :=
  let scanned := fenceReadyScan existing.syncState task.syncState readyIssueObserved
  let mayReopen := mayReopenTerminal existing.syncState scanned readyIssueObserved
  let currentState := (existing.status, existing.blockedReason)
  let expectedStateMatches := expectedState.isNone || expectedState == some currentState
  let preserveLifecycleState := !expectedStateMatches ||
    (existing.syncState.terminalStateProtectedAt.isSome && !mayReopen) ||
    existing.status == .claimed || existing.status == .inProgress || existing.leaseId.isSome
  let synced := { task with syncState := fenceTerminal existing.syncState scanned mayReopen }
  (if preserveLifecycleState then
      { synced with
        status := existing.status
        claimedBy := existing.claimedBy
        leaseId := existing.leaseId
        leaseExpiresAt := existing.leaseExpiresAt
        blockedReason := existing.blockedReason
        lastHeartbeatAt := existing.lastHeartbeatAt }
    else synced,
    expectedState.isSome && expectedStateMatches && !preserveLifecycleState &&
      currentState != (task.status, task.blockedReason))

/-- `SyncedTaskWriteResult`, with the store after the write. -/
structure SyncedTaskWriteResult where
  store : Store
  task : TaskRecord
  stateTransitionApplied : Bool

/-- `upsert_synced_task`, one transaction.  A task that was removed after it was selected
is not created again. -/
def Store.upsertSyncedTask (store : Store) (task : TaskRecord) (readyIssueObserved : Bool)
    (expectedState : Option (TaskStatus × Option String)) : SyncedTaskWriteResult :=
  match store.tasks.get? task.taskId with
  | none =>
      if expectedState.isSome then ⟨store, task, false⟩
      else ⟨store.upsertTask task, task, false⟩
  | some existing =>
      let (persisted, applied) := persistedTask existing task readyIssueObserved expectedState
      ⟨store.upsertTask persisted, persisted, applied⟩

theorem persistedTask_of_leased {ex : TaskRecord} (h : ex.leaseId.isSome) (task : TaskRecord)
    (r : Bool) (e : Option (TaskStatus × Option String)) :
    (persistedTask ex task r e).1.leaseId = ex.leaseId ∧
      (persistedTask ex task r e).1.claimedBy = ex.claimedBy ∧
      (persistedTask ex task r e).1.status = ex.status := by
  simp [persistedTask, h]

theorem persistedTask_lease (ex task : TaskRecord) (r : Bool)
    (e : Option (TaskStatus × Option String)) :
    ((persistedTask ex task r e).1.leaseId,
        (persistedTask ex task r e).1.claimedBy) =
        (ex.leaseId, ex.claimedBy) ∨
      ((persistedTask ex task r e).1.leaseId,
        (persistedTask ex task r e).1.claimedBy) =
        (task.leaseId, task.claimedBy) := by
  unfold persistedTask
  dsimp only
  split
  · exact .inl rfl
  · exact .inr rfl

@[simp] theorem persistedTask_taskId (ex task : TaskRecord) (r : Bool)
    (e : Option (TaskStatus × Option String)) :
    (persistedTask ex task r e).1.taskId = task.taskId := by
  unfold persistedTask
  dsimp only
  split <;> rfl

end AgenticPkm.Dispatcher
