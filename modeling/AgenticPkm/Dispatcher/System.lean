import AgenticPkm.Dispatcher.Leases
import AgenticPkm.Lib.Journal

/-!
# Interleaved dispatcher operations

Any number of agents call the operations at the same time.  One step of the system is one
write transaction, one read or one write of a row; between the steps of one operation any
steps of others may come, and the clock may move on.  An operation that has begun is kept
with what it has read so far.
-/

namespace AgenticPkm.Dispatcher

/-- An issue as the sync reads it; `normalize_github_issue` sets no lease fields. -/
structure IssueSnapshot where
  taskId : String
  issueNumber : ℤ
  status : TaskStatus
  syncState : SyncState := {}
  deriving DecidableEq, Repr

def IssueSnapshot.toTask (issue : IssueSnapshot) : TaskRecord where
  taskId := issue.taskId
  issueNumber := issue.issueNumber
  status := issue.status
  syncState := issue.syncState

/-- An operation that has begun, with what it has read. -/
inductive Pending
  /-- The clock was read, the transaction is to come. -/
  | heartbeat (taskId agentId : String) (now : ℤ)
  /-- The clock was read, the transaction is to come. -/
  | complete (taskId actor : String) (expectedLeaseId : Option String) (now : ℤ)
  /-- `release` has read the task. -/
  | releaseRead (task : TaskRecord) (leaseId agentId reason : String)
  /-- `release` has read the lease, checked its holder and read the clock. -/
  | releaseLease (task : TaskRecord) (lease : LeaseRecord) (agentId reason : String) (now : ℤ)
  /-- `release` has written the lease. -/
  | releaseTask (task : TaskRecord) (agentId : String) (now : ℤ)
  | block (task : TaskRecord) (reason actor : String)
  | unblock (task : TaskRecord) (actor : String)
  /-- The sync has listed the task and decided its new state. -/
  | reconcile (task : TaskRecord) (status : TaskStatus) (blockedReason : Option String)
  /-- The observed leases that are still to be reclaimed. -/
  | reclaim (observed : List (String × String)) (actor : String)
  deriving DecidableEq, Repr

namespace Pending

/-- The agent that called the operation; the sync acts for none. -/
def actor : Pending → Option String
  | .heartbeat _ agentId _ => some agentId
  | .complete _ actor _ _ => some actor
  | .releaseRead _ _ agentId _ => some agentId
  | .releaseLease _ _ agentId _ _ => some agentId
  | .releaseTask _ agentId _ => some agentId
  | .block _ _ actor => some actor
  | .unblock _ actor => some actor
  | .reconcile _ _ _ => none
  | .reclaim _ actor => some actor

/-- The next step of an operation: the store after it, and what is left of the operation.
An operation that raises ends and leaves the store as it was. -/
def next (store : Store) (clock : ℤ) : Pending → Store × Option Pending
  | .heartbeat taskId agentId now =>
      ((Dispatcher.heartbeat store now taskId agentId).toOption.getD store, none)
  | .complete taskId actor expectedLeaseId now =>
      ((Dispatcher.complete store now taskId actor expectedLeaseId).toOption.getD store, none)
  | .releaseRead task leaseId agentId reason =>
      (store, (checkRelease store leaseId agentId).toOption.map fun lease =>
        .releaseLease task lease agentId reason clock)
  | .releaseLease task lease agentId reason now =>
      (store.upsertLease (releasedLease lease now reason), some (.releaseTask task agentId now))
  | .releaseTask task _ now => (store.upsertTask (releasedTask task now), none)
  | .block task reason _ => (store.upsertTask (blockedTask task reason), none)
  | .unblock task _ => (store.upsertTask (unblockedTask task), none)
  | .reconcile task status blockedReason =>
      ((store.upsertSyncedTask { task with status := status, blockedReason := blockedReason } false
        (some (task.status, task.blockedReason))).store, none)
  | .reclaim [] _ => (store, none)
  | .reclaim ((taskId, leaseId) :: observed) actor =>
      (reclaimOne store clock taskId leaseId, some (.reclaim observed actor))

end Pending

/-- The first step of an operation of more than one step. -/
inductive Call
  | heartbeat (taskId agentId : String)
  | complete (taskId actor : String) (expectedLeaseId : Option String)
  | release (taskId agentId reason : String)
  | block (taskId reason actor : String)
  | unblock (taskId actor : String)
  | reconcile (taskId : String) (status : TaskStatus) (blockedReason : Option String)
  | reclaim (actor : String)
  deriving DecidableEq, Repr

/-- What an operation has read after its first step; `none` if it raised. -/
def Call.begin (store : Store) (clock : ℤ) : Call → Option Pending
  | .heartbeat taskId agentId => some (.heartbeat taskId agentId clock)
  | .complete taskId actor expectedLeaseId => some (.complete taskId actor expectedLeaseId clock)
  | .release taskId agentId reason =>
      (releaseTarget store taskId).toOption.map fun target =>
        .releaseRead target.1 target.2 agentId reason
  | .block taskId reason actor =>
      (store.tasks.get? taskId).map fun task => .block task reason actor
  | .unblock taskId actor => (store.tasks.get? taskId).map fun task => .unblock task actor
  | .reconcile taskId status blockedReason =>
      (store.tasks.get? taskId).map fun task => .reconcile task status blockedReason
  | .reclaim actor => some (.reclaim (observeExpiredLeases store clock) actor)

/-- The store, the clock and the operations that have begun. -/
structure System where
  store : Store := {}
  clock : ℤ := 0
  pending : List Pending := []

inductive Move
  /-- The clock moves on. -/
  | wait (now : ℤ)
  /-- A `claim`, one transaction. -/
  | claim (request : ClaimRequest)
  /-- An issue is synced, one transaction. -/
  | sync (issue : IssueSnapshot) (readyIssueObserved : Bool)
  /-- An operation makes its first step. -/
  | begin (call : Call)
  /-- An operation that has begun makes its next step. -/
  | resume (i : ℕ)
  deriving DecidableEq, Repr

namespace System

/-- The agent on whose behalf a move changes the store. -/
def actor (sys : System) : Move → Option String
  | .claim request => some request.agentId
  | .resume i => (sys.pending[i]?).bind Pending.actor
  | _ => none

def storeAfter (sys : System) : Move → Store
  | .claim request => (Dispatcher.claim sys.store sys.clock request).toOption.getD sys.store
  | .sync issue readyIssueObserved =>
      (sys.store.upsertSyncedTask issue.toTask readyIssueObserved none).store
  | .resume i =>
      match sys.pending[i]? with
      | some pending => (pending.next sys.store sys.clock).1
      | none => sys.store
  | _ => sys.store

/-- The operations that have begun and not ended after a move. -/
def pendingAfter (sys : System) : Move → List Pending
  | .begin call => sys.pending ++ (call.begin sys.store sys.clock).toList
  | .resume i =>
      match sys.pending[i]? with
      | some pending =>
          match (pending.next sys.store sys.clock).2 with
          | some rest => sys.pending.set i rest
          | none => sys.pending.eraseIdx i
      | none => sys.pending
  | _ => sys.pending

/-- The clock after a move; it never goes back. -/
def clockAfter (sys : System) : Move → ℤ
  | .wait now => max sys.clock now
  | _ => sys.clock

def step (sys : System) (move : Move) : System where
  store := sys.storeAfter move
  clock := sys.clockAfter move
  pending := sys.pendingAfter move

def after (moves : List Move) : System := Journal.after step {} moves

theorem after_concat (m : List Move) (move : Move) : after (m ++ [move]) = (after m).step move :=
  Journal.after_concat ..

end System

end AgenticPkm.Dispatcher
