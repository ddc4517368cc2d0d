import AgenticPkm.Dispatcher.System

/-!
# Ready scans after a release

A release and a reclamation take the ready scan of a task away and write down when, so that a pull
which was already in flight does not put its older scan back.  The first newer ready observation
clears the mark.  From then on nothing is left to compare an older pull with, and a pull from
before the release that lands after the newer one is stored as it is.

About the rows that pulls carry nothing is assumed.

* `ready_scan_later_iff` — **only an overtaken pull brings an old scan back**.
-/

namespace AgenticPkm.Dispatcher

open List

/-- What a pull says about the time and the kind of its observation. -/
structure Pull where
  lastPullAt : Option Stamp
  readyIssueObserved : Bool
  deriving DecidableEq, Repr

/-- The arguments of `upsert_synced_task`. -/
structure SyncWrite where
  task : TaskRecord
  readyIssueObserved : Bool := false
  expectedState : Option (TaskStatus × Option String) := none
  deriving DecidableEq, Repr

def SyncWrite.pull (write : SyncWrite) : Pull :=
  ⟨write.task.syncState.lastPullAt, write.readyIssueObserved⟩

def Store.syncAll (store : Store) (writes : List SyncWrite) : Store :=
  writes.foldl (fun store write =>
    (store.upsertSyncedTask write.task write.readyIssueObserved write.expectedState).store) store

@[simp] theorem Store.syncAll_cons (s : Store) (w : SyncWrite) (writes : List SyncWrite) :
    s.syncAll (w :: writes) =
      (s.upsertSyncedTask w.task w.readyIssueObserved w.expectedState).store.syncAll writes := rfl

def pullsOf (taskId : String) (writes : List SyncWrite) : List Pull :=
  (writes.filter (·.task.taskId = taskId)).map SyncWrite.pull

/-- The task was just released or reclaimed. -/
inductive FreedAt (now : ℤ) (taskId : String) : Store → Prop
  /-- The last write of `release`, of the row it read first. -/
  | released (store : Store) (task : TaskRecord) : task.taskId = taskId →
      FreedAt now taskId (store.upsertTask (releasedTask task now))
  /-- `_reclaim_one` of an expired lease that the task references. -/
  | reclaimed (store : Store) (task : TaskRecord) (leaseId : String) (lease : LeaseRecord) :
      store.tasks.get? taskId = some task → task.leaseId = some leaseId →
      store.leases.get? leaseId = some lease → lease.isReleased = false → lease.expiresAt < now →
      FreedAt now taskId (reclaimOne store now taskId leaseId)

/-- If the task is ready with a usable scan, the scan is from after the time. -/
def ReadyScanLater (now : ℤ) (task : TaskRecord) : Prop :=
  task.status = .ready → ∀ pulled, task.syncState.lastPullAt = some (some pulled) → now < pulled

/-! ### Overtaken pulls -/

namespace Pull

/-- The pull is newer ready evidence than the mark, if there is one. -/
def freshFor (mark : Option Stamp) (pull : Pull) : Bool :=
  mark.all fun stamp => pull.readyIssueObserved && laterThan pull.lastPullAt stamp

/-- The pull has a usable time, which is not after the given one. -/
def stale (now : ℤ) (pull : Pull) : Bool :=
  match pull.lastPullAt with
  | some (some pulled) => pulled ≤ now
  | _ => false

end Pull

/-- A stale pull lands after the protection of a terminal state was lifted. -/
def overtakenTerminal (now : ℤ) (terminal : Option Stamp) : List Pull → Bool
  | [] => false
  | pull :: pulls =>
      if pull.freshFor terminal then pulls.any (·.stale now)
      else overtakenTerminal now terminal pulls

/-- A stale pull lands after both marks were cleared: that of the release, and then that of a
terminal state. -/
def overtaken (now : ℤ) (terminal : Option Stamp) : List Pull → Bool
  | [] => false
  | pull :: pulls =>
      if pull.freshFor (some (some now)) then overtakenTerminal now terminal (pull :: pulls)
      else overtaken now terminal pulls

/-! ### One write -/

def syncRow (row : TaskRecord) (write : SyncWrite) : TaskRecord :=
  (persistedTask row write.task write.readyIssueObserved write.expectedState).1

theorem syncRow_syncState (row : TaskRecord) (w : SyncWrite) :
    (syncRow row w).syncState =
      fenceTerminal row.syncState
        (fenceReadyScan row.syncState w.task.syncState w.readyIssueObserved)
        (mayReopenTerminal row.syncState
          (fenceReadyScan row.syncState w.task.syncState w.readyIssueObserved)
          w.readyIssueObserved) := by
  unfold syncRow persistedTask
  dsimp only
  split <;> rfl

variable {store : Store} {front : List Pull}

theorem get?_syncAll {t : String} {row : TaskRecord}
    (hr : store.tasks.get? t = some row) (w : List SyncWrite) :
    (store.syncAll w).tasks.get? t = some ((w.filter (·.task.taskId = t)).foldl syncRow row) := by
  induction w generalizing store row with
  | nil => exact hr
  | cons write _ ih =>
    by_cases ht : write.task.taskId = t
    · have hn : (store.upsertSyncedTask write.task write.readyIssueObserved
          write.expectedState).store.tasks.get? t = some (syncRow row write) := by
        subst ht
        simp [Store.upsertSyncedTask, hr, Store.upsertTask, syncRow]
      simpa [ht] using ih hn
    · have hn : (store.upsertSyncedTask write.task write.readyIssueObserved
          write.expectedState).store.tasks.get? t = some row := by
        have hne : t ≠ write.task.taskId := Ne.symm ht
        unfold Store.upsertSyncedTask
        cases store.tasks.get? write.task.taskId with
        | none =>
          dsimp only
          split
          · exact hr
          · simpa [Store.upsertTask, Dict.get?_set_of_ne _ _ hne] using hr
        | some => simpa [Store.upsertTask, Dict.get?_set_of_ne _ _ hne] using hr
      simpa [ht] using ih hn

/-! ### Scans stay away until a newer one comes -/

theorem lastPullAt_syncRow (row : TaskRecord) (w : SyncWrite) :
    (syncRow row w).syncState.lastPullAt = none ∨
      (syncRow row w).syncState.lastPullAt = w.pull.lastPullAt := by
  rw [syncRow_syncState]
  unfold fenceTerminal fenceReadyScan
  grind [SyncWrite.pull]

/-- The scan that is stored, if it is usable, is from after the time. -/
def ScanLater (now : ℤ) (row : TaskRecord) : Prop :=
  ∀ pulled, row.syncState.lastPullAt = some (some pulled) → now < pulled

variable {now : ℤ}

theorem scanLater_of_not_stale (row : TaskRecord) {w : SyncWrite}
    (h : w.pull.stale now = false) : ScanLater now (syncRow row w) := by
  intro pulled hp
  rcases lastPullAt_syncRow row w with hn | hsame
  · rw [hn] at hp
    cases hp
  · rw [hp] at hsame
    simpa [Pull.stale, ← hsame] using h

/-- The mark of the release is there, and that of a terminal state, if there was one. -/
structure Closed (now : ℤ) (terminal : Option Stamp) (row : TaskRecord) : Prop where
  invalidated : row.syncState.readyScanInvalidatedAt = some (some now)
  noScan : row.syncState.lastPullAt = none
  terminal : ∀ stamp, terminal = some stamp →
    row.syncState.terminalStateProtectedAt = some stamp

/-- Only the mark of a terminal state is left; it is later than the release. -/
structure HalfOpen (now : ℤ) (stamp : Stamp) (row : TaskRecord) : Prop where
  noScan : row.syncState.lastPullAt = none
  terminal : row.syncState.terminalStateProtectedAt = some stamp
  later : ∀ protectedAt, stamp = some protectedAt → now < protectedAt

section OneWrite

variable {now : ℤ} {t : Option Stamp} {st : Stamp} {row : TaskRecord}
  {w : SyncWrite}

theorem freshFor_some {pull : Pull} : pull.freshFor (some st) =
    (pull.readyIssueObserved && laterThan pull.lastPullAt st) := rfl

theorem fenceReadyScan_of_not_fresh {s : SyncState}
    (hs : s.readyScanInvalidatedAt = some st)
    (h : w.pull.freshFor (some st) = false) :
    fenceReadyScan s w.task.syncState w.readyIssueObserved =
      { w.task.syncState with
        lastPullAt := none
        readyScanInvalidatedAt := some st } := by
  have hn : (w.readyIssueObserved && laterThan w.task.syncState.lastPullAt st) = false := h
  simp [fenceReadyScan, hs, hn]

theorem laterThan_none (s : Stamp) : laterThan none s = false := by
  cases s <;> rfl

theorem Closed.syncRow (hrow : Closed now t row)
    (h : w.pull.freshFor (some (some now)) = false) :
    Closed now t (syncRow row w) := by
  have hs := fenceReadyScan_of_not_fresh hrow.invalidated h
  have hr : mayReopenTerminal row.syncState (fenceReadyScan row.syncState
      w.task.syncState w.readyIssueObserved) w.readyIssueObserved = false := by
    rw [hs]
    unfold mayReopenTerminal
    split
    · rfl
    · simp [laterThan_none]
  constructor <;> rw [syncRow_syncState, hr, hs]
  · unfold fenceTerminal
    split <;> rfl
  · unfold fenceTerminal
    split <;> rfl
  · intro st ht
    rw [fenceTerminal, hrow.terminal st ht]
    rfl

theorem HalfOpen.syncRow (hrow : HalfOpen now st row)
    (h : w.pull.freshFor (some st) = false) : HalfOpen now st (syncRow row w) := by
  have hn : (w.readyIssueObserved && laterThan w.task.syncState.lastPullAt st) = false := h
  have hr : mayReopenTerminal row.syncState (fenceReadyScan row.syncState
      w.task.syncState w.readyIssueObserved) w.readyIssueObserved = false := by
    unfold mayReopenTerminal fenceReadyScan
    rw [hrow.terminal]
    dsimp only
    split
    · exact hn
    · split
      · exact hn
      · simp [laterThan_none]
  refine ⟨?_, ?_, hrow.later⟩ <;> rw [syncRow_syncState, hr] <;>
    simp [fenceTerminal, hrow.terminal]

theorem Closed.halfOpen (hrow : Closed now (some st) row)
    (h : w.pull.freshFor (some (some now)) = true) (hn : w.pull.freshFor (some st) = false) :
    HalfOpen now st (Dispatcher.syncRow row w) := by
  have hf : (w.readyIssueObserved && laterThan w.task.syncState.lastPullAt (some now)) := h
  have hn' : (w.readyIssueObserved && laterThan w.task.syncState.lastPullAt st) = false := hn
  have ht := hrow.terminal st rfl
  have hsc : fenceReadyScan row.syncState w.task.syncState w.readyIssueObserved =
      { w.task.syncState with readyScanInvalidatedAt := none } := by
    simp [fenceReadyScan, hrow.invalidated, hf]
  have hr : mayReopenTerminal row.syncState (fenceReadyScan row.syncState
      w.task.syncState w.readyIssueObserved) w.readyIssueObserved = false := by
    rw [hsc]
    simpa [mayReopenTerminal, ht] using hn'
  refine ⟨?_, ?_, fun p hs => ?_⟩
  · rw [syncRow_syncState, hr]
    simp [fenceTerminal, ht]
  · rw [syncRow_syncState, hr]
    simp [fenceTerminal, ht]
  · -- the pull is after the release and not after the mark
    subst hs
    rw [Bool.and_eq_true] at hf
    rw [hf.1, Bool.true_and] at hn'
    cases hp : w.task.syncState.lastPullAt with
    | none => simp [hp, laterThan] at hf
    | some pl =>
      cases pl with
      | none => simp [hp, laterThan] at hf
      | some =>
        simp only [hp, laterThan, decide_eq_true_eq, gt_iff_lt, decide_eq_false_iff_not,
          not_lt] at hf hn'
        omega

theorem not_stale_of_fresh {pull : Pull} {m : ℤ} (hle : now ≤ m)
    (h : pull.freshFor (some (some m)) = true) : pull.stale now = false := by
  rw [freshFor_some, Bool.and_eq_true] at h
  cases hp : pull.lastPullAt with
  | none => simp [Pull.stale, hp]
  | some pulled =>
    cases pulled with
    | none => simp [Pull.stale, hp]
    | some pulled =>
      have hl : m < pulled := by simpa [hp, laterThan] using h.2
      simp only [Pull.stale, hp, decide_eq_false_iff_not, not_le]
      omega

end OneWrite

/-! ### Runs without an overtaken pull -/

section Runs

variable {now : ℤ} {tr : Option Stamp} {s : Stamp} {row : TaskRecord}
  {wr : List SyncWrite}

theorem scanLater_of_none_stale (hr : ScanLater now row)
    (h : ∀ write ∈ wr, write.pull.stale now = false) : ScanLater now (wr.foldl syncRow row) := by
  induction wr generalizing row with
  | nil => exact hr
  | cons write _ ih =>
    refine ih (scanLater_of_not_stale row (h write mem_cons_self)) fun o ho => ?_
    exact h o (mem_cons_of_mem _ ho)

theorem scanLater_of_noScan (h : row.syncState.lastPullAt = none) : ScanLater now row := by
  intro pulled hp
  rw [h] at hp
  cases hp

theorem HalfOpen.scanLater (hr : HalfOpen now s row)
    (h : overtakenTerminal now (some s) (wr.map SyncWrite.pull) = false) :
    ScanLater now (wr.foldl Dispatcher.syncRow row) := by
  induction wr generalizing row with
  | nil => exact scanLater_of_noScan hr.noScan
  | cons write _ ih =>
    simp only [map_cons, overtakenTerminal] at h
    split at h
    · next hf =>
      have hw : write.pull.stale now = false := by
        cases s with
        | none => simp [freshFor_some, laterThan] at hf
        | some m => exact not_stale_of_fresh (hr.later m rfl).le hf
      rw [foldl_cons]
      refine scanLater_of_none_stale (scanLater_of_not_stale row hw) fun o ho => ?_
      simpa using any_eq_false.mp h o.pull (mem_map_of_mem ho)
    · next hf => exact ih (hr.syncRow (by simpa using hf)) h

theorem Closed.scanLater (hr : Closed now tr row)
    (h : overtaken now tr (wr.map SyncWrite.pull) = false) :
    ScanLater now (wr.foldl Dispatcher.syncRow row) := by
  induction wr generalizing row with
  | nil => exact scanLater_of_noScan hr.noScan
  | cons _ _ ih =>
    simp only [map_cons, overtaken] at h
    split at h
    · next hf =>
      simp only [overtakenTerminal] at h
      split at h
      · rw [foldl_cons]
        refine scanLater_of_none_stale (scanLater_of_not_stale row
          (not_stale_of_fresh le_rfl hf)) fun o ho => ?_
        simpa using any_eq_false.mp h o.pull (mem_map_of_mem ho)
      · next hn =>
        cases tr with
        | none => simp [Pull.freshFor] at hn
        | some => exact (hr.halfOpen hf (by simpa using hn)).scanLater h
    · next hf => exact ih (hr.syncRow (by simpa using hf)) h

end Runs

/-! ### An overtaken pull is stored -/

/-- A pull of the issue among the ready ones, as `normalize_github_issue` builds its row. -/
def readyWrite (taskId : String) (pull : Pull) : SyncWrite where
  task := { taskId := taskId, issueNumber := 0, status := .ready
            syncState := { lastPullAt := pull.lastPullAt } }
  readyIssueObserved := pull.readyIssueObserved

@[simp] theorem pull_readyWrite (t : String) (pull : Pull) : (readyWrite t pull).pull = pull := rfl

/-- The row of a task that no agent holds, with its marks. -/
structure Free (invalidated terminal : Option Stamp) (row : TaskRecord) : Prop where
  leaseId : row.leaseId = none
  notClaimed : row.status ≠ .claimed
  notInProgress : row.status ≠ .inProgress
  invalidatedAt : row.syncState.readyScanInvalidatedAt = invalidated
  protectedAt : row.syncState.terminalStateProtectedAt = terminal

section Taken

variable {now : ℤ} {sm : Stamp} {i te : Option Stamp} {row : TaskRecord}
  (taskId : String) (pull : Pull)

theorem fenceReadyScan_readyWrite (hr : Free i te row) :
    fenceReadyScan row.syncState { lastPullAt := pull.lastPullAt } pull.readyIssueObserved =
      if pull.freshFor i then { lastPullAt := pull.lastPullAt }
      else { readyScanInvalidatedAt := i } := by
  cases i with
  | none => simp [fenceReadyScan, hr.invalidatedAt, Pull.freshFor]
  | some => simp [fenceReadyScan, hr.invalidatedAt, freshFor_some]

theorem syncRow_readyWrite_of_fresh (hrow : Free i te row)
    (h : pull.freshFor i) (h' : pull.freshFor te) :
    syncRow row (readyWrite taskId pull) = (readyWrite taskId pull).task := by
  have hs : fenceReadyScan row.syncState { lastPullAt := pull.lastPullAt }
      pull.readyIssueObserved = { lastPullAt := pull.lastPullAt } := by
    rw [fenceReadyScan_readyWrite pull hrow, if_pos h]
  have hf : (row.status == .claimed || row.status == .inProgress || row.leaseId.isSome) =
      false := by
    simp [hrow.leaseId, hrow.notClaimed, hrow.notInProgress]
  cases te with
  | none => simp_all [syncRow, persistedTask, readyWrite, hrow.protectedAt, fenceTerminal]
  | some sm =>
    have hr : (pull.readyIssueObserved && laterThan pull.lastPullAt sm) = true := h'
    simp_all [syncRow, persistedTask, readyWrite, hrow.protectedAt, fenceTerminal,
      mayReopenTerminal]

theorem status_syncRow (row : TaskRecord) (w : SyncWrite) :
    (syncRow row w).status = row.status ∨ (syncRow row w).status = w.task.status := by
  unfold syncRow persistedTask
  dsimp only
  split
  · exact .inl rfl
  · exact .inr rfl

/-- Otherwise no scan is stored, and the marks are cleared in their order. -/
theorem syncState_readyWrite (hr : Free i te row)
    (h : (pull.freshFor i && pull.freshFor te) = false) :
    (syncRow row (readyWrite taskId pull)).syncState =
      { readyScanInvalidatedAt := if pull.freshFor i then none else i
        terminalStateProtectedAt := te } := by
  rw [syncRow_syncState]
  change fenceTerminal row.syncState (fenceReadyScan row.syncState
      { lastPullAt := pull.lastPullAt } pull.readyIssueObserved) (mayReopenTerminal row.syncState
        (fenceReadyScan row.syncState { lastPullAt := pull.lastPullAt } pull.readyIssueObserved)
        pull.readyIssueObserved) = _
  rw [fenceReadyScan_readyWrite pull hr]
  cases te with
  | none =>
    have hn : pull.freshFor i = false := by simpa [Pull.freshFor] using h
    simp [fenceTerminal, hr.protectedAt, hn]
  | some sm =>
    cases hf : pull.freshFor i with
    | false => simp [fenceTerminal, mayReopenTerminal, hr.protectedAt, laterThan_none]
    | true =>
      have hn : (pull.readyIssueObserved && laterThan pull.lastPullAt sm) = false := by
        rw [hf, Bool.true_and, freshFor_some] at h
        exact h
      simp [fenceTerminal, mayReopenTerminal, hr.protectedAt, hn]

theorem Free.syncRow_readyWrite (hr : Free i te row)
    (h : (pull.freshFor i && pull.freshFor te) = false) :
    Free (if pull.freshFor i then none else i) te
      (syncRow row (readyWrite taskId pull)) := by
  have hst := syncState_readyWrite taskId pull hr h
  refine ⟨?_, ?_, ?_, by rw [hst], by rw [hst]⟩
  · rcases persistedTask_lease row (readyWrite taskId pull).task pull.readyIssueObserved none
      with hl | hl
    · exact (Prod.mk.inj hl).1.trans hr.leaseId
    · exact (Prod.mk.inj hl).1
  · rcases status_syncRow row (readyWrite taskId pull) with hs | hs <;> rw [hs]
    · exact hr.notClaimed
    · exact TaskStatus.noConfusion
  · rcases status_syncRow row (readyWrite taskId pull) with hs | hs <;> rw [hs]
    · exact hr.notInProgress
    · exact TaskStatus.noConfusion

/-- Pulls of ready issues, some of which leave the task ready with a scan from before. -/
def Exposed (now : ℤ) (row : TaskRecord) (pulls : List Pull) : Prop :=
  ∃ front, front <+: pulls ∧
    ¬ ReadyScanLater now ((front.map (readyWrite taskId)).foldl syncRow row)

variable {pulls : List Pull}

theorem Exposed.cons {pull : Pull}
    (h : Exposed taskId now (syncRow row (readyWrite taskId pull)) pulls) :
    Exposed taskId now row (pull :: pulls) := by
  obtain ⟨front, hf, hr⟩ := h
  exact ⟨pull :: front, cons_prefix_cons.mpr ⟨rfl, hf⟩, hr⟩

theorem free_readyWrite : Free none none (readyWrite taskId pull).task where
  leaseId := rfl
  notClaimed := TaskStatus.noConfusion
  notInProgress := TaskStatus.noConfusion
  invalidatedAt := rfl
  protectedAt := rfl

theorem exposed_of_stale (hrow : Free none none row) (h : pulls.any (·.stale now) = true) :
    Exposed taskId now row pulls := by
  induction pulls generalizing row with
  | nil => cases h
  | cons pull pulls ih =>
    have hst := syncRow_readyWrite_of_fresh taskId pull hrow rfl rfl
    by_cases hs : pull.stale now
    · refine ⟨[pull], cons_prefix_cons.mpr ⟨rfl, nil_prefix⟩, fun hl => ?_⟩
      rw [map_singleton, foldl_cons, hst] at hl
      unfold Pull.stale at hs
      split at hs
      · next p hp =>
        have := hl rfl p hp
        simp only [decide_eq_true_eq] at hs
        omega
      · cases hs
    · have hr : pulls.any (·.stale now) = true := by simpa [hs] using h
      refine Exposed.cons taskId ?_
      rw [hst]
      exact ih (free_readyWrite taskId pull) hr

theorem exposed_of_overtakenTerminal (hr : Free none te row)
    (h : overtakenTerminal now te pulls) : Exposed taskId now row pulls := by
  induction pulls generalizing row with
  | nil => cases h
  | cons pull _ ih =>
    refine Exposed.cons taskId ?_
    rw [overtakenTerminal] at h
    split at h
    · next hfr =>
      rw [syncRow_readyWrite_of_fresh taskId pull hr rfl hfr]
      exact exposed_of_stale taskId (free_readyWrite taskId pull) h
    · next hn =>
      have hf := hr.syncRow_readyWrite taskId pull (by simpa using fun _ => hn)
      rw [ite_self] at hf
      exact ih hf h

theorem exposed_of_overtaken (hr : Free (some (some now)) te row)
    (h : overtaken now te pulls) : Exposed taskId now row pulls := by
  induction pulls generalizing row with
  | nil => cases h
  | cons pull _ ih =>
    refine Exposed.cons taskId ?_
    rw [overtaken] at h
    split at h
    · next hf =>
      rw [overtakenTerminal] at h
      split at h
      · next ht =>
        rw [syncRow_readyWrite_of_fresh taskId pull hr hf ht]
        exact exposed_of_stale taskId (free_readyWrite taskId pull) h
      · next ht =>
        have hfr := hr.syncRow_readyWrite taskId pull (by simpa [hf] using ht)
        rw [if_pos hf] at hfr
        exact exposed_of_overtakenTerminal taskId hfr h
    · next hf =>
      have hfr := hr.syncRow_readyWrite taskId pull (by simp [hf])
      rw [if_neg hf] at hfr
      exact ih hfr h

end Taken

/-! ### Releases -/

theorem statusWithoutLease_cases (task : TaskRecord) :
    statusWithoutLease task = .ready ∨ statusWithoutLease task = .blocked := by
  unfold statusWithoutLease
  split
  · exact .inl rfl
  · exact .inr rfl

theorem FreedAt.row {t : String} (h : FreedAt now t store) :
    ∃ row, store.tasks.get? t = some row ∧
      Closed now row.syncState.terminalStateProtectedAt row ∧
      Free (some (some now)) row.syncState.terminalStateProtectedAt row := by
  cases h with
  | released _ task ht =>
    refine ⟨releasedTask task now, ?_, ⟨rfl, rfl, fun _ hst => hst⟩, rfl, ?_, ?_, rfl, rfl⟩
    · subst ht
      exact Dict.get?_set_self ..
    all_goals
      rcases statusWithoutLease_cases task with hs | hs <;>
        simp [releasedTask, hs]
  | reclaimed store task l lease ht hl hls hrel hexp =>
    have hnot : ¬ (lease.isReleased || decide (lease.expiresAt ≥ now)) = true := by
      simp [hrel, hexp]
    have hrow : (reclaimOne store now t l).tasks.get? t = some (reclaimedTask task now) := by
      simp only [reclaimOne, ht, hl, ne_eq, not_true_eq_false, if_false, hls, if_neg hnot]
      exact Dict.get?_set_self ..
    have hstate : (reclaimedTask task now).syncState.readyScanInvalidatedAt = some (some now) ∧
        (reclaimedTask task now).syncState.lastPullAt = none := by
      unfold reclaimedTask
      dsimp only
      split <;> exact ⟨rfl, rfl⟩
    have hs : (reclaimedTask task now).status ≠ .claimed ∧
        (reclaimedTask task now).status ≠ .inProgress := by
      unfold reclaimedTask
      dsimp only
      split
      · next htm =>
        constructor <;>
        · intro heq
          simp [heq, TaskStatus.isTerminal] at htm
      · rcases statusWithoutLease_cases task with heq | heq <;> simp [heq]
    exact ⟨_, hrow, ⟨hstate.1, hstate.2, fun _ hst => hst⟩, ⟨rfl, hs.1, hs.2, hstate.1, rfl⟩⟩

/-! ### The order of the pulls -/

theorem overtakenTerminal_mono {t : Option Stamp} {p : List Pull} (hfr : front <+: p)
    (h : overtakenTerminal now t front) : overtakenTerminal now t p := by
  induction front generalizing p with
  | nil => cases h
  | cons _ _ ih =>
    obtain ⟨_, rfl⟩ := hfr
    rw [overtakenTerminal] at h
    rw [cons_append, overtakenTerminal]
    split at h
    · next hf => simp [hf, h]
    · next hf =>
      rw [if_neg hf]
      exact ih (prefix_append ..) h

theorem overtaken_mono {t : Option Stamp} {p : List Pull} (hfr : front <+: p)
    (h : overtaken now t front) : overtaken now t p := by
  induction front generalizing p with
  | nil => cases h
  | cons _ _ ih =>
    obtain ⟨_, rfl⟩ := hfr
    rw [overtaken] at h
    rw [cons_append, overtaken]
    split at h
    · next hf =>
      rw [if_pos hf]
      exact overtakenTerminal_mono (prefix_append ..) h
    · next hf =>
      rw [if_neg hf]
      exact ih (prefix_append ..) h

theorem pullsOf_readyWrite (t : String) (p : List Pull) :
    pullsOf t (p.map (readyWrite t)) = p ∧
      (p.map (readyWrite t)).filter (·.task.taskId = t) = p.map (readyWrite t) := by
  have ha : (p.map (readyWrite t)).filter (·.task.taskId = t) = p.map (readyWrite t) := by
    rw [filter_eq_self]
    rintro write hw
    obtain ⟨pull, -, rfl⟩ := mem_map.mp hw
    exact decide_eq_true rfl
  refine ⟨?_, ha⟩
  rw [pullsOf, ha, map_map]
  exact map_id p

/-- **A pull that was overtaken is all that brings an old scan back.**  After a task was
released or reclaimed, and for every order of later pulls: along all writes with these pulls
the task is ready with a usable scan only if the scan is from after the release, exactly when
no pull from before the release lands after newer ones have cleared the marks. -/
theorem ready_scan_later_iff {now : ℤ} {taskId : String} {store : Store}
    (hfreed : FreedAt now taskId store) (pulls : List Pull) :
    (∀ writes, pullsOf taskId writes <+: pulls →
      ∀ task, (store.syncAll writes).tasks.get? taskId = some task → ReadyScanLater now task) ↔
      overtaken now
        ((store.tasks.get? taskId).bind (·.syncState.terminalStateProtectedAt)) pulls = false := by
  obtain ⟨row, hrow, hcl, hfr⟩ := hfreed.row
  rw [hrow, Option.bind_some]
  constructor
  · intro hl
    by_contra ho
    rw [Bool.not_eq_false] at ho
    obtain ⟨front, hf, hr⟩ := exposed_of_overtaken taskId hfr ho
    obtain ⟨hp, hfl⟩ := pullsOf_readyWrite taskId front
    refine hr (hl (front.map (readyWrite taskId)) ?_ _ ?_)
    · rw [hp]
      exact hf
    · rw [get?_syncAll hrow, hfl]
  · intro ho writes hwr task ht _
    rw [get?_syncAll hrow] at ht
    cases ht
    refine hcl.scanLater ?_
    by_contra hf
    rw [Bool.not_eq_false] at hf
    rw [overtaken_mono hwr hf] at ho
    cases ho

namespace Sample

def released : Store :=
  ({} : Store).upsertTask (releasedTask
    { taskId := "task-1", issueNumber := 21, status := .claimed, claimedBy := some "agent-1"
      leaseId := some "lease-1" } 100)

def pullAt (time : ℤ) : Pull := ⟨some (some time), true⟩

end Sample

/-- Pulls in the order of their times bring back no old scan. -/
theorem pulls_in_order_safe :
    FreedAt 100 "task-1" Sample.released ∧
      ∀ writes, pullsOf "task-1" writes <+: [Sample.pullAt 50, Sample.pullAt 150] →
        ∀ task, (Sample.released.syncAll writes).tasks.get? "task-1" = some task →
          ReadyScanLater 100 task := by
  have hf : FreedAt 100 "task-1" Sample.released := .released {} _ rfl
  exact ⟨hf, (ready_scan_later_iff hf [Sample.pullAt 50, Sample.pullAt 150]).mpr
    (by decide +kernel)⟩

/-- **A pull from before the release that lands after a newer one is stored, and the task is
ready with its old scan.** -/
theorem older_pull_restores_ready_scan :
    ∃ task, (Sample.released.syncAll [readyWrite "task-1" (Sample.pullAt 150),
        readyWrite "task-1" (Sample.pullAt 50)]).tasks.get? "task-1" = some task ∧
      task.status = .ready ∧ task.syncState.lastPullAt = some (some 50) ∧
      ¬ ReadyScanLater 100 task := by
  refine ⟨(readyWrite "task-1" (Sample.pullAt 50)).task, by decide +kernel, rfl, rfl, ?_⟩
  intro hl
  exact absurd (hl rfl 50 rfl) (by decide)

end AgenticPkm.Dispatcher
