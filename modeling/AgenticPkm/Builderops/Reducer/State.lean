import AgenticPkm.Builderops.Contract.Evidence

/-!
# The reducer's state and its transition matrix

The vocabulary of `delivery_reducer`: phases, signals, refusals, the transition
matrix, and the immutable state of a run with its Issues and effect ledgers.
-/

namespace AgenticPkm.Builderops

/-! ### Phases and signals -/

inductive RunPhase
  | admitted
  | claiming
  | launching
  | working
  | awaitingCi
  | awaitingReview
  | repairing
  | recordingDefect
  | merging
  | closing
  | recordingReceipt
  | delivered
  | blocked
  | ownerDecision
  | systemBlocked
  | cancelled
  | superseded
  deriving DecidableEq, Repr, Inhabited

/-- `TERMINAL_PHASES`; the other phases are active. -/
def RunPhase.isTerminal : RunPhase → Bool
  | .delivered | .blocked | .repairing | .ownerDecision | .systemBlocked => true
  | .cancelled | .superseded => true
  | _ => false

inductive ReducerSignal
  | runStarted
  | timerElapsed
  | claimSucceeded
  | workerLaunched
  | checksPassed
  | reviewRecorded
  | knownDefectRecorded
  | mergeSucceeded
  | closureSucceeded
  | receiptRecorded
  | effectFailed
  | authorityChanged
  | workerResultRecorded
  | reviewResultRecorded
  | exceptionRecorded
  deriving DecidableEq, Repr, Inhabited

/-- The signals of the two ticks. -/
def ReducerSignal.isTick : ReducerSignal → Bool
  | .runStarted | .timerElapsed => true
  | _ => false

inductive RefusalReason
  | duplicateEvent
  | duplicateCommand
  | foreignRun
  | staleRunVersion
  | stalePlanBinding
  | terminalRun
  | pausedRun
  | illegalTransition
  | pullRequestIdentityConflict
  | headEvidenceConflict
  | unauthorizedCommand
  | unauthorizedEffect
  deriving DecidableEq, Repr, Inhabited

inductive LifecycleState
  | active
  | paused
  | cancelled
  | superseded
  deriving DecidableEq, Repr, Inhabited

/-- `lifecycle in {"cancelled", "superseded"}`. -/
def LifecycleState.isTerminated : LifecycleState → Bool
  | .cancelled | .superseded => true
  | _ => false

/-- `_SUCCESS_SIGNAL_BY_OUTCOME`; a failed outcome has no success signal. -/
def successSignalByOutcome : EffectOutcomeState → Option ReducerSignal
  | .claimed => some .claimSucceeded
  | .workerLaunched => some .workerLaunched
  | .checksPassed => some .checksPassed
  | .reviewRecorded => some .reviewRecorded
  | .knownDefectRecorded => some .knownDefectRecorded
  | .merged => some .mergeSucceeded
  | .closed => some .closureSucceeded
  | .receiptRecorded => some .receiptRecorded
  | .failed => none

def failureProvesUncommitted : EffectClass → Bool
  | .claimIssue | .awaitCi | .closeIssue => true
  | _ => false

/-- `_HEAD_BOUND_EVIDENCE`. -/
def isHeadBoundEvidence : AcceptanceEvidenceKind → Bool
  | .requiredChecksGreen | .reviewAccepted => true
  | _ => false

def acceptanceEvidenceByEffectOutcome : EffectOutcomeState → Option AcceptanceEvidenceKind
  | .checksPassed => some .requiredChecksGreen
  | .merged => some .pullRequestMerged
  | .closed => some .issueClosed
  | .knownDefectRecorded => some .knownDefectRecorded
  | _ => none

/-- `_OWNER_DECISION_EXCEPTIONS` and `_SYSTEM_BLOCK_EXCEPTIONS`: the phase an
exception of each kind sends an active Issue to. -/
def exceptionTarget : ExceptionKind → RunPhase
  | .authorityConflict => .ownerDecision
  | .dependencyBlocked | .externalStateUnknown => .systemBlocked
  | _ => .blocked

/-! ### The transition matrix -/

/-- One cell of the transition matrix.  A legal cell names its prerequisites and
an illegal one carries nothing. -/
structure TransitionRule where
  legal : Bool
  targetPhase : Option RunPhase
  emits : List EffectClass
  prerequisites : List String
  legal_named : legal = true → prerequisites ≠ []
  illegal_empty : legal = false → targetPhase = none ∧ emits = [] ∧ prerequisites = []

namespace TransitionRule

/-- `_ILLEGAL`. -/
def refused : TransitionRule where
  legal := false
  targetPhase := none
  emits := []
  prerequisites := []
  legal_named := by simp
  illegal_empty := by simp

/-- `_legal`, with its first prerequisite apart. -/
def admitting (targetPhase : Option RunPhase) (emits : List EffectClass) (first : String)
    (rest : List String) : TransitionRule where
  legal := true
  targetPhase := targetPhase
  emits := emits
  prerequisites := first :: rest
  legal_named := by simp
  illegal_empty := by simp

end TransitionRule

open TransitionRule in
/-- `REDUCER_TRANSITION_MATRIX`: the cells of one phase, then the rows that every
active phase shares.  A pair without a cell is refused. -/
def transitionMatrix (phase : RunPhase) (signal : ReducerSignal) : TransitionRule :=
  match phase, signal with
  | .admitted, .runStarted | .admitted, .timerElapsed =>
      admitting (some .claiming) [.claimIssue] "the Issue's dependency wave is open"
        ["every earlier wave Issue reached delivered terminality"]
  | .claiming, .claimSucceeded =>
      admitting (some .launching) [.launchWorker]
        "claim_issue succeeded with a truthful ready-to-claimed readback" []
  | .launching, .workerLaunched =>
      admitting (some .working) []
        "launch_worker succeeded for the authorized invocation identity" []
  | .working, .workerResultRecorded =>
      admitting none [.awaitCi] "the worker result resolves the full pack/invocation/effect chain"
        ["the result names the launch effect this run authorized",
          "the result repeats the reducer-authorized pull-request identity"]
  | .awaitingCi, .checksPassed =>
      admitting (some .awaitingReview) [.requestReview]
        "await_ci succeeded at the authorized pull request and exact head" []
  | .awaitingReview, .reviewRecorded =>
      admitting (some .awaitingReview) []
        "request_review succeeded; the structured verdict is still pending" []
  | .awaitingReview, .reviewResultRecorded =>
      admitting none [.mergePullRequest, .recordKnownDefect]
        "the structured verdict binds the authorized pull request and head"
        ["severity routing resolves from the verdict, never from prose"]
  | .recordingDefect, .knownDefectRecorded =>
      admitting (some .merging) [.mergePullRequest]
        "record_known_defect succeeded for the exact registry and finding" []
  | .merging, .mergeSucceeded =>
      admitting (some .closing) [.closeIssue]
        "merge_pull_request succeeded at the authorized exact head" []
  | .closing, .closureSucceeded =>
      admitting (some .recordingReceipt) [.recordDeliveryReceipt]
        "close_issue succeeded with an observed closed Issue" []
  | .recordingReceipt, .receiptRecorded =>
      admitting (some .delivered) [] "record_delivery_receipt succeeded"
        ["the bound acceptance profile is satisfied by lower-level evidence"]
  | phase, .effectFailed =>
      if phase.isTerminal then refused
      else
        admitting none [] "the failed effect resolves its exact idempotency and outcome keys"
          ["the failed effect names the authorized pull request and head",
            "only a red required check awaited in awaiting_ci defers to repair"]
  | phase, .authorityChanged =>
      if phase.isTerminal then refused
      else
        admitting none []
          "the observed authority change resolves against the immutable plan" []
  | phase, .exceptionRecorded =>
      if phase.isTerminal then refused
      else
        admitting none []
          "the typed exception kind selects owner-decision, system-block, or block" []
  | phase, .timerElapsed =>
      if phase.isTerminal then refused
      else
        admitting (some phase) []
          "a timer tick re-derives due effects and never invents evidence" []
  | _, _ => refused

/-- The one phase in which a signal that moves a single Issue forward is legal. -/
def ReducerSignal.homePhase : ReducerSignal → Option RunPhase
  | .claimSucceeded => some .claiming
  | .workerLaunched => some .launching
  | .workerResultRecorded => some .working
  | .checksPassed => some .awaitingCi
  | .reviewRecorded | .reviewResultRecorded => some .awaitingReview
  | .knownDefectRecorded => some .recordingDefect
  | .mergeSucceeded => some .merging
  | .closureSucceeded => some .closing
  | .receiptRecorded => some .recordingReceipt
  | .runStarted => some .admitted
  | _ => none

/-- Whether a signal is admitted in a phase: in its own phase if it has one, and
otherwise in every active phase. -/
def ReducerSignal.admittedIn (signal : ReducerSignal) (phase : RunPhase) : Bool :=
  match signal.homePhase with
  | some home => phase == home
  | none => !phase.isTerminal

/-- **What the matrix admits.** -/
theorem transitionMatrix_legal (phase : RunPhase) (s : ReducerSignal) :
    (transitionMatrix phase s).legal = s.admittedIn phase := by
  cases phase <;> cases s <;> rfl

/-! ### Proposals, ledgers and run state -/

/-- A next-effect decision.  It performs nothing. -/
structure EffectProposal where
  effectClass : EffectClass
  issue : IssueScope
  expectedAuthorities : List AuthoritySnapshot
  pullRequestNumber : Option ℕ := none
  exactHeadSha : Option String := none
  knownDefectRegistryRef : Option String := none
  knownDefectFindingHash : Option String := none
  deriving DecidableEq, Repr, Inhabited

/-- One effect a run authorised, and the last outcome it observed. -/
structure EffectLedgerEntry where
  effectClass : EffectClass
  idempotencyKey : String
  outcomeKeys : List String
  outcomeState : Option EffectOutcomeState := none
  proposal : Option EffectProposal := none
  deriving DecidableEq, Repr, Inhabited

/-- A failure that proves nothing was committed. -/
def EffectLedgerEntry.isResolvedUncommitted (e : EffectLedgerEntry) : Bool :=
  e.outcomeState == some .failed && failureProvesUncommitted e.effectClass

/-- The delivery state of one Issue inside a run. -/
structure IssueRunState where
  issue : IssueScope
  waveIndex : ℕ
  currentAuthority : AuthoritySnapshot
  phase : RunPhase := .admitted
  authorizedPullRequest : Option ℕ := none
  authorizedHeadSha : Option String := none
  authorizedInvocationEffectKey : Option String := none
  pendingKnownDefectRef : Option String := none
  pendingKnownDefectFindingHash : Option String := none
  acceptanceEvidence : List AcceptanceEvidenceKind := []
  effectLedger : List EffectLedgerEntry := []
  blockedReason : Option String := none
  deriving DecidableEq, Repr, Inhabited

namespace IssueRunState

def scopeKey (it : IssueRunState) : String × ℕ := it.issue.scopeKey

/-- Authorised effects whose external state is committed or unknown. -/
def unreconciledEffects (it : IssueRunState) : List EffectLedgerEntry :=
  it.effectLedger.filter fun e => !e.isResolvedUncommitted

end IssueRunState

/-- The immutable state of one approved delivery run. -/
structure DeliveryRunState where
  runId : String
  planRef : ContractRef
  acceptanceProfileRef : ContractRef
  acceptanceProfileHash : String
  requiredAcceptanceEvidence : List AcceptanceEvidenceKind
  requiredCheckNames : List String
  authorizedControlScopes : List String
  version : ℕ := 0
  lifecycle : LifecycleState := .active
  issues : List IssueRunState := []
  seenEventIds : List String := []
  seenCommandIds : List String := []
  supersedingInitiationRef : Option ContractRef := none
  deriving DecidableEq, Repr, Inhabited

def DeliveryRunState.issueState (s : DeliveryRunState) (key : String × ℕ) :
    Option IssueRunState :=
  s.issues.find? fun it => it.scopeKey = key

/-- The total result of one reduction step. -/
structure Reduction where
  state : DeliveryRunState
  effects : List EffectProposal := []
  refusal : Option RefusalReason := none
  obligations : List OutstandingEffectObligation := []
  deriving DecidableEq, Repr, Inhabited

inductive CommandKind
  | pause
  | resume
  | cancel
  | supersede
  deriving DecidableEq, Repr, Inhabited

def CommandKind.text : CommandKind → String
  | .pause => "pause"
  | .resume => "resume"
  | .cancel => "cancel"
  | .supersede => "supersede"

/-- A typed, authenticated, version-fenced lifecycle control command. -/
structure LifecycleCommand where
  command : CommandKind
  commandId : String
  runId : String
  expectedRunVersion : ℕ
  issuedBy : ActorIdentity
  issuedAt : String
  supersedingInitiationRef : Option ContractRef := none
  deriving DecidableEq, Repr, Inhabited

end AgenticPkm.Builderops
