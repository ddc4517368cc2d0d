import AgenticPkm.Builderops.Reducer.Admission

/-!
# The reduction of one event

`reduce_delivery_run` and everything it calls.  A handler decides what an event
does to the Issue it is about: it refuses, or it names the updated Issue and the
effects to propose.  `advance` then ledgers the proposals and moves the run on.

Source code that may raise is an `Except String` computation here; `AssertionError`
is the message of an `assert`.
-/

namespace AgenticPkm.Builderops

/-! ### Effect identity and ledgers -/

/-- The derived canonical identity of one proposed effect. -/
structure EffectIdentity where
  inputHash : String
  idempotencyKey : String
  outcomeKeys : List String
  deriving DecidableEq, Repr, Inhabited

/-- The semantic input of a proposal with the given outcome keys. -/
def EffectProposal.semanticInput (state : DeliveryRunState) (proposal : EffectProposal)
    (outcomeKeys : List String) : Json :=
  deliveryEffectInput state.runId state.planRef proposal.effectClass proposal.issue
    proposal.pullRequestNumber proposal.exactHeadSha proposal.expectedAuthorities outcomeKeys
    proposal.knownDefectRegistryRef proposal.knownDefectFindingHash

def EffectProposal.outcomeKeys (state : DeliveryRunState) (proposal : EffectProposal) :
    Except String (List String) :=
  deliveryEffectExpectedOutcomeKeys proposal.effectClass state.runId proposal.issue
    proposal.pullRequestNumber state.requiredCheckNames proposal.knownDefectRegistryRef
    proposal.knownDefectFindingHash

def proposalEffectIdentity (hash : Json → String) (state : DeliveryRunState)
    (proposal : EffectProposal) : Except String EffectIdentity := do
  let outcomeKeys ← proposal.outcomeKeys state
  let inputHash := hash (proposal.semanticInput state outcomeKeys)
  pure
    { inputHash := inputHash
      idempotencyKey := deliveryEffectIdempotencyKey inputHash
      outcomeKeys := outcomeKeys }

def replaceIssue (issues : List IssueRunState) (updated : IssueRunState) : List IssueRunState :=
  replaceBy IssueRunState.scopeKey updated issues

/-- The entry of a freshly authorised proposal. -/
def EffectIdentity.entry (identity : EffectIdentity) (proposal : EffectProposal) :
    EffectLedgerEntry where
  effectClass := proposal.effectClass
  idempotencyKey := identity.idempotencyKey
  outcomeKeys := identity.outcomeKeys
  proposal := some proposal

def ledgerEntry (ledger : List EffectLedgerEntry) (key : String) : Option EffectLedgerEntry :=
  ledger.find? fun e => e.idempotencyKey = key

/-- One round of `_record_authorizations`.  A key that is already ledgered stays
as it is, unless its last attempt truthfully failed. -/
def recordAuthorization (hash : Json → String) (state : DeliveryRunState)
    (issues : List IssueRunState) (proposal : EffectProposal) :
    Except String (List IssueRunState) :=
  match issues.find? fun it => it.scopeKey = proposal.issue.scopeKey with
  | none => pure issues
  | some issueState => do
      let identity ← proposalEffectIdentity hash state proposal
      let reopened := replaceIssue issues
        { issueState with
          effectLedger := upsertBy EffectLedgerEntry.idempotencyKey (identity.entry proposal)
            issueState.effectLedger }
      match ledgerEntry issueState.effectLedger identity.idempotencyKey with
      | none => pure reopened
      | some existing => pure (if !existing.isResolvedUncommitted then issues else reopened)

def recordAuthorizations (hash : Json → String) (state : DeliveryRunState) :
    List IssueRunState → List EffectProposal → Except String (List IssueRunState)
  | issues, [] => pure issues
  | issues, proposal :: proposals => do
      let updated ← recordAuthorization hash state issues proposal
      recordAuthorizations hash state updated proposals

variable {hash : Json → String}

/-- `_committed`: the ledger with the outcome this event reports. -/
def committed (issueState : IssueRunState) (admitted : AdmittedEvent hash) :
    List EffectLedgerEntry :=
  match admitted.effect, admitted.event.effectOutcome with
  | some effect, some outcome =>
      upsertBy EffectLedgerEntry.idempotencyKey
        { effectClass := effect.effectClass
          idempotencyKey := effect.idempotencyKey
          outcomeKeys := outcome.outcomeKeys
          outcomeState := some outcome.outcomeState
          proposal := (ledgerEntry issueState.effectLedger effect.idempotencyKey).bind
            EffectLedgerEntry.proposal }
        issueState.effectLedger
  | _, _ => issueState.effectLedger

/-! ### Advancing and refusing -/

/-- An accepted event is seen and counted, and its effects are filed. -/
def advance (hash : Json → String) (state : DeliveryRunState) (eventId : String)
    (issues : List IssueRunState) (effects : List EffectProposal) : Except String Reduction := do
  let issues ← recordAuthorizations hash state issues effects
  pure
    { state :=
        { state with
          version := state.version + 1
          issues := issues
          seenEventIds := sortedSet (state.seenEventIds ++ [eventId]) }
      effects := effects }

def refuse (state : DeliveryRunState) (reason : RefusalReason) : Reduction where
  state := state
  refusal := some reason

/-! ### Ticks and exceptions -/

/-- `_open_wave_index`: the lowest wave that still has undelivered Issues. -/
def openWaveIndex (issues : List IssueRunState) : ℕ :=
  ((issues.filter fun it => it.phase != .delivered).map IssueRunState.waveIndex).min?.getD 0

def claimProposal (it : IssueRunState) : EffectProposal where
  effectClass := .claimIssue
  issue := it.issue
  expectedAuthorities := [it.currentAuthority]

/-- One round of `_open_due_claims`. -/
def openDueClaim (openWave : ℕ) (signal : ReducerSignal)
    (opened : List IssueRunState × List EffectProposal) (it : IssueRunState) :
    List IssueRunState × List EffectProposal :=
  if it.waveIndex != openWave then opened
  else if !(transitionMatrix it.phase signal).legal then opened
  else if it.phase != .admitted then opened
  else (replaceIssue opened.1 { it with phase := .claiming }, opened.2 ++ [claimProposal it])

def openDueClaims (issues : List IssueRunState) (signal : ReducerSignal) :
    List IssueRunState × List EffectProposal :=
  issues.foldl (openDueClaim (openWaveIndex issues) signal) (issues, [])

def reduceTick (state : DeliveryRunState) (admitted : AdmittedEvent hash) :
    Except String Reduction :=
  let opened := openDueClaims state.issues admitted.signal
  advance hash state admitted.event.eventId opened.1 opened.2

/-- Issues that may not take the exception stay as they are. -/
def exceptIssue (kind : ExceptionKind) (it : IssueRunState) : IssueRunState :=
  if !(transitionMatrix it.phase .exceptionRecorded).legal then it
  else { it with phase := exceptionTarget kind, blockedReason := some kind.text }

def reduceException (state : DeliveryRunState) (admitted : AdmittedEvent hash) :
    Except String Reduction := do
  let exception ← getOrRaise admitted.event.exception "AssertionError"
  advance hash state admitted.event.eventId (state.issues.map (exceptIssue exception.kind)) []

/-! ### The handlers of a single Issue -/

/-- What a handler decides for the Issue of an event. -/
inductive IssueDecision
  | refused (reason : RefusalReason)
  | advanced (updated : IssueRunState) (effects : List EffectProposal)
  deriving DecidableEq, Repr

def withEvidence (issueState : IssueRunState) (evidence : List AcceptanceEvidenceKind) :
    List AcceptanceEvidenceKind :=
  sortedSet (issueState.acceptanceEvidence ++ evidence)

def effectEvidence (admitted : AdmittedEvent hash) : List AcceptanceEvidenceKind :=
  match admitted.event.effectOutcome with
  | none => []
  | some outcome => (acceptanceEvidenceByEffectOutcome outcome.outcomeState).toList

/-- The evidence that survives a change of head. -/
def headFreeEvidence (issueState : IssueRunState) : List AcceptanceEvidenceKind :=
  issueState.acceptanceEvidence.filter fun kind => !isHeadBoundEvidence kind

def authorityOf (admitted : AdmittedEvent hash) (issueState : IssueRunState) :
    AuthoritySnapshot :=
  admitted.event.subjectAuthority.getD issueState.currentAuthority

def authorizedTargetMatches (issueState : IssueRunState) (admitted : AdmittedEvent hash) : Bool :=
  match admitted.effect with
  | none => false
  | some effect =>
      effect.exactHeadSha == issueState.authorizedHeadSha &&
        effect.pullRequestNumber == issueState.authorizedPullRequest

def targetProposal (effectClass : EffectClass) (authority : AuthoritySnapshot)
    (issueState : IssueRunState) : EffectProposal where
  effectClass := effectClass
  issue := issueState.issue
  expectedAuthorities := [authority]
  pullRequestNumber := issueState.authorizedPullRequest
  exactHeadSha := issueState.authorizedHeadSha

/-- An outcome at the authorised target: record it, keep its evidence, move to the
next phase and propose the next effect. -/
def advanceOutcome (phase : RunPhase) (next : EffectClass) (admitted : AdmittedEvent hash)
    (issueState : IssueRunState) : IssueDecision :=
  .advanced
    { issueState with
      phase := phase
      acceptanceEvidence := withEvidence issueState (effectEvidence admitted)
      effectLedger := committed issueState admitted
      currentAuthority := authorityOf admitted issueState }
    [targetProposal next (authorityOf admitted issueState) issueState]

/-- The same behind the fence of the authorised target. -/
def reduceOutcome (phase : RunPhase) (next : EffectClass) (admitted : AdmittedEvent hash)
    (issueState : IssueRunState) : IssueDecision :=
  if !authorizedTargetMatches issueState admitted then .refused .headEvidenceConflict
  else advanceOutcome phase next admitted issueState

def reduceClaimSucceeded (admitted : AdmittedEvent hash) (issueState : IssueRunState) :
    IssueDecision :=
  let authority := authorityOf admitted issueState
  .advanced
    { issueState with
      phase := .launching
      currentAuthority := authority
      effectLedger := committed issueState admitted }
    [{ effectClass := .launchWorker
       issue := issueState.issue
       expectedAuthorities := [authority] }]

def reduceWorkerLaunched (admitted : AdmittedEvent hash) (issueState : IssueRunState) :
    Except String IssueDecision := do
  let effect ← getOrRaise admitted.effect "AssertionError"
  pure (.advanced
    { issueState with
      phase := .working
      currentAuthority := authorityOf admitted issueState
      authorizedInvocationEffectKey := some effect.idempotencyKey
      effectLedger := committed issueState admitted } [])

/-- A completed worker result at a pull request and head. -/
def admitWorkerHead (admitted : AdmittedEvent hash) (issueState : IssueRunState)
    (pullRequest : ℕ) (head : String) : IssueDecision :=
  let authority := authorityOf admitted issueState
  .advanced
    { issueState with
      phase := .awaitingCi
      authorizedPullRequest := some pullRequest
      authorizedHeadSha := some head
      acceptanceEvidence :=
        if some head != issueState.authorizedHeadSha then headFreeEvidence issueState
        else issueState.acceptanceEvidence
      currentAuthority := authority }
    [{ effectClass := .awaitCi
       issue := issueState.issue
       expectedAuthorities := [authority]
       pullRequestNumber := some pullRequest
       exactHeadSha := some head }]

def reduceWorkerResult (admitted : AdmittedEvent hash) (issueState : IssueRunState) :
    Except String IssueDecision := do
  let result ← getOrRaise admitted.workerResult "AssertionError"
  if issueState.authorizedInvocationEffectKey != some result.effectRef.contractId then
    pure (.refused .illegalTransition)
  else if result.deliveryResult.status != .completed then
    pure (.advanced
      { issueState with
        phase := .blocked
        blockedReason := some ("worker_" ++ result.deliveryResult.status.text) } [])
  else
    match result.exactHeadSha, result.pullRequestNumber with
    | some head, some pullRequest =>
        if issueState.authorizedPullRequest.any fun authorized => pullRequest != authorized then
          pure (.refused .pullRequestIdentityConflict)
        else
          pure (admitWorkerHead admitted issueState pullRequest head)
    | _, _ => pure (.refused .headEvidenceConflict)

def reduceChecksPassed : AdmittedEvent hash → IssueRunState → IssueDecision :=
  reduceOutcome .awaitingReview .requestReview

def reduceReviewRecorded (admitted : AdmittedEvent hash) (issueState : IssueRunState) :
    IssueDecision :=
  if !authorizedTargetMatches issueState admitted then .refused .headEvidenceConflict
  else
    .advanced
      { issueState with
        effectLedger := committed issueState admitted
        currentAuthority := authorityOf admitted issueState } []

def blockedByReview (reason : String) (admitted : AdmittedEvent hash)
    (issueState : IssueRunState) : IssueDecision :=
  .advanced
    { issueState with
      phase := .blocked
      blockedReason := some reason
      currentAuthority := authorityOf admitted issueState } []

def acceptReview (admitted : AdmittedEvent hash) (issueState : IssueRunState) : IssueDecision :=
  .advanced
    { issueState with
      phase := .merging
      acceptanceEvidence := withEvidence issueState [.reviewAccepted]
      currentAuthority := authorityOf admitted issueState }
    [targetProposal .mergePullRequest (authorityOf admitted issueState) issueState]

/-- A verdict that defers one P2 finding waits for its durable record. -/
def deferReview (registryRef findingHash : String) (admitted : AdmittedEvent hash)
    (issueState : IssueRunState) : IssueDecision :=
  .advanced
    { issueState with
      phase := .recordingDefect
      acceptanceEvidence := withEvidence issueState [.reviewAccepted]
      pendingKnownDefectRef := some registryRef
      pendingKnownDefectFindingHash := some findingHash
      currentAuthority := authorityOf admitted issueState }
    [{ targetProposal .recordKnownDefect (authorityOf admitted issueState) issueState with
       knownDefectRegistryRef := some registryRef
       knownDefectFindingHash := some findingHash }]

def reduceReviewResult (admitted : AdmittedEvent hash) (issueState : IssueRunState) :
    Except String IssueDecision := do
  let review ← getOrRaise admitted.reviewResult "AssertionError"
  if some review.pullRequestNumber != issueState.authorizedPullRequest then
    pure (.refused .pullRequestIdentityConflict)
  else if some review.exactHeadSha != issueState.authorizedHeadSha then
    pure (.refused .headEvidenceConflict)
  else if review.disposition == .reject || review.findings.any ReviewFinding.isBlocking then
    pure (blockedByReview "review_blocking" admitted issueState)
  else if review.disposition == .accept then
    pure (acceptReview admitted issueState)
  else
    match review.deferred, review.knownDefectRefs with
    | [finding], [registryRef] =>
        pure (deferReview registryRef (hash finding.toJson) admitted issueState)
    | _, _ =>
        pure (blockedByReview "review_disposition_not_one_deferred_p2" admitted issueState)

def reduceKnownDefectRecorded (admitted : AdmittedEvent hash) (issueState : IssueRunState) :
    Except String IssueDecision :=
  if !authorizedTargetMatches issueState admitted then
    pure (.refused .headEvidenceConflict)
  else do
    let effect ← getOrRaise admitted.effect "AssertionError"
    if effect.knownDefectRegistryRef != issueState.pendingKnownDefectRef ||
        effect.knownDefectFindingHash != issueState.pendingKnownDefectFindingHash then
      pure (.refused .illegalTransition)
    else
      pure (advanceOutcome .merging .mergePullRequest admitted issueState)

def reduceMergeSucceeded : AdmittedEvent hash → IssueRunState → IssueDecision :=
  reduceOutcome .closing .closeIssue

def reduceClosureSucceeded : AdmittedEvent hash → IssueRunState → IssueDecision :=
  reduceOutcome .recordingReceipt .recordDeliveryReceipt

/-- The receipt delivers the Issue unless evidence is missing. -/
def reduceReceiptRecorded (required : List AcceptanceEvidenceKind)
    (admitted : AdmittedEvent hash) (issueState : IssueRunState) : IssueDecision :=
  if !authorizedTargetMatches issueState admitted then .refused .headEvidenceConflict
  else
    let observed := withEvidence issueState (effectEvidence admitted)
    let unmet := required.filter fun kind => !observed.contains kind
    let recorded :=
      { issueState with
        effectLedger := committed issueState admitted
        acceptanceEvidence := observed
        currentAuthority := authorityOf admitted issueState }
    if !unmet.isEmpty then
      .advanced
        { recorded with
          phase := .blocked
          blockedReason := some ("acceptance_evidence_unmet:" ++
            String.intercalate "," (unmet.map AcceptanceEvidenceKind.text)) } []
    else
      .advanced { recorded with phase := .delivered } []

/-- Failed checks are to be repaired; any other failure blocks. -/
def reduceEffectFailed (admitted : AdmittedEvent hash) (issueState : IssueRunState) :
    Except String IssueDecision := do
  let effect ← getOrRaise admitted.effect "AssertionError"
  if effect.pullRequestNumber.isSome && !authorizedTargetMatches issueState admitted then
    pure (.refused .headEvidenceConflict)
  else if effect.effectClass != .awaitCi || issueState.phase != .awaitingCi then
    pure (.advanced
      { issueState with
        phase := .blocked
        blockedReason := some ("effect_failed:" ++ effect.effectClass.text)
        effectLedger := committed issueState admitted
        currentAuthority := authorityOf admitted issueState } [])
  else
    pure (.advanced
      { issueState with
        phase := .repairing
        blockedReason := some "ci_failed_repair_deferred"
        acceptanceEvidence := headFreeEvidence issueState
        effectLedger := committed issueState admitted
        currentAuthority := authorityOf admitted issueState } [])

def reduceAuthorityChanged (admitted : AdmittedEvent hash) (issueState : IssueRunState) :
    Except String IssueDecision := do
  let observed ← getOrRaise admitted.event.subjectAuthority "AssertionError"
  if observed.contentHash != issueState.issue.contractHash then
    pure (.advanced
      { issueState with
        phase := .ownerDecision
        blockedReason := some "authority_contract_drift" } [])
  else
    pure (.advanced { issueState with currentAuthority := observed } [])

/-- `_ISSUE_HANDLERS`. -/
def issueHandler (required : List AcceptanceEvidenceKind) (admitted : AdmittedEvent hash)
    (issueState : IssueRunState) : Except String IssueDecision :=
  match admitted.signal with
  | .claimSucceeded => pure (reduceClaimSucceeded admitted issueState)
  | .workerLaunched => reduceWorkerLaunched admitted issueState
  | .workerResultRecorded => reduceWorkerResult admitted issueState
  | .checksPassed => pure (reduceChecksPassed admitted issueState)
  | .reviewRecorded => pure (reduceReviewRecorded admitted issueState)
  | .reviewResultRecorded => reduceReviewResult admitted issueState
  | .knownDefectRecorded => reduceKnownDefectRecorded admitted issueState
  | .mergeSucceeded => pure (reduceMergeSucceeded admitted issueState)
  | .closureSucceeded => pure (reduceClosureSucceeded admitted issueState)
  | .receiptRecorded => pure (reduceReceiptRecorded required admitted issueState)
  | .effectFailed => reduceEffectFailed admitted issueState
  | .authorityChanged => reduceAuthorityChanged admitted issueState
  | .runStarted | .timerElapsed | .exceptionRecorded => .error "KeyError"

/-! ### The reducer -/

def isAuthorizedEffect (issueState : IssueRunState) (effect : ReducerEffect) : Bool :=
  issueState.effectLedger.any fun e =>
    e.idempotencyKey == effect.idempotencyKey && e.effectClass == effect.effectClass

def concludeIssue (state : DeliveryRunState) (admitted : AdmittedEvent hash) :
    IssueDecision → Except String Reduction
  | .refused reason => pure (refuse state reason)
  | .advanced updated effects =>
      advance hash state admitted.event.eventId (replaceIssue state.issues updated) effects

def reduceIssueEvent (state : DeliveryRunState) (admitted : AdmittedEvent hash) :
    Except String Reduction :=
  match admitted.subjectIssue with
  | none => pure (refuse state .illegalTransition)
  | some issue =>
      match state.issueState issue.scopeKey with
      | none => pure (refuse state .foreignRun)
      | some issueState =>
          if !(transitionMatrix issueState.phase admitted.signal).legal then
            pure (refuse state .illegalTransition)
          else if admitted.effect.any fun effect => !isAuthorizedEffect issueState effect then
            pure (refuse state .unauthorizedEffect)
          else do
            let decision ← issueHandler state.requiredAcceptanceEvidence admitted issueState
            concludeIssue state admitted decision

/-- The refusals that do not depend on an Issue. -/
def eventGate (state : DeliveryRunState) (event : ReducerEvent) : Option RefusalReason :=
  if event.runId != state.runId then some .foreignRun
  else if state.lifecycle.isTerminated then some .terminalRun
  else if state.lifecycle == .paused then some .pausedRun
  else if state.seenEventIds.contains event.eventId then some .duplicateEvent
  else if event.planRef != state.planRef then some .stalePlanBinding
  else none

def reduceDeliveryRun (state : DeliveryRunState) (admitted : AdmittedEvent hash) :
    Except String Reduction :=
  match eventGate state admitted.event with
  | some reason => pure (refuse state reason)
  | none =>
      if admitted.signal.isTick then reduceTick state admitted
      else if admitted.signal == .exceptionRecorded then reduceException state admitted
      else reduceIssueEvent state admitted

end AgenticPkm.Builderops
