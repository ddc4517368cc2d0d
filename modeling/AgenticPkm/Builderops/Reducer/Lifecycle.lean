import AgenticPkm.Builderops.Reducer.Reduce

/-!
# Lifecycle commands and the ends of a run

The initial state of a run, the lifecycle commands that pause, resume and end it,
the obligations a terminated run leaves behind, and the two functions that read a
run: terminal delivery and the materialisation of a proposal.
-/

namespace AgenticPkm.Builderops

/-! ### The initial state -/

def DeliveryPlan.scopedWaves (plan : DeliveryPlan) : List ((String × ℕ) × ℕ) :=
  plan.dependencyWaves.flatMap fun wave =>
    wave.issues.map fun issue => (issue.scopeKey, wave.waveIndex)

def initialIssue (plan : DeliveryPlan) (issue : IssueScope) : Except String IssueRunState :=
  match lastBy AuthoritySnapshot.authorityId issue.authorityId plan.inputAuthorities,
    lastBy Prod.fst issue.scopeKey plan.scopedWaves with
  | some planned, some wave =>
      pure { issue := issue, waveIndex := wave.2, currentAuthority := planned }
  | _, _ => .error "plan scope must bind one dependency wave and one input authority"

def initialDeliveryRunState (hash : Json → String) (runId : String) (plan : DeliveryPlan)
    (profile : DeliveryAcceptanceProfile) (authorizedControlScopes : List String) :
    Except String DeliveryRunState := do
  raiseIf authorizedControlScopes.isEmpty "a run must bind at least one lifecycle control scope"
  let issues ← collectAll (initialIssue plan) plan.finalScope
  pure
    { runId := runId
      planRef := plan.ref hash
      acceptanceProfileRef :=
        { schemaVersion := deliveryAcceptanceProfileVersion
          contractId := profile.profileId
          contentHash := profile.contentHash hash }
      acceptanceProfileHash := profile.contentHash hash
      requiredAcceptanceEvidence := profile.requiredEvidence
      requiredCheckNames := plan.policyProfile.requiredCheckNames
      authorizedControlScopes := sortedSet authorizedControlScopes
      issues := sortedBy (fun it => it.issue.sortKey) issues }

/-! ### Obligations and pending effects -/

/-- The obligation a ledger entry leaves. -/
def EffectLedgerEntry.obligation (e : EffectLedgerEntry) : OutstandingEffectObligation where
  effectClass := e.effectClass
  effectIdempotencyKey := e.idempotencyKey
  outcomeKeys := sortedBy id e.outcomeKeys
  lastObservedOutcomeState := e.outcomeState

def DeliveryRunState.unreconciledEffects (s : DeliveryRunState) : List EffectLedgerEntry :=
  s.issues.flatMap IssueRunState.unreconciledEffects

def obligationRecords (s : DeliveryRunState) : List EffectLedgerEntry :=
  dictBy EffectLedgerEntry.idempotencyKey s.unreconciledEffects

def outstandingEffectObligations (s : DeliveryRunState) :
    Except String (List OutstandingEffectObligation) := do
  let obligations := (obligationRecords s).map EffectLedgerEntry.obligation
  checkAll OutstandingEffectObligation.validate obligations
  pure obligations

def resumableEffectByPhase : RunPhase → Option EffectClass
  | .claiming => some .claimIssue
  | .awaitingCi => some .awaitCi
  | .awaitingReview => some .requestReview
  | .recordingDefect => some .recordKnownDefect
  | .merging => some .mergePullRequest
  | .closing => some .closeIssue
  | .recordingReceipt => some .recordDeliveryReceipt
  | _ => none

/-- The authorised proposal of a class whose outcome is still unknown. -/
def ledgeredProposal (effectClass : EffectClass) (it : IssueRunState) : Option EffectProposal :=
  (it.effectLedger.find? fun e =>
    e.effectClass == effectClass && e.outcomeState.isNone && e.proposal.isSome).bind
      EffectLedgerEntry.proposal

/-- The effect one Issue of a resumed run is still waiting on. -/
def pendingProposal (openWave : ℕ) (it : IssueRunState) : Option EffectProposal :=
  if it.phase.isTerminal then none
  else if it.phase == .admitted then
    if it.waveIndex == openWave then some (claimProposal it) else none
  else (resumableEffectByPhase it.phase).bind fun effectClass => ledgeredProposal effectClass it

def pendingEffectProposals (s : DeliveryRunState) : List EffectProposal :=
  s.issues.filterMap (pendingProposal (openWaveIndex s.issues))

/-! ### Lifecycle commands -/

def commandGate (s : DeliveryRunState) (c : LifecycleCommand) : Option RefusalReason :=
  if c.runId != s.runId then some .foreignRun
  else if s.seenCommandIds.contains c.commandId then some .duplicateCommand
  else if !s.authorizedControlScopes.contains c.issuedBy.authorityScope then
    some .unauthorizedCommand
  else if c.expectedRunVersion != s.version then some .staleRunVersion
  else if s.lifecycle.isTerminated then some .terminalRun
  else if c.command == .supersede && c.supersedingInitiationRef.isNone then
    some .unauthorizedCommand
  else if c.command != .supersede && c.supersedingInitiationRef.isSome then
    some .unauthorizedCommand
  else if c.command == .pause && s.lifecycle != .active then some .illegalTransition
  else if c.command == .resume && s.lifecycle != .paused then some .illegalTransition
  else none

def commandState (s : DeliveryRunState) (c : LifecycleCommand) (lifecycle : LifecycleState) :
    DeliveryRunState :=
  { s with
    version := s.version + 1
    lifecycle := lifecycle
    seenCommandIds := sortedSet (s.seenCommandIds ++ [c.commandId]) }

/-- Resume authorises effects without reducing an event, so it ledgers them. -/
def resumeRun (hash : Json → String) (resumed : DeliveryRunState) : Except String Reduction := do
  let proposals := pendingEffectProposals resumed
  let issues ← recordAuthorizations hash resumed resumed.issues proposals
  pure { state := { resumed with issues := issues }, effects := proposals }

def terminateIssue (phase : RunPhase) (command : CommandKind) (it : IssueRunState) :
    IssueRunState :=
  if it.phase.isTerminal then it
  else { it with phase := phase, blockedReason := some command.text }

/-- A terminating command: end every active Issue and report the obligations. -/
def terminateRun (s : DeliveryRunState) (c : LifecycleCommand) (lifecycle : LifecycleState)
    (phase : RunPhase) : Except String Reduction := do
  let obligations ← outstandingEffectObligations s
  pure
    { state :=
        { commandState s c lifecycle with
          issues := s.issues.map (terminateIssue phase c.command)
          supersedingInitiationRef := c.supersedingInitiationRef }
      obligations := obligations }

def reduceLifecycleCommand (hash : Json → String) (s : DeliveryRunState)
    (c : LifecycleCommand) : Except String Reduction :=
  match commandGate s c with
  | some reason => pure (refuse s reason)
  | none =>
      match c.command with
      | .pause => pure { state := commandState s c .paused }
      | .resume => resumeRun hash (commandState s c .active)
      | .cancel => terminateRun s c .cancelled .cancelled
      | .supersede => terminateRun s c .superseded .superseded

/-! ### Reading a run -/

def resolveTerminalDelivery (hash : Json → String) (s : DeliveryRunState) (issue : IssueScope)
    (profile : DeliveryAcceptanceProfile) :
    Except String (Bool × List AcceptanceEvidenceKind) := do
  raiseIf (profile.contentHash hash != s.acceptanceProfileHash)
    "acceptance profile does not match the immutable run binding"
  let issueState ← getOrRaise (s.issueState issue.scopeKey)
    "Issue is outside the run's bound scope"
  let unmet := profile.unmetEvidence issueState.acceptanceEvidence
  pure (unmet.isEmpty && issueState.phase == .delivered, unmet)

def proposedEffect (state : DeliveryRunState) (proposal : EffectProposal)
    (identity : EffectIdentity) (causalEvent : ReducerEvent) (sequence : ℕ)
    (provenance : Provenance) : ReducerEffect where
  effectId := identity.idempotencyKey
  runId := state.runId
  planRef := state.planRef
  causalEvent := causalEvent
  sequence := sequence
  effectClass := proposal.effectClass
  issue := proposal.issue
  pullRequestNumber := proposal.pullRequestNumber
  exactHeadSha := proposal.exactHeadSha
  expectedAuthorities := proposal.expectedAuthorities
  expectedOutcomeKeys := identity.outcomeKeys
  knownDefectRegistryRef := proposal.knownDefectRegistryRef
  knownDefectFindingHash := proposal.knownDefectFindingHash
  idempotencyKey := identity.idempotencyKey
  inputHash := identity.inputHash
  provenance := provenance

def materializeEffect (hash : Json → String) (proposal : EffectProposal)
    (state : DeliveryRunState) (plan : DeliveryPlan) (causalEvent : ReducerEvent)
    (sequence : ℕ) (provenance : Provenance) (log : EvidenceLog) :
    Except String ReducerEffect := do
  raiseIf (state.planRef.contractId != plan.planId)
    "effect materialization must use the run's bound plan"
  raiseIf (plan.policyProfile.requiredCheckNames != state.requiredCheckNames)
    "effect materialization must use the run's bound required checks"
  let identity ← proposalEffectIdentity hash state proposal
  let effect := proposedEffect state proposal identity causalEvent sequence provenance
  effect.validateNew hash
  validateReducerEffectEvidence hash plan effect log
  pure effect

end AgenticPkm.Builderops
