import AgenticPkm.Builderops.Reducer.Ledger
import AgenticPkm.Builderops.Reducer.Run

/-!
# What the handlers do

`Handled` says, handler by handler, what an accepted event does to the Issue it is
about, which effects it proposes, and what the event is then known to carry.  It
joins the code of the handlers with what admission establishes, so that proofs
about runs look at neither.
-/

namespace AgenticPkm.Builderops

variable {hash : Json → String}

/-! ### The cases -/

/-- An event reports an effect of the Issue, one that its ledger holds. -/
structure Reports (plan : DeliveryPlan) (a : AdmittedEvent hash) (it : IssueRunState)
    (effect : ReducerEffect) (outcome : EffectOutcomeEvidence) (subject : AuthoritySnapshot) :
    Prop extends EffectReport hash plan a.toAdmission effect outcome subject where
  own : effect.issue = it.issue
  ledgered : ∃ e ∈ it.effectLedger,
    e.idempotencyKey = effect.idempotencyKey ∧ e.effectClass = effect.effectClass

/-- An effect names the pull request and head the Issue is authorised for. -/
def AtTarget (effect : ReducerEffect) (it : IssueRunState) : Prop :=
  effect.pullRequestNumber = it.authorizedPullRequest ∧
    effect.exactHeadSha = it.authorizedHeadSha

/-- The outcomes that move an Issue on: the class reported, the phase it is awaited
in, the phase that follows and the effect that is proposed next. -/
inductive OutcomeStep : EffectClass → RunPhase → RunPhase → EffectClass → Prop
  | checks : OutcomeStep .awaitCi .awaitingCi .awaitingReview .requestReview
  | defect : OutcomeStep .recordKnownDefect .recordingDefect .merging .mergePullRequest
  | merge : OutcomeStep .mergePullRequest .merging .closing .closeIssue
  | closure : OutcomeStep .closeIssue .closing .recordingReceipt .recordDeliveryReceipt

variable {effectClass : EffectClass}

theorem OutcomeStep.next_ne {next : EffectClass} {ph ph' : RunPhase}
    (h : OutcomeStep effectClass ph ph' next) : next ≠ .recordKnownDefect := by
  cases h <;> decide

/-- The phase in which the success of an effect of each class is awaited. -/
def EffectClass.awaitedPhase : EffectClass → RunPhase
  | .claimIssue => .claiming
  | .launchWorker => .launching
  | .awaitCi => .awaitingCi
  | .requestReview => .awaitingReview
  | .recordKnownDefect => .recordingDefect
  | .mergePullRequest => .merging
  | .closeIssue => .closing
  | .recordDeliveryReceipt => .recordingReceipt

theorem successSignal_admittedIn_iff {ph : RunPhase} :
    effectClass.successSignal.admittedIn ph ↔ ph = effectClass.awaitedPhase := by
  cases effectClass <;>
    simp [EffectClass.successSignal, ReducerSignal.admittedIn, ReducerSignal.homePhase,
      EffectClass.awaitedPhase]

def launchProposal (subject : AuthoritySnapshot) (it : IssueRunState) : EffectProposal where
  effectClass := .launchWorker
  issue := it.issue
  expectedAuthorities := [subject]

def awaitProposal (subject : AuthoritySnapshot) (pullRequest : ℕ) (head : String)
    (it : IssueRunState) : EffectProposal where
  effectClass := .awaitCi
  issue := it.issue
  expectedAuthorities := [subject]
  pullRequestNumber := some pullRequest
  exactHeadSha := some head

def defectProposal (subject : AuthoritySnapshot) (registryRef findingHash : String)
    (it : IssueRunState) : EffectProposal where
  effectClass := .recordKnownDefect
  issue := it.issue
  expectedAuthorities := [subject]
  pullRequestNumber := it.authorizedPullRequest
  exactHeadSha := it.authorizedHeadSha
  knownDefectRegistryRef := some registryRef
  knownDefectFindingHash := some findingHash

/-- An Issue after an outcome: recorded, with its evidence and authority. -/
def afterOutcome (phase : RunPhase) (effect : ReducerEffect) (outcome : EffectOutcomeEvidence)
    (subject : AuthoritySnapshot) (it : IssueRunState) : IssueRunState :=
  { it with
    phase := phase
    acceptanceEvidence :=
      withEvidence it (acceptanceEvidenceByEffectOutcome outcome.outcomeState).toList
    effectLedger := recordLedger effect outcome it.effectLedger
    currentAuthority := subject }

/-- What an accepted event does to the Issue it is about, and the effects it
proposes. -/
inductive Handled (plan : DeliveryPlan) (required : List AcceptanceEvidenceKind)
    (a : AdmittedEvent hash) (it : IssueRunState) :
    IssueRunState → List EffectProposal → Prop
  | claimSucceeded (effect : ReducerEffect) (outcome : EffectOutcomeEvidence)
      (subject : AuthoritySnapshot) (report : Reports plan a it effect outcome subject)
      (type : a.event.eventType = .effectSucceeded) (phase : it.phase = .claiming)
      (class_eq : effect.effectClass = .claimIssue) :
      Handled plan required a it
        { it with
          phase := .launching
          currentAuthority := subject
          effectLedger := recordLedger effect outcome it.effectLedger }
        [launchProposal subject it]
  | workerLaunched (effect : ReducerEffect) (outcome : EffectOutcomeEvidence)
      (subject : AuthoritySnapshot) (report : Reports plan a it effect outcome subject)
      (type : a.event.eventType = .effectSucceeded) (phase : it.phase = .launching)
      (class_eq : effect.effectClass = .launchWorker) :
      Handled plan required a it
        { it with
          phase := .working
          currentAuthority := subject
          authorizedInvocationEffectKey := some effect.idempotencyKey
          effectLedger := recordLedger effect outcome it.effectLedger } []
  | workerBlocked (result : WorkerResultV2) (phase : it.phase = .working)
      (status : result.deliveryResult.status ≠ .completed)
      (type : a.event.eventType = .workerResultRecorded) :
      Handled plan required a it
        { it with
          phase := .blocked
          blockedReason := some ("worker_" ++ result.deliveryResult.status.text) } []
  | workerCompleted (result : WorkerResultV2) (subject : AuthoritySnapshot) (pullRequest : ℕ)
      (head : String) (result_eq : a.workerResult = some result)
      (subject_eq : a.event.subjectAuthority = some subject)
      (valid : result.validate = .ok ()) (own : result.issue = it.issue)
      (phase : it.phase = .working) (type : a.event.eventType = .workerResultRecorded)
      (launch : it.authorizedInvocationEffectKey = some result.effectRef.contractId)
      (status : result.deliveryResult.status = .completed)
      (pullRequest_eq : result.pullRequestNumber = some pullRequest)
      (head_eq : result.exactHeadSha = some head)
      (same : ∀ n, it.authorizedPullRequest = some n → n = pullRequest) :
      Handled plan required a it
        { it with
          phase := .awaitingCi
          authorizedPullRequest := some pullRequest
          authorizedHeadSha := some head
          acceptanceEvidence :=
            if some head != it.authorizedHeadSha then headFreeEvidence it
            else it.acceptanceEvidence
          currentAuthority := subject }
        [awaitProposal subject pullRequest head it]
  | outcome (effect : ReducerEffect) (outcome : EffectOutcomeEvidence)
      (subject : AuthoritySnapshot) (phase : RunPhase) (next : EffectClass)
      (report : Reports plan a it effect outcome subject)
      (type : a.event.eventType = .effectSucceeded)
      (step : OutcomeStep effect.effectClass it.phase phase next)
      (target : AtTarget effect it)
      (defect : effect.effectClass = .recordKnownDefect →
        effect.knownDefectRegistryRef = it.pendingKnownDefectRef ∧
          effect.knownDefectFindingHash = it.pendingKnownDefectFindingHash) :
      Handled plan required a it (afterOutcome phase effect outcome subject it)
        [targetProposal next subject it]
  | reviewRecorded (effect : ReducerEffect) (outcome : EffectOutcomeEvidence)
      (subject : AuthoritySnapshot) (report : Reports plan a it effect outcome subject)
      (type : a.event.eventType = .effectSucceeded) (phase : it.phase = .awaitingReview)
      (class_eq : effect.effectClass = .requestReview) (target : AtTarget effect it) :
      Handled plan required a it
        { it with
          effectLedger := recordLedger effect outcome it.effectLedger
          currentAuthority := subject } []
  | reviewBlocked (subject : AuthoritySnapshot) (reason : String)
      (phase : it.phase = .awaitingReview) (type : a.event.eventType = .reviewResultRecorded) :
      Handled plan required a it
        { it with
          phase := .blocked
          blockedReason := some reason
          currentAuthority := subject } []
  | reviewAccepted (result : ReviewResult) (subject : AuthoritySnapshot)
      (result_eq : a.reviewResult = some result)
      (subject_eq : a.event.subjectAuthority = some subject)
      (valid : result.validate = .ok ()) (own : result.issue = it.issue)
      (phase : it.phase = .awaitingReview) (type : a.event.eventType = .reviewResultRecorded)
      (pullRequest_eq : it.authorizedPullRequest = some result.pullRequestNumber)
      (head_eq : it.authorizedHeadSha = some result.exactHeadSha)
      (disposition : result.disposition = .accept)
      (unblocked : result.findings.any ReviewFinding.isBlocking = false) :
      Handled plan required a it
        { it with
          phase := .merging
          acceptanceEvidence := withEvidence it [.reviewAccepted]
          currentAuthority := subject }
        [targetProposal .mergePullRequest subject it]
  | reviewDeferred (result : ReviewResult) (subject : AuthoritySnapshot)
      (finding : ReviewFinding) (registryRef : String)
      (result_eq : a.reviewResult = some result)
      (subject_eq : a.event.subjectAuthority = some subject)
      (valid : result.validate = .ok ()) (own : result.issue = it.issue)
      (phase : it.phase = .awaitingReview) (type : a.event.eventType = .reviewResultRecorded)
      (pullRequest_eq : it.authorizedPullRequest = some result.pullRequestNumber)
      (head_eq : it.authorizedHeadSha = some result.exactHeadSha)
      (disposition : result.disposition = .acceptWithRisk)
      (unblocked : result.findings.any ReviewFinding.isBlocking = false)
      (deferred : result.deferred = [finding])
      (registry : result.knownDefectRefs = [registryRef]) :
      Handled plan required a it
        { it with
          phase := .recordingDefect
          acceptanceEvidence := withEvidence it [.reviewAccepted]
          pendingKnownDefectRef := some registryRef
          pendingKnownDefectFindingHash := some (hash finding.toJson)
          currentAuthority := subject }
        [defectProposal subject registryRef (hash finding.toJson) it]
  | delivered (effect : ReducerEffect) (outcome : EffectOutcomeEvidence)
      (subject : AuthoritySnapshot) (report : Reports plan a it effect outcome subject)
      (type : a.event.eventType = .effectSucceeded) (phase : it.phase = .recordingReceipt)
      (class_eq : effect.effectClass = .recordDeliveryReceipt) (target : AtTarget effect it)
      (met : ∀ kind ∈ required, kind ∈ it.acceptanceEvidence) :
      Handled plan required a it (afterOutcome .delivered effect outcome subject it) []
  | unmet (effect : ReducerEffect) (outcome : EffectOutcomeEvidence)
      (subject : AuthoritySnapshot) (reason : String)
      (report : Reports plan a it effect outcome subject)
      (type : a.event.eventType = .effectSucceeded) (phase : it.phase = .recordingReceipt)
      (class_eq : effect.effectClass = .recordDeliveryReceipt) (target : AtTarget effect it) :
      Handled plan required a it
        { afterOutcome .blocked effect outcome subject it with blockedReason := some reason } []
  | effectFailed (effect : ReducerEffect) (outcome : EffectOutcomeEvidence)
      (subject : AuthoritySnapshot) (report : Reports plan a it effect outcome subject)
      (type : a.event.eventType = .effectFailed) (active : it.phase.isTerminal = false)
      (target : effect.pullRequestNumber.isSome = true → AtTarget effect it) :
      Handled plan required a it
        { it with
          phase := .blocked
          blockedReason := some ("effect_failed:" ++ effect.effectClass.text)
          effectLedger := recordLedger effect outcome it.effectLedger
          currentAuthority := subject } []
  | ciFailed (effect : ReducerEffect) (outcome : EffectOutcomeEvidence)
      (subject : AuthoritySnapshot) (report : Reports plan a it effect outcome subject)
      (type : a.event.eventType = .effectFailed) (phase : it.phase = .awaitingCi)
      (class_eq : effect.effectClass = .awaitCi)
      (target : effect.pullRequestNumber.isSome = true → AtTarget effect it) :
      Handled plan required a it
        { it with
          phase := .repairing
          blockedReason := some "ci_failed_repair_deferred"
          acceptanceEvidence := headFreeEvidence it
          effectLedger := recordLedger effect outcome it.effectLedger
          currentAuthority := subject } []
  | contractDrift (subject : AuthoritySnapshot)
      (subject_eq : a.event.subjectAuthority = some subject)
      (type : a.event.eventType = .authorityChanged) (active : it.phase.isTerminal = false) :
      Handled plan required a it
        { it with
          phase := .ownerDecision
          blockedReason := some "authority_contract_drift" } []
  | authorityChanged (subject : AuthoritySnapshot)
      (subject_eq : a.event.subjectAuthority = some subject)
      (type : a.event.eventType = .authorityChanged) (active : it.phase.isTerminal = false)
      (subject_id : subject.authorityId = it.issue.authorityId)
      (subject_hash : subject.contentHash = it.issue.contractHash) :
      Handled plan required a it { it with currentAuthority := subject } []

/-! ### The handlers -/

section Handlers

variable {plan : DeliveryPlan} {required : List AcceptanceEvidenceKind} {a : AdmittedEvent hash}
  {it updated : IssueRunState} {ps : List EffectProposal} {subject : AuthoritySnapshot}
  {effect : ReducerEffect} {outcome : EffectOutcomeEvidence} {phase : RunPhase} {next : EffectClass}

theorem authorityOf_eq (h : a.event.subjectAuthority = some subject) :
    authorityOf a it = subject := by
  simp [authorityOf, h]

theorem atTarget_of_matches (heff : a.effect = some effect)
    (h : authorizedTargetMatches it a) : AtTarget effect it := by
  simp only [authorizedTargetMatches, heff, Bool.and_eq_true, beq_iff_eq] at h
  exact ⟨h.2, h.1⟩

theorem advanceOutcome_eq (r : Reports plan a it effect outcome subject) (ph : RunPhase)
    (next : EffectClass) :
    advanceOutcome ph next a it =
      .advanced (afterOutcome ph effect outcome subject it) [targetProposal next subject it] := by
  simp only [advanceOutcome, authorityOf_eq r.subject_eq,
    committed_eq r.effect_eq r.outcome_eq, effectEvidence, r.outcome_eq]
  rfl

theorem Reports.outcomeState_ne_failed (r : Reports plan a it effect outcome subject)
    (type : a.event.eventType = .effectSucceeded) : outcome.outcomeState ≠ .failed := by
  rw [r.state_eq, type]
  cases effect.effectClass <;> decide

theorem fence_passed {matched : Bool} {reason : RefusalReason} {d : IssueDecision}
    (h : (if !matched then .refused reason else d) = IssueDecision.advanced updated ps) :
    matched ∧ d = .advanced updated ps := by
  cases matched with
  | false => cases h
  | true => exact ⟨rfl, h⟩

section

variable (report : Reports plan a it effect outcome subject)
include report

theorem unmet_receipt (hs : acceptanceEvidenceByEffectOutcome outcome.outcomeState = none) :
    (required.filter fun kind => !(withEvidence it (effectEvidence a)).contains kind) =
      required.filter fun kind => !it.acceptanceEvidence.contains kind := by
  refine List.filter_congr fun kind _ => ?_
  have hm : kind ∈ withEvidence it (effectEvidence a) ↔ kind ∈ it.acceptanceEvidence := by
    simp [withEvidence, effectEvidence, report.outcome_eq, hs]
  rw [Bool.eq_iff_iff]
  simp [hm]

theorem handled_of_outcome (type : a.event.eventType = .effectSucceeded)
    (hstep : OutcomeStep effect.effectClass it.phase phase next) (hm : authorizedTargetMatches it a)
    (hd : effect.effectClass = .recordKnownDefect →
      effect.knownDefectRegistryRef = it.pendingKnownDefectRef ∧
        effect.knownDefectFindingHash = it.pendingKnownDefectFindingHash)
    (h : advanceOutcome phase next a it = .advanced updated ps) :
    Handled plan required a it updated ps := by
  rw [advanceOutcome_eq report] at h
  cases h
  exact .outcome effect outcome subject _ _ report type hstep
    (atTarget_of_matches report.effect_eq hm) hd

theorem handled_of_succeeded (signal : a.signal = effect.effectClass.successSignal)
    (type : a.event.eventType = .effectSucceeded) (hleg : a.signal.admittedIn it.phase)
    (h : issueHandler required a it = .ok (.advanced updated ps)) :
    Handled plan required a it updated ps := by
  have hau : authorityOf a it = subject := authorityOf_eq report.subject_eq
  have hlg : committed it a = recordLedger effect outcome it.effectLedger :=
    committed_eq report.effect_eq report.outcome_eq
  rw [signal] at hleg
  have hph := successSignal_admittedIn_iff.mp hleg
  have hst := report.state_eq
  rw [type] at hst
  -- an outcome that only has to be at the target
  have moves : ∀ {phase next}, OutcomeStep effect.effectClass it.phase phase next →
      effect.effectClass ≠ .recordKnownDefect →
      reduceOutcome phase next a it = .advanced updated ps →
        Handled plan required a it updated ps := by
    intro phase next hstep hne h
    obtain ⟨hm, h⟩ := fence_passed h
    exact handled_of_outcome report type hstep hm (fun hc => absurd hc hne) h
  cases hcls : effect.effectClass <;> rw [hcls] at signal hph moves <;>
    rw [hph] at moves <;> simp only [issueHandler, signal, EffectClass.successSignal] at h
  case claimIssue =>
    simp only [pure_eq_ok_iff, reduceClaimSucceeded, hau, hlg] at h
    cases h
    exact .claimSucceeded effect outcome subject report type hph hcls
  case launchWorker =>
    simp only [reduceWorkerLaunched, report.effect_eq, getOrRaise_some, ok_bind, pure_eq_ok_iff,
      hau, hlg] at h
    cases h
    exact .workerLaunched effect outcome subject report type hph hcls
  case awaitCi => exact moves .checks (by decide) (pure_eq_ok_iff.mp h)
  case mergePullRequest => exact moves .merge (by decide) (pure_eq_ok_iff.mp h)
  case closeIssue => exact moves .closure (by decide) (pure_eq_ok_iff.mp h)
  case requestReview =>
    simp only [reduceReviewRecorded, pure_eq_ok_iff, hau, hlg] at h
    obtain ⟨hm, h⟩ := fence_passed h
    cases h
    exact .reviewRecorded effect outcome subject report type hph hcls
      (atTarget_of_matches report.effect_eq hm)
  case recordKnownDefect =>
    simp only [reduceKnownDefectRecorded, report.effect_eq, getOrRaise_some, ok_bind] at h
    cases hm : authorizedTargetMatches it a with
    | false => simp [hm] at h
    | true =>
      simp only [hm, Bool.not_true, Bool.false_eq_true, if_false] at h
      split at h
      · simp at h
      next hdef =>
        simp only [Bool.or_eq_true, bne_iff_ne, ne_eq, not_or, not_not] at hdef
        refine handled_of_outcome report type ?_ hm (fun _ => hdef) (pure_eq_ok_iff.mp h)
        rw [hcls, hph]
        exact .defect
  case recordDeliveryReceipt =>
    rw [hcls] at hst
    have hno : acceptanceEvidenceByEffectOutcome outcome.outcomeState = none := by
      rw [hst]
      rfl
    simp only [pure_eq_ok_iff, reduceReceiptRecorded, unmet_receipt report hno, hau, hlg] at h
    obtain ⟨hm, h⟩ := fence_passed h
    have htg := atTarget_of_matches report.effect_eq hm
    have hev : withEvidence it (effectEvidence a) =
        withEvidence it (acceptanceEvidenceByEffectOutcome outcome.outcomeState).toList := by
      simp [effectEvidence, report.outcome_eq]
    rw [hev] at h
    split at h
    · cases h
      exact .unmet effect outcome subject _ report type hph hcls htg
    next hmet =>
      cases h
      refine .delivered effect outcome subject report type hph hcls htg ?_
      simpa using hmet

theorem handled_of_failed (signal : a.signal = .effectFailed)
    (type : a.event.eventType = .effectFailed) (hact : it.phase.isTerminal = false)
    (h : issueHandler required a it = .ok (.advanced updated ps)) :
    Handled plan required a it updated ps := by
  have ha : authorityOf a it = subject := authorityOf_eq report.subject_eq
  have hl : committed it a = recordLedger effect outcome it.effectLedger :=
    committed_eq report.effect_eq report.outcome_eq
  simp only [issueHandler, signal, reduceEffectFailed, report.effect_eq, getOrRaise_some,
    ok_bind, ha, hl] at h
  split at h
  · simp at h
  next ht =>
    have hat : effect.pullRequestNumber.isSome → AtTarget effect it := by
      intro hs
      refine atTarget_of_matches report.effect_eq ?_
      simpa [hs] using ht
    split at h
    · cases h
      exact .effectFailed effect outcome subject report type hact hat
    next hci =>
      cases h
      simp only [Bool.or_eq_true, bne_iff_ne, ne_eq, not_or, not_not] at hci
      exact .ciFailed effect outcome subject report type hci.2 hci.1 hat

end

theorem handled_of_worker {r : WorkerResultV2} (result_eq : a.workerResult = some r)
    (subject_eq : a.event.subjectAuthority = some subject) (v : r.validate = .ok ())
    (own : r.issue = it.issue) (signal : a.signal = .workerResultRecorded)
    (type : a.event.eventType = .workerResultRecorded) (hp : it.phase = .working)
    (h : issueHandler required a it = .ok (.advanced updated ps)) :
    Handled plan required a it updated ps := by
  simp only [issueHandler, signal, reduceWorkerResult, result_eq, getOrRaise_some, ok_bind] at h
  split at h
  · simp at h
  next hl =>
    have hl : it.authorizedInvocationEffectKey = some r.effectRef.contractId := by
      simpa using hl
    split at h
    next hs =>
      cases h
      exact .workerBlocked r hp (by simpa using hs) type
    next hs =>
      have hs : r.deliveryResult.status = .completed := by simpa using hs
      split at h
      next head pr hh hpl =>
        split at h
        · simp at h
        next hsame =>
          rw [pure_eq_ok_iff, admitWorkerHead, authorityOf_eq subject_eq,
            IssueDecision.advanced.injEq] at h
          obtain ⟨rfl, rfl⟩ := h
          refine .workerCompleted r subject pr head result_eq subject_eq v own
            hp type hl hs hpl hh ?_
          intro n hn
          have hne : pr = n := by simpa [hn] using hsame
          exact hne.symm
      · simp at h

theorem handled_of_review {r : ReviewResult} (result_eq : a.reviewResult = some r)
    (subject_eq : a.event.subjectAuthority = some subject) (v : r.validate = .ok ())
    (own : r.issue = it.issue) (signal : a.signal = .reviewResultRecorded)
    (type : a.event.eventType = .reviewResultRecorded) (hp : it.phase = .awaitingReview)
    (h : issueHandler required a it = .ok (.advanced updated ps)) :
    Handled plan required a it updated ps := by
  have ha : authorityOf a it = subject := authorityOf_eq subject_eq
  simp only [issueHandler, signal, reduceReviewResult, result_eq, getOrRaise_some, ok_bind,
    blockedByReview, acceptReview, deferReview, ha] at h
  split at h
  · simp at h
  next hpl =>
    have hpl : some r.pullRequestNumber = it.authorizedPullRequest := by
      simpa using hpl
    split at h
    · simp at h
    next hh =>
      have hh : some r.exactHeadSha = it.authorizedHeadSha := by
        simpa using hh
      split at h
      · cases h
        exact .reviewBlocked subject _ hp type
      next hps =>
        simp only [Bool.or_eq_true, not_or, Bool.not_eq_true, beq_eq_false_iff_ne] at hps
        obtain ⟨hrej, hb⟩ := hps
        split at h
        next hacc =>
          cases h
          exact .reviewAccepted r subject result_eq subject_eq v own hp type
            hpl.symm hh.symm (by simpa using hacc) hb
        next hacc =>
          have hr : r.disposition = .acceptWithRisk := by
            cases hd : r.disposition with
            | accept => simp [hd] at hacc
            | reject => exact absurd hd hrej
            | acceptWithRisk => rfl
          split at h
          next f rr hdef hreg =>
            cases h
            exact .reviewDeferred r subject f rr result_eq subject_eq v
              own hp type hpl.symm hh.symm hr hb hdef hreg
          · cases h
            exact .reviewBlocked subject _ hp type

theorem handled_of_authority (subject_eq : a.event.subjectAuthority = some subject)
    (subject_id : subject.authorityId = it.issue.authorityId)
    (signal : a.signal = .authorityChanged) (type : a.event.eventType = .authorityChanged)
    (ha : it.phase.isTerminal = false) (h : issueHandler required a it = .ok (.advanced updated ps))
    : Handled plan required a it updated ps := by
  simp only [issueHandler, signal, reduceAuthorityChanged, subject_eq, getOrRaise_some,
    ok_bind] at h
  split at h
  · cases h
    exact .contractDrift subject subject_eq type ha
  next hh =>
    cases h
    exact .authorityChanged subject subject_eq type ha subject_id (by simpa using hh)

/-- **What a handler that advances has done**, for an event admitted under the
plan and an Issue of the plan. -/
theorem handled_of_issueHandler (hund : a.Under plan) (hpl : plan.Valid)
    (hp : it.issue ∈ plan.finalScope) {i : IssueScope} (hs : a.subjectIssue = some i)
    (hkey : i.scopeKey = it.scopeKey) (hleg : (transitionMatrix it.phase a.signal).legal)
    (ha : ∀ effect, a.effect = some effect → isAuthorizedEffect it effect)
    (h : issueHandler required a it = .ok (.advanced updated ps)) :
    Handled plan required a it updated ps := by
  obtain ⟨ip, hinp, rfl⟩ := hund
  rw [transitionMatrix_legal] at hleg
  -- the Issue an event is about is the planned Issue of the same key
  have own : ∀ j, a.subjectIssue = some j → j ∈ ip.plan.finalScope → j = it.issue := by
    intro j hj hmem
    obtain rfl : i = j := Option.some.inj (hs.symm.trans hj)
    exact hpl.eq_of_scopeKey hmem hp hkey
  have reports : ∀ effect outcome subject,
      EffectReport hash ip.plan a.toAdmission effect outcome subject →
        Reports ip.plan a it effect outcome subject := by
    intro effect outcome subject report
    refine { report with own := own _ report.issue_eq report.planned, ledgered := ?_ }
    simpa [isAuthorizedEffect] using ha effect report.effect_eq
  cases admissionView hinp with
  | tick _ _ _ _ _ _ hn => simp [hn] at hs
  | exception _ _ _ _ _ _ hn => simp [hn] at hs
  | authorityChanged _ j signal type report =>
    rw [signal] at hleg
    have hj := own j report.issue_eq report.planned
    exact handled_of_authority report.subject_eq (by rw [← hj, report.subject_id]) signal type
      (by simpa [ReducerSignal.admittedIn, ReducerSignal.homePhase] using hleg) h
  | workerResult _ _ signal type report =>
    rw [signal] at hleg
    exact handled_of_worker report.result_eq report.subject_eq report.valid
      (own _ report.issue_eq report.planned) signal type
      (by simpa [ReducerSignal.admittedIn, ReducerSignal.homePhase] using hleg) h
  | reviewResult _ _ signal type report =>
    rw [signal] at hleg
    exact handled_of_review report.result_eq report.subject_eq report.valid
      (own _ report.issue_eq report.planned) signal type
      (by simpa [ReducerSignal.admittedIn, ReducerSignal.homePhase] using hleg) h
  | succeeded effect outcome subject signal type report =>
    exact handled_of_succeeded (reports effect outcome subject report) signal type hleg h
  | failed effect outcome subject signal type report =>
    rw [signal] at hleg
    exact handled_of_failed (reports effect outcome subject report) signal type
      (by simpa [ReducerSignal.admittedIn, ReducerSignal.homePhase] using hleg) h

variable {effectClass : EffectClass} {phase' : RunPhase} {p : EffectProposal}

theorem OutcomeStep.active (h : OutcomeStep effectClass phase phase' next) :
    phase.isTerminal = false := by
  cases h <;> rfl

theorem OutcomeStep.awaited (h : OutcomeStep effectClass phase phase' next) :
    phase' = next.awaitedPhase := by
  cases h <;> rfl

section

variable (h : Handled plan required a it updated ps)
include h

theorem Handled.active : it.phase.isTerminal = false := by
  cases h with
  | claimSucceeded _ _ _ _ _ phase | workerLaunched _ _ _ _ _ phase | workerBlocked _ phase
  | workerCompleted _ _ _ _ _ _ _ _ phase | reviewRecorded _ _ _ _ _ phase
  | reviewBlocked _ _ phase | reviewAccepted _ _ _ _ _ _ phase
  | reviewDeferred _ _ _ _ _ _ _ _ phase | delivered _ _ _ _ _ phase | unmet _ _ _ _ _ _ phase
  | ciFailed _ _ _ _ _ phase => rw [phase]; rfl
  | outcome _ _ _ _ _ _ _ step => exact step.active
  | effectFailed _ _ _ _ _ active | contractDrift _ _ _ active
  | authorityChanged _ _ _ active => exact active

theorem Handled.frame : updated.issue = it.issue ∧ updated.waveIndex = it.waveIndex := by
  cases h <;> exact ⟨rfl, rfl⟩

theorem Handled.eq_singleton (hp : p ∈ ps) : ps = [p] := by
  cases h with
  | workerLaunched | workerBlocked | reviewRecorded | reviewBlocked | delivered | unmet
  | effectFailed | ciFailed | contractDrift | authorityChanged => cases hp
  | claimSucceeded | workerCompleted | outcome | reviewAccepted | reviewDeferred =>
    rw [List.mem_singleton.mp hp]

theorem Handled.proposal (hp : p ∈ ps) : p.issue = it.issue ∧ p.Derivable := by
  obtain rfl := h.eq_singleton hp
  cases h with
  | claimSucceeded | workerCompleted | reviewAccepted => exact ⟨rfl, fun hc => by cases hc⟩
  | outcome _ _ _ _ _ _ _ step =>
    refine ⟨rfl, fun hc => ?_⟩
    exact absurd hc step.next_ne
  | reviewDeferred => exact ⟨rfl, fun _ => ⟨rfl, rfl⟩⟩

theorem Handled.recorded (type : a.event.eventType = .effectSucceeded) :
    ∃ effect outcome subject, Reports plan a it effect outcome subject ∧
      updated.effectLedger = recordLedger effect outcome it.effectLedger := by
  cases h with
  | claimSucceeded effect outcome subject report | workerLaunched effect outcome subject report
  | reviewRecorded effect outcome subject report | delivered effect outcome subject report
  | outcome effect outcome subject _ _ report | unmet effect outcome subject _ report =>
    exact ⟨effect, outcome, subject, report, rfl⟩
  | workerBlocked _ _ _ type' | reviewBlocked _ _ _ type' | effectFailed _ _ _ _ type'
  | ciFailed _ _ _ _ type' | contractDrift _ _ type' | authorityChanged _ _ type'
  | workerCompleted _ _ _ _ _ _ _ _ _ type' | reviewAccepted _ _ _ _ _ _ _ type'
  | reviewDeferred _ _ _ _ _ _ _ _ _ type' =>
    rw [type] at type'
    cases type'

theorem Handled.awaited (hp : p ∈ ps) : updated.phase = p.effectClass.awaitedPhase := by
  obtain rfl := h.eq_singleton hp
  cases h with
  | claimSucceeded | workerCompleted | reviewAccepted | reviewDeferred => rfl
  | outcome _ _ _ _ _ _ _ step => exact step.awaited

end

end Handlers

end AgenticPkm.Builderops
