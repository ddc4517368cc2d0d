import AgenticPkm.Builderops.Reducer.State

/-!
# Admission

Admission is the only door into the reducer.  It re-parses every supplied
contract, resolves the worker authority chain and the evidence of the event, and
derives the signal and the Issue the event is about.  In the source the result
carries a private token; here it carries a proof that it came through the door.
-/

namespace AgenticPkm.Builderops

open Option

/-- The arguments of `admit_reducer_event`. -/
structure AdmissionInput where
  event : ReducerEvent
  plan : DeliveryPlan
  effect : Option ReducerEffect := none
  workerResult : Option WorkerResultV2 := none
  reviewResult : Option ReviewResult := none
  contextPack : Option WorkerContextPack := none
  invocation : Option WorkerInvocation := none
  launchEffect : Option ReducerEffect := none
  priorEffects : List ReducerEffect := []
  priorEvents : List ReducerEvent := []
  workerResults : List StructuredWorkerResult := []
  reviewResults : List ReviewResult := []
  deriving DecidableEq, Repr, Inhabited

namespace AdmissionInput

/-- The evidence the event refers to directly. -/
def references (input : AdmissionInput) : EventReferences where
  effect := input.effect
  workerResult := input.workerResult.map WorkerResultV2.deliveryResult
  reviewResult := input.reviewResult

def log (input : AdmissionInput) : EvidenceLog where
  effects := input.priorEffects
  events := input.priorEvents
  workerResults := input.workerResults
  reviewResults := input.reviewResults

end AdmissionInput

/-- The fields of an admitted event. -/
structure Admission where
  event : ReducerEvent
  signal : ReducerSignal
  effect : Option ReducerEffect
  workerResult : Option WorkerResultV2
  reviewResult : Option ReviewResult
  subjectIssue : Option IssueScope
  deriving DecidableEq, Repr, Inhabited

def issueForAuthority (plan : DeliveryPlan) (authorityId : String) : Option IssueScope :=
  plan.finalScope.find? fun item => item.authorityId == authorityId

/-- The text of the refusal of a worker event without its envelope. -/
def envelopeRequired : String :=
  "a worker-result event requires the carrier-neutral worker result envelope; " ++
    "delivery-domain bytes alone cannot advance the reducer"

def resolveSignal (event : ReducerEvent) (plan : DeliveryPlan) (effect : Option ReducerEffect)
    (workerResult : Option WorkerResultV2) (reviewResult : Option ReviewResult) :
    Except String (ReducerSignal × Option IssueScope) :=
  match event.eventType with
  | .runStarted => pure (.runStarted, none)
  | .timerElapsed => pure (.timerElapsed, none)
  | .exceptionRecorded => pure (.exceptionRecorded, none)
  | .authorityChanged => do
      let subject ← getOrRaise event.subjectAuthority "AssertionError"
      pure (.authorityChanged, issueForAuthority plan subject.authorityId)
  | .workerResultRecorded => do
      let result ← getOrRaise workerResult envelopeRequired
      pure (.workerResultRecorded, some result.issue)
  | .reviewResultRecorded => do
      let result ← getOrRaise reviewResult "AssertionError"
      pure (.reviewResultRecorded, some result.issue)
  | .effectFailed => do
      let effect ← getOrRaise effect
        "an effect-result event requires its resolved reducer effect"
      pure (.effectFailed, some effect.issue)
  | .effectSucceeded => do
      let effect ← getOrRaise effect
        "an effect-result event requires its resolved reducer effect"
      let outcome ← getOrRaise event.effectOutcome "AssertionError"
      let signal ← getOrRaise (successSignalByOutcome outcome.outcomeState) "KeyError"
      pure (signal, some effect.issue)

/-- The re-parse of worker evidence and the resolution of its authority chain. -/
def resolveWorkerEvidence (hash : Json → String) (input : AdmissionInput) :
    Except String Unit :=
  match input.workerResult with
  | none => pure ()
  | some result => do
      result.validate
      match input.contextPack, input.invocation, input.launchEffect with
      | some pack, some invocation, some launch => do
          pack.validate
          invocation.validate hash
          launch.validate hash
          validateWorkerAuthorityChain hash result pack invocation launch input.plan
      | _, _, _ =>
          .error ("worker evidence requires its context pack, invocation, and " ++
            "authorizing launch effect")

/-- The checks of `admit_reducer_event` and the fields of its result. -/
def resolveAdmission (hash : Json → String) (input : AdmissionInput) :
    Except String Admission := do
  input.plan.validate
  input.event.validate hash
  raiseIf (input.event.eventType == .workerResultRecorded && input.workerResult.isNone)
    envelopeRequired
  checkOption (ReducerEffect.validate hash) input.effect
  checkOption ReviewResult.validate input.reviewResult
  resolveWorkerEvidence hash input
  validateReducerEventEvidence hash input.plan input.event input.references input.log
  let resolved ← resolveSignal input.event input.plan input.effect input.workerResult
    input.reviewResult
  pure
    { event := input.event
      signal := resolved.1
      effect := input.effect
      workerResult := input.workerResult
      reviewResult := input.reviewResult
      subjectIssue := resolved.2 }

/-- An event whose referenced evidence fully resolved.  Like its source, a value
of this type can only be made by admission. -/
structure AdmittedEvent (hash : Json → String) extends Admission where
  admitted : ∃ input, resolveAdmission hash input = .ok toAdmission

def admitReducerEvent (hash : Json → String) (input : AdmissionInput) :
    Except String (AdmittedEvent hash) :=
  match h : resolveAdmission hash input with
  | .ok fields => .ok ⟨fields, ⟨input, h⟩⟩
  | .error msg => .error msg

/-! ### What an admitted event carries -/

def EffectClass.successSignal : EffectClass → ReducerSignal
  | .claimIssue => .claimSucceeded
  | .launchWorker => .workerLaunched
  | .awaitCi => .checksPassed
  | .requestReview => .reviewRecorded
  | .mergePullRequest => .mergeSucceeded
  | .closeIssue => .closureSucceeded
  | .recordKnownDefect => .knownDefectRecorded
  | .recordDeliveryReceipt => .receiptRecorded

theorem successSignalByOutcome_success (e : EffectClass) :
    successSignalByOutcome (successOutcomeByEffect e) = some e.successSignal := by
  cases e <;> rfl

variable {hash : Json → String}

/-- The shape of a validated event: which of its fields its type fills. -/
structure ReducerEvent.Shape (hash : Json → String) (e : ReducerEvent) : Prop where
  subject : e.subjectAuthority.isSome = e.eventType.requiresSubject
  effectRef : e.effectRef.isSome = e.eventType.effectVersion.isSome
  resultVersion : e.resultRef.map ContractRef.schemaVersion = e.eventType.resultVersion
  exception : e.exception.isSome = e.eventType.requiresException
  outcome : e.effectOutcome.isSome = e.eventType.isEffectResult
  outcome_valid : ∀ o, e.effectOutcome = some o → o.validate = .ok ()
  runId_ne : e.runId ≠ ""
  id_eq : e.eventId = deliveryEventId (e.expectedInputHash hash)

theorem typedRef_of_check {r : Option ContractRef} {version : Option String} {u m : String}
    (h : checkTypedRef r version u m = .ok ()) : r.map ContractRef.schemaVersion = version := by
  unfold checkTypedRef at h
  cases version with
  | none => simpa using h
  | some v => simpa using h

theorem ReducerEvent.shape_of_validate {e : ReducerEvent} (h : e.validate hash = .ok ()) :
    e.Shape hash := by
  simp only [validate, validateFields, validateEvent, bind_unit_eq_ok_iff, raiseIf_eq_ok_iff,
    bne_eq_false_iff_eq, checkNonEmptyStr_eq_ok_iff] at h
  obtain ⟨⟨-, hrun, -, -, -, -, -, hoc, -⟩, -, -, hs, heff, hres, hexc, hr, -, -, hid⟩ := h
  refine ⟨hs, ?_, typedRef_of_check hres, hexc, hr, ?_, hrun, hid⟩
  · have := congrArg Option.isSome (typedRef_of_check heff)
    simpa using this
  · intro o ho
    simpa [ho] using hoc

/-- What an admitted report of an effect carries. -/
structure EffectReport (hash : Json → String) (plan : DeliveryPlan) (a : Admission)
    (effect : ReducerEffect) (outcome : EffectOutcomeEvidence) (subject : AuthoritySnapshot) :
    Prop where
  effect_eq : a.effect = some effect
  outcome_eq : a.event.effectOutcome = some outcome
  subject_eq : a.event.subjectAuthority = some subject
  issue_eq : a.subjectIssue = some effect.issue
  ref_eq : a.event.effectRef = some (effect.ref hash)
  result_eq : a.event.resultRef = none
  valid : effect.validate hash = .ok ()
  outcome_valid : outcome.validate = .ok ()
  planned : effect.issue ∈ plan.finalScope
  run_eq : effect.runId = a.event.runId
  subject_id : subject.authorityId = effect.issue.authorityId
  subject_hash : subject.contentHash = effect.issue.contractHash
  truthful : effectResultSubjectIsTruthful effect a.event.eventType subject = true
  class_eq : outcome.effectClass = effect.effectClass
  key_eq : outcome.effectIdempotencyKey = effect.idempotencyKey
  state_eq : outcome.outcomeState = expectedOutcomeState a.event.eventType effect.effectClass
  keys_eq : outcome.outcomeKeys = effect.expectedOutcomeKeys

/-- A result expresses the authority that the admitted log proves. -/
def CurrentSubject (input : AdmissionInput) (issue : IssueScope) (subject : AuthoritySnapshot) :
    Prop :=
  ∃ planned, plannedAuthority input.plan issue = some planned ∧
    sameAuthorityState subject (resolveCurrentAuthority issue.authorityId planned
      input.event.runId input.event.planRef input.event.sequence input.priorEvents) = true

/-- What an admitted worker event carries. -/
structure WorkerReport (hash : Json → String) (input : AdmissionInput) (a : Admission)
    (result : WorkerResultV2) (subject : AuthoritySnapshot) : Prop where
  result_eq : a.workerResult = some result
  subject_eq : a.event.subjectAuthority = some subject
  issue_eq : a.subjectIssue = some result.issue
  ref_eq : a.event.resultRef = some (result.deliveryResult.ref hash)
  effect_eq : a.event.effectRef = none
  outcome_eq : a.event.effectOutcome = none
  valid : result.validate = .ok ()
  planned : result.issue ∈ input.plan.finalScope
  current : CurrentSubject input result.issue subject

/-- What an admitted review event carries. -/
structure ReviewReport (hash : Json → String) (input : AdmissionInput) (a : Admission)
    (result : ReviewResult) (subject : AuthoritySnapshot) : Prop where
  result_eq : a.reviewResult = some result
  subject_eq : a.event.subjectAuthority = some subject
  issue_eq : a.subjectIssue = some result.issue
  ref_eq : a.event.resultRef = some (result.ref hash)
  effect_eq : a.event.effectRef = none
  outcome_eq : a.event.effectOutcome = none
  valid : result.validate = .ok ()
  planned : result.issue ∈ input.plan.finalScope
  current : CurrentSubject input result.issue subject

/-- What an admitted authority change carries. -/
structure AuthorityReport (plan : DeliveryPlan) (a : Admission) (subject : AuthoritySnapshot)
    (issue : IssueScope) : Prop where
  subject_eq : a.event.subjectAuthority = some subject
  issue_eq : a.subjectIssue = some issue
  outcome_eq : a.event.effectOutcome = none
  planned : issue ∈ plan.finalScope
  subject_id : issue.authorityId = subject.authorityId

/-- The kinds of admitted events, each with what it carries. -/
inductive AdmissionView (hash : Json → String) (input : AdmissionInput) (a : Admission) : Prop
  | tick (signal_tick : a.signal.isTick = true) (subject : a.event.subjectAuthority = none)
      (effect : a.event.effectRef = none) (result : a.event.resultRef = none)
      (subjectless : a.event.eventType.isSubjectlessCause = true)
      (outcome : a.event.effectOutcome = none) (issue : a.subjectIssue = none)
  | exception (x : DeliveryException) (signal : a.signal = .exceptionRecorded)
      (type : a.event.eventType = .exceptionRecorded) (exception_eq : a.event.exception = some x)
      (subject : a.event.subjectAuthority = none) (outcome : a.event.effectOutcome = none)
      (issue : a.subjectIssue = none)
  | authorityChanged (subject : AuthoritySnapshot) (issue : IssueScope)
      (signal : a.signal = .authorityChanged) (type : a.event.eventType = .authorityChanged)
      (report : AuthorityReport input.plan a subject issue)
  | workerResult (result : WorkerResultV2) (subject : AuthoritySnapshot)
      (signal : a.signal = .workerResultRecorded)
      (type : a.event.eventType = .workerResultRecorded)
      (report : WorkerReport hash input a result subject)
  | reviewResult (result : ReviewResult) (subject : AuthoritySnapshot)
      (signal : a.signal = .reviewResultRecorded)
      (type : a.event.eventType = .reviewResultRecorded)
      (report : ReviewReport hash input a result subject)
  | succeeded (effect : ReducerEffect) (outcome : EffectOutcomeEvidence)
      (subject : AuthoritySnapshot) (signal : a.signal = effect.effectClass.successSignal)
      (type : a.event.eventType = .effectSucceeded)
      (report : EffectReport hash input.plan a effect outcome subject)
  | failed (effect : ReducerEffect) (outcome : EffectOutcomeEvidence)
      (subject : AuthoritySnapshot) (signal : a.signal = .effectFailed)
      (type : a.event.eventType = .effectFailed)
      (report : EffectReport hash input.plan a effect outcome subject)

variable {e : ReducerEvent} {issue : IssueScope} {i : AdmissionInput} {a : Admission}

theorem of_referencedIssueEvidence {plan : DeliveryPlan} {log : EvidenceLog}
    (h : referencedIssueEvidence plan e log issue = .ok ()) :
    issue ∈ plan.finalScope ∧ ∃ subject, e.subjectAuthority = some subject ∧
      ∃ planned, plannedAuthority plan issue = some planned ∧
        (e.eventType.isEffectResult = false →
          sameAuthorityState subject (resolveCurrentAuthority issue.authorityId planned
            e.runId e.planRef e.sequence log.events)) := by
  simp only [referencedIssueEvidence, exists_unit_iff, bind_eq_ok_iff, raiseIf_eq_ok_iff,
    getOrRaise_eq_ok_iff, bne_eq_false_iff_eq] at h
  obtain ⟨hf, subject, hs, planned, hp, hsame⟩ := h
  refine ⟨List.mem_of_find?_eq_some hf, subject, hs, planned, hp, ?_⟩
  intro ht
  simpa [ht] using hsame

variable {effect : ReducerEffect} {outcome : EffectOutcomeEvidence} {rs : WorkerResultV2}

theorem of_not_effectReportMismatch (h : effectReportMismatch e effect outcome = false) :
    effect.runId = e.runId ∧ (∃ subject, e.subjectAuthority = some subject ∧
      subject.authorityId = effect.issue.authorityId ∧
      subject.contentHash = effect.issue.contractHash ∧
      effectResultSubjectIsTruthful effect e.eventType subject) ∧
    outcome.effectClass = effect.effectClass ∧
    outcome.effectIdempotencyKey = effect.idempotencyKey ∧
    outcome.outcomeState = expectedOutcomeState e.eventType effect.effectClass ∧
    outcome.outcomeKeys = effect.expectedOutcomeKeys := by
  simp only [effectReportMismatch, Bool.or_eq_false_iff, bne_eq_false_iff_eq] at h
  obtain ⟨⟨⟨⟨⟨⟨⟨⟨⟨hr, -⟩, -⟩, hsb⟩, hcls⟩, hk⟩, hst⟩, hkeys⟩, -⟩, -⟩ := h
  refine ⟨hr, ?_, hcls, hk, hst, hkeys⟩
  cases hs : e.subjectAuthority with
  | none => simp [hs] at hsb
  | some subject =>
    simp only [hs, Bool.or_eq_false_iff, bne_eq_false_iff_eq, Bool.not_eq_false'] at hsb
    obtain ⟨⟨⟨hid, hh⟩, ht⟩, -⟩ := hsb
    exact ⟨subject, rfl, hid, hh, ht⟩

theorem of_effectReportEvidence {refs : EventReferences} {log : EvidenceLog}
    {v : ReducerEffect → EvidenceLog → Except String Unit}
    (h : effectReportEvidence hash v e refs log = .ok issue) :
    ∃ effect outcome, refs.effect = some effect ∧ e.effectOutcome = some outcome ∧
      e.effectRef = some (effect.ref hash) ∧
      effectReportMismatch e effect outcome = false ∧ effect.issue = issue := by
  simp only [effectReportEvidence, exists_unit_iff, bind_eq_ok_iff, raiseIf_eq_ok_iff,
    getOrRaise_eq_ok_iff, bne_eq_false_iff_eq, pure_eq_ok_iff] at h
  obtain ⟨effect, heff, hr, -, outcome, ho, hm, hi⟩ := h
  exact ⟨effect, outcome, heff, ho, hr, hm, hi⟩

theorem checks_of_resolveAdmission (h : resolveAdmission hash i = .ok a) :
    i.plan.validate = .ok () ∧ i.event.validate hash = .ok () ∧
      checkOption (ReducerEffect.validate hash) i.effect = .ok () ∧
      checkOption ReviewResult.validate i.reviewResult = .ok () ∧
      resolveWorkerEvidence hash i = .ok () ∧
      eventEvidenceBody hash i.plan (validateReducerEffectEvidence hash i.plan)
        i.event i.references i.log = .ok () ∧
      ∃ resolved, resolveSignal i.event i.plan i.effect i.workerResult
          i.reviewResult = .ok resolved ∧
        a = ⟨i.event, resolved.1, i.effect, i.workerResult, i.reviewResult, resolved.2⟩ := by
  simp only [resolveAdmission, exists_unit_iff, bind_eq_ok_iff, pure_eq_ok_iff,
    validateReducerEventEvidence_eq] at h
  obtain ⟨hp, hev, -, heff, hr, hw, hed, resolved, hres, ha⟩ := h
  exact ⟨hp, hev, heff, hr, hw, hed, resolved, hres, ha.symm⟩

theorem worker_valid (hw : resolveWorkerEvidence hash i = .ok ())
    (h : i.workerResult = some rs) : rs.validate = .ok () := by
  simp only [resolveWorkerEvidence, h, bind_unit_eq_ok_iff] at hw
  exact hw.1

theorem EventType.resultVersion_of_isEffectResult {type : EventType}
    (h : type.isEffectResult) : type.resultVersion = none := by
  cases type <;> first | rfl | (simp [EventType.isEffectResult] at h)

theorem effectReport_of_checks (signal : ReducerSignal) (hty : i.event.eventType.isEffectResult)
    (hsh : i.event.Shape hash) (hef : checkOption (ReducerEffect.validate hash) i.effect = .ok ())
    (hrep : effectReportEvidence hash (validateReducerEffectEvidence hash i.plan)
      i.event i.references i.log = .ok issue)
    (hiss : referencedIssueEvidence i.plan i.event i.log issue = .ok ())
    (he : i.effect = some effect) :
    ∃ outcome subject, EffectReport hash i.plan
      ⟨i.event, signal, i.effect, i.workerResult, i.reviewResult,
        some effect.issue⟩ effect outcome subject := by
  obtain ⟨effect', outcome, heff, hoc, href, hmt, hi⟩ := of_effectReportEvidence hrep
  obtain rfl : effect = effect' := by
    have : i.effect = some effect' := heff
    rw [he] at this
    exact Option.some.inj this
  obtain ⟨hrun, ⟨subject, hsb, hid, hhs, htr⟩, hcls, hkey, hst, hkeys⟩ :=
    of_not_effectReportMismatch hmt
  obtain ⟨hpl, -⟩ := of_referencedIssueEvidence hiss
  have hres : i.event.resultRef = none := by
    have hver := hsh.resultVersion
    rw [EventType.resultVersion_of_isEffectResult hty] at hver
    simpa using hver
  refine ⟨outcome, subject, he, hoc, hsb, rfl, href, hres, ?_,
    hsh.outcome_valid outcome hoc, hi ▸ hpl, hrun, hid, hhs, htr, hcls,
    hkey, hst, hkeys⟩
  simpa [he] using hef

/-- **What an admitted event carries**, by the type of the event. -/
theorem admissionView (h : resolveAdmission hash i = .ok a) : AdmissionView hash i a := by
  obtain ⟨-, hen, heff, hrev, hwr, hev, r, hres, rfl⟩ := checks_of_resolveAdmission h
  have hsh := ReducerEvent.shape_of_validate hen
  have hsb := hsh.subject
  have hver := hsh.effectRef
  have hrs := hsh.resultVersion
  have hexc := hsh.exception
  have hoc := hsh.outcome
  simp only [eventEvidenceBody, bind_unit_eq_ok_iff] at hev
  obtain ⟨-, -, hev⟩ := hev
  -- the type of the event says which references and which fields there are
  cases hty : i.event.eventType
  all_goals
    simp only [hty, resolveSignal, bind_eq_ok_iff, getOrRaise_eq_ok_iff, pure_eq_ok_iff] at hres
    simp only [hty, EventType.requiresSubject, EventType.effectVersion, EventType.resultVersion,
      EventType.requiresException, EventType.isEffectResult, isSome_none,
      isSome_eq_false_iff, isNone_iff_eq_none, map_eq_none_iff,
      isSome_iff_exists] at hsb hver hrs hexc hoc
    simp only [hty] at hev
  case runStarted | timerElapsed =>
    subst hres
    exact .tick rfl hsb hver hrs (by simp [hty, EventType.isSubjectlessCause]) hoc rfl
  case exceptionRecorded =>
    subst hres
    obtain ⟨x, hx⟩ := hexc
    exact .exception x rfl hty hx hsb hoc rfl
  case authorityChanged =>
    obtain ⟨subject, hs, rfl⟩ := hres
    simp only [authorityChangeEvidence, bind_eq_ok_iff, getOrRaise_eq_ok_iff, exists_unit_iff]
      at hev
    obtain ⟨subject', hs', issue, hiss, -⟩ := hev
    obtain rfl : subject = subject' := by simpa [hs] using hs'
    exact .authorityChanged subject issue rfl hty
      ⟨hs, hiss, hoc, List.mem_of_find?_eq_some hiss, by simpa using List.find?_some hiss⟩
  case workerResultRecorded =>
    obtain ⟨rs, hr, rfl⟩ := hres
    simp only [workerReportEvidence, bind_eq_ok_iff, getOrRaise_eq_ok_iff,
      exists_unit_iff, raiseIf_eq_ok_iff, Bool.or_eq_false_iff, bne_eq_false_iff_eq,
      pure_eq_ok_iff, AdmissionInput.references, hr, map_some] at hev
    obtain ⟨issue, ⟨domain, hdom, ⟨⟨⟨href, -⟩, -⟩, -⟩, hi⟩, hiss⟩ := hev
    cases hdom
    have hval := worker_valid hwr hr
    have hdm : rs.deliveryResult.issue = rs.issue := by
      simp only [WorkerResultV2.validate, WorkerResultV2.validateResultV2, bind_unit_eq_ok_iff,
        raiseIf_eq_ok_iff, Bool.or_eq_false_iff, bne_eq_false_iff_eq] at hval
      exact hval.2.2.2.2.2.2.2.1.1.1.2
    rw [← hi, hdm] at hiss
    obtain ⟨hpl, subject, hs, p, hp, hsame⟩ := of_referencedIssueEvidence hiss
    exact .workerResult rs subject rfl hty
      ⟨hr, hs, rfl, href, hver, hoc, hval, hpl, p, hp, hsame (by rw [hty]; rfl)⟩
  case reviewResultRecorded =>
    obtain ⟨rs, hr, rfl⟩ := hres
    simp only [reviewReportEvidence, bind_eq_ok_iff, getOrRaise_eq_ok_iff,
      exists_unit_iff, raiseIf_eq_ok_iff, Bool.or_eq_false_iff, bne_eq_false_iff_eq,
      pure_eq_ok_iff, AdmissionInput.references, hr] at hev
    obtain ⟨issue, ⟨rs', hrs', ⟨⟨⟨⟨href, -⟩, -⟩, -⟩, -⟩, hi⟩, hiss⟩ := hev
    cases hrs'
    rw [← hi] at hiss
    obtain ⟨hpl, subject, hs, p, hp, hsame⟩ := of_referencedIssueEvidence hiss
    exact .reviewResult rs subject rfl hty
      ⟨hr, hs, rfl, href, hver, hoc, by simpa [hr] using hrev, hpl, p, hp, hsame (by rw [hty]; rfl)⟩
  case effectFailed =>
    obtain ⟨effect, he, rfl⟩ := hres
    obtain ⟨issue, hrep, hiss⟩ := bind_eq_ok_iff.mp hev
    obtain ⟨outcome, subject, hfs⟩ := effectReport_of_checks .effectFailed
      (by rw [hty]; rfl) hsh heff hrep hiss he
    exact .failed effect outcome subject rfl hty hfs
  case effectSucceeded =>
    obtain ⟨effect, he, outcome', ho', signal, hsignal, rfl⟩ := hres
    obtain ⟨issue, hrep, hiss⟩ := bind_eq_ok_iff.mp hev
    obtain ⟨outcome, subject, hfs⟩ := effectReport_of_checks signal
      (by rw [hty]; rfl) hsh heff hrep hiss he
    refine .succeeded effect outcome subject ?_ hty hfs
    -- the outcome is the success of the effect's class, which fixes the signal
    have hst := hfs.state_eq
    obtain rfl : outcome' = outcome := by
      have := hfs.outcome_eq
      simpa [ho'] using this
    rw [hst, expectedOutcomeState] at hsignal
    simp only [hty, beq_self_eq_true, if_true, successSignalByOutcome_success] at hsignal
    exact (some.inj hsignal).symm

theorem AdmittedEvent.report_of_success (a : AdmittedEvent hash)
    (ho : a.event.effectOutcome = some outcome) (hs : outcome.outcomeState ≠ .failed) :
    a.event.eventType = .effectSucceeded ∧
      ∃ plan effect subject, EffectReport hash plan a.toAdmission effect outcome subject := by
  obtain ⟨i, hi⟩ := a.admitted
  cases admissionView hi with
  | tick _ _ _ _ _ hn => simp [hn] at ho
  | exception _ _ _ _ _ hn => simp [hn] at ho
  | authorityChanged _ _ _ _ report | workerResult _ _ _ _ report | reviewResult _ _ _ _ report =>
    simp [report.outcome_eq] at ho
  | succeeded effect outcome' subject _ type report =>
    cases report.outcome_eq.symm.trans ho
    exact ⟨type, i.plan, effect, subject, report⟩
  | failed effect outcome' subject _ type report =>
    cases report.outcome_eq.symm.trans ho
    rw [report.state_eq, type] at hs
    exact absurd rfl hs

theorem workerReport_of_type (hi : resolveAdmission hash i = .ok a)
    (ht : a.event.eventType = .workerResultRecorded) (hr : a.workerResult = some rs) :
    ∃ subject, WorkerReport hash i a rs subject := by
  cases admissionView hi with
  | workerResult _ subject _ _ report =>
    cases report.result_eq.symm.trans hr
    exact ⟨subject, report⟩
  | tick _ _ _ _ s => simp [ht, EventType.isSubjectlessCause] at s
  | exception _ _ type | authorityChanged _ _ _ type | reviewResult _ _ _ type
  | succeeded _ _ _ _ type | failed _ _ _ _ type => simp [ht] at type

theorem reviewReport_of_type (hi : resolveAdmission hash i = .ok a)
    (ht : a.event.eventType = .reviewResultRecorded) {r : ReviewResult}
    (hr : a.reviewResult = some r) : ∃ subject, ReviewReport hash i a r subject := by
  cases admissionView hi with
  | reviewResult _ subject _ _ report =>
    cases report.result_eq.symm.trans hr
    exact ⟨subject, report⟩
  | tick _ _ _ _ s => simp [ht, EventType.isSubjectlessCause] at s
  | exception _ _ type | authorityChanged _ _ _ type | workerResult _ _ _ type
  | succeeded _ _ _ _ type | failed _ _ _ _ type => simp [ht] at type

end AgenticPkm.Builderops
