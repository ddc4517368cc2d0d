import AgenticPkm.Builderops.Contract.Result

/-!
# Resolving events and effects against their evidence

An event refers to an effect or a structured result, and an effect embeds the event that caused it.
The two resolvers below check such references against exact evidence, and call each other.

Every call for an event hands on only the effects that were sequenced before the effect it reports,
so the sequence of that effect bounds the recursion; it is the fuel of `eventEvidence`.
-/

namespace AgenticPkm.Builderops

/-! ### Truthful reports -/

/-- `_claim_transition_is_truthful`: the step from ready to claimed, exactly. -/
def claimTransitionIsTruthful (expected : AuthoritySnapshot)
    (authorityId contentHash observedState : String) (observedLabels : List String) : Bool :=
  if authorityId != expected.authorityId || contentHash != expected.contentHash ||
      observedState != expected.observedState ||
        !expected.observedLabels.contains "agent:ready" then
    false
  else
    let expectedLabels := expected.observedLabels.filter (· != "agent:ready")
    !observedLabels.contains "agent:ready" && expectedLabels.all observedLabels.contains &&
      observedLabels.all fun label =>
        expectedLabels.contains label || label == "agent:in-progress"

/-- `label.startswith("agent:")`. -/
def isAgentLabel (label : String) : Bool := (textBytes label).take 6 == textBytes "agent:"

def effectResultSubjectIsTruthful (effect : ReducerEffect) (eventType : EventType)
    (subject : AuthoritySnapshot) : Bool :=
  match effect.expectedAuthorities.find? fun a => a.authorityId == effect.issue.authorityId with
  | none => false
  | some expected =>
      if subject.authorityType != expected.authorityType ||
          subject.authorityId != expected.authorityId ||
            subject.contentHash != expected.contentHash then
        false
      else if eventType == .effectFailed then
        sameAuthorityState subject expected
      else
        match effect.effectClass with
        | .claimIssue =>
            claimTransitionIsTruthful expected subject.authorityId subject.contentHash
              subject.observedState subject.observedLabels
        | .closeIssue =>
            let kept := subject.observedLabels.filter fun label => !isAgentLabel label
            let expectedKept := expected.observedLabels.filter fun label => !isAgentLabel label
            subject.observedState == "closed" && kept.all expectedKept.contains &&
              expectedKept.all kept.contains && !subject.observedLabels.any isAgentLabel
        | _ => sameAuthorityState subject expected

/-! ### The evidence a resolver is given -/

/-- The evidence an event refers to directly. -/
structure EventReferences where
  effect : Option ReducerEffect
  workerResult : Option StructuredWorkerResult
  reviewResult : Option ReviewResult
  deriving DecidableEq, Repr, Inhabited

/-- The log a resolver reads: prior effects and events, and structured results. -/
structure EvidenceLog where
  effects : List ReducerEffect
  events : List ReducerEvent
  workerResults : List StructuredWorkerResult
  reviewResults : List ReviewResult
  deriving DecidableEq, Repr, Inhabited

/-- The entries of a log under the identities an event refers to. -/
def ReducerEvent.references (e : ReducerEvent) (log : EvidenceLog) : EventReferences where
  effect :=
    match e.effectRef with
    | none => none
    | some r => log.effects.find? fun item => item.effectId == r.contractId
  workerResult :=
    match e.resultRef with
    | none => none
    | some r =>
        if r.schemaVersion == workerResultVersion then
          log.workerResults.find? fun item => item.resultId == r.contractId
        else
          none
  reviewResult :=
    match e.resultRef with
    | none => none
    | some r =>
        if r.schemaVersion == reviewResultVersion then
          log.reviewResults.find? fun item => item.resultId == r.contractId
        else
          none

namespace EventReferences

def target (refs : EventReferences) : Option (Option ℕ × Option String) :=
  match refs.effect, refs.workerResult, refs.reviewResult with
  | some effect, _, _ => some (effect.pullRequestNumber, effect.exactHeadSha)
  | none, some result, _ => some (result.pullRequestNumber, result.exactHeadSha)
  | none, none, some result => some (some result.pullRequestNumber, some result.exactHeadSha)
  | none, none, none => none

/-- How deep the resolution of an event with these references can go. -/
def depth (refs : EventReferences) : ℕ :=
  match refs.effect with
  | none => 1
  | some effect => effect.sequence + 2

theorem one_le_depth (refs : EventReferences) : 1 ≤ refs.depth := by
  unfold depth
  cases refs.effect with
  | none => exact le_refl 1
  | some effect => exact Nat.le_add_left 1 (effect.sequence + 1)

end EventReferences

def eventsBefore (sequence : ℕ) (events : List ReducerEvent) : List ReducerEvent :=
  events.filter fun e => decide (e.sequence < sequence)

def effectsBefore (sequence : ℕ) (effects : List ReducerEffect) : List ReducerEffect :=
  effects.filter fun e => decide (e.sequence < sequence)

/-! ### Effects -/

/-- The authority an effect must bind: its cause's subject or, if the cause has
none, the authority the log proves. -/
def causalAuthority (effect : ReducerEffect) (planned : AuthoritySnapshot)
    (before : List ReducerEvent) : AuthoritySnapshot :=
  match effect.causalEvent.subjectAuthority with
  | some subject => subject
  | none =>
      resolveCurrentAuthority effect.issue.authorityId planned effect.runId effect.planRef
        effect.causalEvent.sequence before

/-- The last check of an effect: it binds the expected live authority. -/
def effectAuthorityEvidence (plan : DeliveryPlan) (effect : ReducerEffect)
    (before : List ReducerEvent) : Except String Unit :=
  match plan.expectedStates.find? fun item => item.issue.scopeKey == effect.issue.scopeKey,
    effect.expectedAuthorities.filter fun a => a.authorityId == effect.issue.authorityId,
    plan.inputAuthorities.filter fun a => a.authorityId == effect.issue.authorityId with
  | some _, [bound], [planned] =>
      raiseIf (!sameAuthorityState bound (causalAuthority effect planned before))
        "reducer effect lacks the plan's expected live authority"
  | _, _, _ => .error "reducer effect lacks the plan's expected live authority"

/-- `validate_reducer_effect_evidence`, calling `validateEvent` for its causal
event. -/
def effectEvidenceBody (hash : Json → String) (plan : DeliveryPlan)
    (validateEvent : ReducerEvent → EventReferences → EvidenceLog → Except String Unit)
    (effect : ReducerEffect) (log : EvidenceLog) : Except String Unit := do
  raiseIf (effect.planRef != plan.ref hash) "reducer effect does not bind the supplied plan"
  raiseIf (effect.causalEvent.runId != effect.runId ||
      effect.causalEvent.planRef != plan.ref hash)
    "reducer effect must resolve the exact run-started event"
  let references := effect.causalEvent.references log
  let before := eventsBefore effect.causalEvent.sequence log.events
  validateEvent effect.causalEvent references { log with events := before }
  raiseIf (references.target.any fun t => t != (effect.pullRequestNumber, effect.exactHeadSha))
    "reducer effect PR and head must match its causal evidence"
  raiseIf (decide (effect.provenance.createdAt < plan.provenance.createdAt))
    "reducer effect must follow plan provenance"
  raiseIf (decide (effect.provenance.createdAt < effect.causalEvent.provenance.createdAt))
    "reducer effect must follow the run-started event"
  raiseIf (lastBy IssueScope.scopeKey effect.issue.scopeKey plan.finalScope
      != some effect.issue)
    "reducer effect issue is outside exact plan scope"
  raiseIf (!plan.effectAllowlist.contains effect.effectClass)
    "reducer effect class is outside the plan allowlist"
  let expectedOutcomeKeys ← deliveryEffectExpectedOutcomeKeys effect.effectClass effect.runId
    effect.issue effect.pullRequestNumber plan.policyProfile.requiredCheckNames
    effect.knownDefectRegistryRef effect.knownDefectFindingHash
  raiseIf (effect.expectedOutcomeKeys != expectedOutcomeKeys)
    "reducer effect outcome keys must match effect-class semantics"
  effectAuthorityEvidence plan effect before

/-! ### Events -/

/-- The outcome a report of the given kind must carry. -/
def expectedOutcomeState (eventType : EventType) (effectClass : EffectClass) :
    EffectOutcomeState :=
  if eventType == .effectSucceeded then successOutcomeByEffect effectClass else .failed

def effectReportMismatch (event : ReducerEvent) (effect : ReducerEffect)
    (outcome : EffectOutcomeEvidence) : Bool :=
  effect.runId != event.runId || decide (event.sequence ≤ effect.sequence) ||
    decide (event.provenance.createdAt < effect.provenance.createdAt) ||
    (match event.subjectAuthority with
      | none => true
      | some subject =>
          subject.authorityId != effect.issue.authorityId ||
            subject.contentHash != effect.issue.contractHash ||
              !effectResultSubjectIsTruthful effect event.eventType subject ||
                decide (subject.observedAt < effect.provenance.createdAt)) ||
    outcome.effectClass != effect.effectClass ||
    outcome.effectIdempotencyKey != effect.idempotencyKey ||
    outcome.outcomeState != expectedOutcomeState event.eventType effect.effectClass ||
    outcome.outcomeKeys != effect.expectedOutcomeKeys ||
    decide (outcome.observedAt < effect.provenance.createdAt) ||
    decide (outcome.observedAt > event.provenance.createdAt)

def effectReportEvidence (hash : Json → String)
    (validateEffect : ReducerEffect → EvidenceLog → Except String Unit)
    (event : ReducerEvent) (refs : EventReferences) (log : EvidenceLog) :
    Except String IssueScope := do
  let effect ← getOrRaise refs.effect "effect event requires supplied reducer-effect evidence"
  raiseIf (event.effectRef != some (effect.ref hash))
    "reducer event effect ref does not resolve"
  validateEffect effect
    { log with
      effects := effectsBefore effect.sequence log.effects
      events := eventsBefore event.sequence log.events }
  let outcome ← getOrRaise event.effectOutcome "AssertionError"
  raiseIf (effectReportMismatch event effect outcome)
    ("reducer effect-result event must match run and carry " ++
      "exact typed post-effect outcome evidence")
  pure effect.issue

def workerReportEvidence (hash : Json → String) (plan : DeliveryPlan) (event : ReducerEvent)
    (refs : EventReferences) : Except String IssueScope := do
  let result ← getOrRaise refs.workerResult
    "worker event requires supplied worker-result evidence"
  raiseIf (event.resultRef != some (result.ref hash) || result.planRef != plan.ref hash ||
      result.runId != event.runId ||
        decide (event.provenance.createdAt < result.provenance.createdAt))
    "reducer worker-result event does not resolve"
  pure result.issue

def reviewReportEvidence (hash : Json → String) (plan : DeliveryPlan) (event : ReducerEvent)
    (refs : EventReferences) : Except String IssueScope := do
  let result ← getOrRaise refs.reviewResult
    "review event requires supplied review-result evidence"
  raiseIf (event.resultRef != some (result.ref hash) || result.planRef != plan.ref hash ||
      result.runId != event.runId || result.policyProfile != plan.policyProfile ||
        decide (event.provenance.createdAt < result.provenance.createdAt))
    "reducer review-result event does not resolve"
  pure result.issue

def plannedAuthority (plan : DeliveryPlan) (issue : IssueScope) : Option AuthoritySnapshot :=
  plan.inputAuthorities.find? fun a =>
    a.authorityId == issue.authorityId && a.contentHash == issue.contractHash

def authorityChangeEvidence (plan : DeliveryPlan) (event : ReducerEvent) (log : EvidenceLog) :
    Except String Unit := do
  let subject ← getOrRaise event.subjectAuthority "AssertionError"
  let issue ← getOrRaise
    (plan.finalScope.find? fun item => item.authorityId == subject.authorityId)
    "authority-change event is outside exact plan scope"
  raiseIf
    (plan.expectedStates.find? fun item => item.issue.authorityId == subject.authorityId).isNone
    "authority-change event is outside exact plan scope"
  let planned ← getOrRaise (plannedAuthority plan issue)
    "authority-change event lacks planned authority"
  raiseIf (sameAuthorityState subject (resolveCurrentAuthority subject.authorityId planned
      event.runId event.planRef event.sequence log.events))
    "authority-change event must carry changed authority"

def referencedIssueEvidence (plan : DeliveryPlan) (event : ReducerEvent) (log : EvidenceLog)
    (issue : IssueScope) : Except String Unit := do
  raiseIf (plan.finalScope.find? (fun item => item.scopeKey == issue.scopeKey) != some issue)
    "reducer event references evidence outside exact plan scope"
  let subject ← getOrRaise event.subjectAuthority
    "reducer event subject contradicts referenced evidence"
  let planned ← getOrRaise (plannedAuthority plan issue)
    "reducer event subject contradicts referenced evidence"
  -- a result expresses the current authority, a report of an effect its own
  raiseIf (!event.eventType.isEffectResult &&
      !sameAuthorityState subject (resolveCurrentAuthority issue.authorityId planned
        event.runId event.planRef event.sequence log.events))
    "reducer event subject contradicts referenced evidence"

/-- `validate_reducer_event_evidence`, calling `validateEffect` for the effect an
event reports. -/
def eventEvidenceBody (hash : Json → String) (plan : DeliveryPlan)
    (validateEffect : ReducerEffect → EvidenceLog → Except String Unit)
    (event : ReducerEvent) (refs : EventReferences) (log : EvidenceLog) :
    Except String Unit := do
  raiseIf (event.planRef != plan.ref hash) "reducer event does not bind the supplied plan"
  raiseIf (decide (event.provenance.createdAt < plan.provenance.createdAt))
    "reducer event must follow plan provenance"
  match event.eventType with
  | .effectSucceeded | .effectFailed => do
      let issue ← effectReportEvidence hash validateEffect event refs log
      referencedIssueEvidence plan event log issue
  | .workerResultRecorded => do
      let issue ← workerReportEvidence hash plan event refs
      referencedIssueEvidence plan event log issue
  | .reviewResultRecorded => do
      let issue ← reviewReportEvidence hash plan event refs
      referencedIssueEvidence plan event log issue
  | .authorityChanged => authorityChangeEvidence plan event log
  | .runStarted | .timerElapsed | .exceptionRecorded => pure ()

/-! ### The recursion -/

/-- The resolver of events with `fuel` levels of effects below it. -/
def eventEvidence (hash : Json → String) (plan : DeliveryPlan) :
    ℕ → ReducerEvent → EventReferences → EvidenceLog → Except String Unit
  | 0 => fun _ _ _ => .error "RecursionError"
  | fuel + 1 =>
      eventEvidenceBody hash plan (effectEvidenceBody hash plan (eventEvidence hash plan fuel))

def validateReducerEventEvidence (hash : Json → String) (plan : DeliveryPlan)
    (event : ReducerEvent) (refs : EventReferences) (log : EvidenceLog) : Except String Unit :=
  eventEvidence hash plan refs.depth event refs log

def validateReducerEffectEvidence (hash : Json → String) (plan : DeliveryPlan)
    (effect : ReducerEffect) (log : EvidenceLog) : Except String Unit :=
  effectEvidenceBody hash plan (validateReducerEventEvidence hash plan) effect log

variable {hash : Json → String} {plan : DeliveryPlan} {log : EvidenceLog}

/-- The resolver of effects uses the other one at the causal event only. -/
theorem effectEvidenceBody_congr
    {f g : ReducerEvent → EventReferences → EvidenceLog → Except String Unit}
    {e : ReducerEffect} (h : ∀ l, f e.causalEvent (e.causalEvent.references log) l =
      g e.causalEvent (e.causalEvent.references log) l) :
    effectEvidenceBody hash plan f e log = effectEvidenceBody hash plan g e log := by
  simp only [effectEvidenceBody, h]

/-- The resolver of events uses the other one at the reported effect only, with
the effects sequenced before it. -/
theorem eventEvidenceBody_congr {f g : ReducerEffect → EvidenceLog → Except String Unit}
    {e : ReducerEvent} {refs : EventReferences}
    (h : ∀ effect, refs.effect = some effect → ∀ l : EvidenceLog,
      (∀ item ∈ l.effects, item.sequence < effect.sequence) → f effect l = g effect l) :
    eventEvidenceBody hash plan f e refs log = eventEvidenceBody hash plan g e refs log := by
  have hrep : effectReportEvidence hash f e refs log = effectReportEvidence hash g e refs log := by
    unfold effectReportEvidence
    cases hr : refs.effect with
    | none => rfl
    | some effect =>
      have hcl := h effect hr
        { log with
          effects := effectsBefore effect.sequence log.effects
          events := eventsBefore e.sequence log.events } (by
          intro item hi
          simpa [effectsBefore] using (List.mem_filter.mp hi).2)
      simp only [getOrRaise_some, ok_bind]
      rw [hcl]
  unfold eventEvidenceBody
  rw [hrep]

theorem depth_references_le {e : ReducerEvent} {n : ℕ}
    (h : ∀ item ∈ log.effects, item.sequence < n) : (e.references log).depth ≤ n + 1 := by
  unfold EventReferences.depth
  cases hr : (e.references log).effect with
  | none => exact Nat.le_add_left 1 n
  | some effect =>
    have hm : effect ∈ log.effects := by
      unfold ReducerEvent.references at hr
      cases href : e.effectRef with
      | none => simp [href] at hr
      | some r =>
        simp only [href] at hr
        exact List.mem_of_find?_eq_some hr
    have := h effect hm
    show effect.sequence + 2 ≤ n + 1
    omega

theorem eventEvidence_stable (n : ℕ) : ∀ (m : ℕ) (event : ReducerEvent)
    (refs : EventReferences) (log : EvidenceLog), refs.depth ≤ n → refs.depth ≤ m →
      eventEvidence hash plan n event refs log = eventEvidence hash plan m event refs log := by
  induction n with
  | zero =>
    intro m event refs log hn
    have := refs.one_le_depth
    omega
  | succ n ih =>
    intro m event refs log hn hm
    obtain ⟨m, rfl⟩ : ∃ k, m = k + 1 := by
      have := refs.one_le_depth
      exact ⟨m - 1, by omega⟩
    refine eventEvidenceBody_congr fun effect heff l hl => effectEvidenceBody_congr fun l' => ?_
    -- the causal event reports an effect sequenced before this one
    have hd := depth_references_le (e := effect.causalEvent) hl
    simp only [EventReferences.depth, heff] at hn hm
    exact ih m _ _ _ (by omega) (by omega)

/-- **The fuel suffices**: resolving an event calls the resolver of effects, which
calls the resolver of events. -/
theorem validateReducerEventEvidence_eq (ev : ReducerEvent) (refs : EventReferences)
    (log : EvidenceLog) :
    validateReducerEventEvidence hash plan ev refs log =
      eventEvidenceBody hash plan (validateReducerEffectEvidence hash plan) ev refs log := by
  obtain ⟨n, hn⟩ : ∃ n, refs.depth = n + 1 := by
    have := refs.one_le_depth
    exact ⟨refs.depth - 1, by omega⟩
  unfold validateReducerEventEvidence
  rw [hn]
  refine eventEvidenceBody_congr fun effect heff l hl => effectEvidenceBody_congr fun l' => ?_
  have hd := depth_references_le (e := effect.causalEvent) hl
  simp only [EventReferences.depth, heff] at hn
  exact eventEvidence_stable n _ _ _ _ (by omega) le_rfl

end AgenticPkm.Builderops
