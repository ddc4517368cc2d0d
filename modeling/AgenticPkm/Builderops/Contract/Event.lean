import AgenticPkm.Builderops.Contract.Plan

/-!
# Reducer events and reducer effects

The two contracts of the reducer log.  An event says that something was observed;
an effect is an authorised intention to act, and embeds the event that caused it.
Both are identified by the canonical hash of their semantic input.
-/

namespace AgenticPkm.Builderops

open List

/-! ### Events -/

structure DeliveryException where
  kind : ExceptionKind
  code : String
  message : String
  retryable : Bool
  evidenceRefs : List String
  deriving DecidableEq, Repr, Inhabited

namespace DeliveryException

def toJson (e : DeliveryException) : Json :=
  .obj [("kind", .str e.kind.text), ("code", .str e.code), ("message", .str e.message),
    ("retryable", .bool e.retryable), ("evidence_refs", .ofTexts e.evidenceRefs)]

def validate (e : DeliveryException) : Except String Unit := do
  checkNonEmptyStr "code" e.code
  checkNonEmptyStr "message" e.message
  checkAll (checkNonEmptyStr "evidence_refs") e.evidenceRefs
  raiseIf e.evidenceRefs.isEmpty "delivery exception must carry evidence"
  requireUnique e.evidenceRefs "exception evidence refs"
  requireSortedBy id e.evidenceRefs "exception evidence refs must use canonical sorted order"

end DeliveryException

def successOutcomeByEffect : EffectClass → EffectOutcomeState
  | .claimIssue => .claimed
  | .launchWorker => .workerLaunched
  | .awaitCi => .checksPassed
  | .requestReview => .reviewRecorded
  | .mergePullRequest => .merged
  | .closeIssue => .closed
  | .recordKnownDefect => .knownDefectRecorded
  | .recordDeliveryReceipt => .receiptRecorded

structure EffectOutcomeEvidence where
  effectClass : EffectClass
  effectIdempotencyKey : String
  outcomeState : EffectOutcomeState
  outcomeKeys : List String
  observedAt : String
  evidenceRefs : List String
  deriving DecidableEq, Repr, Inhabited

namespace EffectOutcomeEvidence

def toJson (o : EffectOutcomeEvidence) : Json :=
  .obj [("effect_class", .str o.effectClass.text),
    ("effect_idempotency_key", .str o.effectIdempotencyKey),
    ("outcome_state", .str o.outcomeState.text), ("outcome_keys", .ofTexts o.outcomeKeys),
    ("observed_at", .str o.observedAt), ("evidence_refs", .ofTexts o.evidenceRefs)]

def validate (o : EffectOutcomeEvidence) : Except String Unit := do
  checkNonEmptyStr "effect_idempotency_key" o.effectIdempotencyKey
  checkAll (checkNonEmptyStr "outcome_keys") o.outcomeKeys
  checkAll (checkNonEmptyStr "evidence_refs") o.evidenceRefs
  raiseIf (o.outcomeKeys.isEmpty || o.evidenceRefs.isEmpty)
    "effect outcome must carry keys and evidence"
  requireUnique o.outcomeKeys "effect outcome keys"
  requireUnique o.evidenceRefs "effect outcome evidence refs"
  requireSortedBy id o.outcomeKeys "effect outcome keys must use canonical sorted order"
  requireSortedBy id o.evidenceRefs "effect outcome evidence refs must use canonical sorted order"

end EffectOutcomeEvidence

inductive EventType
  | runStarted
  | effectSucceeded
  | effectFailed
  | authorityChanged
  | workerResultRecorded
  | reviewResultRecorded
  | timerElapsed
  | exceptionRecorded
  deriving DecidableEq, Repr, Inhabited

namespace EventType

def text : EventType → String
  | .runStarted => "run_started"
  | .effectSucceeded => "effect_succeeded"
  | .effectFailed => "effect_failed"
  | .authorityChanged => "authority_changed"
  | .workerResultRecorded => "worker_result_recorded"
  | .reviewResultRecorded => "review_result_recorded"
  | .timerElapsed => "timer_elapsed"
  | .exceptionRecorded => "exception_recorded"

/-- `event_type in {"effect_succeeded", "effect_failed"}`. -/
def isEffectResult : EventType → Bool
  | .effectSucceeded | .effectFailed => true
  | _ => false

/-- `_AUTHORITY_ADVANCING_EVENT_TYPES`. -/
def isAuthorityAdvancing : EventType → Bool
  | .effectSucceeded | .authorityChanged => true
  | _ => false

/-- `_SUBJECTLESS_CAUSAL_EVENT_TYPES`. -/
def isSubjectlessCause : EventType → Bool
  | .runStarted | .timerElapsed | .exceptionRecorded => true
  | _ => false

def requiresSubject : EventType → Bool
  | .effectSucceeded | .effectFailed | .authorityChanged => true
  | .workerResultRecorded | .reviewResultRecorded => true
  | .runStarted | .timerElapsed | .exceptionRecorded => false

def effectVersion : EventType → Option String
  | .effectSucceeded | .effectFailed => some reducerEffectVersion
  | _ => none

def resultVersion : EventType → Option String
  | .workerResultRecorded => some workerResultVersion
  | .reviewResultRecorded => some reviewResultVersion
  | _ => none

def requiresException : EventType → Bool
  | .effectFailed | .exceptionRecorded => true
  | _ => false

end EventType

/-- The semantic input of an event, as it is hashed. -/
def deliveryEventInput (runId : String) (planRef : ContractRef) (sequence : ℕ)
    (eventType : EventType) (subjectAuthority : Option AuthoritySnapshot)
    (effectRef resultRef : Option ContractRef) (exception : Option DeliveryException)
    (effectOutcome : Option EffectOutcomeEvidence) : Json :=
  .obj [("run_id", .str runId), ("plan_ref", planRef.toJson), ("sequence", .num sequence),
    ("event_type", .str eventType.text),
    ("subject_authority", .ofOption AuthoritySnapshot.semantics subjectAuthority),
    ("effect_ref", .ofOption ContractRef.toJson effectRef),
    ("result_ref", .ofOption ContractRef.toJson resultRef),
    ("exception", .ofOption DeliveryException.toJson exception),
    ("effect_outcome", .ofOption EffectOutcomeEvidence.toJson effectOutcome)]

def deliveryEventInputHash (hash : Json → String) (runId : String) (planRef : ContractRef)
    (sequence : ℕ) (eventType : EventType) (subjectAuthority : Option AuthoritySnapshot)
    (effectRef resultRef : Option ContractRef) (exception : Option DeliveryException)
    (effectOutcome : Option EffectOutcomeEvidence) : String :=
  hash (deliveryEventInput runId planRef sequence eventType subjectAuthority effectRef
    resultRef exception effectOutcome)

def deliveryEventId (inputHash : String) : String := "builderops.delivery-event.v1:" ++ inputHash

structure ReducerEvent where
  eventId : String
  inputHash : String
  runId : String
  planRef : ContractRef
  sequence : ℕ
  eventType : EventType
  subjectAuthority : Option AuthoritySnapshot
  effectRef : Option ContractRef
  resultRef : Option ContractRef
  exception : Option DeliveryException
  effectOutcome : Option EffectOutcomeEvidence
  provenance : Provenance
  deriving DecidableEq, Repr, Inhabited

/-- A reference is present exactly when a version is required, and has that version. -/
def checkTypedRef (reference : Option ContractRef) (version : Option String)
    (unexpected missing : String) : Except String Unit :=
  match version with
  | none => raiseIf reference.isSome unexpected
  | some v => raiseIf (reference.map ContractRef.schemaVersion != some v) missing

namespace ReducerEvent

def toJson (e : ReducerEvent) : Json :=
  .obj [("schema_version", .str reducerEventVersion), ("event_id", .str e.eventId),
    ("input_hash", .str e.inputHash), ("run_id", .str e.runId), ("plan_ref", e.planRef.toJson),
    ("sequence", .num e.sequence), ("event_type", .str e.eventType.text),
    ("subject_authority", .ofOption AuthoritySnapshot.toJson e.subjectAuthority),
    ("effect_ref", .ofOption ContractRef.toJson e.effectRef),
    ("result_ref", .ofOption ContractRef.toJson e.resultRef),
    ("exception", .ofOption DeliveryException.toJson e.exception),
    ("effect_outcome", .ofOption EffectOutcomeEvidence.toJson e.effectOutcome),
    ("provenance", e.provenance.toJson)]

def validateFields (e : ReducerEvent) : Except String Unit := do
  checkNonEmptyStr "event_id" e.eventId
  checkNonEmptyStr "run_id" e.runId
  e.planRef.validate
  checkOption AuthoritySnapshot.validate e.subjectAuthority
  checkOption ContractRef.validate e.effectRef
  checkOption ContractRef.validate e.resultRef
  checkOption DeliveryException.validate e.exception
  checkOption EffectOutcomeEvidence.validate e.effectOutcome
  e.provenance.validate

def expectedInputHash (hash : Json → String) (e : ReducerEvent) : String :=
  deliveryEventInputHash hash e.runId e.planRef e.sequence e.eventType e.subjectAuthority
    e.effectRef e.resultRef e.exception e.effectOutcome

def validateEvent (hash : Json → String) (e : ReducerEvent) : Except String Unit := do
  raiseIf (e.planRef.schemaVersion != deliveryPlanVersion)
    "reducer event must bind DeliveryPlan.v1"
  raiseIf ((e.eventType == .runStarted) != (e.sequence == 0))
    "run-started must be sequence zero and later events must not"
  raiseIf (e.subjectAuthority.isSome != e.eventType.requiresSubject)
    (e.eventType.text ++ " subject authority does not match event contract")
  checkTypedRef e.effectRef e.eventType.effectVersion
    (e.eventType.text ++ " must not carry an effect ref")
    (e.eventType.text ++ " requires a typed reducer-effect ref")
  checkTypedRef e.resultRef e.eventType.resultVersion
    (e.eventType.text ++ " must not carry a result ref")
    (e.eventType.text ++ " requires the matching structured-result ref")
  raiseIf (e.exception.isSome != e.eventType.requiresException)
    (e.eventType.text ++ " typed exception does not match event contract")
  raiseIf (e.effectOutcome.isSome != e.eventType.isEffectResult)
    "effect result events must carry typed outcome evidence"
  raiseIf (e.subjectAuthority.any fun a => decide (a.observedAt > e.provenance.createdAt))
    "event authority observation must precede event provenance"
  raiseIf (e.inputHash != e.expectedInputHash hash)
    "reducer event input hash must bind semantic input"
  raiseIf (e.eventId != deliveryEventId (e.expectedInputHash hash))
    "reducer event identity must derive from semantic input"

def validate (hash : Json → String) (e : ReducerEvent) : Except String Unit := do
  e.validateFields
  e.validateEvent hash

end ReducerEvent

/-! ### The authority an event log proves -/

/-- The first greatest element of a nonempty list: Python's `max`. -/
def maxFirst {α : Type} (lt : α → α → Bool) (first : α) (rest : List α) : α :=
  rest.foldl (fun best x => if lt best x then x else best) first

/-- The order in which advancing observations supersede each other: by sequence,
then by the canonical text of the snapshot. -/
def supersededBy (a b : ℕ × AuthoritySnapshot) : Bool :=
  decide (a.1 < b.1) || (a.1 == b.1 && decide (a.2.toJson.render < b.2.toJson.render))

/-- What an event says about an authority, with its sequence, if it advances it. -/
def advancingObservation (authorityId runId : String) (planRef : ContractRef)
    (beforeSequence : ℕ) (e : ReducerEvent) : Option (ℕ × AuthoritySnapshot) :=
  match e.subjectAuthority with
  | none => none
  | some subject =>
      if e.runId == runId && e.planRef == planRef && decide (e.sequence < beforeSequence) &&
          e.eventType.isAuthorityAdvancing && subject.authorityId == authorityId then
        some (e.sequence, subject)
      else
        none

/-- `resolve_current_authority`: the latest authority state the event log proves,
with the plan's input as the origin. -/
def resolveCurrentAuthority (authorityId : String) (plannedAuthority : AuthoritySnapshot)
    (runId : String) (planRef : ContractRef) (beforeSequence : ℕ)
    (priorEvents : List ReducerEvent) : AuthoritySnapshot :=
  match priorEvents.filterMap (advancingObservation authorityId runId planRef beforeSequence) with
  | [] => plannedAuthority
  | first :: rest => (maxFirst supersededBy first rest).2

variable {α : Type}

theorem maxFirst_mem (lt : α → α → Bool) (f : α) (rest : List α) :
    maxFirst lt f rest ∈ f :: rest := by
  unfold maxFirst
  induction rest generalizing f with
  | nil => exact mem_cons_self
  | cons x rest ih =>
    rw [foldl_cons]
    rcases mem_cons.mp (ih (if lt f x then x else f)) with hb | hr
    · rw [hb]
      split
      · exact mem_cons_of_mem _ mem_cons_self
      · exact mem_cons_self
    · exact mem_cons_of_mem _ (mem_cons_of_mem _ hr)

theorem maxFirst_concat {lt : α → α → Bool} {f last : α} {rest : List α}
    (h : ∀ x ∈ f :: rest, lt x last) : maxFirst lt f (rest ++ [last]) = last := by
  have hb := h _ (maxFirst_mem lt f rest)
  unfold maxFirst at hb ⊢
  rw [foldl_append, foldl_cons, foldl_nil, if_pos hb]

section Resolution

variable {a r : String} {pl : AuthoritySnapshot} {p : ContractRef}
  {b : ℕ} {events : List ReducerEvent} {e : ReducerEvent} {o : ℕ × AuthoritySnapshot}

theorem sequence_of_advancingObservation (h : advancingObservation a r p b e = some o) :
    o.1 = e.sequence := by
  unfold advancingObservation at h
  split at h
  · cases h
  · split at h
    · cases h
      rfl
    · cases h

theorem resolveCurrentAuthority_concat_of_none (h : advancingObservation a r p b e = none) :
    resolveCurrentAuthority a pl r p b (events ++ [e]) =
      resolveCurrentAuthority a pl r p b events := by
  simp [resolveCurrentAuthority, h]

/-- **The last advancing event of a log is what the log proves.** -/
theorem resolveCurrentAuthority_concat_of_some (h : advancingObservation a r p b e = some o)
    (hl : ∀ x ∈ events, x.sequence < e.sequence) :
    resolveCurrentAuthority a pl r p b (events ++ [e]) = o.2 := by
  unfold resolveCurrentAuthority
  rw [filterMap_append, filterMap_cons_some h, filterMap_nil]
  cases ho : events.filterMap (advancingObservation a r p b) with
  | nil => rfl
  | cons f rest =>
    show (maxFirst supersededBy f (rest ++ [o])).2 = o.2
    rw [maxFirst_concat]
    intro x hx
    rw [← ho, mem_filterMap] at hx
    obtain ⟨d, hd, hdx⟩ := hx
    have hlt : x.1 < o.1 := by
      rw [sequence_of_advancingObservation hdx, sequence_of_advancingObservation h]
      exact hl d hd
    simp [supersededBy, hlt]

theorem resolveCurrentAuthority_of_above {ot : ℕ}
    (h : ∀ x ∈ events, x.sequence < b) (ho : ∀ x ∈ events, x.sequence < ot) :
    resolveCurrentAuthority a pl r p b events = resolveCurrentAuthority a pl r p ot events := by
  have hobs : events.filterMap (advancingObservation a r p b) =
      events.filterMap (advancingObservation a r p ot) := by
    refine filterMap_congr fun x hx => ?_
    simp [advancingObservation, h x hx, ho x hx]
  unfold resolveCurrentAuthority
  rw [hobs]

end Resolution

/-! ### Effect identity -/

def deliveryEffectInput (runId : String) (planRef : ContractRef) (effectClass : EffectClass)
    (issue : IssueScope) (pullRequestNumber : Option ℕ) (exactHeadSha : Option String)
    (expectedAuthorities : List AuthoritySnapshot) (expectedOutcomeKeys : List String)
    (knownDefectRegistryRef knownDefectFindingHash : Option String) : Json :=
  .obj [("run_id", .str runId), ("plan_ref", planRef.toJson),
    ("effect_class", .str effectClass.text), ("issue", issue.toJson),
    ("pull_request_number", .ofOption .num pullRequestNumber),
    ("exact_head_sha", .ofOption .str exactHeadSha),
    ("expected_authorities",
      .arr (sortedBy Json.render (expectedAuthorities.map AuthoritySnapshot.semantics))),
    ("expected_outcome_keys", .ofTexts expectedOutcomeKeys),
    ("known_defect_registry_ref", .ofOption .str knownDefectRegistryRef),
    ("known_defect_finding_hash", .ofOption .str knownDefectFindingHash)]

def deliveryEffectIdempotencyKey (inputHash : String) : String :=
  "builderops.delivery-effect.v1:" ++ inputHash

def optionalNumberText : Option ℕ → String
  | some n => toString n
  | none => "None"

def deliveryEffectExpectedOutcomeKeys (effectClass : EffectClass) (runId : String)
    (issue : IssueScope) (pullRequestNumber : Option ℕ) (requiredCheckNames : List String)
    (knownDefectRegistryRef knownDefectFindingHash : Option String) :
    Except String (List String) :=
  match effectClass with
  | .claimIssue => .ok [issue.authorityId ++ "#claimed"]
  | .launchWorker => .ok ["builderops:worker:" ++ runId ++ ":" ++ issue.authorityId]
  | .awaitCi => .ok ((sortedBy id requiredCheckNames).map fun name => "check-name:" ++ name)
  | .requestReview => .ok ["builderops:review:" ++ runId ++ ":" ++ issue.authorityId]
  | .mergePullRequest =>
      .ok ["github:" ++ issue.repository ++ "/pulls/" ++ optionalNumberText pullRequestNumber]
  | .closeIssue => .ok [issue.authorityId ++ "#closed"]
  | .recordKnownDefect =>
      match knownDefectRegistryRef, knownDefectFindingHash with
      | some registryRef, some findingHash =>
          .ok ["builderops:known-defect:" ++ registryRef ++ ":" ++ findingHash]
      | _, _ => .error "known-defect effect requires exact registry and finding identity"
  | .recordDeliveryReceipt => .ok ["builderops:receipt:" ++ runId ++ ":" ++ issue.authorityId]

/-! ### Effects -/

structure ReducerEffect where
  effectId : String
  runId : String
  planRef : ContractRef
  causalEvent : ReducerEvent
  sequence : ℕ
  effectClass : EffectClass
  issue : IssueScope
  pullRequestNumber : Option ℕ
  exactHeadSha : Option String
  expectedAuthorities : List AuthoritySnapshot
  expectedOutcomeKeys : List String
  knownDefectRegistryRef : Option String
  knownDefectFindingHash : Option String
  idempotencyKey : String
  inputHash : String
  provenance : Provenance
  deriving DecidableEq, Repr, Inhabited

/-- The effects that act on a pull request at an exact head. -/
def EffectClass.requiresPullRequest : EffectClass → Bool
  | .claimIssue | .launchWorker => false
  | _ => true

/-- The pattern `registry:<repository>/issues/[1-9][0-9]*:KD-[0-9A-F]{12}`. -/
def isCanonicalRegistryRef (repository registryRef : String) : Bool :=
  let start := textBytes ("registry:" ++ repository ++ "/issues/")
  let tail := (textBytes registryRef).drop start.length
  let digits := tail.takeWhile isDigitByte
  let defect := tail.dropWhile isDigitByte
  (textBytes registryRef).take start.length == start && !digits.isEmpty &&
    digits.head? != some 48 && defect.take 4 == textBytes ":KD-" &&
      (defect.drop 4).length == 12 && (defect.drop 4).all isUpperHexByte

namespace ReducerEffect

def toJson (e : ReducerEffect) : Json :=
  .obj [("schema_version", .str reducerEffectVersion), ("effect_id", .str e.effectId),
    ("run_id", .str e.runId), ("plan_ref", e.planRef.toJson),
    ("causal_event", e.causalEvent.toJson), ("sequence", .num e.sequence),
    ("effect_class", .str e.effectClass.text), ("issue", e.issue.toJson),
    ("pull_request_number", .ofOption .num e.pullRequestNumber),
    ("exact_head_sha", .ofOption .str e.exactHeadSha),
    ("expected_authorities", .arr (e.expectedAuthorities.map AuthoritySnapshot.toJson)),
    ("expected_outcome_keys", .ofTexts e.expectedOutcomeKeys),
    ("known_defect_registry_ref", .ofOption .str e.knownDefectRegistryRef),
    ("known_defect_finding_hash", .ofOption .str e.knownDefectFindingHash),
    ("idempotency_key", .str e.idempotencyKey), ("input_hash", .str e.inputHash),
    ("requires_live_authority_check", .bool true), ("authorized_by_plan_only", .bool false),
    ("provenance", e.provenance.toJson)]

def ref (hash : Json → String) (e : ReducerEffect) : ContractRef where
  schemaVersion := reducerEffectVersion
  contractId := e.effectId
  contentHash := hash e.toJson

def semanticInput (e : ReducerEffect) : Json :=
  deliveryEffectInput e.runId e.planRef e.effectClass e.issue e.pullRequestNumber
    e.exactHeadSha e.expectedAuthorities e.expectedOutcomeKeys e.knownDefectRegistryRef
    e.knownDefectFindingHash

/-- The constraints on the fields a constructor call assembles.  The embedded
models were validated when they were built. -/
def validateScalars (e : ReducerEffect) : Except String Unit := do
  checkNonEmptyStr "effect_id" e.effectId
  checkNonEmptyStr "run_id" e.runId
  checkPositiveInt "sequence" e.sequence
  checkOption (checkPositiveInt "pull_request_number") e.pullRequestNumber
  checkOption (checkGitSha "exact_head_sha") e.exactHeadSha
  checkAll (checkNonEmptyStr "expected_outcome_keys") e.expectedOutcomeKeys
  checkOption (checkNonEmptyStr "known_defect_registry_ref") e.knownDefectRegistryRef
  checkNonEmptyStr "idempotency_key" e.idempotencyKey

/-- The embedded models, which a strict re-parse validates again. -/
def validateEmbedded (hash : Json → String) (e : ReducerEffect) : Except String Unit := do
  e.planRef.validate
  e.causalEvent.validate hash
  e.issue.validate
  checkAll AuthoritySnapshot.validate e.expectedAuthorities
  e.provenance.validate

/-- The part of `_validate_effect` that depends on the subject of the cause. -/
def validateCause (e : ReducerEffect) : Except String Unit :=
  match e.causalEvent.subjectAuthority with
  | none =>
      raiseIf (!e.causalEvent.eventType.isSubjectlessCause)
        "subjectless effect cause must be a run-started, timer, or exception event"
  | some subject =>
      raiseIf (e.expectedAuthorities != [subject])
        "effect authority must bind the current causal event state"

def validateEffect (hash : Json → String) (e : ReducerEffect) : Except String Unit := do
  raiseIf (e.planRef.schemaVersion != deliveryPlanVersion)
    "reducer effect must bind DeliveryPlan.v1"
  raiseIf (e.causalEvent.runId != e.runId || e.causalEvent.planRef != e.planRef ||
      decide (e.causalEvent.sequence ≥ e.sequence))
    "reducer effect must embed an earlier causal event"
  raiseIf e.expectedAuthorities.isEmpty "reducer effect must bind expected live authority"
  raiseIf (e.expectedAuthorities.any fun a => decide (a.observedAt > e.provenance.createdAt))
    "effect authority observations must precede effect provenance"
  requireUnique (e.expectedAuthorities.map AuthoritySnapshot.authorityId)
    "effect expected authority IDs"
  requireUnique e.expectedOutcomeKeys "effect expected outcome keys"
  requireSortedBy id (e.expectedAuthorities.map AuthoritySnapshot.authorityId)
    "effect expected authorities must use canonical sorted order"
  requireSortedBy id e.expectedOutcomeKeys
    "effect expected outcome keys must use canonical sorted order"
  raiseIf (!(e.expectedAuthorities.any fun a =>
      a.authorityId == e.issue.authorityId && a.contentHash == e.issue.contractHash))
    "effect authority snapshots must bind the issue"
  e.validateCause
  raiseIf (e.effectClass.requiresPullRequest &&
      (e.pullRequestNumber.isNone || e.exactHeadSha.isNone))
    (e.effectClass.text ++ " requires pull request and exact head")
  raiseIf (!e.effectClass.requiresPullRequest &&
      (e.pullRequestNumber.isSome || e.exactHeadSha.isSome))
    (e.effectClass.text ++ " must not carry pull request or exact head")
  raiseIf ((e.effectClass == .recordKnownDefect &&
        !(e.knownDefectRegistryRef.isSome && e.knownDefectFindingHash.isSome)) ||
      (e.effectClass != .recordKnownDefect &&
        (e.knownDefectRegistryRef.isSome || e.knownDefectFindingHash.isSome)))
    "only known-defect effects require an exact defect target"
  raiseIf (e.effectClass == .recordKnownDefect &&
      e.knownDefectRegistryRef.any fun r => !isCanonicalRegistryRef e.issue.repository r)
    "known-defect target must use canonical repository registry identity"
  raiseIf (e.inputHash != hash e.semanticInput)
    "reducer effect input hash must bind exact semantic input"
  raiseIf (e.idempotencyKey != deliveryEffectIdempotencyKey (hash e.semanticInput))
    "reducer effect idempotency key must derive from semantic input"
  raiseIf (e.effectId != e.idempotencyKey)
    "reducer effect identity must equal its logical idempotency key"

/-- What `_validate_effect` checks. -/
structure Sound (hash : Json → String) (e : ReducerEffect) : Prop where
  schema_eq : e.planRef.schemaVersion = deliveryPlanVersion
  cause_run : e.causalEvent.runId = e.runId
  cause_plan : e.causalEvent.planRef = e.planRef
  cause_lt : e.causalEvent.sequence < e.sequence
  authorities_ne : e.expectedAuthorities ≠ []
  observed_le : ∀ x ∈ e.expectedAuthorities, x.observedAt ≤ e.provenance.createdAt
  ids_distinct : (e.expectedAuthorities.map AuthoritySnapshot.authorityId).Nodup
  keys_distinct : e.expectedOutcomeKeys.Nodup
  ids_sorted : (e.expectedAuthorities.map AuthoritySnapshot.authorityId).Pairwise
    fun x y => id x ≤ id y
  keys_sorted : e.expectedOutcomeKeys.Pairwise fun x y => id x ≤ id y
  binds : ∃ x ∈ e.expectedAuthorities,
    x.authorityId = e.issue.authorityId ∧ x.contentHash = e.issue.contractHash
  subject : ∀ subject, e.causalEvent.subjectAuthority = some subject →
    e.expectedAuthorities = [subject]
  subjectless : e.causalEvent.subjectAuthority = none →
    e.causalEvent.eventType.isSubjectlessCause = true
  pull_some : e.pullRequestNumber.isSome = e.effectClass.requiresPullRequest
  head_some : e.exactHeadSha.isSome = e.effectClass.requiresPullRequest
  ref_some : e.knownDefectRegistryRef.isSome = (e.effectClass == .recordKnownDefect)
  finding_some : e.knownDefectFindingHash.isSome = (e.effectClass == .recordKnownDefect)
  canonical : ∀ r, e.knownDefectRegistryRef = some r →
    isCanonicalRegistryRef e.issue.repository r = true
  input_eq : e.inputHash = hash e.semanticInput
  key_eq : e.idempotencyKey = deliveryEffectIdempotencyKey (hash e.semanticInput)
  id_eq : e.effectId = e.idempotencyKey

variable {α β : Type} {x : Option α} {y : Option β} {ec : EffectClass}
  {hash : Json → String}

theorem present_iff {required : Bool} :
    ((required && (x.isNone || y.isNone)) = false ∧ (!required && (x.isSome || y.isSome)) = false) ↔
      x.isSome = required ∧ y.isSome = required := by
  cases required <;> cases x <;> cases y <;> simp

theorem defect_iff :
    ((ec == .recordKnownDefect && !(x.isSome && y.isSome)) = false ∧
        (ec != .recordKnownDefect && (x.isSome || y.isSome)) = false) ↔
      x.isSome = (ec == .recordKnownDefect) ∧ y.isSome = (ec == .recordKnownDefect) := by
  cases ec <;> cases x <;> cases y <;> simp

theorem canonical_iff {x : Option String} {rp : String}
    (h : x.isSome = (ec == .recordKnownDefect)) :
    (ec == .recordKnownDefect && x.any fun r => !isCanonicalRegistryRef rp r) = false ↔
      ∀ r, x = some r → isCanonicalRegistryRef rp r := by
  rw [← h]
  cases x <;> simp

variable {e : ReducerEffect}

theorem validateCause_eq_ok_iff :
    e.validateCause = .ok () ↔
      (∀ subject, e.causalEvent.subjectAuthority = some subject →
        e.expectedAuthorities = [subject]) ∧
      (e.causalEvent.subjectAuthority = none → e.causalEvent.eventType.isSubjectlessCause) := by
  unfold validateCause
  cases e.causalEvent.subjectAuthority <;> simp

/-- **`_validate_effect` checks exactly this.** -/
theorem validateEffect_eq_ok_iff : e.validateEffect hash = .ok () ↔ e.Sound hash := by
  simp only [validateEffect, bind_unit_eq_ok_iff, raiseIf_eq_ok_iff, requireUnique_eq_ok_iff,
    requireSortedBy_eq_ok_iff, validateCause_eq_ok_iff, bne_eq_false_iff_eq,
    Bool.or_eq_false_iff, decide_eq_false_iff_not, ge_iff_le, gt_iff_lt, not_le, not_lt,
    isEmpty_eq_false_iff, any_eq_false, decide_eq_true_eq, Bool.not_eq_false',
    any_eq_true, Bool.and_eq_true, beq_iff_eq]
  constructor
  · rintro ⟨s, ⟨⟨run, plan⟩, er⟩, a, ob, ids, keys, i,
      keysSorted, bound, ⟨subject, subjectless⟩, n, u, defect, canonical, input, key,
      id⟩
    obtain ⟨pull, head⟩ := present_iff.mp ⟨n, u⟩
    obtain ⟨ref, f⟩ := defect_iff.mp defect
    exact ⟨s, run, plan, er, a, ob, ids, keys, i, keysSorted,
      bound, subject, subjectless, pull, head, ref, f, (canonical_iff ref).mp canonical,
      input, key, id⟩
  · intro h
    obtain ⟨n, u⟩ := present_iff.mpr ⟨h.pull_some, h.head_some⟩
    exact ⟨h.schema_eq, ⟨⟨h.cause_run, h.cause_plan⟩, h.cause_lt⟩, h.authorities_ne,
      h.observed_le, h.ids_distinct, h.keys_distinct, h.ids_sorted, h.keys_sorted, h.binds,
      ⟨h.subject, h.subjectless⟩, n, u, defect_iff.mpr ⟨h.ref_some, h.finding_some⟩,
      (canonical_iff h.ref_some).mpr h.canonical, h.input_eq, h.key_eq, h.id_eq⟩

/-- What a constructor call on validated parts checks. -/
def validateNew (hash : Json → String) (e : ReducerEffect) : Except String Unit := do
  e.validateScalars
  e.validateEffect hash

/-- What a strict re-parse checks. -/
def validate (hash : Json → String) (e : ReducerEffect) : Except String Unit := do
  e.validateEmbedded hash
  e.validateNew hash

theorem sound_of_validate (h : e.validate hash = .ok ()) : e.Sound hash := by
  simp only [validate, validateNew, bind_unit_eq_ok_iff] at h
  exact validateEffect_eq_ok_iff.mp h.2.2

end ReducerEffect

end AgenticPkm.Builderops
