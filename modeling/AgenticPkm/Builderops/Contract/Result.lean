import AgenticPkm.Builderops.Contract.Event

/-!
# Structured results and the worker authority chain

The results that come back from outside the run: the delivery-domain result of a
worker, the verdict of a review, and the carrier-neutral envelope around a worker
result, whose references form a chain from the context pack through the
invocation to the launch effect that authorised them.
-/

namespace AgenticPkm.Builderops

/-! ### Worker results -/

inductive ValidationStatus
  | passed
  | failed
  | skipped
  deriving DecidableEq, Repr, Inhabited

def ValidationStatus.text : ValidationStatus → String
  | .passed => "passed"
  | .failed => "failed"
  | .skipped => "skipped"

/-- A check that was run, at a head. -/
structure ValidationEvidence where
  name : String
  status : ValidationStatus
  evidenceRef : String
  exactHeadSha : Option String
  deriving DecidableEq, Repr, Inhabited

namespace ValidationEvidence

def toJson (v : ValidationEvidence) : Json :=
  .obj [("name", .str v.name), ("status", .str v.status.text),
    ("evidence_ref", .str v.evidenceRef), ("exact_head_sha", .ofOption .str v.exactHeadSha)]

def validate (v : ValidationEvidence) : Except String Unit := do
  checkNonEmptyStr "name" v.name
  checkNonEmptyStr "evidence_ref" v.evidenceRef
  checkOption (checkGitSha "exact_head_sha") v.exactHeadSha

end ValidationEvidence

inductive WorkerStatus
  | completed
  | blocked
  | failed
  | cancelled
  deriving DecidableEq, Repr, Inhabited

namespace WorkerStatus

def text : WorkerStatus → String
  | .completed => "completed"
  | .blocked => "blocked"
  | .failed => "failed"
  | .cancelled => "cancelled"

/-- `allowed_exception_kinds`; a completed result is not restricted. -/
def allows : WorkerStatus → ExceptionKind → Bool
  | .completed, _ => true
  | .blocked, .authorityConflict => true
  | .blocked, .dependencyBlocked => true
  | .blocked, .budgetExhausted => true
  | .blocked, .reviewBlocking => true
  | .failed, .malformedResult => true
  | .failed, .externalStateUnknown => true
  | .failed, .executionFailed => true
  | .cancelled, .cancelled => true
  | _, _ => false

end WorkerStatus

/-- What a worker reports of its Issue. -/
structure StructuredWorkerResult where
  resultId : String
  runId : String
  planRef : ContractRef
  issue : IssueScope
  status : WorkerStatus
  exactHeadSha : Option String
  pullRequestNumber : Option ℕ
  changedFiles : List String
  validations : List ValidationEvidence
  exceptions : List DeliveryException
  summary : String
  provenance : Provenance
  deriving DecidableEq, Repr, Inhabited

namespace StructuredWorkerResult

def toJson (r : StructuredWorkerResult) : Json :=
  .obj [("schema_version", .str workerResultVersion), ("result_id", .str r.resultId),
    ("run_id", .str r.runId), ("plan_ref", r.planRef.toJson), ("issue", r.issue.toJson),
    ("status", .str r.status.text), ("exact_head_sha", .ofOption .str r.exactHeadSha),
    ("pull_request_number", .ofOption .num r.pullRequestNumber),
    ("changed_files", .ofTexts r.changedFiles),
    ("validations", .arr (r.validations.map ValidationEvidence.toJson)),
    ("exceptions", .arr (r.exceptions.map DeliveryException.toJson)),
    ("summary", .str r.summary), ("provenance", r.provenance.toJson)]

def ref (hash : Json → String) (r : StructuredWorkerResult) : ContractRef where
  schemaVersion := workerResultVersion
  contractId := r.resultId
  contentHash := hash r.toJson

def validateFields (r : StructuredWorkerResult) : Except String Unit := do
  checkNonEmptyStr "result_id" r.resultId
  checkNonEmptyStr "run_id" r.runId
  r.planRef.validate
  r.issue.validate
  checkOption (checkGitSha "exact_head_sha") r.exactHeadSha
  checkOption (checkPositiveInt "pull_request_number") r.pullRequestNumber
  checkAll (checkNonEmptyStr "changed_files") r.changedFiles
  checkAll ValidationEvidence.validate r.validations
  checkAll DeliveryException.validate r.exceptions
  checkNonEmptyStr "summary" r.summary
  r.provenance.validate

def validateStatus (r : StructuredWorkerResult) : Except String Unit :=
  match r.status with
  | .completed => do
      raiseIf (r.exactHeadSha.isNone || r.pullRequestNumber.isNone)
        "completed worker result requires exact head and pull request"
      raiseIf r.validations.isEmpty "completed worker result requires validation evidence"
      raiseIf (r.validations.any fun v => v.status != .passed)
        "completed worker result cannot carry non-passing validation"
      raiseIf (r.validations.any fun v => v.exactHeadSha != r.exactHeadSha)
        "worker validation must bind the exact result head"
  | status => do
      raiseIf r.exceptions.isEmpty "non-completed worker result requires a typed exception"
      raiseIf (r.exceptions.any fun x => !status.allows x.kind)
        "worker exception kinds must match terminal status"

def validateResult (r : StructuredWorkerResult) : Except String Unit := do
  raiseIf (r.planRef.schemaVersion != deliveryPlanVersion)
    "worker result must bind DeliveryPlan.v1"
  requireUnique r.changedFiles "changed files"
  requireUnique (r.validations.map ValidationEvidence.name) "validation evidence"
  requireUnique (r.exceptions.map DeliveryException.code) "worker exceptions"
  requireSortedBy id r.changedFiles "changed files must use canonical sorted order"
  requireSortedBy ValidationEvidence.name r.validations
    "validation evidence must use canonical sorted order"
  requireSortedBy DeliveryException.code r.exceptions
    "worker exceptions must use canonical sorted order"
  r.validateStatus

def validate (r : StructuredWorkerResult) : Except String Unit := do
  r.validateFields
  r.validateResult

end StructuredWorkerResult

/-! ### Review results -/

inductive Severity
  | p0
  | p1
  | p2
  | p3
  deriving DecidableEq, Repr, Inhabited

def Severity.text : Severity → String
  | .p0 => "P0"
  | .p1 => "P1"
  | .p2 => "P2"
  | .p3 => "P3"

structure ReviewFinding where
  findingId : String
  severity : Severity
  summary : String
  protectedRisk : Bool
  falseGreen : Bool
  evidenceRefs : List String
  deriving DecidableEq, Repr, Inhabited

namespace ReviewFinding

def toJson (f : ReviewFinding) : Json :=
  .obj [("finding_id", .str f.findingId), ("severity", .str f.severity.text),
    ("summary", .str f.summary), ("protected_risk", .bool f.protectedRisk),
    ("false_green", .bool f.falseGreen), ("evidence_refs", .ofTexts f.evidenceRefs)]

def validate (f : ReviewFinding) : Except String Unit := do
  checkNonEmptyStr "finding_id" f.findingId
  checkNonEmptyStr "summary" f.summary
  checkAll (checkNonEmptyStr "evidence_refs") f.evidenceRefs
  raiseIf f.evidenceRefs.isEmpty "review finding must carry evidence"
  requireUnique f.evidenceRefs "review finding evidence refs"
  requireSortedBy id f.evidenceRefs
    "review finding evidence refs must use canonical sorted order"

/-- What calls for a rejection. -/
def isBlocking (f : ReviewFinding) : Bool :=
  f.severity == .p0 || f.severity == .p1 || f.protectedRisk || f.falseGreen

end ReviewFinding

inductive Disposition
  | accept
  | reject
  | acceptWithRisk
  deriving DecidableEq, Repr, Inhabited

def Disposition.text : Disposition → String
  | .accept => "accept"
  | .reject => "reject"
  | .acceptWithRisk => "accept_with_risk"

/-- The verdict of a review at one head. -/
structure ReviewResult where
  resultId : String
  runId : String
  planRef : ContractRef
  policyProfile : PolicyProfile
  issue : IssueScope
  pullRequestNumber : ℕ
  exactHeadSha : String
  disposition : Disposition
  confidenceBasisPoints : ℕ
  findings : List ReviewFinding
  knownDefectRefs : List String
  provenance : Provenance
  deriving DecidableEq, Repr, Inhabited

namespace ReviewResult

def toJson (r : ReviewResult) : Json :=
  .obj [("schema_version", .str reviewResultVersion), ("result_id", .str r.resultId),
    ("run_id", .str r.runId), ("plan_ref", r.planRef.toJson),
    ("policy_profile", r.policyProfile.toJson), ("issue", r.issue.toJson),
    ("pull_request_number", .num r.pullRequestNumber),
    ("exact_head_sha", .str r.exactHeadSha), ("disposition", .str r.disposition.text),
    ("confidence_basis_points", .num r.confidenceBasisPoints),
    ("findings", .arr (r.findings.map ReviewFinding.toJson)),
    ("known_defect_refs", .ofTexts r.knownDefectRefs), ("provenance", r.provenance.toJson)]

def ref (hash : Json → String) (r : ReviewResult) : ContractRef where
  schemaVersion := reviewResultVersion
  contractId := r.resultId
  contentHash := hash r.toJson

def validateFields (r : ReviewResult) : Except String Unit := do
  checkNonEmptyStr "result_id" r.resultId
  checkNonEmptyStr "run_id" r.runId
  r.planRef.validate
  r.policyProfile.validate
  r.issue.validate
  checkPositiveInt "pull_request_number" r.pullRequestNumber
  checkGitSha "exact_head_sha" r.exactHeadSha
  checkBasisPoints "confidence_basis_points" r.confidenceBasisPoints
  checkAll ReviewFinding.validate r.findings
  checkAll (checkNonEmptyStr "known_defect_refs") r.knownDefectRefs
  r.provenance.validate

def deferred (r : ReviewResult) : List ReviewFinding :=
  r.findings.filter fun f => f.severity == .p2

def validateReview (r : ReviewResult) : Except String Unit := do
  raiseIf (r.planRef.schemaVersion != deliveryPlanVersion)
    "review result must bind DeliveryPlan.v1"
  requireUnique (r.findings.map ReviewFinding.findingId) "review finding IDs"
  requireUnique r.knownDefectRefs "known defect refs"
  requireSortedBy ReviewFinding.findingId r.findings
    "review findings must use canonical sorted order"
  requireSortedBy id r.knownDefectRefs "known defect refs must use canonical sorted order"
  raiseIf (r.findings.any ReviewFinding.isBlocking && r.disposition != .reject)
    "blocking review evidence requires reject disposition"
  raiseIf (decide (r.confidenceBasisPoints < r.policyProfile.minimumReviewConfidenceBasisPoints)
      && r.disposition != .reject)
    "low-confidence review evidence requires reject disposition"
  raiseIf (r.disposition == .accept && !r.findings.isEmpty)
    "accept disposition must not carry findings"
  raiseIf (r.disposition == .acceptWithRisk && r.findings.isEmpty)
    "accept_with_risk requires at least one finding"
  raiseIf (r.disposition != .acceptWithRisk && !r.knownDefectRefs.isEmpty)
    "known defect refs are only valid for accept_with_risk disposition"
  raiseIf (decide (r.knownDefectRefs.length > r.deferred.length))
    "review cannot carry more known-defect refs than P2 findings"

def validate (r : ReviewResult) : Except String Unit := do
  r.validateFields
  r.validateReview

end ReviewResult

/-! ### The worker authority chain -/

/-- What a worker is given to read. -/
structure WorkerContextPack where
  contextPackId : String
  runId : String
  planRef : ContractRef
  effectRef : ContractRef
  issue : IssueScope
  baseHeadSha : Option String
  requiredSkills : List String
  verifyTargets : List String
  contextRefs : List SourceRef
  provenance : Provenance
  deriving DecidableEq, Repr, Inhabited

namespace WorkerContextPack

def toJson (p : WorkerContextPack) : Json :=
  .obj [("schema_version", .str workerContextPackVersion),
    ("context_pack_id", .str p.contextPackId), ("run_id", .str p.runId),
    ("plan_ref", p.planRef.toJson), ("effect_ref", p.effectRef.toJson),
    ("issue", p.issue.toJson), ("base_head_sha", .ofOption .str p.baseHeadSha),
    ("required_skills", .ofTexts p.requiredSkills), ("verify_targets", .ofTexts p.verifyTargets),
    ("context_refs", .arr (p.contextRefs.map SourceRef.toJson)),
    ("provenance", p.provenance.toJson)]

def ref (hash : Json → String) (p : WorkerContextPack) : ContractRef where
  schemaVersion := workerContextPackVersion
  contractId := p.contextPackId
  contentHash := hash p.toJson

def validateFields (p : WorkerContextPack) : Except String Unit := do
  checkNonEmptyStr "context_pack_id" p.contextPackId
  checkNonEmptyStr "run_id" p.runId
  p.planRef.validate
  p.effectRef.validate
  p.issue.validate
  checkOption (checkGitSha "base_head_sha") p.baseHeadSha
  checkAll (checkNonEmptyStr "required_skills") p.requiredSkills
  checkAll (checkNonEmptyStr "verify_targets") p.verifyTargets
  checkAll SourceRef.validate p.contextRefs
  p.provenance.validate

def validatePack (p : WorkerContextPack) : Except String Unit := do
  raiseIf (p.planRef.schemaVersion != deliveryPlanVersion)
    "worker context pack must bind DeliveryPlan.v1"
  raiseIf (p.effectRef.schemaVersion != reducerEffectVersion)
    "worker context pack must bind its authorizing reducer effect"
  raiseIf p.verifyTargets.isEmpty "worker context pack must name its verify targets"
  requireUnique p.requiredSkills "context pack required skills"
  requireUnique p.verifyTargets "context pack verify targets"
  requireUnique (p.contextRefs.map SourceRef.key) "context pack context refs"
  requireSortedBy id p.requiredSkills
    "context pack required skills must use canonical sorted order"
  requireSortedBy id p.verifyTargets
    "context pack verify targets must use canonical sorted order"
  requireSortedBy SourceRef.key p.contextRefs
    "context pack context refs must use canonical sorted order"

def validate (p : WorkerContextPack) : Except String Unit := do
  p.validateFields
  p.validatePack

end WorkerContextPack

def workerInvocationInputHash (hash : Json → String) (runId : String)
    (planRef effectRef : ContractRef) (issue : IssueScope) (baseHeadSha : Option String)
    (contextPackRef : ContractRef) (runtimeTarget : String) : String :=
  hash (.obj [("run_id", .str runId), ("plan_ref", planRef.toJson),
    ("effect_ref", effectRef.toJson), ("issue", issue.toJson),
    ("base_head_sha", .ofOption .str baseHeadSha),
    ("context_pack_ref", contextPackRef.toJson), ("runtime_target", .str runtimeTarget)])

def workerInvocationIdempotencyKey (inputHash : String) : String :=
  "builderops.worker-invocation.v1:" ++ inputHash

/-- A launch, named by the hash of its input. -/
structure WorkerInvocation where
  invocationId : String
  runId : String
  planRef : ContractRef
  effectRef : ContractRef
  issue : IssueScope
  baseHeadSha : Option String
  contextPackRef : ContractRef
  contextPackHash : String
  runtimeTarget : String
  idempotencyKey : String
  inputHash : String
  provenance : Provenance
  deriving DecidableEq, Repr, Inhabited

namespace WorkerInvocation

def toJson (i : WorkerInvocation) : Json :=
  .obj [("schema_version", .str workerInvocationVersion), ("invocation_id", .str i.invocationId),
    ("run_id", .str i.runId), ("plan_ref", i.planRef.toJson),
    ("effect_ref", i.effectRef.toJson), ("issue", i.issue.toJson),
    ("base_head_sha", .ofOption .str i.baseHeadSha),
    ("context_pack_ref", i.contextPackRef.toJson),
    ("context_pack_hash", .str i.contextPackHash), ("runtime_target", .str i.runtimeTarget),
    ("idempotency_key", .str i.idempotencyKey), ("input_hash", .str i.inputHash),
    ("provenance", i.provenance.toJson)]

def ref (hash : Json → String) (i : WorkerInvocation) : ContractRef where
  schemaVersion := workerInvocationVersion
  contractId := i.invocationId
  contentHash := hash i.toJson

def expectedInputHash (hash : Json → String) (i : WorkerInvocation) : String :=
  workerInvocationInputHash hash i.runId i.planRef i.effectRef i.issue i.baseHeadSha
    i.contextPackRef i.runtimeTarget

def validateFields (i : WorkerInvocation) : Except String Unit := do
  checkNonEmptyStr "invocation_id" i.invocationId
  checkNonEmptyStr "run_id" i.runId
  i.planRef.validate
  i.effectRef.validate
  i.issue.validate
  checkOption (checkGitSha "base_head_sha") i.baseHeadSha
  i.contextPackRef.validate
  checkNonEmptyStr "runtime_target" i.runtimeTarget
  checkNonEmptyStr "idempotency_key" i.idempotencyKey
  i.provenance.validate

def validateInvocation (hash : Json → String) (i : WorkerInvocation) : Except String Unit := do
  raiseIf (i.planRef.schemaVersion != deliveryPlanVersion)
    "worker invocation must bind DeliveryPlan.v1"
  raiseIf (i.effectRef.schemaVersion != reducerEffectVersion)
    "worker invocation must bind its authorizing reducer effect"
  raiseIf (i.contextPackRef.schemaVersion != workerContextPackVersion)
    "worker invocation must bind worker-context-pack.v1"
  raiseIf (i.contextPackRef.contentHash != i.contextPackHash)
    "worker invocation must repeat the exact context-pack hash"
  raiseIf (i.inputHash != i.expectedInputHash hash)
    "worker invocation input hash must bind exact semantic input"
  raiseIf (i.idempotencyKey != workerInvocationIdempotencyKey (i.expectedInputHash hash))
    "worker invocation idempotency key must derive from semantic input"
  raiseIf (i.invocationId != i.idempotencyKey)
    "worker invocation identity must equal its start-once key"

def validate (hash : Json → String) (i : WorkerInvocation) : Except String Unit := do
  i.validateFields
  i.validateInvocation hash

end WorkerInvocation

structure WorkerCarrierEnvelope where
  carrierId : String
  providerId : String
  workerModelRef : String
  sessionRef : String
  usageRef : String
  provenanceRef : String
  deriving DecidableEq, Repr, Inhabited

def WorkerCarrierEnvelope.validate (c : WorkerCarrierEnvelope) : Except String Unit := do
  checkNonEmptyStr "carrier_id" c.carrierId
  checkNonEmptyStr "provider_id" c.providerId
  checkNonEmptyStr "worker_model_ref" c.workerModelRef
  checkNonEmptyStr "session_ref" c.sessionRef
  checkNonEmptyStr "usage_ref" c.usageRef
  checkNonEmptyStr "provenance_ref" c.provenanceRef

/-- A worker result, with the launch it answers. -/
structure WorkerResultV2 where
  resultId : String
  runId : String
  planRef : ContractRef
  effectRef : ContractRef
  issue : IssueScope
  baseHeadSha : Option String
  exactHeadSha : Option String
  pullRequestNumber : Option ℕ
  contextPackRef : ContractRef
  contextPackHash : String
  invocationRef : ContractRef
  invocationIdempotencyKey : String
  deliveryResult : StructuredWorkerResult
  carrier : WorkerCarrierEnvelope
  provenance : Provenance
  deriving DecidableEq, Repr, Inhabited

namespace WorkerResultV2

def validateFields (r : WorkerResultV2) : Except String Unit := do
  checkNonEmptyStr "result_id" r.resultId
  checkNonEmptyStr "run_id" r.runId
  r.planRef.validate
  r.effectRef.validate
  r.issue.validate
  checkOption (checkGitSha "base_head_sha") r.baseHeadSha
  checkOption (checkGitSha "exact_head_sha") r.exactHeadSha
  checkOption (checkPositiveInt "pull_request_number") r.pullRequestNumber
  r.contextPackRef.validate
  r.invocationRef.validate
  checkNonEmptyStr "invocation_idempotency_key" r.invocationIdempotencyKey
  r.deliveryResult.validate
  r.carrier.validate
  r.provenance.validate

def validateResultV2 (r : WorkerResultV2) : Except String Unit := do
  raiseIf (r.planRef.schemaVersion != deliveryPlanVersion)
    "worker result must bind DeliveryPlan.v1"
  raiseIf (r.effectRef.schemaVersion != reducerEffectVersion)
    "worker result must bind its authorizing reducer effect"
  raiseIf (r.contextPackRef.schemaVersion != workerContextPackVersion)
    "worker result must bind worker-context-pack.v1"
  raiseIf (r.invocationRef.schemaVersion != workerInvocationVersion)
    "worker result must bind worker-invocation.v1"
  raiseIf (r.contextPackRef.contentHash != r.contextPackHash)
    "worker result must repeat the exact context-pack hash"
  raiseIf (r.invocationRef.contractId != r.invocationIdempotencyKey)
    "worker result must repeat the exact invocation start-once key"
  raiseIf (r.deliveryResult.runId != r.runId || r.deliveryResult.planRef != r.planRef ||
      r.deliveryResult.issue != r.issue || r.deliveryResult.exactHeadSha != r.exactHeadSha ||
        r.deliveryResult.pullRequestNumber != r.pullRequestNumber)
    ("worker result envelope and delivery-domain result must bind " ++
      "one run, plan, Issue, head, and pull request")
  raiseIf (decide (r.provenance.createdAt < r.deliveryResult.provenance.createdAt))
    "worker result envelope must follow its delivery-domain result"

def validate (r : WorkerResultV2) : Except String Unit := do
  r.validateFields
  r.validateResultV2

end WorkerResultV2

/-- `validate_worker_authority_chain`: one run, plan, effect, Issue and base head
across pack, invocation, result and authorising effect. -/
def validateWorkerAuthorityChain (hash : Json → String) (result : WorkerResultV2)
    (contextPack : WorkerContextPack) (invocation : WorkerInvocation) (effect : ReducerEffect)
    (plan : DeliveryPlan) : Except String Unit := do
  let planRef := plan.ref hash
  let effectRef := effect.ref hash
  let packRef := contextPack.ref hash
  raiseIf (effect.effectClass != .launchWorker)
    "worker authority chain must resolve a launch-worker effect"
  raiseIf (effect.planRef != planRef) "worker authority chain effect does not bind the plan"
  raiseIf (contextPack.planRef != planRef || invocation.planRef != planRef ||
      result.planRef != planRef)
    "worker authority chain must bind exactly one plan"
  raiseIf (contextPack.effectRef != effectRef || invocation.effectRef != effectRef ||
      result.effectRef != effectRef)
    "worker authority chain must bind exactly one authorizing effect"
  raiseIf (invocation.contextPackRef != packRef || result.contextPackRef != packRef)
    "worker authority chain must resolve one context pack"
  raiseIf (result.invocationRef != invocation.ref hash)
    "worker authority chain must resolve one invocation"
  raiseIf (effect.runId != result.runId || contextPack.runId != result.runId ||
      invocation.runId != result.runId)
    "worker authority chain must bind exactly one run"
  raiseIf (effect.issue != result.issue || contextPack.issue != result.issue ||
      invocation.issue != result.issue)
    "worker authority chain must bind exactly one Issue"
  raiseIf (contextPack.baseHeadSha != result.baseHeadSha ||
      invocation.baseHeadSha != result.baseHeadSha)
    "worker authority chain must bind exactly one base head"
  raiseIf (result.invocationIdempotencyKey != invocation.idempotencyKey)
    "worker authority chain must bind exactly one start-once identity"
  raiseIf (plan.finalScope.find? (fun i => i.scopeKey = result.issue.scopeKey)
      != some result.issue)
    "worker authority chain Issue is outside exact plan scope"

/-! ### Obligations -/

/-- An effect that is left to reconcile. -/
structure OutstandingEffectObligation where
  effectClass : EffectClass
  effectIdempotencyKey : String
  outcomeKeys : List String
  lastObservedOutcomeState : Option EffectOutcomeState
  deriving DecidableEq, Repr, Inhabited

def OutstandingEffectObligation.validate (o : OutstandingEffectObligation) :
    Except String Unit := do
  checkNonEmptyStr "effect_idempotency_key" o.effectIdempotencyKey
  checkAll (checkNonEmptyStr "outcome_keys") o.outcomeKeys
  raiseIf o.outcomeKeys.isEmpty "outstanding effect obligation must carry outcome keys"
  requireUnique o.outcomeKeys "outstanding effect outcome keys"
  requireSortedBy id o.outcomeKeys
    "outstanding effect outcome keys must use canonical sorted order"

end AgenticPkm.Builderops
