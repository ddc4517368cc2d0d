import AgenticPkm.Lib.Text
import AgenticPkm.Builderops.Contract.Plan

/-!
# The planning snapshot

What the delivery-plan compiler reads: one fact per Issue, captured at one moment, with
the Issue's live authority, its declared contract and its dependencies.  A snapshot is
known by its canonical payload, in which nothing depends on the order of the facts or on
how their texts were spelled; the payload is what the identity of a plan is derived from.
-/

namespace AgenticPkm.Builderops.Compiler

/-! ### Literals -/

inductive Priority
  | high
  | medium
  | low
  deriving DecidableEq, Repr, Inhabited

def Priority.text : Priority → String
  | .high => "high"
  | .medium => "medium"
  | .low => "low"

inductive RiskClass
  | low
  | medium
  | high
  | critical
  deriving DecidableEq, Repr, Inhabited

def RiskClass.text : RiskClass → String
  | .low => "low"
  | .medium => "medium"
  | .high => "high"
  | .critical => "critical"

inductive DeliveryStatus
  | undelivered
  | active
  | delivered
  deriving DecidableEq, Repr, Inhabited

def DeliveryStatus.text : DeliveryStatus → String
  | .undelivered => "undelivered"
  | .active => "active"
  | .delivered => "delivered"

inductive ScopeRole
  | delivery
  | validationParent
  deriving DecidableEq, Repr, Inhabited

def ScopeRole.text : ScopeRole → String
  | .delivery => "delivery"
  | .validationParent => "validation_parent"

inductive ResolutionTargetKind
  | sourceAnchor
  | verifyTarget
  deriving DecidableEq, Repr, Inhabited

def ResolutionTargetKind.text : ResolutionTargetKind → String
  | .sourceAnchor => "source_anchor"
  | .verifyTarget => "verify_target"

inductive ResolutionResolverId
  | repoAnchorResolver
  | repoVerifyTargetResolver
  | runtimeReceiptResolver
  deriving DecidableEq, Repr, Inhabited

def ResolutionResolverId.text : ResolutionResolverId → String
  | .repoAnchorResolver => "builderops.repo-anchor-resolver"
  | .repoVerifyTargetResolver => "builderops.repo-verify-target-resolver"
  | .runtimeReceiptResolver => "builderops.runtime-receipt-resolver"

def compilerVersion : String := "builderops.delivery-plan-compiler.v2"
def planningSnapshotVersion : String := "builderops.delivery-planning-snapshot.v2"

/-! ### Models -/

structure SbsImpactEntry where
  fieldName : String
  value : String
  deriving DecidableEq, Repr, Inhabited

/-- The entry as it stands in the canonical payload, without outer white space. -/
def SbsImpactEntry.canonical (e : SbsImpactEntry) : Json :=
  .obj [("field_name", .str (strip e.fieldName)), ("value", .str (strip e.value))]

/-- The proof that a dependency outside the snapshot was delivered.  Its
`delivered_state` can only be `"closed"`. -/
structure DeliveryDependencySatisfactionEvidence where
  dependencyAuthorityId : String
  dependencyContractHash : String
  evidenceAuthorityId : String
  evidenceContentHash : String
  observedAt : String
  deriving DecidableEq, Repr, Inhabited

namespace DeliveryDependencySatisfactionEvidence

def schemaVersion : String := "builderops.delivery-dependency-satisfaction-evidence.v1"

def toJson (e : DeliveryDependencySatisfactionEvidence) : Json :=
  .obj [("schema_version", .str schemaVersion),
    ("dependency_authority_id", .str e.dependencyAuthorityId),
    ("dependency_contract_hash", .str e.dependencyContractHash),
    ("delivered_state", .str "closed"),
    ("evidence_authority_id", .str e.evidenceAuthorityId),
    ("evidence_content_hash", .str e.evidenceContentHash), ("observed_at", .str e.observedAt)]

def validate (e : DeliveryDependencySatisfactionEvidence) : Except String Unit := do
  raiseIf (strip e.dependencyAuthorityId == "")
    "dependency satisfaction evidence identities must not be empty"
  raiseIf (strip e.evidenceAuthorityId == "")
    "dependency satisfaction evidence identities must not be empty"

end DeliveryDependencySatisfactionEvidence

/-- What an Issue waits for. -/
structure DeliveryDependency where
  issue : IssueScope
  satisfied : Bool
  satisfactionEvidence : Option DeliveryDependencySatisfactionEvidence
  deriving DecidableEq, Repr, Inhabited

namespace DeliveryDependency

def toJson (d : DeliveryDependency) : Json :=
  .obj [("issue", d.issue.toJson), ("satisfied", .bool d.satisfied),
    ("satisfaction_evidence",
      .ofOption DeliveryDependencySatisfactionEvidence.toJson d.satisfactionEvidence)]

def validate (d : DeliveryDependency) : Except String Unit := do
  d.issue.validate
  checkOption DeliveryDependencySatisfactionEvidence.validate d.satisfactionEvidence

end DeliveryDependency

/-- The captured proof that one declared target of an Issue contract resolved. -/
structure IssueContractResolutionEvidence where
  issueAuthorityId : String
  issueContractHash : String
  targetKind : ResolutionTargetKind
  target : String
  resolverId : ResolutionResolverId
  resolvedAuthorityId : String
  resolvedContentHash : String
  observedAt : String
  deriving DecidableEq, Repr, Inhabited

namespace IssueContractResolutionEvidence

def schemaVersion : String := "builderops.issue-contract-resolution-evidence.v1"

def toJson (e : IssueContractResolutionEvidence) : Json :=
  .obj [("schema_version", .str schemaVersion),
    ("issue_authority_id", .str e.issueAuthorityId),
    ("issue_contract_hash", .str e.issueContractHash),
    ("target_kind", .str e.targetKind.text), ("target", .str e.target),
    ("resolver_id", .str e.resolverId.text), ("resolver_version", .str "v1"),
    ("resolved_authority_id", .str e.resolvedAuthorityId),
    ("resolved_content_hash", .str e.resolvedContentHash), ("observed_at", .str e.observedAt)]

def validate (e : IssueContractResolutionEvidence) : Except String Unit := do
  raiseIf (strip e.issueAuthorityId == "") "resolution evidence identities must not be empty"
  raiseIf (strip e.target == "") "resolution evidence identities must not be empty"
  raiseIf (strip e.resolvedAuthorityId == "") "resolution evidence identities must not be empty"

end IssueContractResolutionEvidence

/-- What a snapshot says about one Issue. -/
structure DeliveryIssuePlanningSnapshot where
  issue : IssueScope
  authority : AuthoritySnapshot
  priority : Priority
  riskClass : RiskClass
  sourceAnchors : List String
  verifyTargets : List String
  resolutionEvidence : List IssueContractResolutionEvidence
  sbsImpact : List SbsImpactEntry
  dependencies : List DeliveryDependency
  likelyMutationPaths : List String
  deliveryStatus : DeliveryStatus
  linkedPrHead : Option String
  parentIssue : Option IssueScope
  scopeRole : ScopeRole
  deriving DecidableEq, Repr, Inhabited

def DeliveryIssuePlanningSnapshot.scopeKey (fact : DeliveryIssuePlanningSnapshot) : String × ℕ :=
  fact.issue.scopeKey

def DeliveryIssuePlanningSnapshot.validate (fact : DeliveryIssuePlanningSnapshot) :
    Except String Unit := do
  fact.issue.validate
  fact.authority.validate
  checkAll IssueContractResolutionEvidence.validate fact.resolutionEvidence
  checkAll DeliveryDependency.validate fact.dependencies
  checkOption (checkGitSha "linked_pr_head") fact.linkedPrHead
  checkOption IssueScope.validate fact.parentIssue

/-- The facts a plan is compiled from. -/
structure DeliveryPlanningSnapshot where
  snapshotId : String
  capturedAt : String
  issues : List DeliveryIssuePlanningSnapshot
  deriving DecidableEq, Repr, Inhabited

def DeliveryPlanningSnapshot.validate (s : DeliveryPlanningSnapshot) : Except String Unit := do
  raiseIf (strip s.snapshotId == "") "snapshot_id must not be empty"
  checkAll DeliveryIssuePlanningSnapshot.validate s.issues

/-! ### The canonical payload -/

def normalizePath (value : String) : String :=
  let slashed := (strip value).toList.map fun c => if c = '\\' then '/' else c
  let normal := normpathChars slashed
  if normal = ['.'] then "" else String.ofList (normal.dropWhile (· == '/'))

example : ["  ./src\\a//b/ ", "/etc/../src/a", ".", "src/a/../b"].map normalizePath =
    ["src/a/b", "src/a", "", "src/b"] := by
  decide +kernel

section Payload

variable (hash : Json → String)

/-- `_canonical_issue_payload`: texts without outer white space, paths normalised, and
every list in an order that does not depend on how it was captured. -/
def canonicalIssuePayload (fact : DeliveryIssuePlanningSnapshot) : Json :=
  .obj [("issue", fact.issue.toJson), ("authority", fact.authority.toJson),
    ("priority", .str fact.priority.text), ("risk_class", .str fact.riskClass.text),
    ("delivery_status", .str fact.deliveryStatus.text),
    ("linked_pr_head", .ofOption .str fact.linkedPrHead),
    ("parent_issue", .ofOption IssueScope.toJson fact.parentIssue),
    ("scope_role", .str fact.scopeRole.text),
    ("source_anchors", .ofTexts (sortedBy id (fact.sourceAnchors.map strip))),
    ("verify_targets", .ofTexts (sortedBy id (fact.verifyTargets.map strip))),
    ("resolution_evidence",
      .arr (sortedBy hash (fact.resolutionEvidence.map IssueContractResolutionEvidence.toJson))),
    ("sbs_impact", .arr (sortedBy hash (fact.sbsImpact.map SbsImpactEntry.canonical))),
    ("dependencies", .arr (sortedBy hash (fact.dependencies.map DeliveryDependency.toJson))),
    ("likely_mutation_paths",
      .ofTexts (sortedBy id (fact.likelyMutationPaths.map normalizePath)))]

def canonicalSnapshotPayload (s : DeliveryPlanningSnapshot) : Json :=
  .obj [("schema_version", .str planningSnapshotVersion), ("snapshot_id", .str s.snapshotId),
    ("captured_at", .str s.capturedAt),
    ("issues", .arr (sortedBy hash (s.issues.map (canonicalIssuePayload hash))))]

end Payload

end AgenticPkm.Builderops.Compiler
