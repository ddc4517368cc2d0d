import AgenticPkm.Lib.Dict
import AgenticPkm.Builderops.Contract.Initiation
import AgenticPkm.Builderops.Compiler.Snapshot

/-!
# The checks of one fact

Every check the compiler makes of a single fact, apart from what the other facts do to
it.  A check never stops the compiler: it files a refusal against the Issue and goes on,
so each is modelled by the list of refusals it files, in order.

The two predicates of `issue_contract_validation` that say whether a text has the shape
of a source anchor or of a verify target are parameters: the compiler only asks them.
-/

namespace AgenticPkm.Builderops.Compiler

abbrev ScopeKey := String × ℕ

/-! ### Refusals -/

inductive RefusalCode
  | approvedExclusion
  | authorityAmbiguity
  | budgetExceeded
  | contradictoryDependencySatisfaction
  | dependencyBlocked
  | dependencyCycle
  | duplicateResolutionEvidence
  | invalidAgentStateLabels
  | invalidPriorityLabels
  | invalidTypeLabels
  | malformedSbsImpact
  | mismatchedResolutionEvidence
  | missingResolutionEvidence
  | missingSourceAnchors
  | missingVerifyTargets
  | mutationOverlap
  | notReady
  | outsideApprovedScope
  | parentValidationOnly
  | priorityLabelMismatch
  | riskPolicyBlocked
  | staleDelivery
  | staleResolutionEvidence
  | unprovenDependencySatisfaction
  deriving DecidableEq, Repr, Inhabited

def RefusalCode.text : RefusalCode → String
  | .approvedExclusion => "approved_exclusion"
  | .authorityAmbiguity => "authority_ambiguity"
  | .budgetExceeded => "budget_exceeded"
  | .contradictoryDependencySatisfaction => "contradictory_dependency_satisfaction"
  | .dependencyBlocked => "dependency_blocked"
  | .dependencyCycle => "dependency_cycle"
  | .duplicateResolutionEvidence => "duplicate_resolution_evidence"
  | .invalidAgentStateLabels => "invalid_agent_state_labels"
  | .invalidPriorityLabels => "invalid_priority_labels"
  | .invalidTypeLabels => "invalid_type_labels"
  | .malformedSbsImpact => "malformed_sbs_impact"
  | .mismatchedResolutionEvidence => "mismatched_resolution_evidence"
  | .missingResolutionEvidence => "missing_resolution_evidence"
  | .missingSourceAnchors => "missing_source_anchors"
  | .missingVerifyTargets => "missing_verify_targets"
  | .mutationOverlap => "mutation_overlap"
  | .notReady => "not_ready"
  | .outsideApprovedScope => "outside_approved_scope"
  | .parentValidationOnly => "parent_validation_only"
  | .priorityLabelMismatch => "priority_label_mismatch"
  | .riskPolicyBlocked => "risk_policy_blocked"
  | .staleDelivery => "stale_delivery"
  | .staleResolutionEvidence => "stale_resolution_evidence"
  | .unprovenDependencySatisfaction => "unproven_dependency_satisfaction"

/-- The arguments of one call of `refuse`. -/
structure RefusalRequest where
  issue : IssueScope
  code : RefusalCode
  detail : String
  relatedIssues : List IssueScope := []
  deriving DecidableEq, Repr, Inhabited

abbrev RefusalKey := ScopeKey × RefusalCode × String

/-- What a request is filed under: the Issue's key, the code and the detail. -/
def RefusalRequest.key (r : RefusalRequest) : RefusalKey :=
  (r.issue.scopeKey, r.code, r.detail)

/-- The call of `refuse` under a condition. -/
def refuseIf (condition : Bool) (r : RefusalRequest) : List RefusalRequest :=
  if condition then [r] else []

variable {cn : Bool} {r : RefusalRequest}

@[simp] theorem mem_refuseIf {r' : RefusalRequest} : r' ∈ refuseIf cn r ↔ cn = true ∧ r' = r := by
  cases cn <;> simp [refuseIf]

@[simp] theorem refuseIf_eq_nil_iff : refuseIf cn r = [] ↔ cn = false := by
  cases cn <;> simp [refuseIf]

/-! ### The authority of a fact -/

def authorityBindsIssue (authority : AuthoritySnapshot) (issue : IssueScope)
    (capturedAt : String) (observedNotBefore : Option String) : Bool :=
  authority.authorityType == "github_issue" && authority.authorityId == issue.authorityId &&
    authority.contentHash == issue.contractHash && decide (authority.observedAt ≤ capturedAt) &&
      observedNotBefore.all fun bound => decide (bound ≤ authority.observedAt)

def canonicalAgentStateLabels : List String :=
  ["agent:blocked", "agent:needs-human", "agent:ready"]

def canonicalTypeLabels : List String := ["type:bug", "type:refactor", "type:task"]

def canonicalPriorityLabels : List (String × Priority) :=
  [("prio:high", .high), ("prio:med", .medium), ("prio:low", .low)]

/-- The one label of a list, where a table of canonical labels has it. -/
def soleLabel {α : Type} (table : List (String × α)) : List String → Option α
  | [label] => table.lookup label
  | _ => none

def priorityRefusals (fact : DeliveryIssuePlanningSnapshot) : List RefusalRequest :=
  let labels := fact.authority.observedLabels.filter (startsWith "prio:")
  match soleLabel canonicalPriorityLabels labels with
  | none =>
      [{ issue := fact.issue, code := .invalidPriorityLabels,
         detail := "executable Issue authority must contain exactly one " ++
           "canonical priority label" }]
  | some priority =>
      refuseIf (priority != fact.priority)
        { issue := fact.issue, code := .priorityLabelMismatch,
          detail := "snapshot priority does not equal the live canonical priority label" }

def validatePickupAuthority (fact : DeliveryIssuePlanningSnapshot) : List RefusalRequest :=
  let labels := fact.authority.observedLabels
  let typeLabels := labels.filter (startsWith "type:")
  refuseIf (labels.filter (startsWith "agent:") != ["agent:ready"])
      { issue := fact.issue, code := .invalidAgentStateLabels,
        detail := "executable Issue authority must contain exactly one " ++
          "agent-state label and it must be agent:ready" } ++
    refuseIf (soleLabel (canonicalTypeLabels.map fun label => (label, ())) typeLabels == none)
      { issue := fact.issue, code := .invalidTypeLabels,
        detail := "executable Issue authority must contain exactly one canonical type label" } ++
    priorityRefusals fact

/-! ### The declared contract of a fact -/

/-- The predicates of `issue_contract_validation` on the shape of a text. -/
structure ContractShape where
  isDurableRepoAnchor : String → Bool
  isResolvableVerifyTarget : String → Bool

/-- `_clean_values`: the values without outer white space, in order, and none at all if
one of them is blank or repeated. -/
def cleanValues (values : List String) : List String :=
  let cleaned := (values.map strip).filter fun value => value != ""
  if cleaned.length != values.length || !decide cleaned.Nodup then [] else sortedBy id cleaned

/-- `_verify_targets_are_concrete` and `_source_anchors_are_concrete`, for the shape each
asks of its values. -/
def valuesAreConcrete (isConcrete : String → Bool) (values : List String) : Bool :=
  let cleaned := cleanValues values
  !cleaned.isEmpty && cleaned.all isConcrete

def verifyTargetsAreConcrete (shape : ContractShape) (values : List String) : Bool :=
  valuesAreConcrete shape.isResolvableVerifyTarget values

def sourceAnchorsAreConcrete (shape : ContractShape) (values : List String) : Bool :=
  valuesAreConcrete shape.isDurableRepoAnchor values

def stripBacktickPair (value : String) : String :=
  let chars := value.toList
  if chars.head? == some '\x60' && chars.getLast? == some '\x60'
  then String.ofList (chars.drop 1).dropLast else value

/-- The authority a path of the Issue's repository resolves to. -/
def repositoryAuthority (issue : IssueScope) (path : String) : String :=
  "git:" ++ issue.repository ++ ":" ++ path

def expectedResolutionIdentity (issue : IssueScope) (kind : ResolutionTargetKind)
    (target : String) : Option (ResolutionResolverId × String) :=
  let canonical := strip target
  match kind with
  | .sourceAnchor =>
      (textBefore " :: " canonical).map fun path =>
        (.repoAnchorResolver, repositoryAuthority issue path)
  | .verifyTarget =>
      let unquoted := stripBacktickPair canonical
      if startsWith "runtime receipt: " unquoted then
        some (.runtimeReceiptResolver,
          "builderops:runtime-receipt-registry:" ++ textAfter "runtime receipt: " unquoted)
      else
        let path :=
          if startsWith "doc writeback at " unquoted then
            textBefore " :: " (stripBacktickPair (textAfter "doc writeback at " unquoted))
          else if startsWith "roadmap diff: " unquoted then
            textBefore " :: " (stripBacktickPair (textAfter "roadmap diff: " unquoted))
          else textBefore "::" unquoted
        path.map fun path => (.repoVerifyTargetResolver, repositoryAuthority issue path)

abbrev ResolutionTarget := ResolutionTargetKind × String

def declaredTargets (fact : DeliveryIssuePlanningSnapshot) (anchors targets : Bool) :
    List ResolutionTarget :=
  (if anchors then (cleanValues fact.sourceAnchors).map fun v => (.sourceAnchor, v) else []) ++
    (if targets then (cleanValues fact.verifyTargets).map fun v => (.verifyTarget, v) else [])

/-- The evidence of the kinds that are validated, by target. -/
def evidenceByTarget (fact : DeliveryIssuePlanningSnapshot) (anchors targets : Bool) :
    Dict ResolutionTarget (List IssueContractResolutionEvidence) :=
  Dict.groupBy (fun e => (e.targetKind, e.target)) <| fact.resolutionEvidence.filter fun e =>
    match e.targetKind with
    | .sourceAnchor => anchors
    | .verifyTarget => targets

/-- Evidence that does not bind the Issue, its contract, the resolver and the authority
its target asks for. -/
def mismatchedEvidence (fact : DeliveryIssuePlanningSnapshot) (target : ResolutionTarget)
    (e : IssueContractResolutionEvidence) : Bool :=
  e.issueAuthorityId != fact.issue.authorityId ||
    e.issueContractHash != fact.issue.contractHash ||
      expectedResolutionIdentity fact.issue target.1 target.2 !=
        some (e.resolverId, e.resolvedAuthorityId)

/-- Evidence observed before the Issue's authority or after the snapshot. -/
def staleEvidence (fact : DeliveryIssuePlanningSnapshot) (capturedAt : String)
    (e : IssueContractResolutionEvidence) : Bool :=
  decide (e.observedAt < fact.authority.observedAt) || decide (capturedAt < e.observedAt)

def targetRefusals (fact : DeliveryIssuePlanningSnapshot) (capturedAt : String)
    (target : ResolutionTarget) (entries : List IssueContractResolutionEvidence) :
    List RefusalRequest :=
  refuseIf (entries.any (mismatchedEvidence fact target))
      { issue := fact.issue, code := .mismatchedResolutionEvidence,
        detail := "resolution evidence does not exactly bind the " ++
          "Issue contract, target, resolver, and authority" } ++
    refuseIf (entries.any (staleEvidence fact capturedAt))
      { issue := fact.issue, code := .staleResolutionEvidence,
        detail := "resolution evidence is outside the Issue-authority snapshot chronology" }

def validateResolutionEvidence (fact : DeliveryIssuePlanningSnapshot) (capturedAt : String)
    (anchors targets : Bool) : List RefusalRequest :=
  let declared := declaredTargets fact anchors targets
  let byTarget := evidenceByTarget fact anchors targets
  refuseIf (declared.any fun target => !byTarget.keys.contains target)
      { issue := fact.issue, code := .missingResolutionEvidence,
        detail := "strict issue contract target lacks immutable resolution evidence" } ++
    refuseIf (byTarget.values.any fun entries => entries.length != 1)
      { issue := fact.issue, code := .duplicateResolutionEvidence,
        detail := "strict issue contract target has duplicate resolution evidence" } ++
    refuseIf (byTarget.keys.any fun target => !declared.contains target)
      { issue := fact.issue, code := .mismatchedResolutionEvidence,
        detail := "resolution evidence target is not an exact declared Issue-contract target" } ++
    (byTarget.items.filter fun item => declared.contains item.1).flatMap fun item =>
      targetRefusals fact capturedAt item.1 item.2

def requiredSbsImpactFields : List String :=
  ["Boundary risk", "Derived/rebuildable impact", "New or changed contract",
    "Owner-doc impact", "Persistence impact", "Primary subsystem", "Secondary subsystem(s)",
    "Transition debt impact", "Write class"]

def sbsImpactIsComplete (entries : List SbsImpactEntry) : Bool :=
  let fields := entries.map fun e => strip e.fieldName
  fields.length == requiredSbsImpactFields.length && decide fields.Nodup &&
    fields.all requiredSbsImpactFields.contains && requiredSbsImpactFields.all fields.contains &&
      entries.all fun e => strip e.value != ""

def policyRiskAllowlist : List (String × List RiskClass) :=
  [("delivery-low-risk", [.low, .medium])]

def riskIsAllowed (profileId : String) (risk : RiskClass) : Bool :=
  match policyRiskAllowlist.lookup profileId with
  | none => false
  | some allowed => allowed.contains risk

/-! ### The dependencies of a fact -/

abbrev FactsByScope := Dict ScopeKey (List DeliveryIssuePlanningSnapshot)

abbrev KeyedFact := ScopeKey × DeliveryIssuePlanningSnapshot

/-- The facts about an Issue: `facts_by_scope.get(key, [])`. -/
def factsOf (facts : FactsByScope) (k : ScopeKey) : List DeliveryIssuePlanningSnapshot :=
  (facts.get? k).getD []

/-- `_dependencies_are_ambiguous`: an Issue is named twice, with equal or with different
evidence. -/
def dependenciesAreAmbiguous (dependencies : List DeliveryDependency) : Bool :=
  !decide (dependencies.map fun d => d.issue.scopeKey).Nodup

def contradictsDelivery (dependency : DeliveryDependency) (fact : DeliveryIssuePlanningSnapshot)
    (capturedAt observedNotBefore : String) : Bool :=
  fact.issue != dependency.issue ||
    !authorityBindsIssue fact.authority dependency.issue capturedAt (some observedNotBefore) ||
      fact.authority.observedState != "closed" || fact.deliveryStatus != .delivered ||
        fact.authority.observedLabels.any fun label =>
          canonicalAgentStateLabels.contains label || startsWith "agent:" label

def mismatchedSatisfaction (dependency : DeliveryDependency)
    (e : DeliveryDependencySatisfactionEvidence) (capturedAt : String) : Bool :=
  e.dependencyAuthorityId != dependency.issue.authorityId ||
    e.dependencyContractHash != dependency.issue.contractHash || decide (capturedAt < e.observedAt)

def validateDependencySatisfaction (dependency : DeliveryDependency)
    (dependent : DeliveryIssuePlanningSnapshot) (facts : FactsByScope)
    (capturedAt observedNotBefore : String) : List RefusalRequest :=
  if !dependency.satisfied then
    refuseIf dependency.satisfactionEvidence.isSome
      { issue := dependent.issue, code := .contradictoryDependencySatisfaction,
        detail := "unsatisfied dependency cannot carry delivered satisfaction evidence",
        relatedIssues := [dependency.issue] }
  else
    match factsOf facts dependency.issue.scopeKey, dependency.satisfactionEvidence with
    | [], none =>
        [{ issue := dependent.issue, code := .unprovenDependencySatisfaction,
           detail := "external satisfied dependency lacks immutable " ++
             "hash-bound delivered-authority evidence",
           relatedIssues := [dependency.issue] }]
    | [], some evidence =>
        refuseIf (mismatchedSatisfaction dependency evidence capturedAt)
          { issue := dependent.issue, code := .contradictoryDependencySatisfaction,
            detail := "external dependency satisfaction evidence does not " ++
              "bind the declared dependency and closed authority",
            relatedIssues := [dependency.issue] }
    | [fact], none =>
        refuseIf (contradictsDelivery dependency fact capturedAt observedNotBefore)
          { issue := dependent.issue, code := .contradictoryDependencySatisfaction,
            detail := "same-snapshot dependency satisfaction contradicts " ++
              "its live delivered and closed authority",
            relatedIssues := [dependency.issue] }
    | _, _ =>
        [{ issue := dependent.issue, code := .contradictoryDependencySatisfaction,
           detail := "same-snapshot dependency satisfaction must use one " ++
             "unambiguous live authority fact",
           relatedIssues := [dependency.issue] }]

/-- The refusals over one dependency of a fact: it is not the approved Issue of its key,
its satisfaction does not hold, or it is outside the approved scope and not delivered. -/
def dependencyRefusals (initiation : DeliveryInitiation) (facts : FactsByScope)
    (capturedAt : String) (issue : IssueScope) (fact : DeliveryIssuePlanningSnapshot)
    (dependency : DeliveryDependency) : List RefusalRequest :=
  let approved := initiation.approved dependency.issue.scopeKey
  refuseIf (approved.any fun i => i != dependency.issue)
      { issue := issue, code := .authorityAmbiguity,
        detail := "dependency evidence does not exactly bind the approved issue",
        relatedIssues := [dependency.issue] } ++
    validateDependencySatisfaction dependency fact facts capturedAt
      initiation.provenance.createdAt ++
    refuseIf (approved.isNone && !dependency.satisfied)
      { issue := issue, code := .dependencyBlocked,
        detail := "external dependency is not delivered",
        relatedIssues := [dependency.issue] }

/-! ### The outcome for an Issue -/

/-- Everything that is filed against an Issue whose fact binds it, in the order of the
compiler's checks. -/
def factRefusals (shape : ContractShape) (initiation : DeliveryInitiation)
    (facts : FactsByScope) (capturedAt : String) (issue : IssueScope)
    (fact : DeliveryIssuePlanningSnapshot) : List RefusalRequest :=
  let targets := verifyTargetsAreConcrete shape fact.verifyTargets
  let anchors := sourceAnchorsAreConcrete shape fact.sourceAnchors
  refuseIf (fact.authority.observedState != "open")
      { issue := issue, code := .notReady, detail := "live issue authority is not open" } ++
    validatePickupAuthority fact ++
    refuseIf (fact.deliveryStatus != .undelivered || fact.linkedPrHead.isSome)
      { issue := issue, code := .staleDelivery,
        detail := "issue already has active or delivered PR evidence" } ++
    refuseIf (!targets)
      { issue := issue, code := .missingVerifyTargets,
        detail := "strict issue contract has no concrete Verify target" } ++
    refuseIf (!anchors)
      { issue := issue, code := .missingSourceAnchors,
        detail := "strict issue contract has no source anchor" } ++
    validateResolutionEvidence fact capturedAt anchors targets ++
    refuseIf (!sbsImpactIsComplete fact.sbsImpact)
      { issue := issue, code := .malformedSbsImpact,
        detail := "SBS Impact fields are missing, duplicated, or empty" } ++
    refuseIf (!riskIsAllowed initiation.policyProfile.profileId fact.riskClass)
      { issue := issue, code := .riskPolicyBlocked,
        detail := "issue risk class is not admitted by the approved policy profile" } ++
    refuseIf (dependenciesAreAmbiguous fact.dependencies)
      { issue := issue, code := .authorityAmbiguity,
        detail := "dependency evidence contains contradictory identities" } ++
    fact.dependencies.flatMap (dependencyRefusals initiation facts capturedAt issue fact)

def isExcluded (initiation : DeliveryInitiation) (k : ScopeKey) : Bool :=
  initiation.exclusions.any fun x => x.omittedIssue.any fun i => i.scopeKey = k

/-- The reason an Issue is turned away before the checks of its fact, if there is one. -/
def turnedAway (initiation : DeliveryInitiation) (capturedAt : String) (issue : IssueScope)
    (fact : DeliveryIssuePlanningSnapshot) : Option RefusalRequest :=
  if capturedAt < initiation.provenance.createdAt then
    some { issue := issue, code := .authorityAmbiguity,
           detail := "live authority snapshot predates the approved initiation" }
  else if fact.issue != issue || !authorityBindsIssue fact.authority issue capturedAt
      (some initiation.provenance.createdAt) then
    some { issue := issue, code := .authorityAmbiguity,
           detail := "live authority does not exactly bind the approved issue" }
  else if isExcluded initiation issue.scopeKey then
    some { issue := issue, code := .approvedExclusion,
           detail := "approved initiation already excludes this issue" }
  else if fact.scopeRole = .validationParent then
    some { issue := issue, code := .parentValidationOnly,
           detail := "real parent validation hub is not delivery or closure scope" }
  else none

/-- The body of the loop over the requested scope: the refusals filed against an Issue,
and its fact unless the Issue was turned away. -/
def assessIssue (shape : ContractShape) (initiation : DeliveryInitiation)
    (facts : FactsByScope) (capturedAt : String) (issue : IssueScope) :
    List RefusalRequest × Option DeliveryIssuePlanningSnapshot :=
  match factsOf facts issue.scopeKey with
  | [fact] =>
      match turnedAway initiation capturedAt issue fact with
      | some refusal => ([refusal], none)
      | none => (factRefusals shape initiation facts capturedAt issue fact, some fact)
  | _ =>
      ([{ issue := issue, code := .authorityAmbiguity,
          detail := "live snapshot must contain exactly one fact for the approved issue" }], none)

end AgenticPkm.Builderops.Compiler
