import AgenticPkm.Builderops.Compiler.Waves

/-!
# Compiling a delivery plan

`compile_delivery_plan`: from an approved initiation and a snapshot to a plan and the refusals of
everything that is not in it.

The compiler refuses what is outside the approved scope and assesses every requested Issue.  It
then spreads the refusals along dependencies, refuses what lies on a cycle, spreads again, refuses
overlapping mutation paths, and spreads a last time.  What has no refusal is eligible: if it fits
the budget, it is laid out in waves and becomes the plan.
-/

namespace AgenticPkm.Builderops.Compiler

/-! ### From the snapshot to the refusals -/

def factsByScope (snapshot : DeliveryPlanningSnapshot) : FactsByScope :=
  Dict.groupBy DeliveryIssuePlanningSnapshot.scopeKey snapshot.issues

def outsideRequest (issue : IssueScope) : RefusalRequest :=
  { issue := issue, code := .outsideApprovedScope,
    detail := "live snapshot issue is outside approved initiation scope" }

def outsideRequests (initiation : DeliveryInitiation) (facts : FactsByScope) :
    List RefusalRequest :=
  (facts.items.filter fun item => (initiation.approved item.1).isNone).flatMap fun item =>
    item.2.map fun fact => outsideRequest fact.issue

def acceptFact (accepted : AcceptedFacts) (k : ScopeKey) :
    Option DeliveryIssuePlanningSnapshot → AcceptedFacts
  | none => accepted
  | some fact => accepted.set k fact

/-- Every approved Issue is refused or accepted, in order. -/
def assessScope (shape : ContractShape) (initiation : DeliveryInitiation) (facts : FactsByScope)
    (capturedAt : String) (m : RefusalMap) : Except String (RefusalMap × AcceptedFacts) :=
  initiation.requestedScope.foldlM (fun state issue => do
    let assessment := assessIssue shape initiation facts capturedAt issue
    let m ← refuseAll state.1 assessment.1
    pure (m, acceptFact state.2 issue.scopeKey assessment.2)) (m, ∅)

def cycleRequest (detail : String) (issue : IssueScope) : RefusalRequest :=
  { issue := issue, code := .dependencyCycle, detail := detail }

/-- The refusals of the Issues on a cycle, which are looked up in the approved scope. -/
def cycleRequests (initiation : DeliveryInitiation) (detail : String) (keys : List ScopeKey) :
    Except String (List RefusalRequest) :=
  collectAll (fun k => do
    let issue ← getOrRaise (initiation.approved k) "KeyError"
    pure (cycleRequest detail issue)) keys

/-- Refusals spread before and after cycles and overlaps are refused. -/
def settleRefusals (initiation : DeliveryInitiation) (accepted : AcceptedFacts)
    (m : RefusalMap) : Except String RefusalMap := do
  let m ← propagateDependencyRefusals initiation accepted m
  let candidates := unrefused accepted m
  let cycles ← cycleRequests initiation "internal dependency graph contains a cycle"
    (dependencyCycleKeys candidates candidates.keys)
  let m ← refuseAll m cycles
  let m ← propagateDependencyRefusals initiation accepted m
  let m ← refuseAll m (refuseMutationOverlap (unrefused accepted m))
  propagateDependencyRefusals initiation accepted m

/-! ### From the refusals to the waves -/

def exceedsBudget (initiation : DeliveryInitiation) (eligible : AcceptedFacts) : Bool :=
  decide (eligible.items.length > initiation.budget.maxWorkerStarts)

def budgetRequest (fact : DeliveryIssuePlanningSnapshot) : RefusalRequest :=
  { issue := fact.issue, code := .budgetExceeded,
    detail := "eligible scope exceeds the approved worker-start budget" }

def budgetRequests (initiation : DeliveryInitiation) (eligible : AcceptedFacts) :
    List RefusalRequest :=
  if exceedsBudget initiation eligible then eligible.values.map budgetRequest else []

def withinBudget (initiation : DeliveryInitiation) (eligible : AcceptedFacts) : AcceptedFacts :=
  if exceedsBudget initiation eligible then ∅ else eligible

/-- What the compiler settles on. -/
structure Outcome where
  refusals : RefusalMap
  eligible : AcceptedFacts
  waves : List DependencyWave

/-- The repair when the waves could not be completed: the Issues on a cycle are out by
now, their dependants follow, and the waves are built again, twice at most. -/
def repairCycles (initiation : DeliveryInitiation) (accepted : AcceptedFacts) (m : RefusalMap) :
    Except String Outcome := do
  let maxParallel := initiation.budget.maxParallelWorkers
  let m ← propagateDependencyRefusals initiation accepted m
  let eligible := unrefused accepted m
  let (waves, unresolved) ← buildDependencyWaves eligible maxParallel
  let requests ← cycleRequests initiation "internal dependency graph remains unresolved"
    unresolved
  let m ← refuseAll m requests
  if unresolved.isEmpty then pure { refusals := m, eligible := eligible, waves := waves }
  else do
    let eligible := eligible.keep fun k => !unresolved.contains k
    let (waves, _) ← buildDependencyWaves eligible maxParallel
    pure { refusals := m, eligible := eligible, waves := waves }

/-- Over budget, all that is left is refused. -/
def schedule (initiation : DeliveryInitiation) (accepted : AcceptedFacts) (m : RefusalMap) :
    Except String Outcome := do
  let m' ← refuseAll m (budgetRequests initiation (unrefused accepted m))
  let eligible := withinBudget initiation (unrefused accepted m)
  let (waves, cycleKeys) ← buildDependencyWaves eligible initiation.budget.maxParallelWorkers
  let requests ← cycleRequests initiation "internal dependency graph contains a cycle" cycleKeys
  let m' ← refuseAll m' requests
  if cycleKeys.isEmpty then pure { refusals := m', eligible := eligible, waves := waves }
  else repairCycles initiation accepted m'

/-- Everything the compiler does before it writes the plan. -/
def resolveScope (shape : ContractShape) (initiation : DeliveryInitiation)
    (snapshot : DeliveryPlanningSnapshot) : Except String Outcome := do
  let facts := factsByScope snapshot
  let m ← refuseAll ∅ (outsideRequests initiation facts)
  let (m, accepted) ← assessScope shape initiation facts snapshot.capturedAt m
  let m ← settleRefusals initiation accepted m
  schedule initiation accepted m

/-! ### The plan -/

def Outcome.reported (o : Outcome) : List PlanRefusal :=
  sortedBy PlanRefusal.sortKey o.refusals.values

def Outcome.finalScope (o : Outcome) : List IssueScope :=
  sortedBy IssueScope.sortKey (issuesOf o.eligible)

def exclusionReason (refusals : List PlanRefusal) (k : ScopeKey) : String :=
  let codes := sortedSet ((refusals.filter fun r => r.issue.scopeKey = k).map fun r => r.code.text)
  "delivery-plan-compiler:" ++
    String.intercalate "," (if codes.isEmpty then ["authority_ambiguity"] else codes)

def omittedExclusion (refusals : List PlanRefusal) (issue : IssueScope) : ScopeExclusion where
  scopeKey := issue.scopeRef
  reason := exclusionReason refusals issue.scopeKey
  omittedIssue := some issue

section Plan

variable (hash : Json → String) (casefold : Casefold)

/-- `_compile_exclusions`: the approved exclusions, and one for each requested Issue that
is neither planned nor excluded already, by casefolded key. -/
def compileExclusions (initiation : DeliveryInitiation) (finalScope : List IssueScope)
    (refusals : List PlanRefusal) : List ScopeExclusion :=
  let included := finalScope.map IssueScope.scopeKey
  let approved : Dict String ScopeExclusion := initiation.exclusions.foldl
    (fun d x => d.set (casefold.fold x.scopeKey) x) ∅
  let exclusions := initiation.requestedScope.foldl (fun d issue =>
    if included.contains issue.scopeKey || d.keys.contains (casefold.fold issue.scopeRef) then d
    else d.set (casefold.fold issue.scopeRef) (omittedExclusion refusals issue)) approved
  sortedBy ScopeExclusion.scopeKey exclusions.values

def authorityScope (finalScope : List IssueScope) : String :=
  String.intercalate "," (sortedSet (finalScope.map IssueScope.repository))

def expectedState (fact : DeliveryIssuePlanningSnapshot) : ExpectedAuthorityState where
  issue := fact.issue
  issueState := .opened
  requiredLabels := sortedBy id fact.authority.observedLabels
  forbiddenLabels := ["agent:blocked", "agent:needs-human"]
  expectedContractHash := fact.issue.contractHash

def inputHash (initiation : DeliveryInitiation) (snapshot : DeliveryPlanningSnapshot) : String :=
  hash <| .obj [("compiler_version", .str compilerVersion),
    ("initiation", (initiation.ref hash).toJson),
    ("snapshot", canonicalSnapshotPayload hash snapshot)]

def planSources (initiation : DeliveryInitiation) (snapshot : DeliveryPlanningSnapshot) :
    List SourceRef :=
  [{ sourceType := "delivery_initiation", sourceId := initiation.initiationId,
     contentHash := initiation.contentHash hash },
   { sourceType := "delivery_planning_snapshot", sourceId := snapshot.snapshotId,
     contentHash := hash (canonicalSnapshotPayload hash snapshot) }]

def assemblePlan (initiation : DeliveryInitiation) (snapshot : DeliveryPlanningSnapshot)
    (o : Outcome) : DeliveryPlan where
  planId := "delivery-plan:" ++ inputHash hash initiation snapshot
  initiationRef := initiation.ref hash
  inputAuthorities := sortedBy AuthoritySnapshot.authorityId
    (o.eligible.values.map DeliveryIssuePlanningSnapshot.authority)
  finalScope := o.finalScope
  exclusions := compileExclusions casefold initiation o.finalScope o.reported
  dependencyWaves := o.waves
  expectedStates := (sortedBy (fun fact => fact.issue.sortKey) o.eligible.values).map expectedState
  policyProfile := initiation.policyProfile
  budget := initiation.budget
  effectAllowlist := effectAllowlist
  provenance :=
    { createdAt := max initiation.provenance.createdAt snapshot.capturedAt
      createdBy :=
        { actorType := .service
          actorId := "builderops:delivery-plan-compiler.v2"
          authorityScope := authorityScope o.finalScope }
      sourceRefs := planSources hash initiation snapshot
      correlationId := "delivery-plan-compile:" ++ inputHash hash initiation snapshot }

/-- The plan of an outcome with an eligible Issue, once its own contract and that of the
initiation have accepted it. -/
def compilePlan (initiation : DeliveryInitiation) (snapshot : DeliveryPlanningSnapshot)
    (o : Outcome) : Except String (Option DeliveryPlan) :=
  if o.eligible.items.isEmpty then pure none
  else do
    let plan := assemblePlan hash casefold initiation snapshot o
    plan.validate
    validateDeliveryPlanEvidence casefold hash plan initiation
    pure (some plan)

end Plan

/-! ### The compiler -/

/-- The result of a compilation.  Its `external_mutations` are always empty. -/
structure DeliveryPlanCompilation where
  inputHash : String
  plan : Option DeliveryPlan
  refusals : List PlanRefusal
  deriving DecidableEq, Repr, Inhabited

def DeliveryPlanCompilation.validate (c : DeliveryPlanCompilation) : Except String Unit := do
  raiseIf (c.plan.isNone && c.refusals.isEmpty) "plan-less compilation must carry typed refusals"
  requireSortedBy PlanRefusal.sortKey c.refusals "plan refusals must use canonical order"

def compileDeliveryPlan (hash : Json → String) (casefold : Casefold) (shape : ContractShape)
    (initiation : DeliveryInitiation) (snapshot : DeliveryPlanningSnapshot) :
    Except String DeliveryPlanCompilation := do
  let o ← resolveScope shape initiation snapshot
  let plan ← compilePlan hash casefold initiation snapshot o
  let result : DeliveryPlanCompilation :=
    { inputHash := inputHash hash initiation snapshot, plan := plan, refusals := o.reported }
  result.validate
  pure result

end AgenticPkm.Builderops.Compiler
