import AgenticPkm.Builderops.Compiler.Outcome

/-!
# Compiled plans respect their dependencies

A plan that the compiler returns was assembled from its outcome and accepted by its own
contract and by that of the initiation.  The contracts do not check that
no planned Issue waits for one that is not planned before it.

* `compiled_plan_respects_dependencies` — **dependencies, closure and budget**.
-/

namespace AgenticPkm.Builderops

def DeliveryPlan.Precedes (p : DeliveryPlan) (i j : IssueScope) : Prop :=
  ∃ w ∈ p.dependencyWaves, ∃ w' ∈ p.dependencyWaves,
    i ∈ w.issues ∧ j ∈ w'.issues ∧ w.waveIndex < w'.waveIndex

namespace Compiler

variable {hash : Json → String} {casefold : Casefold} {shape : ContractShape}
  {initiation : DeliveryInitiation} {snapshot : DeliveryPlanningSnapshot}

theorem compileDeliveryPlan_eq_ok (hd : initiation.Valid) {c : DeliveryPlanCompilation}
    (h : compileDeliveryPlan hash casefold shape initiation snapshot = .ok c) :
    compilePlan hash casefold initiation snapshot (outcome shape initiation snapshot) = .ok c.plan ∧
    c.inputHash = inputHash hash initiation snapshot ∧
    c.refusals = (outcome shape initiation snapshot).reported := by
  simp only [compileDeliveryPlan, resolveScope_eq hd, ok_bind, bind_eq_ok_iff, pure_eq_ok_iff] at h
  obtain ⟨plan, hp, -, -, rfl⟩ := h
  exact ⟨hp, rfl, rfl⟩

variable {o : Outcome} {i : IssueScope}

theorem compilePlan_eq_some {plan : DeliveryPlan}
    (h : compilePlan hash casefold initiation snapshot o = .ok (some plan)) :
    plan = assemblePlan hash casefold initiation snapshot o ∧ plan.validate = .ok () := by
  unfold compilePlan at h
  split at h
  · cases h
  · simp only [bind_unit_eq_ok_iff, pure_eq_ok_iff, Option.some.injEq] at h
    obtain ⟨hv, -, rfl⟩ := h
    exact ⟨rfl, hv⟩

theorem mem_finalScope :
    i ∈ o.finalScope ↔ ∃ k fact, (k, fact) ∈ o.eligible.items ∧ fact.issue = i := by
  simp [Outcome.finalScope, issuesOf, Dict.values]

theorem count_waveItems (hd : initiation.Valid)
    (hi : i ∈ (outcome shape initiation snapshot).finalScope) :
    ((outcome shape initiation snapshot).waves.flatMap DependencyWave.issues).count i = 1 := by
  have hp : ((outcome shape initiation snapshot).waves.flatMap DependencyWave.issues).Perm
      (issuesOf (outcome shape initiation snapshot).eligible) :=
    perm_flatMap_dependencyWaves (parallel_pos hd) (readyRounds_eligible hd)
  have hn : (issuesOf (outcome shape initiation snapshot).eligible).Nodup :=
    ((keyed_eligible hd).distinctKeys_issuesOf).of_map
  have hm : i ∈ issuesOf (outcome shape initiation snapshot).eligible := mem_sortedBy.mp hi
  rw [hp.count_eq]
  exact List.count_eq_one_of_mem hn hm

theorem length_le_of_mem_waves (hd : initiation.Valid) {w : DependencyWave}
    (h : w ∈ (outcome shape initiation snapshot).waves) :
    w.issues.length ≤ initiation.budget.maxParallelWorkers := by
  obtain ⟨-, -, ch, hch, hi⟩ := mem_numberWaves h
  rw [hi, (perm_waveIssues ch).length_eq, List.length_map]
  exact length_le_of_mem_waveChunks (parallel_pos hd) hch

theorem factsOf_factsByScope (k : ScopeKey) :
    factsOf (factsByScope snapshot) k = snapshot.issues.filter fun fact => fact.scopeKey = k :=
  Dict.getD_groupBy _ _ _

/-- **Compiled plans respect dependencies, closure and budget.**  Every planned Issue is
in exactly one wave, once; waves and plan stay within the budget; and whatever the fact
of a planned Issue depends on is satisfied, with evidence no check objects to, or planned
in a strictly earlier wave. -/
theorem compiled_plan_respects_dependencies (hinit : initiation.validate hash = .ok ())
    {c : DeliveryPlanCompilation}
    (h : compileDeliveryPlan hash casefold shape initiation snapshot = .ok c)
    {plan : DeliveryPlan} (hplan : c.plan = some plan) :
    (∀ i ∈ plan.finalScope, plan.waveItems.count i = 1) ∧
    (∀ w ∈ plan.dependencyWaves, w.issues.length ≤ initiation.budget.maxParallelWorkers) ∧
    plan.finalScope.length ≤ initiation.budget.maxWorkerStarts ∧
    ∀ i ∈ plan.finalScope, ∃ fact,
      (snapshot.issues.filter fun f => f.scopeKey = i.scopeKey) = [fact] ∧ fact.issue = i ∧
      ∀ d ∈ fact.dependencies,
        (d.satisfied = true ∧ validateDependencySatisfaction d fact (factsByScope snapshot)
          snapshot.capturedAt initiation.provenance.createdAt = []) ∨
        (d.issue ∈ plan.finalScope ∧ plan.Precedes d.issue i) := by
  have hd := DeliveryInitiation.valid_of_validate hinit
  obtain ⟨hcm, -, -⟩ := compileDeliveryPlan_eq_ok hd h
  rw [hplan] at hcm
  obtain ⟨rfl, -⟩ := compilePlan_eq_some hcm
  refine ⟨fun i hi => count_waveItems hd hi, ?_, ?_, ?_⟩
  · exact fun w hw => length_le_of_mem_waves hd hw
  · have hlen : (outcome shape initiation snapshot).finalScope.length =
        (outcome shape initiation snapshot).eligible.items.length := by
      rw [Outcome.finalScope, (perm_sortedBy _ _).length_eq, issuesOf, List.length_map,
        Dict.values, List.length_map]
    change (outcome shape initiation snapshot).finalScope.length ≤ _
    rw [hlen]
    rcases eligible_cases shape initiation snapshot with ⟨heq, hbd⟩ | hemp
    · rw [heq]
      exact hbd
    · rw [hemp]
      exact Nat.zero_le _
  · intro i hi
    obtain ⟨k, fact, hfc, rfl⟩ := mem_finalScope.mp hi
    have hcn := mem_candidates_of_eligible hfc
    obtain ⟨-, hkey, hsp, hpas⟩ := candidate_spec hd hcn
    refine ⟨fact, ?_, rfl, fun d hdep => ?_⟩
    · rw [← factsOf_factsByScope]
      exact hsp.only
    · obtain ⟨-, hst, -⟩ := dependencyRefusals_eq_nil_iff.mp (dependencyRefusals_eq_nil hpas hdep)
      by_cases hsat : d.satisfied = true
      · exact .inl ⟨hsat, hst⟩
      · -- a dependency that is left unsatisfied is eligible too
        have huns : d.satisfied = false := by simpa using hsat
        obtain ⟨fact', hcn', hiss'⟩ := candidates_closed hd hcn hdep huns
        have hfc' : (d.issue.scopeKey, fact') ∈
            (outcome shape initiation snapshot).eligible.items := by
          rcases eligible_cases shape initiation snapshot with ⟨heq, -⟩ | hemp
          · rw [heq]
            exact hcn'
          · rw [hemp] at hfc
            cases hfc
        obtain ⟨w, hw, w', hw', hbef, haft, hlt⟩ := exists_earlier_wave (parallel_pos hd)
          (readyRounds_eligible hd) hfc hdep huns hfc'
        rw [hiss'] at hbef
        exact .inr ⟨mem_finalScope.mpr ⟨_, fact', hfc', hiss'⟩, w, hw, w', hw', hbef, haft, hlt⟩

/-! ### A chain of two Issues -/

def chainIssue (n : Nat) (contractHash : String) : IssueScope where
  repository := "acme/app"
  issueNumber := n
  authorityId := s!"github:acme/app/issues/{n}"
  contractHash := contractHash

def chainAuthority (i : IssueScope) (observedAt : String) : AuthoritySnapshot where
  authorityType := "github_issue"
  authorityId := i.authorityId
  contentHash := i.contractHash
  observedState := "open"
  observedLabels := ["agent:ready", "prio:high", "type:task"]
  observedAt := observedAt

/-- An initiation that asks for both Issues, with every digest the same text. -/
def chainInitiation : DeliveryInitiation where
  initiationId := "initiation"
  requestedScope := [chainIssue 1 "first", chainIssue 2 "second"]
  exclusions := []
  approvalEvidence := ⟨"approval", ⟨.human, "operator", "acme/app"⟩, "2026-01-01T00:00:00Z",
    "digest", [⟨"issue", "epic", "epic-hash"⟩]⟩
  policyProfile := ⟨"delivery-low-risk", "v1", "policy-hash", 9000, ["ci"]⟩
  budget := ⟨2, 5, 0, 0, 60⟩
  sourceAuthorities := [chainAuthority (chainIssue 1 "first") "2026-01-01T00:00:00Z",
    chainAuthority (chainIssue 2 "second") "2026-01-01T00:00:00Z"]
  provenance := ⟨"2026-01-02T00:00:00Z", ⟨.human, "operator", "acme/app"⟩,
    [⟨"issue", "epic", "epic-hash"⟩], "correlation"⟩

def chainEvidence (i : IssueScope) (kind : ResolutionTargetKind) (target resolved : String)
    (resolver : ResolutionResolverId) : IssueContractResolutionEvidence :=
  ⟨i.authorityId, i.contractHash, kind, target, resolver, resolved, "content",
    "2026-01-03T00:00:00Z"⟩

def chainFact (i : IssueScope) (dependencies : List DeliveryDependency) (path : String) :
    DeliveryIssuePlanningSnapshot where
  issue := i
  authority := chainAuthority i "2026-01-03T00:00:00Z"
  priority := .high
  riskClass := .low
  sourceAnchors := ["docs/plan.md :: Scope"]
  verifyTargets := ["tests/test_app.py::test_it"]
  resolutionEvidence :=
    [chainEvidence i .sourceAnchor "docs/plan.md :: Scope" "git:acme/app:docs/plan.md"
      .repoAnchorResolver,
     chainEvidence i .verifyTarget "tests/test_app.py::test_it"
      "git:acme/app:tests/test_app.py" .repoVerifyTargetResolver]
  sbsImpact := requiredSbsImpactFields.map fun field => ⟨field, "none"⟩
  dependencies := dependencies
  likelyMutationPaths := [path]
  deliveryStatus := .undelivered
  linkedPrHead := none
  parentIssue := none
  scopeRole := .delivery

/-- The second Issue waits for the first. -/
def chainSnapshot : DeliveryPlanningSnapshot where
  snapshotId := "snapshot"
  capturedAt := "2026-01-04T00:00:00Z"
  issues :=
    [chainFact (chainIssue 2 "second") [⟨chainIssue 1 "first", false, none⟩] "app/second.py",
     chainFact (chainIssue 1 "first") [] "app/first.py"]

/-- Predicates that find every anchor and every target in order. -/
def lenientShape : ContractShape := ⟨fun _ => true, fun _ => true⟩

theorem chainInitiation_valid : chainInitiation.validate (fun _ => "digest") = .ok () := by
  decide +kernel

theorem chain_compiles :
    ∃ c, compileDeliveryPlan (fun _ => "digest") Casefold.ascii lenientShape chainInitiation
      chainSnapshot = .ok c ∧
      c.plan.map (fun p => p.dependencyWaves.map fun w => w.issues.map (·.issueNumber)) =
        some [[1], [2]] := by
  decide +kernel

/-- The plan of the chain has each of its Issues in one wave. -/
theorem chain_issues_in_one_wave :
    ∃ c plan, compileDeliveryPlan (fun _ => "digest") Casefold.ascii lenientShape
      chainInitiation chainSnapshot = .ok c ∧ c.plan = some plan ∧
      ∀ i ∈ plan.finalScope, plan.waveItems.count i = 1 := by
  obtain ⟨c, hc, hw⟩ := chain_compiles
  obtain ⟨plan, hp, -⟩ := Option.map_eq_some_iff.mp hw
  exact ⟨c, plan, hc, hp, (compiled_plan_respects_dependencies chainInitiation_valid hc hp).1⟩

end Compiler
end AgenticPkm.Builderops
