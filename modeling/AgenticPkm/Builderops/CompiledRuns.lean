import AgenticPkm.Builderops.Compiler.Cycles
import AgenticPkm.Builderops.Reducer.Stages
import AgenticPkm.Builderops.Reducer.Waves

/-!
# Runs of compiled plans

The compiler lays dependencies out in waves, and the reducer opens one wave after the other; the
two share the plan and nothing else.  Here they are put together.

* `requested_planned_iff_unrefused` — what was asked for is planned or refused.
* `validated_plan_starts` — a validated plan can be started.
* `Reaches.dependencies_delivered_first` — an Issue comes after what it waits for.
* `Reaches.inFlight_le`, `Reaches.workerStarts_le` — a run stays within its budget.
-/

namespace AgenticPkm.Builderops

open List Compiler

/-! ### A run of the chain -/

namespace Demo

/-- The chain of two Issues, approved under the digest of the small plan. -/
def approvedChain : DeliveryInitiation :=
  { chainInitiation with
    approvalEvidence :=
      { chainInitiation.approvalEvidence with
        approvedPayloadHash := chainInitiation.approvalHash digest } }

def chainPlan : DeliveryPlan :=
  match compileDeliveryPlan digest Casefold.ascii lenientShape approvedChain chainSnapshot with
  | .ok c => c.plan.getD plan
  | .error _ => plan

def chainSetup : RunSetup digest where
  runId := "run"
  plan := chainPlan
  profile := profile
  controlScopes := ["acme/app"]
  initial := (initialDeliveryRunState digest "run" chainPlan profile ["acme/app"]).toOption.getD
    default
  plan_valid := by decide +kernel
  initial_eq := by decide +kernel

/-- The first Issue is delivered, and the second is opened. -/
def chainRun : Except String (Session chainSetup) := do
  let first := chainIssue 1 "first"
  let ready := chainAuthority first stamp
  let claimed := { ready with observedLabels := ["agent:in-progress", "prio:high", "type:task"] }
  let closed :=
    { ready with observedState := "closed", observedLabels := ["prio:high", "type:task"] }
  let work :=
    { work with
      planRef := chainPlan.ref digest
      issue := first
      validations := [⟨"ci", .passed, "ci", some head⟩] }
  let verdict :=
    { verdict with
      planRef := chainPlan.ref digest
      issue := first
      policyProfile := chainPlan.policyProfile }
  let x ← (Session.start chainSetup).tick provenance
  let x ← x.report provenance .claimIssue first claimed none
  let x ← x.report provenance .launchWorker first claimed none
  let x ← x.deliver provenance work claimed
  let x ← x.report provenance .awaitCi first claimed none
  let x ← x.review provenance verdict claimed
  let x ← x.report provenance .mergePullRequest first claimed none
  let x ← x.report provenance .closeIssue first closed none
  let x ← x.report provenance .recordDeliveryReceipt first closed none
  x.tick provenance

theorem approvedChain_valid : approvedChain.validate digest = .ok () := by decide +kernel

theorem approvedChain_compiles : ∃ c, compileDeliveryPlan digest Casefold.ascii lenientShape
    approvedChain chainSnapshot = .ok c ∧ c.plan = some chainSetup.plan := by decide +kernel

/-- The second Issue has an effect on file, and one worker was started. -/
theorem exists_chainRun : ∃ x, chainRun = .ok x ∧
    (∃ it ∈ x.state.issues, it.issue = chainIssue 2 "second" ∧ it.effectLedger ≠ []) ∧
    (x.state.issues.flatMap IssueRunState.effectLedger).countP
      (·.effectClass == .launchWorker) = 1 := by decide +kernel

end Demo

variable {hash : Json → String} {casefold : Casefold} {sp : ContractShape}
  {init : DeliveryInitiation} {snap : DeliveryPlanningSnapshot}
  {c : DeliveryPlanCompilation} {plan : DeliveryPlan} {k : ScopeKey} {i : IssueScope}

/-! ### What was asked for -/

theorem hasRefusal_outcome : hasRefusal (outcome sp init snap).refusals k ↔
    ∃ r ∈ (outcome sp init snap).reported, r.issue.scopeKey = k := by
  rw [hasRefusal_iff]
  constructor
  · rintro ⟨key, hkey, rfl⟩
    obtain ⟨⟨_, r⟩, hitem, rfl⟩ := mem_map.mp hkey
    have hr := Dict.mem_items.mp hitem
    have hk := filed_outcome sp init snap _ r hr
    exact ⟨r, mem_reported.mpr (hk ▸ hr), congrArg Prod.fst hk⟩
  · rintro ⟨r, hr, rfl⟩
    exact ⟨r.key, mem_map.mpr ⟨_, Dict.mem_items.mpr (mem_reported.mp hr), rfl⟩, rfl⟩

theorem mem_candidates_iff (hd : init.Valid) (hi : i ∈ init.requestedScope) :
    (∃ fact, (i.scopeKey, fact) ∈ (candidatesOf sp init snap).items ∧
      fact.issue = i) ↔ hasRefusal (refusalsOf sp init snap) i.scopeKey = false := by
  constructor
  · rintro ⟨fact, hitem, -⟩
    exact (mem_unrefused.mp hitem).2
  · intro hr
    have hcov : hasRefusal (directRefusals sp init snap) i.scopeKey ∨
        ∃ fact, (i.scopeKey, fact) ∈ (acceptedOf sp init snap).items :=
      covered hd _ hi
    rcases hcov with hdir | ⟨fact, hfc⟩
    · rw [refusalsOf, hasRefusal_settledRefusals hdir] at hr
      cases hr
    · have hitem := mem_unrefused.mpr ⟨hfc, hr⟩
      obtain ⟨hin, hk, -⟩ := candidate_spec hd hitem
      exact ⟨fact, hitem, hd.scope_distinct.eq_of_key_eq hin hi hk⟩

theorem mem_finalScope_iff (hd : init.Valid) (hi : i ∈ init.requestedScope) :
    i ∈ (outcome sp init snap).finalScope ↔
      hasRefusal (outcome sp init snap).refusals i.scopeKey = false := by
  have hrec : hasRefusal (outcome sp init snap).refusals i.scopeKey ↔
      hasRefusal (refusalsOf sp init snap) i.scopeKey ∨
        ∃ r ∈ budgetRequests init (candidatesOf sp init snap),
          r.issue.scopeKey = i.scopeKey := hasRefusal_recordAll
  rw [mem_finalScope, ← Bool.not_eq_true, hrec, not_or, Bool.not_eq_true,
    ← mem_candidates_iff hd hi]
  by_cases hec : exceedsBudget init (candidatesOf sp init snap) = true
  · -- over the budget nothing is eligible, and every candidate is refused
    have hemp : (outcome sp init snap).eligible = ∅ := if_pos hec
    rw [hemp]
    refine iff_of_false (by simp) ?_
    rintro ⟨⟨fact, hitem, rfl⟩, hno⟩
    refine hno ⟨budgetRequest fact, ?_, rfl⟩
    rw [budgetRequests, if_pos hec]
    exact mem_map_of_mem (Dict.mem_values.mpr ⟨_, hitem⟩)
  · have hel : (outcome sp init snap).eligible = candidatesOf sp init snap :=
      if_neg hec
    have hreq : budgetRequests init (candidatesOf sp init snap) = [] :=
      if_neg hec
    rw [hel]
    constructor
    · rintro ⟨k, fact, hitem, rfl⟩
      obtain ⟨-, rfl, -⟩ := candidate_spec hd hitem
      exact ⟨⟨fact, hitem, rfl⟩, by simp [hreq]⟩
    · rintro ⟨⟨fact, hitem, rfl⟩, -⟩
      exact ⟨_, fact, hitem, rfl⟩

theorem plan_of_compiled (hinit : init.validate hash = .ok ())
    (hc : compileDeliveryPlan hash casefold sp init snap = .ok c) (hplan : c.plan = some plan) :
    init.Valid ∧ plan = assemblePlan hash casefold init snap (outcome sp init snap) ∧
      plan.validate = .ok () := by
  have hd := DeliveryInitiation.valid_of_validate hinit
  obtain ⟨hcm, -, -⟩ := compileDeliveryPlan_eq_ok hd hc
  rw [hplan] at hcm
  exact ⟨hd, compilePlan_eq_some hcm⟩

theorem finalScope_of_plan (hd : init.Valid)
    (hc : compileDeliveryPlan hash casefold sp init snap = .ok c) :
    (∃ plan ∈ c.plan, i ∈ plan.finalScope) ↔
      i ∈ (outcome sp init snap).finalScope := by
  obtain ⟨hcm, -, -⟩ := compileDeliveryPlan_eq_ok hd hc
  constructor
  · rintro ⟨plan, hp, hi⟩
    rw [Option.mem_def.mp hp] at hcm
    rw [(compilePlan_eq_some hcm).1] at hi
    exact hi
  · intro hi
    cases hp : c.plan with
    | none =>
      rw [hp] at hcm
      obtain ⟨k, fact, hitem, -⟩ := mem_finalScope.mp hi
      rw [compilePlan_eq_none hcm] at hitem
      cases hitem
    | some plan =>
      rw [hp] at hcm
      refine ⟨plan, rfl, ?_⟩
      rw [(compilePlan_eq_some hcm).1]
      exact hi

/-- **What was asked for is planned or refused, and never both.**  A plan holds nothing else. -/
theorem requested_planned_iff_unrefused (hinit : init.validate hash = .ok ())
    (hc : compileDeliveryPlan hash casefold sp init snap = .ok c) :
    (∀ i ∈ init.requestedScope, (∃ plan ∈ c.plan, i ∈ plan.finalScope) ↔
      ∀ r ∈ c.refusals, r.issue.scopeKey ≠ i.scopeKey) ∧
    ∀ plan ∈ c.plan, plan.finalScope ⊆ init.requestedScope := by
  have hd := DeliveryInitiation.valid_of_validate hinit
  obtain ⟨-, -, href⟩ := compileDeliveryPlan_eq_ok hd hc
  constructor
  · intro i hi
    rw [finalScope_of_plan hd hc, mem_finalScope_iff hd hi, ← Bool.not_eq_true,
      hasRefusal_outcome, href]
    simp
  · intro plan hp i hi
    obtain ⟨k, fact, hitem, rfl⟩ := mem_finalScope.mp ((finalScope_of_plan hd hc).mp ⟨plan, hp, hi⟩)
    exact (candidate_spec hd (mem_candidates_of_eligible hitem)).1

theorem chain_planned :
    ∃ c, compileDeliveryPlan (fun _ => "digest") Casefold.ascii lenientShape chainInitiation
      chainSnapshot = .ok c ∧
      ∀ i ∈ chainInitiation.requestedScope, ∃ plan ∈ c.plan, i ∈ plan.finalScope := by
  obtain ⟨c, hc, hr⟩ : ∃ c, compileDeliveryPlan (fun _ => "digest") Casefold.ascii lenientShape
      chainInitiation chainSnapshot = .ok c ∧ c.refusals = [] := by decide +kernel
  refine ⟨c, hc, fun i hi => ?_⟩
  exact ((requested_planned_iff_unrefused chainInitiation_valid hc).1 i hi).mpr (by simp [hr])

/-! ### The start of a run -/

theorem mem_scopedWaves {w : ℕ} : (k, w) ∈ plan.scopedWaves ↔
    ∃ wave ∈ plan.dependencyWaves, wave.waveIndex = w ∧ ∃ i ∈ wave.issues, i.scopeKey = k := by
  simp only [DeliveryPlan.scopedWaves, mem_flatMap, mem_map, Prod.mk.injEq]
  grind

theorem RunSetup.initial_perm (S : RunSetup hash) :
    (S.initial.issues.map IssueRunState.issue).Perm S.plan.finalScope := by
  obtain ⟨⟨issues, hsort, hiss, -⟩, -⟩ := S.initial_cases
  rw [hsort, ← hiss]
  exact (perm_sortedBy _ _).map _

/-- **The reducer starts every validated plan**: none of the lookups that could raise does, and
the run begins with each planned Issue once, admitted and with nothing on file. -/
theorem validated_plan_starts (hash : Json → String) (hv : plan.validate = .ok ())
    (runId : String) (profile : DeliveryAcceptanceProfile) {scopes : List String}
    (hs : scopes ≠ []) :
    ∃ s, initialDeliveryRunState hash runId plan profile scopes = .ok s ∧
      (s.issues.map IssueRunState.issue).Perm plan.finalScope ∧
      ∀ it ∈ s.issues, it.phase = .admitted ∧ it.effectLedger = [] := by
  have hval := DeliveryPlan.valid_of_validate hv
  have hone : ∀ i ∈ plan.finalScope, ∃ it, initialIssue plan i = .ok it := by
    intro i hi
    obtain ⟨a, ha, hid, -⟩ := hval.authority_bound i hi
    obtain ⟨wave, hw, hiw⟩ := hval.wave_covers i hi
    obtain ⟨a', ha'⟩ := exists_lastBy AuthoritySnapshot.authorityId ha
    obtain ⟨w', hw'⟩ := exists_lastBy Prod.fst (mem_scopedWaves.mpr ⟨wave, hw, rfl, i, hiw, rfl⟩)
    rw [hid] at ha'
    exact ⟨_, by rw [initialIssue, ha', hw']; rfl⟩
  obtain ⟨issues, hi⟩ := exists_collectAll hone
  have hne : scopes.isEmpty = false := by simpa using hs
  obtain ⟨s, hs⟩ : ∃ s, initialDeliveryRunState hash runId plan profile scopes = .ok s :=
    ⟨_, by rw [initialDeliveryRunState, hne, hi]; rfl⟩
  let S : RunSetup hash := ⟨runId, plan, profile, scopes, s, hv, hs⟩
  refine ⟨s, hs, S.initial_perm, fun it hit => ?_⟩
  have hfr : it.Fresh S := RunSetup.fresh_of_mem_initial hit
  exact ⟨hfr.phase_eq, hfr.effectLedger_eq⟩

theorem demo_plan_starts : ∃ s,
    initialDeliveryRunState Demo.digest "run" Demo.plan Demo.profile ["owner/repo"] = .ok s ∧
      (s.issues.map IssueRunState.issue).Perm Demo.plan.finalScope := by
  obtain ⟨s, hs, hp, -⟩ := validated_plan_starts Demo.digest Demo.plan_valid "run" Demo.profile
    (by decide : ["owner/repo"] ≠ [])
  exact ⟨s, hs, hp⟩

/-! ### The waves of a run -/

theorem DeliveryPlan.waves_of_validate (h : plan.validate = .ok ()) :
    (plan.dependencyWaves.map DependencyWave.waveIndex).Nodup ∧
    (plan.waveItems.map IssueScope.scopeKey).Nodup ∧
    ∀ w ∈ plan.dependencyWaves, w.issues.length ≤ plan.budget.maxParallelWorkers := by
  simp only [validate, validatePlan, bind_unit_eq_ok_iff, raiseIf_eq_ok_iff,
    requireUnique_eq_ok_iff, Bool.or_eq_false_iff, Bool.not_eq_false', bne_eq_false_iff_eq,
    decide_eq_true_eq, any_eq_false, not_lt] at h
  obtain ⟨-, -, -, -, -, -, -, -, -, -, -, hidx, ⟨⟨hnd, -⟩, -⟩, -, hlen, -⟩ := h
  exact ⟨hidx ▸ nodup_range, hnd, hlen⟩

/-- The Issue is between its claim and its end. -/
def IssueRunState.inFlight (it : IssueRunState) : Bool :=
  !it.phase.isTerminal && it.phase != .admitted

namespace RunSetup

variable {S : RunSetup hash} {h : List (RunStep hash)} {s : DeliveryRunState}

/-- The Issues of a run stay in the waves the plan puts them in. -/
theorem Reaches.placed (hr : S.Reaches h s) :
    s.issues.map (fun it => (it.issue, it.waveIndex)) =
      S.initial.issues.map fun it => (it.issue, it.waveIndex) := by
  refine (run_induct (P := fun _ s => s.issues.map (fun it => (it.issue, it.waveIndex)) =
    S.initial.issues.map fun it => (it.issue, it.waveIndex)) (fun _ _ _ hg => hg) rfl ?_ ?_ hr).2
  · intro h s i reason _ ih
    exact ih
  · intro h s i r _ _ ih _ ha
    obtain ⟨f, g, hi, -, hm⟩ := ha.moves
    rw [hi, map_map, ← ih]
    refine map_congr_left fun it hit => ?_
    simp [(hm it hit).frame]

theorem mem_scopedWaves_of_forall₂ {scope : List IssueScope} {issues : List IssueRunState}
    (h : Forall₂ (fun i it => initialIssue plan i = .ok it) scope issues) :
    ∀ it ∈ issues, (it.issue.scopeKey, it.waveIndex) ∈ plan.scopedWaves := by
  induction h with
  | nil => simp
  | cons hh _ ih =>
    refine forall_mem_cons.mpr ⟨?_, ih⟩
    unfold initialIssue at hh
    split at hh
    next planned wave _ hw =>
      obtain rfl := pure_eq_ok_iff.mp hh
      obtain ⟨hm, hk⟩ := lastBy_eq_some hw
      rw [← hk]
      exact hm
    · cases hh

theorem Reaches.mem_scopedWaves (hr : S.Reaches h s) {it : IssueRunState} (hit : it ∈ s.issues) :
    (it.issue.scopeKey, it.waveIndex) ∈ S.plan.scopedWaves := by
  have hm : (it.issue, it.waveIndex) ∈ S.initial.issues.map fun it => (it.issue, it.waveIndex) :=
    hr.placed ▸ mem_map_of_mem hit
  obtain ⟨it₀, hit₀, heq⟩ := mem_map.mp hm
  have hin := S.initial_eq
  simp only [initialDeliveryRunState, exists_unit_iff, bind_eq_ok_iff, collectAll_eq_ok_iff,
    pure_eq_ok_iff] at hin
  obtain ⟨-, issues, hall, hs⟩ := hin
  rw [← hs, mem_sortedBy] at hit₀
  have hw := mem_scopedWaves_of_forall₂ hall it₀ hit₀
  rw [Prod.mk.injEq] at heq
  rwa [heq.1, heq.2] at hw

theorem Reaches.issues_perm (hr : S.Reaches h s) :
    (s.issues.map IssueRunState.issue).Perm S.plan.finalScope := by
  have hpl := congrArg (map Prod.fst) hr.placed
  rw [map_map, map_map] at hpl
  exact hpl ▸ S.initial_perm

/-- The wave a run has an Issue in is the one the plan puts it in. -/
theorem Reaches.waveIndex_eq (hr : S.Reaches h s) {it : IssueRunState} (hit : it ∈ s.issues)
    {w : DependencyWave} (hw : w ∈ S.plan.dependencyWaves) (hi : it.issue ∈ w.issues) :
    it.waveIndex = w.waveIndex := by
  obtain ⟨w', hw', hidx, j, hj, hk⟩ := Builderops.mem_scopedWaves.mp (hr.mem_scopedWaves hit)
  obtain ⟨-, hnd, -⟩ := DeliveryPlan.waves_of_validate S.plan_valid
  rw [DeliveryPlan.waveItems, map_flatMap] at hnd
  by_contra hne
  have hsymm : Std.Symm (Function.onFun Disjoint fun w : DependencyWave =>
    w.issues.map IssueScope.scopeKey) := ⟨fun _ _ h => h.symm⟩
  refine (nodup_flatMap.mp hnd).2.forall hw hw' ?_ (mem_map_of_mem hi) (hk ▸ mem_map_of_mem hj)
  rintro rfl
  exact hne hidx.symm

/-- **A run never has more Issues in flight than its budget has workers**: they are all in one
wave, and no wave is larger. -/
theorem Reaches.inFlight_le (hrun : S.Reaches h s) :
    (s.issues.filter IssueRunState.inFlight).length ≤ S.plan.budget.maxParallelWorkers := by
  obtain ⟨hidx, -, hlen⟩ := DeliveryPlan.waves_of_validate S.plan_valid
  have hwave : ∀ it ∈ s.issues, ∃ w ∈ S.plan.dependencyWaves,
      it.issue ∈ w.issues ∧ it.waveIndex = w.waveIndex := by
    intro it hit
    obtain ⟨w, hw, hi⟩ := S.valid.wave_covers _ (hrun.inv.coherent it hit).planned
    exact ⟨w, hw, hi, hrun.waveIndex_eq hit hw hi⟩
  have hflight : ∀ y ∈ s.issues.filter IssueRunState.inFlight, y ∈ s.issues ∧ y.Started ∧
      y.phase ≠ .delivered := by
    intro y hy
    obtain ⟨hy, hfl⟩ := mem_filter.mp hy
    simp only [IssueRunState.inFlight, Bool.and_eq_true, Bool.not_eq_true', bne_iff_ne] at hfl
    exact ⟨hy, .inr hfl, fun hdel => by simp [hdel, RunPhase.isTerminal] at hfl⟩
  cases hf : s.issues.filter IssueRunState.inFlight with
  | nil => exact Nat.zero_le _
  | cons x rest =>
    obtain ⟨hx, hsx, hxd⟩ := hflight x (hf ▸ mem_cons_self)
    obtain ⟨w, hw, -, hxw⟩ := hwave x hx
    -- whatever is in flight is in the wave of the first
    have hsub : (s.issues.filter IssueRunState.inFlight).map IssueRunState.issue ⊆ w.issues := by
      intro i hi
      obtain ⟨y, hy, rfl⟩ := mem_map.mp hi
      obtain ⟨hy, hsy, hyd⟩ := hflight y hy
      obtain ⟨w', hw', hyi, hyw⟩ := hwave y hy
      have hxy : ¬ x.waveIndex < y.waveIndex := fun hlt => hxd (hrun.wavesGated y hy hsy x hx hlt)
      have hyx : ¬ y.waveIndex < x.waveIndex := fun hlt => hyd (hrun.wavesGated x hx hsx y hy hlt)
      rwa [inj_on_of_nodup_map hidx hw hw' (by omega)]
    have hnd : ((s.issues.filter IssueRunState.inFlight).map IssueRunState.issue).Nodup := by
      refine Nodup.of_map IssueScope.scopeKey ?_
      rw [map_map]
      exact hrun.inv.keyed.sublist (filter_sublist.map _)
    have hle := (hnd.subperm hsub).length_le
    rw [length_map, hf] at hle
    exact hle.trans (hlen w hw)

theorem claimedRun_inFlight_le : ∃ x, Demo.claimedRun = .ok x ∧
    (x.state.issues.filter IssueRunState.inFlight).length = 1 ∧
    1 ≤ Demo.setup.plan.budget.maxParallelWorkers := by
  obtain ⟨x, hx, hone⟩ : ∃ x, Demo.claimedRun = .ok x ∧
      (x.state.issues.filter IssueRunState.inFlight).length = 1 := by decide +kernel
  exact ⟨x, hx, hone, hone ▸ x.reached.reachesOrdered.reaches.inFlight_le⟩

/-- **In every run of a compiled plan dependencies come first.**  What the fact of an Issue waits
for is in the run, in an earlier wave, and it is delivered once any effect was authorised for the
Issue. -/
theorem Reaches.dependencies_delivered_first (hinit : init.validate hash = .ok ())
    (hc : compileDeliveryPlan hash casefold sp init snap = .ok c)
    (hplan : c.plan = some S.plan) (hrun : S.Reaches h s) :
    ∀ x ∈ s.issues, ∀ fact ∈ snap.issues, fact.scopeKey = x.issue.scopeKey →
      ∀ d ∈ fact.dependencies, d.satisfied = false →
        ∃ y ∈ s.issues, y.issue = d.issue ∧ y.waveIndex < x.waveIndex ∧
          (x.effectLedger ≠ [] → y.phase = .delivered) := by
  intro x hx fact hfact hkey d hdep huns
  obtain ⟨hd, hp, -⟩ := plan_of_compiled hinit hc hplan
  have hxp : x.issue ∈ (outcome sp init snap).finalScope :=
    (finalScope_of_plan hd hc).mp ⟨S.plan, hplan, (hrun.inv.coherent x hx).planned⟩
  obtain ⟨k, fact', hitem, hissue⟩ := mem_finalScope.mp hxp
  -- the snapshot has one fact about the Issue
  obtain ⟨-, rfl, hsp, -⟩ := candidate_spec hd (mem_candidates_of_eligible hitem)
  have hone : fact = fact' := by
    have hmem : fact ∈ factsOf (factsByScope snap) fact'.issue.scopeKey := by
      rw [factsOf_factsByScope]
      exact mem_filter.mpr ⟨hfact, by simp [hkey, hissue]⟩
    rw [hsp.only] at hmem
    exact mem_singleton.mp hmem
  subst hone
  obtain ⟨dep, hcn, hdi⟩ := candidates_closed hd (mem_candidates_of_eligible hitem) hdep huns
  have hel : (d.issue.scopeKey, dep) ∈ (outcome sp init snap).eligible.items := by
    rcases eligible_cases sp init snap with ⟨heq, -⟩ | hemp
    · rw [heq]
      exact hcn
    · rw [hemp] at hitem
      cases hitem
  obtain ⟨w, hw, w', hw', hin, hin', hlt⟩ := exists_earlier_wave (parallel_pos hd)
    (readyRounds_eligible hd) hitem hdep huns hel
  rw [hdi] at hin
  rw [hissue] at hin'
  have hdp : d.issue ∈ S.plan.finalScope := by
    rw [hp]
    exact mem_finalScope.mpr ⟨_, dep, hel, hdi⟩
  obtain ⟨y, hy, hyi⟩ := mem_map.mp (hrun.issues_perm.mem_iff.mpr hdp)
  have hlt' : y.waveIndex < x.waveIndex := by
    rw [hrun.waveIndex_eq hy (hp ▸ hw) (hyi ▸ hin), hrun.waveIndex_eq hx (hp ▸ hw') hin']
    exact hlt
  exact ⟨y, hy, hyi, hlt', fun hl => hrun.wavesGated x hx (.inl hl) y hy hlt'⟩

/-- In the run of the chain the second Issue has an effect on file, so the first is delivered. -/
theorem chain_waits : ∃ x, Demo.chainRun = .ok x ∧ ∃ it ∈ x.state.issues,
    it.issue = chainIssue 2 "second" ∧ it.effectLedger ≠ [] ∧ ∃ y ∈ x.state.issues,
      y.issue = chainIssue 1 "first" ∧ y.waveIndex < it.waveIndex ∧ y.phase = .delivered := by
  obtain ⟨c, hc, hp⟩ := Demo.approvedChain_compiles
  obtain ⟨x, hx, ⟨it, hit, hi, hl⟩, -⟩ := Demo.exists_chainRun
  obtain ⟨y, hy, hyi, hlt, hdel⟩ := Reaches.dependencies_delivered_first
    Demo.approvedChain_valid hc hp x.reached.reachesOrdered.reaches it hit
    (chainFact (chainIssue 2 "second") [⟨chainIssue 1 "first", false, none⟩] "app/second.py")
    mem_cons_self (congrArg IssueScope.scopeKey hi.symm) _ mem_cons_self rfl
  exact ⟨x, hx, it, hit, hi, hl, y, hy, hyi, hlt, hdel hl⟩

/-- But for claims a move keeps one key for each class: what it proposes is new, or has the key
of an entry of its class. -/
theorem class_origin {w : ℕ} {inp : RunInput hash} {it it' : IssueRunState}
    {ps : List EffectProposal} (hit : it.Coherent S) (hs : it.Staged)
    (hm : IssueMove S w inp it it' ps) {e' : EffectLedgerEntry} (he' : e' ∈ it'.effectLedger)
    (hcls : e'.effectClass ≠ .claimIssue) :
    (∃ e ∈ it.effectLedger, e.effectClass = e'.effectClass ∧
      e.idempotencyKey = e'.idempotencyKey) ∨
    (∀ e ∈ it.effectLedger, e.effectClass ≠ e'.effectClass) ∧
      ∃ p, ps = [p] ∧ e' = (identityOf hash S.initial p).entry p := by
  rcases hm.entry_origin hit he' with ⟨e, he, hsame, -⟩ | ⟨p, hp, rfl⟩
  · exact .inl ⟨e, he, hsame.class_eq.symm, hsame.key_eq.symm⟩
  · rcases hm.new_or_filed hit hs hp with hnew | hfiled | ⟨rfl, -⟩
    · exact .inr ⟨hnew, p, hm.eq_singleton hp, rfl⟩
    · exact .inl hfiled
    · exact absurd rfl hcls

theorem Reaches.one_key (hr : S.Reaches h s) : ∀ it ∈ s.issues, it.Staged ∧
    ∀ e ∈ it.effectLedger, ∀ e' ∈ it.effectLedger, e.effectClass = e'.effectClass →
      e.effectClass ≠ .claimIssue → e.idempotencyKey = e'.idempotencyKey := by
  refine issue_induct (P := fun _ it => it.Staged ∧ ∀ e ∈ it.effectLedger,
    ∀ e' ∈ it.effectLedger, e.effectClass = e'.effectClass → e.effectClass ≠ .claimIssue →
      e.idempotencyKey = e'.idempotencyKey) (fun _ _ _ hg => hg) ?_ ?_ hr
  · intro it hfr
    refine ⟨⟨?_, ?_, ?_⟩, ?_⟩ <;> simp [hfr.effectLedger_eq]
  · rintro h s inp r it it' ps - hs - hit ⟨hstg, hone⟩ hm
    have hcoh := hs.coherent it hit
    refine ⟨hm.staged hcoh hstg, fun e he e' he' hcls hne => ?_⟩
    rcases class_origin hcoh hstg hm he hne with ⟨o, ho, hoc, hok⟩ | ⟨hnew, p, rfl, hep⟩
    · rcases class_origin hcoh hstg hm he' (hcls ▸ hne) with ⟨o', ho', hoc', hok'⟩ | ⟨hnew', -⟩
      · rw [← hok, ← hok']
        exact hone o ho o' ho' (by rw [hoc, hoc', hcls]) (hoc ▸ hne)
      · exact absurd (hoc.trans hcls) (hnew' o ho)
    · rcases class_origin hcoh hstg hm he' (hcls ▸ hne) with ⟨o', ho', hoc', -⟩ | ⟨-, q, hq, heq⟩
      · exact absurd (hoc'.trans hcls.symm) (hnew o' ho')
      · obtain rfl := List.singleton_inj.mp hq
        rw [hep, heq]

theorem Reaches.countP_class_le_one (hr : S.Reaches h s) {it : IssueRunState}
    (hit : it ∈ s.issues) {cls : EffectClass} (hcls : cls ≠ .claimIssue) :
    it.effectLedger.countP (·.effectClass == cls) ≤ 1 := by
  rw [countP_eq_length_filter]
  have hst := (hr.inv.coherent it hit).strict.filter (·.effectClass == cls)
  rcases hf : it.effectLedger.filter (·.effectClass == cls) with _ | ⟨e, _ | ⟨e', l⟩⟩
  · simp [hf]
  · simp [hf]
  · -- two entries would have one key
    have he := mem_filter.mp (hf ▸ mem_cons_self)
    have he' := mem_filter.mp (hf ▸ mem_cons_of_mem e mem_cons_self)
    simp only [beq_iff_eq] at he he'
    have hkey := (hr.one_key it hit).2 e he.1 e' he'.1 (he.2.trans he'.2.symm) (he.2 ▸ hcls)
    rw [hf] at hst
    exact absurd hkey (ne_of_lt (rel_of_pairwise_cons hst mem_cons_self))

theorem Reaches.length_issues (hp : S.plan = assemblePlan hash casefold init snap
    (outcome sp init snap)) (hr : S.Reaches h s) :
    s.issues.length ≤ init.budget.maxWorkerStarts := by
  have hlen := hr.issues_perm.length_eq
  rw [length_map, hp] at hlen
  rw [hlen]
  change (outcome sp init snap).finalScope.length ≤ _
  rw [Outcome.finalScope, (perm_sortedBy _ _).length_eq, issuesOf, length_map, Dict.values,
    length_map]
  rcases eligible_cases sp init snap with ⟨heq, hbd⟩ | hemp
  · exact heq ▸ hbd
  · rw [hemp]
    exact Nat.zero_le _

/-- **The worker starts of a run stay within the budget its plan was compiled for.**  An Issue
has one effect of each class on file, claims apart, so the launches of all Issues together are no
more than the starts that were granted. -/
theorem Reaches.workerStarts_le (hinit : init.validate hash = .ok ())
    (hc : compileDeliveryPlan hash casefold sp init snap = .ok c)
    (hplan : c.plan = some S.plan) (hrun : S.Reaches h s) :
    (∀ it ∈ s.issues, ∀ cls, cls ≠ .claimIssue →
      it.effectLedger.countP (·.effectClass == cls) ≤ 1) ∧
    (s.issues.flatMap IssueRunState.effectLedger).countP (·.effectClass == .launchWorker) ≤
      init.budget.maxWorkerStarts := by
  obtain ⟨-, hp, -⟩ := plan_of_compiled hinit hc hplan
  refine ⟨fun it hit cls hcls => hrun.countP_class_le_one hit hcls, ?_⟩
  rw [countP_flatMap]
  refine (sum_le_card_nsmul _ 1 ?_).trans ?_
  · intro n hn
    obtain ⟨it, hit, rfl⟩ := mem_map.mp hn
    exact hrun.countP_class_le_one hit (by decide)
  · rw [length_map, smul_eq_mul, Nat.mul_one]
    exact hrun.length_issues hp

/-- In the run of the chain one worker was started, of the five that were granted. -/
theorem chain_workerStarts_le : ∃ x, Demo.chainRun = .ok x ∧
    (x.state.issues.flatMap IssueRunState.effectLedger).countP
      (·.effectClass == .launchWorker) = 1 ∧ 1 ≤ Demo.approvedChain.budget.maxWorkerStarts := by
  obtain ⟨c, hc, hp⟩ := Demo.approvedChain_compiles
  obtain ⟨x, hx, -, hone⟩ := Demo.exists_chainRun
  have hle := Reaches.workerStarts_le Demo.approvedChain_valid hc hp
    x.reached.reachesOrdered.reaches
  exact ⟨x, hx, hone, hone ▸ hle.2⟩

end RunSetup

end AgenticPkm.Builderops
