import AgenticPkm.Builderops.Compiler.Identity

/-!
# Cycles are refused exactly

That an Issue lies on a cycle is filed by one pass over the accepted facts and by nothing
else: the checks of a single fact never file it, refusals spread under a code of their own
and only to Issues that have none, and the budget refuses what is left.  So such a refusal
can be followed from the report back to the search that led to it.

* `cycles_refused_exactly` — **only cycles are refused as such**, and none is left.
-/

namespace AgenticPkm.Builderops.Compiler

open Relation Dict

/-! ### What the checks of a fact file -/

/-- The codes that only the passes file. -/
def RefusalCode.ofPass (c : RefusalCode) : Bool := c == .dependencyCycle || c == .mutationOverlap

def AllDirect (requests : List RefusalRequest) : Prop := ∀ r ∈ requests, r.code.ofPass = false

section Direct

variable {sh : ContractShape} {init : DeliveryInitiation} {s : DeliveryPlanningSnapshot}
  {l l' : List RefusalRequest} {r : RefusalRequest}

theorem allDirect_append : AllDirect (l ++ l') ↔ AllDirect l ∧ AllDirect l' :=
  List.forall_mem_append

theorem allDirect_single : AllDirect [r] ↔ r.code.ofPass = false := List.forall_mem_singleton

theorem allDirect_flatMap {α : Type} {l : List α} {f : α → List RefusalRequest} :
    AllDirect (l.flatMap f) ↔ ∀ a ∈ l, AllDirect (f a) := by
  simp only [AllDirect, List.mem_flatMap, forall_exists_index, and_imp]
  exact ⟨fun h a ha r hr => h r a ha hr, fun h r a ha hr => h a ha r hr⟩

theorem allDirect_refuseIf (c : Bool) (h : r.code.ofPass = false) : AllDirect (refuseIf c r) := by
  intro r' hr'
  rw [(mem_refuseIf.mp hr').2]
  exact h

theorem allDirect_factRefusals (f : FactsByScope) (c : String) (i : IssueScope)
    (fact : DeliveryIssuePlanningSnapshot) : AllDirect (factRefusals sh init f c i fact) := by
  have hp : AllDirect (priorityRefusals fact) := by
    unfold priorityRefusals
    dsimp only
    split
    · exact allDirect_single.mpr rfl
    · exact allDirect_refuseIf _ rfl
  have hs : ∀ d b, AllDirect (validateDependencySatisfaction d fact f c b) := by
    intro d b
    unfold validateDependencySatisfaction
    split
    · exact allDirect_refuseIf _ rfl
    · split
      · exact allDirect_single.mpr rfl
      · exact allDirect_refuseIf _ rfl
      · exact allDirect_refuseIf _ rfl
      · exact allDirect_single.mpr rfl
  simp only [factRefusals, validatePickupAuthority, validateResolutionEvidence, targetRefusals,
    dependencyRefusals, allDirect_append, allDirect_flatMap, hp, hs, and_true]
  -- what is left are conditional requests, each with the code of its own check
  repeat' first
    | exact allDirect_refuseIf _ rfl
    | refine ⟨?_, ?_⟩
    | intro _ _

theorem allDirect_assessIssue (f : FactsByScope) (c : String) (i : IssueScope) :
    AllDirect (assessIssue sh init f c i).1 := by
  unfold assessIssue
  split
  · split
    next r hr =>
      refine allDirect_single.mpr ?_
      unfold turnedAway at hr
      split_ifs at hr <;> (obtain rfl := Option.some.inj hr; rfl)
    next => exact allDirect_factRefusals f c i _
  · exact allDirect_single.mpr rfl

/-- **Nothing is filed under a code of the passes before them.** -/
theorem get?_directRefusals {k : RefusalKey} (h : k.2.1.ofPass) :
    (directRefusals sh init s).get? k = none := by
  have hd : ∀ {m l}, AllDirect l → (recordAll m l).get? k = m.get? k := by
    intro m l hl
    refine get?_recordAll_of_ne ?_
    rintro r hm rfl
    rw [show r.key.2.1 = r.code from rfl, hl r hm] at h
    cases h
  -- the scope was assessed on top of the facts outside of it
  refine (hd (allDirect_flatMap.mpr fun i _ => allDirect_assessIssue _ _ i)).trans ?_
  refine (hd ?_).trans rfl
  intro r hr
  obtain ⟨f, -, -, rfl⟩ := mem_outsideRequests.mp hr
  rfl

end Direct

/-! ### Following a refusal back to its pass -/

section Follow

variable {init : DeliveryInitiation} {acc : AcceptedFacts} {m : RefusalMap} {k : RefusalKey}

theorem get?_propagated_of_code (h : k.2.1 ≠ .dependencyBlocked) :
    (propagated init acc m).get? k = m.get? k := by
  refine get?_propagated_of_ne ?_
  rintro item - - rfl
  exact h rfl

theorem get?_scheduled (h : k.2.1.ofPass) :
    (scheduled init acc (settledRefusals init acc m)).refusals.get? k =
      (afterOverlaps init acc m).get? k := by
  refine (get?_recordAll_of_ne ?_).trans (get?_propagated_of_code ?_)
  · rintro r hr rfl
    obtain ⟨f, -, rfl⟩ := of_mem_budgetRequests hr
    cases h
  · rintro hc
    rw [hc] at h
    cases h

theorem exists_cycleRefusal (hm : ∀ k : RefusalKey, k.2.1.ofPass → m.get? k = none)
    (hc : k.2.1 = .dependencyCycle)
    (h : k ∈ (scheduled init acc (settledRefusals init acc m)).refusals.keys) :
    ∃ r ∈ cycleRefusals init (unrefused acc (propagated init acc m)), r.key = k := by
  have hne : k.2.1 ≠ .dependencyBlocked := by rw [hc]; decide
  have hp : k.2.1.ofPass := by rw [hc]; rfl
  obtain ⟨p, hk⟩ := Dict.mem_keys.mp h
  have hov : ∀ f, ∀ r ∈ refuseMutationOverlap f, r.key ≠ k := by
    rintro f r hr rfl
    obtain ⟨f, -, g, -, rfl⟩ := of_mem_overlapRequests hr
    cases hc
  -- back through the schedule, the overlaps and the second propagation
  rw [get?_scheduled hp, afterOverlaps, get?_recordAll_of_ne (hov _),
    get?_propagated_of_code hne] at hk
  refine (mem_keys_recordAll.mp (Dict.mem_keys.mpr ⟨p, hk⟩)).resolve_left fun hk => ?_
  -- it is not from before the search either
  obtain ⟨p, hk⟩ := Dict.mem_keys.mp hk
  rw [get?_propagated_of_code hne, hm k hp] at hk
  cases hk

end Follow

/-! ### The compiler -/

/-- The Issue is one of the candidates and waits for itself, by way of candidates. -/
def OnCycle (facts : AcceptedFacts) (candidates : List ScopeKey) (k : ScopeKey) : Prop :=
  k ∈ candidates ∧ TransGen (fun a b => b ∈ waitsFor facts candidates a) k k

section Cycles

variable {hash : Json → String} {casefold : Casefold} {shape : ContractShape}
  {initiation : DeliveryInitiation} {snapshot : DeliveryPlanningSnapshot}

theorem mem_reported {r : PlanRefusal} :
    r ∈ (outcome shape initiation snapshot).reported ↔
      (outcome shape initiation snapshot).refusals.get? r.key = some r := by
  refine mem_sortedBy.trans (mem_values.trans ⟨?_, ?_⟩)
  · rintro ⟨k, hi⟩
    have hr := mem_items.mp hi
    rw [filed_outcome shape initiation snapshot k r hr]
    exact hr
  · exact fun h => ⟨_, mem_items.mpr h⟩

/-- **The search finds exactly the candidates on a cycle.**  So what is handed to the waves
for any validated initiation has no cycle, the waves are complete and hold every eligible
Issue, the repair of cycles is not reached, and an Issue is reported to be on a cycle only
if it is on one. -/
theorem cycles_refused_exactly (hinit : initiation.validate hash = .ok ()) :
    (∀ (facts : AcceptedFacts) (candidates : List ScopeKey), candidates.Nodup →
      candidates ⊆ facts.keys →
      ∀ k, k ∈ dependencyCycleKeys facts candidates ↔ OnCycle facts candidates k) ∧
    ∃ outside direct accepted spread settled waves,
      refuseAll ∅ (outsideRequests initiation (factsByScope snapshot)) = .ok outside ∧
      assessScope shape initiation (factsByScope snapshot) snapshot.capturedAt outside =
        .ok (direct, accepted) ∧
      propagateDependencyRefusals initiation accepted direct = .ok spread ∧
      settleRefusals initiation accepted direct = .ok settled ∧
      (∀ k, ¬ OnCycle (withinBudget initiation (unrefused accepted settled))
        (withinBudget initiation (unrefused accepted settled)).keys k) ∧
      buildDependencyWaves (withinBudget initiation (unrefused accepted settled))
        initiation.budget.maxParallelWorkers = .ok (waves, []) ∧
      (waves.flatMap DependencyWave.issues).Perm
        (issuesOf (withinBudget initiation (unrefused accepted settled))) ∧
      ∀ c, compileDeliveryPlan hash casefold shape initiation snapshot = .ok c →
        ∀ r ∈ c.refusals, r.code = .dependencyCycle →
          OnCycle (unrefused accepted spread) (unrefused accepted spread).keys
            r.issue.scopeKey := by
  have hd := DeliveryInitiation.valid_of_validate hinit
  refine ⟨fun facts candidates hn _ k => mem_dependencyCycleKeys hn, ?_⟩
  refine ⟨_, directRefusals shape initiation snapshot, acceptedOf shape initiation snapshot, _,
    refusalsOf shape initiation snapshot, (outcome shape initiation snapshot).waves,
    refuseAll_eq _ (stated_outsideRequests _ _), assessScope_eq _ _ _,
    propagateDependencyRefusals_eq _ _ _, settleRefusals_eq (approved_of_acceptedOf hd),
    ?_, ?_, ?_, ?_⟩
  · -- whoever was on a cycle has been refused
    intro k hk
    exact settledRefusals_acyclic (approved_of_acceptedOf hd) (keyed_acceptedFacts hd)
      (fun _ hi => mem_candidates_of_eligible hi) k hk.2
  · exact buildDependencyWaves_eligible hd
  · exact perm_flatMap_dependencyWaves (parallel_pos hd) (readyRounds_eligible hd)
  · -- a reported cycle goes back to a request of the search
    intro c h r hr hc
    rw [(compileDeliveryPlan_eq_ok hd h).2.2] at hr
    obtain ⟨q, hq, hkey⟩ := exists_cycleRefusal (fun _ => get?_directRefusals) hc
      (Dict.mem_keys.mpr ⟨r, mem_reported.mp hr⟩)
    obtain ⟨k, hk, issue, hi, rfl⟩ := of_mem_cycleRefusals hq
    obtain ⟨-, rfl⟩ := hd.approved_eq_some_iff.mp hi
    have hs : issue.scopeKey = r.issue.scopeKey := congrArg Prod.fst hkey
    rw [← hs]
    exact (mem_dependencyCycleKeys (Dict.nodup_keys _)).mp hk

/-- A fact that waits for itself is on a cycle. -/
theorem loop_on_cycle :
    chainInitiation.validate (fun _ => "digest") = .ok () ∧
    OnCycle ((∅ : AcceptedFacts).set ("acme/app", 1) (chainFact (chainIssue 1 "first")
      [⟨chainIssue 1 "first", false, none⟩] "app")) [("acme/app", 1)] ("acme/app", 1) :=
  ⟨chainInitiation_valid, ((@cycles_refused_exactly _ Casefold.ascii lenientShape _ chainSnapshot
    chainInitiation_valid).1 _ _ (by decide) (by decide +kernel) _).mp (by decide +kernel)⟩

end Cycles

end AgenticPkm.Builderops.Compiler
