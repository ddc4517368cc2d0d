import AgenticPkm.Builderops.Compiler.Exclusions

/-!
# Compiled plans meet their contracts

The compiler hands its plan to the constructor of `DeliveryPlan` and then to
`validate_delivery_plan_evidence`, and its result to the constructor of
`DeliveryPlanCompilation`.  Each of them may raise, and none does: what they check follows
from how the plan is made, for any snapshot its own contract accepts.

* `compileDeliveryPlan_returns` — **the compiler returns**.
-/

namespace AgenticPkm.Builderops.Compiler

open List
open IssueScope (scopeKey)

/-! ### The facts of planned Issues -/

/-- What is known about the fact of a planned Issue. -/
structure Deliverable (initiation : DeliveryInitiation) (snapshot : DeliveryPlanningSnapshot)
    (fact : DeliveryIssuePlanningSnapshot) : Prop where
  captured : fact ∈ snapshot.issues
  requested : fact.issue ∈ initiation.requestedScope
  authority_eq : fact.authority.authorityId = fact.issue.authorityId
  content_eq : fact.authority.contentHash = fact.issue.contractHash
  observed_le : fact.authority.observedAt ≤ snapshot.capturedAt
  kept : isExcluded initiation fact.issue.scopeKey = false
  opened : fact.authority.observedState = "open"
  ready : fact.authority.observedLabels.filter (startsWith "agent:") = ["agent:ready"]

theorem authorityBindsIssue_iff {a : AuthoritySnapshot} {is : IssueScope}
    {c : String} {o : Option String} :
    authorityBindsIssue a is c o ↔
      a.authorityType = "github_issue" ∧ a.authorityId = is.authorityId ∧
        a.contentHash = is.contractHash ∧ a.observedAt ≤ c ∧ ∀ bound ∈ o, bound ≤ a.observedAt := by
  cases o with
  | none | some bound => simp [authorityBindsIssue, and_assoc]

section Eligible

variable {s : ContractShape} {init : DeliveryInitiation}
  {snap : DeliveryPlanningSnapshot}

theorem opened_of_factRefusals_eq_nil {f : FactsByScope} {c : String} {is : IssueScope}
    {fact : DeliveryIssuePlanningSnapshot} (h : factRefusals s init f c is fact = []) :
    fact.authority.observedState = "open" ∧
      fact.authority.observedLabels.filter (startsWith "agent:") = ["agent:ready"] := by
  simp only [factRefusals, validatePickupAuthority, append_eq_nil_iff, refuseIf_eq_nil_iff,
    bne_eq_false_iff_eq, and_assoc] at h
  exact ⟨h.1, h.2.1⟩

theorem deliverable_of_eligible (hd : init.Valid) {fact : DeliveryIssuePlanningSnapshot}
    (h : fact ∈ (outcome s init snap).eligible.values) : Deliverable init snap fact := by
  obtain ⟨k, hitem⟩ := Dict.mem_values.mp h
  obtain ⟨hreq, -, hsp, hpas⟩ := candidate_spec hd (mem_candidates_of_eligible hitem)
  obtain ⟨-, -, hbd, hkp, -⟩ := turnedAway_eq_none_iff.mp hsp.passed
  obtain ⟨-, hau, hcn, hobs, -⟩ := authorityBindsIssue_iff.mp hbd
  obtain ⟨hop, hrd⟩ := opened_of_factRefusals_eq_nil hpas
  have hcp : fact ∈ snap.issues := by
    have hon := hsp.only
    rw [factsOf_factsByScope] at hon
    have hmem : fact ∈ snap.issues.filter fun f => f.scopeKey = fact.issue.scopeKey := by
      rw [hon]
      exact mem_singleton_self fact
    exact (mem_filter.mp hmem).1
  exact ⟨hcp, hreq, hau, hcn, hobs, hkp, hop, hrd⟩

theorem nodup_scopeKey_eligible (hd : init.Valid) :
    ((outcome s init snap).eligible.values.map fun fact => fact.issue.scopeKey).Nodup := by
  have hk : Keyed (outcome s init snap).eligible := keyed_eligible hd
  have hds := hk.distinctKeys_issuesOf
  rw [DistinctKeys, issuesOf, map_map] at hds
  exact hds

theorem nodup_authorityId_eligible (hd : init.Valid) :
    ((outcome s init snap).eligible.values.map fun fact => fact.authority.authorityId).Nodup := by
  have hkeys : ((outcome s init snap).eligible.values.map fun fact =>
      fact.issue.scopeKey).Nodup := nodup_scopeKey_eligible hd
  refine List.Nodup.map_on (fun fact hfc fact' hfc' heq => ?_) hkeys.of_map
  have hf := deliverable_of_eligible hd hfc
  have hf' := deliverable_of_eligible hd hfc'
  rw [hf.authority_eq, hf'.authority_eq] at heq
  exact inj_on_of_nodup_map hkeys hfc hfc' (IssueScope.scopeKey_eq_of_authorityId_eq
    (hd.issue_valid _ hf.requested) (hd.issue_valid _ hf'.requested) heq)

end Eligible

/-! ### The fields of the plan -/

section Fields

variable {hash : Json → String} {cs : Casefold} {sh : ContractShape}
  {init : DeliveryInitiation} {snap : DeliveryPlanningSnapshot}
  {fact : DeliveryIssuePlanningSnapshot} {i : IssueScope}

theorem validate_of_captured (hs : snap.validate = .ok ()) (h : fact ∈ snap.issues) :
    fact.authority.validate = .ok () := by
  simp only [DeliveryPlanningSnapshot.validate, bind_unit_eq_ok_iff, checkAll_eq_ok_iff] at hs
  have hf := hs.2 fact h
  simp only [DeliveryIssuePlanningSnapshot.validate, bind_unit_eq_ok_iff] at hf
  exact hf.2.1

theorem Deliverable.not_forbidden (hf : Deliverable init snap fact) {l : String}
    (h : l ∈ ["agent:blocked", "agent:needs-human"]) : l ∉ fact.authority.observedLabels := by
  have ha : ∀ l ∈ ["agent:blocked", "agent:needs-human"],
      startsWith "agent:" l = true ∧ l ∉ ["agent:ready"] := by decide
  intro hm
  obtain ⟨hs, hn⟩ := ha l h
  refine hn ?_
  rw [← hf.ready]
  exact mem_filter.mpr ⟨hm, hs⟩

theorem Deliverable.validate_expectedState (hd : init.Valid) (hs : snap.validate = .ok ())
    (hf : Deliverable init snap fact) : (expectedState fact).validate = .ok () := by
  have ha := validate_of_captured hs hf.captured
  simp only [AuthoritySnapshot.validate, bind_unit_eq_ok_iff, checkAll_eq_ok_iff,
    checkNonEmptyStr_eq_ok_iff, requireUnique_eq_ok_iff] at ha
  obtain ⟨-, -, -, hlab, hds, -⟩ := ha
  have ho : (sortedBy id fact.authority.observedLabels).filter
      ["agent:blocked", "agent:needs-human"].contains = [] := by
    rw [filter_eq_nil_iff]
    intro l hl hfr
    exact hf.not_forbidden (contains_iff_mem.mp hfr) (mem_sortedBy.mp hl)
  simp only [ExpectedAuthorityState.validate, expectedState, bind_unit_eq_ok_iff,
    checkAll_eq_ok_iff, checkNonEmptyStr_eq_ok_iff, requireUnique_eq_ok_iff,
    requireSortedBy_eq_ok_iff, raiseIf_eq_ok_iff, ho, bne_self_eq_false]
  refine ⟨hd.issue_valid _ hf.requested, fun l hl => hlab l (mem_sortedBy.mp hl),
    by decide, ?_, by decide, pairwise_sortedBy _ _, by decide, rfl, trivial⟩
  exact (perm_sortedBy id _).nodup_iff.mpr hds

theorem repository_ne_empty (h : i.validate = .ok ()) : i.repository ≠ "" := by
  simp only [IssueScope.validate, checkRepositoryId, bind_unit_eq_ok_iff, raiseIf_eq_ok_iff,
    Bool.not_eq_false'] at h
  intro hemp
  rw [hemp] at h
  exact absurd h.1 (by decide)

theorem authorityScope_ne_empty {f : List IssueScope} (hv : ∀ i ∈ f, i.validate = .ok ())
    (hne : f ≠ []) : authorityScope f ≠ "" := by
  have hm : ∀ r ∈ sortedSet (f.map IssueScope.repository), r ≠ "" := by
    intro r hr
    obtain ⟨i, hi, rfl⟩ := mem_map.mp (mem_sortedSet.mp hr)
    exact repository_ne_empty (hv i hi)
  unfold authorityScope
  cases hs : sortedSet (f.map IssueScope.repository) with
  | nil =>
    obtain ⟨i, rest, rfl⟩ := exists_cons_of_ne_nil hne
    have hin : i.repository ∈ sortedSet ((i :: rest).map IssueScope.repository) :=
      mem_sortedSet.mpr (mem_map_of_mem mem_cons_self)
    rw [hs] at hin
    cases hin
  | cons r rest =>
    refine intercalate_ne_empty (hm r ?_) rest
    rw [hs]
    exact mem_cons_self

theorem validate_planProvenance (hd : init.Valid) (hs : snap.validate = .ok ())
    {o : Outcome} (hv : ∀ i ∈ o.finalScope, i.validate = .ok ()) (hne : o.finalScope ≠ []) :
    (assemblePlan hash cs init snap o).provenance.validate = .ok () := by
  have hid : snap.snapshotId ≠ "" := by
    simp only [DeliveryPlanningSnapshot.validate, bind_unit_eq_ok_iff, raiseIf_eq_ok_iff,
      beq_eq_false_iff_ne] at hs
    rintro hemp
    rw [hemp] at hs
    exact hs.1 (by decide)
  have hlt : "delivery_initiation" < "delivery_planning_snapshot" := by decide
  have ho : (toLex ("delivery_initiation", init.initiationId) : String ×ₗ String) ≤
      toLex ("delivery_planning_snapshot", snap.snapshotId) :=
    Prod.Lex.toLex_le_toLex.mpr (.inl hlt)
  simp only [Provenance.validate, assemblePlan, planSources, ActorIdentity.validate,
    SourceRef.validate, bind_unit_eq_ok_iff, checkAll_eq_ok_iff, checkNonEmptyStr_eq_ok_iff,
    raiseIf_eq_ok_iff, requireUnique_eq_ok_iff, requireSortedBy_eq_ok_iff, forall_mem_cons,
    SourceRef.key, map_cons, map_nil]
  refine ⟨⟨by decide, authorityScope_ne_empty hv hne⟩,
    ⟨⟨by decide, hd.id_nonempty⟩, ⟨by decide, hid⟩, by simp⟩,
    append_ne_empty_of_left (by decide), rfl, by simp, by simpa using ho⟩

theorem mem_finalScope_outcome :
    i ∈ (outcome sh init snap).finalScope ↔
      ∃ fact ∈ (outcome sh init snap).eligible.values, fact.issue = i := by
  simp [Outcome.finalScope, issuesOf]

theorem requested_of_finalScope (hd : init.Valid)
    (h : i ∈ (outcome sh init snap).finalScope) : i ∈ init.requestedScope := by
  obtain ⟨fact, hf, rfl⟩ := mem_finalScope_outcome.mp h
  exact (deliverable_of_eligible hd hf).requested

theorem finalScope_ne_nil (h : (outcome sh init snap).eligible.items ≠ []) :
    (outcome sh init snap).finalScope ≠ [] := by
  obtain ⟨item, hi⟩ := exists_mem_of_ne_nil _ h
  have hm : item.2.issue ∈ (outcome sh init snap).finalScope :=
    mem_finalScope_outcome.mpr ⟨item.2, Dict.mem_values.mpr ⟨item.1, hi⟩, rfl⟩
  exact ne_nil_of_mem hm

/-- **The fields of the plan pass their checks.** -/
theorem validateFields_assemblePlan (hd : init.Valid) (hadm : init.Admissible cs)
    (hs : snap.validate = .ok ()) (hne : (outcome sh init snap).eligible.items ≠ []) :
    (assemblePlan hash cs init snap (outcome sh init snap)).validateFields = .ok () := by
  have hiss : ∀ i ∈ (outcome sh init snap).finalScope, i.validate = .ok () :=
    fun i hi => hd.issue_valid i (requested_of_finalScope hd hi)
  simp only [DeliveryPlan.validateFields, bind_unit_eq_ok_iff, checkNonEmptyStr_eq_ok_iff,
    checkAll_eq_ok_iff]
  refine ⟨append_ne_empty_of_left (by decide), ?_, ?_, hiss, ?_, ?_, ?_, hd.policy_valid,
    hd.budget_valid, validate_planProvenance hd hs hiss (finalScope_ne_nil hne)⟩
  · simp only [assemblePlan, DeliveryInitiation.ref, ContractRef.validate, bind_unit_eq_ok_iff,
      checkNonEmptyStr_eq_ok_iff]
    exact ⟨by decide, hd.id_nonempty⟩
  · intro a ha
    obtain ⟨fact, hf, rfl⟩ := mem_map.mp (mem_sortedBy.mp ha)
    exact validate_of_captured hs (deliverable_of_eligible hd hf).captured
  · intro x hx
    exact validate_of_mem_compileExclusions hd hadm hx
  · intro w hw
    exact validate_of_mem_dependencyWaves (keyed_eligible hd) (issue_valid_of_eligible hd)
      (parallel_pos hd) hw
  · intro e he
    obtain ⟨fact, hf, rfl⟩ := mem_map.mp he
    exact (deliverable_of_eligible hd (mem_sortedBy.mp hf)).validate_expectedState hd hs

end Fields

/-! ### The plan -/

section Plan

variable {hash : Json → String} {ca : Casefold} {sp : ContractShape}
  {init : DeliveryInitiation} {snap : DeliveryPlanningSnapshot}

theorem distinctKeys_finalScope (hd : init.Valid) :
    DistinctKeys scopeKey (outcome sp init snap).finalScope := by
  have hk : Keyed (outcome sp init snap).eligible := keyed_eligible hd
  unfold DistinctKeys Outcome.finalScope
  rw [((perm_sortedBy _ _).map _).nodup_iff]
  exact hk.distinctKeys_issuesOf

theorem perm_waves (hd : init.Valid) :
    ((outcome sp init snap).waves.flatMap DependencyWave.issues).Perm
      (outcome sp init snap).finalScope :=
  (perm_flatMap_dependencyWaves (parallel_pos hd) (readyRounds_eligible hd)).trans
    (perm_sortedBy _ _).symm

theorem perm_expected :
    ((assemblePlan hash ca init snap
      (outcome sp init snap)).expectedStates.map ExpectedAuthorityState.issue).Perm
      (outcome sp init snap).finalScope := by
  have hs : ((sortedBy (fun fact => fact.issue.sortKey)
      (outcome sp init snap).eligible.values).map expectedState).map ExpectedAuthorityState.issue =
      (sortedBy (fun fact => fact.issue.sortKey)
        (outcome sp init snap).eligible.values).map DeliveryIssuePlanningSnapshot.issue := by
    rw [map_map]
    rfl
  change (((sortedBy (fun fact => fact.issue.sortKey)
    (outcome sp init snap).eligible.values).map expectedState).map
      ExpectedAuthorityState.issue).Perm _
  rw [hs]
  exact ((perm_sortedBy _ _).map _).trans (perm_sortedBy _ _).symm

theorem covers_of_perm {f is : List IssueScope}
    (hd : DistinctKeys scopeKey f) (hp : is.Perm f) :
    (!decide (is.map scopeKey).Nodup ||
      !((is.map scopeKey).all (f.map scopeKey).contains) ||
      !((f.map scopeKey).all (is.map scopeKey).contains)) = false ∧
    (is.any fun i => lastBy scopeKey i.scopeKey f != some i) = false := by
  have hkeys := hp.map scopeKey
  have hn : (is.map scopeKey).Nodup := hkeys.nodup_iff.mpr hd
  have hf : (is.map scopeKey).all
      (f.map scopeKey).contains := by
    rw [all_eq_true]
    exact fun k hk => contains_iff_mem.mpr (hkeys.mem_iff.mp hk)
  have hb : (f.map scopeKey).all
      (is.map scopeKey).contains := by
    rw [all_eq_true]
    exact fun k hk => contains_iff_mem.mpr (hkeys.mem_iff.mpr hk)
  refine ⟨by simp only [hn, hf, hb, decide_true, Bool.not_true, Bool.or_self], ?_⟩
  rw [any_eq_false]
  intro i hi
  rw [hd.lastBy_eq_some_iff.mpr ⟨hp.mem_iff.mp hi, rfl⟩]
  simp

theorem boundAuthority_assemblePlan (hd : init.Valid) {fact : DeliveryIssuePlanningSnapshot}
    (h : fact ∈ (outcome sp init snap).eligible.values) :
    (assemblePlan hash ca init snap
      (outcome sp init snap)).boundAuthority fact.issue = some fact.authority := by
  have hf := deliverable_of_eligible hd h
  have hi : ((sortedBy AuthoritySnapshot.authorityId
      ((outcome sp init snap).eligible.values.map
        DeliveryIssuePlanningSnapshot.authority)).map AuthoritySnapshot.authorityId).Nodup := by
    rw [((perm_sortedBy _ _).map _).nodup_iff, map_map]
    exact nodup_authorityId_eligible hd
  have hp : DistinctKeys (fun a : AuthoritySnapshot => (a.authorityId, a.contentHash))
      (sortedBy AuthoritySnapshot.authorityId
        ((outcome sp init snap).eligible.values.map DeliveryIssuePlanningSnapshot.authority)) := by
    refine List.Nodup.of_map Prod.fst ?_
    rw [map_map]
    exact hi
  refine hp.lastBy_eq_some_iff.mpr ⟨mem_sortedBy.mpr (mem_map_of_mem h), ?_⟩
  rw [hf.authority_eq, hf.content_eq]

theorem bound_assemblePlan (hd : init.Valid) :
    ((outcome sp init snap).finalScope.filter fun i =>
      ((assemblePlan hash ca init snap (outcome sp init snap)).boundAuthority i).isNone) = [] := by
  rw [filter_eq_nil_iff]
  intro i hi
  obtain ⟨fact, hf, rfl⟩ := mem_finalScope_outcome.mp hi
  rw [boundAuthority_assemblePlan hd hf]
  simp

theorem not_contradicted_assemblePlan (hd : init.Valid) :
    (assemblePlan hash ca init snap
      (outcome sp init snap)).expectedStates.any
      (assemblePlan hash ca init snap (outcome sp init snap)).contradicted = false := by
  rw [any_eq_false]
  intro e he
  obtain ⟨fact, hm, rfl⟩ := mem_map.mp he
  have hfc := mem_sortedBy.mp hm
  have hf := deliverable_of_eligible hd hfc
  have hr : (sortedBy id fact.authority.observedLabels).all
      fact.authority.observedLabels.contains := by
    rw [all_eq_true]
    exact fun l hl => contains_iff_mem.mpr (mem_sortedBy.mp hl)
  have hfr : ["agent:blocked", "agent:needs-human"].any
      fact.authority.observedLabels.contains = false := by
    rw [any_eq_false]
    exact fun l hl hm => hf.not_forbidden hl (contains_iff_mem.mp hm)
  simp only [DeliveryPlan.contradicted, expectedState, boundAuthority_assemblePlan hd hfc,
    hf.opened, IssueState.text, hr, hfr, bne_self_eq_false, Bool.not_true,
    Bool.or_self, Bool.false_eq_true, not_false_eq_true]

theorem observed_assemblePlan (hd : init.Valid) :
    ((assemblePlan hash ca init snap
      (outcome sp init snap)).inputAuthorities.any fun a =>
        decide (a.observedAt > max init.provenance.createdAt snap.capturedAt)) =
      false := by
  rw [any_eq_false]
  intro a ha
  obtain ⟨fact, hf, rfl⟩ := mem_map.mp (mem_sortedBy.mp ha)
  have ho := (deliverable_of_eligible hd hf).observed_le
  rw [decide_eq_true_eq, gt_iff_lt, not_lt]
  exact ho.trans (le_max_right _ _)

theorem effectAllowlist_canonical :
    effectAllowlist.isEmpty = false ∧ effectAllowlist.Nodup ∧
      effectAllowlist.Pairwise fun a b => a.text ≤ b.text := by
  decide

theorem waveIndex_waves :
    (outcome sp init snap).waves.map DependencyWave.waveIndex =
      List.range (outcome sp init snap).waves.length := by
  have hl : (outcome sp init snap).waves.length = (waveChunks
      init.budget.maxParallelWorkers
      (readyRounds (outcome sp init snap).eligible).1).length := length_numberWaves
  rw [hl, range_eq_range']
  exact map_waveIndex_numberWaves

/-- **The plan passes its own validator.** -/
theorem validatePlan_assemblePlan (hd : init.Valid) (hadm : init.Admissible ca)
    (hne : (outcome sp init snap).eligible.items ≠ []) :
    (assemblePlan hash ca init snap (outcome sp init snap)).validatePlan = .ok () := by
  have hds : DistinctKeys scopeKey (outcome sp init snap).finalScope :=
    distinctKeys_finalScope hd
  obtain ⟨hwk, hwv⟩ := covers_of_perm hds (perm_waves hd)
  have hexp : ((assemblePlan hash ca init snap
      (outcome sp init snap)).expectedStates.map ExpectedAuthorityState.issue).Perm
      (outcome sp init snap).finalScope := perm_expected
  obtain ⟨hstateKeys, hst⟩ := covers_of_perm hds hexp
  rw [map_map] at hstateKeys
  rw [any_map] at hst
  obtain ⟨hpr, hun, hsr⟩ := effectAllowlist_canonical
  simp only [DeliveryPlan.validatePlan, bind_unit_eq_ok_iff, raiseIf_eq_ok_iff,
    requireUnique_eq_ok_iff, requireSortedBy_eq_ok_iff]
  refine ⟨?_, ?_, hds, ?_, ?_, pairwise_sortedBy _ _, pairwise_sortedBy _ _,
    pairwise_sortedBy _ _, ?_, observed_assemblePlan hd, ?_, hwk, hwv, ?_, hstateKeys,
    hst, ?_, not_contradicted_assemblePlan hd, hpr, hun, hsr⟩
  · exact bne_self_eq_false _
  · exact isEmpty_eq_false_iff.mpr (finalScope_ne_nil hne)
  · have hfl : ((compileExclusions ca init
        (outcome sp init snap).finalScope
        (outcome sp init snap).reported).map fun x =>
          ca.fold x.scopeKey).Nodup := nodup_fold_compileExclusions hadm
    refine List.Nodup.of_map ca.fold ?_
    rw [map_map]
    exact hfl
  · change ((sortedBy AuthoritySnapshot.authorityId
      ((outcome sp init snap).eligible.values.map
        DeliveryIssuePlanningSnapshot.authority)).map AuthoritySnapshot.authorityId).Nodup
    rw [((perm_sortedBy _ _).map _).nodup_iff, map_map]
    exact nodup_authorityId_eligible hd
  · exact pairwise_map.mpr (pairwise_sortedBy _ _)
  · exact bne_eq_false_iff_eq.mpr waveIndex_waves
  · rw [any_eq_false]
    intro w hw
    rw [decide_eq_true_eq, gt_iff_lt, not_lt]
    exact length_le_of_mem_waves hd hw
  · rw [Bool.not_eq_false', List.isEmpty_iff, map_eq_nil_iff]
    exact bound_assemblePlan hd

/-- **The plan passes the check against its initiation.** -/
theorem evidence_assemblePlan (hd : init.Valid) (hadm : init.Admissible ca) :
    validateDeliveryPlanEvidence ca hash (assemblePlan hash ca init snap
      (outcome sp init snap)) init = .ok () := by
  have hk : ∀ i ∈ (outcome sp init snap).finalScope, isExcluded init i.scopeKey = false := by
    intro i hi
    obtain ⟨fact, hf, rfl⟩ := mem_finalScope_outcome.mp hi
    exact (deliverable_of_eligible hd hf).kept
  have hr : ∀ ref, ref ∈ issueExclusionRefs ca (compileExclusions ca init
      (outcome sp init snap).finalScope
      (outcome sp init snap).reported) ↔
      ref ∈ (init.requestedScope.filter fun i => !((outcome sp init
        snap).finalScope.map scopeKey).contains i.scopeKey).map IssueScope.scopeRef := by
    intro ref
    rw [mem_issueExclusionRefs hd hadm hk, mem_map]
    refine exists_congr fun i => ?_
    rw [mem_filter, Bool.not_eq_true', ← Bool.not_eq_true, contains_iff_mem, and_assoc]
  simp only [validateDeliveryPlanEvidence, bind_unit_eq_ok_iff, raiseIf_eq_ok_iff,
    checkAll_eq_ok_iff]
  refine ⟨bne_self_eq_false _, ?_, ?_, ?_, ?_, ?_, ?_, ?_, bne_self_eq_false _, bne_self_eq_false _⟩
  · rw [decide_eq_false_iff_not, gt_iff_lt, not_lt]
    exact le_max_left _ _
  · rw [any_eq_false]
    intro i hi
    rw [hd.approved_eq_some_iff.mpr ⟨requested_of_finalScope hd hi, rfl⟩]
    simp
  · rw [Bool.not_eq_false', decide_eq_true_eq]
    exact nodup_fold_compileExclusions hadm
  · intro x hx
    exact exclusionEvidence_of_mem hd hadm hk hx
  · -- the text of an excluded Issue is that of an Issue that is not planned
    rw [any_eq_false]
    intro ref href hec
    obtain ⟨i, hi, rfl⟩ := mem_map.mp href
    obtain ⟨j, -, hout, heq⟩ := (mem_issueExclusionRefs hd hadm hk).mp
      (contains_iff_mem.mp hec)
    rw [IssueScope.scopeKey_eq_of_scopeRef_eq heq] at hout
    exact hout (mem_map_of_mem hi)
  · rw [Bool.or_eq_false_iff, Bool.not_eq_false', Bool.not_eq_false', all_eq_true, all_eq_true]
    exact ⟨fun ref href => contains_iff_mem.mpr ((hr ref).mp href),
      fun ref href => contains_iff_mem.mpr ((hr ref).mpr href)⟩
  · rw [Bool.not_eq_false', all_eq_true]
    exact fun x hx => contains_iff_mem.mpr ((mem_compileExclusions hd hadm).mpr (.inl hx))

end Plan

/-! ### The compilation -/

section Compilation

variable {shape : ContractShape} {initiation : DeliveryInitiation}
  {snapshot : DeliveryPlanningSnapshot}

/-- **Without a plan there are refusals**: every requested Issue has one, or there are too
many Issues without. -/
theorem reported_ne_nil (hd : initiation.Valid)
    (hemp : (outcome shape initiation snapshot).eligible.items = []) :
    (outcome shape initiation snapshot).reported ≠ [] := by
  have href : ∃ k, hasRefusal (outcome shape initiation snapshot).refusals k := by
    by_cases hec : exceedsBudget initiation (candidatesOf shape initiation snapshot) = true
    · have hmn : 0 < (candidatesOf shape initiation snapshot).items.length := by
        rw [exceedsBudget, decide_eq_true_eq] at hec
        exact Nat.zero_lt_of_lt hec
      obtain ⟨item, hitem⟩ := exists_mem_of_length_pos hmn
      have hreq : budgetRequest item.2 ∈
          budgetRequests initiation (candidatesOf shape initiation snapshot) := by
        rw [budgetRequests, if_pos hec]
        exact mem_map_of_mem (Dict.mem_values.mpr ⟨item.1, hitem⟩)
      exact ⟨_, hasRefusal_recordAll.mpr (.inr ⟨_, hreq, rfl⟩)⟩
    · have hno : (candidatesOf shape initiation snapshot).items = [] := by
        have hel : (outcome shape initiation snapshot).eligible =
            candidatesOf shape initiation snapshot := if_neg hec
        rw [← hel]
        exact hemp
      obtain ⟨issue, hiss⟩ := exists_mem_of_ne_nil _ hd.scope_present
      refine ⟨issue.scopeKey, hasRefusal_recordAll.mpr (.inl ?_)⟩
      rcases covered hd _ hiss with hdir | ⟨fact, hfc⟩
      · exact hasRefusal_settledRefusals hdir
      · -- an accepted fact without a refusal would be eligible
        by_contra hfr
        have hcn : (issue.scopeKey, fact) ∈ (candidatesOf shape initiation snapshot).items :=
          mem_unrefused.mpr ⟨hfc, by simpa using hfr⟩
        rw [hno] at hcn
        cases hcn
  obtain ⟨k, hk⟩ := href
  obtain ⟨key, hkey, -⟩ := hasRefusal_iff.mp hk
  obtain ⟨item, hitem, -⟩ := mem_map.mp hkey
  have hmem : item.2 ∈ (outcome shape initiation snapshot).reported :=
    mem_sortedBy.mpr (Dict.mem_values.mpr ⟨item.1, hitem⟩)
  exact ne_nil_of_mem hmem

theorem compilePlan_eq_none {hash : Json → String} {c : Casefold} {o : Outcome}
    (h : compilePlan hash c initiation snapshot o = .ok none) : o.eligible.items = [] := by
  unfold compilePlan at h
  split at h
  next hemp => exact List.isEmpty_iff.mp hemp
  next => simp only [bind_unit_eq_ok_iff, pure_eq_ok_iff, reduceCtorEq, and_false] at h

/-- **The compiler returns what becomes of the plan**, with the hash and the refusals. -/
theorem compileDeliveryPlan_eq {hash : Json → String} {c : Casefold} (hd : initiation.Valid) :
    compileDeliveryPlan hash c shape initiation snapshot =
      (compilePlan hash c initiation snapshot (outcome shape initiation snapshot)).map
        fun plan => ⟨inputHash hash initiation snapshot, plan,
          (outcome shape initiation snapshot).reported⟩ := by
  rw [compileDeliveryPlan, resolveScope_eq hd, ok_bind]
  cases hp : compilePlan hash c initiation snapshot (outcome shape initiation snapshot) with
  | error e => rfl
  | ok plan =>
    have hv : DeliveryPlanCompilation.validate ⟨inputHash hash initiation snapshot, plan,
        (outcome shape initiation snapshot).reported⟩ = .ok () := by
      simp only [DeliveryPlanCompilation.validate, bind_unit_eq_ok_iff, raiseIf_eq_ok_iff,
        requireSortedBy_eq_ok_iff]
      refine ⟨?_, pairwise_sortedBy _ _⟩
      cases plan with
      | none => exact isEmpty_eq_false_iff.mpr (reported_ne_nil hd (compilePlan_eq_none hp))
      | some plan => rfl
    rw [ok_bind]
    dsimp only
    rw [hv]
    rfl

/-- **The compiler returns.**  For an initiation that was validated and whose exclusions
are admissible, and for any snapshot its contract accepts, nothing the compiler builds is
rejected. -/
theorem compileDeliveryPlan_returns {hash : Json → String} {casefold : Casefold}
    (shape : ContractShape) (hinit : initiation.validate hash = .ok ())
    (hadmissible : initiation.Admissible casefold) (hsnapshot : snapshot.validate = .ok ()) :
    ∃ c, compileDeliveryPlan hash casefold shape initiation snapshot = .ok c := by
  have hd := DeliveryInitiation.valid_of_validate hinit
  obtain ⟨plan, hp⟩ : ∃ plan, compilePlan hash casefold initiation snapshot
      (outcome shape initiation snapshot) = .ok plan := by
    unfold compilePlan
    by_cases hemp : (outcome shape initiation snapshot).eligible.items.isEmpty = true
    · exact ⟨none, if_pos hemp⟩
    · have hne : (outcome shape initiation snapshot).eligible.items ≠ [] := by
        simpa using hemp
      refine ⟨some (assemblePlan hash casefold initiation snapshot
        (outcome shape initiation snapshot)), ?_⟩
      rw [if_neg hemp]
      simp only [bind_unit_eq_ok_iff, pure_eq_ok_iff, DeliveryPlan.validate, and_true]
      exact ⟨⟨validateFields_assemblePlan hd hadmissible hsnapshot hne,
        validatePlan_assemblePlan hd hadmissible hne⟩, evidence_assemblePlan hd hadmissible⟩
  rw [compileDeliveryPlan_eq hd, hp]
  exact ⟨_, rfl⟩

def partialInitiation : DeliveryInitiation :=
  { chainInitiation with
    exclusions := [⟨"Docs", "not now", none⟩,
      ⟨"acme/app#2", "not now", some (chainIssue 2 "second")⟩] }

theorem partialInitiation_admissible : partialInitiation.Admissible Casefold.ascii where
  distinct := by decide +kernel
  typed := by
    intro x hx i hi
    rcases mem_cons.mp hx with rfl | hx
    · cases hi
    · obtain rfl := mem_singleton.mp hx
      cases hi
      decide +kernel
  untyped := by
    intro x hx hn
    rcases mem_cons.mp hx with rfl | hx
    · decide +kernel
    · obtain rfl := mem_singleton.mp hx
      cases hn

/-- The compiler returns for it. -/
theorem partialInitiation_returns :
    ∃ c, compileDeliveryPlan (fun _ => "digest") Casefold.ascii lenientShape partialInitiation
      chainSnapshot = .ok c :=
  compileDeliveryPlan_returns lenientShape (by decide +kernel) partialInitiation_admissible
    (by decide +kernel)

end Compilation

end AgenticPkm.Builderops.Compiler
