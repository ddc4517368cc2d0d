import AgenticPkm.Builderops.Compiler.Identity

/-!
# The order of the facts

The compiler files the facts of a snapshot in the order they come in, but it goes through the
approved scope in its own order, and reports refusals in the order of their keys.  So the order of
the facts should not show, and for the plan it does not.

It does show in the refusals.  Two facts outside the approved scope with one scope key, of
different contracts, are filed under one key: the later replaces the Issue of the earlier.

* `refusals_order_free_iff` — **when the order does not show in the refusals either**.
-/

namespace AgenticPkm.Builderops.Compiler

open List Dict

/-! ### The same refusals -/

def SameValues (m m' : RefusalMap) : Prop := ∀ key, m.get? key = m'.get? key

variable {m' : RefusalMap}

theorem SameValues.record {m : RefusalMap} (h : SameValues m m') (r : RefusalRequest) :
    SameValues (recordRefusal m r) (recordRefusal m' r) := by
  intro key
  rw [get?_recordRefusal, get?_recordRefusal, h key, filedRefusal, filedRefusal, h r.key]

theorem SameValues.hasRefusal_eq {m : RefusalMap} (h : SameValues m m') (k : ScopeKey) :
    hasRefusal m k = hasRefusal m' k := by
  rw [Bool.eq_iff_iff, hasRefusal_iff, hasRefusal_iff]
  refine exists_congr fun key => and_congr_left fun _ => ?_
  rw [Dict.mem_keys, Dict.mem_keys, h key]

theorem inStep_sameValues (i : DeliveryInitiation) : InStep id i SameValues where
  hasRefusal_eq := fun _ _ h => h.hasRefusal_eq
  record := fun _ _ h => h.record
  block := by
    intro m m' h f
    have hb : blockedDependencies i m' f = blockedDependencies i m f := by
      simp [blockedDependencies, h.hasRefusal_eq]
    change SameValues _ (recordRefusal m' (blockedRequest f (blockedDependencies i m' f)))
    rw [hb]
    exact h.record _

def refusalCodes : List RefusalCode :=
  [.approvedExclusion, .authorityAmbiguity, .budgetExceeded, .contradictoryDependencySatisfaction,
    .dependencyBlocked, .dependencyCycle, .duplicateResolutionEvidence, .invalidAgentStateLabels,
    .invalidPriorityLabels, .invalidTypeLabels, .malformedSbsImpact, .mismatchedResolutionEvidence,
    .missingResolutionEvidence, .missingSourceAnchors, .missingVerifyTargets, .mutationOverlap,
    .notReady, .outsideApprovedScope, .parentValidationOnly, .priorityLabelMismatch,
    .riskPolicyBlocked, .staleDelivery, .staleResolutionEvidence, .unprovenDependencySatisfaction]

theorem RefusalCode.text_injective : Function.Injective RefusalCode.text := by
  have hf : ∀ c : RefusalCode, refusalCodes.find? (fun c' => c'.text == c.text) = some c := by
    intro c
    cases c <;> decide +kernel
  intro a b h
  have ha := hf a
  rw [h, hf b] at ha
  exact (Option.some.inj ha).symm

theorem PlanRefusal.key_eq_of_sortKey_eq {r r' : PlanRefusal} (h : r.sortKey = r'.sortKey) :
    r.key = r'.key := by
  simp only [sortKey, IssueScope.sortKey, EmbeddingLike.apply_eq_iff_eq, Prod.mk.injEq] at h
  obtain ⟨hi, hcd, hd⟩ := h
  rw [key, key, hi, RefusalCode.text_injective hcd, hd]

theorem reported_eq {o o' : Outcome} (hf : Filed o.refusals)
    (h : SameValues o.refusals o'.refusals) : o.reported = o'.reported := by
  have hitems : o.refusals.items.Perm o'.refusals.items := by
    refine (perm_ext_iff_of_nodup o.refusals.distinct.of_map
      o'.refusals.distinct.of_map).mpr ?_
    intro item
    rw [← Prod.mk.eta (p := item), mem_items, mem_items, h]
  refine sortedBy_eq_of_perm (fun r hr r' hr' heq => ?_) (hitems.map Prod.snd)
  obtain ⟨key, hi⟩ := mem_values.mp hr
  obtain ⟨key', hi'⟩ := mem_values.mp hr'
  have hk := hf key r (mem_items.mp hi)
  have hk' := hf key' r' (mem_items.mp hi')
  have hsame : key = key' := hk.symm.trans ((PlanRefusal.key_eq_of_sortKey_eq heq).trans hk')
  rw [← hsame] at hi'
  exact eq_of_mem_items hi hi'

/-! ### Facts outside the approved scope -/

def plainRefusal (r : RefusalRequest) : PlanRefusal where
  code := r.code
  issue := r.issue
  detail := r.detail
  relatedIssues := []

theorem get?_recordAll_plain {rq : List RefusalRequest}
    (hp : ∀ r ∈ rq, r.relatedIssues = []) (key : RefusalKey) :
    (recordAll ∅ rq).get? key = (lastBy RefusalRequest.key key rq).map plainRefusal := by
  induction rq using List.reverseRecOn generalizing key with
  | nil => rfl
  | append_singleton rq r ih =>
    have ih := ih fun r hr => hp r (mem_append_left _ hr)
    have hr : r.relatedIssues = [] := hp r (mem_append_right _ (mem_singleton_self r))
    -- the refusals so far have no related Issues to be merged
    have hf : filedRefusal (recordAll ∅ rq) r = plainRefusal r := by
      unfold filedRefusal plainRefusal
      rw [ih r.key, hr]
      cases lastBy RefusalRequest.key r.key rq with
      | none => rfl
      | some r' => rfl
    have hl : recordAll ∅ (rq ++ [r]) = recordRefusal (recordAll ∅ rq) r := foldl_concat ..
    rw [hl, get?_recordRefusal, hf, lastBy, reverse_append, reverse_singleton,
      singleton_append, find?_cons]
    by_cases hk : key = r.key
    · simp [hk]
    · rw [if_neg hk, ih key, decide_eq_false (Ne.symm hk)]
      rfl

section Outside

variable {initiation : DeliveryInitiation} {s : DeliveryPlanningSnapshot}

theorem plain_outsideRequests :
    ∀ r ∈ outsideRequests initiation (factsByScope s), r.relatedIssues = [] := by
  intro r hr
  obtain ⟨f, -, -, rfl⟩ := mem_outsideRequests.mp hr
  rfl

variable {f : DeliveryIssuePlanningSnapshot}

theorem filter_outsideRequests (hf : f ∈ s.issues) (ho : initiation.approved f.scopeKey = none) :
    ((outsideRequests initiation (factsByScope s)).filter fun r => r.issue.scopeKey = f.scopeKey) =
      (s.issues.filter fun g => g.scopeKey = f.scopeKey).map fun g => outsideRequest g.issue := by
  have hgr : (factsByScope s).get? f.scopeKey =
      some (s.issues.filter fun g => g.scopeKey = f.scopeKey) := by
    refine (get?_groupBy _ _ _).trans (if_neg ?_)
    intro hn
    exact filter_eq_nil_iff.mp hn f hf (decide_eq_true rfl)
  have hi : (f.scopeKey, s.issues.filter fun g => g.scopeKey = f.scopeKey) ∈
      (factsByScope s).items.filter fun item => (initiation.approved item.1).isNone :=
    mem_filter.mpr ⟨mem_items.mpr hgr, by rw [ho]; rfl⟩
  have hd : DistinctKeys Prod.fst
      ((factsByScope s).items.filter fun item => (initiation.approved item.1).isNone) :=
    (factsByScope s).distinct.sublist (filter_sublist.map _)
  refine hd.filter_flatMap (fun r : RefusalRequest => r.issue.scopeKey) _ ?_ hi
  intro item hm r hr
  obtain ⟨g, hg, rfl⟩ := mem_map.mp hr
  have hfs : ((factsByScope s).get? item.1).getD [] =
      s.issues.filter fun g => g.scopeKey = item.1 := getD_groupBy _ _ _
  rw [mem_items.mp (mem_filter.mp hm).1, Option.getD_some] at hfs
  rw [hfs] at hg
  exact of_decide_eq_true (mem_filter.mp hg).2

/-- No two facts outside the approved scope share a key without sharing the Issue. -/
def OutsideUnambiguous (initiation : DeliveryInitiation) (s : DeliveryPlanningSnapshot) : Prop :=
  ∀ f ∈ s.issues, ∀ g ∈ s.issues, f.scopeKey = g.scopeKey →
    initiation.approved f.scopeKey = none → f.issue = g.issue

theorem OutsideUnambiguous.outside {s' : DeliveryPlanningSnapshot}
    (h : OutsideUnambiguous initiation s) (hp : s'.issues.Perm s.issues) :
    SameValues (recordAll ∅ (outsideRequests initiation (factsByScope s)))
      (recordAll ∅ (outsideRequests initiation (factsByScope s'))) := by
  have hm : ∀ r, r ∈ outsideRequests initiation (factsByScope s') ↔
      r ∈ outsideRequests initiation (factsByScope s) := by
    intro r
    rw [mem_outsideRequests, mem_outsideRequests]
    exact exists_congr fun f => and_congr_left fun _ => hp.mem_iff
  -- a key has one request, however often it is made
  have ho : ∀ r ∈ outsideRequests initiation (factsByScope s),
      ∀ r' ∈ outsideRequests initiation (factsByScope s), r.key = r'.key → r = r' := by
    intro r hr r' hr' hk
    obtain ⟨f, hf, hout, rfl⟩ := mem_outsideRequests.mp hr
    obtain ⟨g, hg, -, rfl⟩ := mem_outsideRequests.mp hr'
    rw [h f hf g hg (congrArg Prod.fst hk) hout]
  intro key
  rw [get?_recordAll_plain plain_outsideRequests, get?_recordAll_plain plain_outsideRequests]
  congr 1
  cases hl : lastBy RefusalRequest.key key (outsideRequests initiation (factsByScope s)) with
  | none =>
    symm
    simpa [lastBy, hm] using hl
  | some r =>
    obtain ⟨hr, hk⟩ := lastBy_eq_some hl
    cases hl' : lastBy RefusalRequest.key key (outsideRequests initiation (factsByScope s')) with
    | none =>
      have hn : ∀ r ∈ outsideRequests initiation (factsByScope s'), r.key ≠ key := by
        simpa [lastBy] using hl'
      exact absurd hk (hn r ((hm r).mpr hr))
    | some r' =>
      obtain ⟨hr', hk'⟩ := lastBy_eq_some hl'
      rw [ho r hr r' ((hm r').mp hr') (hk.trans hk'.symm)]

theorem get?_outside_last {l : List DeliveryIssuePlanningSnapshot} (hs : s.issues = l ++ [f])
    (ho : initiation.approved f.scopeKey = none) :
    (recordAll ∅ (outsideRequests initiation (factsByScope s))).get?
      (outsideRequest f.issue).key = some (plainRefusal (outsideRequest f.issue)) := by
  have hf : f ∈ s.issues := by
    rw [hs]
    exact mem_append_right _ (mem_singleton_self f)
  rw [get?_recordAll_plain plain_outsideRequests]
  have hkeys : ∀ r ∈ outsideRequests initiation (factsByScope s),
      decide (r.key = (outsideRequest f.issue).key) = decide (r.issue.scopeKey = f.scopeKey) := by
    intro r hr
    obtain ⟨g, -, -, rfl⟩ := mem_outsideRequests.mp hr
    rw [decide_eq_decide]
    exact ⟨fun h => congrArg Prod.fst h, fun h => Prod.ext h rfl⟩
  have hsl : ([f].filter fun g => g.scopeKey = f.scopeKey) = [f] :=
    filter_eq_self.mpr fun g hg => by rw [mem_singleton.mp hg]; exact decide_eq_true rfl
  have hl : lastBy RefusalRequest.key (outsideRequest f.issue).key
      (outsideRequests initiation (factsByScope s)) = some (outsideRequest f.issue) := by
    rw [lastBy, ← head?_filter, filter_reverse, head?_reverse,
      filter_congr hkeys, filter_outsideRequests hf ho, hs, filter_append, hsl,
      map_append, map_cons, map_nil, getLast?_concat]
  rw [hl]
  rfl

end Outside

/-! ### What is filed later -/

section Later

variable {sh : ContractShape} {init : DeliveryInitiation} {s : DeliveryPlanningSnapshot}
  {key : RefusalKey} {m : RefusalMap}

theorem get?_recordAll_approved (hk : init.approved key.1 = none) {rq : List RefusalRequest}
    (h : ∀ r ∈ rq, (init.approved r.issue.scopeKey).isSome) :
    (recordAll m rq).get? key = m.get? key := by
  refine get?_recordAll_of_ne ?_
  rintro r hr rfl
  have hs := h r hr
  change (init.approved r.key.1).isSome = true at hs
  rw [hk] at hs
  cases hs

theorem get?_propagated_approved (hk : init.approved key.1 = none) {fc : AcceptedFacts}
    (h : ∀ item ∈ fc.items, (init.approved item.2.issue.scopeKey).isSome) :
    (propagated init fc m).get? key = m.get? key := by
  refine get?_propagated_of_ne ?_
  rintro item hi - rfl
  have hs := h item hi
  change (init.approved (blockedRequest item.2 []).key.1).isSome = true at hs
  rw [hk] at hs
  cases hs

/-- **A refusal outside the approved scope is reported as it was filed first.** -/
theorem get?_outcome_outside (hd : init.Valid) (hkey : init.approved key.1 = none) :
    (outcome sh init s).refusals.get? key =
      (recordAll ∅ (outsideRequests init (factsByScope s))).get? key := by
  have hacc : ∀ item ∈ (acceptedOf sh init s).items,
      (init.approved item.2.issue.scopeKey).isSome := by
    intro item hitem
    obtain ⟨hmem, -, -⟩ := isFactOf_of_accepted hd hitem
    rw [hd.approved_eq_some_iff.mpr ⟨hmem, rfl⟩]
    rfl
  have hunr : ∀ (m : RefusalMap), ∀ f ∈ (unrefused (acceptedOf sh init s) m).values,
      (init.approved f.issue.scopeKey).isSome := by
    intro m f hf
    obtain ⟨k, hitem⟩ := mem_values.mp hf
    exact hacc _ (mem_unrefused.mp hitem).1
  have hbd : ∀ r ∈ budgetRequests init (candidatesOf sh init s),
      (init.approved r.issue.scopeKey).isSome := by
    intro r hr
    obtain ⟨f, hf, rfl⟩ := of_mem_budgetRequests hr
    exact hunr _ f hf
  have hcyc : ∀ c : AcceptedFacts, ∀ r ∈ cycleRefusals init c,
      (init.approved r.issue.scopeKey).isSome := by
    intro c r hr
    obtain ⟨k, -, issue, hiss, rfl⟩ := of_mem_cycleRefusals hr
    obtain ⟨-, rfl⟩ := hd.approved_eq_some_iff.mp hiss
    exact Option.isSome_iff_exists.mpr ⟨issue, hiss⟩
  have hov : ∀ m, ∀ r ∈ refuseMutationOverlap (unrefused (acceptedOf sh init s) m),
      (init.approved r.issue.scopeKey).isSome := by
    intro m r hr
    obtain ⟨f, hf, g, -, rfl⟩ := of_mem_overlapRequests hr
    exact hunr m f (mem_sortedBy.mp hf)
  have hass : ∀ r ∈ init.requestedScope.flatMap (fun issue =>
      (assessIssue sh init (factsByScope s) s.capturedAt issue).1),
      (init.approved r.issue.scopeKey).isSome := by
    intro r hr
    obtain ⟨issue, hiss, hr⟩ := mem_flatMap.mp hr
    rw [(against_assessIssue r hr).issue_eq, hd.approved_eq_some_iff.mpr ⟨hiss, rfl⟩]
    rfl
  calc (outcome sh init s).refusals.get? key
      = (refusalsOf sh init s).get? key := get?_recordAll_approved hkey hbd
    _ = (afterOverlaps init (acceptedOf sh init s)
          (directRefusals sh init s)).get? key := get?_propagated_approved hkey hacc
    _ = (propagated init (acceptedOf sh init s) (afterCycles init
          (acceptedOf sh init s) (directRefusals sh init s))).get? key :=
        get?_recordAll_approved hkey (hov _)
    _ = (afterCycles init (acceptedOf sh init s)
          (directRefusals sh init s)).get? key := get?_propagated_approved hkey hacc
    _ = (propagated init (acceptedOf sh init s)
          (directRefusals sh init s)).get? key :=
        get?_recordAll_approved hkey (hcyc _)
    _ = (directRefusals sh init s).get? key := get?_propagated_approved hkey hacc
    _ = (recordAll ∅ (outsideRequests init (factsByScope s))).get? key :=
        get?_recordAll_approved hkey hass

end Later

/-! ### The order of the facts -/

section Order

variable {hash : Json → String} {casefold : Casefold} {shape : ContractShape}
  {initiation : DeliveryInitiation} {s s' : DeliveryPlanningSnapshot}

theorem rearranged_of_perm (hcp : s'.capturedAt = s.capturedAt)
    (hp : s'.issues.Perm s.issues) : Rearranged id s s' :=
  ⟨hcp, by rw [map_id]; exact hp⟩

/-- The refusals do not depend on the order, unless facts outside the approved scope are
ambiguous. -/
theorem OutsideUnambiguous.reported_eq (h : OutsideUnambiguous initiation s) (hd : initiation.Valid)
    (hcp : s'.capturedAt = s.capturedAt) (hp : s'.issues.Perm s.issues) :
    (outcome shape initiation s).reported = (outcome shape initiation s').reported := by
  have hr := rearranged_of_perm hcp hp
  have ha : ∀ issue, (assessIssue shape initiation (factsByScope s') s'.capturedAt issue).1 =
      (assessIssue shape initiation (factsByScope s) s.capturedAt issue).1 := by
    intro issue
    rw [hcp]
    rcases (hr.factsInStep respells_id).assessIssue respells_id issue with
      ⟨r, heq, heq'⟩ | ⟨f, heq, heq'⟩
    · rw [heq, heq']
    · rw [heq, heq']
      have hdp : dependencyRefusals initiation (factsByScope s') s.capturedAt issue f =
          dependencyRefusals initiation (factsByScope s) s.capturedAt issue f :=
        funext fun d => (hr.factsInStep respells_id).dependencyRefusals_eq respells_id issue f d
      simp [factRefusals, hdp]
  have hR := inStep_sameValues initiation
  have hdir : SameValues (directRefusals shape initiation s)
      (directRefusals shape initiation s') := by
    unfold directRefusals assessedRefusals
    simp only [ha]
    exact hR.recordAll (h.outside hp) _
  have hs : SameValues (refusalsOf shape initiation s) (settledRefusals initiation
      ((acceptedOf shape initiation s).mapValues id) (directRefusals shape initiation s')) :=
    hR.settled respells_id hdir
  refine Compiler.reported_eq (filed_outcome _ _ _) ?_
  unfold outcome refusalsOf
  rw [hr.accepted respells_id hd]
  exact (hR.scheduled respells_id hs).1

variable {issues : List DeliveryIssuePlanningSnapshot}

theorem payload_eq_of_perm (hf : CollisionFree hash (hashedValues hash s))
    (hp : issues.Perm s.issues) :
    canonicalSnapshotPayload hash s = canonicalSnapshotPayload hash { s with issues := issues } :=
  payload_eq_of_sameSnapshot hf ⟨rfl, rfl, s.issues,
    forall₂_same.mpr fun f _ => SameFact.refl f, hp.symm⟩

/-- **The order of the facts does not show**, unless facts outside the approved scope are
ambiguous. -/
theorem compileDeliveryPlan_perm (hd : initiation.Valid)
    (hf : CollisionFree hash (hashedValues hash s)) (h : OutsideUnambiguous initiation s)
    (hp : issues.Perm s.issues) :
    compileDeliveryPlan hash casefold shape initiation { s with issues := issues } =
      compileDeliveryPlan hash casefold shape initiation s := by
  have hpy := payload_eq_of_perm hf hp
  have hr : Rearranged id s { s with issues := issues } := rearranged_of_perm rfl hp
  have hrep : (outcome shape initiation s).reported =
      (outcome shape initiation { s with issues := issues }).reported :=
    h.reported_eq hd rfl hp
  rw [compileDeliveryPlan_eq hd, compileDeliveryPlan_eq hd, inputHash, inputHash, ← hpy,
    ← hrep, compilePlan_congr hpy (hr.samePlanning respells_id hd)]

theorem mem_refusals_of_last (hd : initiation.Valid) {l : List DeliveryIssuePlanningSnapshot}
    {f : DeliveryIssuePlanningSnapshot} (hs : s.issues = l ++ [f])
    (ho : initiation.approved f.scopeKey = none) {c : DeliveryPlanCompilation}
    (hc : compileDeliveryPlan hash casefold shape initiation s = .ok c) :
    plainRefusal (outsideRequest f.issue) ∈ c.refusals := by
  obtain ⟨-, -, hr⟩ := compileDeliveryPlan_eq_ok hd hc
  rw [hr, Outcome.reported, mem_sortedBy, mem_values]
  refine ⟨(outsideRequest f.issue).key, mem_items.mpr ?_⟩
  rw [get?_outcome_outside hd ho]
  exact get?_outside_last hs ho

/-- **The order of the facts does not show in the refusals exactly when no two facts outside
the approved scope share a key without sharing the Issue.** -/
theorem refusals_order_free_iff (hinit : initiation.validate hash = .ok ())
    (hfree : CollisionFree hash (hashedValues hash s)) {c : DeliveryPlanCompilation}
    (hc : compileDeliveryPlan hash casefold shape initiation s = .ok c) :
    (∀ issues : List DeliveryIssuePlanningSnapshot, issues.Perm s.issues →
      ∃ c', compileDeliveryPlan hash casefold shape initiation { s with issues := issues } =
        .ok c' ∧ c'.inputHash = c.inputHash ∧ c'.refusals = c.refusals) ↔
    OutsideUnambiguous initiation s := by
  have hd := DeliveryInitiation.valid_of_validate hinit
  constructor
  · intro h f hf g hg hkey hout
    -- each of the two facts is reported when it comes last
    have hrep : ∀ x ∈ s.issues, initiation.approved x.scopeKey = none →
        plainRefusal (outsideRequest x.issue) ∈ c.refusals := by
      intro x hx hout
      have hpm : (s.issues.erase x ++ [x]).Perm s.issues :=
        (perm_append_comm).trans (perm_cons_erase hx).symm
      obtain ⟨c', hc', -, hsame⟩ := h _ hpm
      rw [← hsame]
      exact mem_refusals_of_last hd rfl hout hc'
    have hf' := hrep f hf hout
    have hg' := hrep g hg (hkey ▸ hout)
    obtain ⟨-, -, href⟩ := compileDeliveryPlan_eq_ok hd hc
    rw [href, Outcome.reported, mem_sortedBy, mem_values] at hf' hg'
    obtain ⟨k, hk⟩ := hf'
    obtain ⟨k', hk'⟩ := hg'
    have hfil := filed_outcome shape initiation s
    have hfk := hfil k _ (mem_items.mp hk)
    have hgk := hfil k' _ (mem_items.mp hk')
    have hkk : k = k' := by
      rw [← hfk, ← hgk]
      exact Prod.ext hkey rfl
    rw [← hkk] at hk'
    exact congrArg PlanRefusal.issue (eq_of_mem_items hk hk')
  · intro h issues hpm
    exact ⟨c, (compileDeliveryPlan_perm hd hfree h hpm).trans hc, rfl, rfl⟩

/-! ### Two contracts of one Issue -/

def bareFact (i : IssueScope) : DeliveryIssuePlanningSnapshot where
  issue := i
  authority := chainAuthority i "2026-01-03T00:00:00Z"
  priority := .high
  riskClass := .low
  sourceAnchors := []
  verifyTargets := []
  resolutionEvidence := []
  sbsImpact := []
  dependencies := []
  likelyMutationPaths := []
  deliveryStatus := .undelivered
  linkedPrHead := none
  parentIssue := none
  scopeRole := .delivery

def ambiguousSnapshot : DeliveryPlanningSnapshot where
  snapshotId := "snapshot"
  capturedAt := "2026-01-04T00:00:00Z"
  issues := [bareFact (chainIssue 3 "old"), bareFact (chainIssue 3 "new")]

/-- The refusals report the contract of the fact that came last. -/
theorem ambiguousSnapshot_order_shows :
    ∃ c, compileDeliveryPlan (fun _ => "digest") Casefold.ascii lenientShape chainInitiation
      ambiguousSnapshot = .ok c ∧
    ∃ c', compileDeliveryPlan (fun _ => "digest") Casefold.ascii lenientShape chainInitiation
      { ambiguousSnapshot with issues := ambiguousSnapshot.issues.reverse } = .ok c' ∧
      c.refusals ≠ c'.refusals ∧
      c.refusals.map (fun r => (r.code.text, r.issue.contractHash)) =
        [("authority_ambiguity", "first"), ("authority_ambiguity", "second"),
          ("outside_approved_scope", "new")] ∧
      c'.refusals.map (fun r => (r.code.text, r.issue.contractHash)) =
        [("authority_ambiguity", "first"), ("authority_ambiguity", "second"),
          ("outside_approved_scope", "old")] := by
  decide +kernel

def numberHash : Json → String
  | .obj ((_, .obj [_, (_, .num n), _, _]) :: _) => toString n
  | _ => "digest"

def outsideSnapshot : DeliveryPlanningSnapshot where
  snapshotId := "snapshot"
  capturedAt := "2026-01-04T00:00:00Z"
  issues := [bareFact (chainIssue 3 "third"), bareFact (chainIssue 4 "fourth")]

/-- Their order does not show. -/
theorem outsideSnapshot_order_free :
    ∃ c c', compileDeliveryPlan numberHash Casefold.ascii lenientShape chainInitiation
      outsideSnapshot = .ok c ∧
      compileDeliveryPlan numberHash Casefold.ascii lenientShape chainInitiation
        { outsideSnapshot with issues := outsideSnapshot.issues.reverse } = .ok c' ∧
      c'.refusals = c.refusals := by
  have hi : chainInitiation.validate numberHash = .ok () := by decide +kernel
  obtain ⟨c, hc, -⟩ : ∃ c, compileDeliveryPlan numberHash Casefold.ascii lenientShape
      chainInitiation outsideSnapshot = .ok c ∧ c.plan = none := by decide +kernel
  have hf : CollisionFree numberHash (hashedValues numberHash outsideSnapshot) := by
    intro a ha b hb heq
    have hv : hashedValues numberHash outsideSnapshot =
        [canonicalIssuePayload numberHash (bareFact (chainIssue 3 "third")),
          canonicalIssuePayload numberHash (bareFact (chainIssue 4 "fourth"))] := rfl
    rw [hv] at ha hb
    rcases mem_cons.mp ha with rfl | ha
    · rcases mem_cons.mp hb with rfl | hb
      · rfl
      · rw [mem_singleton.mp hb] at heq
        exact absurd heq (by decide +kernel)
    · rw [mem_singleton.mp ha] at heq ⊢
      rcases mem_cons.mp hb with rfl | hb
      · exact absurd heq (by decide +kernel)
      · rw [mem_singleton.mp hb]
  have hu : OutsideUnambiguous chainInitiation outsideSnapshot := by
    unfold OutsideUnambiguous
    decide +kernel
  obtain ⟨c', hc', -, hsame⟩ := (refusals_order_free_iff hi hf hc).mpr hu
    outsideSnapshot.issues.reverse (reverse_perm _)
  exact ⟨c, c', hc, hc', hsame⟩

end Order

end AgenticPkm.Builderops.Compiler
