import AgenticPkm.Builderops.Compiler.Lockstep

/-!
# The identity of a plan determines the plan

A plan is named by the hash of its initiation and of the canonical payload of its snapshot.  The
payload forgets how the snapshot was captured, and the compiler must not read what it forgets.

Every fact is replaced by a fixed one of the same payload, which says the same.  Two snapshots of
one payload become snapshots of the same facts, so each goes in step with a third.

* `plan_identity_determines_plan` — **one payload, one plan**.
-/

namespace AgenticPkm.Builderops.Compiler

open List Dict

/-! ### Refusals are filed under their own keys -/

def Filed (m : RefusalMap) : Prop := ∀ key r, m.get? key = some r → r.key = key

section Filed

variable {init : DeliveryInitiation} {m : RefusalMap} {facts : AcceptedFacts}

theorem filed_empty : Filed ∅ := by
  intro key r h
  cases h

theorem Filed.record (h : Filed m) (r : RefusalRequest) : Filed (recordRefusal m r) := by
  intro key r' hr'
  rw [get?_recordRefusal] at hr'
  by_cases hk : key = r.key
  · rw [if_pos hk, Option.some.injEq] at hr'
    rw [hk, ← hr']
    rfl
  · rw [if_neg hk] at hr'
    exact h key r' hr'

theorem Filed.recordAll (h : Filed m) (rq : List RefusalRequest) : Filed (recordAll m rq) := by
  induction rq generalizing m with
  | nil => exact h
  | cons r rq ih => exact ih (h.record r)

theorem Filed.foldl_spreadStep {i : List KeyedFact}
    {st : RefusalMap × Bool} (h : Filed st.1) : Filed (i.foldl (spreadStep init) st).1 :=
  foldl_spreadStep_induct (P := fun st => Filed st.1) h fun _ _ _ h _ _ => h.record _

theorem Filed.propagated (h : Filed m) : Filed (propagated init facts m) :=
  settle_invariant (fun _ hm => hm.foldl_spreadStep) _ h

theorem filed_outcome (sh : ContractShape) (init : DeliveryInitiation)
    (s : DeliveryPlanningSnapshot) : Filed (outcome sh init s).refusals := by
  have hd : Filed (directRefusals sh init s) := (filed_empty.recordAll _).recordAll _
  have hcyc : Filed (afterCycles init (acceptedOf sh init s)
      (directRefusals sh init s)) := hd.propagated.recordAll _
  have ho : Filed (afterOverlaps init (acceptedOf sh init s)
      (directRefusals sh init s)) := hcyc.propagated.recordAll _
  exact ho.propagated.recordAll _

end Filed

/-! ### The reason of an exclusion -/

theorem mem_refusalCodes {o : Outcome} (hf : Filed o.refusals) {k : ScopeKey} {text : String} :
    text ∈ (o.reported.filter fun r => r.issue.scopeKey = k).map (fun r => r.code.text) ↔
      ∃ key ∈ o.refusals.keys, key.1 = k ∧ key.2.1.text = text := by
  simp only [mem_map, mem_filter, decide_eq_true_eq]
  constructor
  · rintro ⟨r, ⟨hr, rfl⟩, rfl⟩
    obtain ⟨key, hi⟩ := mem_values.mp (mem_sortedBy.mp hr)
    obtain rfl := hf key r (mem_items.mp hi)
    exact ⟨r.key, mem_map.mpr ⟨_, hi, rfl⟩, rfl, rfl⟩
  · rintro ⟨key, hk, rfl, rfl⟩
    obtain ⟨r, hr⟩ := Dict.mem_keys.mp hk
    have hf := hf key r hr
    have hm : r ∈ o.reported := by
      rw [Outcome.reported, mem_sortedBy, mem_values]
      exact ⟨key, mem_items.mpr hr⟩
    refine ⟨r, ⟨hm, ?_⟩, ?_⟩
    · rw [← hf]
      rfl
    · rw [← hf]
      rfl

theorem exclusionReason_eq {o o' : Outcome} (hf : Filed o.refusals) (hf' : Filed o'.refusals)
    (h : SameKeys o.refusals o'.refusals) (k : ScopeKey) :
    exclusionReason o.reported k = exclusionReason o'.reported k := by
  have hcod : sortedSet ((o.reported.filter fun r => r.issue.scopeKey = k).map
      fun r => r.code.text) = sortedSet ((o'.reported.filter fun r => r.issue.scopeKey = k).map
        fun r => r.code.text) := by
    refine sortedSet_congr fun text => ?_
    rw [mem_refusalCodes hf, mem_refusalCodes hf']
    exact exists_congr fun key => and_congr_left fun _ => h key
  unfold exclusionReason
  dsimp only
  rw [hcod]

/-! ### Outcomes that give the same plan -/

/-- What a plan takes from an outcome. -/
structure SamePlanning (o o' : Outcome) : Prop where
  empty : o.eligible.items.isEmpty = o'.eligible.items.isEmpty
  scope : o.finalScope = o'.finalScope
  authorities : o.eligible.values.map DeliveryIssuePlanningSnapshot.authority =
    o'.eligible.values.map DeliveryIssuePlanningSnapshot.authority
  expected : (sortedBy (fun fact => fact.issue.sortKey) o.eligible.values).map expectedState =
    (sortedBy (fun fact => fact.issue.sortKey) o'.eligible.values).map expectedState
  waves : o.waves = o'.waves
  reasons : ∀ k, exclusionReason o.reported k = exclusionReason o'.reported k

namespace SamePlanning

variable {o o' o'' : Outcome}

theorem symm (h : SamePlanning o o') : SamePlanning o' o :=
  ⟨h.empty.symm, h.scope.symm, h.authorities.symm, h.expected.symm, h.waves.symm,
    fun k => (h.reasons k).symm⟩

theorem trans (h : SamePlanning o o') (h' : SamePlanning o' o'') : SamePlanning o o'' :=
  ⟨h.empty.trans h'.empty, h.scope.trans h'.scope, h.authorities.trans h'.authorities,
    h.expected.trans h'.expected, h.waves.trans h'.waves,
    fun k => (h.reasons k).trans (h'.reasons k)⟩

end SamePlanning

section Planning

variable {ν : DeliveryIssuePlanningSnapshot → DeliveryIssuePlanningSnapshot}
  {hash : Json → String} {cs : Casefold} {sh : ContractShape}
  {init : DeliveryInitiation} {s s' : DeliveryPlanningSnapshot}

theorem Rearranged.samePlanning (h : Rearranged ν s s') (hν : Respells ν) (hd : init.Valid) :
    SamePlanning (Compiler.outcome sh init s) (Compiler.outcome sh init s') := by
  obtain ⟨hkeys, hel, hw⟩ : SameKeys (Compiler.outcome sh init s).refusals
      (Compiler.outcome sh init s').refusals ∧ _ ∧ _ := h.outcome hν hd
  have hi : DeliveryIssuePlanningSnapshot.issue ∘ ν = DeliveryIssuePlanningSnapshot.issue :=
    funext fun f => (hν f).issue
  have ha : DeliveryIssuePlanningSnapshot.authority ∘ ν =
      DeliveryIssuePlanningSnapshot.authority := funext fun f => (hν f).authority
  have hexp : expectedState ∘ ν = expectedState := by
    funext f
    simp [expectedState, (hν f).issue, (hν f).authority]
  refine ⟨?_, ?_, ?_, ?_, hw.symm,
    exclusionReason_eq (filed_outcome _ _ _) (filed_outcome _ _ _) hkeys⟩
  · rw [hel, Bool.eq_iff_iff, isEmpty_iff_length_eq_zero,
      isEmpty_iff_length_eq_zero, length_items_mapValues]
  · rw [Outcome.finalScope, Outcome.finalScope, issuesOf, issuesOf, hel,
      values_mapValues, map_map, hi]
  · rw [hel, values_mapValues, map_map, ha]
  · rw [hel, values_mapValues, sortedBy_map, map_map, hexp]
    simp [(hν _).issue]

theorem compileExclusions_congr {refusals refusals' : List PlanRefusal}
    (h : ∀ k, exclusionReason refusals k = exclusionReason refusals' k) (f : List IssueScope) :
    compileExclusions cs init f refusals = compileExclusions cs init f refusals' := by
  have ho : omittedExclusion refusals = omittedExclusion refusals' := by
    funext issue
    rw [omittedExclusion, omittedExclusion, h]
  unfold compileExclusions
  rw [ho]

/-- The payload, and what the plan takes from the outcome, are all there is to a plan. -/
theorem compilePlan_congr {o o' : Outcome}
    (hp : canonicalSnapshotPayload hash s = canonicalSnapshotPayload hash s')
    (h : SamePlanning o o') : compilePlan hash cs init s o = compilePlan hash cs init s' o' := by
  have hf := hp
  simp only [canonicalSnapshotPayload, Json.obj.injEq, List.cons.injEq, Prod.mk.injEq,
    Json.str.injEq, true_and] at hf
  obtain ⟨hid, hcp, -⟩ := hf
  have ha : assemblePlan hash cs init s o = assemblePlan hash cs init s' o' := by
    unfold assemblePlan
    simp only [inputHash, planSources, hp, hid, hcp, h.scope, h.authorities,
      h.expected, h.waves, compileExclusions_congr h.reasons]
  unfold compilePlan
  rw [h.empty, ha]

end Planning

/-! ### Snapshots with one payload -/

section Payload

variable (hash : Json → String)

/-- The fact that stands for all facts of a payload. -/
noncomputable def representative (f : DeliveryIssuePlanningSnapshot) :
    DeliveryIssuePlanningSnapshot :=
  Function.invFun (canonicalIssuePayload hash) (canonicalIssuePayload hash f)

theorem respells_representative : Respells (representative hash) :=
  fun f => sameFact_of_payload_eq (Function.invFun_eq ⟨f, rfl⟩)

variable {hash} {s s' : DeliveryPlanningSnapshot}

theorem perm_representatives
    (h : canonicalSnapshotPayload hash s = canonicalSnapshotPayload hash s') :
    s'.capturedAt = s.capturedAt ∧
      (s.issues.map (representative hash)).Perm (s'.issues.map (representative hash)) := by
  simp only [canonicalSnapshotPayload, Json.obj.injEq, List.cons.injEq, Prod.mk.injEq,
    Json.str.injEq, Json.arr.injEq, true_and, and_true] at h
  obtain ⟨-, hcp, hi⟩ := h
  have hp := (perm_of_sortedBy_eq hi).map (Function.invFun (canonicalIssuePayload hash))
  rw [map_map, map_map] at hp
  exact ⟨hcp.symm, hp⟩

/-- Two snapshots differ in the order of their facts, and in the order and the spelling of
what the facts list. -/
structure SameSnapshot (s s' : DeliveryPlanningSnapshot) : Prop where
  snapshotId : s.snapshotId = s'.snapshotId
  capturedAt : s.capturedAt = s'.capturedAt
  issues : ∃ l, List.Forall₂ SameFact s.issues l ∧ l.Perm s'.issues

theorem payload_eq_of_sameSnapshot (hfr : CollisionFree hash (hashedValues hash s))
    (h : SameSnapshot s s') :
    canonicalSnapshotPayload hash s = canonicalSnapshotPayload hash s' := by
  obtain ⟨l, hsame, hpm⟩ := h.issues
  have hpy : ∀ {i l : List DeliveryIssuePlanningSnapshot},
      List.Forall₂ SameFact i l →
      (∀ f ∈ i, CollisionFree hash f.hashedParts) →
      i.map (canonicalIssuePayload hash) = l.map (canonicalIssuePayload hash) := by
    intro i l hsame
    induction hsame with
    | nil => exact fun _ => rfl
    | cons hfc _ ih =>
      intro hfr
      rw [map_cons, map_cons, payload_eq_of_sameFact (hfr _ mem_cons_self) hfc,
        ih fun f hf => hfr f (mem_cons_of_mem _ hf)]
  have hp : ∀ f ∈ s.issues, CollisionFree hash f.hashedParts := by
    intro f hf a ha b hb
    exact hfr a (mem_append_left _ (mem_flatMap.mpr ⟨f, hf, ha⟩)) b
      (mem_append_left _ (mem_flatMap.mpr ⟨f, hf, hb⟩))
  have hiss : (s.issues.map (canonicalIssuePayload hash)).Perm
      (s'.issues.map (canonicalIssuePayload hash)) := by
    rw [hpy hsame hp]
    exact hpm.map _
  have hs : sortedBy hash (s.issues.map (canonicalIssuePayload hash)) =
      sortedBy hash (s'.issues.map (canonicalIssuePayload hash)) :=
    sortedBy_eq_of_perm (fun a ha b hb => hfr a (mem_append_right _ ha) b
      (mem_append_right _ hb)) hiss
  simp [canonicalSnapshotPayload, h.snapshotId, h.capturedAt, hs]

end Payload

/-- **The identity of a plan determines the plan.**  Snapshots with one canonical payload
compile to the same plan, or to none, or are rejected with the same error.  Snapshots that
differ only in the order of their facts and in the order and spelling of what these list
are such snapshots, for a hash without collisions. -/
theorem plan_identity_determines_plan {hash : Json → String} (casefold : Casefold)
    (shape : ContractShape) {initiation : DeliveryInitiation}
    (hinit : initiation.validate hash = .ok ()) (s s' : DeliveryPlanningSnapshot) :
    (canonicalSnapshotPayload hash s = canonicalSnapshotPayload hash s' →
      (compileDeliveryPlan hash casefold shape initiation s).map DeliveryPlanCompilation.plan =
        (compileDeliveryPlan hash casefold shape initiation s').map
          DeliveryPlanCompilation.plan) ∧
    (CollisionFree hash (hashedValues hash s) → SameSnapshot s s' →
      canonicalSnapshotPayload hash s = canonicalSnapshotPayload hash s') := by
  refine ⟨fun hp => ?_, payload_eq_of_sameSnapshot⟩
  have hd := DeliveryInitiation.valid_of_validate hinit
  have hν := respells_representative hash
  -- both snapshots are in step with the one of the representatives
  obtain ⟨hcp, hpm⟩ := perm_representatives hp
  have hl : Rearranged (representative hash) s
      { s with issues := s.issues.map (representative hash) } := ⟨rfl, .refl _⟩
  have hr : Rearranged (representative hash) s'
      { s with issues := s.issues.map (representative hash) } := ⟨hcp.symm, hpm⟩
  have hpl : SamePlanning (outcome shape initiation s) (outcome shape initiation s') :=
    (hl.samePlanning hν hd).trans (hr.samePlanning hν hd).symm
  have hm : ∀ s, (compileDeliveryPlan hash casefold shape initiation s).map
      DeliveryPlanCompilation.plan =
      compilePlan hash casefold initiation s (outcome shape initiation s) := by
    intro s
    rw [compileDeliveryPlan_eq hd]
    cases compilePlan hash casefold initiation s (outcome shape initiation s) with
    | error e => rfl
    | ok plan => rfl
  rw [hm, hm, compilePlan_congr hp hpl]

def respelledSnapshot : DeliveryPlanningSnapshot where
  snapshotId := "snapshot"
  capturedAt := "2026-01-04T00:00:00Z"
  issues :=
    [chainFact (chainIssue 2 "second") [⟨chainIssue 1 "first", false, none⟩] "./app//second.py ",
     chainFact (chainIssue 1 "first") [] "app/first.py"]

/-- It compiles to the plan of the chain. -/
theorem respelledSnapshot_same_plan :
    (compileDeliveryPlan (fun _ => "digest") Casefold.ascii lenientShape chainInitiation
      chainSnapshot).map DeliveryPlanCompilation.plan =
    (compileDeliveryPlan (fun _ => "digest") Casefold.ascii lenientShape chainInitiation
      respelledSnapshot).map DeliveryPlanCompilation.plan := by
  refine (plan_identity_determines_plan Casefold.ascii lenientShape chainInitiation_valid
    chainSnapshot respelledSnapshot).1 ?_
  have hp : normalizePath "./app//second.py " = normalizePath "app/second.py" := by
    decide +kernel
  simp only [canonicalSnapshotPayload, chainSnapshot, respelledSnapshot, canonicalIssuePayload,
    chainFact, map_cons, map_nil, hp]

end AgenticPkm.Builderops.Compiler
