import AgenticPkm.Builderops.Compiler.Compile

/-!
# What the compiler settles on

The way from an initiation and a snapshot to an `Outcome`, without the checks that could
raise: for a validated initiation none of them does, and the late repair of cycles is
never reached, because every Issue on a cycle of Issues without a refusal has been
refused before the waves are built.
-/

namespace AgenticPkm.Builderops.Compiler

open Relation List Option

/-! ### Every request states a reason -/

/-- A request is filed against an Issue and states a reason. -/
structure RefusalRequest.Against (issue : IssueScope) (r : RefusalRequest) : Prop where
  issue_eq : r.issue = issue
  stated : r.Stated

/-- All requests of a list are filed against one Issue. -/
def AllAgainst (issue : IssueScope) (requests : List RefusalRequest) : Prop :=
  ∀ r ∈ requests, r.Against issue

section Against

variable {i : IssueScope} {rq rq' : List RefusalRequest}

theorem AllAgainst.append (h : AllAgainst i rq) (h' : AllAgainst i rq') :
    AllAgainst i (rq ++ rq') :=
  forall_mem_append.mpr ⟨h, h'⟩

variable {r : RefusalRequest}

theorem AllAgainst.single (h : r.Against i) : AllAgainst i [r] := by
  intro r' hr'
  rw [mem_singleton.mp hr']
  exact h

theorem AllAgainst.refuseIf (h : r.Against i) (c : Bool) : AllAgainst i (refuseIf c r) := by
  intro r' hr'
  rw [(mem_refuseIf.mp hr').2]
  exact h

theorem AllAgainst.flatMap {α : Type} {l : List α} {f : α → List RefusalRequest}
    (h : ∀ a ∈ l, AllAgainst i (f a)) : AllAgainst i (l.flatMap f) := by
  intro r hr
  obtain ⟨a, ha, hr⟩ := mem_flatMap.mp hr
  exact h a ha r hr

end Against

variable {code : RefusalCode} {de : List Char} {rl : List IssueScope}

theorem stated_text {i : IssueScope} (h : (de.any fun c => !isSpace c) = true) :
    (RefusalRequest.mk i code (String.ofList de) rl).Stated :=
  strip_ofList_ne_empty h

theorem stated_texts {i : IssueScope} {rest : String} (h : (de.any fun c => !isSpace c) = true) :
    (RefusalRequest.mk i code (String.ofList de ++ rest) rl).Stated :=
  strip_append_ne_empty rest (strip_ofList_ne_empty h)

theorem against_validatePickupAuthority (fact : DeliveryIssuePlanningSnapshot) :
    AllAgainst fact.issue (validatePickupAuthority fact) := by
  have hp : AllAgainst fact.issue (priorityRefusals fact) := by
    unfold priorityRefusals
    dsimp only
    split
    · exact .single ⟨rfl, stated_texts rfl⟩
    · exact .refuseIf ⟨rfl, stated_text rfl⟩ _
  refine .append (.append (.refuseIf ⟨rfl, ?_⟩ _) (.refuseIf ⟨rfl, ?_⟩ _)) hp
  · exact stated_texts rfl
  · exact stated_text rfl

theorem against_targetRefusals (fact : DeliveryIssuePlanningSnapshot) (c : String)
    (t : ResolutionTarget) (e : List IssueContractResolutionEvidence) :
    AllAgainst fact.issue (targetRefusals fact c t e) := by
  refine .append (.refuseIf ⟨rfl, ?_⟩ _) (.refuseIf ⟨rfl, ?_⟩ _)
  · exact stated_texts rfl
  · exact stated_text rfl

theorem against_validateResolutionEvidence (fact : DeliveryIssuePlanningSnapshot) (c : String)
    (a t : Bool) : AllAgainst fact.issue (validateResolutionEvidence fact c a t) := by
  refine .append (.append (.append (.refuseIf ⟨rfl, ?_⟩ _) (.refuseIf ⟨rfl, ?_⟩ _))
    (.refuseIf ⟨rfl, ?_⟩ _)) (.flatMap fun item _ => against_targetRefusals fact c _ _)
  all_goals exact stated_text rfl

theorem against_validateDependencySatisfaction (d : DeliveryDependency)
    (fact : DeliveryIssuePlanningSnapshot) (f : FactsByScope) (c b : String) :
    AllAgainst fact.issue (validateDependencySatisfaction d fact f c b) := by
  unfold validateDependencySatisfaction
  split
  · exact .refuseIf ⟨rfl, stated_text rfl⟩ _
  · split
    · exact .single ⟨rfl, stated_texts rfl⟩
    · exact .refuseIf ⟨rfl, stated_texts rfl⟩ _
    · exact .refuseIf ⟨rfl, stated_texts rfl⟩ _
    · exact .single ⟨rfl, stated_texts rfl⟩

section Assessment

variable {sh : ContractShape} {initiation : DeliveryInitiation} {facts : FactsByScope}
  {capturedAt : String} {issue : IssueScope} {fact : DeliveryIssuePlanningSnapshot}

theorem against_dependencyRefusals (hi : fact.issue = issue) (d : DeliveryDependency) :
    AllAgainst issue (dependencyRefusals initiation facts capturedAt issue fact d) := by
  subst hi
  refine .append (.append (.refuseIf ⟨rfl, ?_⟩ _)
    (against_validateDependencySatisfaction d fact facts capturedAt _)) (.refuseIf ⟨rfl, ?_⟩ _)
  all_goals exact stated_text rfl

theorem against_factRefusals (hi : fact.issue = issue) :
    AllAgainst issue (factRefusals sh initiation facts capturedAt issue fact) := by
  subst hi
  refine .append (.append (.append (.append (.append (.append (.append (.append (.append
    (.refuseIf ⟨rfl, ?_⟩ _) (against_validatePickupAuthority fact)) (.refuseIf ⟨rfl, ?_⟩ _))
    (.refuseIf ⟨rfl, ?_⟩ _)) (.refuseIf ⟨rfl, ?_⟩ _))
    (against_validateResolutionEvidence fact capturedAt _ _)) (.refuseIf ⟨rfl, ?_⟩ _))
    (.refuseIf ⟨rfl, ?_⟩ _)) (.refuseIf ⟨rfl, ?_⟩ _))
    (.flatMap fun d _ => against_dependencyRefusals rfl d)
  all_goals exact stated_text rfl

theorem turnedAway_eq_none_iff :
    turnedAway initiation capturedAt issue fact = none ↔
      initiation.provenance.createdAt ≤ capturedAt ∧ fact.issue = issue ∧
        authorityBindsIssue fact.authority issue capturedAt
          (some initiation.provenance.createdAt) = true ∧
        isExcluded initiation issue.scopeKey = false ∧ fact.scopeRole ≠ .validationParent := by
  unfold turnedAway
  split
  next hel => simp [not_le.mpr hel]
  next hl =>
    split
    next hb =>
      simp only [Bool.or_eq_true, bne_iff_ne, Bool.not_eq_true'] at hb
      simp only [reduceCtorEq, false_iff]
      rintro ⟨-, hi, hbd, -⟩
      rcases hb with hne | hn
      · exact hne hi
      · rw [hn] at hbd
        cases hbd
    next hb =>
      simp only [Bool.or_eq_true, bne_iff_ne, Bool.not_eq_true', not_or, ne_eq, not_not,
        Bool.not_eq_false] at hb
      split
      next hec => simp [hec]
      next hec =>
        split
        next hr => simp [hr]
        next hr => simp [not_lt.mp hl, hb.1, hb.2, hec, hr]

theorem against_turnedAway {r : RefusalRequest}
    (h : turnedAway initiation capturedAt issue fact = some r) : r.Against issue := by
  unfold turnedAway at h
  split at h
  · cases h
    exact ⟨rfl, stated_text rfl⟩
  · split at h
    · cases h
      exact ⟨rfl, stated_text rfl⟩
    · split at h
      · cases h
        exact ⟨rfl, stated_text rfl⟩
      · split at h
        · cases h
          exact ⟨rfl, stated_text rfl⟩
        · cases h

/-- The fact that speaks for an approved Issue: the only one of its key, and not turned
away. -/
structure IsFactOf (initiation : DeliveryInitiation) (facts : FactsByScope) (capturedAt : String)
    (issue : IssueScope) (fact : DeliveryIssuePlanningSnapshot) : Prop where
  only : factsOf facts issue.scopeKey = [fact]
  passed : turnedAway initiation capturedAt issue fact = none

theorem IsFactOf.issue_eq (h : IsFactOf initiation facts capturedAt issue fact) :
    fact.issue = issue :=
  (turnedAway_eq_none_iff.mp h.passed).2.1

/-- An Issue is turned away with a refusal, or its fact goes through all the checks. -/
theorem assessIssue_cases (s : ContractShape) (i : DeliveryInitiation)
    (f : FactsByScope) (c : String) (is : IssueScope) :
    (∃ r, r.Against is ∧ assessIssue s i f c is = ([r], none)) ∨
    ∃ fact, IsFactOf i f c is fact ∧
      assessIssue s i f c is = (factRefusals s i f c is fact, some fact) := by
  unfold assessIssue
  split
  next fact ho =>
    cases hp : turnedAway i c is fact with
    | some r => exact .inl ⟨r, against_turnedAway hp, rfl⟩
    | none => exact .inr ⟨fact, ⟨ho, hp⟩, rfl⟩
  next => exact .inl ⟨_, ⟨rfl, stated_text rfl⟩, rfl⟩

theorem against_assessIssue :
    AllAgainst issue (assessIssue sh initiation facts capturedAt issue).1 := by
  rcases assessIssue_cases sh initiation facts capturedAt issue with
    ⟨r, hr, heq⟩ | ⟨fact, hf, heq⟩
  · rw [heq]
    exact .single hr
  · rw [heq]
    exact against_factRefusals hf.issue_eq

theorem assessIssue_snd_eq_some
    (h : (assessIssue sh initiation facts capturedAt issue).2 = some fact) :
    IsFactOf initiation facts capturedAt issue fact ∧
      (assessIssue sh initiation facts capturedAt issue).1 =
        factRefusals sh initiation facts capturedAt issue fact := by
  rcases assessIssue_cases sh initiation facts capturedAt issue with
    ⟨r, -, heq⟩ | ⟨fact', hf, heq⟩
  · rw [heq] at h
    cases h
  · rw [heq] at h ⊢
    cases h
    exact ⟨hf, rfl⟩

end Assessment

/-! ### The plain functions -/

section Plain

variable (shape : ContractShape) (initiation : DeliveryInitiation) (facts : FactsByScope)
  (capturedAt : String)

def assessedRefusals (m : RefusalMap) : RefusalMap :=
  recordAll m (initiation.requestedScope.flatMap fun issue =>
    (assessIssue shape initiation facts capturedAt issue).1)

def acceptedFacts : AcceptedFacts :=
  initiation.requestedScope.foldl (fun accepted issue => acceptFact accepted issue.scopeKey
    (assessIssue shape initiation facts capturedAt issue).2) ∅

def cycleRefusals (candidates : AcceptedFacts) : List RefusalRequest :=
  (dependencyCycleKeys candidates candidates.keys).filterMap fun k =>
    (initiation.approved k).map (cycleRequest "internal dependency graph contains a cycle")

/-- The map after the first spreading and the refusal of cycles. -/
def afterCycles (accepted : AcceptedFacts) (m : RefusalMap) : RefusalMap :=
  let m := propagated initiation accepted m
  recordAll m (cycleRefusals initiation (unrefused accepted m))

def afterOverlaps (accepted : AcceptedFacts) (m : RefusalMap) : RefusalMap :=
  let m := propagated initiation accepted (afterCycles initiation accepted m)
  recordAll m (refuseMutationOverlap (unrefused accepted m))

def settledRefusals (accepted : AcceptedFacts) (m : RefusalMap) : RefusalMap :=
  propagated initiation accepted (afterOverlaps initiation accepted m)

def scheduled (accepted : AcceptedFacts) (m : RefusalMap) : Outcome where
  refusals := recordAll m (budgetRequests initiation (unrefused accepted m))
  eligible := withinBudget initiation (unrefused accepted m)
  waves := dependencyWaves (withinBudget initiation (unrefused accepted m))
    initiation.budget.maxParallelWorkers

def directRefusals (snapshot : DeliveryPlanningSnapshot) : RefusalMap :=
  assessedRefusals shape initiation (factsByScope snapshot) snapshot.capturedAt
    (recordAll ∅ (outsideRequests initiation (factsByScope snapshot)))

def acceptedOf (snapshot : DeliveryPlanningSnapshot) : AcceptedFacts :=
  acceptedFacts shape initiation (factsByScope snapshot) snapshot.capturedAt

def refusalsOf (snapshot : DeliveryPlanningSnapshot) : RefusalMap :=
  settledRefusals initiation (acceptedOf shape initiation snapshot)
    (directRefusals shape initiation snapshot)

def candidatesOf (snapshot : DeliveryPlanningSnapshot) : AcceptedFacts :=
  unrefused (acceptedOf shape initiation snapshot) (refusalsOf shape initiation snapshot)

/-- What the compiler settles on. -/
def outcome (snapshot : DeliveryPlanningSnapshot) : Outcome :=
  scheduled initiation (acceptedOf shape initiation snapshot)
    (refusalsOf shape initiation snapshot)

end Plain

/-! ### The accepted facts -/

section Accepted

variable {s : ContractShape} {init : DeliveryInitiation} {fc : FactsByScope}
  {ca : String}

theorem items_foldl_acceptFact (f : IssueScope → Option DeliveryIssuePlanningSnapshot) :
    ∀ (scope : List IssueScope) (accepted : AcceptedFacts),
      DistinctKeys IssueScope.scopeKey scope →
      (∀ issue ∈ scope, issue.scopeKey ∉ accepted.keys) →
      (scope.foldl (fun accepted issue => acceptFact accepted issue.scopeKey (f issue))
        accepted).items =
        accepted.items ++ scope.filterMap fun issue => (f issue).map (issue.scopeKey, ·) := by
  intro scope
  induction scope with
  | nil => simp
  | cons issue scope ih =>
    intro accepted hds hnew
    obtain ⟨hiss, hs⟩ : issue.scopeKey ∉ scope.map IssueScope.scopeKey ∧
        DistinctKeys IssueScope.scopeKey scope := nodup_cons.mp hds
    have hr : ∀ issue' ∈ scope, issue'.scopeKey ∉ accepted.keys :=
      fun issue' h => hnew issue' (mem_cons_of_mem _ h)
    rw [foldl_cons]
    cases hf : f issue with
    | none =>
      rw [filterMap_cons_none (by rw [hf]; rfl)]
      exact ih accepted hs hr
    | some fact =>
      have hk : issue.scopeKey ∉ accepted.keys := hnew issue mem_cons_self
      have hi := Dict.items_set_of_notMem hk fact
      rw [filterMap_cons_some (by rw [hf]; rfl), acceptFact]
      rw [ih (accepted.set issue.scopeKey fact) hs ?_, hi, append_assoc]
      · rfl
      · intro issue' h' hm
        rw [Dict.keys, hi, map_append, mem_append] at hm
        rcases hm with hm | hm
        · exact hr issue' h' hm
        · have heq : issue'.scopeKey = issue.scopeKey := by simpa using hm
          exact hiss (heq ▸ mem_map_of_mem h')

section

variable (hd : init.Valid)
include hd

theorem items_acceptedFacts :
    (acceptedFacts s init fc ca).items =
      init.requestedScope.filterMap fun issue =>
        (assessIssue s init fc ca issue).2.map (issue.scopeKey, ·) := by
  rw [acceptedFacts,
    items_foldl_acceptFact _ _ _ hd.scope_distinct (fun _ _ => by simp [Dict.keys])]
  simp

variable {k : ScopeKey} {fact : DeliveryIssuePlanningSnapshot}

theorem mem_acceptedFacts :
    (k, fact) ∈ (acceptedFacts s init fc ca).items ↔
      ∃ issue ∈ init.requestedScope, issue.scopeKey = k ∧
        (assessIssue s init fc ca issue).2 = some fact := by
  rw [items_acceptedFacts hd, mem_filterMap]
  refine exists_congr fun issue => and_congr_right fun _ => ?_
  rw [map_eq_some_iff]
  constructor
  · rintro ⟨fact', hf', heq⟩
    obtain ⟨hk, rfl⟩ := Prod.mk.inj heq
    exact ⟨hk, hf'⟩
  · rintro ⟨rfl, hf⟩
    exact ⟨fact, hf, rfl⟩

theorem isFactOf_of_accepted (h : (k, fact) ∈ (acceptedFacts s init fc ca).items) :
    fact.issue ∈ init.requestedScope ∧ fact.scopeKey = k ∧ IsFactOf init fc ca fact.issue fact := by
  obtain ⟨issue, hi, rfl, hs⟩ := (mem_acceptedFacts hd).mp h
  obtain ⟨hf, -⟩ := assessIssue_snd_eq_some hs
  have heq := hf.issue_eq
  rw [DeliveryIssuePlanningSnapshot.scopeKey, heq]
  exact ⟨hi, rfl, hf⟩

theorem keyed_acceptedFacts : Keyed (acceptedFacts s init fc ca) :=
  fun _ hi => (isFactOf_of_accepted hd hi).2.1

theorem approved_of_accepted (h : (k, fact) ∈ (acceptedFacts s init fc ca).items) :
    init.approved k = some fact.issue := by
  obtain ⟨hm, hk, -⟩ := isFactOf_of_accepted hd h
  exact hd.approved_eq_some_iff.mpr ⟨hm, hk⟩

/-- **A requested Issue has a refusal or an accepted fact.** -/
theorem covered (m : RefusalMap) {i : IssueScope} (hi : i ∈ init.requestedScope) :
    hasRefusal (assessedRefusals s init fc ca m) i.scopeKey ∨
      ∃ fact, (i.scopeKey, fact) ∈ (acceptedFacts s init fc ca).items := by
  rcases assessIssue_cases s init fc ca i with
    ⟨r, hr, heq⟩ | ⟨fact, -, heq⟩
  · refine .inl (hasRefusal_recordAll.mpr (.inr ⟨r, ?_, by rw [hr.issue_eq]⟩))
    refine mem_flatMap.mpr ⟨i, hi, ?_⟩
    rw [heq]
    exact mem_singleton_self r
  · exact .inr ⟨fact, (mem_acceptedFacts hd).mpr ⟨i, hi, rfl, by rw [heq]⟩⟩

theorem factRefusals_eq_nil {m : RefusalMap} (h : (k, fact) ∈ (acceptedFacts s init fc ca).items)
    (hf : hasRefusal (assessedRefusals s init fc ca m) k = false) :
    factRefusals s init fc ca fact.issue fact = [] := by
  obtain ⟨issue, hi, rfl, hs⟩ := (mem_acceptedFacts hd).mp h
  obtain ⟨hfc, hrq⟩ := assessIssue_snd_eq_some hs
  rw [hfc.issue_eq, ← hrq, eq_nil_iff_forall_not_mem]
  intro r hr
  have href : hasRefusal (assessedRefusals s init fc ca m)
      issue.scopeKey := by
    refine hasRefusal_recordAll.mpr (.inr ⟨r, mem_flatMap.mpr ⟨issue, hi, hr⟩, ?_⟩)
    rw [(against_assessIssue r hr).issue_eq]
  rw [href] at hf
  cases hf

end

end Accepted

/-! ### Refusals stay -/

section Settled

variable {init : DeliveryInitiation} {ac : AcceptedFacts} {m : RefusalMap}
  {k : ScopeKey}

theorem mem_unrefused {fact : DeliveryIssuePlanningSnapshot} :
    (k, fact) ∈ (unrefused ac m).items ↔ (k, fact) ∈ ac.items ∧ hasRefusal m k = false := by
  simp [unrefused, Dict.keep]

variable {key : RefusalKey}

theorem mem_keys_afterCycles (h : key ∈ (propagated init ac m).keys) :
    key ∈ (afterCycles init ac m).keys :=
  mem_keys_recordAll.mpr (.inl h)

theorem mem_keys_afterOverlaps (h : key ∈ (afterCycles init ac m).keys) :
    key ∈ (afterOverlaps init ac m).keys :=
  mem_keys_recordAll.mpr (.inl (mem_keys_propagated h))

theorem hasRefusal_settledRefusals (h : hasRefusal m k) :
    hasRefusal (settledRefusals init ac m) k := by
  refine hasRefusal_mono (fun key hk => ?_) h
  exact mem_keys_propagated (mem_keys_afterOverlaps (mem_keys_afterCycles (mem_keys_propagated hk)))

theorem hasRefusal_of_settledRefusals_eq_false
    (h : hasRefusal (settledRefusals init ac m) k = false) : hasRefusal m k = false := by
  by_contra hr
  rw [hasRefusal_settledRefusals (by simpa using hr)] at h
  cases h

/-! ### No cycles are left -/

theorem waitsFor_mono {f f' : AcceptedFacts} (hs : ∀ item ∈ f.items, item ∈ f'.items)
    {k' : ScopeKey} (h : k' ∈ waitsFor f f.keys k) : k' ∈ waitsFor f' f'.keys k := by
  obtain ⟨fact, hf, d, hd, hsat, hk, hcn⟩ := mem_waitsFor.mp h
  refine mem_waitsFor.mpr ⟨fact, hs _ hf, d, hd, hsat, hk, ?_⟩
  obtain ⟨item, hi, heq⟩ := mem_map.mp hcn
  exact mem_map.mpr ⟨item, hs item hi, heq⟩

/-- **Facts without a refusal do not wait for each other in a cycle.**  Every Issue on a
cycle was refused after the first spreading. -/
theorem settledRefusals_acyclic (hap : ∀ item ∈ ac.items, init.approved item.1 = some item.2.issue)
    (hky : Keyed ac) {f : AcceptedFacts}
    (hfs : ∀ item ∈ f.items, item ∈ (unrefused ac (settledRefusals init ac m)).items) (k : ScopeKey)
    : ¬ TransGen (fun a b => b ∈ waitsFor f f.keys a) k k := by
  intro hcy
  -- the Issue is unrefused to the end, and so it was when cycles were looked for
  have hst : ∀ item ∈ f.items, item ∈ (unrefused ac (propagated init ac m)).items := by
    intro item hitem
    obtain ⟨hmem, hfr⟩ := mem_unrefused.mp (hfs item hitem)
    refine mem_unrefused.mpr ⟨hmem, ?_⟩
    by_contra href
    have hlt : hasRefusal (settledRefusals init ac m) item.1 := by
      refine hasRefusal_mono (fun key hkey => ?_) (by simpa using href)
      exact mem_keys_propagated (mem_keys_afterOverlaps (mem_keys_afterCycles hkey))
    rw [hlt] at hfr
    cases hfr
  obtain ⟨k', hed, -⟩ := TransGen.head'_iff.mp hcy
  obtain ⟨fact, hfc, -⟩ := mem_waitsFor.mp hed
  have hcn := hst _ hfc
  have hkeys : k ∈ dependencyCycleKeys (unrefused ac (propagated init ac m))
      (unrefused ac (propagated init ac m)).keys := by
    refine (mem_dependencyCycleKeys (Dict.nodup_keys _)).mpr ⟨?_, ?_⟩
    · exact mem_map.mpr ⟨_, hcn, rfl⟩
    · exact hcy.lift id fun a b h => waitsFor_mono hst h
  have hiss := hap _ (mem_unrefused.mp hcn).1
  have href : hasRefusal (afterCycles init ac m) k := by
    refine hasRefusal_recordAll.mpr (.inr
      ⟨cycleRequest "internal dependency graph contains a cycle" fact.issue,
        mem_filterMap.mpr ⟨k, hkeys, ?_⟩, ?_⟩)
    · rw [hiss]
      rfl
    · exact hky _ (mem_unrefused.mp hcn).1
  have hlt : hasRefusal (settledRefusals init ac m) k :=
    hasRefusal_mono (fun key hkey => mem_keys_propagated (mem_keys_afterOverlaps hkey)) href
  rw [(mem_unrefused.mp (hfs _ hfc)).2] at hlt
  cases hlt

/-! ### The passes do not raise -/

theorem stated_outsideRequests (init : DeliveryInitiation) (f : FactsByScope) :
    ∀ r ∈ outsideRequests init f, r.Stated := by
  intro r hr
  obtain ⟨item, -, hr⟩ := mem_flatMap.mp hr
  obtain ⟨fact, -, rfl⟩ := mem_map.mp hr
  exact stated_text rfl

theorem of_mem_cycleRefusals {c : AcceptedFacts} {r : RefusalRequest}
    (h : r ∈ cycleRefusals init c) : ∃ k ∈ dependencyCycleKeys c c.keys, ∃ i,
      init.approved k = some i ∧
        r = cycleRequest "internal dependency graph contains a cycle" i := by
  obtain ⟨k, hk, hr⟩ := mem_filterMap.mp h
  obtain ⟨i, hi, rfl⟩ := map_eq_some_iff.mp hr
  exact ⟨k, hk, i, hi, rfl⟩

theorem of_mem_budgetRequests {e : AcceptedFacts} {r : RefusalRequest}
    (h : r ∈ budgetRequests init e) : ∃ f ∈ e.values, r = budgetRequest f := by
  unfold budgetRequests at h
  split at h
  · obtain ⟨f, hf, rfl⟩ := mem_map.mp h
    exact ⟨f, hf, rfl⟩
  · cases h

theorem stated_cycleRefusals (c : AcceptedFacts) : ∀ r ∈ cycleRefusals init c, r.Stated := by
  intro r hr
  obtain ⟨-, -, -, -, rfl⟩ := of_mem_cycleRefusals hr
  exact stated_text rfl

theorem stated_overlapRequests (f : List DeliveryIssuePlanningSnapshot) :
    ∀ r ∈ overlapRequests f, r.Stated := by
  intro r hr
  obtain ⟨-, -, -, -, rfl⟩ := of_mem_overlapRequests hr
  exact stated_text rfl

theorem stated_budgetRequests (init : DeliveryInitiation) (e : AcceptedFacts) :
    ∀ r ∈ budgetRequests init e, r.Stated := by
  intro r hr
  obtain ⟨-, -, rfl⟩ := of_mem_budgetRequests hr
  exact stated_text rfl

theorem cycleRequests_eq (dt : String) {keys : List ScopeKey}
    (h : ∀ k ∈ keys, (init.approved k).isSome) :
    cycleRequests init dt keys = .ok (keys.filterMap fun k =>
      (init.approved k).map (cycleRequest dt)) := by
  unfold cycleRequests
  induction keys with
  | nil => rfl
  | cons k keys ih =>
    obtain ⟨issue, hi⟩ := isSome_iff_exists.mp (h k mem_cons_self)
    have hr := ih fun k' hk' => h k' (mem_cons_of_mem _ hk')
    rw [collectAll, hi, getOrRaise_some, ok_bind, hr, filterMap_cons_some (by rw [hi]; rfl)]
    rfl

theorem settleRefusals_eq (ha : ∀ item ∈ ac.items, init.approved item.1 = some item.2.issue) :
    settleRefusals init ac m = .ok (settledRefusals init ac m) := by
  have hcyc : ∀ m, cycleRequests init "internal dependency graph contains a cycle"
      (dependencyCycleKeys (unrefused ac m) (unrefused ac m).keys) =
      .ok (cycleRefusals init (unrefused ac m)) := by
    intro m
    refine cycleRequests_eq _ fun k hk => ?_
    have hm := ((mem_dependencyCycleKeys (Dict.nodup_keys _)).mp hk).1
    obtain ⟨item, hi, rfl⟩ := mem_map.mp hm
    rw [ha item (mem_unrefused.mp hi).1]
    rfl
  unfold settleRefusals
  simp only [propagateDependencyRefusals_eq, ok_bind, hcyc,
    refuseAll_eq _ (stated_cycleRefusals _), refuseAll_eq _ (stated_overlapRequests _),
    refuseMutationOverlap]
  rfl

theorem assessScope_eq (s : ContractShape) (f : FactsByScope) (c : String) :
    assessScope s init f c m = .ok (assessedRefusals s init f c m, acceptedFacts s init f c) := by
  have hl : assessScope s init f c m =
      .ok (init.requestedScope.foldl (fun st issue =>
        (recordAll st.1 (assessIssue s init f c issue).1,
          acceptFact st.2 issue.scopeKey (assessIssue s init f c issue).2)) (m, ∅)) := by
    refine foldlM_eq_ok (fun st issue _ => ?_) (m, ∅)
    dsimp only
    rw [refuseAll_eq _ fun r hr => (against_assessIssue r hr).stated]
    rfl
  rw [hl]
  unfold assessedRefusals acceptedFacts recordAll
  rw [foldl_flatMap]
  -- the two components of the state do not see each other
  clear hl
  generalize (∅ : AcceptedFacts) = accepted₀
  induction init.requestedScope generalizing m accepted₀ with
  | nil => rfl
  | cons issue scope ih => exact ih _

end Settled

/-! ### The outcome -/

section Outcome

variable {sp : ContractShape} {init : DeliveryInitiation}
  {snap : DeliveryPlanningSnapshot}

theorem approved_of_acceptedOf (hd : init.Valid) :
    ∀ item ∈ (acceptedOf sp init snap).items, init.approved item.1 = some item.2.issue :=
  fun _ hi => approved_of_accepted hd hi

theorem keyed_candidatesOf (hd : init.Valid) : Keyed (candidatesOf sp init snap) :=
  (keyed_acceptedFacts hd).unrefused _

variable {fact : DeliveryIssuePlanningSnapshot} {d : DeliveryDependency}

/-- A fact without a refusal speaks for an approved Issue and has passed all checks. -/
theorem candidate_spec (hd : init.Valid) {k : ScopeKey}
    (h : (k, fact) ∈ (candidatesOf sp init snap).items) :
    fact.issue ∈ init.requestedScope ∧ fact.scopeKey = k ∧
      IsFactOf init (factsByScope snap) snap.capturedAt fact.issue fact ∧
      factRefusals sp init (factsByScope snap) snap.capturedAt fact.issue fact = [] := by
  obtain ⟨hm, hf⟩ := mem_unrefused.mp h
  obtain ⟨hi, hk, hfc⟩ := isFactOf_of_accepted hd hm
  exact ⟨hi, hk, hfc, factRefusals_eq_nil hd hm (hasRefusal_of_settledRefusals_eq_false hf)⟩

theorem dependencyRefusals_eq_nil {f : FactsByScope} {c : String} {i : IssueScope}
    (h : factRefusals sp init f c i fact = []) (hd : d ∈ fact.dependencies) :
    dependencyRefusals init f c i fact d = [] := by
  rw [factRefusals, append_eq_nil_iff] at h
  exact flatMap_eq_nil_iff.mp h.2 d hd

theorem dependencyRefusals_eq_nil_iff {f : FactsByScope} {c : String} {is : IssueScope} :
    dependencyRefusals init f c is fact d = [] ↔
      (∀ i, init.approved d.issue.scopeKey = some i → i = d.issue) ∧
      validateDependencySatisfaction d fact f c init.provenance.createdAt = [] ∧
      (d.satisfied = false → (init.approved d.issue.scopeKey).isSome) := by
  simp only [dependencyRefusals, append_eq_nil_iff, refuseIf_eq_nil_iff, and_assoc]
  refine and_congr ?_ (and_congr_right fun _ => ?_)
  · cases init.approved d.issue.scopeKey with
    | none => simp
    | some i => simp
  · cases init.approved d.issue.scopeKey with
    | none => simp
    | some i => simp

/-- **A fact without a refusal waits only for facts without a refusal**, and names their
Issues exactly. -/
theorem candidates_closed (hd : init.Valid) {k : ScopeKey}
    (h : (k, fact) ∈ (candidatesOf sp init snap).items)
    (hdep : d ∈ fact.dependencies) (huns : d.satisfied = false) :
    ∃ fact', (d.issue.scopeKey, fact') ∈ (candidatesOf sp init snap).items ∧
      fact'.issue = d.issue := by
  obtain ⟨-, -, -, hp⟩ := candidate_spec hd h
  obtain ⟨hec, -, ha⟩ := dependencyRefusals_eq_nil_iff.mp (dependencyRefusals_eq_nil hp hdep)
  obtain ⟨i, hi⟩ := isSome_iff_exists.mp (ha huns)
  obtain rfl := hec i hi
  obtain ⟨hmem, hf⟩ := mem_unrefused.mp h
  have hf' : hasRefusal (refusalsOf sp init snap) d.issue.scopeKey = false :=
    propagated_closed (keyed_acceptedFacts hd) _ hmem hf hdep huns (ha huns)
  -- an approved Issue without a refusal has an accepted fact
  have hcov : hasRefusal (directRefusals sp init snap) d.issue.scopeKey ∨
      ∃ fact', (d.issue.scopeKey, fact') ∈ (acceptedOf sp init snap).items :=
    covered hd _ (hd.approved_eq_some_iff.mp hi).1
  rcases hcov with href | ⟨fact', hfc'⟩
  · rw [hasRefusal_of_settledRefusals_eq_false hf'] at href
    cases href
  · refine ⟨fact', mem_unrefused.mpr ⟨hfc', hf'⟩, ?_⟩
    have ha := approved_of_accepted hd hfc'
    rw [hi] at ha
    exact (some.inj ha).symm

theorem eligible_cases (s : ContractShape) (init : DeliveryInitiation)
    (snap : DeliveryPlanningSnapshot) :
    ((outcome s init snap).eligible = candidatesOf s init snap ∧
      (candidatesOf s init snap).items.length ≤ init.budget.maxWorkerStarts) ∨
    (outcome s init snap).eligible = ∅ := by
  by_cases hec : exceedsBudget init (candidatesOf s init snap) = true
  · exact .inr (if_pos hec)
  · refine .inl ⟨if_neg hec, ?_⟩
    simpa [exceedsBudget] using hec

theorem mem_candidates_of_eligible {item : KeyedFact}
    (h : item ∈ (outcome sp init snap).eligible.items) :
    item ∈ (candidatesOf sp init snap).items := by
  rcases eligible_cases sp init snap with ⟨heq, -⟩ | hemp
  · rw [heq] at h
    exact h
  · rw [hemp] at h
    cases h

section

variable (hd : init.Valid)
include hd

theorem keyed_eligible : Keyed (outcome sp init snap).eligible :=
  fun item hi => keyed_candidatesOf hd item (mem_candidates_of_eligible hi)

theorem readyRounds_eligible : (readyRounds (outcome sp init snap).eligible).2 = [] :=
  readyRounds_stuck_eq_nil (settledRefusals_acyclic (approved_of_acceptedOf hd)
    (keyed_acceptedFacts hd) fun _ hi => mem_candidates_of_eligible hi)

theorem parallel_pos : 0 < init.budget.maxParallelWorkers := by
  have h := hd.budget_valid
  simp only [DeliveryBudget.validate, bind_unit_eq_ok_iff, checkPositiveInt_eq_ok_iff] at h
  exact h.1

theorem issue_valid_of_eligible :
    ∀ item ∈ (outcome sp init snap).eligible.items, item.2.issue.validate = .ok () :=
  fun _ hi => hd.issue_valid _ (candidate_spec hd (mem_candidates_of_eligible hi)).1

theorem buildDependencyWaves_eligible :
    buildDependencyWaves (outcome sp init snap).eligible init.budget.maxParallelWorkers =
      .ok ((outcome sp init snap).waves, []) := by
  rw [buildDependencyWaves_eq (keyed_eligible hd) (issue_valid_of_eligible hd) (parallel_pos hd),
    readyRounds_eligible hd]
  rfl

/-- **The compiler settles on `outcome`**: nothing on the way raises, and the repair of
cycles is not reached. -/
theorem resolveScope_eq : resolveScope sp init snap = .ok (outcome sp init snap) := by
  have hw := @buildDependencyWaves_eligible sp init snap hd
  have hs : settleRefusals init (acceptedOf sp init snap)
      (directRefusals sp init snap) = .ok (refusalsOf sp init snap) :=
    settleRefusals_eq (approved_of_acceptedOf hd)
  have hsch : schedule init (acceptedOf sp init snap)
      (refusalsOf sp init snap) = .ok (outcome sp init snap) := by
    change buildDependencyWaves (withinBudget init (candidatesOf sp init snap))
      init.budget.maxParallelWorkers = _ at hw
    unfold schedule
    rw [refuseAll_eq _ (stated_budgetRequests _ _), ok_bind]
    change (buildDependencyWaves (withinBudget init (candidatesOf sp init snap))
      init.budget.maxParallelWorkers >>= _) = _
    rw [hw]
    rfl
  unfold resolveScope
  dsimp only
  rw [refuseAll_eq _ (stated_outsideRequests _ _), ok_bind, assessScope_eq, ok_bind]
  change (settleRefusals init (acceptedOf sp init snap) (directRefusals sp init snap) >>= _) = _
  rw [hs]
  exact hsch

end

end Outcome

end AgenticPkm.Builderops.Compiler
