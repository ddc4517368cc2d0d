import AgenticPkm.Builderops.Compiler.Contract
import AgenticPkm.Builderops.Compiler.Respelling

/-!
# Two compilations in step

What the compiler does with a snapshot, next to what it does with the same facts in another
order and another spelling.  The facts of the second snapshot are images of those of the
first, under a function that gives each fact a fact that says the same.

A refusal repeats what the fact said, so the refusals need not be the same.  The passes are
followed for any relation between refusal maps that filing preserves and that `hasRefusal` cannot
tell apart.
-/

namespace AgenticPkm.Builderops.Compiler

open List Dict

/-- A function that gives every fact one that says the same. -/
def Respells (ν : DeliveryIssuePlanningSnapshot → DeliveryIssuePlanningSnapshot) : Prop :=
  ∀ f, SameFact (ν f) f

theorem respells_id : Respells id := SameFact.refl

/-- The facts of one list are, in some order, the images of those of another. -/
structure Rearranged (ν : DeliveryIssuePlanningSnapshot → DeliveryIssuePlanningSnapshot)
    (s s' : DeliveryPlanningSnapshot) : Prop where
  capturedAt : s'.capturedAt = s.capturedAt
  issues : s'.issues.Perm (s.issues.map ν)

section Assessment

variable {ν : DeliveryIssuePlanningSnapshot → DeliveryIssuePlanningSnapshot}
  {sh : ContractShape} {init : DeliveryInitiation} {s s' : DeliveryPlanningSnapshot}

theorem Respells.scopeKey (hν : Respells ν) (f : DeliveryIssuePlanningSnapshot) :
    (ν f).scopeKey = f.scopeKey := by
  rw [DeliveryIssuePlanningSnapshot.scopeKey, (hν f).issue]
  rfl

theorem Rearranged.factsOf (h : Rearranged ν s s') (hν : Respells ν) (k : ScopeKey) :
    (factsOf (factsByScope s') k).Perm ((factsOf (factsByScope s) k).map ν) := by
  rw [factsOf_factsByScope, factsOf_factsByScope]
  have hf := h.issues.filter fun f => decide (f.scopeKey = k)
  rw [filter_map] at hf
  simpa only [Function.comp_def, hν.scopeKey] using hf

def FactsInStep (ν : DeliveryIssuePlanningSnapshot → DeliveryIssuePlanningSnapshot)
    (facts facts' : FactsByScope) : Prop :=
  ∀ k, (Compiler.factsOf facts' k).Perm ((Compiler.factsOf facts k).map ν)

namespace FactsInStep

variable {fc fc' : FactsByScope} {ca : String}

theorem cases (h : FactsInStep ν fc fc') (k : ScopeKey) :
    (Compiler.factsOf fc k = [] ∧ Compiler.factsOf fc' k = []) ∨
    (∃ f, Compiler.factsOf fc k = [f] ∧ Compiler.factsOf fc' k = [ν f]) ∨
    (∃ f g l f' g' l', Compiler.factsOf fc k = f :: g :: l ∧
      Compiler.factsOf fc' k = f' :: g' :: l') := by
  have hp := h k
  cases hf : Compiler.factsOf fc k with
  | nil =>
    rw [hf] at hp
    exact .inl ⟨rfl, hp.eq_nil⟩
  | cons f rest =>
    cases rest with
    | nil =>
      rw [hf] at hp
      exact .inr (.inl ⟨f, rfl, hp.eq_singleton⟩)
    | cons g l =>
      rw [hf] at hp
      have hl := hp.length_eq
      cases hf' : Compiler.factsOf fc' k with
      | nil =>
        rw [hf'] at hl
        simp at hl
      | cons f' rest' =>
        cases rest' with
        | nil =>
          rw [hf'] at hl
          simp at hl
        | cons g' l' => exact .inr (.inr ⟨f, g, l, f', g', l', rfl, rfl⟩)

theorem contradictsDelivery_eq (hν : Respells ν) (d : DeliveryDependency)
    (f : DeliveryIssuePlanningSnapshot) (c observedNotBefore : String) :
    contradictsDelivery d (ν f) c observedNotBefore =
      contradictsDelivery d f c observedNotBefore := by
  simp [contradictsDelivery, (hν f).issue, (hν f).authority, (hν f).deliveryStatus]

theorem validateDependencySatisfaction_eq (h : FactsInStep ν fc fc') (hν : Respells ν)
    (d : DeliveryDependency) (f : DeliveryIssuePlanningSnapshot) (c observedNotBefore : String) :
    validateDependencySatisfaction d (ν f) fc' c observedNotBefore =
      validateDependencySatisfaction d f fc c observedNotBefore := by
  unfold validateDependencySatisfaction
  rw [(hν f).issue]
  rcases h.cases d.issue.scopeKey with ⟨heq, heq'⟩ | ⟨x, heq, heq'⟩ |
    ⟨x, y, l, x', y', l', heq, heq'⟩
  · rw [heq, heq']
  · rw [heq, heq']
    cases d.satisfactionEvidence with
    | none => simp only [contradictsDelivery_eq hν]
    | some e => rfl
  · rw [heq, heq']

theorem dependencyRefusals_eq (h : FactsInStep ν fc fc') (hν : Respells ν)
    (i : IssueScope) (f : DeliveryIssuePlanningSnapshot) (d : DeliveryDependency) :
    dependencyRefusals init fc' ca i (ν f) d = dependencyRefusals init fc ca i f d := by
  simp [dependencyRefusals, h.validateDependencySatisfaction_eq hν]

theorem turnedAway_eq (hν : Respells ν) (i : IssueScope) (f : DeliveryIssuePlanningSnapshot) :
    turnedAway init ca i (ν f) = turnedAway init ca i f := by
  simp [turnedAway, (hν f).issue, (hν f).authority, (hν f).scopeRole]

theorem assessIssue (h : FactsInStep ν fc fc') (hν : Respells ν) (i : IssueScope) :
    (∃ r, assessIssue sh init fc ca i = ([r], none) ∧ assessIssue sh init fc' ca i = ([r], none)) ∨
    ∃ f, assessIssue sh init fc ca i = (factRefusals sh init fc ca i f, some f) ∧
      assessIssue sh init fc' ca i = (factRefusals sh init fc' ca i (ν f), some (ν f)) := by
  unfold Compiler.assessIssue
  rcases h.cases i.scopeKey with ⟨heq, heq'⟩ | ⟨x, heq, heq'⟩ | ⟨x, y, l, x', y', l', heq, heq'⟩
  · rw [heq, heq']
    exact .inl ⟨_, rfl, rfl⟩
  · rw [heq, heq']
    cases ht : turnedAway init ca i x with
    | some r =>
      refine .inl ⟨r, ?_, ?_⟩
      · simp [ht]
      · simp [turnedAway_eq hν, ht]
    | none =>
      refine .inr ⟨x, ?_, ?_⟩
      · simp [ht]
      · simp [turnedAway_eq hν, ht]
  · rw [heq, heq']
    exact .inl ⟨_, rfl, rfl⟩

end FactsInStep

theorem Rearranged.factsInStep (h : Rearranged ν s s') (hν : Respells ν) :
    FactsInStep ν (factsByScope s) (factsByScope s') :=
  h.factsOf hν

/-- **The accepted facts are images of each other.** -/
theorem Rearranged.accepted (h : Rearranged ν s s') (hν : Respells ν) (hd : init.Valid) :
    acceptedOf sh init s' = (acceptedOf sh init s).mapValues ν := by
  refine eq_of_items_eq ?_
  change (acceptedOf sh init s').items =
    (acceptedOf sh init s).items.map fun item => (item.1, ν item.2)
  rw [acceptedOf, acceptedOf, items_acceptedFacts hd, items_acceptedFacts hd, h.capturedAt,
    map_filterMap]
  refine filterMap_congr fun issue _ => ?_
  rcases (h.factsInStep hν).assessIssue hν issue with ⟨r, heq, heq'⟩ | ⟨f, heq, heq'⟩
  · rw [heq, heq']
    rfl
  · rw [heq, heq']
    rfl

theorem mem_outsideRequests {r : RefusalRequest} :
    r ∈ outsideRequests init (factsByScope s) ↔
      ∃ f ∈ s.issues, init.approved f.scopeKey = none ∧ r = outsideRequest f.issue := by
  simp only [outsideRequests, mem_flatMap, mem_filter, mem_map, Option.isNone_iff_eq_none]
  constructor
  · rintro ⟨item, ⟨hi, ho⟩, f, hf, rfl⟩
    have hg : ((factsByScope s).get? item.1).getD [] =
        s.issues.filter fun f => f.scopeKey = item.1 := getD_groupBy _ _ _
    rw [mem_items.mp hi, Option.getD_some] at hg
    rw [hg] at hf
    obtain ⟨hm, hk⟩ := mem_filter.mp hf
    rw [decide_eq_true_eq] at hk
    exact ⟨f, hm, hk ▸ ho, rfl⟩
  · rintro ⟨f, hf, ho, rfl⟩
    have hk : f.scopeKey ∈ (factsByScope s).keys := mem_keys_groupBy.mpr ⟨f, hf, rfl⟩
    obtain ⟨g, hg⟩ := Dict.mem_keys.mp hk
    refine ⟨(f.scopeKey, g), ⟨mem_items.mpr hg, ho⟩, f, ?_, rfl⟩
    have heq : ((factsByScope s).get? f.scopeKey).getD [] =
        s.issues.filter fun f' => f'.scopeKey = f.scopeKey := getD_groupBy _ _ _
    rw [hg, Option.getD_some] at heq
    rw [heq]
    exact mem_filter.mpr ⟨hf, decide_eq_true rfl⟩

end Assessment

/-! ### The passes -/

/-- A relation between refusal maps that filing preserves, and that does not matter for
who has a refusal. -/
structure InStep (ν : DeliveryIssuePlanningSnapshot → DeliveryIssuePlanningSnapshot)
    (initiation : DeliveryInitiation) (R : RefusalMap → RefusalMap → Prop) : Prop where
  hasRefusal_eq : ∀ m m', R m m' → ∀ k, hasRefusal m k = hasRefusal m' k
  record : ∀ m m', R m m' → ∀ r, R (recordRefusal m r) (recordRefusal m' r)
  block : ∀ m m', R m m' → ∀ f,
    R (recordRefusal m (blockedRequest f (blockedDependencies initiation m f)))
      (recordRefusal m' (blockedRequest (ν f) (blockedDependencies initiation m' (ν f))))

section Passes

variable {ν : DeliveryIssuePlanningSnapshot → DeliveryIssuePlanningSnapshot}
  {init : DeliveryInitiation} {R : RefusalMap → RefusalMap → Prop} {m m' : RefusalMap}
  {facts : AcceptedFacts}

def respell (ν : DeliveryIssuePlanningSnapshot → DeliveryIssuePlanningSnapshot)
    (item : ScopeKey × DeliveryIssuePlanningSnapshot) :
    ScopeKey × DeliveryIssuePlanningSnapshot :=
  (item.1, ν item.2)

theorem InStep.recordAll (hR : InStep ν init R) (h : R m m')
    (rq : List RefusalRequest) : R (recordAll m rq) (recordAll m' rq) := by
  induction rq generalizing m m' with
  | nil => exact h
  | cons r rq ih => exact ih (hR.record m m' h r)

variable {s s' : RefusalMap × Bool} {candidates : List ScopeKey}

theorem inKeyOrder_mapValues (f : AcceptedFacts) :
    inKeyOrder (f.mapValues ν) = (inKeyOrder f).map (respell ν) :=
  sortedBy_map _ _ _

theorem InStep.unrefused (hR : InStep ν init R) (h : R m m') :
    unrefused (facts.mapValues ν) m' = (unrefused facts m).mapValues ν := by
  have hf : (fun k => !hasRefusal m' k) = fun k => !hasRefusal m k := by
    funext k
    rw [hR.hasRefusal_eq m m' h]
  unfold Compiler.unrefused
  rw [hf, Dict.keep_mapValues]

theorem withinBudget_mapValues :
    withinBudget init (facts.mapValues ν) = (withinBudget init facts).mapValues ν := by
  unfold withinBudget exceedsBudget
  rw [Dict.length_items_mapValues]
  split
  · rfl
  · rfl

variable (hν : Respells ν)
include hν

theorem InStep.blockedDependencies_isEmpty (hR : InStep ν init R)
    (h : R m m') (f : DeliveryIssuePlanningSnapshot) :
    (blockedDependencies init m f).isEmpty = (blockedDependencies init m' (ν f)).isEmpty := by
  have hp : (blockedDependencies init m' (ν f)).Perm
      (blockedDependencies init m f) := by
    unfold blockedDependencies
    simp only [hR.hasRefusal_eq m m' h]
    exact ((hν f).dependencies.filter _).map _
  rw [Bool.eq_iff_iff, List.isEmpty_iff, List.isEmpty_iff]
  exact ⟨fun hn => (hn ▸ hp).eq_nil, fun hn => (hn ▸ hp.symm).eq_nil⟩

theorem InStep.spreadStep (hR : InStep ν init R) (h : R s.1 s'.1)
    (hf : s.2 = s'.2) (item : KeyedFact) :
    R (spreadStep init s item).1 (spreadStep init s' (respell ν item)).1 ∧
      (spreadStep init s item).2 = (spreadStep init s' (respell ν item)).2 := by
  unfold Compiler.spreadStep
  have hs : (hasRefusal s.1 item.1 ||
      (blockedDependencies init s.1 item.2).isEmpty) =
      (hasRefusal s'.1 (respell ν item).1 ||
        (blockedDependencies init s'.1 (respell ν item).2).isEmpty) := by
    rw [hR.hasRefusal_eq _ _ h, hR.blockedDependencies_isEmpty hν h]
    rfl
  simp only [hs]
  split
  · exact ⟨h, hf⟩
  · exact ⟨hR.block _ _ h item.2, rfl⟩

theorem InStep.foldl_spreadStep (hR : InStep ν init R)
    (i : List KeyedFact) (h : R s.1 s'.1) (hf : s.2 = s'.2) :
    R (i.foldl (Compiler.spreadStep init) s).1
        ((i.map (respell ν)).foldl (Compiler.spreadStep init) s').1 ∧
      (i.foldl (Compiler.spreadStep init) s).2 =
        ((i.map (respell ν)).foldl (Compiler.spreadStep init) s').2 := by
  induction i generalizing s s' with
  | nil => exact ⟨h, hf⟩
  | cons item i ih =>
    obtain ⟨hstep, hs⟩ := hR.spreadStep hν h hf item
    exact ih hstep hs

theorem InStep.propagated (hR : InStep ν init R) (h : R m m') :
    R (propagated init facts m) (propagated init (facts.mapValues ν) m') := by
  unfold Compiler.propagated
  rw [length_items_mapValues]
  refine settle_lockstep (fun m m' h => ?_) _ h
  unfold spreadPass
  rw [inKeyOrder_mapValues]
  exact hR.foldl_spreadStep hν (inKeyOrder facts) h rfl

theorem mem_waitsFor_mapValues {k k' : ScopeKey} :
    k' ∈ waitsFor (facts.mapValues ν) candidates k ↔ k' ∈ waitsFor facts candidates k := by
  rw [mem_waitsFor, mem_waitsFor]
  constructor
  · rintro ⟨f, hf, d, hd, hr⟩
    obtain ⟨item, hi, heq⟩ := mem_map.mp hf
    cases heq
    exact ⟨item.2, hi, d, (hν item.2).dependencies.mem_iff.mp hd, hr⟩
  · rintro ⟨f, hf, d, hd, hr⟩
    exact ⟨ν f, mem_map.mpr ⟨_, hf, rfl⟩, d, (hν f).dependencies.mem_iff.mpr hd, hr⟩

theorem dependencyCycleKeys_mapValues (hn : candidates.Nodup) :
    dependencyCycleKeys (facts.mapValues ν) candidates = dependencyCycleKeys facts candidates := by
  have hedg : (fun a b => b ∈ waitsFor (facts.mapValues ν) candidates a) =
      fun a b => b ∈ waitsFor facts candidates a := by
    funext a b
    exact propext (mem_waitsFor_mapValues hν)
  have hm : ∀ k, k ∈ dependencyCycleKeys (facts.mapValues ν) candidates ↔
      k ∈ dependencyCycleKeys facts candidates := by
    intro k
    rw [mem_dependencyCycleKeys hn, mem_dependencyCycleKeys hn, hedg]
  -- both are the same selection of the candidates
  unfold dependencyCycleKeys at hm ⊢
  dsimp only at hm ⊢
  congr 1
  refine filter_congr fun k hk => ?_
  have := hm k
  rw [mem_sortedBy, mem_sortedBy, mem_filter, mem_filter] at this
  rw [Bool.eq_iff_iff]
  simpa [hk] using this

theorem cycleRefusals_mapValues :
    cycleRefusals init (facts.mapValues ν) = cycleRefusals init facts := by
  unfold cycleRefusals
  rw [keys_mapValues, dependencyCycleKeys_mapValues hν facts.nodup_keys]

theorem factsOverlap_respell (f g : DeliveryIssuePlanningSnapshot) :
    factsOverlap (ν f) (ν g) = factsOverlap f g := by
  have hp : ∀ f, (mutationPaths (ν f)).Perm (mutationPaths f) := fun f => (hν f).paths.filter _
  unfold factsOverlap
  rw [(hp f).any_eq]
  congr 1
  funext path
  exact (hp g).any_eq

theorem overlapRequests_map (l : List DeliveryIssuePlanningSnapshot) :
    overlapRequests (l.map ν) = overlapRequests l := by
  induction l with
  | nil => rfl
  | cons f l ih =>
    rw [map_cons, overlapRequests, overlapRequests, ih, filter_map, flatMap_map]
    simp [Function.comp_def, factsOverlap_respell hν, (hν _).issue]

theorem refuseMutationOverlap_mapValues :
    refuseMutationOverlap (facts.mapValues ν) = refuseMutationOverlap facts := by
  unfold refuseMutationOverlap
  rw [values_mapValues, sortedBy_map, overlapRequests_map hν]
  simp [(hν _).issue]

/-- **The refusals stay in step through all passes.** -/
theorem InStep.settled (hR : InStep ν init R) (h : R m m') :
    R (settledRefusals init facts m) (settledRefusals init (facts.mapValues ν) m') := by
  have hs : R (Compiler.propagated init facts m)
      (Compiler.propagated init (facts.mapValues ν) m') := hR.propagated hν h
  have hcyc : R (afterCycles init facts m)
      (afterCycles init (facts.mapValues ν) m') := by
    unfold afterCycles
    dsimp only
    rw [hR.unrefused hs, cycleRefusals_mapValues hν]
    exact hR.recordAll hs _
  have hs' : R (Compiler.propagated init facts (afterCycles init facts m))
      (Compiler.propagated init (facts.mapValues ν)
        (afterCycles init (facts.mapValues ν) m')) := hR.propagated hν hcyc
  have ho : R (afterOverlaps init facts m)
      (afterOverlaps init (facts.mapValues ν) m') := by
    unfold afterOverlaps
    dsimp only
    rw [hR.unrefused hs', refuseMutationOverlap_mapValues hν]
    exact hR.recordAll hs' _
  exact hR.propagated hν ho

/-! ### The waves -/

theorem isReady_mapValues (c : List ScopeKey)
    (item : KeyedFact) :
    isReady (facts.mapValues ν) c (respell ν item) = isReady facts c item := by
  unfold isReady
  rw [keys_mapValues]
  exact (hν item.2).dependencies.all_eq

theorem readyRounds_mapValues :
    (readyRounds (facts.mapValues ν)).1 = (readyRounds facts).1.map (List.map (respell ν)) := by
  unfold readyRounds
  rw [length_items_mapValues]
  have hr : (fun c item => isReady (facts.mapValues ν) c (respell ν item)) = isReady facts := by
    funext c item
    exact isReady_mapValues hν c item
  have hm : rounds (isReady (facts.mapValues ν)) Prod.fst facts.items.length []
      (facts.items.map (respell ν)) = _ := rounds_map (respell ν) _ [] facts.items
  rw [hr] at hm
  exact congrArg Prod.fst hm

theorem waveChunks_map (mp : ℕ)
    (rs : List (List KeyedFact)) :
    waveChunks mp (rs.map (List.map (respell ν))) =
      (waveChunks mp rs).map (List.map (respell ν)) := by
  have hk : (fun item => readyKey (respell ν item)) = readyKey := by
    funext item
    unfold readyKey respell
    rw [(hν item.2).priority]
  unfold waveChunks
  rw [flatMap_map, map_flatMap]
  refine flatMap_congr fun ready _ => ?_
  rw [sortedBy_map, hk, chunksOf_map, length_map]

theorem waveIssues_map (chunk : List KeyedFact) :
    waveIssues (chunk.map (respell ν)) = waveIssues chunk := by
  unfold waveIssues
  rw [map_map]
  congr 1
  exact map_congr_left fun item _ => (hν item.2).issue

theorem numberWaves_map (i : ℕ)
    (chunks : List (List KeyedFact)) :
    numberWaves i (chunks.map (List.map (respell ν))) = numberWaves i chunks := by
  induction chunks generalizing i with
  | nil => rfl
  | cons chunk chunks ih => rw [map_cons, numberWaves, numberWaves, ih, waveIssues_map hν]

theorem dependencyWaves_mapValues (maxParallel : ℕ) :
    dependencyWaves (facts.mapValues ν) maxParallel = dependencyWaves facts maxParallel := by
  unfold dependencyWaves
  rw [readyRounds_mapValues hν, waveChunks_map hν, numberWaves_map hν]

theorem budgetRequests_mapValues :
    budgetRequests init (facts.mapValues ν) = budgetRequests init facts := by
  unfold budgetRequests exceedsBudget
  rw [length_items_mapValues, values_mapValues, map_map]
  have hr : budgetRequest ∘ ν = budgetRequest := by
    funext f
    simp [budgetRequest, (hν f).issue]
  rw [hr]

/-- **The outcomes are in step**: the same waves, images of the same facts, and refusals
that are related. -/
theorem InStep.scheduled (hR : InStep ν init R) (h : R m m') :
    R (scheduled init facts m).refusals
        (scheduled init (facts.mapValues ν) m').refusals ∧
      (scheduled init (facts.mapValues ν) m').eligible =
        (scheduled init facts m).eligible.mapValues ν ∧
      (scheduled init (facts.mapValues ν) m').waves = (scheduled init facts m).waves := by
  unfold Compiler.scheduled
  simp only [hR.unrefused h, budgetRequests_mapValues hν, withinBudget_mapValues,
    dependencyWaves_mapValues hν]
  exact ⟨hR.recordAll h _, trivial, trivial⟩

end Passes

/-! ### Refusals under the same keys -/

def SameKeys (m m' : RefusalMap) : Prop := ∀ key, key ∈ m.keys ↔ key ∈ m'.keys

section SameKeys

variable {ν : DeliveryIssuePlanningSnapshot → DeliveryIssuePlanningSnapshot}
  {sp : ContractShape} {init : DeliveryInitiation} {s s' : DeliveryPlanningSnapshot}
  {m m' : RefusalMap}

theorem SameKeys.recordAll (h : SameKeys m m') {r r' : List RefusalRequest} (hr : SameRequests r r')
    : SameKeys (recordAll m r) (recordAll m' r') := by
  intro key
  have hk := hr key
  rw [mem_map, mem_map] at hk
  rw [mem_keys_recordAll, mem_keys_recordAll, h key, hk]

theorem SameKeys.record (h : SameKeys m m') {r r' : RefusalRequest} (hr : r.key = r'.key) :
    SameKeys (recordRefusal m r) (recordRefusal m' r') := by
  intro key
  rw [mem_keys_recordRefusal, mem_keys_recordRefusal, h key, hr]

theorem inStep_sameKeys (hν : Respells ν) (init : DeliveryInitiation) : InStep ν init SameKeys where
  hasRefusal_eq := by
    intro m m' h k
    rw [Bool.eq_iff_iff, hasRefusal_iff, hasRefusal_iff]
    exact exists_congr fun key => and_congr_left fun _ => h key
  record := fun m m' h r => h.record rfl
  block := by
    intro m m' h f
    refine h.record ?_
    simp [RefusalRequest.key, blockedRequest, (hν f).issue]

theorem Rearranged.direct (h : Rearranged ν s s') (hν : Respells ν) :
    SameKeys (directRefusals sp init s) (directRefusals sp init s') := by
  have ho : SameRequests (outsideRequests init (factsByScope s))
      (outsideRequests init (factsByScope s')) := by
    refine fun key => ?_
    simp only [mem_map, mem_outsideRequests]
    constructor
    · rintro ⟨r, ⟨f, hf, hout, rfl⟩, rfl⟩
      refine ⟨_, ⟨ν f, h.issues.mem_iff.mpr (mem_map_of_mem hf), ?_, rfl⟩, ?_⟩
      · rw [hν.scopeKey]
        exact hout
      · rw [(hν f).issue]
    · rintro ⟨r, ⟨f, hf, hout, rfl⟩, rfl⟩
      obtain ⟨g, hg, rfl⟩ := mem_map.mp (h.issues.mem_iff.mp hf)
      refine ⟨_, ⟨g, hg, ?_, rfl⟩, ?_⟩
      · rw [← hν.scopeKey]
        exact hout
      · rw [(hν g).issue]
  have ha : ∀ issue, SameRequests
      (assessIssue sp init (factsByScope s) s.capturedAt issue).1
      (assessIssue sp init (factsByScope s') s.capturedAt issue).1 := by
    intro issue
    rcases (h.factsInStep hν).assessIssue hν issue with ⟨r, heq, heq'⟩ | ⟨f, heq, heq'⟩
    · rw [heq, heq']
      exact .refl _
    · rw [heq, heq']
      exact (hν f).symm.factRefusals sp fun d =>
        ((h.factsInStep hν).dependencyRefusals_eq hν issue f d).symm
  have hemp : SameKeys ∅ ∅ := fun _ => Iff.rfl
  unfold directRefusals assessedRefusals
  refine (hemp.recordAll ho).recordAll fun key => ?_
  rw [h.capturedAt]
  simp only [map_flatMap, mem_flatMap]
  exact exists_congr fun issue => and_congr_right fun _ => ha issue key

/-- **The outcomes of rearranged snapshots**: refusals under the same keys, images of the
same facts, the same waves. -/
theorem Rearranged.outcome (h : Rearranged ν s s') (hν : Respells ν) (hd : init.Valid) :
    SameKeys (outcome sp init s).refusals (outcome sp init s').refusals ∧
      (outcome sp init s').eligible = (outcome sp init s).eligible.mapValues ν ∧
      (outcome sp init s').waves = (outcome sp init s).waves := by
  have hR := inStep_sameKeys hν init
  have hs : SameKeys (refusalsOf sp init s) (settledRefusals init
      ((acceptedOf sp init s).mapValues ν) (directRefusals sp init s')) :=
    hR.settled hν (h.direct hν)
  unfold Compiler.outcome refusalsOf
  rw [h.accepted hν hd]
  exact hR.scheduled hν hs

end SameKeys

end AgenticPkm.Builderops.Compiler
