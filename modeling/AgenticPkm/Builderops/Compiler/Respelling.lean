import AgenticPkm.Builderops.Compiler.Plans

/-!
# Facts that say the same

The canonical payload of a fact forgets the order of its lists, the white space around its
texts and the spelling of its paths.  Two facts that agree on the rest say the same, and a
compiler that could tell them apart would compile different plans under one identity.  No
check of a fact can.
-/

namespace AgenticPkm.Builderops.Compiler

open List

/-- Two facts agree up to the order of their lists and the spelling of their texts. -/
structure SameFact (f g : DeliveryIssuePlanningSnapshot) : Prop where
  issue : f.issue = g.issue
  authority : f.authority = g.authority
  priority : f.priority = g.priority
  riskClass : f.riskClass = g.riskClass
  deliveryStatus : f.deliveryStatus = g.deliveryStatus
  linkedPrHead : f.linkedPrHead = g.linkedPrHead
  parentIssue : f.parentIssue = g.parentIssue
  scopeRole : f.scopeRole = g.scopeRole
  anchors : (f.sourceAnchors.map strip).Perm (g.sourceAnchors.map strip)
  targets : (f.verifyTargets.map strip).Perm (g.verifyTargets.map strip)
  evidence : f.resolutionEvidence.Perm g.resolutionEvidence
  sbsImpact : (f.sbsImpact.map SbsImpactEntry.canonical).Perm
    (g.sbsImpact.map SbsImpactEntry.canonical)
  dependencies : f.dependencies.Perm g.dependencies
  paths : (f.likelyMutationPaths.map normalizePath).Perm
    (g.likelyMutationPaths.map normalizePath)

theorem SameFact.refl (f : DeliveryIssuePlanningSnapshot) : SameFact f f :=
  ⟨rfl, rfl, rfl, rfl, rfl, rfl, rfl, rfl, .refl _, .refl _, .refl _, .refl _, .refl _, .refl _⟩

/-! ### What the payload determines -/

theorem Priority.text_injective : Function.Injective Priority.text := by
  intro a b h
  cases a <;> cases b <;> first | rfl | (exact absurd h (by decide))

theorem RiskClass.text_injective : Function.Injective RiskClass.text := by
  intro a b h
  cases a <;> cases b <;> first | rfl | (exact absurd h (by decide))

theorem DeliveryStatus.text_injective : Function.Injective DeliveryStatus.text := by
  intro a b h
  cases a <;> cases b <;> first | rfl | (exact absurd h (by decide))

theorem ScopeRole.text_injective : Function.Injective ScopeRole.text := by
  intro a b h
  cases a <;> cases b <;> first | rfl | (exact absurd h (by decide))

theorem ResolutionTargetKind.text_injective : Function.Injective ResolutionTargetKind.text := by
  intro a b h
  cases a <;> cases b <;> first | rfl | (exact absurd h (by decide))

theorem ResolutionResolverId.text_injective : Function.Injective ResolutionResolverId.text := by
  intro a b h
  cases a <;> cases b <;> first | rfl | (exact absurd h (by decide))

variable {α : Type}

/-- An absent field is told from a present one that does not dump to `null`. -/
theorem ofOption_injective {f : α → Json} (hf : Function.Injective f) (hn : ∀ a, f a ≠ .null) :
    Function.Injective (Json.ofOption f) := by
  intro a b h
  cases a with
  | none =>
    cases b with
    | none => rfl
    | some b => exact absurd h.symm (hn b)
  | some a =>
    cases b with
    | none => exact absurd h (hn a)
    | some b => exact congrArg some (hf h)

theorem IssueContractResolutionEvidence.toJson_injective :
    Function.Injective IssueContractResolutionEvidence.toJson := by
  rintro ⟨a, c, k, t, i, r, h, o⟩ ⟨a', c', k', t', i', r', h', o'⟩ heq
  simp only [toJson, Json.obj.injEq, List.cons.injEq, Prod.mk.injEq, Json.str.injEq, true_and,
    ResolutionTargetKind.text_injective.eq_iff, ResolutionResolverId.text_injective.eq_iff,
    and_true] at heq
  obtain ⟨rfl, rfl, rfl, rfl, rfl, rfl, rfl, rfl⟩ := heq
  rfl

theorem DeliveryDependencySatisfactionEvidence.toJson_injective :
    Function.Injective DeliveryDependencySatisfactionEvidence.toJson := by
  rintro ⟨a, c, e, h, o⟩ ⟨a', c', e', h', o'⟩ heq
  simp only [toJson, Json.obj.injEq, List.cons.injEq, Prod.mk.injEq, Json.str.injEq, true_and,
    and_true] at heq
  obtain ⟨rfl, rfl, rfl, rfl, rfl⟩ := heq
  rfl

theorem DeliveryDependency.toJson_injective : Function.Injective DeliveryDependency.toJson := by
  rintro ⟨i, s, e⟩ ⟨i', s', e'⟩ heq
  have hev := ofOption_injective DeliveryDependencySatisfactionEvidence.toJson_injective
    (fun a h => by cases h)
  simp only [toJson, Json.obj.injEq, List.cons.injEq, Prod.mk.injEq, Json.bool.injEq, true_and,
    IssueScope.toJson_injective.eq_iff, hev.eq_iff, and_true] at heq
  obtain ⟨rfl, rfl, rfl⟩ := heq
  rfl

section Payload

variable {hash : Json → String} {f g : DeliveryIssuePlanningSnapshot}

/-- **Facts with one payload say the same.**  Nothing is asked of the hash: it only orders
the parts. -/
theorem sameFact_of_payload_eq (h : canonicalIssuePayload hash f = canonicalIssuePayload hash g) :
    SameFact f g := by
  have hhd : Function.Injective (Json.ofOption Json.str) :=
    ofOption_injective (fun a b h => Json.str.inj h) (fun a h => by cases h)
  have hpr : Function.Injective (Json.ofOption IssueScope.toJson) :=
    ofOption_injective IssueScope.toJson_injective (fun a h => by cases h)
  simp only [canonicalIssuePayload, Json.obj.injEq, List.cons.injEq, Prod.mk.injEq, Json.str.injEq,
    Json.arr.injEq, true_and, and_true, IssueScope.toJson_injective.eq_iff,
    AuthoritySnapshot.toJson_injective.eq_iff, Priority.text_injective.eq_iff,
    RiskClass.text_injective.eq_iff, DeliveryStatus.text_injective.eq_iff,
    ScopeRole.text_injective.eq_iff, hhd.eq_iff, hpr.eq_iff, ofTexts_injective.eq_iff] at h
  obtain ⟨hiss, hau, hprior, hrs, hst, hln, hpar, hrl, han, htg, hev, hsbs, hdp, hpt⟩ := h
  exact ⟨hiss, hau, hprior, hrs, hst, hln, hpar, hrl,
    perm_of_sortedBy_eq han, perm_of_sortedBy_eq htg,
    (map_perm_map_iff IssueContractResolutionEvidence.toJson_injective).mp
      (perm_of_sortedBy_eq hev),
    perm_of_sortedBy_eq hsbs,
    (map_perm_map_iff DeliveryDependency.toJson_injective).mp (perm_of_sortedBy_eq hdp),
    perm_of_sortedBy_eq hpt⟩

/-- The values whose hashes order the parts of a fact's payload. -/
def DeliveryIssuePlanningSnapshot.hashedParts (fact : DeliveryIssuePlanningSnapshot) : List Json :=
  fact.resolutionEvidence.map IssueContractResolutionEvidence.toJson ++
    fact.sbsImpact.map SbsImpactEntry.canonical ++
    fact.dependencies.map DeliveryDependency.toJson

/-- The values whose hashes order the payload of a snapshot. -/
def hashedValues (hash : Json → String) (s : DeliveryPlanningSnapshot) : List Json :=
  s.issues.flatMap DeliveryIssuePlanningSnapshot.hashedParts ++
    s.issues.map (canonicalIssuePayload hash)

/-- The hash tells the values apart. -/
def CollisionFree (hash : Json → String) (values : List Json) : Prop :=
  ∀ a ∈ values, ∀ b ∈ values, hash a = hash b → a = b

theorem payload_eq_of_sameFact (hf : CollisionFree hash f.hashedParts) (h : SameFact f g) :
    canonicalIssuePayload hash f = canonicalIssuePayload hash g := by
  have hid : ∀ l : List String, ∀ a ∈ l, ∀ b ∈ l, id a = id b → a = b := fun _ _ _ _ _ heq => heq
  have hev : sortedBy hash (f.resolutionEvidence.map IssueContractResolutionEvidence.toJson) =
      sortedBy hash (g.resolutionEvidence.map IssueContractResolutionEvidence.toJson) :=
    sortedBy_eq_of_perm (fun a ha b hb => hf a
      (mem_append_left _ (mem_append_left _ ha)) b
      (mem_append_left _ (mem_append_left _ hb))) (h.evidence.map _)
  have hs : sortedBy hash (f.sbsImpact.map SbsImpactEntry.canonical) =
      sortedBy hash (g.sbsImpact.map SbsImpactEntry.canonical) :=
    sortedBy_eq_of_perm (fun a ha b hb => hf a
      (mem_append_left _ (mem_append_right _ ha)) b
      (mem_append_left _ (mem_append_right _ hb))) h.sbsImpact
  have hd : sortedBy hash (f.dependencies.map DeliveryDependency.toJson) =
      sortedBy hash (g.dependencies.map DeliveryDependency.toJson) :=
    sortedBy_eq_of_perm (fun a ha b hb => hf a (mem_append_right _ ha) b
      (mem_append_right _ hb)) (h.dependencies.map _)
  simp only [canonicalIssuePayload, h.issue, h.authority, h.priority, h.riskClass,
    h.deliveryStatus, h.linkedPrHead, h.parentIssue, h.scopeRole,
    sortedBy_eq_of_perm (hid _) h.anchors, sortedBy_eq_of_perm (hid _) h.targets,
    sortedBy_eq_of_perm (hid _) h.paths, hev, hs, hd]

end Payload

/-! ### Refusals under the same keys -/

def SameRequests (requests requests' : List RefusalRequest) : Prop :=
  ∀ key, key ∈ requests.map RefusalRequest.key ↔ key ∈ requests'.map RefusalRequest.key

namespace SameRequests

variable {a a' b b' : List RefusalRequest}

theorem refl (a : List RefusalRequest) : SameRequests a a := fun _ => Iff.rfl

theorem of_perm (h : a.Perm b) : SameRequests a b := fun _ => (h.map _).mem_iff

theorem append (h : SameRequests a b) (h' : SameRequests a' b') :
    SameRequests (a ++ a') (b ++ b') := by
  intro key
  rw [map_append, map_append, mem_append, mem_append, h key, h' key]

/-- Both lists are made piece by piece, and a piece of the one has its like in the other. -/
theorem of_pieces {α β : Type} {l : List α} {l' : List β} {p : α → List RefusalRequest}
    {p' : β → List RefusalRequest} (hf : ∀ x ∈ l, ∃ y ∈ l', p x = p' y)
    (hb : ∀ y ∈ l', ∃ x ∈ l, p x = p' y) : SameRequests (l.flatMap p) (l'.flatMap p') := by
  intro key
  simp only [mem_map, mem_flatMap]
  constructor
  · rintro ⟨r, ⟨x, hx, hr⟩, rfl⟩
    obtain ⟨y, hy, heq⟩ := hf x hx
    exact ⟨r, ⟨y, hy, heq ▸ hr⟩, rfl⟩
  · rintro ⟨r, ⟨y, hy, hr⟩, rfl⟩
    obtain ⟨x, hx, heq⟩ := hb y hy
    exact ⟨r, ⟨x, hx, heq ▸ hr⟩, rfl⟩

end SameRequests

/-! ### The checks of facts that say the same -/

theorem cleanValues_eq_of_perm {values values' : List String}
    (h : (values.map strip).Perm (values'.map strip)) :
    cleanValues values = cleanValues values' := by
  have hl : values.length = values'.length := by
    have := h.length_eq
    rwa [length_map, length_map] at this
  have hcl := h.filter fun v => v != ""
  have hs : sortedBy id ((values.map strip).filter fun v => v != "") =
      sortedBy id ((values'.map strip).filter fun v => v != "") :=
    sortedBy_eq_of_perm (fun _ _ _ _ heq => heq) hcl
  simp [cleanValues, hl, hcl.length_eq, hcl.nodup_iff, hs]

theorem contains_eq_of_perm [DecidableEq α] {l l' : List α} (h : l.Perm l') :
    l.contains = l'.contains := by
  funext a
  rw [Bool.eq_iff_iff, contains_iff_mem, contains_iff_mem, h.mem_iff]

namespace SameFact

variable {f g : DeliveryIssuePlanningSnapshot}

section

variable (h : SameFact f g)
include h

theorem sbsEntries :
    (f.sbsImpact.map fun e => (strip e.fieldName, strip e.value)).Perm
      (g.sbsImpact.map fun e => (strip e.fieldName, strip e.value)) := by
  have hcan : ∀ entries : List SbsImpactEntry, entries.map SbsImpactEntry.canonical =
      (entries.map fun e => (strip e.fieldName, strip e.value)).map fun p =>
        Json.obj [("field_name", .str p.1), ("value", .str p.2)] := by
    intro entries
    rw [map_map]
    rfl
  have hi : Function.Injective fun p : String × String =>
      Json.obj [("field_name", .str p.1), ("value", .str p.2)] := by
    rintro ⟨a, b⟩ ⟨a', b'⟩ heq
    simpa using heq
  have hp := h.sbsImpact
  rw [hcan, hcan] at hp
  exact (map_perm_map_iff hi).mp hp

theorem sbsImpactIsComplete_eq :
    sbsImpactIsComplete f.sbsImpact = sbsImpactIsComplete g.sbsImpact := by
  have hf : (f.sbsImpact.map fun e => strip e.fieldName).Perm
      (g.sbsImpact.map fun e => strip e.fieldName) := by
    have := h.sbsEntries.map Prod.fst
    rwa [map_map, map_map] at this
  have hv : (f.sbsImpact.all fun e => strip e.value != "") =
      g.sbsImpact.all fun e => strip e.value != "" := by
    have := h.sbsEntries.all_eq (f := fun p => p.2 != "")
    rwa [all_map, all_map] at this
  simp [sbsImpactIsComplete, hf.length_eq, hf.nodup_iff, hf.all_eq, hv, contains_eq_of_perm hf]

theorem validatePickupAuthority_eq : validatePickupAuthority f = validatePickupAuthority g := by
  simp [validatePickupAuthority, priorityRefusals, h.authority, h.issue, h.priority]

theorem dependenciesAreAmbiguous_eq :
    dependenciesAreAmbiguous f.dependencies = dependenciesAreAmbiguous g.dependencies := by
  simp [dependenciesAreAmbiguous, (h.dependencies.map _).nodup_iff]

theorem declaredTargets_eq (an targets : Bool) :
    declaredTargets f an targets = declaredTargets g an targets := by
  simp [declaredTargets, cleanValues_eq_of_perm h.anchors, cleanValues_eq_of_perm h.targets]

variable {entries : List IssueContractResolutionEvidence} {target : ResolutionTarget}

theorem targetRefusals_eq (capturedAt : String) (target : ResolutionTarget)
    {entries' : List IssueContractResolutionEvidence} (hen : entries.Perm entries') :
    targetRefusals f capturedAt target entries = targetRefusals g capturedAt target entries' := by
  have hm : mismatchedEvidence f target = mismatchedEvidence g target := by
    funext e
    simp [mismatchedEvidence, h.issue]
  have hs : staleEvidence f capturedAt = staleEvidence g capturedAt := by
    funext e
    simp [staleEvidence, h.authority]
  simp [targetRefusals, hm, hs, h.issue, hen.any_eq]

variable {a tr : Bool}

theorem exists_evidence (hi : (target, entries) ∈ (evidenceByTarget f a tr).items) :
    ∃ entries', (target, entries') ∈ (evidenceByTarget g a tr).items ∧ entries.Perm entries' :=
  Dict.exists_group_of_perm (h.evidence.filter _) hi

theorem symm : SameFact g f :=
  ⟨h.issue.symm, h.authority.symm, h.priority.symm, h.riskClass.symm, h.deliveryStatus.symm,
    h.linkedPrHead.symm, h.parentIssue.symm, h.scopeRole.symm, h.anchors.symm, h.targets.symm,
    h.evidence.symm, h.sbsImpact.symm, h.dependencies.symm, h.paths.symm⟩

theorem mem_keys_evidence (hk : target ∈ (evidenceByTarget f a tr).keys) :
    target ∈ (evidenceByTarget g a tr).keys := by
  obtain ⟨item, hi, rfl⟩ := mem_map.mp hk
  obtain ⟨entries', hi', -⟩ := h.exists_evidence hi
  exact mem_map.mpr ⟨_, hi', rfl⟩

theorem any_evidence
    (ha : ((evidenceByTarget f a tr).values.any fun entries => entries.length != 1) = true) :
    ((evidenceByTarget g a tr).values.any fun entries => entries.length != 1) = true := by
  obtain ⟨entries, hen, hl⟩ := any_eq_true.mp ha
  obtain ⟨target, hi⟩ := Dict.mem_values.mp hen
  obtain ⟨entries', hi', hp⟩ := h.exists_evidence hi
  refine any_eq_true.mpr ⟨entries', Dict.mem_values.mpr ⟨target, hi'⟩, ?_⟩
  rw [← hp.length_eq]
  exact hl

theorem resolutionEvidence (c : String) (an t : Bool) :
    SameRequests (validateResolutionEvidence f c an t) (validateResolutionEvidence g c an t) := by
  have hkeys : ∀ target, target ∈ (evidenceByTarget f an t).keys ↔
      target ∈ (evidenceByTarget g an t).keys :=
    fun target => ⟨h.mem_keys_evidence, h.symm.mem_keys_evidence⟩
  have hcn : ∀ target, (evidenceByTarget f an t).keys.contains target =
      (evidenceByTarget g an t).keys.contains target := by
    intro target
    rw [Bool.eq_iff_iff, contains_iff_mem, contains_iff_mem, hkeys]
  have hs : ((evidenceByTarget f an t).values.any fun entries =>
      entries.length != 1) = (evidenceByTarget g an t).values.any fun entries =>
        entries.length != 1 :=
    Bool.eq_iff_iff.mpr ⟨h.any_evidence, h.symm.any_evidence⟩
  have hu : ((evidenceByTarget f an t).keys.any fun target =>
      !(declaredTargets g an t).contains target) =
      (evidenceByTarget g an t).keys.any fun target =>
        !(declaredTargets g an t).contains target := by
    rw [Bool.eq_iff_iff, any_eq_true, any_eq_true]
    exact exists_congr fun target => and_congr_left fun _ => hkeys target
  unfold validateResolutionEvidence
  simp only [h.declaredTargets_eq, h.issue, hcn, hs, hu]
  refine .append (.refl _) (.of_pieces ?_ ?_)
  · intro item hi
    obtain ⟨hm, hd⟩ := mem_filter.mp hi
    obtain ⟨entries', hm', hp⟩ := h.exists_evidence hm
    exact ⟨(item.1, entries'), mem_filter.mpr ⟨hm', hd⟩, h.targetRefusals_eq c item.1 hp⟩
  · intro item hi
    obtain ⟨hm, hd⟩ := mem_filter.mp hi
    obtain ⟨entries, hm', hp⟩ := h.symm.exists_evidence hm
    exact ⟨(item.1, entries), mem_filter.mpr ⟨hm', hd⟩, h.targetRefusals_eq c item.1 hp.symm⟩

/-- **Facts that say the same fail the same checks**, given that this holds for their
dependencies. -/
theorem factRefusals (s : ContractShape) {i : DeliveryInitiation}
    {fc fc' : FactsByScope} {c : String} {is : IssueScope}
    (hd : ∀ d, dependencyRefusals i fc c is f d = dependencyRefusals i fc' c is g d) :
    SameRequests (factRefusals s i fc c is f) (factRefusals s i fc' c is g) := by
  have ht : verifyTargetsAreConcrete s f.verifyTargets =
      verifyTargetsAreConcrete s g.verifyTargets := by
    simp [verifyTargetsAreConcrete, valuesAreConcrete, cleanValues_eq_of_perm h.targets]
  have ha : sourceAnchorsAreConcrete s f.sourceAnchors =
      sourceAnchorsAreConcrete s g.sourceAnchors := by
    simp [sourceAnchorsAreConcrete, valuesAreConcrete, cleanValues_eq_of_perm h.anchors]
  have hf : (f.dependencies.flatMap (dependencyRefusals i fc c is f)).Perm
      (g.dependencies.flatMap (dependencyRefusals i fc' c is g)) := by
    rw [funext hd]
    exact h.dependencies.flatMap_right _
  unfold Compiler.factRefusals
  simp only [h.authority, h.validatePickupAuthority_eq, h.deliveryStatus, h.linkedPrHead, ht,
    ha, h.sbsImpactIsComplete_eq, h.riskClass, h.dependenciesAreAmbiguous_eq]
  refine .append (.append (.append (.append (.append (.refl _) ?_) (.refl _)) (.refl _))
    (.refl _)) (.of_perm hf)
  exact h.resolutionEvidence c _ _

end

end SameFact

end AgenticPkm.Builderops.Compiler
