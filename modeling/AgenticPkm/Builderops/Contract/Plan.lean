import AgenticPkm.Builderops.Contract.Basic

/-!
# The delivery plan and the acceptance profile

The immutable plan a run executes and the profile that says what its terminal
delivery means, with the checks their constructors make.

A canonical hash is the SHA-256 digest of the canonical JSON text of a value.  It
is a parameter `hash : Json → String` from here on; a statement that needs more
of it than being a function says so.
-/

namespace AgenticPkm.Builderops

open List

structure DependencyWave where
  waveIndex : ℕ
  issues : List IssueScope
  deriving DecidableEq, Repr, Inhabited

namespace DependencyWave

def toJson (w : DependencyWave) : Json :=
  .obj [("wave_index", .num w.waveIndex), ("issues", .arr (w.issues.map IssueScope.toJson))]

def validate (w : DependencyWave) : Except String Unit := do
  checkAll IssueScope.validate w.issues
  raiseIf w.issues.isEmpty "dependency wave must not be empty"
  requireUnique (w.issues.map IssueScope.scopeKey) "wave issues"
  requireSortedBy IssueScope.sortKey w.issues "wave issues must use canonical sorted order"

end DependencyWave

inductive IssueState
  | opened
  | closed
  deriving DecidableEq, Repr, Inhabited

def IssueState.text : IssueState → String
  | .opened => "open"
  | .closed => "closed"

structure ExpectedAuthorityState where
  issue : IssueScope
  issueState : IssueState
  requiredLabels : List String
  forbiddenLabels : List String
  expectedContractHash : String
  deriving DecidableEq, Repr, Inhabited

namespace ExpectedAuthorityState

def toJson (e : ExpectedAuthorityState) : Json :=
  .obj [("issue", e.issue.toJson), ("issue_state", .str e.issueState.text),
    ("required_labels", .ofTexts e.requiredLabels),
    ("forbidden_labels", .ofTexts e.forbiddenLabels),
    ("expected_contract_hash", .str e.expectedContractHash)]

def validate (e : ExpectedAuthorityState) : Except String Unit := do
  e.issue.validate
  checkAll (checkNonEmptyStr "required_labels") e.requiredLabels
  checkAll (checkNonEmptyStr "forbidden_labels") e.forbiddenLabels
  requireUnique e.requiredLabels "required labels"
  requireUnique e.forbiddenLabels "forbidden labels"
  requireSortedBy id e.requiredLabels "required labels must use canonical sorted order"
  requireSortedBy id e.forbiddenLabels "forbidden labels must use canonical sorted order"
  let overlap := e.requiredLabels.filter e.forbiddenLabels.contains
  raiseIf (!overlap.isEmpty)
    ("labels cannot be both required and forbidden: " ++ toString (sortedSet overlap))
  raiseIf (e.expectedContractHash != e.issue.contractHash)
    "expected contract hash must bind the issue contract"

end ExpectedAuthorityState

/-- `_EFFECT_ALLOWLIST`: the effects every compiled plan allows. -/
def effectAllowlist : List EffectClass :=
  [.awaitCi, .claimIssue, .closeIssue, .launchWorker, .mergePullRequest,
    .recordDeliveryReceipt, .recordKnownDefect, .requestReview]

theorem mem_effectAllowlist (e : EffectClass) : e ∈ effectAllowlist := by
  cases e <;> decide

structure DeliveryPlan where
  planId : String
  initiationRef : ContractRef
  inputAuthorities : List AuthoritySnapshot
  finalScope : List IssueScope
  exclusions : List ScopeExclusion
  dependencyWaves : List DependencyWave
  expectedStates : List ExpectedAuthorityState
  policyProfile : PolicyProfile
  budget : DeliveryBudget
  effectAllowlist : List EffectClass
  provenance : Provenance
  deriving DecidableEq, Repr, Inhabited

namespace DeliveryPlan

def toJson (p : DeliveryPlan) : Json :=
  .obj [("schema_version", .str deliveryPlanVersion), ("plan_id", .str p.planId),
    ("initiation_ref", p.initiationRef.toJson),
    ("input_authorities", .arr (p.inputAuthorities.map AuthoritySnapshot.toJson)),
    ("final_scope", .arr (p.finalScope.map IssueScope.toJson)),
    ("exclusions", .arr (p.exclusions.map ScopeExclusion.toJson)),
    ("dependency_waves", .arr (p.dependencyWaves.map DependencyWave.toJson)),
    ("expected_states", .arr (p.expectedStates.map ExpectedAuthorityState.toJson)),
    ("policy_profile", p.policyProfile.toJson), ("budget", p.budget.toJson),
    ("effect_allowlist", .ofTexts (p.effectAllowlist.map EffectClass.text)),
    ("provenance", p.provenance.toJson)]

def ref (hash : Json → String) (p : DeliveryPlan) : ContractRef where
  schemaVersion := deliveryPlanVersion
  contractId := p.planId
  contentHash := hash p.toJson

def waveItems (p : DeliveryPlan) : List IssueScope := p.dependencyWaves.flatMap (·.issues)

/-- The input authority bound to an Issue: its authority id and contract hash. -/
def boundAuthority (p : DeliveryPlan) (i : IssueScope) : Option AuthoritySnapshot :=
  lastBy (fun a : AuthoritySnapshot => (a.authorityId, a.contentHash))
    (i.authorityId, i.contractHash) p.inputAuthorities

/-- An expected state the input authority of its Issue contradicts. -/
def contradicted (p : DeliveryPlan) (e : ExpectedAuthorityState) : Bool :=
  match p.boundAuthority e.issue with
  | none => true
  | some snapshot =>
      snapshot.observedState != e.issueState.text ||
        !(e.requiredLabels.all snapshot.observedLabels.contains) ||
          e.forbiddenLabels.any snapshot.observedLabels.contains

/-- The field constraints of a plan, before its own validator runs. -/
def validateFields (p : DeliveryPlan) : Except String Unit := do
  checkNonEmptyStr "plan_id" p.planId
  p.initiationRef.validate
  checkAll AuthoritySnapshot.validate p.inputAuthorities
  checkAll IssueScope.validate p.finalScope
  checkAll ScopeExclusion.validate p.exclusions
  checkAll DependencyWave.validate p.dependencyWaves
  checkAll ExpectedAuthorityState.validate p.expectedStates
  p.policyProfile.validate
  p.budget.validate
  p.provenance.validate

def validatePlan (p : DeliveryPlan) : Except String Unit := do
  raiseIf (p.initiationRef.schemaVersion != deliveryInitiationVersion)
    "plan initiation ref must bind DeliveryInitiation.v1"
  raiseIf p.finalScope.isEmpty "final scope must not be empty"
  let scopeKeys := p.finalScope.map IssueScope.scopeKey
  requireUnique scopeKeys "final scope"
  requireUnique (p.exclusions.map ScopeExclusion.scopeKey) "scope exclusions"
  requireUnique (p.inputAuthorities.map AuthoritySnapshot.authorityId) "input authority IDs"
  requireSortedBy IssueScope.sortKey p.finalScope "final scope must use canonical sorted order"
  requireSortedBy ScopeExclusion.scopeKey p.exclusions
    "scope exclusions must use canonical sorted order"
  requireSortedBy AuthoritySnapshot.authorityId p.inputAuthorities
    "input authorities must use canonical sorted order"
  requireSortedBy (fun e : ExpectedAuthorityState => e.issue.sortKey) p.expectedStates
    "expected states must use canonical sorted order"
  raiseIf (p.inputAuthorities.any fun a => decide (a.observedAt > p.provenance.createdAt))
    "input authority observations must precede plan provenance"
  raiseIf (p.dependencyWaves.map DependencyWave.waveIndex
      != List.range p.dependencyWaves.length)
    "dependency waves must use contiguous zero-based indices"
  let waveKeys := p.waveItems.map IssueScope.scopeKey
  raiseIf (!decide waveKeys.Nodup || !(waveKeys.all scopeKeys.contains) ||
      !(scopeKeys.all waveKeys.contains))
    "dependency waves must cover final scope exactly once"
  raiseIf (p.waveItems.any fun i =>
      lastBy IssueScope.scopeKey i.scopeKey p.finalScope != some i)
    "dependency waves must preserve exact final-scope authority"
  raiseIf (p.dependencyWaves.any fun w => decide (w.issues.length > p.budget.maxParallelWorkers))
    "dependency waves must not exceed max_parallel_workers"
  let expectedKeys := p.expectedStates.map fun e => e.issue.scopeKey
  raiseIf (!decide expectedKeys.Nodup || !(expectedKeys.all scopeKeys.contains) ||
      !(scopeKeys.all expectedKeys.contains))
    "expected states must cover final scope exactly once"
  raiseIf (p.expectedStates.any fun e =>
      lastBy IssueScope.scopeKey e.issue.scopeKey p.finalScope != some e.issue)
    "expected states must preserve exact final-scope authority"
  let missing := (p.finalScope.filter fun i => (p.boundAuthority i).isNone).map
    IssueScope.authorityId
  raiseIf (!missing.isEmpty)
    ("input authorities must bind every final scope item: " ++ toString missing)
  raiseIf (p.expectedStates.any p.contradicted)
    "input authority snapshot contradicts expected state or labels"
  raiseIf p.effectAllowlist.isEmpty "effect allowlist must not be empty"
  requireUnique p.effectAllowlist "effect allowlist"
  requireSortedBy EffectClass.text p.effectAllowlist
    "effect allowlist must use canonical sorted order"

/-- A plan as its constructor and its strict re-parse check it. -/
def validate (p : DeliveryPlan) : Except String Unit := do
  p.validateFields
  p.validatePlan

end DeliveryPlan

/-! ### What a validated plan promises -/

/-- The facts about a plan that the reducer and the evidence checks rest on. -/
structure DeliveryPlan.Valid (p : DeliveryPlan) : Prop where
  issue_valid : ∀ i ∈ p.finalScope, i.validate = .ok ()
  scope_distinct : DistinctKeys IssueScope.scopeKey p.finalScope
  authority_distinct : DistinctKeys AuthoritySnapshot.authorityId p.inputAuthorities
  authority_bound : ∀ i ∈ p.finalScope, ∃ a ∈ p.inputAuthorities,
    a.authorityId = i.authorityId ∧ a.contentHash = i.contractHash
  wave_covers : ∀ i ∈ p.finalScope, ∃ w ∈ p.dependencyWaves, i ∈ w.issues
  expected_covers : ∀ i ∈ p.finalScope, ∃ e ∈ p.expectedStates, e.issue = i
  checks_nonempty : ∀ name ∈ p.policyProfile.requiredCheckNames, name ≠ ""
  checks_present : p.policyProfile.requiredCheckNames ≠ []
  checks_distinct : p.policyProfile.requiredCheckNames.Nodup
  checks_sorted : p.policyProfile.requiredCheckNames.Pairwise (· ≤ ·)

variable {p : DeliveryPlan}

theorem DeliveryPlan.fields_of_validate (h : p.validate = .ok ()) :
    (∀ i ∈ p.finalScope, i.validate = .ok ()) ∧ p.policyProfile.validate = .ok () := by
  simp only [validate, validateFields, bind_unit_eq_ok_iff, checkAll_eq_ok_iff] at h
  exact ⟨h.1.2.2.2.1, h.1.2.2.2.2.2.2.2.1⟩

/-- **A validated plan is valid.** -/
theorem DeliveryPlan.valid_of_validate (h : p.validate = .ok ()) : p.Valid := by
  obtain ⟨hiss, hpol⟩ := fields_of_validate h
  simp only [validate, validatePlan, bind_unit_eq_ok_iff, raiseIf_eq_ok_iff,
    requireUnique_eq_ok_iff, Bool.or_eq_false_iff, Bool.not_eq_false'] at h
  obtain ⟨-, -, -, hsc, -, hau, -, -, -, -, -, -, ⟨⟨-, -⟩, hwa⟩, hwv, -,
    ⟨⟨-, -⟩, hexp⟩, hep, hms, -⟩ := h
  simp only [all_eq_true, contains_iff_mem, mem_map, forall_exists_index,
    and_imp, forall_apply_eq_imp_iff₂] at hwa hexp
  simp only [PolicyProfile.validate, bind_unit_eq_ok_iff, checkAll_eq_ok_iff,
    checkNonEmptyStr_eq_ok_iff, requireUnique_eq_ok_iff, requireSortedBy_eq_ok_iff,
    raiseIf_eq_ok_iff] at hpol
  obtain ⟨-, -, -, hnm, hpr, hds, hsr⟩ := hpol
  -- an Issue sharing its key with a planned one that is preserved exactly is that one
  have exact_of_key : ∀ i ∈ p.finalScope, ∀ j, i.scopeKey = j.scopeKey →
      lastBy IssueScope.scopeKey j.scopeKey p.finalScope = some j → i = j := by
    intro i hi j hk hj
    have hi' := (DistinctKeys.lastBy_eq_some_iff hsc).mpr ⟨hi, hk⟩
    rw [hj] at hi'
    exact (Option.some.inj hi').symm
  refine ⟨hiss, hsc, hau, ?_, ?_, ?_, hnm, ?_, hds, hsr⟩
  · intro i hi
    have hbd : p.boundAuthority i ≠ none := by
      intro hno
      have hmem : i.authorityId ∈ (p.finalScope.filter fun i =>
          (p.boundAuthority i).isNone).map IssueScope.authorityId :=
        mem_map.mpr ⟨i, mem_filter.mpr ⟨hi, by simp [hno]⟩, rfl⟩
      rw [isEmpty_iff.mp hms] at hmem
      simp at hmem
    obtain ⟨a, ha⟩ := Option.ne_none_iff_exists'.mp hbd
    obtain ⟨hmem, hkey⟩ := lastBy_eq_some ha
    exact ⟨a, hmem, (Prod.mk.inj hkey).1, (Prod.mk.inj hkey).2⟩
  · intro i hi
    obtain ⟨j, hj, hk⟩ := hwa i hi
    have hex : lastBy IssueScope.scopeKey j.scopeKey p.finalScope = some j := by
      have := any_eq_false.mp hwv j hj
      simpa using this
    obtain rfl := exact_of_key i hi j hk.symm hex
    simpa [waveItems] using hj
  · intro i hi
    obtain ⟨e, he, hk⟩ := hexp i hi
    have hex : lastBy IssueScope.scopeKey e.issue.scopeKey p.finalScope = some e.issue := by
      have := any_eq_false.mp hep e he
      simpa using this
    exact ⟨e, he, (exact_of_key i hi e.issue hk.symm hex).symm⟩
  · intro hnil
    rw [hnil] at hpr
    simp at hpr

variable {i j : IssueScope}

theorem DeliveryPlan.Valid.eq_of_scopeKey (hp : p.Valid) (hi : i ∈ p.finalScope)
    (hj : j ∈ p.finalScope) (h : i.scopeKey = j.scopeKey) : i = j :=
  hp.scope_distinct.eq_of_key_eq hi hj h

theorem DeliveryPlan.Valid.eq_of_authorityId (hp : p.Valid) (hi : i ∈ p.finalScope)
    (hj : j ∈ p.finalScope) (h : i.authorityId = j.authorityId) : i = j :=
  hp.eq_of_scopeKey hi hj (IssueScope.scopeKey_eq_of_authorityId_eq
    (hp.issue_valid i hi) (hp.issue_valid j hj) h)

/-! ### The acceptance profile -/

structure DeliveryAcceptanceProfile where
  profileId : String
  requiredEvidence : List AcceptanceEvidenceKind
  provenance : Provenance
  deriving DecidableEq, Repr, Inhabited

namespace DeliveryAcceptanceProfile

def toJson (p : DeliveryAcceptanceProfile) : Json :=
  .obj [("schema_version", .str deliveryAcceptanceProfileVersion),
    ("profile_id", .str p.profileId),
    ("required_evidence", .ofTexts (p.requiredEvidence.map AcceptanceEvidenceKind.text)),
    ("provenance", p.provenance.toJson)]

def contentHash (hash : Json → String) (p : DeliveryAcceptanceProfile) : String := hash p.toJson

def validate (p : DeliveryAcceptanceProfile) : Except String Unit := do
  checkNonEmptyStr "profile_id" p.profileId
  p.provenance.validate
  raiseIf p.requiredEvidence.isEmpty "acceptance profile must require explicit delivery evidence"
  requireUnique p.requiredEvidence "acceptance profile evidence"
  requireSortedBy AcceptanceEvidenceKind.text p.requiredEvidence
    "acceptance profile evidence must use canonical sorted order"

def unmetEvidence (p : DeliveryAcceptanceProfile) (observed : List AcceptanceEvidenceKind) :
    List AcceptanceEvidenceKind :=
  p.requiredEvidence.filter fun kind => !observed.contains kind

end DeliveryAcceptanceProfile

end AgenticPkm.Builderops
