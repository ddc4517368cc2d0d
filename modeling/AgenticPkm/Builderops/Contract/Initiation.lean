import AgenticPkm.Lib.Text
import AgenticPkm.Builderops.Contract.Plan

/-!
# The delivery initiation

The approved request a plan is compiled from, with the checks its constructor makes, and
`validate_delivery_plan_evidence`, which holds a plan against the initiation it claims to
compile.

An initiation names the Issues that may be delivered, in key order, and the exclusions approved
with them.  An exclusion is typed when it carries the Issue it leaves out.  Exclusions are compared
by their casefolded keys.
-/

namespace AgenticPkm.Builderops

open List Bool

structure ApprovalEvidence where
  approvalId : String
  approver : ActorIdentity
  approvedAt : String
  approvedPayloadHash : String
  sourceRefs : List SourceRef
  deriving DecidableEq, Repr, Inhabited

namespace ApprovalEvidence

/-- The dump of an approval; its two flags are literals of the contract. -/
def toJson (a : ApprovalEvidence) : Json :=
  .obj [("approval_id", .str a.approvalId), ("approver", a.approver.toJson),
    ("approved_at", .str a.approvedAt), ("approved_payload_hash", .str a.approvedPayloadHash),
    ("source_refs", .arr (a.sourceRefs.map SourceRef.toJson)), ("immutable", .bool true),
    ("effect_authority", .bool false)]

def validate (a : ApprovalEvidence) : Except String Unit := do
  checkNonEmptyStr "approval_id" a.approvalId
  a.approver.validate
  checkAll SourceRef.validate a.sourceRefs
  raiseIf a.sourceRefs.isEmpty "approval evidence must carry a source ref"
  requireUnique (a.sourceRefs.map SourceRef.key) "approval source refs"
  requireSortedBy SourceRef.key a.sourceRefs
    "approval source refs must use canonical sorted order"

end ApprovalEvidence

structure DeliveryInitiation where
  initiationId : String
  requestedScope : List IssueScope
  exclusions : List ScopeExclusion
  approvalEvidence : ApprovalEvidence
  policyProfile : PolicyProfile
  budget : DeliveryBudget
  sourceAuthorities : List AuthoritySnapshot
  provenance : Provenance
  deriving DecidableEq, Repr, Inhabited

namespace DeliveryInitiation

def toJson (d : DeliveryInitiation) : Json :=
  .obj [("schema_version", .str deliveryInitiationVersion),
    ("initiation_id", .str d.initiationId),
    ("requested_scope", .arr (d.requestedScope.map IssueScope.toJson)),
    ("exclusions", .arr (d.exclusions.map ScopeExclusion.toJson)),
    ("approval_evidence", d.approvalEvidence.toJson),
    ("policy_profile", d.policyProfile.toJson), ("budget", d.budget.toJson),
    ("source_authorities", .arr (d.sourceAuthorities.map AuthoritySnapshot.toJson)),
    ("provenance", d.provenance.toJson)]

def contentHash (hash : Json → String) (d : DeliveryInitiation) : String := hash d.toJson

/-- `delivery_initiation_approval_hash`, on the fields of an initiation. -/
def approvalHash (hash : Json → String) (d : DeliveryInitiation) : String :=
  hash <| .obj [("schema_version", .str deliveryInitiationVersion),
    ("initiation_id", .str d.initiationId),
    ("requested_scope", .arr (d.requestedScope.map IssueScope.toJson)),
    ("exclusions", .arr (d.exclusions.map ScopeExclusion.toJson)),
    ("policy_profile", d.policyProfile.toJson), ("budget", d.budget.toJson),
    ("source_authorities", .arr (d.sourceAuthorities.map AuthoritySnapshot.toJson)),
    ("provenance", d.provenance.toJson),
    ("approval_context", .obj [("approval_id", .str d.approvalEvidence.approvalId),
      ("approver", d.approvalEvidence.approver.toJson),
      ("approved_at", .str d.approvalEvidence.approvedAt),
      ("source_refs", .arr (d.approvalEvidence.sourceRefs.map SourceRef.toJson)),
      ("immutable", .bool true), ("effect_authority", .bool false)])]

def ref (hash : Json → String) (d : DeliveryInitiation) : ContractRef where
  schemaVersion := deliveryInitiationVersion
  contractId := d.initiationId
  contentHash := d.contentHash hash

/-- The field constraints of an initiation, before its own validator runs. -/
def validateFields (d : DeliveryInitiation) : Except String Unit := do
  checkNonEmptyStr "initiation_id" d.initiationId
  checkAll IssueScope.validate d.requestedScope
  checkAll ScopeExclusion.validate d.exclusions
  d.approvalEvidence.validate
  d.policyProfile.validate
  d.budget.validate
  checkAll AuthoritySnapshot.validate d.sourceAuthorities
  d.provenance.validate

def validateInitiation (hash : Json → String) (d : DeliveryInitiation) : Except String Unit := do
  raiseIf (decide (d.approvalEvidence.approvedAt > d.provenance.createdAt))
    "initiation approval must precede initiation provenance"
  raiseIf d.requestedScope.isEmpty "requested scope must not be empty"
  requireUnique (d.requestedScope.map IssueScope.scopeKey) "requested scope"
  requireUnique (d.exclusions.map ScopeExclusion.scopeKey) "scope exclusions"
  requireUnique (d.sourceAuthorities.map AuthoritySnapshot.authorityId) "source authority IDs"
  requireSortedBy IssueScope.sortKey d.requestedScope
    "requested scope must use canonical sorted order"
  requireSortedBy ScopeExclusion.scopeKey d.exclusions
    "scope exclusions must use canonical sorted order"
  requireSortedBy AuthoritySnapshot.authorityId d.sourceAuthorities
    "source authorities must use canonical sorted order"
  raiseIf (d.sourceAuthorities.any fun a => decide (a.observedAt > d.approvalEvidence.approvedAt))
    "source authority observations must precede approval"
  let authorities := d.sourceAuthorities.map fun a => (a.authorityId, a.contentHash)
  let missing := (d.requestedScope.filter fun i =>
    !authorities.contains (i.authorityId, i.contractHash)).map IssueScope.authorityId
  raiseIf (!missing.isEmpty)
    ("source authorities must bind every requested scope item: " ++ toString missing)
  raiseIf (d.approvalEvidence.approvedPayloadHash != d.approvalHash hash)
    "approval evidence must bind the exact canonical initiation payload"

/-- An initiation as its constructor checks it. -/
def validate (hash : Json → String) (d : DeliveryInitiation) : Except String Unit := do
  d.validateFields
  d.validateInitiation hash

/-- The approved Issue of a scope key: a lookup in the dictionary of the requested
scope. -/
def approved (d : DeliveryInitiation) (k : String × ℕ) : Option IssueScope :=
  lastBy IssueScope.scopeKey k d.requestedScope

end DeliveryInitiation

/-- The text an exclusion names an Issue by. -/
def IssueScope.scopeRef (i : IssueScope) : String :=
  i.repository ++ "#" ++ toString i.issueNumber

/-! ### A plan against its initiation -/

section Evidence

variable (casefold : Casefold)

/-- The check of one exclusion of a plan: an Issue that was approved is left out by its
exact identity, and only by it. -/
def exclusionEvidence (initiation : DeliveryInitiation) (exclusion : ScopeExclusion) :
    Except String Unit :=
  let approvedRefs := initiation.requestedScope.map IssueScope.scopeRef
  let foldedRef := casefold.fold exclusion.scopeKey
  match exclusion.omittedIssue with
  | none =>
      raiseIf (approvedRefs.contains foldedRef)
        "plan issue exclusions require typed omitted-Issue identity"
  | some omitted => do
      raiseIf (!approvedRefs.contains foldedRef)
        "plan issue exclusion is outside approved initiation scope"
      let issue ← getOrRaise (initiation.approved omitted.scopeKey) "KeyError"
      raiseIf (issue != omitted) "plan issue exclusion must preserve exact approved authority"

/-- The casefolded keys of the exclusions that name an Issue. -/
def issueExclusionRefs (exclusions : List ScopeExclusion) : List String :=
  (exclusions.filter fun x => x.omittedIssue.isSome).map fun x => casefold.fold x.scopeKey

def validateDeliveryPlanEvidence (hash : Json → String) (plan : DeliveryPlan)
    (initiation : DeliveryInitiation) : Except String Unit := do
  raiseIf (plan.initiationRef != initiation.ref hash)
    "plan does not bind the supplied initiation"
  raiseIf (decide (initiation.provenance.createdAt > plan.provenance.createdAt))
    "plan provenance must follow initiation provenance"
  raiseIf (plan.finalScope.any fun i => initiation.approved i.scopeKey != some i)
    "plan final scope must be an exact subset of approved scope"
  let finalKeys := plan.finalScope.map IssueScope.scopeKey
  let finalRefs := plan.finalScope.map IssueScope.scopeRef
  let missingRefs := (initiation.requestedScope.filter fun i =>
    !finalKeys.contains i.scopeKey).map IssueScope.scopeRef
  let foldedRefs := plan.exclusions.map fun x => casefold.fold x.scopeKey
  raiseIf (!decide foldedRefs.Nodup) "plan exclusions must use unique canonical identities"
  checkAll (exclusionEvidence casefold initiation) plan.exclusions
  let excludedRefs := issueExclusionRefs casefold plan.exclusions
  raiseIf (finalRefs.any excludedRefs.contains)
    "plan final scope and issue exclusions must be disjoint"
  raiseIf (!(excludedRefs.all missingRefs.contains) || !(missingRefs.all excludedRefs.contains))
    "plan issue exclusions must explain every omitted approved issue exactly"
  raiseIf (!(initiation.exclusions.all plan.exclusions.contains))
    "plan must preserve initiation exclusions"
  raiseIf (plan.policyProfile != initiation.policyProfile)
    "plan policy profile must match approved initiation"
  raiseIf (plan.budget != initiation.budget) "plan budget must match approved initiation"

end Evidence

/-! ### What a validated initiation promises -/

/-- The facts about an initiation that the compiler rests on. -/
structure DeliveryInitiation.Valid (d : DeliveryInitiation) : Prop where
  id_nonempty : d.initiationId ≠ ""
  issue_valid : ∀ i ∈ d.requestedScope, i.validate = .ok ()
  scope_present : d.requestedScope ≠ []
  scope_distinct : DistinctKeys IssueScope.scopeKey d.requestedScope
  scope_sorted : d.requestedScope.Pairwise fun i j => i.sortKey ≤ j.sortKey
  exclusion_valid : ∀ x ∈ d.exclusions, x.validate = .ok ()
  policy_valid : d.policyProfile.validate = .ok ()
  budget_valid : d.budget.validate = .ok ()

/-- **A validated initiation is valid.** -/
theorem DeliveryInitiation.valid_of_validate {hash : Json → String} {d : DeliveryInitiation}
    (h : d.validate hash = .ok ()) : d.Valid := by
  simp only [validate, validateFields, validateInitiation, bind_unit_eq_ok_iff,
    checkAll_eq_ok_iff, checkNonEmptyStr_eq_ok_iff, raiseIf_eq_ok_iff, requireUnique_eq_ok_iff,
    requireSortedBy_eq_ok_iff] at h
  obtain ⟨⟨hid, hi, hec, -, hpol, hb, -, -⟩, -, hp, hd, -, -, hs, -⟩ := h
  refine ⟨hid, hi, ?_, hd, hs, hec, hpol, hb⟩
  intro hn
  rw [hn] at hp
  simp at hp

namespace DeliveryInitiation.Valid

variable {d : DeliveryInitiation}

theorem approved_eq_some_iff (hd : d.Valid) {k : String × ℕ} {i : IssueScope} :
    d.approved k = some i ↔ i ∈ d.requestedScope ∧ i.scopeKey = k :=
  hd.scope_distinct.lastBy_eq_some_iff

end DeliveryInitiation.Valid

/-! ### Texts that name Issues -/

variable {i : IssueScope}

theorem IssueScope.scopeKey_eq_of_scopeRef_eq {j : IssueScope} (h : i.scopeRef = j.scopeRef) :
    i.scopeKey = j.scopeKey := by
  have hl := congrArg String.toList h
  simp only [scopeRef, String.toList_append, append_assoc] at hl
  obtain ⟨hr, hn⟩ := append_separator_inj (notMem_toString_nat rfl i.issueNumber)
    (notMem_toString_nat rfl j.issueNumber) hl
  exact Prod.ext (String.toList_injective hr) (toString_nat_inj hn)

theorem textBytes_eq_flatMap (s : String) :
    textBytes s = s.toList.flatMap String.utf8EncodeChar := by
  have h : s.toByteArray = (s.toList.flatMap String.utf8EncodeChar).toByteArray :=
    String.utf8Encode_toList.symm
  rw [textBytes, String.toUTF8, h, data_toByteArray]

theorem repositoryBytes_of_isRepositoryId {s : String} (h : isRepositoryId s) :
    ∀ b ∈ textBytes s, (isRepositoryByte b || b == 47) = true := by
  simp only [isRepositoryId, and_eq_true, all_eq_true] at h
  obtain ⟨⟨⟨-, ho⟩, -⟩, hn⟩ := h
  intro b hb
  rw [← takeWhile_append_dropWhile (p := fun b => b != 47) (l := textBytes s)] at hb
  rcases mem_append.mp hb with hb | hb
  · rw [ho b hb, Bool.true_or]
  · -- what is left of the text starts with the slash
    cases hr : (textBytes s).dropWhile (fun b => b != 47) with
    | nil =>
      rw [hr] at hb
      cases hb
    | cons sl rest =>
      have hs : (sl != 47) = false := by
        have hh := head_dropWhile_not (fun b : UInt8 => b != 47) (l := textBytes s)
          (by rw [hr]; exact cons_ne_nil _ _)
        simpa only [hr, head_cons] using hh
      rw [hr] at hb hn
      rcases mem_cons.mp hb with rfl | hb
      · rw [bne_eq_false_iff_eq.mp hs]
        rfl
      · rw [hn b hb, Bool.true_or]

theorem isFolded_of_repositoryBytes {c : Char}
    (h : ∀ b ∈ String.utf8EncodeChar c, (isRepositoryByte b || b == 47) = true) :
    (c.toNat < 128 && !(65 ≤ c.toNat && c.toNat ≤ 90)) = true := by
  have ha : ∀ v < 128, (isRepositoryByte (UInt8.ofNat v) || UInt8.ofNat v == 47) = true →
      (decide (v < 128) && !(decide (65 ≤ v) && decide (v ≤ 90))) = true := by decide
  have hbey : ∀ v < 64, (isRepositoryByte (UInt8.ofNat (v + 128)) ||
      UInt8.ofNat (v + 128) == 47) = false := by decide
  by_cases hc : c.val.toNat ≤ 127
  · refine ha c.toNat (Nat.lt_succ_of_le hc) (h _ ?_)
    rw [String.utf8EncodeChar, if_pos hc]
    exact mem_singleton_self _
  · -- beyond ASCII the last byte is a continuation byte
    have hl : UInt8.ofNat (c.val.toNat % 64 + 128) ∈ String.utf8EncodeChar c := by
      rw [String.utf8EncodeChar, if_neg hc]
      split
      · simp
      · split <;> simp
    have hb := h _ hl
    rw [hbey _ (Nat.mod_lt _ (by omega))] at hb
    cases hb

theorem IssueScope.isFolded_scopeRef (h : i.validate = .ok ()) : isFolded i.scopeRef := by
  simp only [validate, checkRepositoryId, bind_unit_eq_ok_iff, raiseIf_eq_ok_iff,
    not_eq_false'] at h
  have hbyt := repositoryBytes_of_isRepositoryId h.1
  rw [textBytes_eq_flatMap] at hbyt
  rw [isFolded, all_eq_true]
  intro c hc
  rw [scopeRef, String.toList_append, String.toList_append, mem_append, mem_append] at hc
  rcases hc with (hc | hc) | hc
  · exact isFolded_of_repositoryBytes fun b hb => hbyt b (mem_flatMap.mpr ⟨c, hc, hb⟩)
  · have hh : c ∈ ['#'] := hc
    rw [mem_singleton.mp hh]
    decide
  · have hd : c.isDigit := by
      by_contra hn
      exact notMem_toString_nat (by simpa using hn) i.issueNumber hc
    simp only [Char.isDigit, and_eq_true, decide_eq_true_eq, ge_iff_le] at hd
    have hhg : c.toNat ≤ 57 := hd.2
    have hl : 48 ≤ c.toNat := hd.1
    simp only [and_eq_true, decide_eq_true_eq, not_eq_true', and_eq_false_iff,
      decide_eq_false_iff_not]
    omega

theorem IssueScope.fold_scopeRef (c : Casefold) (h : i.validate = .ok ()) :
    c.fold i.scopeRef = i.scopeRef :=
  c.fold_of_isFolded _ (isFolded_scopeRef h)

end AgenticPkm.Builderops
