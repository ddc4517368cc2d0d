import AgenticPkm.Lib.Checks
import AgenticPkm.Lib.Json
import Mathlib.Data.Prod.Lex

/-!
# The small delivery contracts

The vocabulary and the small records of `delivery_orchestration_contracts`: the literals, the field
constraints and the frozen models the larger contracts are made of.  Every model has a `validate`,
which raises what its constructor raises, and a `toJson`, which is its JSON dump.

A `NonEmptyStr` is a text that is already stripped and not empty, a `RepositoryId` one that is
already casefolded; a `Sha256` digest and a `UtcTimestamp` are opaque texts, of which only equality
and order matter here.
-/

namespace AgenticPkm.Builderops

open List

/-! ### Literals -/

/-- The effects a delivery run may propose. -/
inductive EffectClass
  | claimIssue
  | launchWorker
  | awaitCi
  | requestReview
  | mergePullRequest
  | closeIssue
  | recordKnownDefect
  | recordDeliveryReceipt
  deriving DecidableEq, Repr, Inhabited

def EffectClass.text : EffectClass → String
  | .claimIssue => "claim_issue"
  | .launchWorker => "launch_worker"
  | .awaitCi => "await_ci"
  | .requestReview => "request_review"
  | .mergePullRequest => "merge_pull_request"
  | .closeIssue => "close_issue"
  | .recordKnownDefect => "record_known_defect"
  | .recordDeliveryReceipt => "record_delivery_receipt"

/-- The kinds of typed delivery exceptions. -/
inductive ExceptionKind
  | authorityConflict
  | dependencyBlocked
  | malformedResult
  | externalStateUnknown
  | budgetExhausted
  | reviewBlocking
  | executionFailed
  | cancelled
  deriving DecidableEq, Repr, Inhabited

def ExceptionKind.text : ExceptionKind → String
  | .authorityConflict => "authority_conflict"
  | .dependencyBlocked => "dependency_blocked"
  | .malformedResult => "malformed_result"
  | .externalStateUnknown => "external_state_unknown"
  | .budgetExhausted => "budget_exhausted"
  | .reviewBlocking => "review_blocking"
  | .executionFailed => "execution_failed"
  | .cancelled => "cancelled"

/-- The kinds of evidence an acceptance profile may require. -/
inductive AcceptanceEvidenceKind
  | issueClosed
  | knownDefectRecorded
  | pullRequestMerged
  | requiredChecksGreen
  | reviewAccepted
  deriving DecidableEq, Repr, Inhabited

def AcceptanceEvidenceKind.text : AcceptanceEvidenceKind → String
  | .issueClosed => "issue_closed"
  | .knownDefectRecorded => "known_defect_recorded"
  | .pullRequestMerged => "pull_request_merged"
  | .requiredChecksGreen => "required_checks_green"
  | .reviewAccepted => "review_accepted"

/-- What an executed effect reports. -/
inductive EffectOutcomeState
  | claimed
  | workerLaunched
  | checksPassed
  | reviewRecorded
  | merged
  | closed
  | knownDefectRecorded
  | receiptRecorded
  | failed
  deriving DecidableEq, Repr, Inhabited

def EffectOutcomeState.text : EffectOutcomeState → String
  | .claimed => "claimed"
  | .workerLaunched => "worker_launched"
  | .checksPassed => "checks_passed"
  | .reviewRecorded => "review_recorded"
  | .merged => "merged"
  | .closed => "closed"
  | .knownDefectRecorded => "known_defect_recorded"
  | .receiptRecorded => "receipt_recorded"
  | .failed => "failed"

theorem EffectClass.text_injective : Function.Injective EffectClass.text := by
  intro a b h
  cases a <;> cases b <;> first | rfl | (exact absurd h (by decide))

theorem AcceptanceEvidenceKind.text_injective : Function.Injective AcceptanceEvidenceKind.text := by
  intro a b h
  cases a <;> cases b <;> first | rfl | (exact absurd h (by decide))

/-- Evidence kinds sort by their text. -/
instance : LinearOrder AcceptanceEvidenceKind :=
  LinearOrder.lift' AcceptanceEvidenceKind.text AcceptanceEvidenceKind.text_injective

/-! ### Schema versions -/

def deliveryInitiationVersion : String := "builderops.delivery-initiation.v1"
def deliveryPlanVersion : String := "builderops.delivery-plan.v1"
def reducerEventVersion : String := "builderops.delivery-reducer-event.v1"
def reducerEffectVersion : String := "builderops.delivery-reducer-effect.v1"
def workerResultVersion : String := "builderops.delivery-worker-result.v1"
def reviewResultVersion : String := "builderops.delivery-review-result.v1"
def deliveryAcceptanceProfileVersion : String := "builderops.delivery-acceptance-profile.v1"
def workerContextPackVersion : String := "builderops.worker-context-pack.v1"
def workerInvocationVersion : String := "builderops.worker-invocation.v1"

/-! ### Field constraints -/

/-- The UTF-8 bytes of a text.  The patterns below are ASCII, so they are read
off the bytes. -/
def textBytes (s : String) : List UInt8 := s.toUTF8.data.toList

def isDigitByte (b : UInt8) : Bool := 48 ≤ b && b ≤ 57

def isLowerHexByte (b : UInt8) : Bool := isDigitByte b || (97 ≤ b && b ≤ 102)

def isUpperHexByte (b : UInt8) : Bool := isDigitByte b || (65 ≤ b && b ≤ 70)

def isRepositoryByte (b : UInt8) : Bool :=
  isDigitByte b || (97 ≤ b && b ≤ 122) || b == 95 || b == 46 || b == 45

/-- The pattern `^[a-z0-9_.-]+/[a-z0-9_.-]+$`. -/
def isRepositoryId (s : String) : Bool :=
  let owner := (textBytes s).takeWhile (· != 47)
  let name := ((textBytes s).dropWhile (· != 47)).drop 1
  !owner.isEmpty && owner.all isRepositoryByte && !name.isEmpty && name.all isRepositoryByte

/-- The pattern `^(?:[0-9a-f]{40}|[0-9a-f]{64})$`. -/
def isGitSha (s : String) : Bool :=
  ((textBytes s).length == 40 || (textBytes s).length == 64) && (textBytes s).all isLowerHexByte

def checkNonEmptyStr (field value : String) : Except String Unit :=
  raiseIf (value == "") (field ++ ": String should have at least 1 character")

def checkPositiveInt (field : String) (value : ℕ) : Except String Unit :=
  raiseIf (value == 0) (field ++ ": Input should be greater than 0")

def checkRepositoryId (field value : String) : Except String Unit :=
  raiseIf (!isRepositoryId value) (field ++ ": String should match the repository pattern")

def checkGitSha (field value : String) : Except String Unit :=
  raiseIf (!isGitSha value) (field ++ ": String should match the git sha pattern")

/-- `ConfidenceBasisPoints`: between 0 and 10 000. -/
def checkBasisPoints (field : String) (value : ℕ) : Except String Unit :=
  raiseIf (value > 10000) (field ++ ": Input should be less than or equal to 10000")

def requireUnique {α : Type} [DecidableEq α] (values : List α) (label : String) :
    Except String Unit :=
  raiseIf (!decide values.Nodup) (label ++ " must not contain duplicates")

/-- The check that a tuple is written in the order of a key. -/
def requireSortedBy {α κ : Type} [DecidableEq α] [LinearOrder κ] (key : α → κ)
    (values : List α) (msg : String) : Except String Unit :=
  raiseIf (values != sortedBy key values) msg

variable {f : String} {α : Type} {vl : List α} {c : Char}

@[simp] theorem checkNonEmptyStr_eq_ok_iff {v : String} :
    checkNonEmptyStr f v = .ok () ↔ v ≠ "" := by
  simp [checkNonEmptyStr]

@[simp] theorem checkPositiveInt_eq_ok_iff {value : ℕ} :
    checkPositiveInt f value = .ok () ↔ 0 < value := by
  simp [checkPositiveInt, Nat.pos_iff_ne_zero]

@[simp] theorem requireUnique_eq_ok_iff [DecidableEq α] {l : String} :
    requireUnique vl l = .ok () ↔ vl.Nodup := by
  simp [requireUnique]

@[simp] theorem requireSortedBy_eq_ok_iff {κ : Type} [DecidableEq α] [LinearOrder κ] {key : α → κ}
    {msg : String} :
    requireSortedBy key vl msg = .ok () ↔ vl.Pairwise fun a b => key a ≤ key b := by
  simp [requireSortedBy, eq_sortedBy_iff]

/-! ### Models -/

inductive ActorType
  | human
  | builderAgent
  | service
  deriving DecidableEq, Repr, Inhabited

def ActorType.text : ActorType → String
  | .human => "human"
  | .builderAgent => "builder_agent"
  | .service => "service"

structure ActorIdentity where
  actorType : ActorType
  actorId : String
  authorityScope : String
  deriving DecidableEq, Repr, Inhabited

namespace ActorIdentity

def toJson (a : ActorIdentity) : Json :=
  .obj [("actor_type", .str a.actorType.text), ("actor_id", .str a.actorId),
    ("authority_scope", .str a.authorityScope)]

def validate (a : ActorIdentity) : Except String Unit := do
  checkNonEmptyStr "actor_id" a.actorId
  checkNonEmptyStr "authority_scope" a.authorityScope

end ActorIdentity

structure SourceRef where
  sourceType : String
  sourceId : String
  contentHash : String
  deriving DecidableEq, Repr, Inhabited

namespace SourceRef

def key (r : SourceRef) : String ×ₗ String := toLex (r.sourceType, r.sourceId)

def toJson (r : SourceRef) : Json :=
  .obj [("source_type", .str r.sourceType), ("source_id", .str r.sourceId),
    ("content_hash", .str r.contentHash)]

def validate (r : SourceRef) : Except String Unit := do
  checkNonEmptyStr "source_type" r.sourceType
  checkNonEmptyStr "source_id" r.sourceId

end SourceRef

/-- Who made a contract, and from what. -/
structure Provenance where
  createdAt : String
  createdBy : ActorIdentity
  sourceRefs : List SourceRef
  correlationId : String
  deriving DecidableEq, Repr, Inhabited

namespace Provenance

def toJson (p : Provenance) : Json :=
  .obj [("created_at", .str p.createdAt), ("created_by", p.createdBy.toJson),
    ("source_refs", .arr (p.sourceRefs.map SourceRef.toJson)),
    ("correlation_id", .str p.correlationId)]

def validate (p : Provenance) : Except String Unit := do
  p.createdBy.validate
  checkAll SourceRef.validate p.sourceRefs
  checkNonEmptyStr "correlation_id" p.correlationId
  raiseIf p.sourceRefs.isEmpty "provenance must carry at least one source ref"
  requireUnique (p.sourceRefs.map SourceRef.key) "provenance source refs"
  requireSortedBy SourceRef.key p.sourceRefs
    "provenance source refs must use canonical sorted order"

end Provenance

/-- A contract, by its id and the hash of its content. -/
structure ContractRef where
  schemaVersion : String
  contractId : String
  contentHash : String
  deriving DecidableEq, Repr, Inhabited

namespace ContractRef

def toJson (r : ContractRef) : Json :=
  .obj [("schema_version", .str r.schemaVersion), ("contract_id", .str r.contractId),
    ("content_hash", .str r.contentHash)]

def validate (r : ContractRef) : Except String Unit := do
  checkNonEmptyStr "schema_version" r.schemaVersion
  checkNonEmptyStr "contract_id" r.contractId

end ContractRef

/-- An Issue with the hash of its contract. -/
structure IssueScope where
  repository : String
  issueNumber : ℕ
  authorityId : String
  contractHash : String
  deriving DecidableEq, Repr, Inhabited

namespace IssueScope

/-- The key an Issue is known by.  A repository is casefolded when its field is
validated, so the property's own casefold has nothing left to do. -/
def scopeKey (i : IssueScope) : String × ℕ := (i.repository, i.issueNumber)

def sortKey (i : IssueScope) : String ×ₗ ℕ := toLex i.scopeKey

def expectedAuthorityId (repository : String) (issueNumber : ℕ) : String :=
  "github:" ++ repository ++ "/issues/" ++ toString issueNumber

def toJson (i : IssueScope) : Json :=
  .obj [("repository", .str i.repository), ("issue_number", .num i.issueNumber),
    ("authority_id", .str i.authorityId), ("contract_hash", .str i.contractHash)]

def validate (i : IssueScope) : Except String Unit := do
  checkRepositoryId "repository" i.repository
  checkPositiveInt "issue_number" i.issueNumber
  checkNonEmptyStr "authority_id" i.authorityId
  raiseIf (i.authorityId != expectedAuthorityId i.repository i.issueNumber)
    "issue scope authority ID must bind repository and issue"

end IssueScope

structure ScopeExclusion where
  scopeKey : String
  reason : String
  omittedIssue : Option IssueScope
  deriving DecidableEq, Repr, Inhabited

namespace ScopeExclusion

def toJson (x : ScopeExclusion) : Json :=
  .obj [("scope_key", .str x.scopeKey), ("reason", .str x.reason),
    ("omitted_issue", .ofOption IssueScope.toJson x.omittedIssue)]

def validate (x : ScopeExclusion) : Except String Unit := do
  checkNonEmptyStr "scope_key" x.scopeKey
  checkNonEmptyStr "reason" x.reason
  match x.omittedIssue with
  | none => pure ()
  | some issue => do
      issue.validate
      raiseIf (x.scopeKey != issue.repository ++ "#" ++ toString issue.issueNumber)
        "issue exclusion must bind its canonical omitted-Issue identity"

end ScopeExclusion

/-- What was observed of an authority, and when. -/
structure AuthoritySnapshot where
  authorityType : String
  authorityId : String
  contentHash : String
  observedState : String
  observedLabels : List String
  observedAt : String
  deriving DecidableEq, Repr, Inhabited

namespace AuthoritySnapshot

/-- The part of a snapshot that identities and hashes are made of. -/
def semantics (a : AuthoritySnapshot) : Json :=
  .obj [("authority_type", .str a.authorityType), ("authority_id", .str a.authorityId),
    ("content_hash", .str a.contentHash), ("observed_state", .str a.observedState),
    ("observed_labels", .ofTexts a.observedLabels)]

def toJson (a : AuthoritySnapshot) : Json :=
  .obj [("authority_type", .str a.authorityType), ("authority_id", .str a.authorityId),
    ("content_hash", .str a.contentHash), ("observed_state", .str a.observedState),
    ("observed_labels", .ofTexts a.observedLabels), ("observed_at", .str a.observedAt)]

def validate (a : AuthoritySnapshot) : Except String Unit := do
  checkNonEmptyStr "authority_type" a.authorityType
  checkNonEmptyStr "authority_id" a.authorityId
  checkNonEmptyStr "observed_state" a.observedState
  checkAll (checkNonEmptyStr "observed_labels") a.observedLabels
  requireUnique a.observedLabels "authority snapshot labels"
  requireSortedBy id a.observedLabels "authority snapshot labels must use canonical sorted order"

end AuthoritySnapshot

/-- `_same_authority_state`: the same authority, whenever it was observed. -/
def sameAuthorityState (left right : AuthoritySnapshot) : Bool :=
  left.authorityType == right.authorityType && left.authorityId == right.authorityId &&
    left.contentHash == right.contentHash && left.observedState == right.observedState &&
      left.observedLabels == right.observedLabels

structure PolicyProfile where
  profileId : String
  profileVersion : String
  profileHash : String
  minimumReviewConfidenceBasisPoints : ℕ
  requiredCheckNames : List String
  deriving DecidableEq, Repr, Inhabited

namespace PolicyProfile

def toJson (p : PolicyProfile) : Json :=
  .obj [("profile_id", .str p.profileId), ("profile_version", .str p.profileVersion),
    ("profile_hash", .str p.profileHash),
    ("minimum_review_confidence_basis_points", .num p.minimumReviewConfidenceBasisPoints),
    ("required_check_names", .ofTexts p.requiredCheckNames)]

def validate (p : PolicyProfile) : Except String Unit := do
  checkNonEmptyStr "profile_id" p.profileId
  checkNonEmptyStr "profile_version" p.profileVersion
  checkBasisPoints "minimum_review_confidence_basis_points" p.minimumReviewConfidenceBasisPoints
  checkAll (checkNonEmptyStr "required_check_names") p.requiredCheckNames
  raiseIf p.requiredCheckNames.isEmpty "policy profile must name required delivery checks"
  requireUnique p.requiredCheckNames "required check names"
  requireSortedBy id p.requiredCheckNames "required check names must use canonical sorted order"

end PolicyProfile

/-- The bounds that were approved for a run. -/
structure DeliveryBudget where
  maxParallelWorkers : ℕ
  maxWorkerStarts : ℕ
  maxCoordinatorTurns : ℕ
  maxTotalTokens : ℕ
  maxWallTimeSeconds : ℕ
  deriving DecidableEq, Repr, Inhabited

namespace DeliveryBudget

def toJson (b : DeliveryBudget) : Json :=
  .obj [("max_parallel_workers", .num b.maxParallelWorkers),
    ("max_worker_starts", .num b.maxWorkerStarts),
    ("max_coordinator_turns", .num b.maxCoordinatorTurns),
    ("max_total_tokens", .num b.maxTotalTokens),
    ("max_wall_time_seconds", .num b.maxWallTimeSeconds)]

def validate (b : DeliveryBudget) : Except String Unit := do
  checkPositiveInt "max_parallel_workers" b.maxParallelWorkers
  checkPositiveInt "max_worker_starts" b.maxWorkerStarts
  checkPositiveInt "max_wall_time_seconds" b.maxWallTimeSeconds
  raiseIf (b.maxWorkerStarts < b.maxParallelWorkers)
    "max_worker_starts must be at least max_parallel_workers"

end DeliveryBudget

/-! ### Authority identities -/

theorem append_separator_inj {l₁ l₂ d₁ d₂ : List Char} (h₁ : c ∉ d₁) (h₂ : c ∉ d₂)
    (h : l₁ ++ c :: d₁ = l₂ ++ c :: d₂) : l₁ = l₂ ∧ d₁ = d₂ := by
  -- reading from the back, the tail is what comes before the first separator
  have tail_eq : ∀ l d : List Char, c ∉ d →
      (l ++ c :: d).reverse.takeWhile (fun c' => c' ≠ c) = d.reverse := by
    intro l d hd
    have hp : ∀ c' ∈ d.reverse, decide (c' ≠ c) = true := by
      intro c' hc
      simp only [decide_eq_true_eq]
      rintro rfl
      exact hd (mem_reverse.mp hc)
    rw [reverse_append, reverse_cons, append_assoc, takeWhile_append_of_pos hp]
    simp
  have hd : d₁ = d₂ := by
    have := tail_eq l₁ d₁ h₁
    rw [h, tail_eq l₂ d₂ h₂] at this
    exact reverse_injective this.symm
  subst hd
  exact ⟨append_cancel_right h, rfl⟩

theorem notMem_toString_nat (hc : c.isDigit = false) (n : ℕ) : c ∉ (toString n).toList := by
  intro h
  rw [Nat.toString_eq_repr, Nat.toList_repr] at h
  rw [Nat.isDigit_of_mem_toDigits (by omega) (by omega) h] at hc
  cases hc

theorem toString_nat_inj {m n : ℕ} (h : (toString m).toList = (toString n).toList) : m = n := by
  rw [Nat.toString_eq_repr, Nat.toString_eq_repr, Nat.toList_repr, Nat.toList_repr] at h
  have := congrArg (fun d => Nat.ofDigitChars 10 d 0) h
  simpa [Nat.ofDigitChars_toDigits] using this

theorem IssueScope.expectedAuthorityId_inj {r₁ r₂ : String} {n₁ n₂ : ℕ}
    (h : expectedAuthorityId r₁ n₁ = expectedAuthorityId r₂ n₂) : r₁ = r₂ ∧ n₁ = n₂ := by
  have hl := congrArg String.toList h
  simp only [expectedAuthorityId, String.toList_append, append_assoc] at hl
  have hl' := append_cancel_left hl
  have key : ∀ (r : String) (n : ℕ), r.toList ++ ("/issues/".toList ++ (toString n).toList) =
      (r.toList ++ "/issues".toList) ++ '/' :: (toString n).toList := by
    intro r n
    have : "/issues/".toList = "/issues".toList ++ ['/'] := by decide
    rw [this]
    simp
  rw [key, key] at hl'
  obtain ⟨hr, hn⟩ := append_separator_inj (notMem_toString_nat rfl n₁)
    (notMem_toString_nat rfl n₂) hl'
  exact ⟨String.toList_injective (append_cancel_right hr), toString_nat_inj hn⟩

theorem IssueScope.scopeKey_eq_of_authorityId_eq {i j : IssueScope} (hi : i.validate = .ok ())
    (hj : j.validate = .ok ()) (h : i.authorityId = j.authorityId) : i.scopeKey = j.scopeKey := by
  simp only [validate, bind_unit_eq_ok_iff, raiseIf_eq_ok_iff, bne_eq_false_iff_eq] at hi hj
  obtain ⟨-, -, -, hi⟩ := hi
  obtain ⟨-, -, -, hj⟩ := hj
  rw [hi, hj] at h
  obtain ⟨hr, hn⟩ := expectedAuthorityId_inj h
  simp [scopeKey, hr, hn]

/-! ### What JSON determines -/

theorem IssueScope.toJson_injective : Function.Injective IssueScope.toJson := by
  rintro ⟨r, n, a, c⟩ ⟨r', n', a', c'⟩ h
  simpa [IssueScope.toJson] using h

theorem ofTexts_injective : Function.Injective Json.ofTexts := by
  intro l l' h
  have hs : Function.Injective Json.str := fun a b h => Json.str.inj h
  exact hs.list_map (Json.arr.inj h)

theorem AuthoritySnapshot.toJson_injective : Function.Injective AuthoritySnapshot.toJson := by
  rintro ⟨t, a, c, s, l, o⟩ ⟨t', a', c', s', l', o'⟩ h
  simp only [toJson, Json.obj.injEq, List.cons.injEq, Prod.mk.injEq, Json.str.injEq, true_and,
    ofTexts_injective.eq_iff, and_true] at h
  obtain ⟨rfl, rfl, rfl, rfl, rfl, rfl⟩ := h
  rfl

/-! ### Authority up to the time of observation -/

variable {a b : AuthoritySnapshot}

theorem sameAuthorityState_iff :
    sameAuthorityState a b ↔
      a.authorityType = b.authorityType ∧ a.authorityId = b.authorityId ∧
        a.contentHash = b.contentHash ∧ a.observedState = b.observedState ∧
          a.observedLabels = b.observedLabels := by
  simp [sameAuthorityState, and_assoc]

theorem sameAuthorityState_refl (a : AuthoritySnapshot) : sameAuthorityState a a := by
  simp [sameAuthorityState_iff]

theorem sameAuthorityState_symm (h : sameAuthorityState a b) : sameAuthorityState b a := by
  rw [sameAuthorityState_iff] at h ⊢
  obtain ⟨h1, h2, h3, h4, h5⟩ := h
  exact ⟨h1.symm, h2.symm, h3.symm, h4.symm, h5.symm⟩

theorem sameAuthorityState_trans {c : AuthoritySnapshot} (hab : sameAuthorityState a b)
    (hbc : sameAuthorityState b c) : sameAuthorityState a c := by
  rw [sameAuthorityState_iff] at hab hbc ⊢
  obtain ⟨h1, h2, h3, h4, h5⟩ := hab
  obtain ⟨g1, g2, g3, g4, g5⟩ := hbc
  exact ⟨h1.trans g1, h2.trans g2, h3.trans g3, h4.trans g4, h5.trans g5⟩

end AgenticPkm.Builderops
