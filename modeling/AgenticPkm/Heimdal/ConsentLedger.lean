import AgenticPkm.Heimdal.RawLiveness

/-!
# The consent ledger

Grants and their revocations, appended and never edited, as the memory backend keeps them.  A grant
whose reference a revocation row names is revoked, also when a later row grants it again.  Evidence
is admitted under the newest active grant of a scope, and once more checked against the ledger
inside the fence of that grant, right before the insert.

* `consent_checks_agree_iff` — **when the two checks agree**: not after an `ExpiredRenewal`.
-/

namespace AgenticPkm.ConsentLedger

open RawStore List

/-- One row of the ledger; of its fields those that are read here. -/
structure ConsentGrant where
  grantRef : String
  basis : String
  scope : String
  grantedBy : String
  grantedAt : ℤ
  expiry : Option ℤ := none
  revokesGrantRef : Option String := none
  createdAt : ℤ
  sequence : ℕ
  deriving DecidableEq, Repr

def ConsentGrant.isRevocation (row : ConsentGrant) : Bool := row.basis == "revocation"

/-- What the functions of the ledger, of admission and of retention raise. -/
inductive ConsentError
  /-- `ValueError`: a reference that is blank -/
  | blankGrantRef (grantRef : String)
  /-- `ValueError`: "grant_consent cannot create a revocation row; use revoke_consent" -/
  | revocationBasis
  /-- `ConsentRefusedError`: no active grant for a scope -/
  | noActiveGrant (scope : String)
  /-- `ConsentRefusedError`: a grant that is no longer active -/
  | noLongerActive (grantRef : String)
  /-- `ConsentRevocationErasurePendingError` -/
  | consentErasurePending
  /-- `RetentionErasurePendingError` -/
  | retentionErasurePending
  /-- what the raw store and the liveness authority raise -/
  | raw (error : RawError)
  deriving DecidableEq, Repr

/-! ### Writing -/

def standingSeedRow (grantRef basis scope : String) (now : ℤ) (sequence : ℕ) : ConsentGrant :=
  { grantRef, basis, scope, grantedBy := "operator", grantedAt := now, createdAt := now, sequence }

/-- The rows the ledger starts with: `_STANDING_SEED_ROW_BUILDERS`. -/
def seeded (now : ℤ) : List ConsentGrant :=
  [standingSeedRow "grant-self-record-v1" "self_record" "device+adapter:v1-voice-memo" now 0,
    standingSeedRow "grant-media-capture-v1" "self_record" "device+adapter:v1-media-ingress" now 1]

/-- `_MemoryConsentLedger.append`: the time and the number of a row are set here. -/
def append (rows : List ConsentGrant) (grant : ConsentGrant) (now : ℤ) : List ConsentGrant :=
  rows ++ [{ grant with createdAt := now, sequence := rows.length }]

/-- What `grant_consent` is asked for. -/
structure GrantRequest where
  grantRef : String
  basis : String
  scope : String
  grantedBy : String
  expiry : Option ℤ := none
  deriving DecidableEq, Repr

def grantConsent (rows : List ConsentGrant) (request : GrantRequest) (now : ℤ) :
    Except ConsentError (List ConsentGrant) :=
  if strip request.grantRef = "" then .error (.blankGrantRef request.grantRef)
  else if request.basis = "revocation" then .error .revocationBasis
  else .ok (append rows
    { grantRef := request.grantRef
      basis := request.basis
      scope := request.scope
      grantedBy := request.grantedBy
      grantedAt := now
      expiry := request.expiry
      createdAt := now
      sequence := 0 } now)

/-- The row that `revoke_consent` appends; `suffix` is drawn by `uuid4`. -/
def revocationRow (grantRef revokedBy suffix : String) (now : ℤ) : ConsentGrant :=
  { grantRef := grantRef ++ ":revoked:" ++ suffix
    basis := "revocation"
    scope := ""
    grantedBy := revokedBy
    grantedAt := now
    revokesGrantRef := some grantRef
    createdAt := now
    sequence := 0 }

/-! ### Reading -/

def revokes (row : ConsentGrant) : Option String :=
  if row.isRevocation then row.revokesGrantRef.filter (· ≠ "") else none

def revokedGrantRefs (rows : List ConsentGrant) : List String := rows.filterMap revokes

def Revoked (rows : List ConsentGrant) (grantRef : String) : Prop :=
  grantRef ∈ revokedGrantRefs rows

instance (rows : List ConsentGrant) (grantRef : String) : Decidable (Revoked rows grantRef) :=
  inferInstanceAs (Decidable (_ ∈ _))

/-- `list_revoked_grant_refs`: in the order they were revoked first. -/
def listRevokedGrantRefs (rows : List ConsentGrant) (scope : Option String) : List String :=
  let scopedRefs := (rows.filter fun row =>
    !row.isRevocation && some row.scope == scope).map (·.grantRef)
  ((revokedGrantRefs rows).filter fun grantRef =>
    scope.isNone || scopedRefs.contains grantRef).eraseDups

def ConsentGrant.isExpired (row : ConsentGrant) (time : ℤ) : Bool := row.expiry.any (· ≤ time)

/-- The tests of `list_active_grants` on one row. -/
def isActive (rows : List ConsentGrant) (scope : Option String) (time : ℤ) (row : ConsentGrant) :
    Bool :=
  !row.isRevocation && !decide (Revoked rows row.grantRef) && !row.isExpired time &&
    scope.all (row.scope == ·)

/-- `list_active_grants`, of one scope or of all. -/
def listActiveGrants (rows : List ConsentGrant) (scope : Option String) (time : ℤ) :
    List ConsentGrant :=
  rows.filter (isActive rows scope time)

/-- `resolve_active_grant`: the active grant of the scope that was appended last. -/
def resolveActiveGrant (rows : List ConsentGrant) (scope : String) (time : ℤ) :
    Option ConsentGrant :=
  (listActiveGrants rows (some scope) time).argmax (·.sequence)

/-- The row grants the reference. -/
def ConsentGrant.grants (row : ConsentGrant) (grantRef : String) : Bool :=
  !row.isRevocation && row.grantRef == grantRef

/-- `assert_consent_grant_active`: the newest row of a grant decides. -/
def assertConsentGrantActive (rows : List ConsentGrant) (grantRef : String) (time : ℤ) :
    Except ConsentError ConsentGrant :=
  match rows.reverse.find? (·.grants grantRef) with
  | none => .error (.noLongerActive grantRef)
  | some row =>
      if Revoked rows row.grantRef ∨ row.isExpired time then
        .error (.noLongerActive grantRef)
      else .ok row

def stampConsentBlock (grant : ConsentGrant) (thirdParty : String) : ConsentBlock :=
  { basis := grant.basis
    grantedBy := grant.grantedBy
    grantedAt := grant.grantedAt
    thirdParty
    grantRef := grant.grantRef }

/-! ### What the reads say of revocations -/

variable {rows rows' : List ConsentGrant} {grantRef : String}

theorem Revoked.mono (h : rows <+: rows') (hr : Revoked rows grantRef) :
    Revoked rows' grantRef := by
  obtain ⟨more, rfl⟩ := h
  unfold Revoked revokedGrantRefs at hr ⊢
  rw [filterMap_append]
  exact mem_append_left _ hr

variable {row : ConsentGrant} {now : ℤ} {scope : Option String}

theorem revoked_append : Revoked (append rows row now) grantRef ↔
      Revoked rows grantRef ∨ revokes row = some grantRef := by
  unfold Revoked revokedGrantRefs append
  rw [filterMap_append, mem_append, mem_filterMap (l := [_])]
  simp only [mem_singleton, exists_eq_left]
  rfl

theorem prefix_append (rows : List ConsentGrant) (row : ConsentGrant) (now : ℤ) :
    rows <+: append rows row now :=
  List.prefix_append _ _

theorem grantConsent_eq_append {r : GrantRequest} (h : grantConsent rows r now = .ok rows') :
    ∃ row, row.isRevocation = false ∧ rows' = append rows row now := by
  unfold grantConsent at h
  split at h
  · cases h
  split at h
  · cases h
  · next hb =>
    cases h
    exact ⟨_, beq_eq_false_iff_ne.mpr hb, rfl⟩

theorem grantConsent_eq_ok {r : GrantRequest} (h : grantConsent rows r now = .ok rows') :
    rows <+: rows' ∧ ∀ grantRef, Revoked rows' grantRef ↔ Revoked rows grantRef := by
  obtain ⟨row, hb, rfl⟩ := grantConsent_eq_append h
  refine ⟨prefix_append _ _ _, fun grantRef => ?_⟩
  rw [revoked_append, or_iff_left]
  simp [revokes, hb]

theorem revokes_revocationRow (h : grantRef ≠ "") (r s : String) (now : ℤ) :
    revokes (revocationRow grantRef r s now) = some grantRef := by
  simp [revokes, revocationRow, ConsentGrant.isRevocation, h]

theorem assertConsentGrantActive_eq_ok_iff {time : ℤ} :
    assertConsentGrantActive rows grantRef time = .ok row ↔
      IsLast (·.grants grantRef) rows row ∧ ¬ Revoked rows grantRef ∧
        row.isExpired time = false := by
  rw [assertConsentGrantActive, ← find?_reverse_eq_some_iff]
  cases hf : rows.reverse.find? (·.grants grantRef) with
  | none => simp
  | some row' =>
    have hg := find?_some hf
    simp only [ConsentGrant.grants, Bool.and_eq_true, beq_iff_eq] at hg
    simp only [hg.2, Option.some.injEq]
    split
    · next hx =>
      refine iff_of_false (fun h => nomatch h) ?_
      rintro ⟨rfl, hrev, hexp⟩
      simp [hrev, hexp] at hx
    · next hx =>
      rw [not_or, Bool.not_eq_true] at hx
      refine ⟨?_, fun h => congrArg _ h.1⟩
      rintro ⟨⟩
      exact ⟨rfl, hx⟩

theorem not_revoked_of_assertConsentGrantActive {time : ℤ}
    (h : assertConsentGrantActive rows grantRef time = .ok row) : ¬ Revoked rows grantRef :=
  (assertConsentGrantActive_eq_ok_iff.mp h).2.1

theorem mem_listRevokedGrantRefs :
    grantRef ∈ listRevokedGrantRefs rows scope ↔
      Revoked rows grantRef ∧ ∀ s, scope = some s →
        ∃ row ∈ rows, row.isRevocation = false ∧ row.scope = s ∧ row.grantRef = grantRef := by
  unfold listRevokedGrantRefs
  simp only [mem_eraseDups, mem_filter]
  refine and_congr_right fun _ => ?_
  cases scope with
  | none => simp
  | some s => simp [and_assoc]

theorem listRevokedGrantRefs_mono (h : rows <+: rows')
    (hm : grantRef ∈ listRevokedGrantRefs rows scope) :
    grantRef ∈ listRevokedGrantRefs rows' scope := by
  rw [mem_listRevokedGrantRefs] at hm ⊢
  refine ⟨hm.1.mono h, fun s hs => ?_⟩
  obtain ⟨row, hr, hsc⟩ := hm.2 s hs
  exact ⟨row, h.subset hr, hsc⟩

/-! ### The two checks -/

/-- **The ledgers that calls build**: the seeded one, and each a call has appended a row to. -/
inductive Built : List ConsentGrant → Prop
  | seeded (now : ℤ) : Built (seeded now)
  | granted {rows rows' : List ConsentGrant} {request : GrantRequest} {now : ℤ} :
      Built rows → grantConsent rows request now = .ok rows' → Built rows'
  | revoked {rows : List ConsentGrant} {grantRef revokedBy suffix : String} {now : ℤ} :
      Built rows → Built (append rows (revocationRow grantRef revokedBy suffix now) now)

theorem sequence_append (h : rows.map (·.sequence) = List.range rows.length)
    (row : ConsentGrant) (now : ℤ) :
    (append rows row now).map (·.sequence) = List.range (append rows row now).length := by
  simp [append, h, List.range_succ]

/-- The rows are numbered in their order. -/
theorem Built.sequence_eq (h : Built rows) : rows.map (·.sequence) = List.range rows.length := by
  induction h with
  | seeded => rfl
  | granted _ hg ih =>
    obtain ⟨row, -, rfl⟩ := grantConsent_eq_append hg
    exact sequence_append ih _ _
  | revoked _ ih => exact sequence_append ih _ _

theorem Built.resolveActiveGrant_eq_some_iff (h : Built rows) {s : String} {time : ℤ} :
    resolveActiveGrant rows s time = some row ↔ IsLast (isActive rows (some s) time) rows row := by
  have hlt : (rows.map (·.sequence)).Pairwise (· < ·) := by
    rw [h.sequence_eq]
    exact pairwise_lt_range
  rw [resolveActiveGrant, listActiveGrants, argmax_filter_eq _ hlt, find?_reverse_eq_some_iff]

theorem not_revoked_of_resolveActiveGrant {s : String} {time : ℤ}
    (h : resolveActiveGrant rows s time = some row) : ¬ Revoked rows row.grantRef := by
  have hm := (mem_filter.mp (argmax_mem h)).2
  simp only [isActive, Bool.and_eq_true, Bool.not_eq_true', decide_eq_false_iff_not] at hm
  exact hm.1.1.2

/-- The active grant of a scope that was appended last has a renewal that has expired: a later row
under its reference, the last one, with an earlier end. -/
def ExpiredRenewal (rows : List ConsentGrant) (time : ℤ) : Prop :=
  ∃ scope grant renewal, IsLast (isActive rows (some scope) time) rows grant ∧
    IsLast (·.grants grant.grantRef) rows renewal ∧ renewal.isExpired time

/-- **When the two checks agree.**  In every ledger that calls build, what is resolved passes the
final check exactly if no last active grant of a scope has a renewal that has expired; what passes
the final check is listed; and a reference that was revoked passes neither in any ledger that has
grown since. -/
theorem consent_checks_agree_iff (rows : List ConsentGrant) (hbuilt : Built rows) (time : ℤ) :
    ((∀ scope g, resolveActiveGrant rows scope time = some g →
        ∃ row, assertConsentGrantActive rows g.grantRef time = .ok row) ↔
      ¬ ExpiredRenewal rows time) ∧
    (∀ grantRef row, assertConsentGrantActive rows grantRef time = .ok row →
      ∃ g ∈ listActiveGrants rows none time, g.grantRef = grantRef) ∧
    ∀ grantRef revokedBy suffix now rows', strip grantRef ≠ "" →
      append rows (revocationRow grantRef revokedBy suffix now) now <+: rows' → ∀ later,
        (∀ row, assertConsentGrantActive rows' grantRef later ≠ .ok row) ∧
        ∀ scope g, resolveActiveGrant rows' scope later = some g → g.grantRef ≠ grantRef := by
  refine ⟨⟨?_, fun hno scope g hg => ?_⟩, fun grantRef row h => ?_,
    fun grantRef _ _ _ rows' hne h later => ?_⟩
  · rintro hagree ⟨scope, g, renewal, hg, hlast, hexp⟩
    obtain ⟨row, hrow⟩ := hagree scope g (hbuilt.resolveActiveGrant_eq_some_iff.mpr hg)
    obtain ⟨hn, -, hlive⟩ := assertConsentGrantActive_eq_ok_iff.mp hrow
    -- a reference has one last row
    rw [← find?_reverse_eq_some_iff] at hn hlast
    obtain rfl : renewal = row := Option.some.inj (hlast.symm.trans hn)
    rw [hlive] at hexp
    cases hexp
  · have hlast := hbuilt.resolveActiveGrant_eq_some_iff.mp hg
    obtain ⟨hact, before, after, hrows, -⟩ := id hlast
    simp only [isActive, Bool.and_eq_true, Bool.not_eq_true'] at hact
    have hs : (rows.reverse.find? (·.grants g.grantRef)).isSome := by
      refine find?_isSome.mpr ⟨g, ?_, by simp [ConsentGrant.grants, hact]⟩
      simp [hrows]
    obtain ⟨row, hn⟩ := Option.isSome_iff_exists.mp hs
    rw [find?_reverse_eq_some_iff] at hn
    refine ⟨row, assertConsentGrantActive_eq_ok_iff.mpr
      ⟨hn, not_revoked_of_resolveActiveGrant hg, ?_⟩⟩
    by_contra hexp
    exact hno ⟨scope, g, row, hlast, hn, by simpa using hexp⟩
  · obtain ⟨⟨hg, before, after, hrows, -⟩, hrev, hexp⟩ := assertConsentGrantActive_eq_ok_iff.mp h
    simp only [ConsentGrant.grants, Bool.and_eq_true, Bool.not_eq_true', beq_iff_eq] at hg
    refine ⟨row, mem_filter.mpr ⟨by simp [hrows], ?_⟩, hg.2⟩
    simp [isActive, hg.1, hg.2, hrev, hexp]
  · have hemp : grantRef ≠ "" := by
      rintro rfl
      exact hne rfl
    have hrev : Revoked rows' grantRef :=
      (revoked_append.mpr (.inr (revokes_revocationRow hemp _ _ _))).mono h
    refine ⟨fun row ha => not_revoked_of_assertConsentGrantActive ha hrev, ?_⟩
    rintro scope g hg rfl
    exact not_revoked_of_resolveActiveGrant hg hrev

/-- Two grants under one reference, the second with an end. -/
def renewed (expiry : ℤ) : List ConsentGrant :=
  [(none, 1), (some expiry, 2)].foldl (fun rows (e, now) =>
    (grantConsent rows ⟨"g", "session", "s", "owner", e⟩ now).toOption.getD rows) (seeded 0)

theorem Built.renew (h : Built rows) (request : GrantRequest) (now : ℤ) :
    Built ((grantConsent rows request now).toOption.getD rows) := by
  cases hg : grantConsent rows request now with
  | error => exact h
  | ok rows' => exact h.granted hg

/-- A renewal that has not ended is listed. -/
theorem renewal_listed :
    Built (renewed 9) ∧ ∃ g ∈ listActiveGrants (renewed 9) none 5, g.grantRef = "g" := by
  have hb : Built (renewed 9) := by
    simp only [renewed, foldl_cons, foldl_nil]
    exact ((Built.seeded 0).renew _ _).renew _ _
  exact ⟨hb, (consent_checks_agree_iff (renewed 9) hb 5).2.1 "g" _ rfl⟩

/-- A renewal that ends before the grant it renews: the lane is open, and refuses every capture. -/
theorem renewal_refused :
    (resolveActiveGrant (renewed 3) "s" 5).map (·.grantRef) = some "g" ∧
      ∀ row, assertConsentGrantActive (renewed 3) "g" 5 ≠ .ok row :=
  ⟨by decide +kernel, fun row h => nomatch h⟩

end AgenticPkm.ConsentLedger
