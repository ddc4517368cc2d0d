import AgenticPkm.Heimdal.RawCopies

/-!
# What raw evidence always is

The containers of the raw store and of the liveness authority say the same things twice and thrice
over.  `Exact` is what ties them together, and `Change` is the list of all that ever happens to
them: every call of the next file is a chain of changes.  Here each change is shown to keep
`Exact`.
-/

namespace AgenticPkm.RawLiveness

open RawStore List Dict

/-! ### The parts of the invariant -/

def generationsOf (byContent : Dict String (List RawLivenessGeneration))
    (contentIdentity : String) : List RawLivenessGeneration :=
  (byContent.get? contentIdentity).getD []

/-- Generations are listed under their bytes, numbered from one, and all but the last erased. -/
structure Numbered (byRecord : Dict String RawLivenessGeneration)
    (byContent : Dict String (List RawLivenessGeneration))
    (tombstones : Dict String RawDeletionTombstone) : Prop where
  ofRecord : ∀ {r g}, byRecord.get? r = some g → g.recordId = r ∧ g.rawRef = rawRefForRecordId r ∧
    canonicalUuid? r = some r ∧ g ∈ generationsOf byContent g.contentIdentity
  ofContent : ∀ {c g}, g ∈ generationsOf byContent c →
    g.contentIdentity = c ∧ byRecord.get? g.recordId = some g
  numbers : ∀ c, (generationsOf byContent c).map (·.generation) =
    List.range' 1 (generationsOf byContent c).length
  superseded : ∀ c, ∀ g ∈ (generationsOf byContent c).dropLast,
    (tombstones.get? g.recordId).isSome

/-- There is a row for every generation that is not erased, and no other. -/
structure Rowed (rows : List RawIdentity) (byIdentity : Dict String RawIdentity)
    (byRecord : Dict String RawLivenessGeneration)
    (tombstones : Dict String RawDeletionTombstone) : Prop where
  distinct : DistinctKeys (·.id) rows
  ofRow : ∀ {row}, row ∈ rows → ∃ g, byRecord.get? row.id = some g ∧
    g.contentIdentity = row.contentIdentity ∧ tombstones.get? row.id = none
  ofGeneration : ∀ {r g}, byRecord.get? r = some g → tombstones.get? r = none →
    ∃ row ∈ rows, row.id = r
  ofContent : ∀ {c row}, byIdentity.get? c = some row ↔ row ∈ rows ∧ row.contentIdentity = c

/-- Consents are of rows, under the number of their generation. -/
structure Consented (associations : Dict String (Dict String RawConsentAssociation))
    (rows : List RawIdentity) (byRecord : Dict String RawLivenessGeneration) : Prop where
  ofRecord : ∀ {r d}, associations.get? r = some d → ∃ row ∈ rows, row.id = r
  ofGrant : ∀ {r d grant a}, associations.get? r = some d → d.get? grant = some a →
    grant ≠ "" ∧ ∀ g, byRecord.get? r = some g → a.generation = g.generation

def Paired (tombstone : RawDeletionTombstone) (receipt : DeletionReceipt) : Prop :=
  tombstone.deletionReceiptId = receipt.id ∧ tombstone.recordId = receipt.recordId ∧
    tombstone.erasedAt = receipt.deletedAt

/-- Tombstones are of generations, and pair off with the receipts. -/
structure Receipted (byRecord : Dict String RawLivenessGeneration)
    (tombstonesByRecord : Dict String RawDeletionTombstone)
    (tombstones : List RawDeletionTombstone) (receipts : List DeletionReceipt) : Prop where
  ofRecord : ∀ {r t}, tombstonesByRecord.get? r = some t ↔ t ∈ tombstones ∧ t.recordId = r
  ofTombstone : ∀ t ∈ tombstones, ∃ g, byRecord.get? t.recordId = some g ∧
    t.generation = g.generation ∧ t.rawRef = g.rawRef ∧ t.contentIdentity = g.contentIdentity
  pairs : List.Forall₂ Paired tombstones receipts
  distinct : DistinctKeys (·.id) receipts
  queued : ∀ receipt ∈ receipts, receipt.payload.coldCleanupLocationRefs.isSome

/-- Leases are of generations, and run out before the claim does and before the erasure. -/
structure Drained (leases : List RawResponseLease)
    (byRecord : Dict String RawLivenessGeneration) (claims : Dict String RawRetentionClaim)
    (tombstones : List RawDeletionTombstone) : Prop where
  ofLease : ∀ lease ∈ leases, ∃ g, byRecord.get? lease.recordId = some g ∧
    lease.generation = g.generation
  claimed : ∀ {r claim}, claims.get? r = some claim → ∀ lease ∈ leases, lease.recordId = r →
    lease.expiresAt ≤ claim.drainAfter
  erased : ∀ t ∈ tombstones, ∀ lease ∈ leases, lease.recordId = t.recordId →
    lease.expiresAt ≤ t.erasedAt

/-- **What raw evidence always is.** -/
structure Exact (s : Memory) : Prop where
  numbered : Numbered s.live.generationsByRecord s.live.generationsByContent
    s.live.tombstonesByRecord
  rowed : Rowed s.raw.rows s.raw.byIdentity s.live.generationsByRecord s.live.tombstonesByRecord
  copied : Copied s.raw
  consented : Consented s.raw.consentAssociations s.raw.rows s.live.generationsByRecord
  receipted : Receipted s.live.generationsByRecord s.live.tombstonesByRecord s.live.tombstones
    s.live.deletionReceipts
  drained : Drained s.live.leases s.live.generationsByRecord s.live.retentionClaimsByRecord
    s.live.tombstones

theorem Exact.start : Exact {} where
  numbered :=
    { ofRecord := by simp
      ofContent := by simp [generationsOf]
      numbers := by simp [generationsOf]
      superseded := by simp [generationsOf] }
  rowed :=
    { distinct := nodup_nil
      ofRow := by simp
      ofGeneration := by simp
      ofContent := by simp }
  copied := .start
  consented :=
    { ofRecord := by simp
      ofGrant := by simp }
  receipted :=
    { ofRecord := by simp
      ofTombstone := by simp
      pairs := .nil
      distinct := nodup_nil
      queued := by simp }
  drained :=
    { ofLease := by simp
      claimed := by simp
      erased := by simp }

/-! ### Changes -/

variable {live : Authority} {c grant r : String} {g : RawLivenessGeneration}
  {br : Dict String RawLivenessGeneration} {s : Memory} {env : Env} {copy : RawRepresentation}

theorem assertGenerationActive_eq_ok_iff : assertGenerationActive live r c = .ok g ↔
      live.generationsByRecord.get? r = some g ∧ g.contentIdentity = c ∧
        live.tombstonesByRecord.get? r = none ∧ live.retentionClaimsByRecord.get? r = none := by
  unfold assertGenerationActive
  cases live.generationsByRecord.get? r with
  | none => simp
  | some g' =>
    by_cases hc : g'.contentIdentity = c
    · cases live.tombstonesByRecord.get? r with
      | some t => simp [hc]
      | none =>
        cases live.retentionClaimsByRecord.get? r with
        | some claim => simp [hc]
        | none =>
          simp only [hc, ne_eq, not_true_eq_false, if_false, Option.isSome_none,
            Bool.false_eq_true, Except.ok.injEq, Option.some.injEq, and_true]
          constructor
          · rintro rfl
            exact ⟨rfl, hc⟩
          · exact fun h => h.1
    · simp only [ne_eq, hc, not_false_eq_true, if_true, reduceCtorEq, Option.some.injEq, false_iff,
        not_and]
      rintro rfl h
      exact absurd h hc

/-- The ids that `uuid4` draws for a record and a receipt are new. -/
structure Fresh (env : Env) (s : Memory) : Prop where
  canonical : canonicalUuid? env.recordId = some env.recordId
  record : s.live.generationsByRecord.get? env.recordId = none
  copy : s.raw.representations.get? env.recordId = none
  receipt : ∀ receipt ∈ s.live.deletionReceipts, receipt.id ≠ env.receiptId

/-- The raw state with a new record: its row, its first copy and its first consent. -/
def admitted (raw : Store) (identity : RawIdentity) (copy : RawRepresentation) (grantRef : String) :
    Store :=
  ((withRow raw identity copy).associateConsent identity.id copy.rawGeneration grantRef
    identity.ingestedAt).1

/-- The state after an erasure: the raw state without the record, its receipt and tombstone. -/
def erasedBy (raw : Store) (receipt : DeletionReceipt) (tombstone : RawDeletionTombstone)
    (live : Authority) : Memory where
  raw := raw
  live := { live with
    deletionReceipts := live.deletionReceipts ++ [receipt]
    tombstones := live.tombstones ++ [tombstone]
    tombstonesByRecord := live.tombstonesByRecord.set tombstone.recordId tombstone }

/-- **All that ever happens to raw evidence**, one change at a time; `grants` are the grants that
evidence may be admitted under. -/
inductive Change (crypto : Crypto) (grants : String → Prop) : Memory → Memory → Prop
  /-- a grant for bytes that are held already -/
  | associate {s : Memory} {r c grant : String} {g : RawLivenessGeneration}
      {admittedAt : ℤ}
      (hactive : assertGenerationActive s.live r c = .ok g) (hgrant : grant ≠ "")
      (hallowed : grants grant) :
      Change crypto grants s { s with
        raw := (s.raw.associateConsent r g.generation grant admittedAt).1 }
  /-- bytes that are not held get a new generation -/
  | admission {s : Memory} {env : Env} {identity : RawIdentity} {copy : RawRepresentation}
      {live : Authority} {g : RawLivenessGeneration} {grant : String}
      (hfree : s.raw.byIdentity.get? identity.contentIdentity = none) (hfresh : Fresh env s)
      (hid : identity.id = env.recordId) (hcopy : copy.id = env.recordId)
      (hrecord : copy.recordId = env.recordId) (hactive : copy.active = true)
      (hnumber : copy.rawGeneration = g.generation) (hhot : copy.storageKind = .postgresHot)
      (htoken : copy.archiveToken = none) (harchive : copy.archiveGeneration = none)
      (hregister : registerGeneration s.live env.recordId identity.contentIdentity
        identity.ingestedAt = .ok (live, g)) (hgrant : grant ≠ "") (hallowed : grants grant) :
      Change crypto grants s { raw := admitted s.raw identity copy grant, live }
  /-- one more copy, not active -/
  | register {s : Memory} {c : String} {copy : RawRepresentation} {g : RawLivenessGeneration}
      (hactive : assertGenerationActive s.live copy.recordId c = .ok g)
      (hnew : s.raw.representations.get? copy.id = none) (hinactive : copy.active = false)
      (hbound : Store.supported copy = true ∨ (copy.storageKind = .encryptedLocalCold ∧
        (falsy copy.archiveToken || falsy copy.archiveGeneration) = true)) :
      Change crypto grants s { s with raw := withRepresentation s.raw copy }
  /-- another copy active -/
  | activate {s : Memory} {r c id : String} {copy : RawRepresentation}
      {g : RawLivenessGeneration} (hactive : assertGenerationActive s.live r c = .ok g)
      (hcopy : s.raw.representations.get? id = some copy) (hrecord : copy.recordId = r)
      (hsupported : Store.supported copy = true) :
      Change crypto grants s { s with raw := s.raw.activate r id }
  /-- a lease for an active generation -/
  | lease {s : Memory} {env : Env} {c : String} {g : RawLivenessGeneration} {issuedAt : ℤ}
      (hactive : assertGenerationActive s.live g.recordId c = .ok g) :
      Change crypto grants s { s with
        live := { s.live with leases := s.live.leases ++ [newLease env s.live g issuedAt] } }
  /-- a claim on a generation that has none -/
  | claim {s : Memory} {env : Env} {g : RawLivenessGeneration} {reason : String}
      {retentionWindowDays claimedAt : ℤ} {payload : DeletionPayload} :
      Change crypto grants s { s with
        live := (claimRetention env g reason retentionWindowDays claimedAt payload s.live).1 }
  /-- the erasure of a generation whose claim is drained -/
  | erase {s : Memory} {env : Env} {request : DeleteRequest} {g : RawLivenessGeneration}
      {payload : DeletionPayload} {bindings : Dict String ColdBinding} {raw : Store}
      {claim : RawRetentionClaim}
      (hgeneration : s.live.generationsByRecord.get? request.recordId = some g)
      (htombstone : s.live.tombstonesByRecord.get? request.recordId = none)
      (hclaim : s.live.retentionClaimsByRecord.get? request.recordId = some claim)
      (hdrained : claim.drainAfter ≤ request.deletedAt)
      (hpayload : deletionPayload crypto request g s = .ok payload)
      (hreceipt : ∀ receipt ∈ s.live.deletionReceipts, receipt.id ≠ env.receiptId)
      (hraw : s.raw.hardDelete request.recordId = .ok (raw, true)) :
      Change crypto grants s (erasedBy raw (newReceipt env request g payload bindings)
        (newTombstone env request g) s.live)
  /-- a cold object less in the queue of a receipt -/
  | drain {s : Memory} {receiptId : String} {receipt : DeletionReceipt}
      {queue remaining : List String} (hreceipt : receipt ∈ s.live.deletionReceipts)
      (hid : receipt.id = receiptId)
      (hqueue : receipt.payload.coldCleanupLocationRefs = some queue)
      (hremaining : remaining.Sublist queue) :
      Change crypto grants s { s with live := setQueue s.live receiptId remaining }

/-! ### Grants -/

theorem associateConsent_cases (raw : Store) (r : String) (n : ℕ) (gr : String)
    (admittedAt : ℤ) : (raw.associateConsent r n gr admittedAt).1 = raw ∨
      (raw.associateConsent r n gr admittedAt).1 =
        { raw with
            consentAssociations := raw.consentAssociations.set r
              (((raw.consentAssociations.get? r).getD ∅).set gr
                { recordId := r, generation := n, grantRef := gr, admittedAt }) } := by
  cases hg : ((raw.consentAssociations.get? r).getD ∅).get? gr with
  | none =>
    right
    simp only [Store.associateConsent, hg]
  | some e =>
    left
    simp only [Store.associateConsent, hg]
    split <;> rfl

variable {admittedAt : ℤ} {tm : Dict String RawDeletionTombstone} {raw : Store}

theorem Consented.set {as : Dict String (Dict String RawConsentAssociation)}
    {rows : List RawIdentity} (h : Consented as rows br) (hgr : grant ≠ "")
    (hr : ∃ row ∈ rows, row.id = r) (hg : br.get? r = some g) :
    Consented (as.set r (((as.get? r).getD ∅).set grant
      { recordId := r, generation := g.generation, grantRef := grant, admittedAt }))
      rows br where
  ofRecord := by
    intro r' d hd
    rw [get?_set] at hd
    split at hd
    · next heq => rwa [heq]
    · exact h.ofRecord hd
  ofGrant := by
    intro r' d grant' a hd ha
    rw [get?_set] at hd
    split at hd
    · next heq =>
      cases hd
      rw [get?_set] at ha
      split at ha
      · next hsame =>
        cases ha
        refine ⟨hsame ▸ hgr, fun g' hg' => ?_⟩
        rw [heq, hg] at hg'
        exact congrArg RawLivenessGeneration.generation (Option.some.inj hg')
      · cases ho : as.get? r with
        | none =>
          rw [ho] at ha
          simp at ha
        | some old =>
          rw [ho] at ha
          rw [heq]
          exact h.ofGrant ho ha
    · exact h.ofGrant hd ha

theorem Exact.associate (h : Exact s) (ha : assertGenerationActive s.live r c = .ok g)
    (hgr : grant ≠ "") :
    Exact { s with raw := (s.raw.associateConsent r g.generation grant admittedAt).1 } := by
  obtain ⟨hg, -, ht, -⟩ := assertGenerationActive_eq_ok_iff.mp ha
  rcases associateConsent_cases s.raw r g.generation grant admittedAt with heq | heq
  · rw [heq]
    exact h
  · rw [heq]
    exact { h with
      copied := { h.copied with }
      consented := h.consented.set hgr (h.rowed.ofGeneration hg ht) hg }

/-! ### New generations -/

theorem registerGeneration_eq_ok {live' : Authority} {activatedAt : ℤ}
    (hnew : live.generationsByRecord.get? r = none)
    (h : registerGeneration live r c activatedAt = .ok (live', g)) :
    (∀ item ∈ generationsOf live.generationsByContent c,
      (live.tombstonesByRecord.get? item.recordId).isSome) ∧
    g = { contentIdentity := c
          generation := ((generationsOf live.generationsByContent c).map
            (·.generation)).foldl max 0 + 1
          recordId := r
          rawRef := rawRefForRecordId r
          activatedAt } ∧
    live' = { live with
      generationsByRecord := live.generationsByRecord.set r g
      generationsByContent := live.generationsByContent.set c
        (generationsOf live.generationsByContent c ++ [g]) } := by
  simp only [registerGeneration, hnew] at h
  split at h
  · cases h
  · next hp =>
    simp only [Except.ok.injEq, Prod.mk.injEq] at h
    obtain ⟨rfl, rfl⟩ := h
    refine ⟨fun item hi => ?_, rfl, rfl⟩
    rw [Bool.not_eq_true, any_eq_false] at hp
    have hn := hp item hi
    rwa [Bool.not_eq_true, Option.isNone_eq_false_iff] at hn

theorem foldl_max_range' (n : ℕ) : (List.range' 1 n).foldl max 0 = n := by
  induction n with
  | zero => rfl
  | succ n ih =>
    rw [range'_concat, foldl_append, ih]
    simp
    omega

theorem generationsOf_set (b : Dict String (List RawLivenessGeneration)) (c c' : String)
    (l : List RawLivenessGeneration) :
    generationsOf (b.set c l) c' = if c' = c then l else generationsOf b c' := by
  unfold generationsOf
  rw [get?_set]
  split <;> rfl

theorem Numbered.register {b : Dict String (List RawLivenessGeneration)} (h : Numbered br b tm)
    (hr : br.get? r = none) (hcan : canonicalUuid? r = some r)
    (hp : ∀ item ∈ generationsOf b c, (tm.get? item.recordId).isSome) (hc : g.contentIdentity = c)
    (hrec : g.recordId = r) (href : g.rawRef = rawRefForRecordId r)
    (hnum : g.generation = ((generationsOf b c).map (·.generation)).foldl max 0 + 1) :
    Numbered (br.set r g) (b.set c (generationsOf b c ++ [g])) tm where
  ofRecord := by
    intro r' g' hg'
    rw [get?_set] at hg'
    rw [generationsOf_set]
    split at hg'
    · next heq =>
      cases hg'
      rw [heq, if_pos hc]
      exact ⟨hrec, href, hcan, by simp⟩
    · obtain ⟨hr', href', hcan', hmem⟩ := h.ofRecord hg'
      refine ⟨hr', href', hcan', ?_⟩
      split
      · next heq =>
        rw [heq] at hmem
        exact mem_append_left _ hmem
      · exact hmem
  ofContent := by
    intro c' g' hg'
    have hold : ∀ {c'}, g' ∈ generationsOf b c' →
        g'.contentIdentity = c' ∧ (br.set r g).get? g'.recordId = some g' := by
      intro c' hmem
      obtain ⟨hc', hget⟩ := h.ofContent hmem
      exact ⟨hc', get?_set_of_some hr hget⟩
    rw [generationsOf_set] at hg'
    split at hg'
    · next heq =>
      rcases mem_append.mp hg' with hmem | hmem
      · rw [heq]
        exact hold hmem
      · obtain rfl := mem_singleton.mp hmem
        rw [hrec, get?_set_self]
        exact ⟨hc.trans heq.symm, rfl⟩
    · exact hold hg'
  numbers := by
    intro c'
    rw [generationsOf_set]
    split
    · rw [map_append, h.numbers c, length_append, length_singleton,
        range'_concat, map_singleton, hnum, h.numbers c, foldl_max_range']
      simp [Nat.add_comm]
    · exact h.numbers c'
  superseded := by
    intro c' g' hg'
    rw [generationsOf_set] at hg'
    split at hg'
    · rw [dropLast_concat] at hg'
      exact hp g' hg'
    · exact h.superseded c' g' hg'

section Row

variable {rows : List RawIdentity} {i : RawIdentity}

theorem Rowed.register {b : Dict String RawIdentity} (h : Rowed rows b br tm)
    (hnew : br.get? i.id = none) (hfree : b.get? i.contentIdentity = none)
    (hrow : ∀ row ∈ rows, row.id ≠ i.id) (ht : tm.get? i.id = none)
    (hg : g.contentIdentity = i.contentIdentity) :
    Rowed (rows ++ [i]) (b.set i.contentIdentity i) (br.set i.id g) tm where
  distinct := h.distinct.concat hrow
  ofRow := by
    intro row hmem
    rcases mem_append.mp hmem with hmem | hmem
    · obtain ⟨g', hg', hc, ht⟩ := h.ofRow hmem
      exact ⟨g', get?_set_of_some hnew hg', hc, ht⟩
    · obtain rfl := mem_singleton.mp hmem
      exact ⟨g, get?_set_self _ _ _, hg, ht⟩
  ofGeneration := by
    intro r g' hg' ht
    rw [get?_set] at hg'
    split at hg'
    · next heq => exact ⟨i, mem_append_right _ (mem_singleton_self _), heq.symm⟩
    · obtain ⟨row, hmem, hr⟩ := h.ofGeneration hg' ht
      exact ⟨row, mem_append_left _ hmem, hr⟩
  ofContent := get?_set_concat h.ofContent hfree

theorem Consented.register {as : Dict String (Dict String RawConsentAssociation)}
    (h : Consented as rows br) (hrow : ∀ row ∈ rows, row.id ≠ i.id) :
    Consented as (rows ++ [i]) (br.set i.id g) where
  ofRecord := by
    intro r d hd
    obtain ⟨row, hmem, hr⟩ := h.ofRecord hd
    exact ⟨row, mem_append_left _ hmem, hr⟩
  ofGrant := by
    intro r d grant' a hd ha
    refine ⟨(h.ofGrant hd ha).1, fun g' hg' => ?_⟩
    obtain ⟨row, hmem, hr⟩ := h.ofRecord hd
    -- the consent is of an older row, whose generation has not changed
    rw [get?_set_of_ne _ _ (hr ▸ hrow row hmem)] at hg'
    exact (h.ofGrant hd ha).2 g' hg'

end Row

/-! ### Copies -/

theorem Exact.admission (h : Exact s) {i : RawIdentity}
    (hfree : s.raw.byIdentity.get? i.contentIdentity = none) (hfr : Fresh env s)
    (hid : i.id = env.recordId) (hcp : copy.id = env.recordId) (hrec : copy.recordId = env.recordId)
    (hact : copy.active) (hnum : copy.rawGeneration = g.generation)
    (hhot : copy.storageKind = .postgresHot) (htok : copy.archiveToken = none)
    (har : copy.archiveGeneration = none)
    (hreg : registerGeneration s.live env.recordId i.contentIdentity i.ingestedAt = .ok (live, g))
    (hgr : grant ≠ "") : Exact { raw := admitted s.raw i copy grant, live } := by
  obtain ⟨hpr, hg, rfl⟩ := registerGeneration_eq_ok hfr.record hreg
  have hnew : s.live.generationsByRecord.get? i.id = none := hid ▸ hfr.record
  -- no row and no tombstone is of the new record
  have hrow : ∀ row ∈ s.raw.rows, row.id ≠ i.id := by
    intro row hmem heq
    obtain ⟨g', hg', -⟩ := h.rowed.ofRow hmem
    rw [heq, hnew] at hg'
    cases hg'
  have htb : s.live.tombstonesByRecord.get? i.id = none := by
    rw [Option.eq_none_iff_forall_ne_some]
    intro t ht
    obtain ⟨hmem, hr⟩ := h.receipted.ofRecord.mp ht
    obtain ⟨g', hg', -⟩ := h.receipted.ofTombstone t hmem
    rw [hr, hnew] at hg'
    cases hg'
  have hold : ∀ {r g'}, s.live.generationsByRecord.get? r = some g' →
      (s.live.generationsByRecord.set env.recordId g).get? r = some g' :=
    fun hg' => get?_set_of_some hfr.record hg'
  have hsp : Store.supported copy := by
    simp [Store.supported, hhot, htok, har, hnum, hg]
  have hec : Exact
      { raw := RawLiveness.withRow s.raw i copy
        live := { s.live with
          generationsByRecord := s.live.generationsByRecord.set env.recordId g
          generationsByContent := s.live.generationsByContent.set i.contentIdentity
            (generationsOf s.live.generationsByContent i.contentIdentity ++ [g]) } } :=
    { numbered := h.numbered.register hfr.record hfr.canonical hpr (by rw [hg])
        (by rw [hg]) (by rw [hg]) (by rw [hg])
      rowed := hid ▸ h.rowed.register hnew hfree hrow htb (by rw [hg])
      copied := h.copied.withRow (hrec.trans hid.symm) hact hsp (hcp ▸ hfr.copy) hrow
      consented := hid ▸ h.consented.register hrow
      receipted := { h.receipted with
        ofTombstone := fun t ht => by
          obtain ⟨g', hg', hrs⟩ := h.receipted.ofTombstone t ht
          exact ⟨g', hold hg', hrs⟩ }
      drained := { h.drained with
        ofLease := fun lease hls => by
          obtain ⟨g', hg', hn⟩ := h.drained.ofLease lease hls
          exact ⟨g', hold hg', hn⟩ } }
  unfold admitted
  rcases associateConsent_cases (RawLiveness.withRow s.raw i copy) i.id
    copy.rawGeneration grant i.ingestedAt with heq | heq
  · rw [heq]
    exact hec
  · rw [heq]
    refine { hec with copied := { hec.copied with }, consented := ?_ }
    have hrow' : ∃ row ∈ s.raw.rows ++ [i], row.id = i.id :=
      ⟨i, mem_append_right _ (mem_singleton_self _), rfl⟩
    have hg' : (s.live.generationsByRecord.set env.recordId g).get? i.id = some g := by
      rw [hid, get?_set_self]
    rw [hnum]
    exact hec.consented.set hgr hrow' hg'

theorem Exact.register (h : Exact s) (ha : assertGenerationActive s.live copy.recordId c = .ok g)
    (hnew : s.raw.representations.get? copy.id = none) (hi : copy.active = false)
    (hb : Store.supported copy ∨ (copy.storageKind = .encryptedLocalCold ∧
      (falsy copy.archiveToken || falsy copy.archiveGeneration) = true)) :
    Exact { s with raw := withRepresentation s.raw copy } := by
  obtain ⟨hg, -, ht, -⟩ := assertGenerationActive_eq_ok_iff.mp ha
  have hr := h.rowed.ofGeneration hg ht
  exact { h with copied := h.copied.withRepresentation hnew hi hb hr }

theorem Exact.activate (h : Exact s) {id : String} (hcp : s.raw.representations.get? id = some copy)
    (hs : Store.supported copy) : Exact { s with raw := s.raw.activate copy.recordId id } :=
  { h with copied := h.copied.activate hcp hs }

/-! ### Leases and claims -/

theorem Exact.lease (h : Exact s) {i : ℤ} (ha : assertGenerationActive s.live g.recordId c = .ok g)
    : Exact { s with live :=
      { s.live with leases := s.live.leases ++ [newLease env s.live g i] } } := by
  obtain ⟨hg, -, htb, hcl⟩ := assertGenerationActive_eq_ok_iff.mp ha
  refine { h with drained := ?_ }
  refine
    { ofLease := fun lease hl => ?_
      claimed := fun {r claim} hr lease hl hrec => ?_
      erased := fun t ht lease hl hrec => ?_ }
  · rcases mem_append.mp hl with hl | hl
    · exact h.drained.ofLease lease hl
    · obtain rfl := mem_singleton.mp hl
      exact ⟨g, hg, rfl⟩
  · rcases mem_append.mp hl with hl | hl
    · exact h.drained.claimed hr lease hl hrec
    · obtain rfl := mem_singleton.mp hl
      rw [← hrec] at hr
      rw [show (newLease env s.live g i).recordId = g.recordId from rfl, hcl] at hr
      cases hr
  · rcases mem_append.mp hl with hl | hl
    · exact h.drained.erased t ht lease hl hrec
    · obtain rfl := mem_singleton.mp hl
      have hget := h.receipted.ofRecord.mpr ⟨ht, hrec.symm⟩
      rw [show (newLease env s.live g i).recordId = g.recordId from rfl, htb] at hget
      cases hget

theorem Exact.claim (h : Exact s) (env : Env) (g : RawLivenessGeneration) (rs : String) (rwd ca : ℤ)
    (p : DeletionPayload) :
    Exact { s with live := (claimRetention env g rs rwd ca p s.live).1 } := by
  unfold claimRetention
  cases hcl : s.live.retentionClaimsByRecord.get? g.recordId with
  | some e => exact h
  | none =>
    refine { h with drained := ?_ }
    refine { h.drained with claimed := fun {r claim} hr lease hl hrec => ?_ }
    rw [get?_set] at hr
    split at hr
    · next heq =>
      cases hr
      refine le_foldl_max ?_
      rcases le_or_gt lease.expiresAt ca with hle | hlt
      · exact .inl hle
      · refine .inr (mem_map.mpr ⟨lease, mem_filter.mpr ⟨hl, ?_⟩, rfl⟩)
        rw [decide_eq_true_eq]
        exact ⟨hrec.trans heq, hlt⟩
    · exact h.drained.claimed hr lease hl hrec

/-! ### Erasure -/

theorem Rowed.hardDelete {raw' : Store} (h : Rowed raw.rows raw.byIdentity br tm)
    (hraw : raw.hardDelete r = .ok (raw', true)) (t : RawDeletionTombstone) :
    Rowed raw'.rows raw'.byIdentity br (tm.set r t) := by
  obtain ⟨row, hrow, rfl, -⟩ := hardDelete_eq_ok hraw
  obtain ⟨hrow, hr⟩ := row?_eq_some hrow
  have hm : ∀ {row'}, row' ∈ (without raw r row.contentIdentity).rows ↔
      row' ∈ raw.rows ∧ row'.id ≠ r := mem_rows_without h.distinct
  refine
    { distinct := h.distinct.sublist (eraseP_sublist.map _)
      ofRow := fun {row'} hrow' => ?_
      ofGeneration := fun {r' g} hg ht => ?_
      ofContent := fun {c row'} => ?_ }
  · obtain ⟨hrow', hne⟩ := hm.mp hrow'
    obtain ⟨g, hg, hc, ht⟩ := h.ofRow hrow'
    exact ⟨g, hg, hc, by rw [get?_set_of_ne _ _ hne, ht]⟩
  · rw [get?_set] at ht
    split at ht
    · cases ht
    · next hne =>
      obtain ⟨row', hrow', hr'⟩ := h.ofGeneration hg ht
      exact ⟨row', hm.mpr ⟨hrow', hr'.symm ▸ hne⟩, hr'⟩
  · -- the bytes of the deleted row have no other row
    rw [hm, without, get?_erase]
    have hget := h.ofContent.mpr ⟨hrow, rfl⟩
    split
    · next heq =>
      rw [heq]
      constructor
      · exact fun hn => nomatch hn
      · rintro ⟨⟨hrow', hne⟩, hc⟩
        have hget' := h.ofContent.mpr ⟨hrow', hc⟩
        rw [hget] at hget'
        exact absurd (Option.some.inj hget' ▸ hr) hne
    · next hne =>
      rw [h.ofContent]
      constructor
      · rintro ⟨hrow', hc⟩
        refine ⟨⟨hrow', fun hr' => hne ?_⟩, hc⟩
        rw [← hc, h.distinct.eq_of_key_eq hrow' hrow (hr'.trans hr.symm)]
      · exact fun hm' => ⟨hm'.1.1, hm'.2⟩

theorem Exact.erase (h : Exact s) {rq : DeleteRequest} {p : DeletionPayload}
    {b : Dict String ColdBinding} {cl : RawRetentionClaim}
    (hgen : s.live.generationsByRecord.get? rq.recordId = some g)
    (htb : s.live.tombstonesByRecord.get? rq.recordId = none)
    (hcl : s.live.retentionClaimsByRecord.get? rq.recordId = some cl)
    (hdr : cl.drainAfter ≤ rq.deletedAt)
    (hrc : ∀ receipt ∈ s.live.deletionReceipts, receipt.id ≠ env.receiptId)
    (hraw : s.raw.hardDelete rq.recordId = .ok (raw, true)) :
    Exact (erasedBy raw (newReceipt env rq g p b) (newTombstone env rq g) s.live) := by
  have hrw : ∀ {row}, row ∈ raw.rows ↔ row ∈ s.raw.rows ∧ row.id ≠ rq.recordId := by
    obtain ⟨row, -, rfl, -⟩ := hardDelete_eq_ok hraw
    exact mem_rows_without h.rowed.distinct
  have hass : ∀ r, raw.consentAssociations.get? r =
      if r = rq.recordId then none else s.raw.consentAssociations.get? r := by
    obtain ⟨row, -, rfl, -⟩ := hardDelete_eq_ok hraw
    exact fun r => get?_erase _ _ _
  refine
    { numbered := ?_
      rowed := h.rowed.hardDelete hraw (newTombstone env rq g)
      copied := h.copied.hardDelete h.rowed.distinct hraw
      consented := ?_
      receipted := ?_
      drained := ?_ }
  · refine { h.numbered with superseded := fun c g' hg' => ?_ }
    have hold := h.numbered.superseded c g' hg'
    simp only [erasedBy]
    rw [get?_set]
    split
    · rfl
    · exact hold
  · refine { ofRecord := fun {r d} hd => ?_, ofGrant := fun {r d grant a} hd ha => ?_ }
    · simp only [erasedBy] at hd ⊢
      rw [hass] at hd
      split at hd
      · cases hd
      · next hne =>
        obtain ⟨row, hrow, hr⟩ := h.consented.ofRecord hd
        exact ⟨row, hrw.mpr ⟨hrow, hr.symm ▸ hne⟩, hr⟩
    · simp only [erasedBy] at hd
      rw [hass] at hd
      split at hd
      · cases hd
      · exact h.consented.ofGrant hd ha
  · refine
      { ofRecord := fun {r t} => ?_
        ofTombstone := fun t ht => ?_
        pairs := rel_append h.receipted.pairs (.cons ⟨rfl, rfl, rfl⟩ .nil)
        distinct := ?_
        queued := fun receipt hmem => ?_ }
    · -- the record had no tombstone before
      exact get?_set_concat h.receipted.ofRecord htb
    · rcases mem_append.mp ht with ht | ht
      · exact h.receipted.ofTombstone t ht
      · obtain rfl := mem_singleton.mp ht
        exact ⟨g, hgen, rfl, rfl, rfl⟩
    · exact h.receipted.distinct.concat hrc
    · rcases mem_append.mp hmem with hmem | hmem
      · exact h.receipted.queued receipt hmem
      · obtain rfl := mem_singleton.mp hmem
        rfl
  · refine { h.drained with erased := fun t ht lease hls hrec => ?_ }
    rcases mem_append.mp ht with ht | ht
    · exact h.drained.erased t ht lease hls hrec
    · -- the claim ran until the last lease had run out, and is drained
      obtain rfl := mem_singleton.mp ht
      exact (h.drained.claimed hcl lease hls hrec).trans hdr

/-! ### Queues -/

theorem Exact.drain (h : Exact s) (ri : String) (rm : List String) :
    Exact { s with live := setQueue s.live ri rm } := by
  have hr : Receipted s.live.generationsByRecord s.live.tombstonesByRecord
      s.live.tombstones (setQueue s.live ri rm).deletionReceipts :=
    { h.receipted with
      pairs := by
        unfold setQueue modifyBy
        simp only
        rw [forall₂_map_right_iff]
        refine h.receipted.pairs.imp fun t receipt hp => ?_
        split
        · exact hp
        · exact hp
      distinct := by
        unfold DistinctKeys setQueue
        rw [map_key_modifyBy]
        · exact h.receipted.distinct
        · exact fun receipt hid => hid
      queued := by
        intro receipt hm
        obtain ⟨old, ho, rfl⟩ := mem_map.mp hm
        split
        · rfl
        · exact h.receipted.queued old ho }
  exact { h with receipted := hr }

/-- **Every change keeps the state exact.** -/
theorem Exact.change {cr : Crypto} {gr : String → Prop} {t : Memory} (h : Exact s)
    (hchg : Change cr gr s t) : Exact t := by
  cases hchg with
  | associate hact hgr _ => exact h.associate hact hgr
  | admission hfree hfr hid hcp hrec hact hnum hhot htok har hreg
      hgr _ =>
    exact h.admission hfree hfr hid hcp hrec hact hnum hhot htok har hreg hgr
  | register hact hnew hin hbd => exact h.register hact hnew hin hbd
  | activate _ hcp hrec hsp => exact hrec ▸ h.activate hcp hsp
  | lease hact => exact h.lease hact
  | claim => exact h.claim ..
  | erase hgen htb hcl hdr _ hrc hraw => exact h.erase hgen htb hcl hdr hrc hraw
  | drain => exact h.drain ..

end AgenticPkm.RawLiveness
