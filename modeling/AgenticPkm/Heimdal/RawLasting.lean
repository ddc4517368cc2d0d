import AgenticPkm.Heimdal.RawRuns

/-!
# What lasts of raw evidence

Whatever calls follow: a tombstone stays, an emptied queue stays empty, and the consent of a record
is found at the record or, once it is erased, as a digest in the receipt of its deletion.  New
consents come from admissions alone.
-/

namespace AgenticPkm.RawLiveness

open RawStore Relation List

variable {crypto : Crypto} {grants : String → Prop}

/-- The record is erased, and the receipt of its deletion names the digest of a grant. -/
def Correlated (crypto : Crypto) (live : Authority) (grant r : String) : Prop :=
  ∃ tombstone receipt, live.tombstonesByRecord.get? r = some tombstone ∧
    receipt ∈ live.deletionReceipts ∧ receipt.id = tombstone.deletionReceiptId ∧
    crypto.sha256 grant ∈ receipt.payload.consentGrantDigests.getD []

/-- What holds between a state and a later one. -/
structure Lasting (crypto : Crypto) (grants : String → Prop) (s t : Memory) : Prop where
  tombstone : ∀ {r tombstone}, s.live.tombstonesByRecord.get? r = some tombstone →
    t.live.tombstonesByRecord.get? r = some tombstone
  gone : ∀ {r}, Gone s.live r → Gone t.live r
  correlated : ∀ {grant r}, Correlated crypto s.live grant r → Correlated crypto t.live grant r
  consent : ∀ {grant r}, grant ∈ s.raw.consentGrantRefs r →
    grant ∈ t.raw.consentGrantRefs r ∨ Correlated crypto t.live grant r
  admitted : ∀ {grant r}, grant ∈ t.raw.consentGrantRefs r →
    grant ∈ s.raw.consentGrantRefs r ∨ grants grant

theorem Lasting.refl (s : Memory) : Lasting crypto grants s s where
  tombstone := id
  gone := id
  correlated := id
  consent := .inl
  admitted := .inl

variable {s t : Memory} {raw : Store} {grant r : String} {rq : DeleteRequest} {env : Env}

theorem Lasting.trans {u : Memory} (h : Lasting crypto grants s t)
    (h' : Lasting crypto grants t u) : Lasting crypto grants s u where
  tombstone := fun ht => h'.tombstone (h.tombstone ht)
  gone := fun hg => h'.gone (h.gone hg)
  correlated := fun hc => h'.correlated (h.correlated hc)
  consent := fun hm => (h.consent hm).elim h'.consent fun hc => .inr (h'.correlated hc)
  admitted := fun hm => (h'.admitted hm).elim h.admitted .inr

theorem Lasting.of_live_eq (htb : t.live.tombstonesByRecord = s.live.tombstonesByRecord)
    (hr : t.live.deletionReceipts = s.live.deletionReceipts)
    (hcn : ∀ {grant r}, grant ∈ s.raw.consentGrantRefs r → grant ∈ t.raw.consentGrantRefs r)
    (ha : ∀ {grant r}, grant ∈ t.raw.consentGrantRefs r →
      grant ∈ s.raw.consentGrantRefs r ∨ grants grant) : Lasting crypto grants s t where
  tombstone := fun ht => by rw [htb, ht]
  gone := fun hg => by
    unfold Gone QueueIs at hg ⊢
    rwa [htb, hr]
  correlated := fun hc => by
    unfold Correlated at hc ⊢
    rwa [htb, hr]
  consent := fun hm => .inl (hcn hm)
  admitted := ha

/-! ### Consents -/

variable {grant' r' : String} {n : ℕ} {aa : ℤ} {g : RawLivenessGeneration}
  {p : DeletionPayload}

theorem mem_consentGrantRefs_set {a : RawConsentAssociation} :
    grant' ∈ Store.consentGrantRefs { raw with
        consentAssociations := raw.consentAssociations.set r
          (((raw.consentAssociations.get? r).getD ∅).set grant a) } r' ↔
      grant' ∈ raw.consentGrantRefs r' ∨ (r' = r ∧ grant' = grant) := by
  unfold Store.consentGrantRefs
  rw [Dict.get?_set]
  split
  · next heq =>
    subst heq
    simp only [Option.getD_some, Dict.mem_keys, Dict.get?_set, true_and]
    by_cases hg : grant' = grant <;> simp [hg]
  · next hne => simp [hne]

theorem mem_consentGrantRefs_associateConsent
    (h : grant' ∈ (raw.associateConsent r n grant aa).1.consentGrantRefs r') :
    grant' ∈ raw.consentGrantRefs r' ∨ grant' = grant := by
  rcases associateConsent_cases raw r n grant aa with heq | heq
  · rw [heq] at h
    exact .inl h
  · rw [heq, mem_consentGrantRefs_set] at h
    exact h.imp_right fun hnew => hnew.2

theorem consentGrantRefs_subset_associateConsent (raw : Store) (r r' gr : String) (n : ℕ)
    (a : ℤ) : raw.consentGrantRefs r' ⊆ (raw.associateConsent r n gr a).1.consentGrantRefs r' := by
  intro gr' hm
  rcases associateConsent_cases raw r n gr a with heq | heq
  · rw [heq]
    exact hm
  · rw [heq, mem_consentGrantRefs_set]
    exact .inl hm

theorem Lasting.associate {live : Authority} (ha : grants grant)
    (hraw : raw.consentAssociations = s.raw.consentAssociations)
    (ht : live.tombstonesByRecord = s.live.tombstonesByRecord)
    (hrc : live.deletionReceipts = s.live.deletionReceipts) :
    Lasting crypto grants s ⟨(raw.associateConsent r n grant aa).1, live⟩ := by
  have hr : ∀ r, raw.consentGrantRefs r = s.raw.consentGrantRefs r := by
    intro r
    unfold Store.consentGrantRefs
    rw [hraw]
  refine .of_live_eq ht hrc (fun {grant' r'} hm => ?_) fun {grant' r'} hm => ?_
  · rw [← hr] at hm
    exact consentGrantRefs_subset_associateConsent raw r r' grant n aa hm
  · rw [← hr]
    refine (mem_consentGrantRefs_associateConsent hm).imp_right ?_
    rintro rfl
    exact ha

/-! ### Erasures -/

/-- The digests of all grants of a record are written into the receipt of its deletion. -/
theorem mem_digests_of_deletionPayload (h : Exact s) (hp : deletionPayload crypto rq g s = .ok p)
    (hg : grant ∈ s.raw.consentGrantRefs rq.recordId) :
    crypto.sha256 grant ∈ p.consentGrantDigests.getD [] := by
  have hne : grant ≠ "" := by
    unfold Store.consentGrantRefs at hg
    obtain ⟨a, ha⟩ := Dict.mem_keys.mp hg
    cases hd : s.raw.consentAssociations.get? rq.recordId with
    | none =>
      rw [hd] at ha
      simp at ha
    | some =>
      rw [hd] at ha
      exact (h.consented.ofGrant hd ha).1
  unfold deletionPayload at hp
  simp only [bind_unit_eq_ok_iff] at hp
  obtain ⟨-, hp⟩ := hp
  split at hp
  · cases hp
  simp only [bind_eq_ok_iff] at hp
  obtain ⟨_, -, hp⟩ := hp
  unfold governedDeletionPayload at hp
  dsimp only at hp
  split at hp
  · cases hp
  split at hp
  · cases hp
  split at hp
  · cases hp
  · cases hp
    simp only [Option.getD_some, mem_sortedBy]
    refine mem_map_of_mem (mem_sortedSet.mpr (mem_filter.mpr ⟨hg, ?_⟩))
    simpa using hne

theorem Lasting.erase (h : Exact s) {b : Dict String ColdBinding}
    (htb : s.live.tombstonesByRecord.get? rq.recordId = none)
    (hpy : deletionPayload crypto rq g s = .ok p)
    (hrec : ∀ receipt ∈ s.live.deletionReceipts, receipt.id ≠ env.receiptId)
    (hraw : s.raw.hardDelete rq.recordId = .ok (raw, true)) :
    Lasting crypto grants s (erasedBy raw (newReceipt env rq g p b)
      (newTombstone env rq g) s.live) := by
  -- another record keeps its tombstone, this one had none
  have hkp : ∀ {r tombstone}, s.live.tombstonesByRecord.get? r = some tombstone →
      (s.live.tombstonesByRecord.set rq.recordId (newTombstone env rq g)).get? r =
        some tombstone := fun ht => Dict.get?_set_of_some htb ht
  obtain ⟨row, -, rfl, -⟩ := hardDelete_eq_ok hraw
  have hrf : ∀ r, Store.consentGrantRefs (without s.raw rq.recordId row.contentIdentity) r =
      if r = rq.recordId then [] else s.raw.consentGrantRefs r := by
    intro r
    unfold Store.consentGrantRefs without
    rw [Dict.get?_erase]
    split <;> rfl
  exact
    { tombstone := hkp
      gone := by
        rintro r ⟨tombstone, ht, ⟨receipt, hmem, hid⟩, hqu⟩
        refine ⟨tombstone, hkp ht, ⟨receipt, mem_append_left _ hmem, hid⟩,
          fun receipt' hmem' hid' => ?_⟩
        rcases mem_append.mp hmem' with hold | hnew
        · exact hqu receipt' hold hid'
        · obtain rfl := mem_singleton.mp hnew
          exact absurd (hid.trans hid'.symm) (hrec receipt hmem)
      correlated := by
        rintro grant r ⟨tombstone, receipt, ht, hmem, hid, hdig⟩
        exact ⟨tombstone, receipt, hkp ht, mem_append_left _ hmem, hid, hdig⟩
      consent := by
        intro grant r hmem
        by_cases hr : r = rq.recordId
        · subst hr
          refine .inr ⟨newTombstone env rq g, newReceipt env rq g p b,
            Dict.get?_set_self _ _ _, mem_append_right _ (mem_singleton_self _), rfl, ?_⟩
          have hdig := mem_digests_of_deletionPayload h hpy hmem
          exact hdig
        · left
          rw [erasedBy, hrf, if_neg hr]
          exact hmem
      admitted := by
        intro grant r hmem
        change grant ∈ Store.consentGrantRefs (without s.raw _ _) r at hmem
        rw [hrf] at hmem
        split at hmem
        · cases hmem
        · exact .inl hmem }

/-! ### Queues -/

theorem Lasting.drain (h : Exact s) {ri : String} {rc : DeletionReceipt} {q rm : List String}
    (hrec : rc ∈ s.live.deletionReceipts) (hid : rc.id = ri)
    (hq : rc.payload.coldCleanupLocationRefs = some q) (hr : rm.Sublist q) :
    Lasting crypto grants s { s with live := setQueue s.live ri rm } where
  tombstone := id
  gone := by
    rintro r ⟨tombstone, ht, ⟨rc', hm', hid'⟩, hemp⟩
    refine ⟨tombstone, ht, ⟨_, mem_map_of_mem hm', ?_⟩, fun receipt₁ hmem₁ hid₁ => ?_⟩
    · split <;> exact hid'
    · obtain ⟨old, ho, rfl⟩ := mem_map.mp hmem₁
      have ho' := hemp old ho (by split at hid₁ <;> exact hid₁)
      split
      · next hsame =>
        -- the queue that gets shorter was empty
        obtain rfl := h.receipted.distinct.eq_of_key_eq ho hrec (hsame.trans hid.symm)
        rw [hq] at ho'
        rw [Option.some.inj ho', sublist_nil] at hr
        exact congrArg some hr
      · exact ho'
  correlated := by
    rintro grant r ⟨tombstone, rc', ht, hm', hid', hd⟩
    refine ⟨tombstone, _, ht, mem_map_of_mem hm', ?_, ?_⟩
    · split <;> exact hid'
    · split <;> exact hd
  consent := .inl
  admitted := .inl

/-! ### Chains -/

theorem Change.lasting (h : Exact s) (hchg : Change crypto grants s t) :
    Lasting crypto grants s t := by
  cases hchg with
  | associate _ _ hall => exact .associate hall rfl rfl rfl
  | admission _ hfr _ _ _ _ _ _ _ _ hreg _ hall =>
    obtain ⟨-, -, rfl⟩ := registerGeneration_eq_ok hfr.record hreg
    exact .associate hall rfl rfl rfl
  | register | activate | lease => exact .of_live_eq rfl rfl id .inl
  | claim =>
    obtain ⟨_, b, claim, hcl, -⟩ := claimRetention_spec ..
    rw [hcl]
    exact .of_live_eq rfl rfl id .inl
  | erase _ htb _ _ hpy hrec hraw => exact .erase h htb hpy hrec hraw
  | drain hrec hid hqu hrem => exact .drain h hrec hid hqu hrem

/-- **What lasts**, between the two ends of every chain of changes. -/
theorem Chain.lasting (h : Exact s) (hch : Chain crypto grants s t) :
    Lasting crypto grants s t := by
  induction hch with
  | refl => exact .refl s
  | tail hch hchg ih => exact ih.trans (hchg.lasting (h.chain hch))

/-! ### Deletions of what is erased -/

theorem tombstone_eq_none_of_leaseValid (h : (governedDelete crypto env rq s).2 = .ok .leaseValid) :
    s.live.tombstonesByRecord.get? rq.recordId = none := by
  unfold governedDelete at h
  split at h
  · cases h
  split at h
  · cases h
  split at h
  · next ht => exact ht
  · split at h
    · cases h
    · dsimp only at h
      split at h <;> cases h

/-- **A deletion of what is erased that returns** has emptied the queue. -/
theorem gone_of_governedDelete (h : Exact s)
    (hr : ∀ receipt ∈ s.live.deletionReceipts, receipt.id ≠ env.receiptId)
    {o : DeletionOutcome} (hok : (governedDelete crypto env rq s).2 = .ok o)
    (hes : (s.live.tombstonesByRecord.get? rq.recordId).isSome) :
    Gone (governedDelete crypto env rq s).1.live rq.recordId := by
  have hg : Chain crypto (fun _ => False) s _ ∧ _ := governedDelete_chain h hr rq
  rcases hg.2 o hok with rfl | hg
  · rw [tombstone_eq_none_of_leaseValid hok] at hes
    cases hes
  · exact hg

end AgenticPkm.RawLiveness
