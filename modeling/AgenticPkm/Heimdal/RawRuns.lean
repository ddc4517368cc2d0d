import AgenticPkm.Heimdal.RawExact
import AgenticPkm.Lib.Journal
import Mathlib.Logic.Relation

/-!
# Raw liveness is exact and all-or-nothing

Every call on raw evidence, whatever hook raises in it and whatever cold object cannot be deleted,
is a chain of the changes of `RawExact`.  A deletion that fails before the raw state is gone is no
change at all, or the claim alone; one that fails later is the erasure with some of its cold
objects still queued.  So what every change keeps holds after any calls.

* `raw_liveness_exact` — **what holds after any calls**.
-/

namespace AgenticPkm.RawLiveness

open RawStore Relation List Option

variable {crypto : Crypto}

/-- Changes one after the other. -/
abbrev Chain (crypto : Crypto) (grants : String → Prop) : Memory → Memory → Prop :=
  ReflTransGen (Change crypto grants)

variable {s t : Memory} {c r : String} {env : Env} {g : RawLivenessGeneration} {live : Authority}

theorem Exact.chain {gr : String → Prop} (h : Exact s) (hch : Chain crypto gr s t) : Exact t := by
  induction hch with
  | refl => exact h
  | tail _ hchg ih => exact ih.change hchg

/-! ### Inserts -/

theorem Exact.consentAssociations_eq_none (h : Exact s)
    (hr : s.live.generationsByRecord.get? r = none) : s.raw.consentAssociations.get? r = none := by
  rw [eq_none_iff_forall_ne_some]
  intro d hd
  obtain ⟨row, hrow, rfl⟩ := h.consented.ofRecord hd
  obtain ⟨g, hg, -⟩ := h.rowed.ofRow hrow
  rw [hr] at hg
  cases hg

/-- Bytes without a row have no generation that is not erased, so a new one can be registered. -/
theorem Exact.exists_registerGeneration (h : Exact s)
    (hr : s.live.generationsByRecord.get? r = none) (hc : s.raw.byIdentity.get? c = none)
    (a : ℤ) : ∃ live g, registerGeneration s.live r c a = .ok (live, g) := by
  have hp : ¬ ((generationsOf s.live.generationsByContent c).any fun item =>
      (s.live.tombstonesByRecord.get? item.recordId).isNone) := by
    rw [List.any_eq_true]
    rintro ⟨g, hm, hn⟩
    obtain ⟨hcn, hg⟩ := h.numbered.ofContent hm
    obtain ⟨_, hrow, hid⟩ := h.rowed.ofGeneration hg (isNone_iff_eq_none.mp hn)
    obtain ⟨_, hg', hcn', -⟩ := h.rowed.ofRow hrow
    rw [hid, hg] at hg'
    cases hg'
    have hget := h.rowed.ofContent.mpr ⟨hrow, hcn'.symm.trans hcn⟩
    rw [hc] at hget
    cases hget
  unfold generationsOf at hp
  simp only [registerGeneration, hr, hp, Bool.false_eq_true, if_false]
  exact ⟨_, _, rfl⟩

def insertedCopy (record : RawRecord) (g : RawLivenessGeneration) : RawRepresentation :=
  { firstRepresentation record with rawGeneration := g.generation }

variable {re : RawRecord} {key locationRef : String} {raw : Store}
  {tombstone : RawDeletionTombstone} {receipt : DeletionReceipt} {α : Type}

/-- **What an insert does** to bytes that are not held. -/
theorem insert_new (h : Exact s) (hf : Fresh env s) (hid : re.id = env.recordId)
    (hfr : s.raw.byIdentity.get? re.contentIdentity = none) :
    ∃ live g, registerGeneration s.live env.recordId re.contentIdentity env.now = .ok (live, g) ∧
      insert env re s =
        ({ raw := admitted s.raw { re.toRawIdentity with ingestedAt := env.now }
            (insertedCopy re g) re.consent.grantRef, live },
          .ok ({ re with ingestedAt := env.now }, true)) := by
  obtain ⟨live, g, hr⟩ := h.exists_registerGeneration hf.record hfr env.now
  have hn := h.consentAssociations_eq_none hf.record
  refine ⟨live, g, hr, ?_⟩
  simp only [insert, hfr, hid, hr, admitted, withRow, insertedCopy, firstRepresentation,
    Dict.set_set, Store.associateConsent, hn, getD_none, Dict.get?_empty]
  rfl

theorem insert_chain (h : Exact s) (hf : Fresh env s) (hid : re.id = env.recordId)
    (hg : re.consent.grantRef ≠ "") :
    Chain crypto (· = re.consent.grantRef) s (insert env re s).1 := by
  cases hget : s.raw.byIdentity.get? re.contentIdentity with
  | none =>
    obtain ⟨live, g, hr, heq⟩ := insert_new h hf hid hget
    rw [heq]
    exact .single (.admission hget hf hid hid hid rfl rfl rfl rfl rfl hr hg rfl)
  | some ex =>
    simp only [insert, hget]
    cases ha : assertGenerationActive s.live ex.id re.contentIdentity with
    | error => exact .refl
    | ok g =>
      have hchg : Change crypto (· = re.consent.grantRef) s { s with
          raw := (s.raw.associateConsent ex.id g.generation re.consent.grantRef
            env.now).1 } := .associate ha hg rfl
      dsimp only
      split
      · next raw e heq =>
        rw [heq] at hchg
        exact .single hchg
      · next raw a heq =>
        rw [heq] at hchg
        exact .single hchg

theorem insertRawRecord_cases (env : Env) (rq : InsertRequest) (s : Memory) :
    (∃ e, insertRawRecord crypto env rq s = (s, .error e)) ∨
      (rq.consent.grantRef ≠ "" ∧
        insertRawRecord crypto env rq s = insert env (rq.record env) s) := by
  unfold insertRawRecord
  split
  · exact .inl ⟨_, rfl⟩
  split
  · exact .inl ⟨_, rfl⟩
  split
  · exact .inl ⟨_, rfl⟩
  split
  · exact .inl ⟨_, rfl⟩
  next hg =>
  cases decryptAndVerify crypto rq.contentIdentity rq.ciphertext rq.nonce rq.key with
  | error => exact .inl ⟨_, rfl⟩
  | ok => exact .inr ⟨hg, rfl⟩

theorem insertRawRecord_chain (h : Exact s) (hf : Fresh env s) (rq : InsertRequest) :
    Chain crypto (· = rq.consent.grantRef) s (insertRawRecord crypto env rq s).1 := by
  rcases insertRawRecord_cases env rq s with ⟨e, heq⟩ | ⟨hg, heq⟩
  · rw [heq]
  · have hch : Chain crypto (· = (rq.record env).consent.grantRef) s
        (insert env (rq.record env) s).1 := insert_chain h hf rfl hg
    rw [heq]
    exact hch

/-! ### Copies -/

variable {gn : String → Prop}

theorem Exact.generation_pos (h : Exact s) (hg : s.live.generationsByRecord.get? r = some g) :
    0 < g.generation := by
  obtain ⟨-, -, -, hm⟩ := h.numbered.ofRecord hg
  have hn : g.generation ∈ (generationsOf s.live.generationsByContent
      g.contentIdentity).map (·.generation) := mem_map_of_mem hm
  rw [h.numbered.numbers, mem_range'_1] at hn
  omega

theorem relocationFence_eq_ok (h : relocationFence live r = .ok g) :
    assertGenerationActive live r g.contentIdentity = .ok g := by
  unfold relocationFence at h
  cases hg : live.generationsByRecord.get? r with
  | none =>
    rw [hg] at h
    cases h
  | some =>
    rw [hg] at h
    cases ht : live.tombstonesByRecord.get? r with
    | some =>
      rw [ht] at h
      cases h
    | none =>
      rw [ht] at h
      have hi := assertGenerationActive_eq_ok_iff.mp h
      rw [hi.2.1]
      exact h

theorem activateLocked_eq_ok (h : Exact s) {id : String}
    (ha : activateLocked crypto env r id key s.raw = .ok raw) :
    ∃ copy, s.raw.representations.get? id = some copy ∧ copy.recordId = r ∧
      Store.supported copy ∧ raw = s.raw.activate r id := by
  unfold activateLocked at ha
  cases hcp : s.raw.representations.get? id with
  | none =>
    rw [hcp] at ha
    cases ha
  | some copy =>
    rw [hcp] at ha
    dsimp only at ha
    split at ha
    · cases ha
    · next hrec =>
      split at ha
      · cases ha
      · simp only [bind_eq_ok_iff, exists_unit_iff, pure_eq_ok_iff] at ha
        obtain ⟨_, hr, -, -, -, rfl⟩ := ha
        refine ⟨copy, rfl, not_not.mp hrec, ?_, rfl⟩
        rcases h.copied.bound hcp with hs | ⟨hcl, hf⟩
        · exact hs
        · unfold representationCiphertext at hr
          rw [hcl] at hr
          simp [hf] at hr

theorem activateIf_chain (h : Exact s) {a : Bool} {id : String}
    (ha : assertGenerationActive s.live r c = .ok g) :
    Chain crypto gn s { s with raw := (activateIf crypto env a r id key s.raw).1 } := by
  unfold activateIf
  cases a with
  | false => exact .refl
  | true =>
    cases hact : activateLocked crypto env r id key s.raw with
    | error => exact .refl
    | ok =>
      obtain ⟨_, hcp, hr, hs, rfl⟩ := activateLocked_eq_ok h hact
      exact .single (.activate ha hcp hr hs)

theorem registerLocked_chain (h : Exact s) (rq : RegisterRequest) (a : Bool)
    (ha : assertGenerationActive s.live rq.recordId c = .ok g) :
    Chain crypto gn s { s with raw := (registerLocked crypto env rq a g.generation s.raw).1 } := by
  unfold registerLocked
  dsimp only
  split
  · exact .refl
  split
  · exact .refl
  split
  · split
    · exact .refl
    · exact activateIf_chain h ha
  · next hnew =>
    split
    · exact .refl
    · -- the copy is registered, then it may be made active
      have hp := h.generation_pos (assertGenerationActive_eq_ok_iff.mp ha).1
      have hchg : Change crypto gn s { s with
          raw := withRepresentation s.raw (hotRepresentation rq
            (rq.resolvedId env) g.generation) } :=
        .register ha hnew rfl (.inl (by simp [Store.supported, hotRepresentation, hp]))
      exact .trans (.single hchg) (activateIf_chain (h.change hchg) ha)

theorem parseColdLocationRef_eq_some {tk id : String}
    (h : parseColdLocationRef locationRef = some (tk, id)) :
    startsWith ("heimloc:cold:" ++ tk ++ ":") locationRef ∧ tk ≠ "" := by
  unfold parseColdLocationRef at h
  dsimp only at h
  split at h
  · next hf =>
    simp only [Bool.and_eq_true] at hf
    obtain ⟨⟨hl, htok⟩, hr⟩ := hf
    cases h
    obtain ⟨tail, ht⟩ := isPrefixOf_iff_prefix.mp hl
    rw [← ht, drop_left] at htok
    rw [← ht, drop_append, drop_of_length_le (by simp)] at hr
    simp only [Nat.add_sub_cancel_left, nil_append] at hr
    rw [← ht, drop_left]
    -- what follows the token begins with a colon
    have hlen : (tail.take 64).length = 64 := by
      unfold fits at htok
      simp only [Bool.and_eq_true, beq_iff_eq, length_replicate] at htok
      exact htok.1.symm
    have hcol : ∃ rest, tail.drop 64 = ':' :: rest := by
      cases hd : tail.drop 64 with
      | nil =>
        rw [hd] at hr
        simp [fits] at hr
      | cons c rest =>
        rw [hd] at hr
        unfold fits at hr
        simp only [zipWith_cons_cons, all_cons, Bool.and_eq_true, id_eq, beq_iff_eq] at hr
        exact ⟨rest, by rw [hr.2.1]⟩
    obtain ⟨rest, hr⟩ := hcol
    refine ⟨?_, ?_⟩
    · unfold startsWith
      rw [String.toList_append, String.toList_append, String.toList_ofList, ← ht,
        isPrefixOf_iff_prefix]
      refine ⟨rest, ?_⟩
      rw [append_assoc, append_assoc]
      congr 1
      conv_rhs => rw [← take_append_drop 64 tail, hr]
      rw [String.toList_ofList]
      rfl
    · intro hemp
      have hch := congrArg String.toList hemp
      rw [String.toList_ofList] at hch
      rw [hch] at hlen
      simp at hlen
  · cases h

theorem registerColdLocked_chain (h : Exact s) (rq : RegisterRequest)
    {v : VerifiedVolume} (ha : assertGenerationActive s.live rq.recordId c = .ok g)
    (hl : startsWith ("heimloc:cold:" ++ v.archiveToken ++ ":") locationRef)
    (ht : v.archiveToken ≠ "") : Chain crypto gn s { s with raw :=
      (registerColdLocked crypto env rq locationRef v g.generation s.raw).1 } := by
  unfold registerColdLocked
  dsimp only
  split
  · exact .refl
  split
  · exact .refl
  split
  · split
    · exact .refl
    · exact .refl
  · next hnew =>
    split
    · exact .refl
    · have hp := h.generation_pos (assertGenerationActive_eq_ok_iff.mp ha).1
      refine .single (Change.register ha hnew rfl ?_)
      by_cases hg : v.archiveGeneration = ""
      · exact .inr ⟨rfl, by simp [coldRepresentation, falsy, hg]⟩
      · left
        simp [Store.supported, coldRepresentation, hp, falsy, ht, hg, hl]

theorem register_chain (h : Exact s) (env : Env) (rq : RegisterRequest) (a : Bool) :
    Chain crypto gn s (registerRawRepresentation crypto env rq a s).1 := by
  unfold registerRawRepresentation
  split
  · exact .refl
  split
  · exact .refl
  split
  · exact .refl
  next g hf => exact registerLocked_chain h rq a (relocationFence_eq_ok hf)

theorem registerCold_chain (h : Exact s) (env : Env) (rq : RegisterRequest)
    (l : String) (v : Option VerifiedVolume) :
    Chain crypto gn s (registerColdRawRepresentation crypto env rq l v s).1 := by
  unfold registerColdRawRepresentation
  split
  · exact .refl
  split
  · exact .refl
  · next token o v' hp =>
    split
    · exact .refl
    split
    · exact .refl
    · next v =>
      split
      · exact .refl
      · next hsame =>
        split
        · exact .refl
        split
        · exact .refl
        · next g hf =>
          obtain ⟨hl, ht⟩ := parseColdLocationRef_eq_some hp
          rw [not_not.mp hsame] at hl ht
          exact registerColdLocked_chain h rq (relocationFence_eq_ok hf) hl ht

theorem activate_chain (h : Exact s) (env : Env) (r id key : String) :
    Chain crypto gn s (activateRawRepresentation crypto env r id key s).1 := by
  unfold activateRawRepresentation
  split
  · exact .refl
  next g hf =>
  split
  · exact .refl
  split
  · exact .refl
  · next raw ha =>
    simp only [bind_unit_eq_ok_iff] at ha
    obtain ⟨_, hcp, hr, hs, rfl⟩ := activateLocked_eq_ok h ha.2
    exact .single (.activate (relocationFence_eq_ok hf) hcp hr hs)

/-! ### Leases -/

/-- What a projection does: nothing, or one lease for an active generation. -/
theorem projectionLocked_cases (env : Env) (rr c : String) (i : ℤ) (h : Exact s) :
    (projectionLocked env rr c i s).1 = s ∨
      ∃ g, assertGenerationActive s.live g.recordId c = .ok g ∧
        (projectionLocked env rr c i s).1 = { s with
          live := { s.live with
            leases := s.live.leases ++ [newLease env s.live g i] } } := by
  unfold projectionLocked
  split
  · exact .inl rfl
  next r _ =>
  split
  · exact .inl rfl
  next g hg =>
  split
  · exact .inl rfl
  next hsame =>
  split
  · exact .inl rfl
  next ht =>
  split
  · exact .inl rfl
  split
  · exact .inl rfl
  next hcl =>
  obtain ⟨hr, -⟩ := h.numbered.ofRecord hg
  have ha : assertGenerationActive s.live g.recordId c = .ok g := by
    rw [not_or, not_not] at hsame
    rw [Bool.not_eq_true, isSome_eq_false_iff, isNone_iff_eq_none] at hcl
    rw [assertGenerationActive_eq_ok_iff, hr]
    exact ⟨hg, hsame.1, ht, hcl⟩
  unfold leaseActive
  split
  · exact .inl rfl
  · refine .inr ⟨g, ha, ?_⟩
    dsimp only
    split <;> rfl

theorem projectAll_cases (env : Env) (i : ℤ) (rq : List (String × String)) (h : Exact s) :
    Chain crypto gn s (projectAll env i rq s).1 ∧
      ∃ leases, (projectAll env i rq s).1 =
        { s with live := { s.live with leases := s.live.leases ++ leases } } := by
  induction rq generalizing s with
  | nil =>
    refine ⟨.refl, [], ?_⟩
    simp [projectAll]
  | cons request rq ih =>
    obtain ⟨rr, c⟩ := request
    -- the first projection
    have hf : Chain crypto gn s (projectionLocked env rr c i s).1 ∧
        ∃ leases, (projectionLocked env rr c i s).1 =
          { s with live := { s.live with leases := s.live.leases ++ leases } } := by
      rcases projectionLocked_cases env rr c i h with heq | ⟨g, hact, heq⟩
      · rw [heq]
        exact ⟨.refl, [], by simp⟩
      · rw [heq]
        exact ⟨.single (.lease hact), _, rfl⟩
    obtain ⟨hch, leases, heq⟩ := hf
    simp only [projectAll]
    cases hp : projectionLocked env rr c i s with
    | mk t result =>
      rw [hp] at hch heq
      cases result with
      | error => exact ⟨hch, leases, heq⟩
      | ok =>
        obtain ⟨hr, leases', heq'⟩ := ih (h.chain hch)
        have ha : (projectAll env i rq t).1 =
            { s with live := { s.live with leases := s.live.leases ++ (leases ++ leases') } } := by
          rw [heq', heq]
          simp
        dsimp only
        split
        · next t' e ht =>
          rw [ht] at hr ha
          exact ⟨.trans hch hr, _, ha⟩
        · next t' p ht =>
          rw [ht] at hr ha
          exact ⟨.trans hch hr, _, ha⟩

theorem project_chain (h : Exact s) (env : Env) (rq : List (String × String)) :
    Chain crypto gn s (projectWithResponseLeases env rq s).1 := by
  unfold projectWithResponseLeases
  dsimp only
  generalize sortedBy (fun request => toLex (request.2, request.1)) rq.dedup = unique
  obtain ⟨hch, leases, heq⟩ : Chain crypto gn s (projectAll env env.now unique s).1 ∧ _ :=
    projectAll_cases env env.now unique h
  split
  · -- the leases of a batch that fails are taken back
    next t e ht =>
    rw [ht] at heq
    dsimp only at heq ⊢
    rw [heq, take_left]
  · next t p ht =>
    rw [ht] at hch
    exact hch

/-! ### Deletion -/

/-- The queue of the receipt with a given id. -/
def QueueIs (live : Authority) (receiptId : String) (queue : List String) : Prop :=
  (∃ receipt ∈ live.deletionReceipts, receipt.id = receiptId) ∧
    ∀ receipt ∈ live.deletionReceipts, receipt.id = receiptId →
      receipt.payload.coldCleanupLocationRefs = some queue

theorem QueueIs.set {ri : String} {q : List String} (h : QueueIs live ri q)
    (remaining : List String) : QueueIs (setQueue live ri remaining) ri remaining := by
  obtain ⟨⟨_, hm, hid⟩, -⟩ := h
  refine ⟨⟨_, mem_map_of_mem hm, ?_⟩, fun receipt' hm' hid' => ?_⟩
  · rw [if_pos hid]
    exact hid
  · obtain ⟨_, -, rfl⟩ := mem_map.mp hm'
    split
    · rfl
    · next hne =>
      rw [if_neg hne] at hid'
      exact absurd hid' hne

theorem drainQueue_chain (env : Env) (rc : DeletionReceipt) (rg : ℕ)
    (refs : List String) {rm : List String} (h : QueueIs live rc.id rm) :
    Chain crypto gn ⟨raw, live⟩
        ⟨raw, (drainQueue env rc rg refs rm live).1⟩ ∧
      ((drainQueue env rc rg refs rm live).2 = .ok () →
        QueueIs (drainQueue env rc rg refs rm live).1 rc.id []) := by
  induction refs generalizing rm live with
  | nil =>
    unfold drainQueue
    split
    · next hemp =>
      subst hemp
      exact ⟨.refl, fun _ => h⟩
    · exact ⟨.refl, fun hok => nomatch hok⟩
  | cons locationRef _ ih =>
    simp only [drainQueue]
    split
    · exact ⟨.refl, fun hok => nomatch hok⟩
    · split
      · obtain ⟨hch, hok⟩ := ih (h.set (rm.erase locationRef))
        obtain ⟨⟨rc', hm, hid⟩, hq⟩ := h
        exact ⟨.head (.drain hm hid (hq rc' hm hid) erase_sublist) hch, hok⟩
      · exact ⟨.refl, fun hok => nomatch hok⟩

theorem receiptOf_eq_some (h : receiptOf live tombstone = some receipt) :
    receipt ∈ live.deletionReceipts ∧ receipt.id = tombstone.deletionReceiptId := by
  unfold receiptOf at h
  exact ⟨mem_of_find?_eq_some h, by simpa using find?_some h⟩

theorem reconcile_chain (h : Exact s) (env : Env) (tombstone : RawDeletionTombstone) :
    Chain crypto gn s { s with live := (reconcileColdCleanup env tombstone s.live).1 } ∧
      ((reconcileColdCleanup env tombstone s.live).2 = .ok () →
        QueueIs (reconcileColdCleanup env tombstone s.live).1 tombstone.deletionReceiptId []) := by
  unfold reconcileColdCleanup
  split
  · exact ⟨.refl, fun hok => nomatch hok⟩
  · next receipt hrec =>
    obtain ⟨hm, hid⟩ := receiptOf_eq_some hrec
    split
    · exact ⟨.refl, fun hok => nomatch hok⟩
    · next refs hr =>
      have hq : QueueIs s.live receipt.id refs := by
        refine ⟨⟨receipt, hm, rfl⟩, fun receipt' hm' hid' => ?_⟩
        rw [h.receipted.distinct.eq_of_key_eq hm' hm hid', hr]
      rw [← hid]
      exact drainQueue_chain env receipt tombstone.generation refs hq

theorem popLast_append [DecidableEq α] (l : List α) (x : α) : popLast (l ++ [x]) x = l := by
  simp [popLast]

theorem popLast_of_notMem [DecidableEq α] {l : List α} {x : α} (h : x ∉ l) : popLast l x = l := by
  unfold popLast
  rw [if_neg]
  exact fun hl => h (mem_of_getLast? hl)

/-- **What a claim on a record does**: it finds the claim there is or adds one, and what it adds a
roll-back takes away. -/
theorem claimRetention_spec (env : Env) (g : RawLivenessGeneration) (rs : String) (rwd ca : ℤ)
    (p : DeletionPayload) (live : Authority) :
    ∃ claims byRecord claim, claimRetention env g rs rwd ca p live =
      ({ live with retentionClaims := claims, retentionClaimsByRecord := byRecord }, claim) ∧
      byRecord.get? g.recordId = some claim ∧
      let popClaim := (live.retentionClaimsByRecord.get? g.recordId).isNone &&
        claims.getLast? == some claim
      (if popClaim then claims.dropLast else claims) = live.retentionClaims ∧
        (if popClaim then byRecord.erase g.recordId else byRecord) =
          live.retentionClaimsByRecord := by
  unfold claimRetention
  cases hcl : live.retentionClaimsByRecord.get? g.recordId with
  | some => exact ⟨_, _, _, rfl, hcl, by simp, by simp⟩
  | none =>
    exact ⟨_, _, _, rfl, Dict.get?_set_self _ _ _, by simp,
      by simp [Dict.erase_set_of_get?_eq_none hcl]⟩

/-- **A deletion that fails before the raw state is gone leaves nothing behind.** -/
theorem commitDeletion_of_error (h : Exact s) {cl : List RawRetentionClaim}
    {b : Dict String RawRetentionClaim} {cm : RawRetentionClaim} {a : Memory} {e : RawError}
    (hid : tombstone.recordId = r) (ht : s.live.tombstonesByRecord.get? r = none)
    (hcls : let popClaim := (s.live.retentionClaimsByRecord.get? r).isNone && cl.getLast? == some cm
      (if popClaim then cl.dropLast else cl) = s.live.retentionClaims ∧
        (if popClaim then b.erase r else b) =
          s.live.retentionClaimsByRecord) (hes : eraseRaw env tombstone { s with
        live := { s.live with
          retentionClaims := cl
          retentionClaimsByRecord := b
          deletionReceipts := s.live.deletionReceipts ++ [receipt] } } = (a, .error e)) :
    rollBack s.raw (s.live.retentionClaimsByRecord.get? r).isNone cm receipt tombstone a = s := by
  subst hid
  -- the record has no tombstone, so the new one is not the last one yet
  have hnew : tombstone ∉ s.live.tombstones := by
    intro hm
    rw [h.receipted.ofRecord.mpr ⟨hm, rfl⟩] at ht
    cases ht
  have hd : ∀ raw, rollBack s.raw
      (s.live.retentionClaimsByRecord.get? tombstone.recordId).isNone cm receipt tombstone
      { raw
        live := { s.live with
          retentionClaims := cl
          retentionClaimsByRecord := b
          deletionReceipts := s.live.deletionReceipts ++ [receipt]
          tombstones := s.live.tombstones ++ [tombstone]
          tombstonesByRecord :=
            s.live.tombstonesByRecord.set tombstone.recordId tombstone } } = s := by
    intro raw
    simp only [rollBack, hcls.1, hcls.2, popLast_append, Dict.erase_set_of_get?_eq_none ht]
  unfold eraseRaw at hes
  dsimp only at hes
  split at hes
  · cases hes
    simp only [rollBack, hcls.1, hcls.2, popLast_append, popLast_of_notMem hnew,
      Dict.erase_of_get?_eq_none ht]
  split at hes
  · cases hes
    exact hd _
  split at hes
  · cases hes
    exact hd _
  · cases hes
    exact hd _
  split at hes
  · cases hes
    exact hd _
  · cases (Prod.mk.inj hes).2

/-- What is left of a generation that is gone for good: its tombstone, and a receipt whose queue
is empty. -/
def Gone (live : Authority) (r : String) : Prop :=
  ∃ tombstone, live.tombstonesByRecord.get? r = some tombstone ∧
    QueueIs live tombstone.deletionReceiptId []

theorem reconcileColdCleanup_tombstonesByRecord (env : Env) (tombstone : RawDeletionTombstone)
    (live : Authority) :
    (reconcileColdCleanup env tombstone live).1.tombstonesByRecord = live.tombstonesByRecord := by
  have hd : ∀ (receipt : DeletionReceipt) (n : ℕ) (refs rm : List String)
      (live : Authority), (drainQueue env receipt n refs rm live).1.tombstonesByRecord =
        live.tombstonesByRecord := by
    intro receipt n refs
    induction refs with
    | nil =>
      intro rm live
      unfold drainQueue
      split <;> rfl
    | cons _ _ ih =>
      intro rm live
      simp only [drainQueue]
      split
      · rfl
      · split
        · exact ih _ _
        · rfl
  unfold reconcileColdCleanup
  split
  · rfl
  split
  · rfl
  · exact hd _ _ _ _ _

theorem eraseRaw_eq_ok (h : eraseRaw env tombstone s = (t, .ok ())) :
    ∃ raw, s.raw.hardDelete tombstone.recordId = .ok (raw, true) ∧
      t = { raw
            live := { s.live with
              tombstones := s.live.tombstones ++ [tombstone]
              tombstonesByRecord :=
                s.live.tombstonesByRecord.set tombstone.recordId tombstone } } := by
  unfold eraseRaw at h
  dsimp only at h
  split at h
  · cases (Prod.mk.inj h).2
  split at h
  · cases (Prod.mk.inj h).2
  split at h
  · cases (Prod.mk.inj h).2
  · cases (Prod.mk.inj h).2
  · next raw hr =>
    split at h
    · cases (Prod.mk.inj h).2
    · exact ⟨raw, hr, (Prod.mk.inj h).1.symm⟩

theorem deleteActive_chain (h : Exact s) {rq : DeleteRequest}
    (hg : s.live.generationsByRecord.get? rq.recordId = some g)
    (htomb : s.live.tombstonesByRecord.get? rq.recordId = none)
    (hrec : ∀ receipt ∈ s.live.deletionReceipts, receipt.id ≠ env.receiptId) :
    Chain crypto gn s (deleteActive crypto env rq g s).1 ∧
      ∀ outcome, (deleteActive crypto env rq g s).2 = .ok outcome →
        outcome = .leaseValid ∨ Gone (deleteActive crypto env rq g s).1.live
          rq.recordId := by
  obtain ⟨hrc, -⟩ := h.numbered.ofRecord hg
  unfold deleteActive
  split
  · exact ⟨.refl, fun _ hok => nomatch hok⟩
  next payload hpy =>
  obtain ⟨claims, b, claim, hcl, hcm, hbc⟩ := claimRetention_spec env g
    rq.reason rq.retentionWindowDays rq.deletedAt payload s.live
  have hcl' : Change crypto gn s { s with live := (claimRetention env g rq.reason
      rq.retentionWindowDays rq.deletedAt payload s.live).1 } := .claim
  rw [hrc] at hcm hbc
  rw [hcl] at hcl' ⊢
  have hexact := h.change hcl'
  dsimp only
  split
  · exact ⟨.single hcl', fun outcome hok => .inl (Except.ok.inj hok).symm⟩
  next hdr =>
  split
  · exact ⟨.single hcl', fun _ hok => nomatch hok⟩
  next bn _ =>
  unfold commitDeletion
  dsimp only
  split
  · next after e hes =>
    rw [commitDeletion_of_error h (by rfl) htomb hbc hes]
    exact ⟨.refl, fun _ hok => nomatch hok⟩
  next after hes =>
  obtain ⟨raw, hraw, rfl⟩ := eraseRaw_eq_ok hes
  have herased : Change crypto gn
      { s with live := { s.live with
          retentionClaims := claims
          retentionClaimsByRecord := b } }
      (erasedBy raw (newReceipt env rq g payload bn) (newTombstone env rq g) _) :=
    .erase hg htomb hcm (not_lt.mp hdr) hpy hrec hraw
  obtain ⟨hch, hok⟩ : Chain crypto gn _ _ ∧ _ :=
    reconcile_chain (hexact.change herased) env (newTombstone env rq g)
  have hall := ReflTransGen.head hcl' (.head herased hch)
  unfold erasedBy at hall hok
  dsimp only at hall hok ⊢
  split
  · next live e heq =>
    rw [heq] at hall
    exact ⟨hall, fun _ hok' => nomatch hok'⟩
  · next live _ heq =>
    rw [heq] at hall hok
    refine ⟨hall, fun outcome _ => .inr ⟨newTombstone env rq g, ?_, hok rfl⟩⟩
    obtain rfl : _ = live := congrArg Prod.fst heq
    rw [reconcileColdCleanup_tombstonesByRecord]
    exact Dict.get?_set_self _ _ _

/-- **What a governed deletion does**, and what it means that it returns. -/
theorem governedDelete_chain (h : Exact s)
    (hr : ∀ receipt ∈ s.live.deletionReceipts, receipt.id ≠ env.receiptId) (rq : DeleteRequest) :
    Chain crypto gn s (governedDelete crypto env rq s).1 ∧
      ∀ outcome, (governedDelete crypto env rq s).2 = .ok outcome →
        outcome = .leaseValid ∨ Gone (governedDelete crypto env rq s).1.live rq.recordId := by
  unfold governedDelete
  split
  · exact ⟨.refl, fun _ hok => nomatch hok⟩
  split
  · exact ⟨.refl, fun _ hok => nomatch hok⟩
  next g hg =>
  split
  · next ht => exact deleteActive_chain h hg ht hr
  · next tombstone ht =>
    obtain ⟨hch, hok⟩ : Chain crypto gn s _ ∧ _ := reconcile_chain h env tombstone
    have hk := reconcileColdCleanup_tombstonesByRecord env tombstone s.live
    split
    · next live e heq =>
      rw [heq] at hch
      exact ⟨hch, fun _ hok' => nomatch hok'⟩
    · next live heq =>
      rw [heq] at hch hok hk
      exact ⟨hch, fun outcome _ => .inr ⟨tombstone, by rw [hk, ht], hok rfl⟩⟩

/-! ### Runs -/

/-- The calls on raw evidence. -/
inductive Call
  | insertRecord (request : InsertRequest)
  | register (request : RegisterRequest) (activate : Bool)
  | registerCold (request : RegisterRequest) (locationRef : String)
      (volume : Option VerifiedVolume)
  | activate (recordId representationId key : String)
  | project (requests : List (String × String))
  | delete (request : DeleteRequest)

def perform (crypto : Crypto) (env : Env) (s : Memory) : Call → Memory
  | .insertRecord request => (insertRawRecord crypto env request s).1
  | .register request activate => (registerRawRepresentation crypto env request activate s).1
  | .registerCold request locationRef volume =>
      (registerColdRawRepresentation crypto env request locationRef volume s).1
  | .activate recordId representationId key =>
      (activateRawRepresentation crypto env recordId representationId key s).1
  | .project requests => (projectWithResponseLeases env requests s).1
  | .delete request => (governedDelete crypto env request s).1

def performed (crypto : Crypto) (calls : List (Env × Call)) : Memory :=
  Journal.after (fun s call => perform crypto call.1 s call.2) {} calls

theorem Chain.mono {gr' : String → Prop} (hsub : ∀ grant, gr grant → gr' grant)
    (h : Chain crypto gr s t) : Chain crypto gr' s t := by
  refine ReflTransGen.mono (fun s t hchg => ?_) _ _ h
  cases hchg with
  | associate hact hgr hall => exact .associate hact hgr (hsub _ hall)
  | admission hfree hfr hid hcp hrc hact hnum hhot htok har hreg hgr
      hall =>
    exact .admission hfree hfr hid hcp hrc hact hnum hhot htok har hreg hgr (hsub _ hall)
  | register hact hnew hin hbd => exact .register hact hnew hin hbd
  | activate hact hcp hrc hsp => exact .activate hact hcp hrc hsp
  | lease hact => exact .lease hact
  | claim => exact .claim
  | erase hgen htomb hcl hdr hpy hrec hraw => exact .erase hgen htomb hcl hdr hpy hrec hraw
  | drain hrec hid hqu hrem => exact .drain hrec hid hqu hrem

/-- **Every call is a chain of changes.** -/
theorem perform_chain (h : Exact s) (hf : Fresh env s) (call : Call) :
    Chain crypto (fun _ => True) s (perform crypto env s call) := by
  cases call with
  | insertRecord request => exact (insertRawRecord_chain h hf request).mono fun _ _ => trivial
  | register request activate => exact register_chain h env request activate
  | registerCold request locationRef v => exact registerCold_chain h env request locationRef v
  | activate => exact activate_chain h env _ _ _
  | project rq => exact project_chain h env rq
  | delete request => exact (governedDelete_chain h hf.receipt request).1

/-- Each call of a run is given ids that are new when it is made. -/
def FreshFrom (crypto : Crypto) : Memory → List (Env × Call) → Prop
  | _, [] => True
  | s, call :: calls => Fresh call.1 s ∧ FreshFrom crypto (perform crypto call.1 s call.2) calls

instance decidableFresh (env : Env) (s : Memory) : Decidable (Fresh env s) :=
  decidable_of_iff (canonicalUuid? env.recordId = some env.recordId ∧
      s.live.generationsByRecord.get? env.recordId = none ∧
      s.raw.representations.get? env.recordId = none ∧
      ∀ receipt ∈ s.live.deletionReceipts, receipt.id ≠ env.receiptId)
    ⟨fun h => ⟨h.1, h.2.1, h.2.2.1, h.2.2.2⟩,
      fun h => ⟨h.canonical, h.record, h.copy, h.receipt⟩⟩

instance decidableFreshFrom (crypto : Crypto) :
    (s : Memory) → (calls : List (Env × Call)) → Decidable (FreshFrom crypto s calls)
  | _, [] => .isTrue trivial
  | s, call :: calls =>
      have := decidableFreshFrom crypto (perform crypto call.1 s call.2) calls
      inferInstanceAs (Decidable (Fresh call.1 s ∧ _))

/-- Tombstones and leases stay. -/
def Keeps (s t : Memory) : Prop :=
  s.live.tombstones ⊆ t.live.tombstones ∧ s.live.leases ⊆ t.live.leases

theorem Keeps.trans {u : Memory} (h : Keeps s t) (h' : Keeps t u) : Keeps s u :=
  ⟨List.Subset.trans h.1 h'.1, List.Subset.trans h.2 h'.2⟩

theorem Change.keeps (h : Change crypto gn s t) : Keeps s t := by
  have hr : ∀ {s : Memory}, Keeps s s := ⟨List.Subset.refl _, List.Subset.refl _⟩
  cases h with
  | associate | register | activate | drain => exact hr
  | admission _ hf _ _ _ _ _ _ _ _ hreg =>
    obtain ⟨-, -, rfl⟩ := registerGeneration_eq_ok hf.record hreg
    exact hr
  | lease => exact ⟨List.Subset.refl _, subset_append_left _ _⟩
  | claim =>
    obtain ⟨_, b, claim, hcl, -⟩ := claimRetention_spec ..
    rw [hcl]
    exact hr
  | erase => exact ⟨subset_append_left _ _, List.Subset.refl _⟩

theorem Chain.keeps (h : Chain crypto gn s t) : Keeps s t := by
  induction h with
  | refl => exact ⟨List.Subset.refl _, List.Subset.refl _⟩
  | tail _ hchg ih => exact ih.trans hchg.keeps

variable {calls : List (Env × Call)}

/-- **A run of calls keeps the state exact**, and what is erased or leased stays so. -/
theorem Exact.run (h : Exact s) (hf : FreshFrom crypto s calls) :
    Exact (Journal.after (fun s call => perform crypto call.1 s call.2) s calls) ∧
      Keeps s (Journal.after (fun s call => perform crypto call.1 s call.2) s calls) := by
  induction calls generalizing s with
  | nil => exact ⟨h, List.Subset.refl _, List.Subset.refl _⟩
  | cons call _ ih =>
    have hch : Chain crypto (fun _ => True) s (perform crypto call.1 s call.2) :=
      perform_chain h hf.1 call.2
    obtain ⟨hexact, hk⟩ := ih (h.chain hch) hf.2
    exact ⟨hexact, hch.keeps.trans hk⟩

theorem FreshFrom.append {more : List (Env × Call)} (h : FreshFrom crypto s (calls ++ more)) :
    FreshFrom crypto s calls ∧
      FreshFrom crypto (Journal.after (fun s call => perform crypto call.1 s call.2) s calls)
        more := by
  induction calls generalizing s with
  | nil => exact ⟨trivial, h⟩
  | cons _ _ ih =>
    obtain ⟨hcl, hm⟩ := ih h.2
    exact ⟨⟨h.1, hcl⟩, hm⟩

/-! ### The result -/

/-- What holds of raw evidence after every call. -/
structure LivenessExact (s : Memory) : Prop where
  /-- generations are the ones listed under their bytes -/
  listed : ∀ r g, s.live.generationsByRecord.get? r = some g ↔
    g.recordId = r ∧ g ∈ generationsOf s.live.generationsByContent g.contentIdentity
  /-- they are numbered from one without gaps -/
  numbered : ∀ c, ∃ n, (generationsOf s.live.generationsByContent c).map (·.generation) =
    List.range' 1 n
  /-- all but the last are erased -/
  superseded : ∀ c, ∀ g ∈ (generationsOf s.live.generationsByContent c).dropLast,
    ∃ t ∈ s.live.tombstones, t.recordId = g.recordId
  /-- there is one row for each generation that is not erased, and no other -/
  rows : ∀ r, (∃ row ∈ s.raw.rows, row.id = r) ↔
    (∃ g, s.live.generationsByRecord.get? r = some g) ∧ ∀ t ∈ s.live.tombstones, t.recordId ≠ r
  distinct : (s.raw.rows.map (·.id)).Nodup
  /-- with one active copy -/
  active : ∀ row ∈ s.raw.rows,
    ∃ copy, (s.raw.representationsOf row.id).filter (·.active) = [copy]
  /-- tombstones and receipts pair off -/
  pairs : List.Forall₂ Paired s.live.tombstones s.live.deletionReceipts
  receipts : (s.live.deletionReceipts.map (·.id)).Nodup
  tombstones : (s.live.tombstones.map (·.recordId)).Nodup

/-- A reference that names nothing that is held, and that no projection calls active. -/
def NeverActive (s : Memory) (rawRef : String) : Prop :=
  (∀ row ∈ s.raw.rows, rawRefForRecordId row.id ≠ rawRef) ∧
    ∀ env c issuedAt lease g,
      (projectionLocked env rawRef c issuedAt s).2 ≠
        .ok { outcome := .active lease, generation := g }

theorem map_deletionReceiptId {tombs : List RawDeletionTombstone} {rc : List DeletionReceipt}
    (h : List.Forall₂ Paired tombs rc) : tombs.map (·.deletionReceiptId) = rc.map (·.id) := by
  induction h with
  | nil => rfl
  | cons hp _ ih => rw [map_cons, map_cons, hp.1, ih]

theorem Exact.nodup_tombstones (h : Exact s) : (s.live.tombstones.map (·.recordId)).Nodup := by
  have hn : s.live.tombstones.Nodup := by
    refine List.Nodup.of_map (·.deletionReceiptId) ?_
    rw [map_deletionReceiptId h.receipted.pairs]
    exact h.receipted.distinct
  refine List.Nodup.map_on (fun t ht t' ht' hr => ?_) hn
  have hg := h.receipted.ofRecord.mpr ⟨ht, hr⟩
  rw [h.receipted.ofRecord.mpr ⟨ht', rfl⟩] at hg
  exact (some.inj hg).symm

theorem Exact.tombstone_eq_none_iff (h : Exact s) :
    s.live.tombstonesByRecord.get? r = none ↔ ∀ t ∈ s.live.tombstones, t.recordId ≠ r := by
  rw [eq_none_iff_forall_ne_some]
  constructor
  · exact fun hn t ht hr => hn t (h.receipted.ofRecord.mpr ⟨ht, hr⟩)
  · exact fun hne t ht => hne t (h.receipted.ofRecord.mp ht).1 (h.receipted.ofRecord.mp ht).2

theorem Exact.livenessExact (h : Exact s) : LivenessExact s where
  listed := by
    intro r g
    constructor
    · intro hg
      obtain ⟨hr, -, -, hm⟩ := h.numbered.ofRecord hg
      exact ⟨hr, hm⟩
    · rintro ⟨rfl, hm⟩
      exact (h.numbered.ofContent hm).2
  numbered := fun c => ⟨_, h.numbered.numbers c⟩
  superseded := by
    intro c g hg
    obtain ⟨t, ht⟩ := isSome_iff_exists.mp (h.numbered.superseded c g hg)
    exact ⟨t, h.receipted.ofRecord.mp ht⟩
  rows := by
    intro r
    rw [← h.tombstone_eq_none_iff]
    constructor
    · rintro ⟨row, hrow, rfl⟩
      obtain ⟨g, hg, -, ht⟩ := h.rowed.ofRow hrow
      exact ⟨⟨g, hg⟩, ht⟩
    · rintro ⟨⟨g, hg⟩, ht⟩
      exact h.rowed.ofGeneration hg ht
  distinct := h.rowed.distinct
  active := by
    intro row hrow
    obtain ⟨copy, hcp⟩ := h.copied.active row hrow
    exact ⟨copy, (activeRepresentation_eq_ok_iff.mp hcp).1⟩
  pairs := h.receipted.pairs
  receipts := h.receipted.distinct
  tombstones := h.nodup_tombstones

theorem Exact.neverActive (h : Exact s) {t : RawDeletionTombstone} (ht : t ∈ s.live.tombstones) :
    NeverActive s t.rawRef := by
  have hget := h.receipted.ofRecord.mpr ⟨ht, rfl⟩
  obtain ⟨g, hg, -, hr, -⟩ := h.receipted.ofTombstone t ht
  obtain ⟨-, hr', hcan, -⟩ := h.numbered.ofRecord hg
  rw [hr, hr']
  refine ⟨fun row hrow heq => ?_, fun env c i lease g' ha => ?_⟩
  · obtain ⟨-, -, -, hn⟩ := h.rowed.ofRow hrow
    rw [rawRefForRecordId_injective heq, hget] at hn
    cases hn
  · unfold projectionLocked at ha
    rw [recordIdFromRawRef_rawRef hcan] at ha
    simp only [hg, hget] at ha
    split at ha
    · cases ha
    · unfold projectErased at ha
      split at ha
      · cases ha
      split at ha
      · cases ha
      · have ho := congrArg RawLivenessProjection.outcome (Except.ok.inj ha)
        dsimp only at ho
        split at ho <;> cases ho

/-- **Raw liveness is exact and all-or-nothing.**  After any calls with any times, whatever hooks
raise and whatever cold objects cannot be deleted: the generations of some bytes are numbered from
one without gaps and all but the last are erased; there is one row, with one active copy, for each
generation that is not erased and no other row; tombstones and deletion receipts pair off; what was
erased at some point is not active at any later one; and no tombstone was written before the expiry
of a lease that was ever issued for its generation. -/
theorem raw_liveness_exact (crypto : Crypto) (calls : List (Env × Call))
    (hfresh : FreshFrom crypto {} calls) :
    LivenessExact (performed crypto calls) ∧
    ∀ earlier, earlier <+: calls →
      (∀ t ∈ (performed crypto earlier).live.tombstones,
        t ∈ (performed crypto calls).live.tombstones ∧
          NeverActive (performed crypto calls) t.rawRef) ∧
      (∀ lease ∈ (performed crypto earlier).live.leases,
        ∀ t ∈ (performed crypto calls).live.tombstones, t.recordId = lease.recordId →
          lease.generation = t.generation ∧ lease.expiresAt ≤ t.erasedAt) := by
  obtain ⟨hexact, -⟩ := Exact.start.run hfresh
  refine ⟨hexact.livenessExact, ?_⟩
  rintro earlier ⟨more, rfl⟩
  obtain ⟨hel, hm⟩ := hfresh.append
  obtain ⟨-, htomb, hleases⟩ := (Exact.start.run hel).1.run hm
  rw [← Journal.after_append] at htomb hleases
  refine ⟨fun t ht => ⟨htomb ht, hexact.neverActive (htomb ht)⟩, fun lease hl t ht hr => ⟨?_, ?_⟩⟩
  · obtain ⟨g, hg, hn⟩ := hexact.drained.ofLease lease (hleases hl)
    obtain ⟨g', hg', hn', -⟩ := hexact.receipted.ofTombstone t ht
    rw [hr, hg] at hg'
    rw [hn, hn', some.inj hg']
  · exact hexact.drained.erased t ht lease (hleases hl) hr.symm

def plainCrypto : Crypto where
  sha256 := id
  encrypt := fun plaintext _ _ => plaintext
  decrypt := fun ciphertext _ _ => some ciphertext
  decrypt_encrypt := fun _ _ _ => rfl

/-- A memo that is captured, leased, claimed while the lease is out, deleted with a hook that
raises at the last moment, deleted, and captured again. -/
def memoRun : List (Env × Call) :=
  let memo := "00000000-0000-4000-8000-000000000001"
  let again := "00000000-0000-4000-8000-000000000002"
  let capture : Call := .insertRecord
    { contentIdentity := "memo", captureChain := ["folder"], sensor := [("adapter", "voice")]
      consent := { basis := "self_record", grantedBy := "operator", grantedAt := 0
                   grantRef := "grant" }
      ciphertext := "memo", nonce := "n", keyRef := "k", key := "key", sourcePath := "memo.m4a" }
  let delete (deletedAt : ℤ) : Call := .delete
    { recordId := memo, reason := "hard_retention_bound", retentionWindowDays := 1, deletedAt }
  [({ now := 0, recordId := memo }, capture),
    ({ now := 5 * second, recordId := again }, .project [(rawRefForRecordId memo, "memo")]),
    ({ now := 10 * second, recordId := again, receiptId := "r" }, delete (10 * second)),
    ({ now := 35 * second, recordId := again, receiptId := "r"
       raises := (· == .afterRawDelete) }, delete (35 * second)),
    ({ now := 35 * second, recordId := again, receiptId := "r" }, delete (35 * second)),
    ({ now := 40 * second, recordId := again }, capture)]

/-- The two generations of the memo, the first of them erased when its lease had run out. -/
theorem memo_run_exact :
    LivenessExact (performed plainCrypto memoRun) ∧
    (generationsOf (performed plainCrypto memoRun).live.generationsByContent "memo").map
      (·.generation) = [1, 2] ∧
    (performed plainCrypto memoRun).live.tombstones.map (·.erasedAt) = [35 * second] ∧
    (performed plainCrypto memoRun).live.leases.map (·.expiresAt) = [35 * second] :=
  ⟨(raw_liveness_exact plainCrypto memoRun (by decide +kernel)).1, by decide +kernel,
    by decide +kernel, by decide +kernel⟩

end AgenticPkm.RawLiveness
