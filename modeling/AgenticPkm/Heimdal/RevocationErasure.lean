import AgenticPkm.Heimdal.Revocation

/-!
# Revoking consent erases everything and lets nothing back in

The fence of a grant is what makes it so.  Between the last check of a grant and the insert under
it, and from the revocation row to the end of the erasure, the caller is inside the fence of the
grant, so that no revocation falls between check and insert, and no insert between the row and the
erasure.

* `revocation_erases` — **what a revocation has erased stays so**: no later capture passes.
-/

namespace AgenticPkm.Revocation

open RawStore RawLiveness ConsentLedger List

variable {crypto : Crypto}

/-! ### Relocations -/

/-- The location of a cold copy is one of the archive that the volume is of. -/
def Relocation.Bound : Relocation → Prop
  | .registerCold _ locationRef volume =>
      startsWith ("heimloc:cold:" ++ volume.archiveToken ++ ":") locationRef = true ∧
        volume.archiveToken ≠ ""
  | _ => True

/-- What a relocation is about is bound once it is checked. -/
def Point.Bound : Point → Prop
  | .lookingUp relocation | .relocating relocation _ => relocation.Bound
  | _ => True

variable {env : Env} {relocation : Relocation} {s : Memory} {w w' : World} {point : Point}
  {grant r : String} {plan : Plan} {job : Job} {α : Type} {rs : Except RawError α}
  {next : α → Point} {tombstones : List RawDeletionTombstone} {receipts : List DeletionReceipt}
  {record : RawRecord} {created : Bool} {seededAt : ℤ} {moves : List Move}
  {request : RegisterRequest} {gr : String → Prop} {tombstone : RawDeletionTombstone}
  {receipt : DeletionReceipt} {pending : ℕ}

theorem checkHot_bound {a : Bool} (h : checkHot env request a = .ok relocation) :
    relocation.Bound := by
  unfold checkHot at h
  split at h
  · cases h
  split at h
  · cases h
  · cases h
    trivial

theorem checkCold_bound {l : String} {v : Option VerifiedVolume} {live : Authority}
    (h : checkCold env request l v live = .ok relocation) : relocation.Bound := by
  unfold checkCold at h
  split at h
  · cases h
  split at h
  · cases h
  next token o hp =>
  split at h
  · cases h
  split at h
  · cases h
  split at h
  · cases h
  next hsame =>
  split at h
  · cases h
  · cases h
    have hl := parseColdLocationRef_eq_some hp
    rw [not_not.mp hsame] at hl
    exact hl

theorem relocate_chain (h : Exact s) (env : Env) (hb : relocation.Bound) (c : String) :
    Chain crypto gr s (relocate crypto env relocation c s).1 := by
  unfold relocate
  split
  · exact .refl
  next g hact =>
  cases relocation with
  | register request active => exact registerLocked_chain h request active hact
  | registerCold request => exact registerColdLocked_chain h request hact hb.1 hb.2
  | activate =>
    simp only [relocateLocked]
    split
    · exact .refl
    split
    · exact .refl
    · next raw ha =>
      simp only [bind_unit_eq_ok_iff] at ha
      obtain ⟨_, hcp, hr, hs, rfl⟩ := activateLocked_eq_ok h ha.2
      exact .single (.activate hact hcp hr hs)

/-! ### What a step does -/

/-- The raw evidence is exact, and every consent there ever was is found at its record or, when
that is erased, in the receipt of the deletion. -/
structure Inv (crypto : Crypto) (w : World) : Prop where
  exact : Exact w.memory
  stored : ∀ {grant r}, grant ∈ w.memory.raw.consentGrantRefs r → (grant, r) ∈ w.admissions
  found : ∀ {grant r}, (grant, r) ∈ w.admissions →
    grant ∈ w.memory.raw.consentGrantRefs r ∨ Correlated crypto w.memory.live grant r

/-- All that a step does. -/
inductive Effect (crypto : Crypto) (w : World) : Point → World → Prop
  | quiet {point : Point} {memory : Memory}
      (h : Chain crypto (fun _ => False) w.memory memory) : Effect crypto w point { w with memory }
  | grant {request : GrantRequest} {ledger : List ConsentGrant} (hgrows : w.ledger <+: ledger)
      (hsame : ∀ grant, Revoked ledger grant ↔ Revoked w.ledger grant) :
      Effect crypto w (.granting request) { w with ledger }
  | revoke {grantRef revokedBy : String} {plan : Plan} {row : ConsentGrant} {now : ℤ}
      (hrow : ∀ grant, revokes row = some grant → grant = grantRef) :
      Effect crypto w (.appending grantRef revokedBy plan)
        { w with ledger := append w.ledger row now }
  | insertion {evidence : InsertRequest} {memory : Memory}
      (h : Chain crypto (· = evidence.consent.grantRef) w.memory memory) :
      Effect crypto w (.inserting evidence)
        { w with memory, admissions := w.admissions ++ consents memory.raw }

theorem Effect.refl (w : World) (p : Point) : Effect crypto w p w := .quiet .refl

/-- **All that a step does.** -/
theorem step_effect (h : Inv crypto w) (hfresh : Fresh env w.memory) (hb : point.Bound) :
    Effect crypto w point (step crypto env w point).1 := by
  have hd : ∀ request next, Effect crypto w point (deletion crypto env w request next).1 :=
    fun request _ => .quiet (governedDelete_chain h.exact hfresh.receipt request).1
  cases point with
  | granting =>
    simp only [step]
    split
    · exact .refl w _
    · next ledger hg =>
      obtain ⟨hgrw, hsame⟩ := grantConsent_eq_ok hg
      exact .grant hgrw hsame
  | leasing request => exact .quiet (project_chain h.exact env request)
  | checkingHot request active | checkingCold request locationRef volume | lookingUp relocation
  | captured g record created | listing sc byAge
  | selectingByGrant g rf plan | selectingByAge bound rf plan
  | scanning job pending plan | returned reconciled | failed error => exact .refl w _
  | relocating _ ci => exact .quiet (relocate_chain h.exact env hb ci)
  | admitting sc t e | enteringAdmission e =>
    simp only [step]
    split <;> exact .refl w _
  | validating e | enteringRevocation g revokedBy plan =>
    simp only [step]
    split
    · exact .refl w _
    · split <;> exact .refl w _
  | inserting e => exact .insertion (insertRawRecord_chain h.exact hfresh e)
  | appending =>
    refine .revoke fun grant hg => ?_
    unfold revokes revocationRow at hg
    split at hg
    · exact (Option.mem_some.mp (Option.filter_eq_some_iff.mp hg).1).symm
    · cases hg
  | erasing _ ri =>
    cases ri with
    | nil => exact .refl w _
    | cons => exact hd _ _
  | draining _ receipts =>
    cases receipts with
    | nil => exact .refl w _
    | cons =>
      simp only [step]
      split
      · exact .refl w _
      · exact .refl w _
      · exact hd _ _

/-! ### What all callers keep to -/

/-- A revoked grant of which nothing is left. -/
def Erased (w : World) (grant : String) : Prop :=
  Revoked w.ledger grant ∧ ∀ r, (grant, r) ∈ w.admissions → Gone w.memory.live r

def Tombstoned (w : World) (r : String) : Prop :=
  (w.memory.live.tombstonesByRecord.get? r).isSome

/-- What holds between a world and a later one. -/
structure Rely (w w' : World) : Prop where
  ledger : w.ledger <+: w'.ledger
  admissions : w.admissions ⊆ w'.admissions
  admitted : ∀ {grant r}, (grant, r) ∈ w'.admissions →
    (grant, r) ∈ w.admissions ∨ ¬ Revoked w.ledger grant
  gone : ∀ {r}, Gone w.memory.live r → Gone w'.memory.live r
  tombstoned : ∀ {r}, Tombstoned w r → Tombstoned w' r

/-- What holds as well when the caller that moved is outside of the fence of a grant. -/
structure Guarded (grant : String) (w w' : World) : Prop where
  admissions : ∀ {r}, (grant, r) ∈ w'.admissions → (grant, r) ∈ w.admissions
  revoked : Revoked w'.ledger grant → Revoked w.ledger grant

theorem Rely.refl (w : World) : Rely w w where
  ledger := prefix_refl _
  admissions := List.Subset.refl _
  admitted := .inl
  gone := id
  tombstoned := id

theorem Rely.trans {w'' : World} (h : Rely w w') (h' : Rely w' w'') : Rely w w'' where
  ledger := h.ledger.trans h'.ledger
  admissions := List.Subset.trans h.admissions h'.admissions
  admitted := by
    intro grant r hm
    rcases h'.admitted hm with hm | hn
    · exact h.admitted hm
    · exact .inr fun hr => hn (hr.mono h.ledger)
  gone := fun hg => h'.gone (h.gone hg)
  tombstoned := fun ht => h'.tombstoned (h.tombstoned ht)

/-- **What is erased stays erased.** -/
theorem Erased.rely (hr : Rely w w') (h : Erased w grant) : Erased w' grant := by
  refine ⟨h.1.mono hr.ledger, fun r hm => ?_⟩
  rcases hr.admitted hm with hm | hn
  · exact hr.gone (h.2 r hm)
  · exact absurd h.1 hn

theorem lasting_tombstoned {t : Memory} (h : Lasting crypto gr s t)
    (hr : (s.live.tombstonesByRecord.get? r).isSome) :
    (t.live.tombstonesByRecord.get? r).isSome := by
  obtain ⟨tombstone, ht⟩ := Option.isSome_iff_exists.mp hr
  rw [h.tombstone ht]
  rfl

theorem exists_row_of_consent (h : Exact s) (hg : grant ∈ s.raw.consentGrantRefs r) :
    ∃ row ∈ s.raw.rows, row.id = r := by
  obtain ⟨a, ha⟩ := Dict.mem_keys.mp hg
  cases hd : s.raw.consentAssociations.get? r with
  | none =>
    rw [hd] at ha
    simp at ha
  | some => exact h.consented.ofRecord hd

theorem mem_consents (h : Exact s) :
    (grant, r) ∈ consents s.raw ↔ grant ∈ s.raw.consentGrantRefs r := by
  unfold consents
  simp only [mem_flatMap, mem_map, Prod.mk.injEq]
  constructor
  · rintro ⟨row, -, grant', hg, rfl, rfl⟩
    exact hg
  · intro hg
    obtain ⟨row, hr, rfl⟩ := exists_row_of_consent h hg
    exact ⟨row, hr, grant, hg, rfl, rfl⟩

theorem Inv.effect (h : Inv crypto w) (heff : Effect crypto w point w') : Inv crypto w' := by
  cases heff with
  | quiet hch =>
    have hl := hch.lasting h.exact
    exact
      { exact := h.exact.chain hch
        stored := fun hm => (hl.admitted hm).elim h.stored False.elim
        found := fun hm => (h.found hm).elim hl.consent fun hc => .inr (hl.correlated hc) }
  | grant | revoke => exact ⟨h.exact, h.stored, h.found⟩
  | insertion hch =>
    have hl := hch.lasting h.exact
    have hec := h.exact.chain hch
    refine ⟨hec, fun hm => ?_, fun hm => ?_⟩
    · exact mem_append_right _ ((mem_consents hec).mpr hm)
    · rcases mem_append.mp hm with ho | hnew
      · exact (h.found ho).elim hl.consent fun hc => .inr (hl.correlated hc)
      · exact .inl ((mem_consents hec).mp hnew)

theorem Inv.admitted (h : Inv crypto w) {e : InsertRequest} {m : Memory}
    (hch : Chain crypto (· = e.consent.grantRef) w.memory m)
    (hm : (grant, r) ∈ w.admissions ++ consents m.raw) :
    (grant, r) ∈ w.admissions ∨ grant = e.consent.grantRef := by
  rcases mem_append.mp hm with ho | hnew
  · exact .inl ho
  · have hr := (mem_consents (h.exact.chain hch)).mp hnew
    exact ((hch.lasting h.exact).admitted hr).imp_left h.stored

theorem Effect.rely (h : Inv crypto w)
    (ha : ∀ evidence, point = .inserting evidence → ¬ Revoked w.ledger evidence.consent.grantRef)
    (heff : Effect crypto w point w') : Rely w w' := by
  cases heff with
  | quiet hch =>
    have hl := hch.lasting h.exact
    exact ⟨prefix_refl _, List.Subset.refl _, .inl, hl.gone, lasting_tombstoned hl⟩
  | grant hg => exact ⟨hg, List.Subset.refl _, .inl, id, id⟩
  | revoke => exact ⟨prefix_append _ _ _, List.Subset.refl _, .inl, id, id⟩
  | insertion hch =>
    have hl := hch.lasting h.exact
    refine ⟨prefix_refl _, subset_append_left _ _, fun hm => ?_, hl.gone, lasting_tombstoned hl⟩
    refine (h.admitted hch hm).imp_right ?_
    rintro rfl
    exact ha _ rfl

/-- A step outside of the fence of a grant neither admits under it nor revokes it. -/
theorem Effect.guarded (h : Inv crypto w) (heff : Effect crypto w point w')
    (hf : fence point ≠ some grant) : Guarded grant w w' := by
  cases heff with
  | quiet => exact ⟨id, id⟩
  | grant _ hsame => exact ⟨id, (hsame grant).mp⟩
  | revoke hr =>
    refine ⟨id, fun hrev => ?_⟩
    rcases revoked_append.mp hrev with ho | hnew
    · exact ho
    · exact absurd (congrArg some (hr grant hnew).symm) hf
  | insertion hch =>
    refine ⟨fun hm => (h.admitted hch hm).elim id fun hg => ?_, id⟩
    exact absurd (congrArg some hg.symm) hf

/-! ### What is known where a call is -/

/-- The grants a call is done with are erased, and those it still has to do are revoked. -/
structure Done (w : World) (plan : Plan) : Prop where
  erased : ∀ grant ∈ plan.reconciled, Erased w grant
  revoked : ∀ grant ∈ plan.grants, Revoked w.ledger grant

theorem Done.rely (hr : Rely w w') (h : Done w plan) : Done w' plan :=
  ⟨fun grant hm => (h.erased grant hm).rely hr, fun grant hm => (h.revoked grant hm).mono hr.ledger⟩

/-- A job that works on a revoked grant: `left` is known of all records that had it. -/
def Working (crypto : Crypto) (w : World) (job : Job) (left : String → String → Prop) : Prop :=
  ∀ grant, job.grant = some grant → Revoked w.ledger grant ∧
    job.scan = .ofGrant (crypto.sha256 grant) ∧ ∀ r, (grant, r) ∈ w.admissions → left grant r

theorem Working.rely {left left' : String → String → Prop} (hr : Rely w w')
    (h : Working crypto w job left)
    (hlf : ∀ grant r, job.scan = .ofGrant (crypto.sha256 grant) → left grant r → left' grant r) :
    Working crypto w' job left' := by
  intro grant hg
  obtain ⟨hrev, hs, hall⟩ := h grant hg
  -- the grant is revoked, so no record was admitted under it in between
  refine ⟨hrev.mono hr.ledger, hs, fun r hm => hlf grant r hs (hall r ?_)⟩
  exact (hr.admitted hm).resolve_right (not_not_intro hrev)

/-- A receipt of a list names the grant of a record and has a queue. -/
def Queued (crypto : Crypto) (receipts : List DeletionReceipt) (grant r : String) : Prop :=
  ∃ receipt ∈ receipts, receipt.recordId = r ∧
    receipt.payload.coldCleanupLocationRefs.getD [] ≠ [] ∧
    crypto.sha256 grant ∈ receipt.payload.consentGrantDigests.getD []

/-- What is known where a call is. -/
def Knows (crypto : Crypto) (w : World) : Point → Prop
  | .lookingUp relocation | .relocating relocation _ => relocation.Bound
  | .inserting evidence => ¬ Revoked w.ledger evidence.consent.grantRef
  | .enteringRevocation grantRef revokedBy plan =>
      Done w plan ∧ (revokedBy = none → Revoked w.ledger grantRef)
  | .appending grantRef _ plan => Done w plan ∧ grantRef ≠ ""
  | .selectingByGrant grantRef _ plan => Done w plan ∧ Revoked w.ledger grantRef
  | .selectingByAge _ _ plan => Done w plan
  | .erasing job recordIds pending plan =>
      Done w plan ∧ Working crypto w job fun _ r => pending ≠ 0 ∨ r ∈ recordIds ∨ Tombstoned w r
  | .scanning job pending plan =>
      Done w plan ∧ Working crypto w job fun _ r => pending ≠ 0 ∨ Tombstoned w r
  | .draining job receipts pending plan =>
      Done w plan ∧ Working crypto w job fun grant r => pending ≠ 0 ∨ Gone w.memory.live r ∨
        (Tombstoned w r ∧ Queued crypto receipts grant r)
  | .returned reconciled => ∀ grant ∈ reconciled, Erased w grant
  | _ => True

theorem Knows.bound (h : Knows crypto w point) : point.Bound := by
  cases point with
  | lookingUp => exact h
  | relocating => exact h
  | _ => trivial

theorem knows_returned_nil (w : World) : Knows crypto w (.returned []) := fun _ hm => nomatch hm

theorem knows_ofResult (h : ∀ value, rs = .ok value → Knows crypto w (next value)) :
    Knows crypto w (Point.ofResult rs next) := by
  cases rs with
  | error => trivial
  | ok value => exact h value rfl

/-- What is known inside a fence is kept by all that callers outside of it do. -/
theorem Knows.stable (hr : Rely w w')
    (hgrd : ∀ grant, fence point = some grant → Guarded grant w w') (h : Knows crypto w point) :
    Knows crypto w' point := by
  cases point with
  | lookingUp => exact h
  | relocating => exact h
  | inserting => exact fun hrev => h ((hgrd _ rfl).revoked hrev)
  | enteringRevocation => exact ⟨h.1.rely hr, fun hn => (h.2 hn).mono hr.ledger⟩
  | appending => exact ⟨h.1.rely hr, h.2⟩
  | selectingByGrant => exact ⟨h.1.rely hr, h.2.mono hr.ledger⟩
  | selectingByAge => exact Done.rely hr h
  | erasing =>
    refine ⟨h.1.rely hr, h.2.rely hr fun grant r _ => ?_⟩
    exact Or.imp_right (Or.imp_right hr.tombstoned)
  | scanning =>
    refine ⟨h.1.rely hr, h.2.rely hr fun grant r _ => ?_⟩
    exact Or.imp_right hr.tombstoned
  | draining =>
    refine ⟨h.1.rely hr, h.2.rely hr fun grant r _ => ?_⟩
    exact Or.imp_right (Or.imp hr.gone (And.imp_left hr.tombstoned))
  | returned => exact fun grant hm => (h grant hm).rely hr
  | _ => trivial

theorem Done.resume (h : Done w plan) : Knows crypto w plan.resume := by
  unfold Plan.resume
  split
  · next g gr hgr =>
    have hm : ∀ grant ∈ g :: gr, Revoked w.ledger grant := hgr ▸ h.revoked
    exact ⟨⟨h.erased, fun grant hg => hm grant (mem_cons_of_mem _ hg)⟩, fun _ => hm g mem_cons_self⟩
  · exact ⟨h.erased, h.revoked⟩
  · exact h.erased

theorem Inv.no_consents (h : Inv crypto w) (ht : Tombstoned w r) :
    grant ∉ w.memory.raw.consentGrantRefs r := by
  intro hg
  obtain ⟨_, hr, rfl⟩ := exists_row_of_consent h.exact hg
  obtain ⟨-, -, -, hn⟩ := h.exact.rowed.ofRow hr
  unfold Tombstoned at ht
  rw [hn] at ht
  cases ht

theorem exists_paired (h : List.Forall₂ Paired tombstones receipts) (ht : tombstone ∈ tombstones) :
    ∃ receipt ∈ receipts, Paired tombstone receipt := by
  induction h with
  | nil => cases ht
  | cons hp _ ih =>
    rcases mem_cons.mp ht with rfl | ht
    · exact ⟨_, mem_cons_self, hp⟩
    · obtain ⟨receipt, hr, hp'⟩ := ih ht
      exact ⟨receipt, mem_cons_of_mem _ hr, hp'⟩

theorem recordId_of_paired (hpr : List.Forall₂ Paired tombstones receipts)
    (hd : DistinctKeys (·.id) receipts) (ht : tombstone ∈ tombstones) (hr : receipt ∈ receipts)
    (hid : receipt.id = tombstone.deletionReceiptId) : receipt.recordId = tombstone.recordId := by
  obtain ⟨_, hr', hp⟩ := exists_paired hpr ht
  obtain rfl := hd.eq_of_key_eq hr hr' (hid.trans hp.1)
  exact hp.2.1.symm

/-- What the receipts say of a record that is erased: its queue is empty, or it is listed. -/
theorem Inv.queued_of_tombstoned (h : Inv crypto w) (hm : (grant, r) ∈ w.admissions)
    (ht : Tombstoned w r) :
    Gone w.memory.live r ∨ Queued crypto w.memory.live.deletionReceipts grant r := by
  obtain ⟨tombstone, receipt, hg, hrec, hid, hd⟩ := (h.found hm).resolve_left (h.no_consents ht)
  obtain ⟨htb, hr⟩ := h.exact.receipted.ofRecord.mp hg
  obtain ⟨q, hq⟩ := Option.isSome_iff_exists.mp (h.exact.receipted.queued receipt hrec)
  by_cases hemp : q = []
  · refine .inl ⟨tombstone, hg, ⟨receipt, hrec, hid⟩, fun receipt' hrec' hid' => ?_⟩
    rw [h.exact.receipted.distinct.eq_of_key_eq hrec' hrec (hid'.trans hid.symm), hq, hemp]
  · refine .inr ⟨receipt, hrec, ?_, by rwa [hq], hd⟩
    exact (recordId_of_paired h.exact.receipted.pairs h.exact.receipted.distinct htb hrec
      hid).trans hr

theorem selects_of_queued {g : String} (hq : receipt.payload.coldCleanupLocationRefs.getD [] ≠ [])
    (hd : g ∈ receipt.payload.consentGrantDigests.getD []) :
    Scan.selects receipt (.ofGrant g) = .ok true := by
  unfold Scan.selects
  rw [if_neg hq]
  unfold receiptCorrelatesToGrant
  dsimp only
  split
  · rfl
  · simp [hd]

/-! ### From one point to the next -/

section

variable (h : Inv crypto w) (hfresh : Fresh env w.memory)
include h hfresh

theorem rely_step (hk : Knows crypto w point) : Rely w (step crypto env w point).1 := by
  refine (step_effect h hfresh hk.bound).rely h ?_
  rintro e rfl
  exact hk

theorem knows_erasing {ri : List String} (hk : Knows crypto w (.erasing job ri pending plan))
    (hr : Rely w (step crypto env w (.erasing job ri pending plan)).1) :
    Knows crypto (step crypto env w (.erasing job ri pending plan)).1
      (step crypto env w (.erasing job ri pending plan)).2 := by
  cases ri with
  | nil =>
    refine ⟨hk.1, hk.2.rely hr fun grant r _ => ?_⟩
    exact Or.imp_right fun hl => hl.resolve_left not_mem_nil
  | cons recordId =>
    obtain ⟨-, hg⟩ : Chain crypto (fun _ => False) w.memory _ ∧ _ :=
      governedDelete_chain h.exact hfresh.receipt (job.request recordId)
    simp only [step, deletion] at hr ⊢
    refine knows_ofResult fun outcome ho => ⟨hk.1.rely hr, ?_⟩
    refine hk.2.rely hr fun grant r _ hl => ?_
    rcases hl with hp | hm | ht
    · left
      split <;> omega
    · rcases mem_cons.mp hm with rfl | hm
      · -- the record at hand is left to a lease, or gone
        rcases hg outcome ho with rfl | ⟨tombstone, ht, -⟩
        · left
          simp
        · exact .inr (.inr (Option.isSome_iff_exists.mpr ⟨tombstone, ht⟩))
      · exact .inr (.inl hm)
    · exact .inr (.inr (hr.tombstoned ht))

theorem knows_draining (hkn : Knows crypto w (.draining job receipts pending plan))
    (hrl : Rely w (step crypto env w (.draining job receipts pending plan)).1) :
    Knows crypto (step crypto env w (.draining job receipts pending plan)).1
      (step crypto env w (.draining job receipts pending plan)).2 := by
  cases receipts with
  | nil =>
    simp only [step]
    split
    · trivial
    · next hpn =>
      refine Done.resume ⟨fun grant hmem => ?_, hkn.1.revoked⟩
      rcases mem_append.mp hmem with hold | hnew
      · exact hkn.1.erased grant hold
      · obtain ⟨hrev, -, hall⟩ := hkn.2 grant (Option.mem_toList.mp hnew)
        refine ⟨hrev, fun r hr => ?_⟩
        rcases hall r hr with hne | hgn | ⟨-, receipt, hrec, -⟩
        · exact absurd hne hpn
        · exact hgn
        · cases hrec
  | cons receipt receipts =>
    have hsl : ∀ {grant r}, job.scan = .ofGrant (crypto.sha256 grant) →
        Queued crypto (receipt :: receipts) grant r →
        (receipt.recordId = r ∧ job.scan.selects receipt = .ok true) ∨
          Queued crypto receipts grant r := by
      rintro grant r hsc ⟨receipt', hmem, hr, hqu, hdig⟩
      rcases mem_cons.mp hmem with rfl | hmem
      · exact .inl ⟨hr, by rw [hsc]; exact selects_of_queued hqu hdig⟩
      · exact .inr ⟨receipt', hmem, hr, hqu, hdig⟩
    cases hsel : job.scan.selects receipt with
    | error =>
      simp only [step, hsel]
      trivial
    | ok sl =>
      cases sl with
      | false =>
        simp only [step, hsel]
        refine ⟨hkn.1, hkn.2.rely (.refl w)
          fun grant r hsc => Or.imp_right (Or.imp_right fun hlf => ⟨hlf.1, ?_⟩)⟩
        rcases hsl hsc hlf.2 with ⟨-, htr⟩ | hqd
        · rw [hsel] at htr
          cases htr
        · exact hqd
      | true =>
        simp only [step, hsel, deletion] at hrl ⊢
        refine knows_ofResult fun outcome hoc => ⟨hkn.1.rely hrl, ?_⟩
        refine hkn.2.rely hrl fun grant r hsc => Or.imp_right fun hlf => ?_
        rcases hlf with hgn | ⟨ht, hqd⟩
        · exact .inl (hrl.gone hgn)
        · rcases hsl hsc hqd with ⟨rfl, -⟩ | hqd
          · exact .inl (gone_of_governedDelete h.exact hfresh.receipt hoc ht)
          · exact .inr ⟨hrl.tombstoned ht, hqd⟩

/-- **What is known at a point leads to what is known at the next.** -/
theorem knows_step (hk : Knows crypto w point) (hr : Rely w (step crypto env w point).1) :
    Knows crypto (step crypto env w point).1 (step crypto env w point).2 := by
  cases point with
  | granting =>
    simp only [step]
    split
    · trivial
    · exact knows_returned_nil _
  | leasing => exact knows_ofResult fun _ _ => knows_returned_nil _
  | checkingHot => exact knows_ofResult fun _ => checkHot_bound
  | checkingCold => exact knows_ofResult fun _ => checkCold_bound
  | lookingUp => exact knows_ofResult fun _ _ => hk
  | relocating => exact knows_ofResult fun _ _ => knows_returned_nil _
  | admitting sc t e | enteringAdmission e =>
    simp only [step]
    split <;> trivial
  | validating =>
    simp only [step]
    split
    · trivial
    · next hact =>
      split
      · trivial
      · exact not_revoked_of_assertConsentGrantActive hact
  | inserting =>
    simp only [step, capture]
    exact knows_ofResult fun _ _ => trivial
  | captured => trivial
  | listing =>
    refine Done.resume ⟨fun grant hmem => (nomatch hmem), fun grant hmem => ?_⟩
    exact (mem_listRevokedGrantRefs.mp hmem).1
  | enteringRevocation _ revokedBy =>
    simp only [step]
    split
    · trivial
    · next hb =>
      cases revokedBy with
      | none => exact ⟨hk.1, hk.2 rfl⟩
      | some =>
        refine ⟨hk.1, ?_⟩
        rintro rfl
        exact hb rfl
  | appending =>
    refine ⟨hk.1.rely hr, revoked_append.mpr (.inr ?_)⟩
    exact revokes_revocationRow hk.2 _ _ _
  | selectingByGrant =>
    refine ⟨hk.1, fun grant hg => ?_⟩
    cases hg
    refine ⟨hk.2, rfl, fun r hmem => .inr ?_⟩
    rcases h.found hmem with hg | ⟨tombstone, -, ht, -⟩
    · left
      obtain ⟨_, hrow, rfl⟩ := exists_row_of_consent h.exact hg
      exact mem_map_of_mem (mem_filter.mpr ⟨hrow, by simpa using hg⟩)
    · exact .inr (Option.isSome_iff_exists.mpr ⟨tombstone, ht⟩)
  | selectingByAge bound =>
    refine knows_ofResult fun _ _ => ⟨hk, fun grant hg => ?_⟩
    cases bound <;> cases hg
  | erasing => exact knows_erasing h hfresh hk hr
  | scanning =>
    refine ⟨hk.1, fun grant hg => ?_⟩
    obtain ⟨hrev, hs, hall⟩ := hk.2 grant hg
    refine ⟨hrev, hs, fun r hmem => (hall r hmem).imp_right fun ht => ?_⟩
    exact (h.queued_of_tombstoned hmem ht).imp_right fun hq => ⟨ht, hq⟩
  | draining => exact knows_draining h hfresh hk hr
  | returned => exact hk
  | failed => trivial

end

/-! ### The grants a call is about -/

/-- The grant is one that the call has done or has still to do, unless the call has failed. -/
def Covers (w : World) (grant : String) : Point → Prop
  | .listing scope _ => grant ∈ listRevokedGrantRefs w.ledger scope
  | .enteringRevocation grantRef _ plan | .appending grantRef _ plan
  | .selectingByGrant grantRef _ plan =>
      grant = grantRef ∨ grant ∈ plan.grants ∨ grant ∈ plan.reconciled
  | .selectingByAge _ _ plan => grant ∈ plan.grants ∨ grant ∈ plan.reconciled
  | .erasing job _ _ plan | .scanning job _ plan | .draining job _ _ plan =>
      job.grant = some grant ∨ grant ∈ plan.grants ∨ grant ∈ plan.reconciled
  | .returned reconciled => grant ∈ reconciled
  | .failed _ => True
  | _ => False

theorem covers_resume (h : grant ∈ plan.grants ∨ grant ∈ plan.reconciled) :
    Covers w grant plan.resume := by
  unfold Plan.resume
  split
  · next g gr hg =>
    rw [hg, mem_cons, or_assoc] at h
    exact h
  · exact h
  · next hg _ =>
    rw [hg] at h
    exact h.resolve_left not_mem_nil

theorem covers_ofResult (h : ∀ value, Covers w grant (next value)) :
    Covers w grant (Point.ofResult rs next) := by
  cases rs with
  | error => trivial
  | ok value => exact h value

theorem covers_step (h : Covers w grant point) :
    Covers (step crypto env w point).1 grant (step crypto env w point).2 := by
  cases point with
  | listing => exact covers_resume (.inl h)
  | enteringRevocation =>
    simp only [step]
    split
    · trivial
    · split <;> exact h
  | appending => exact h
  | selectingByGrant => exact h.imp_left fun heq => congrArg some heq.symm
  | selectingByAge => exact covers_ofResult fun _ => .inr h
  | erasing _ ri =>
    cases ri with
    | nil => exact h
    | cons => exact covers_ofResult fun _ => h
  | scanning => exact h
  | draining _ receipts =>
    cases receipts with
    | nil =>
      simp only [step]
      split
      · trivial
      · refine covers_resume ?_
        rcases h with hj | hg | hr
        · exact .inr (mem_append_right _ (Option.mem_toList.mpr hj))
        · exact .inl hg
        · exact .inr (mem_append_left _ hr)
    | cons =>
      simp only [step]
      split
      · trivial
      · exact h
      · exact covers_ofResult fun _ => h
  | returned => exact h
  | failed => trivial
  | _ => exact h.elim

theorem Covers.rely (hr : Rely w w') (h : Covers w grant point) : Covers w' grant point := by
  cases point with
  | listing => exact listRevokedGrantRefs_mono hr.ledger h
  | _ => exact h

/-! ### The rules -/

/-- What is known where a call is, and that a revocation is about its grant. -/
def Holds (crypto : Crypto) (w : World) (request : Request) (point : Point) : Prop :=
  Knows crypto w point ∧
    ∀ grantRef revokedBy, request = .revokeConsent grantRef revokedBy → Covers w grantRef point

theorem knows_start (w : World) (request : Request) : Knows crypto w (start request) := by
  have hd : Done w {} := ⟨fun _ hm => (nomatch hm), fun _ hm => nomatch hm⟩
  cases request with
  | revokeConsent =>
    simp only [start]
    split
    · trivial
    · exact ⟨hd, fun hn => nomatch hn⟩
  | screenRetention => exact hd
  | _ => trivial

/-- **The calls keep to the rules.** -/
theorem discipline (c : Crypto) :
    Fences.Discipline start (step c) fence (fun env w => Fresh env w.memory) (Inv c) Rely
      Guarded (Holds c) where
  refl := .refl
  trans := .trans
  outside := by
    intro request
    cases request with
    | revokeConsent =>
      simp only [start]
      split <;> rfl
    | _ => rfl
  starts := by
    intro w request _
    refine ⟨knows_start w request, ?_⟩
    rintro g revokedBy rfl
    simp only [start]
    split
    · trivial
    · exact .inl rfl
  keeps := fun hfresh hinv hh => hinv.effect (step_effect hinv hfresh hh.1.bound)
  guarantees := fun hfresh hinv hh => rely_step hinv hfresh hh.1
  leaves := fun hfresh hinv hh grant hf _ => (step_effect hinv hfresh hh.1.bound).guarded hinv hf
  advances := by
    intro env w request point hfresh hinv hh
    exact ⟨knows_step hinv hfresh hh.1 (rely_step hinv hfresh hh.1),
      fun g revokedBy hreq => covers_step (hh.2 g revokedBy hreq)⟩
  stable := fun hr hg hh =>
    ⟨hh.1.stable hr hg, fun g revokedBy hreq => (hh.2 g revokedBy hreq).rely hr⟩

theorem kept_start (c : Crypto) (seededAt : ℤ) :
    Fences.Kept fence (Inv c) (Holds c) ({ store := { ledger := seeded seededAt } } : System) where
  inv :=
    { exact := .start
      stored := fun hm => nomatch hm
      found := by simp }
  holds := by simp
  exclusive := by simp [Fences.Exclusive]

/-! ### The result -/

theorem map_recordId (h : List.Forall₂ Paired tombstones receipts) :
    tombstones.map (·.recordId) = receipts.map (·.recordId) := by
  induction h with
  | nil => rfl
  | cons hp _ ih => rw [map_cons, map_cons, hp.2.1, ih]

theorem resume_ne_captured (plan : Plan) : plan.resume ≠ .captured grant record created := by
  unfold Plan.resume
  split <;> exact Point.noConfusion

theorem ofResult_eq_captured (h : Point.ofResult rs next = .captured grant record created) :
    ∃ value, next value = .captured grant record created := by
  cases rs with
  | error => cases h
  | ok value => exact ⟨value, h⟩

theorem captured_of_step (h : (step crypto env w point).2 = .captured grant record created) :
    point = .captured grant record created ∨
      ∃ evidence, point = .inserting evidence ∧ evidence.consent.grantRef = grant := by
  cases point with
  | inserting evidence =>
    simp only [step, capture] at h
    obtain ⟨i, hi⟩ := ofResult_eq_captured h
    cases hi
    exact .inr ⟨evidence, rfl, rfl⟩
  | captured => exact .inl h
  | granting request | admitting sc thirdParty evidence | enteringAdmission evidence =>
    simp only [step] at h
    split at h <;> cases h
  | leasing request | checkingHot request active | checkingCold request locationRef volume
  | lookingUp relocation | relocating relocation contentIdentity
  | selectingByAge =>
    simp only [step] at h
    obtain ⟨_, hv⟩ := ofResult_eq_captured h
    cases hv
  | validating evidence | enteringRevocation grantRef revokedBy plan =>
    simp only [step] at h
    split at h
    · cases h
    · split at h <;> cases h
  | listing => exact absurd h (resume_ne_captured _)
  | appending grantRef revokedBy plan | selectingByGrant grantRef rf plan
  | scanning job pending plan | returned reconciled | failed error => cases h
  | erasing _ ri =>
    cases ri with
    | nil => cases h
    | cons =>
      simp only [step, deletion] at h
      obtain ⟨_, hv⟩ := ofResult_eq_captured h
      cases hv
  | draining _ receipts =>
    cases receipts with
    | nil =>
      simp only [step] at h
      split at h
      · cases h
      · exact absurd h (resume_ne_captured _)
    | cons =>
      simp only [step] at h
      split at h
      · cases h
      · cases h
      · obtain ⟨_, hv⟩ := ofResult_eq_captured h
        cases hv

theorem gone_exact (h : Exact s) (hg : Gone s.live r) :
    (∃ tombstone, s.live.tombstones.filter (·.recordId = r) = [tombstone]) ∧
      ∃ receipt, s.live.deletionReceipts.filter (·.recordId = r) = [receipt] ∧
        receipt.payload.coldCleanupLocationRefs = some [] := by
  obtain ⟨tombstone, hget, -, hq⟩ := hg
  obtain ⟨ht, rfl⟩ := h.receipted.ofRecord.mp hget
  obtain ⟨receipt, hrec, hp⟩ := exists_paired h.receipted.pairs ht
  have hr : DistinctKeys (·.recordId) s.live.deletionReceipts := by
    unfold DistinctKeys
    rw [← map_recordId h.receipted.pairs]
    exact h.nodup_tombstones
  refine ⟨⟨tombstone, DistinctKeys.filter_key h.nodup_tombstones ht⟩, receipt, ?_,
    hq receipt hrec hp.1.symm⟩
  rw [hp.2.1]
  exact hr.filter_key hrec

/-- A revocation of the grant has returned, or a replay of the revocations that was called when
the grant was revoked and of its scope. -/
def Completed (crypto : Crypto) (seededAt : ℤ) (moves : List Move) (grant : String) : Prop :=
  ∃ (i : ℕ) (request : Request) (reconciled : List String),
    (run crypto seededAt moves).callers[i]? = some (request, .returned reconciled) ∧
      ((∃ revokedBy, request = .revokeConsent grant revokedBy) ∨
        ∃ before later scope, moves = before ++ .call request :: later ∧
          i = (run crypto seededAt before).callers.length ∧
          (request = .reconcile scope ∨
            scope = none ∧ ∃ days now, request = .hardRetention days now) ∧
          grant ∈ listRevokedGrantRefs (run crypto seededAt before).store.ledger scope)

theorem run_append (seededAt : ℤ) (moves more : List Move) :
    run crypto seededAt (moves ++ more) =
      Fences.after start (step crypto) fence (run crypto seededAt moves) more :=
  Fences.after_append ..

theorem kept_run (hfresh : FreshRun crypto seededAt moves) :
    Fences.Kept fence (Inv crypto) (Holds crypto) (run crypto seededAt moves) :=
  ((discipline crypto).kept_after (kept_start crypto seededAt) hfresh).1

theorem rely_run {more : List Move} (hfresh : FreshRun crypto seededAt (moves ++ more)) :
    Rely (run crypto seededAt moves).store (run crypto seededAt (moves ++ more)).store := by
  obtain ⟨hmov, hm⟩ := Fences.FairFrom.append hfresh
  rw [run_append]
  exact ((discipline crypto).kept_after (kept_run hmov) hm).2

/-- **What is completed is erased.** -/
theorem Completed.erased (hfresh : FreshRun crypto seededAt moves)
    (h : Completed crypto seededAt moves grant) :
    Erased (run crypto seededAt moves).store grant := by
  obtain ⟨i, request, _, hi, hreq⟩ := h
  obtain ⟨hkn, hcv⟩ := (kept_run hfresh).holds i request _ hi
  refine hkn grant ?_
  rcases hreq with ⟨revokedBy, rfl⟩ | ⟨b, later, scope, rfl, rfl, hsc, hls⟩
  · exact hcv grant revokedBy rfl
  · -- the call starts with the list of revocations, and is followed from there
    have hspl : b ++ .call request :: later = (b ++ [.call request]) ++ later := by simp
    rw [hspl] at hfresh hi
    obtain ⟨hca, hlat⟩ := Fences.FairFrom.append hfresh
    have hcl : run crypto seededAt (b ++ [.call request]) =
        Callers.next start (step crypto) (run crypto seededAt b) (.call request) :=
      run_append seededAt b [.call request]
    have hpl : (run crypto seededAt (b ++ [.call request])).callers[(run crypto seededAt
        b).callers.length]? = some (request, start request) := by
      rw [hcl]
      exact getElem?_concat_length
    have hst : Covers (run crypto seededAt (b ++ [.call request])).store grant
        (start request) := by
      rw [hcl]
      rcases hsc with rfl | ⟨rfl, days, now, rfl⟩
      · exact hls
      · exact hls
    obtain ⟨_, hpn, hcov⟩ := (discipline crypto).tracked (Covers · grant ·) covers_step
      (fun hrl h => h.rely hrl) (kept_run hca) hpl hst hlat
    rw [run_append] at hi
    cases hi.symm.trans hpn
    exact hcov

/-- **Revoking consent erases everything and lets nothing back in.**  Take any interleaving of
captures, grants, leases, registrations of copies, retention jobs, revocations and their replays.
Once a revocation of a grant has returned, or a replay that was called after it, then at that
moment and however the run goes on: no record is associated with the grant; no capture under it
succeeds that had not succeeded before; and every generation that was ever associated with it has
one tombstone and one deletion receipt, whose queue of cold objects is empty. -/
theorem revocation_erases (crypto : Crypto) (seededAt : ℤ) (moves more : List Move)
    (hfresh : FreshRun crypto seededAt (moves ++ more)) (grant : String)
    (hcompleted : Completed crypto seededAt moves grant) :
    (∀ r, grant ∉ (run crypto seededAt (moves ++ more)).store.memory.raw.consentGrantRefs r) ∧
    (∀ (i : ℕ) request record created,
      (run crypto seededAt (moves ++ more)).callers[i]? =
          some (request, Point.captured grant record created) →
        (run crypto seededAt moves).callers[i]? =
          some (request, Point.captured grant record created)) ∧
    ∀ earlier, earlier <+: moves ++ more →
      ∀ r, grant ∈ (run crypto seededAt earlier).store.memory.raw.consentGrantRefs r →
        (∃ tombstone, (run crypto seededAt (moves ++ more)).store.memory.live.tombstones.filter
          (·.recordId = r) = [tombstone]) ∧
        ∃ receipt, (run crypto seededAt (moves ++ more)).store.memory.live.deletionReceipts.filter
            (·.recordId = r) = [receipt] ∧
          receipt.payload.coldCleanupLocationRefs = some [] := by
  obtain ⟨hmov, hmr⟩ := Fences.FairFrom.append hfresh
  have hes := hcompleted.erased hmov
  have hlat := hes.rely (rely_run hfresh)
  have hinv := (kept_run hfresh).inv
  refine ⟨fun r hmem => ?_, fun i request record created hi => ?_, ?_⟩
  · -- the record would be erased, and what is erased has no consents
    obtain ⟨tombstone, ht, -⟩ := hlat.2 r (hinv.stored hmem)
    exact hinv.no_consents (Option.isSome_iff_exists.mpr ⟨tombstone, ht⟩) hmem
  · rw [run_append] at hi
    refine (discipline crypto).stayed ?_ (kept_run hmov) (fun hrl hhd hgl => ?_) hmr hi
    · intro request
      cases request with
      | revokeConsent g revokedBy =>
        simp only [start]
        split <;> simp
      | _ => simp [start]
    · rcases captured_of_step hgl with hsame | ⟨evidence, rfl, rfl⟩
      · exact hsame
      · exact absurd (hes.1.mono hrl.ledger) hhd.1
  · rintro earlier ⟨rest, hrs⟩ r hmem
    rw [← hrs] at hfresh hlat hinv ⊢
    obtain ⟨hel, -⟩ := Fences.FairFrom.append hfresh
    have hadm := (rely_run hfresh).admissions ((kept_run hel).inv.stored hmem)
    exact gone_exact hinv.exact (hlat.2 r hadm)

/-- A memo is captured while a revocation of its grant waits for the fence, and a second capture
waits for the end of the revocation. -/
def revokedMemo : List Move :=
  let memo (content : String) : Request := .capture "device+adapter:v1-voice-memo" "none"
    { contentIdentity := content, captureChain := ["folder"], sensor := [("adapter", "voice")]
      consent := { basis := "", grantedBy := "", grantedAt := 0, grantRef := "" }
      ciphertext := content, nonce := "n", keyRef := "k", key := "key", sourcePath := "memo.m4a" }
  let env : Env := { now := 10, recordId := "00000000-0000-4000-8000-000000000001" }
  let later : Env :=
    { now := 20, recordId := "00000000-0000-4000-8000-000000000002", receiptId := "receipt" }
  let last : Env := { now := 30, recordId := "00000000-0000-4000-8000-000000000003" }
  [.call (memo "first"), .step 0 env, .step 0 env, .step 0 env, .call (memo "second"), .step 1 env,
    .call (.revokeConsent "grant-self-record-v1" "operator"), .step 2 env, .step 0 env,
    .step 2 later, .step 1 later, .step 2 later, .step 2 later, .step 2 later, .step 2 last,
    .step 2 last, .step 2 last, .step 2 last]

/-- The second capture goes on, and the grant is granted again. -/
def grantedAgain : List Move :=
  let env : Env := { now := 40, recordId := "00000000-0000-4000-8000-000000000003" }
  [.step 1 env, .step 1 env,
    .call (.grantConsent
      { grantRef := "grant-self-record-v1", basis := "self_record"
        scope := "device+adapter:v1-voice-memo", grantedBy := "operator" }), .step 3 env]

/-- The memo is erased, the second capture refused. -/
theorem revoked_memo_erased :
    (∀ r, "grant-self-record-v1" ∉
      (run plainCrypto 0 (revokedMemo ++ grantedAgain)).store.memory.raw.consentGrantRefs r) ∧
    (run plainCrypto 0 revokedMemo).store.memory.live.tombstones.map (·.recordId) =
      ["00000000-0000-4000-8000-000000000001"] ∧
    (run plainCrypto 0 (revokedMemo ++ grantedAgain)).callers[1]?.map (·.2) =
      some (.failed (.noLongerActive "grant-self-record-v1")) :=
  ⟨(revocation_erases plainCrypto 0 revokedMemo grantedAgain (by decide +kernel)
      "grant-self-record-v1" ⟨2, .revokeConsent "grant-self-record-v1" "operator",
        ["grant-self-record-v1"], by decide +kernel, .inl ⟨"operator", rfl⟩⟩).1,
    by decide +kernel, by decide +kernel⟩

end AgenticPkm.Revocation
