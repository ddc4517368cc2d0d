import AgenticPkm.Builderops.ControlPlane.Outbox
import Mathlib.Data.Set.Insert

/-!
# The life of one outbox operation

An operation of the outbox as somebody sees it who only cares when it is offered for execution:
where its row stands, under which tokens it was claimed for execution, and for which tokens it
was found that the effect did not happen.  Five things can happen to it.  Whatever happens, an
operation that is free to be claimed again has been refuted since its last claim.
-/

namespace AgenticPkm.ControlPlane

/-! ### The operation and its changes -/

/-- The columns of a row that decide who may do what. -/
structure RowView where
  effectType : String
  status : Status
  token : ℕ
  worker : Option String

/-- An operation: its row, the tokens `claim_outbox` has claimed it under, and the tokens of
reconciliations that did not observe the effect. -/
structure Operation where
  row : Option RowView
  claimed : Set ℕ
  refuted : Set ℕ

namespace Operation

/-- What one transaction may do to an operation. -/
inductive Change : Operation → Operation → Prop
  | same (o : Operation) : Change o o
  | enqueued (o : Operation) (v : RowView) (hrow : o.row = none) (hfree : v.worker = none)
      (hopen : v.status.terminal = false) : Change o { o with row := some v }
  /-- a claim whose outcome is no longer known -/
  | lost (o : Operation) (v : RowView) (hrow : o.row = some v) (hstatus : v.status = .claimed) :
      Change o { o with row := some { v with status := .unknown } }
  /-- a claim for execution -/
  | claimed (o : Operation) (v : RowView) (worker : String) (hrow : o.row = some v)
      (hstatus : v.status = .pending) (hmerge : v.effectType = "github.merge" → v.token = 0) :
      Change o { o with
        row := some { v with status := .claimed, token := v.token + 1, worker := some worker }
        claimed := insert (v.token + 1) o.claimed }
  /-- a claim for readback -/
  | recovered (o : Operation) (v : RowView) (worker : String) (hrow : o.row = some v)
      (hopen : v.status.terminal = false) :
      Change o { o with
        row := some { v with status := .unknown, token := v.token + 1, worker := some worker } }
  | reconciled (o : Operation) (v : RowView) (status : Status) (hrow : o.row = some v)
      (hstatus : v.status = .unknown) (happlied : status.terminal = true) (refuted : Set ℕ)
      (hgrows : o.refuted ⊆ refuted) :
      Change o { o with row := some { v with status, worker := none }, refuted }
  | refuted (o : Operation) (v : RowView) (hrow : o.row = some v) (hstatus : v.status = .unknown) :
      Change o { o with
        row := some { v with status := .pending, worker := none }
        refuted := insert v.token o.refuted }

/-- Claims of one operation are apart by refutations, and a terminal operation is nobody's. -/
structure Inv (o : Operation) : Prop where
  present : ∀ t ∈ o.claimed, ∃ v, o.row = some v ∧ t ≤ v.token
  free : ∀ v, o.row = some v → v.status.terminal = true → v.worker = none
  refuted_since : ∀ v, o.row = some v → v.status = .pending →
    ∀ t ∈ o.claimed, ∃ r ∈ o.refuted, t ≤ r ∧ r ≤ v.token
  refuted_between : ∀ t ∈ o.claimed, ∀ t' ∈ o.claimed, t < t' → ∃ r ∈ o.refuted, t ≤ r ∧ r < t'
  merge_once : ∀ v, o.row = some v → v.effectType = "github.merge" → ∀ t ∈ o.claimed, t = 1

/-- What is never taken back. -/
structure Later (o o' : Operation) : Prop where
  claimed : o.claimed ⊆ o'.claimed
  refuted : o.refuted ⊆ o'.refuted
  row : ∀ v, o.row = some v → ∃ v', o'.row = some v' ∧ v'.effectType = v.effectType ∧
    v.token ≤ v'.token ∧ (v.status.terminal = true → v' = v)

theorem Later.refl (o : Operation) : o.Later o where
  claimed := subset_rfl
  refuted := subset_rfl
  row := fun v hv => ⟨v, hv, rfl, le_rfl, fun _ => rfl⟩

variable {o o' : Operation} {v : RowView}

theorem Later.trans {o'' : Operation} (h : o.Later o') (h' : o'.Later o'') : o.Later o'' where
  claimed := h.claimed.trans h'.claimed
  refuted := h.refuted.trans h'.refuted
  row := by
    intro v hv
    obtain ⟨v', hv', heff, htok, ht⟩ := h.row v hv
    obtain ⟨v'', hv'', heff', htok', ht'⟩ := h'.row v' hv'
    refine ⟨v'', hv'', heff'.trans heff, htok.trans htok', fun hv => ?_⟩
    obtain rfl := ht hv
    exact ht' hv

/-! ### Changes and the invariant -/

variable {v' : RowView} {refuted : Set ℕ}

/-- A row that is replaced by one with the same effect and no smaller token, and is not
terminal. -/
theorem Later.of_row {claimed : Set ℕ} (hr : o.row = some v) (hcl : o.claimed ⊆ claimed)
    (href : o.refuted ⊆ refuted) (heff : v'.effectType = v.effectType) (ht : v.token ≤ v'.token)
    (ho : v.status.terminal = false) : o.Later ⟨some v', claimed, refuted⟩ where
  claimed := hcl
  refuted := href
  row := by
    intro w hw
    cases hr.symm.trans hw
    exact ⟨v', rfl, heff, ht, fun h => absurd h (by simp [ho])⟩

theorem Change.later (h : o.Change o') : o.Later o' := by
  cases h with
  | same => exact .refl o
  | enqueued _ hr => exact ⟨subset_rfl, subset_rfl, fun w hw => absurd (hr.symm.trans hw) nofun⟩
  | lost _ hr hs =>
    exact .of_row hr subset_rfl subset_rfl rfl le_rfl (by simp [hs, Status.terminal])
  | claimed _ _ hr hs =>
    exact .of_row hr (Set.subset_insert _ _) subset_rfl rfl (Nat.le_succ _)
      (by simp [hs, Status.terminal])
  | recovered _ _ hr ho => exact .of_row hr subset_rfl subset_rfl rfl (Nat.le_succ _) ho
  | reconciled _ _ hr hs _ _ hg =>
    exact .of_row hr subset_rfl hg rfl le_rfl (by simp [hs, Status.terminal])
  | refuted _ hr hs =>
    exact .of_row hr subset_rfl (Set.subset_insert _ _) rfl le_rfl (by simp [hs, Status.terminal])

theorem Inv.le_token (h : o.Inv) (hrow : o.row = some v) {t : ℕ} (ht : t ∈ o.claimed) :
    t ≤ v.token := by
  obtain ⟨w, hw, hle⟩ := h.present t ht
  cases hrow.symm.trans hw
  exact hle

/-- A row that is replaced while no claim is added and the operation does not become free to
be claimed. -/
theorem Inv.of_row (h : o.Inv) (hrow : o.row = some v) (hg : o.refuted ⊆ refuted)
    (heff : v'.effectType = v.effectType) (htok : v.token ≤ v'.token)
    (hp : v'.status ≠ .pending) (hf : v'.status.terminal → v'.worker = none) :
    (⟨some v', o.claimed, refuted⟩ : Operation).Inv where
  present := by
    intro t ht
    exact ⟨v', rfl, (h.le_token hrow ht).trans htok⟩
  free := by
    rintro w ⟨⟩ hw
    exact hf hw
  refuted_since := by
    rintro w ⟨⟩ hw
    exact absurd hw hp
  refuted_between := by
    intro t ht t' ht' hlt
    obtain ⟨r, hr, hle⟩ := h.refuted_between t ht t' ht' hlt
    exact ⟨r, hg hr, hle⟩
  merge_once := by
    rintro w ⟨⟩ hw
    exact h.merge_once v hrow (heff ▸ hw)

/-- A claim comes after a refutation of every claim before it. -/
theorem Inv.claim (h : o.Inv) (worker : String) (hrow : o.row = some v) (hs : v.status = .pending)
    (hm : v.effectType = "github.merge" → v.token = 0) :
    (⟨some { v with status := .claimed, token := v.token + 1, worker := some worker },
      insert (v.token + 1) o.claimed, o.refuted⟩ : Operation).Inv := by
  have hle : ∀ t ∈ o.claimed, t ≤ v.token := fun t => h.le_token hrow
  refine ⟨?_, ?_, ?_, ?_, ?_⟩
  · rintro t (rfl | ht)
    · exact ⟨_, rfl, le_rfl⟩
    · exact ⟨_, rfl, (hle t ht).trans (Nat.le_succ _)⟩
  · rintro w ⟨⟩ hw
    cases hw
  · rintro w ⟨⟩ hw
    cases hw
  · rintro t (rfl | ht) t' (rfl | ht') hlt
    · exact absurd hlt (lt_irrefl _)
    · have := hle t' ht'
      omega
    · obtain ⟨r, hr, hge, hb⟩ := h.refuted_since v hrow hs t ht
      exact ⟨r, hr, hge, Nat.lt_succ_of_le hb⟩
    · exact h.refuted_between t ht t' ht' hlt
  · rintro w ⟨⟩ hw t (rfl | ht)
    · exact congrArg (· + 1) (hm hw)
    · exact h.merge_once v hrow hw t ht

/-- A refutation at the token of the row stands against every claim so far. -/
theorem Inv.refute (h : o.Inv) (hrow : o.row = some v) :
    (⟨some { v with status := .pending, worker := none }, o.claimed,
      insert v.token o.refuted⟩ : Operation).Inv where
  present := by
    intro t ht
    exact ⟨_, rfl, h.le_token hrow ht⟩
  free := by
    rintro w ⟨⟩ hw
    rfl
  refuted_since := by
    rintro w ⟨⟩ - t ht
    exact ⟨v.token, Set.mem_insert _ _, h.le_token hrow ht, le_rfl⟩
  refuted_between := by
    intro t ht t' ht' hlt
    obtain ⟨r, hr, hle⟩ := h.refuted_between t ht t' ht' hlt
    exact ⟨r, Set.mem_insert_of_mem _ hr, hle⟩
  merge_once := by
    rintro w ⟨⟩ hw
    exact h.merge_once v hrow hw

/-- **Every change keeps the invariant.** -/
theorem Change.inv (hchg : o.Change o') (h : o.Inv) : o'.Inv := by
  cases hchg with
  | same => exact h
  | enqueued _ hr hf =>
    -- an operation without a row has no claims
    have hemp : ∀ t ∈ o.claimed, False := by
      intro t ht
      obtain ⟨w, hw, -⟩ := h.present t ht
      exact absurd (hr.symm.trans hw) nofun
    refine ⟨fun t ht => (hemp t ht).elim, ?_, fun _ _ _ t ht => (hemp t ht).elim,
      fun t ht => (hemp t ht).elim, fun _ _ _ t ht => (hemp t ht).elim⟩
    rintro w ⟨⟩ -
    exact hf
  | lost _ hr => exact h.of_row hr subset_rfl rfl le_rfl nofun nofun
  | claimed _ wr hr hs hm => exact h.claim wr hr hs hm
  | recovered _ _ hr => exact h.of_row hr subset_rfl rfl (Nat.le_succ _) nofun nofun
  | reconciled _ _ hr _ ha _ hg =>
    refine h.of_row hr hg rfl le_rfl ?_ (fun _ => rfl)
    rintro rfl
    cases ha
  | refuted _ hr => exact h.refute hr

end Operation

/-! ### The operation in the tables -/

def OutboxRow.view (row : OutboxRow) : RowView where
  effectType := row.effectType
  status := row.status
  token := row.claimFencingToken
  worker := row.workerId

def Receipt.Claims (receipt : Receipt) (key : Key) (token : ℕ) : Prop :=
  receipt.repository = key.1 ∧ receipt.eventType = .outboxClaimed ∧
    receipt.idempotencyKey = .claim key.2 token

namespace Database

def operation (db : Database) (key : Key) : Operation where
  row := (db.outbox.get? key).map OutboxRow.view
  claimed := { token | ∃ receipt ∈ db.receipts, receipt.Claims key token }
  refuted := { token | ∃ record, db.reconciliations.get? (key, token) = some record ∧
    record.observedApplied = false }

variable (db : Database) (key key' : Key)

theorem operation_setRow (row : OutboxRow) :
    (db.setRow key row).operation key' =
      if key' = key then { db.operation key' with row := some row.view }
      else db.operation key' := by
  simp only [operation, setRow, Dict.get?_set]
  split <;> rfl

variable {f : OutboxRow → OutboxRow} {rc : Receipt}

theorem operation_updateRow (h : ∀ row, (f row).view = row.view) :
    (db.updateRow key f).operation key' = db.operation key' := by
  unfold updateRow
  split
  · rfl
  · next row hr =>
    rw [operation_setRow]
    split
    · next heq =>
      subst heq
      simp only [operation, hr, h, Option.map_some]
    · rfl

@[simp] theorem operation_bindReceipt (s : ℕ) (lsn : Option String → String) :
    (db.bindReceipt s lsn).operation key = db.operation key := by
  have hcls : ∀ (rc : Receipt) (token : ℕ),
      (if rc.receiptSequence = s then
        { rc with recoveryLsn := some (lsn rc.recoveryLsn) }
        else rc).Claims key token ↔ rc.Claims key token := by
    intro rc token
    split <;> exact Iff.rfl
  simp [operation, bindReceipt, hcls]

theorem operation_bindRow (h : ∀ row, (f row).view = row.view) (s : ℕ)
    (lsn : Option String → String) :
    ((db.bindReceipt s lsn).updateRow key f).operation key' = db.operation key' := by
  rw [operation_updateRow _ _ _ h, operation_bindReceipt]

theorem operation_addReceipt_of_ne (r : Receipt) (h : r.eventType ≠ .outboxClaimed) :
    (db.addReceipt r).operation key = db.operation key := by
  have hn : ∀ token, ¬r.Claims key token := fun token hcls => h hcls.2.1
  simp only [operation, addReceipt, List.mem_append, List.mem_singleton, or_and_right, exists_or,
    exists_eq_left, hn, or_false]

theorem operation_addReceipt_of_claim (token : ℕ) (h : rc.Claims key token) :
    (db.addReceipt rc).operation key =
      { db.operation key with claimed := insert token (db.operation key).claimed } := by
  have hi : ∀ t, rc.Claims key t ↔ t = token := by
    intro t
    constructor
    · intro ht
      have heq := ht.2.2.symm.trans h.2.2
      injection heq
    · rintro rfl
      exact h
  simp only [operation, addReceipt, List.mem_append, List.mem_singleton, or_and_right, exists_or,
    exists_eq_left, hi]
  congr 1
  ext t
  simp [or_comm]

theorem operation_addReceipt_of_other (tk : ℕ) (h : rc.Claims key tk)
    (hne : key' ≠ key) : (db.addReceipt rc).operation key' = db.operation key' := by
  have hn : ∀ t, ¬rc.Claims key' t := by
    intro t ht
    have heq := ht.2.2.symm.trans h.2.2
    injection heq with hop
    exact hne (Prod.ext (ht.1.symm.trans h.1) hop)
  simp only [operation, addReceipt, List.mem_append, List.mem_singleton, or_and_right, exists_or,
    exists_eq_left, hn, or_false]

end Database

end AgenticPkm.ControlPlane
