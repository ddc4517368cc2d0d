import AgenticPkm.Builderops.ControlPlane.Operation
import AgenticPkm.Lib.Callers

/-!
# Calls of the control-plane store

The functions of the store as sequences of transactions.  Any number of workers call them, each
through a store object of its own or one it shares; between two transactions of a call others may
commit theirs, a call that takes no further step has crashed, and the clock of the database is
given afresh to each transaction.  The rest of the control plane takes part in two ways: it
commits new intents, and it may put any authority state and any task payloads in place.
-/

namespace AgenticPkm.ControlPlane

open Option

/-- What a transaction is given: the time of the database, and the position of its log. -/
structure Input where
  now : ℤ
  lsn : String

/-- A claim for execution, or for readback only. -/
inductive Kind
  | execution
  | readback
  deriving DecidableEq

/-- A new intent: the row, its receipt and its idempotency record. -/
structure Intent where
  repository : String
  operationKey : String
  idempotencyKey : String
  taskId : String
  effectType : String
  payload : Evidence
  envelope : AuthorityEnvelope

/-- The calls. -/
inductive Request
  | claimOutbox (store : ℕ) (envelope : AuthorityEnvelope) (operationKey : Option String)
      (workerId : String) (ttlSeconds : ℤ)
  | outboxClaim (store : ℕ) (envelope : AuthorityEnvelope) (operationKey workerId : String)
      (ttlSeconds : ℤ)
  | effectEligible (store : ℕ) (claim : OutboxClaim)
  | markEffectUnknown (store : ℕ) (claim : OutboxClaim) (detail : String)
  | beginPostEffectPending (store : ℕ) (repository operationKey : String)
      (minimumFencingToken : ℕ) (expectedPrincipal : String)
  | reconcileOutbox (request : Reconcile)
  | reconcilePostEffect (request : PostReconcile)
  | activateRecoveredEpoch (store : ℕ) (recoveryId restoredLsn : String)
  /-- the outbox part of a transition -/
  | commitIntent (intent : Intent)
  /-- the bootstrap, the recovery and the transitions of tasks -/
  | elsewhere (recovery : Option Recovery) (authorityEpoch : Option ℕ)
      (tasks : Dict Key TaskPayload)

/-- How a call ended. -/
inductive Outcome
  /-- `claim_outbox` returned -/
  | claimed (claim : OutboxClaim)
  /-- `outbox_claim` returned -/
  | recovered (claim : OutboxClaim)
  | eligible (answer : Bool)
  | unknown (claim : OutboxClaim)
  | began (identity : PostEffectIdentity)
  | reconciled (result : OutboxReconciliation)
  | closed (result : PostResult)
  | activated (epoch : ℕ)
  | committed
  | raised (error : StoreError)

/-- Where a call is: the transaction it makes next, with what it remembers. -/
inductive Point
  /-- `_repair_outbox_bindings`, which reads first -/
  | readBindings (kind : Kind) (call : ClaimCall)
  | bindIntent (kind : Kind) (call : ClaimCall) (idempotencyKey : String) (receiptSequence : ℕ)
      (reconciliation : Option (ℕ × ℕ))
  | bindReconciliation (kind : Kind) (call : ClaimCall) (token receiptSequence : ℕ)
  | repairBinding (call : ClaimCall)
  | take (kind : Kind) (call : ClaimCall)
  | bind (kind : Kind) (call : ClaimCall) (ticket : Ticket)
  | eligible (store : ℕ) (claim : OutboxClaim)
  | mark (store : ℕ) (claim : OutboxClaim) (detail : String)
  | beginPending (store : ℕ) (key : Key) (minimumFencingToken : ℕ) (expectedPrincipal : String)
  /-- `reconcile_outbox`, on its own or as a part of `reconcile_post_effect` -/
  | reconcile (request : Reconcile) (post : Option PostReconcile)
  | finalize (request : Reconcile) (receiptSequence : ℕ) (replayed : Bool)
      (post : Option PostReconcile)
  | readPost (request : PostReconcile)
  | closePost (request : PostReconcile) (result : PostResult)
  | activate (store : ℕ) (recoveryId restoredLsn : String)
  | commit (intent : Intent)
  | elsewhere (recovery : Option Recovery) (authorityEpoch : Option ℕ)
      (tasks : Dict Key TaskPayload)
  | done (outcome : Outcome)

/-! ### How a call starts -/

/-- The arguments of a claim of either kind. -/
def startClaim (kind : Kind) (call : ClaimCall) : Point :=
  if call.operationKey = "" ∨ call.workerId = "" ∨ call.ttlSeconds ≤ 0 then
    .done (.raised (.valueError
      "operation_key, worker_id, and positive claim_ttl_seconds are mandatory"))
  else
    match canonicalRepository call.envelope.repository with
    | .error error => .done (.raised error)
    | .ok repository =>
        .readBindings kind { call with envelope := { call.envelope with repository } }

/-- `OutboxClaim.__post_init__`. -/
def withClaim (claim : OutboxClaim) (next : OutboxClaim → Point) : Point :=
  match canonicalRepository claim.repository with
  | .error error => .done (.raised error)
  | .ok repository => next { claim with repository }

/-- The checks of `reconcile_post_effect` that need no row. -/
def postChecks (request : PostReconcile) : Except StoreError String := do
  raiseWhen (request.terminalUnknown && request.observedApplied)
    (.valueError "terminal-unknown reconciliation cannot claim an applied effect")
  validateRowDerivedEvidence request.evidence request.terminalUnknown
  raiseWhen (!request.terminalUnknown &&
      request.evidence.get? "readback" ≠
        some (.text (if request.observedApplied then "found" else "not-found")))
    (.valueError "readback evidence contradicts the requested outcome")
  canonicalRepository request.key.1

def start : Request → Point
  | .claimOutbox store envelope operationKey workerId ttlSeconds =>
      startClaim .execution ⟨store, envelope, operationKey.getD "", workerId, ttlSeconds⟩
  | .outboxClaim store envelope operationKey workerId ttlSeconds =>
      startClaim .readback ⟨store, envelope, operationKey, workerId, ttlSeconds⟩
  | .effectEligible store claim => withClaim claim (.eligible store)
  | .markEffectUnknown store claim detail => withClaim claim (.mark store · detail)
  | .beginPostEffectPending store repository operationKey minimumFencingToken principal =>
      match canonicalRepository repository with
      | .error error => .done (.raised error)
      | .ok repository =>
          .beginPending store (repository, operationKey) minimumFencingToken principal
  | .reconcileOutbox request =>
      withClaim request.claim fun claim =>
        if request.terminalUnknown && request.observedApplied then
          .done (.raised (.valueError
            "terminal-unknown reconciliation cannot claim an applied effect"))
        else .reconcile { request with claim } none
  | .reconcilePostEffect request =>
      match postChecks request with
      | .error error => .done (.raised error)
      | .ok repository => .readPost { request with key := (repository, request.key.2) }
  | .activateRecoveredEpoch store recoveryId restoredLsn =>
      .activate store recoveryId restoredLsn
  | .commitIntent intent => .commit intent
  | .elsewhere recovery authorityEpoch tasks => .elsewhere recovery authorityEpoch tasks

/-! ### One transaction -/

/-- A transaction under an admission: when either raises, nothing is written but the identity
the store object was admitted under. -/
def transact {α : Type} (admission : Database × Except StoreError Unit)
    (body : Database → Except StoreError (Database × α)) (next : α → Point) : Database × Point :=
  match admission.2 with
  | .error error => (admission.1, .done (.raised error))
  | .ok () =>
      match body admission.1 with
      | .error error => (admission.1, .done (.raised error))
      | .ok (db, a) => (db, next a)

/-- What follows `_repair_outbox_bindings`. -/
def afterBindings (kind : Kind) (call : ClaimCall) : Point :=
  match kind with
  | .execution => .take .execution call
  | .readback => .repairBinding call

/-- The reconciliation that `_repair_outbox_bindings` still has to bind. -/
def afterIntent (kind : Kind) (call : ClaimCall) : Option (ℕ × ℕ) → Point
  | none => afterBindings kind call
  | some (token, receiptSequence) => .bindReconciliation kind call token receiptSequence

/-- The reconciliation of the row that is not bound to the log: its token and receipt. -/
def OutboxRow.openReconciliation (row : OutboxRow) : Option (ℕ × ℕ) :=
  if row.reconciliationLsn = none then
    row.reconciliationReceiptSequence.map fun sequence => (row.claimFencingToken, sequence)
  else none

/-- What `_repair_outbox_bindings` reads, and goes on with. -/
def readBindings (kind : Kind) (call : ClaimCall) (db : Database) : Except StoreError Point :=
  match db.outbox.get? call.key with
  | none => .ok (afterBindings kind call)
  | some row =>
      if row.intentLsn = none then
        match db.receipt? row.intentReceiptSequence with
        | none =>
            .error (.durabilityPending "outbox intent has no local idempotency binding")
        | some receipt => do
            raiseWhen (receipt.idempotencyKey.text = "")
              (.durabilityPending "outbox intent has no local idempotency binding")
            .ok (.bindIntent kind call receipt.idempotencyKey.text row.intentReceiptSequence
              row.openReconciliation)
      else .ok (afterIntent kind call row.openReconciliation)

/-- The rows of a new intent; its key is a hash of the request, so a row under it is the
intent itself. -/
def commitIntent (intent : Intent) (db : Database) : Database :=
  match db.outbox.get? (intent.repository, intent.operationKey) with
  | some _ => db
  | none =>
      { (db.addReceipt
          { receiptSequence := db.nextReceipt, repository := intent.repository
            taskId := intent.taskId, eventType := .transition "transition"
            idempotencyKey := .request intent.idempotencyKey
            authorityEnvelope := intent.envelope }).setRow
          (intent.repository, intent.operationKey)
          { taskId := intent.taskId, effectType := intent.effectType, payload := intent.payload
            intentReceiptSequence := db.nextReceipt, authorityEnvelope := intent.envelope } with
        idempotency := db.idempotency.set (intent.repository, intent.idempotencyKey)
          { receiptSequence := db.nextReceipt, recoveryLsn := "0/0"
            operationKey := some intent.operationKey } }

/-- The outcome of `reconcile_outbox`: the end of the call, or the way on of
`reconcile_post_effect`. -/
def afterReconciliation (post : Option PostReconcile) (result : OutboxReconciliation) : Point :=
  match post with
  | none => .done (.reconciled result)
  | some request =>
      .closePost request ⟨result.status, result.fencingToken, result.receiptSequence,
        result.recoveryLsn, result.replayed⟩

def afterRead (request : PostReconcile) : PostPlan → Point
  | .finished result => .done (.closed result)
  | .close result => .closePost request result
  | .reconcile claim =>
      .reconcile { store := request.store, claim, observedApplied := request.observedApplied
                   terminalUnknown := request.terminalUnknown, evidence := request.evidence }
        (some request)

/-- The first transaction of `claim_outbox` left a claim, or a row made unknown. -/
def afterTake (call : ClaimCall) : Option Ticket → Point
  | some ticket => .bind .execution call ticket
  | none => .done (.raised (.unknownEffectNeedsReconciliation
      "expired pre-effect claim may have executed; external readback required"))

variable (hash : Reconcile → String)

def step (input : Input) (db : Database) : Point → Database × Point
  | .readBindings kind call =>
      transact (bindAuthority call.store db)
        (fun db => (readBindings kind call db).map fun point => (db, point)) id
  | .bindIntent kind call idempotencyKey receiptSequence reconciliation =>
      transact (bindAuthority call.store db)
        (finalizeTransition call.envelope.repository idempotencyKey receiptSequence
          call.operationKey input.lsn)
        fun _ => afterIntent kind call reconciliation
  | .bindReconciliation kind call token receiptSequence =>
      transact (bindAuthority call.store db)
        (finalizeReconciliation call.key token receiptSequence input.lsn true)
        fun _ => afterBindings kind call
  | .repairBinding call =>
      transact (bindAuthority call.store db) (repairClaimBinding call.key input.lsn)
        fun _ => .take .readback call
  | .take .execution call =>
      transact (assertExecutorEnabled call.store (some call.envelope.repository) db)
        (claimTransaction input.now call) (afterTake call)
  | .take .readback call =>
      transact (bindAuthority call.store db) (recoverTransaction input.now call)
        (.bind .readback call)
  | .bind .execution call ticket =>
      transact (assertExecutorEnabled call.store (some call.envelope.repository) db)
        (bindExecution call ticket input.lsn) fun claim => .done (.claimed claim)
  | .bind .readback call ticket =>
      transact (bindAuthority call.store db) (bindRecovery call ticket input.lsn)
        fun claim => .done (.recovered claim)
  | .eligible store claim =>
      match effectEligible input.now store claim db with
      | (db, .error error) => (db, .done (.raised error))
      | (db, .ok answer) => (db, .done (.eligible answer))
  | .mark store claim detail =>
      transact (bindAuthority store db) (markEffectUnknown input.now claim detail)
        fun _ => .done (.unknown claim)
  | .beginPending store key minimumFencingToken principal =>
      transact (assertExecutorEnabled store none db)
        (beginPostEffectPending input.now key minimumFencingToken principal)
        fun identity => .done (.began identity)
  | .reconcile request post =>
      transact (bindAuthority request.store db) (reconcileTransaction hash input.now request)
        fun (receiptSequence, replayed) => .finalize request receiptSequence replayed post
  | .finalize request receiptSequence replayed post =>
      transact (bindAuthority request.store db)
        (finalizeReconciliation request.claim.key request.claim.fencingToken receiptSequence
          input.lsn replayed)
        (afterReconciliation post)
  | .readPost request =>
      transact (bindAuthority request.store db)
        (fun db => (readPostEffect input.now request db).map fun plan => (db, plan))
        (afterRead request)
  | .closePost request result =>
      transact (bindAuthority request.store db) (fun db => .ok (closePostEffect request result db))
        fun closed => if closed then .done (.closed result) else .readPost request
  | .activate store recoveryId restoredLsn =>
      match activateRecoveredEpoch store recoveryId restoredLsn db with
      | (db, .error error) => (db, .done (.raised error))
      | (db, .ok epoch) => (db, .done (.activated epoch))
  | .commit intent => (commitIntent intent db, .done .committed)
  | .elsewhere recovery authorityEpoch tasks =>
      ({ db with recovery, authorityEpoch, tasks }, .done .committed)
  | .done outcome => (db, .done outcome)

abbrev System := Callers.System Database Request Point

abbrev Move := Callers.Move Request Input

abbrev run (s : System) (moves : List Move) : System := Callers.after start (step hash) s moves

/-! ### What a transaction does to an operation -/

section Refinement

variable {db db' : Database} (key : Key)

@[simp] theorem operation_bindAuthority (s : ℕ) :
    (bindAuthority s db).1.operation key = db.operation key := by
  unfold bindAuthority
  split
  · rfl
  · split <;> rfl

theorem assertExecutorEnabled_fst (s : ℕ) (r : Option String) :
    (assertExecutorEnabled s r db).1 = (bindAuthority s db).1 := by
  unfold assertExecutorEnabled
  split <;> simp_all

theorem transact_change {α : Type} {ad : Database × Except StoreError Unit}
    {body : Database → Except StoreError (Database × α)} {next : α → Point}
    (ha : ad.1.operation key = db.operation key)
    (hb : ∀ db' a, body ad.1 = .ok (db', a) → (ad.1.operation key).Change (db'.operation key)) :
    (db.operation key).Change ((transact ad body next).1.operation key) := by
  unfold transact
  rw [← ha]
  split
  · exact .same _
  · split
    · exact .same _
    · next h => exact hb _ _ h

variable {lsn : String} {u : Unit} {key' : Key} {tk : ℕ} {row : OutboxRow} {now : ℤ}
  {re : ℕ} {record : Reconciliation}

theorem finalizeTransition_operation {r i : String} {o : String}
    (h : finalizeTransition r i re o lsn db = .ok (db', u)) :
    db'.operation key = db.operation key := by
  simp only [finalizeTransition, bind_eq_ok_iff] at h
  obtain ⟨p, -, h⟩ := h
  split at h <;> cases h
  · split
    · exact Database.operation_bindReceipt ..
    · exact Database.operation_bindRow _ _ _ (by exact fun _ => rfl) _ _
  · exact Database.operation_bindRow db _ key (by exact fun _ => rfl) re fun _ => lsn

theorem operation_bindRecord {r' : Reconciliation}
    (hr : db.reconciliations.get? (key', tk) = some r) (ha : r'.observedApplied = r.observedApplied)
    : { db with reconciliations := db.reconciliations.set (key', tk) r' }.operation key =
      db.operation key := by
  simp only [Database.operation, Operation.mk.injEq, true_and]
  ext t
  simp only [Set.mem_ofPred_eq, Dict.get?_set]
  split
  · next heq =>
    rw [heq, hr]
    simp [ha]
  · rfl

theorem finalizeReconciliation_operation {r : Bool} {rs : OutboxReconciliation}
    (h : finalizeReconciliation key' tk re lsn r db = .ok (db', rs)) :
    db'.operation key = db.operation key := by
  simp only [finalizeReconciliation, bind_eq_ok_iff, orRaise_eq_ok_iff] at h
  obtain ⟨record, hr, h⟩ := h
  split at h
  · cases h
    rfl
  · simp only [bind_unit_eq_ok_iff, Except.ok.injEq, Prod.mk.injEq] at h
    obtain ⟨-, rfl, -⟩ := h
    have hk : ((db.bindReceipt re fun _ => lsn).updateRow key' fun row =>
        { row with reconciliationLsn := some lsn }).reconciliations.get? (key', tk) =
          some record := by
      unfold Database.updateRow
      split <;> exact hr
    rw [operation_bindRecord key hk (by rfl)]
    exact Database.operation_bindRow _ _ _ (by exact fun _ => rfl) _ _

theorem repairClaimBinding_operation (h : repairClaimBinding key' lsn db = .ok (db', u)) :
    db'.operation key = db.operation key := by
  unfold repairClaimBinding at h
  split at h
  · cases h
    rfl
  · split at h
    · cases h
      rfl
    · simp only [bind_eq_ok_iff, Except.ok.injEq, Prod.mk.injEq] at h
      obtain ⟨_, -, s, -, _, -, rfl, -⟩ := h
      exact Database.operation_bindRow _ _ _ (by exact fun _ => rfl) _ _

theorem claimChecks_ok {i : String} (h : claimChecks key' row db = .ok i) :
    (row.status = .pending ∧ (row.effectType = "github.merge" → row.claimFencingToken = 0)) ∨
      row.status = .claimed := by
  unfold claimChecks at h
  simp only [bind_unit_eq_ok_iff, raiseWhen_eq_ok_iff, decide_eq_false_iff_not,
    Bool.and_eq_false_iff, Nat.not_lt, Nat.le_zero] at h
  obtain ⟨hu, -, hsc, hd, hm, -⟩ := h
  cases hs : row.status with
  | pending =>
    refine .inl ⟨rfl, fun heff => ?_⟩
    rcases hm with (hne | hne) | hz
    · exact absurd hs hne
    · exact absurd heff hne
    · exact hz
  | claimed => exact .inr rfl
  | unknown => exact absurd hs hu
  | succeeded => exact absurd hs hsc
  | deadLetter => exact absurd hs hd

theorem operation_row (hr : db.outbox.get? key = some row) :
    (db.operation key).row = some row.view := by
  simp [Database.operation, hr]

theorem lost_change {d : Option String} (hr : db.outbox.get? key' = some row)
    (hcl : row.status = .claimed) :
    (db.operation key).Change
      ((db.setRow key' { row with status := .unknown, unknownDetail := d }).operation key) := by
  rw [Database.operation_setRow]
  split
  · next heq =>
    subst heq
    exact .lost _ row.view (operation_row _ hr) hcl
  · exact .same _

theorem claimTransaction_change {call : ClaimCall} {t : Option Ticket}
    (h : claimTransaction now call db = .ok (db', t)) :
    (db.operation key).Change (db'.operation key) := by
  simp only [claimTransaction, bind_eq_ok_iff, orRaise_eq_ok_iff] at h
  obtain ⟨row, hr, i, hchk, h⟩ := h
  split at h
  · next hcl =>
    simp only [bind_unit_eq_ok_iff, Except.ok.injEq, Prod.mk.injEq] at h
    obtain ⟨-, rfl, -⟩ := h
    exact lost_change key hr hcl
  · next hcl =>
    cases h
    have hp := (claimChecks_ok hchk).resolve_right hcl
    rw [Database.operation_setRow]
    split
    · next heq =>
      subst heq
      rw [Database.operation_addReceipt_of_claim _ _ (row.claimFencingToken + 1) ⟨rfl, rfl, rfl⟩]
      exact .claimed _ row.view call.workerId (operation_row _ hr) hp.1 hp.2
    · next hne =>
      rw [Database.operation_addReceipt_of_other _ call.key _ (row.claimFencingToken + 1)
        ⟨rfl, rfl, rfl⟩ hne]
      exact .same _

theorem recoverTransaction_change {call : ClaimCall} {t : Ticket}
    (h : recoverTransaction now call db = .ok (db', t)) :
    (db.operation key).Change (db'.operation key) := by
  simp only [recoverTransaction, bind_eq_ok_iff, orRaise_eq_ok_iff, exists_unit_iff,
    raiseWhen_eq_ok_iff, Except.ok.injEq, Prod.mk.injEq] at h
  obtain ⟨row, hr, ho, i, -, -, rfl, -⟩ := h
  rw [Database.operation_setRow,
    Database.operation_addReceipt_of_ne _ _ _ (by simp [ClaimCall.receipt])]
  split
  · next heq =>
    subst heq
    exact .recovered _ row.view call.workerId (operation_row _ hr) ho
  · exact .same _

theorem effectEligible_operation (now : ℤ) (s : ℕ) (c : OutboxClaim) :
    (effectEligible now s c db).1.operation key = db.operation key := by
  have ha : (assertExecutorEnabled s (some c.repository) db).1.operation key =
      db.operation key := by
    rw [assertExecutorEnabled_fst, operation_bindAuthority]
  unfold effectEligible
  split <;> simp_all

theorem markEffectUnknown_change {c : OutboxClaim} {d : String}
    (h : markEffectUnknown now c d db = .ok (db', u)) :
    (db.operation key).Change (db'.operation key) := by
  simp only [markEffectUnknown, bind_eq_ok_iff, orRaise_eq_ok_iff, exists_unit_iff,
    Except.ok.injEq, Prod.mk.injEq] at h
  obtain ⟨_, hr, -, rfl, -⟩ := h
  split
  · next hcl => exact lost_change key hr hcl
  · exact .same _

theorem beginPostEffectPending_operation {m : ℕ} {p : String} {i : PostEffectIdentity}
    (h : beginPostEffectPending now key' m p db = .ok (db', i)) :
    db'.operation key = db.operation key := by
  simp only [beginPostEffectPending, bind_eq_ok_iff, exists_unit_iff] at h
  obtain ⟨_, -, d, -, -, -, h⟩ := h
  split at h
  · cases h
    exact Database.operation_updateRow _ _ _ (by exact fun _ => rfl)
  · split at h
    · simp only [bind_eq_ok_iff, exists_unit_iff, Except.ok.injEq, Prod.mk.injEq] at h
      obtain ⟨-, -, _, -, rfl, -⟩ := h
      rfl
    · simp only [bind_unit_eq_ok_iff, Except.ok.injEq, Prod.mk.injEq] at h
      obtain ⟨-, rfl, -⟩ := h
      rfl

theorem closePostEffect_operation {r : PostReconcile} {rs : PostResult} :
    (closePostEffect r rs db).1.operation key = db.operation key := by
  unfold closePostEffect
  split
  · exact Database.operation_updateRow _ _ _ (by exact fun _ => rfl)
  · rfl

theorem operation_addRecord {deadLetters : Dict Key Evidence}
    (hn : db.reconciliations.get? (key', tk) = none) :
    { db with
        deadLetters
        reconciliations := db.reconciliations.set (key', tk) record }.operation key =
      if key = key' ∧ record.observedApplied = false then
        { db.operation key with refuted := insert tk (db.operation key).refuted }
      else db.operation key := by
  split
  · next h =>
    obtain ⟨rfl, ha⟩ := h
    simp only [Database.operation, Operation.mk.injEq, true_and]
    ext t
    by_cases ht : t = tk
    · subst ht
      simp [ha]
    · simp [Dict.get?_set, ht]
  · next h =>
    simp only [Database.operation, Operation.mk.injEq, true_and]
    ext t
    simp only [Set.mem_ofPred_eq, Dict.get?_set]
    split
    · next heq =>
      cases heq
      simp only [true_and] at h
      simp [hn, h]
    · rfl

theorem reconciledStatus_terminal {o t : Bool} (h : o ∨ t) : (reconciledStatus o t).terminal := by
  revert h
  cases o <;> cases t <;> decide

theorem reconcileTransaction_change {r : Reconcile} {rs : ℕ × Bool}
    (h : reconcileTransaction hash now r db = .ok (db', rs)) :
    (db.operation key).Change (db'.operation key) := by
  unfold reconcileTransaction at h
  simp only [bind_unit_eq_ok_iff] at h
  obtain ⟨-, -, h⟩ := h
  split at h
  · simp only [bind_unit_eq_ok_iff, Except.ok.injEq, Prod.mk.injEq] at h
    obtain ⟨-, rfl, -⟩ := h
    exact .same _
  · next hn =>
    simp only [bind_eq_ok_iff, orRaise_eq_ok_iff, exists_unit_iff, raiseWhen_eq_ok_iff,
      Except.ok.injEq, Prod.mk.injEq, OutboxRow.awaits, Bool.not_eq_false', Bool.and_eq_true,
      decide_eq_true_eq] at h
    obtain ⟨row, hr, ⟨⟨⟨⟨⟨hu, -⟩, htok⟩, -⟩, -⟩, -⟩, -, rfl, -⟩ := h
    rw [operation_addRecord key (by exact hn), Database.operation_setRow,
      Database.operation_addReceipt_of_ne _ _ _ (by simp)]
    by_cases hk : key = r.claim.key
    · subst hk
      have hv := operation_row _ hr
      simp only [true_and, if_true]
      -- the effect was seen or given up, or it was seen not to have happened
      by_cases hs : r.observedApplied ∨ r.terminalUnknown
      · have ht := reconciledStatus_terminal hs
        split
        · exact .reconciled _ row.view _ hv hu ht _ (Set.subset_insert _ _)
        · exact .reconciled _ row.view _ hv hu ht _ subset_rfl
      · obtain ⟨ha, ht⟩ := not_or.1 hs
        rw [Bool.not_eq_true] at ha ht
        rw [if_pos ha, ha, ht, ← htok]
        exact .refuted _ row.view hv hu
    · rw [if_neg (fun h => hk h.1), if_neg hk]
      exact .same _

theorem fenced_change (recovery : Option Recovery) (authorityEpoch : Option ℕ) :
    (db.operation key).Change
      ({ db with
          recovery, authorityEpoch
          outbox := db.outbox.mapValues OutboxRow.fenced }.operation key) := by
  have hop : { db with
        recovery, authorityEpoch
        outbox := db.outbox.mapValues OutboxRow.fenced }.operation key =
      { db.operation key with
        row := (db.outbox.get? key).map fun row => row.fenced.view } := by
    simp only [Database.operation, Dict.get?_mapValues, map_map]
    rfl
  rw [hop]
  cases hr : db.outbox.get? key with
  | none =>
    have hsame : { db.operation key with row := none } = db.operation key := by
      simp [Database.operation, hr]
    rw [map_none, hsame]
    exact .same _
  | some row =>
    by_cases hcl : row.status = .claimed
    · have hf : row.fenced.view = { row.view with status := .unknown } := by
        simp [OutboxRow.fenced, hcl, OutboxRow.view]
      rw [map_some, hf]
      exact .lost _ row.view (operation_row _ hr) hcl
    · have hsame : { db.operation key with row := some row.fenced.view } = db.operation key := by
        simp [Database.operation, hr, OutboxRow.fenced, hcl]
      rw [map_some, hsame]
      exact .same _

theorem activateRecoveredEpoch_change (s : ℕ) (ri r : String) :
    (db.operation key).Change ((activateRecoveredEpoch s ri r db).1.operation key) := by
  unfold activateRecoveredEpoch
  split
  · exact .same _
  · split
    · exact .same _
    · split
      · split <;> exact .same _
      · split
        · exact .same _
        · have ha : (bindAuthority s db).1.operation key = db.operation key :=
            operation_bindAuthority key s
          split
          · next hb =>
            rw [hb] at ha
            rw [← ha]
            exact .same _
          · next db' hb =>
            rw [hb] at ha
            rw [← ha]
            exact fenced_change key _ _

theorem commitIntent_change (i : Intent) :
    (db.operation key).Change ((commitIntent i db).operation key) := by
  unfold commitIntent
  split
  · exact .same _
  · next hn =>
    have hop : ∀ (row : OutboxRow) (receipt : Receipt) idempotency,
        receipt.eventType ≠ .outboxClaimed →
        { (db.addReceipt receipt).setRow (i.repository, i.operationKey) row with
          idempotency := idempotency }.operation key =
            if key = (i.repository, i.operationKey) then
              { db.operation key with row := some row.view } else db.operation key := by
      intro row receipt idempotency hne
      rw [← Database.operation_addReceipt_of_ne db key receipt hne]
      exact Database.operation_setRow ..
    rw [hop _ _ _ (by simp)]
    split
    · next heq =>
      subst heq
      refine .enqueued _ _ ?_ rfl rfl
      simp [Database.operation, hn]
    · exact .same _

/-- **One transaction changes an operation in one of five ways.** -/
theorem operation_step (i : Input) (db : Database) (p : Point) (key : Key) :
    (db.operation key).Change ((step hash i db p).1.operation key) := by
  have hb : ∀ s, (bindAuthority s db).1.operation key = db.operation key :=
    operation_bindAuthority key
  have hec : ∀ s rp, (assertExecutorEnabled s rp db).1.operation key = db.operation key := by
    intro s rp
    rw [assertExecutorEnabled_fst, operation_bindAuthority]
  have hr : ∀ {α : Type} {x : Except StoreError α} {db db' : Database} {a : α},
      x.map (fun p => (db, p)) = .ok (db', a) → db' = db := by
    intro α x db db' a h
    cases x with
    | error => cases h
    | ok => cases h; rfl
  cases p with
  | readBindings => exact transact_change key (hb _) fun db' a h => hr h ▸ .same _
  | bindIntent =>
    exact transact_change key (hb _) fun db' a h => finalizeTransition_operation key h ▸ .same _
  | bindReconciliation kind call tk re
  | finalize =>
    exact transact_change key (hb _) fun db' a h => finalizeReconciliation_operation key h ▸ .same _
  | repairBinding =>
    exact transact_change key (hb _) fun db' a h => repairClaimBinding_operation key h ▸ .same _
  | take kind =>
    cases kind with
    | execution => exact transact_change key (hec _ _) fun db' a h => claimTransaction_change key h
    | readback => exact transact_change key (hb _) fun db' a h => recoverTransaction_change key h
  | bind kind =>
    cases kind with
    | execution | readback =>
      refine transact_change key (by first | exact hec _ _ | exact hb _) fun db' a h => ?_
      simp only [bindExecution, bindRecovery, bind_unit_eq_ok_iff, Except.ok.injEq,
        Prod.mk.injEq] at h
      obtain ⟨-, rfl, -⟩ := h
      rw [Database.operation_bindRow _ _ _ (by exact fun _ => rfl)]
      exact .same _
  | eligible s claim =>
    have hel : (effectEligible i.now s claim db).1.operation key =
        db.operation key := effectEligible_operation key i.now s claim
    simp only [step]
    split <;> next h => rw [h] at hel; rw [← hel]; exact .same _
  | mark => exact transact_change key (hb _) fun db' a h => markEffectUnknown_change key h
  | beginPending =>
    exact transact_change key (hec _ _) fun db' a h =>
      beginPostEffectPending_operation key h ▸ .same _
  | reconcile =>
    exact transact_change key (hb _) fun db' a h => reconcileTransaction_change hash key h
  | readPost => exact transact_change key (hb _) fun db' a h => hr h ▸ .same _
  | closePost request result =>
    refine transact_change key (hb _) fun db' a h => ?_
    injection h with h
    have hdb : (closePostEffect request result (bindAuthority request.store db).1).1 = db' :=
      congrArg Prod.fst h
    rw [← hdb, closePostEffect_operation]
    exact .same _
  | activate s ri rl =>
    have ha : (db.operation key).Change
        ((activateRecoveredEpoch s ri rl db).1.operation key) :=
      activateRecoveredEpoch_change key s ri rl
    simp only [step]
    split <;> next h => rw [h] at ha; exact ha
  | commit it => exact commitIntent_change key it
  | elsewhere => exact .same _
  | done => exact .same _

end Refinement

/-! ### Where tokens and claims come from -/

def Point.issued : Point → Option (Key × ℕ)
  | .bind _ call ticket => some (call.key, ticket.token)
  | .done (.claimed claim) => some (claim.key, claim.fencingToken)
  | .done (.recovered claim) => some (claim.key, claim.fencingToken)
  | _ => none

def Point.offered : Point → Option (Key × ℕ)
  | .bind .execution call ticket => some (call.key, ticket.token)
  | .done (.claimed claim) => some (claim.key, claim.fencingToken)
  | _ => none

def Point.Returned (point : Point) (claim : OutboxClaim) : Prop :=
  point = .done (.claimed claim) ∨ point = .done (.recovered claim)

theorem Point.Returned.issued {p : Point} {c : OutboxClaim} (h : p.Returned c) :
    p.issued = some (c.key, c.fencingToken) := by
  rcases h with rfl | rfl <;> rfl

theorem transact_snd {α : Type} (ad : Database × Except StoreError Unit)
    (body : Database → Except StoreError (Database × α)) (next : α → Point) :
    (∃ error, (transact ad body next).2 = .done (.raised error)) ∨
      ∃ db' a, body ad.1 = .ok (db', a) ∧ transact ad body next = (db', next a) := by
  unfold transact
  split
  · exact .inl ⟨_, rfl⟩
  · split
    · exact .inl ⟨_, rfl⟩
    · next h => exact .inr ⟨_, _, h, rfl⟩

/-- The token is the next one of the operation, and taken; for execution, it is on record. -/
structure Taken (db db' : Database) (point : Point) (key : Key) (token : ℕ) : Prop where
  next : ∃ v, (db.operation key).row = some v ∧ token = v.token + 1
  taken : ∃ v, (db'.operation key).row = some v ∧ token ≤ v.token
  claimed : point.offered = some (key, token) → token ∈ (db'.operation key).claimed

section Tokens

variable {db db' : Database} {key : Key} {token : ℕ}

theorem issued_transact {α : Type} {ad : Database × Except StoreError Unit}
    {body : Database → Except StoreError (Database × α)} {next : α → Point}
    (h : ∀ db' a, body ad.1 = .ok (db', a) → (next a).issued = none) :
    (transact ad body next).2.issued = none := by
  unfold transact
  split
  · rfl
  · split
    · rfl
    · next hb => exact h _ _ hb

theorem issued_afterBindings (kind : Kind) (call : ClaimCall) :
    (afterBindings kind call).issued = none := by
  cases kind <;> rfl

theorem issued_afterIntent (kind : Kind) (call : ClaimCall)
    (r : Option (ℕ × ℕ)) : (afterIntent kind call r).issued = none := by
  cases r with
  | none => exact issued_afterBindings kind call
  | some => rfl

variable {call : ClaimCall} {point : Point} {tc : Ticket} {claim : OutboxClaim}

theorem issued_readBindings {kind : Kind} (h : readBindings kind call db = .ok point) :
    point.issued = none := by
  unfold readBindings at h
  split at h
  · cases h
    exact issued_afterBindings kind call
  · split at h
    · split at h
      · cases h
      · simp only [bind_unit_eq_ok_iff, Except.ok.injEq] at h
        obtain ⟨-, rfl⟩ := h
        rfl
    · cases h
      exact issued_afterIntent kind call _

theorem claimTransaction_taken {now : ℤ} (h : claimTransaction now call db = .ok (db', some tc)) :
    Taken db db' (.bind .execution call tc) call.key tc.token := by
  simp only [claimTransaction, bind_eq_ok_iff, orRaise_eq_ok_iff] at h
  obtain ⟨row, hr, i, -, h⟩ := h
  split at h
  · simp only [bind_unit_eq_ok_iff, Except.ok.injEq, Prod.mk.injEq] at h
    cases h.2.2
  · cases h
    refine ⟨⟨row.view, operation_row _ hr, rfl⟩, ?_, fun _ => ?_⟩ <;>
      rw [Database.operation_setRow, if_pos rfl]
    · exact ⟨_, rfl, le_rfl⟩
    · rw [Database.operation_addReceipt_of_claim _ _ (row.claimFencingToken + 1) ⟨rfl, rfl, rfl⟩]
      exact Set.mem_insert _ _

theorem recoverTransaction_taken {now : ℤ} (h : recoverTransaction now call db = .ok (db', tc)) :
    Taken db db' (.bind .readback call tc) call.key tc.token := by
  simp only [recoverTransaction, bind_eq_ok_iff, orRaise_eq_ok_iff, exists_unit_iff,
    Except.ok.injEq, Prod.mk.injEq] at h
  obtain ⟨row, hr, -, i, -, -, rfl, rfl⟩ := h
  refine ⟨⟨row.view, operation_row _ hr, rfl⟩, ?_, fun hk => by cases hk⟩
  rw [Database.operation_setRow, if_pos rfl]
  exact ⟨_, rfl, le_rfl⟩

/-- The claim is bound while the row is held under its token. -/
structure Bound (db : Database) (point : Point) (claim : OutboxClaim) : Prop where
  issued : point.issued = some (claim.key, claim.fencingToken)
  held : ∃ v, (db.operation claim.key).row = some v ∧ v.worker.isSome = true ∧
    v.token = claim.fencingToken

theorem held_of_any {key : Key} {c : OutboxRow → Bool} (h : (db.outbox.get? key).any c) :
    ∃ row, (db.operation key).row = some row.view ∧ c row := by
  cases hr : db.outbox.get? key with
  | none =>
    rw [hr] at h
    cases h
  | some row =>
    rw [hr] at h
    exact ⟨row, operation_row _ hr, h⟩

theorem bindExecution_bound {lsn : String} (h : bindExecution call tc lsn db = .ok (db', claim)) :
    Bound db (.bind .execution call tc) claim := by
  simp only [bindExecution, bind_unit_eq_ok_iff, raiseWhen_eq_ok_iff, Bool.not_eq_false',
    Except.ok.injEq, Prod.mk.injEq] at h
  obtain ⟨ha, -, rfl⟩ := h
  obtain ⟨row, hr, hck⟩ := held_of_any ha
  simp only [Bool.and_eq_true, decide_eq_true_eq] at hck
  exact ⟨rfl, row.view, hr, by simp [OutboxRow.view, hck.1], hck.2⟩

theorem bindRecovery_bound {lsn : String} (h : bindRecovery call tc lsn db = .ok (db', claim)) :
    Bound db (.bind .readback call tc) claim := by
  simp only [bindRecovery, bind_unit_eq_ok_iff, raiseWhen_eq_ok_iff, Bool.not_eq_false',
    Except.ok.injEq, Prod.mk.injEq] at h
  obtain ⟨ha, -, rfl⟩ := h
  obtain ⟨row, hr, hck⟩ := held_of_any ha
  simp only [Bool.and_eq_true, decide_eq_true_eq] at hck
  exact ⟨rfl, row.view, hr, by simp [OutboxRow.view, hck.1.1], hck.1.2⟩

/-- The points of a call that is about to take a token, holds one or has ended. -/
def Point.claims : Point → Bool
  | .take .. | .bind .. | .done .. => true
  | _ => false

theorem issued_step_of_quiet (i : Input) (h : point.claims = false) :
    (step hash i db point).2.issued = none := by
  have hr : ∀ {α : Type} {x : Except StoreError α} {db db' : Database} {a : α},
      x.map (fun point => (db, point)) = .ok (db', a) → x = .ok a := by
    intro α x db db' a h
    cases x with
    | error => cases h
    | ok => cases h; rfl
  cases point with
  | readBindings => exact issued_transact fun db' a hb => issued_readBindings (hr hb)
  | bindIntent kind call _ _ r =>
    exact issued_transact fun db' a _ => issued_afterIntent kind call r
  | bindReconciliation kind call =>
    exact issued_transact fun db' a _ => issued_afterBindings kind call
  | repairBinding call | mark s claim detail | reconcile request post
  | beginPending => exact issued_transact fun db' a _ => rfl
  | take => cases h
  | bind => cases h
  | eligible s claim | activate s recoveryId restoredLsn =>
    simp only [step]
    split <;> rfl
  | finalize _ _ _ post =>
    refine issued_transact fun db' a _ => ?_
    cases post <;> rfl
  | readPost request | closePost request result =>
    refine issued_transact fun db' a _ => ?_
    cases a <;> rfl
  | commit => rfl
  | elsewhere => rfl
  | done => cases h

variable {db₀ : Database}

theorem Taken.of_operation {db' : Database} (h : Taken db₀ db' point key token)
    (hop : db₀.operation key = db.operation key) : Taken db db' point key token where
  next := by
    rw [← hop]
    exact h.next
  taken := h.taken
  claimed := h.claimed

theorem Bound.of_operation (h : Bound db₀ point claim)
    (hop : db₀.operation claim.key = db.operation claim.key) : Bound db point claim where
  issued := h.issued
  held := by
    rw [← hop]
    exact h.held

/-- A call that takes a token ends with an error, or takes the next token of its operation. -/
theorem step_take (i : Input) (kind : Kind) (call : ClaimCall) :
    (∃ error, (step hash i db (.take kind call)).2 = .done (.raised error)) ∨
      ∃ db' tc, step hash i db (.take kind call) = (db', .bind kind call tc) ∧
        Taken db db' (.bind kind call tc) call.key tc.token := by
  cases kind with
  | execution =>
    rcases transact_snd (assertExecutorEnabled call.store (some call.envelope.repository) db)
      (claimTransaction i.now call) (afterTake call) with hr | ⟨db', tc, hb, heq⟩
    · exact .inl hr
    · cases tc with
      | none => exact .inl ⟨_, congrArg Prod.snd heq⟩
      | some tc =>
        refine .inr ⟨db', tc, heq, (claimTransaction_taken hb).of_operation ?_⟩
        rw [assertExecutorEnabled_fst, operation_bindAuthority]
  | readback =>
    rcases transact_snd (bindAuthority call.store db) (recoverTransaction i.now call)
      (.bind .readback call) with hr | ⟨db', tc, hb, heq⟩
    · exact .inl hr
    · exact .inr ⟨db', tc, heq,
        (recoverTransaction_taken hb).of_operation (operation_bindAuthority ..)⟩

/-- A call that holds a token ends with an error, or returns a claim under its token. -/
theorem step_bind (i : Input) (kind : Kind) (call : ClaimCall) (t : Ticket) :
    (∃ error, (step hash i db (.bind kind call t)).2 = .done (.raised error)) ∨
      ∃ db' claim, step hash i db (.bind kind call t) =
          (db', .done (match kind with
            | .execution => .claimed claim
            | .readback => .recovered claim)) ∧
        Bound db (.bind kind call t) claim := by
  cases kind with
  | execution =>
    rcases transact_snd (assertExecutorEnabled call.store (some call.envelope.repository) db)
      (bindExecution call t i.lsn) (fun claim => .done (.claimed claim))
      with hr | ⟨db', claim, hb, heq⟩
    · exact .inl hr
    · refine .inr ⟨db', claim, heq, (bindExecution_bound hb).of_operation ?_⟩
      rw [assertExecutorEnabled_fst, operation_bindAuthority]
  | readback =>
    rcases transact_snd (bindAuthority call.store db) (bindRecovery call t i.lsn)
      (fun claim => .done (.recovered claim)) with hr | ⟨db', claim, hb, heq⟩
    · exact .inl hr
    · exact .inr ⟨db', claim, heq,
        (bindRecovery_bound hb).of_operation (operation_bindAuthority ..)⟩

/-- **Where a token comes from**: the call held it before, or it is new to the operation. -/
theorem issued_step (i : Input) (h : (step hash i db point).2.issued = some (key, token)) :
    (point.issued = some (key, token) ∧
        ((step hash i db point).2.offered = some (key, token) →
          point.offered = some (key, token))) ∨
      Taken db (step hash i db point).1 (step hash i db point).2 key token := by
  cases point with
  | take kind call =>
    rcases step_take hash i kind call with ⟨error, heq⟩ | ⟨db', tc, heq, ht⟩
    · rw [heq] at h
      cases h
    · rw [heq] at h ⊢
      cases h
      exact .inr ht
  | bind kind call tc =>
    rcases step_bind hash i kind call tc with ⟨error, heq⟩ | ⟨db', claim, heq, hb⟩
    · rw [heq] at h
      cases h
    · rw [heq] at h ⊢
      have hi := hb.issued
      cases kind with
      | execution =>
        cases h
        exact .inl ⟨hi, fun _ => hi⟩
      | readback =>
        cases h
        exact .inl ⟨hi, nofun⟩
  | done => exact .inl ⟨h, fun ho => ho⟩
  | _ =>
    rw [issued_step_of_quiet hash i rfl] at h
    cases h

/-- **Where a claim comes from**: the call had returned it before, or the row is held under its
token. -/
theorem returned_step (i : Input) (h : (step hash i db point).2.Returned claim) :
    point.Returned claim ∨ Bound db point claim := by
  cases point with
  | take kind call =>
    have hi := h.issued
    rcases step_take hash i kind call with ⟨error, heq⟩ | ⟨db', tc, heq, -⟩
    · rw [heq] at hi
      cases hi
    · rw [heq] at h
      rcases h with h | h <;> cases h
  | bind kind call tc =>
    rcases step_bind hash i kind call tc with ⟨error, heq⟩ | ⟨db', claim', heq, hb⟩
    · rw [heq] at h
      rcases h with h | h <;> cases h
    · rw [heq] at h
      cases kind with
      | execution | readback =>
        rcases h with h | h <;> cases h
        exact .inr hb
  | done => exact .inl h
  | _ =>
    have hi := h.issued
    rw [issued_step_of_quiet hash i rfl] at hi
    cases hi

end Tokens

end AgenticPkm.ControlPlane
