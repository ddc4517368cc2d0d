import AgenticPkm.Lib.Checks
import AgenticPkm.Lib.Dict
import AgenticPkm.Lib.Text

/-!
# The outbox of the control plane

External effects are rows of the table `builderops_outbox`.  A row is `pending` until an
executor claims it under a new fencing token; the claim, its receipt and the log position it is
bound to are written in transactions of their own.  A claim of unknown outcome makes the row
`unknown`, and only a reconciliation ends that: `succeeded` when the effect was seen, `pending`
again when it was seen not to have happened, `dead_letter` when nobody can tell.  A recovery claim
takes a new token without offering the effect.

Each transaction of `store.py` is a function of the whole database here; one that raises leaves
the tables alone.  How the store strings them together is in `Calls`.
-/

namespace AgenticPkm.ControlPlane

/-! ### Rows -/

/-- A JSON value of a payload or of evidence; arrays and objects are only compared. -/
inductive Value
  | null
  | bool (b : Bool)
  | int (n : ℤ)
  | text (s : String)
  | other (json : String)
  deriving DecidableEq, Repr

/-- A JSON object. -/
abbrev Evidence := Dict String Value

/-- Objects are equal whatever the order of their keys. -/
def sameEvidence (a b : Evidence) : Bool := a.items.isPerm b.items

/-- `builderops_outbox.status`. -/
inductive Status
  | pending
  | claimed
  | unknown
  | succeeded
  | deadLetter
  deriving DecidableEq, Repr

/-- The statuses that are never left. -/
def Status.terminal : Status → Bool
  | .succeeded | .deadLetter => true
  | .pending | .claimed | .unknown => false

/-- `builderops_outbox.post_effect_phase`, when it is set. -/
inductive Phase
  | pending
  | reconciled
  deriving DecidableEq, Repr

/-- The part of an authority envelope that is read back. -/
structure AuthorityEnvelope where
  repository : String
  actor : String
  deriving DecidableEq, Repr

/-- The columns `post_effect_*`. -/
structure PostEffect where
  phase : Option Phase := none
  fencingToken : Option ℕ := none
  intentLsn : Option String := none
  claimLsn : Option String := none
  claimReceiptSequence : Option ℕ := none
  receiptSequence : Option ℕ := none
  recoveryLsn : Option String := none
  evidence : Option Evidence := none
  observedApplied : Option Bool := none
  terminalUnknown : Option Bool := none

/-- A row of `builderops_outbox`. -/
structure OutboxRow where
  taskId : String
  effectType : String
  payload : Evidence
  status : Status := .pending
  intentReceiptSequence : ℕ
  intentLsn : Option String := none
  workerId : Option String := none
  claimFencingToken : ℕ := 0
  claimExpiresAt : Option ℤ := none
  claimLsn : Option String := none
  claimReceiptSequence : Option ℕ := none
  unknownDetail : Option String := none
  postEffect : PostEffect := {}
  reconciliationEvidence : Option Evidence := none
  reconciliationReceiptSequence : Option ℕ := none
  reconciliationLsn : Option String := none
  authorityEnvelope : AuthorityEnvelope

/-- A row of `builderops_outbox_reconciliations`. -/
structure Reconciliation where
  taskId : String
  workerId : String
  claimReceiptSequence : ℕ
  claimLsn : String
  observedApplied : Bool
  evidence : Evidence
  requestHash : String
  status : Status
  receiptSequence : ℕ
  recoveryLsn : Option String := none

/-- `builderops_receipts.event_type`. -/
inductive EventType
  | transition (name : String)
  | outboxClaimed
  | outboxRecovered
  | outboxReconciled (status : Status)
  deriving DecidableEq, Repr

/-- `builderops_receipts.idempotency_key`: the key of a request, or one of the keys
`outbox:{operation_key}:claim:{token}`, `…:recover:{token}`, `…:reconcile:{token}`. -/
inductive ReceiptKey
  | request (key : String)
  | claim (operationKey : String) (token : ℕ)
  | recover (operationKey : String) (token : ℕ)
  | reconcile (operationKey : String) (token : ℕ)
  deriving DecidableEq, Repr

def ReceiptKey.text : ReceiptKey → String
  | .request key => key
  | .claim operationKey token => "outbox:" ++ operationKey ++ ":claim:" ++ toString token
  | .recover operationKey token => "outbox:" ++ operationKey ++ ":recover:" ++ toString token
  | .reconcile operationKey token => "outbox:" ++ operationKey ++ ":reconcile:" ++ toString token

/-- A row of `builderops_receipts`. -/
structure Receipt where
  receiptSequence : ℕ
  repository : String
  taskId : String
  eventType : EventType
  idempotencyKey : ReceiptKey
  leaseHolder : Option String := none
  leaseFencingToken : Option ℕ := none
  recoveryLsn : Option String := none
  authorityEnvelope : AuthorityEnvelope

/-- `result` of a row of `builderops_idempotency`. -/
structure TransactionResult where
  receiptSequence : ℕ
  recoveryLsn : String
  operationKey : Option String

/-- What a task's payload says about a verification run. -/
structure TaskPayload where
  contractVersion : Option Value
  /-- `run`, if it is an object -/
  run : Option Evidence

/-- `bootstrap_receipt`, with the digests as texts. -/
structure BootstrapReceipt where
  schema : String
  bootstrapId : String
  authorityEpoch : ℕ
  configDigest : String
  readbackDigest : String
  deriving DecidableEq, Repr

/-- The row of `builderops_recovery_state`. -/
structure Recovery where
  bootstrapId : String
  activatedAuthorityEpoch : ℕ
  recoveryId : Option String := none
  restoredLsn : Option String := none
  executorEnabled : Bool
  reconciliationRequired : Bool
  /-- `bootstrap_status == "converged"` -/
  converged : Bool
  bootstrapReceipt : Option BootstrapReceipt
  /-- the repositories of `bootstrap_config`, if it is an object -/
  repositories : Option (List String)
  /-- the digests of `bootstrap_config` and, if it is an object, of `bootstrap_readback` -/
  configDigest : String
  readbackDigest : Option String

abbrev Key := String × String

/-- The tables, and the identity every store object was admitted under. -/
structure Database where
  recovery : Option Recovery
  /-- `builderops_authority_metadata.authority_epoch` -/
  authorityEpoch : Option ℕ
  tasks : Dict Key TaskPayload := ∅
  outbox : Dict Key OutboxRow := ∅
  reconciliations : Dict (Key × ℕ) Reconciliation := ∅
  receipts : List Receipt := []
  idempotency : Dict Key TransactionResult := ∅
  deadLetters : Dict Key Evidence := ∅
  /-- `_admitted_identity` of each store object -/
  admitted : Dict ℕ (String × ℕ) := ∅

namespace Database

def nextReceipt (db : Database) : ℕ := db.receipts.length + 1

def receipt? (db : Database) (sequence : ℕ) : Option Receipt :=
  db.receipts.find? (·.receiptSequence = sequence)

def setRow (db : Database) (key : Key) (row : OutboxRow) : Database :=
  { db with outbox := db.outbox.set key row }

/-- `UPDATE builderops_outbox` of one row, if it is there. -/
def updateRow (db : Database) (key : Key) (f : OutboxRow → OutboxRow) : Database :=
  match db.outbox.get? key with
  | none => db
  | some row => db.setRow key (f row)

def addReceipt (db : Database) (receipt : Receipt) : Database :=
  { db with receipts := db.receipts ++ [receipt] }

/-- `UPDATE builderops_receipts SET recovery_lsn`. -/
def bindReceipt (db : Database) (sequence : ℕ) (lsn : Option String → String) : Database :=
  { db with
    receipts := db.receipts.map fun receipt =>
      if receipt.receiptSequence = sequence then
        { receipt with recoveryLsn := some (lsn receipt.recoveryLsn) }
      else receipt }

end Database

/-- What the functions raise. -/
inductive StoreError
  | valueError (msg : String)
  | keyError (key : String)
  | envelopeValidation (msg : String)
  | unknownEffectNeedsReconciliation (msg : String)
  | leaseUnavailable (msg : String)
  | durabilityPending (msg : String)
  | staleFencingToken (msg : String)
  | stateConflict (msg : String)
  | idempotencyConflict (msg : String)
  | permissionError (msg : String)
  | runtimeError (msg : String)
  deriving DecidableEq, Repr

structure OutboxClaim where
  repository : String
  operationKey : String
  workerId : String
  fencingToken : ℕ
  intentLsn : String
  claimLsn : String
  receiptSequence : ℕ
  expiresAt : ℤ
  deriving DecidableEq, Repr

def OutboxClaim.key (claim : OutboxClaim) : Key := (claim.repository, claim.operationKey)

/-- An owner or a repository name. -/
def isName (part : List Char) : Bool :=
  part ≠ [] && part ≠ ['.'] && part ≠ ['.', '.'] &&
    part.all fun c => c.isAlphanum || c = '_' || c = '.' || c = '-'

/-- `canonical_repository`: owner and name, in lower case. -/
def canonicalRepository (repository : String) : Except StoreError String := do
  let chars := repository.toList
  raiseWhen (!isName (chars.takeWhile (· ≠ '/')) ||
      !isName ((chars.dropWhile (· ≠ '/')).drop 1))
    (.envelopeValidation "repository must be an unambiguous owner/name reference")
  .ok (String.ofList (chars.map Char.toLower))

/-! ### Admission -/

def receiptMatches (recovery : Recovery) : Bool :=
  recovery.executorEnabled && !recovery.reconciliationRequired && recovery.converged &&
    (match recovery.readbackDigest with
      | none => false
      | some readbackDigest =>
          recovery.bootstrapReceipt =
            some { schema := "builderops-authority-convergence.v1"
                   bootstrapId := recovery.bootstrapId
                   authorityEpoch := recovery.activatedAuthorityEpoch
                   configDigest := recovery.configDigest
                   readbackDigest := readbackDigest }) &&
    recovery.repositories.isSome

/-- The repository is one of those the bootstrap was configured for. -/
def Recovery.governs (recovery : Recovery) (repository : String) : Bool :=
  (recovery.repositories.getD []).contains repository

/-- `_bind_authority`: the first transaction of a store object fixes its identity, and a later
one under another identity is refused.  The identity stays when the transaction fails. -/
def bindAuthority (store : ℕ) (db : Database) : Database × Except StoreError Unit :=
  match db.recovery with
  | none => (db, .error (.durabilityPending "authority generation is unavailable"))
  | some recovery =>
      match db.admitted.get? store with
      | none =>
          ({ db with
              admitted := db.admitted.set store
                (recovery.bootstrapId, recovery.activatedAuthorityEpoch) }, .ok ())
      | some identity =>
          (db, raiseWhen (identity ≠ (recovery.bootstrapId, recovery.activatedAuthorityEpoch))
            (.staleFencingToken "store belongs to a superseded authority generation"))

def assertExecutorEnabled (store : ℕ) (repository : Option String) (db : Database) :
    Database × Except StoreError Unit :=
  match bindAuthority store db with
  | (db', .error error) => (db', .error error)
  | (db', .ok ()) =>
      (db', raiseWhen
        (match db.recovery with
          | none => true
          | some recovery =>
              !receiptMatches recovery || repository.any fun r => !recovery.governs r)
        (.durabilityPending "writer is fenced pending authenticated authority reconciliation"))

/-! ### Evidence -/

/-- A commit hash in lower case. -/
def isCommit : Value → Bool
  | .text s => s.length = 40 && s.toList.all isHexDigit
  | _ => false

/-- The run of the task has neither a session nor a context pack yet. -/
def TaskPayload.durablePreSession (task : TaskPayload) : Bool :=
  task.contractVersion = some (.text "builderops_verification_run.v1") &&
    task.run.any fun run =>
      run.get? "coordinator_session_id" = some .null && run.get? "context_pack" = some .null

def assertTerminalUnknownModelEvidence (effectType : String) (effectHead : Option Value)
    (preSession : Bool) (evidence : Evidence) : Except StoreError Unit :=
  raiseWhen
    (effectType ≠ "model.verification_coordinator" || !preSession ||
      !evidence.keys.isPerm ["head_sha", "outcome", "provider_session_id", "relaunch_performed"] ||
      evidence.get? "outcome" ≠ some (.text "indeterminate_pre_session_model_effect") ||
      evidence.get? "provider_session_id" ≠ some .null ||
      evidence.get? "relaunch_performed" ≠ some (.bool false) ||
      !(evidence.get? "head_sha").any isCommit || effectHead ≠ evidence.get? "head_sha")
    (.stateConflict ("terminal-unknown reconciliation is restricted to an exact " ++
      "pre-session verification-model effect receipt"))

/-- `GitHubMergeReadbackEvidence.model_validate`. -/
def validMergeReadback (evidence : Evidence) : Bool :=
  evidence.keys.isPerm ["readback", "merged", "head_sha", "merge_commit_sha",
    "merge_commit_title", "merge_commit_message"] &&
  evidence.get? "readback" = some (.text "found") && evidence.get? "merged" = some (.bool true) &&
  (evidence.get? "head_sha").any isCommit && (evidence.get? "merge_commit_sha").any isCommit &&
  (match evidence.get? "merge_commit_title", evidence.get? "merge_commit_message" with
    | some (.text title), some (.text message) =>
        1 ≤ title.length && title.length ≤ 256 && message.length ≤ 16384
    | _, _ => false)

def validateRowDerivedEvidence (evidence : Evidence) (terminalUnknown : Bool) :
    Except StoreError Unit :=
  if terminalUnknown then
    assertTerminalUnknownModelEvidence "model.verification_coordinator"
      (evidence.get? "head_sha") true evidence
  else if (evidence.get? "merged").isSome then
    raiseWhen (!validMergeReadback evidence) (.valueError "merge readback evidence is malformed")
  else do
    raiseWhen (!evidence.keys.all (["readback", "relaunch_performed"].contains ·))
      (.valueError "row-derived readback evidence contains unknown fields")
    raiseWhen (["found", "not-found", "unknown"].all
        fun outcome => evidence.get? "readback" ≠ some (.text outcome))
      (.valueError "row-derived readback evidence has an invalid outcome")
    raiseWhen
      (match evidence.get? "relaunch_performed" with
        | none | some .null | some (.bool _) => false
        | some _ => true)
      (.valueError "row-derived readback evidence has an invalid relaunch flag")

def fixedVerifiedMergeCommitMessage : String :=
  "Exact-head delivery; issue closure is performed explicitly from the " ++
    "authenticated issue-set receipt."

def fixedVerifiedMergeCommitTitle : Option Value → Except StoreError String
  | some (.int n) =>
      if n < 1 then .error (.valueError "verified merge PR number is malformed")
      else .ok ("PR #" ++ toString n ++ " verified delivery")
  | _ => .error (.valueError "verified merge PR number is malformed")

/-! ### Bindings left open by a lost response -/

/-- `_finalize_transition`, as far as the outbox and the receipts go. -/
def finalizeTransition (repository idempotencyKey : String) (receiptSequence : ℕ)
    (operationKey lsn : String) (db : Database) : Except StoreError (Database × Unit) := do
  let provisional ← orRaise (db.idempotency.get? (repository, idempotencyKey))
    (.runtimeError "committed idempotency record disappeared")
  if provisional.recoveryLsn ≠ "0/0" then
    let bound := db.bindReceipt provisional.receiptSequence (·.getD provisional.recoveryLsn)
    .ok (match provisional.operationKey with
      | none => bound
      | some key => bound.updateRow (repository, key) fun row =>
          { row with intentLsn := some (row.intentLsn.getD provisional.recoveryLsn) }, ())
  else
    let bound := (db.bindReceipt receiptSequence fun _ => lsn).updateRow (repository, operationKey)
      fun row => { row with intentLsn := some lsn }
    .ok ({ bound with
      idempotency := db.idempotency.set (repository, idempotencyKey)
        { receiptSequence, recoveryLsn := lsn, operationKey := some operationKey } }, ())

structure OutboxReconciliation where
  key : Key
  status : Status
  workerId : String
  fencingToken : ℕ
  claimReceiptSequence : ℕ
  receiptSequence : ℕ
  recoveryLsn : String
  replayed : Bool
  deriving DecidableEq, Repr

/-- `_reconciliation`. -/
def Reconciliation.result (record : Reconciliation) (key : Key) (fencingToken : ℕ)
    (replayed : Bool) : OutboxReconciliation where
  key := key
  status := record.status
  workerId := record.workerId
  fencingToken := fencingToken
  claimReceiptSequence := record.claimReceiptSequence
  receiptSequence := record.receiptSequence
  recoveryLsn := record.recoveryLsn.getD "0/0"
  replayed := replayed

def finalizeReconciliation (key : Key) (fencingToken receiptSequence : ℕ) (lsn : String)
    (replayed : Bool) (db : Database) : Except StoreError (Database × OutboxReconciliation) := do
  let record ← orRaise (db.reconciliations.get? (key, fencingToken))
    (.runtimeError "committed outbox reconciliation disappeared")
  if record.recoveryLsn.isSome then
    .ok (db, record.result key fencingToken replayed)
  else
    raiseWhen (!(db.outbox.get? key).any fun row =>
        row.reconciliationReceiptSequence = some receiptSequence &&
          row.claimFencingToken = fencingToken)
      (.runtimeError "outbox reconciliation was superseded before durability binding")
    let record' := { record with recoveryLsn := some lsn }
    let bound := (db.bindReceipt receiptSequence fun _ => lsn).updateRow key
      fun row => { row with reconciliationLsn := some lsn }
    .ok ({ bound with reconciliations := bound.reconciliations.set (key, fencingToken) record' },
      record'.result key fencingToken replayed)

/-- `_load_reconciliation`: the reconciliation under the token is there and bound. -/
def loadReconciliation (key : Key) (fencingToken : ℕ) (db : Database) : Except StoreError Unit :=
  raiseWhen (!(db.reconciliations.get? (key, fencingToken)).any (·.recoveryLsn.isSome))
    (.durabilityPending "outbox reconciliation durability binding is incomplete")

/-- The receipt of the claim the row is held under: its sequence, holder and token. -/
def Receipt.isOf (receipt : Receipt) (repository worker : String) (token sequence : ℕ) : Bool :=
  receipt.repository = repository && receipt.receiptSequence = sequence &&
    (receipt.eventType = .outboxClaimed || receipt.eventType = .outboxRecovered) &&
    receipt.leaseHolder = some worker && receipt.leaseFencingToken = some token

/-- A row that a migration left unknown before anybody claimed it. -/
def OutboxRow.neverClaimed (row : OutboxRow) : Bool :=
  row.status = .unknown && row.workerId = none && row.claimReceiptSequence = none &&
    row.claimLsn = none && row.claimExpiresAt = none && row.postEffect.phase = none &&
    row.claimFencingToken = 0 &&
    row.unknownDetail = some "bootstrap requires authoritative effect readback"

/-- `_repair_outbox_claim_binding`. -/
def repairClaimBinding (key : Key) (lsn : String) (db : Database) :
    Except StoreError (Database × Unit) :=
  match db.outbox.get? key with
  | none => .ok (db, ())
  | some row =>
      if (row.status ≠ .claimed ∧ row.status ≠ .unknown) ∨ row.neverClaimed then .ok (db, ())
      else do
        let worker ← orRaise row.workerId
          (.durabilityPending "outbox claim has no local receipt binding")
        let sequence ← orRaise row.claimReceiptSequence
          (.durabilityPending "outbox claim has no local receipt binding")
        let receipt ← orRaise
          (db.receipts.find? (·.isOf key.1 worker row.claimFencingToken sequence))
          (.durabilityPending "outbox claim receipt identity is missing")
        let claimLsn := (row.claimLsn.or receipt.recoveryLsn).getD lsn
        .ok ((db.bindReceipt sequence fun _ => claimLsn).updateRow key
          fun row => { row with claimLsn := some claimLsn }, ())

/-! ### Claims for execution -/

/-- What a claim of either kind remembers between its two transactions. -/
structure Ticket where
  token : ℕ
  intentLsn : String
  receiptSequence : ℕ
  expiresAt : ℤ
  deriving DecidableEq, Repr

/-- Who claims what, and for how long. -/
structure ClaimCall where
  store : ℕ
  envelope : AuthorityEnvelope
  operationKey : String
  workerId : String
  ttlSeconds : ℤ

def ClaimCall.key (call : ClaimCall) : Key := (call.envelope.repository, call.operationKey)

def ClaimCall.claim (call : ClaimCall) (ticket : Ticket) (lsn : String) : OutboxClaim where
  repository := call.envelope.repository
  operationKey := call.operationKey
  workerId := call.workerId
  fencingToken := ticket.token
  intentLsn := ticket.intentLsn
  claimLsn := lsn
  receiptSequence := ticket.receiptSequence
  expiresAt := ticket.expiresAt

/-- The next claim of a row; the time is in microseconds. -/
def ClaimCall.ticket (call : ClaimCall) (now : ℤ) (row : OutboxRow) (intentLsn : String)
    (db : Database) : Ticket where
  token := row.claimFencingToken + 1
  intentLsn := intentLsn
  receiptSequence := db.nextReceipt
  expiresAt := now + call.ttlSeconds * 1000000

def ClaimCall.receipt (call : ClaimCall) (ticket : Ticket) (taskId : String)
    (eventType : EventType) (idempotencyKey : ReceiptKey) : Receipt where
  receiptSequence := ticket.receiptSequence
  repository := call.envelope.repository
  taskId := taskId
  eventType := eventType
  idempotencyKey := idempotencyKey
  leaseHolder := some call.workerId
  leaseFencingToken := some ticket.token
  authorityEnvelope := call.envelope

def ClaimCall.held (call : ClaimCall) (ticket : Ticket) (row : OutboxRow) : OutboxRow :=
  { row with
    workerId := some call.workerId
    claimFencingToken := ticket.token
    claimExpiresAt := some ticket.expiresAt
    claimLsn := none
    claimReceiptSequence := some ticket.receiptSequence
    authorityEnvelope := call.envelope }

/-- What `claim_outbox` refuses before it looks at the clock; it goes on with `intent_lsn`. -/
def claimChecks (key : Key) (row : OutboxRow) (db : Database) : Except StoreError String := do
  raiseWhen (row.status = .unknown)
    (.unknownEffectNeedsReconciliation "external effect outcome is unknown; readback required")
  (if row.status = .succeeded then loadReconciliation key row.claimFencingToken db else .ok ())
  raiseWhen (row.status = .succeeded)
    (.leaseUnavailable "outbox operation is terminal: succeeded")
  raiseWhen (row.status = .deadLetter)
    (.leaseUnavailable "outbox operation is terminal: dead_letter")
  raiseWhen (row.status = .pending && row.effectType = "github.merge" && 0 < row.claimFencingToken)
    (.unknownEffectNeedsReconciliation "attempted merge requires readback-only recovery")
  raiseWhen (row.status = .pending && row.postEffect.phase = some .pending)
    (.leaseUnavailable "row-derived post-effect reconciliation must finish before reclaim")
  (if row.status = .pending ∧ row.reconciliationReceiptSequence.isSome then
    loadReconciliation key row.claimFencingToken db else .ok ())
  orRaise row.intentLsn
    (.durabilityPending "outbox intent durability binding is incomplete")

def OutboxRow.held (row : OutboxRow) (now : ℤ) : Bool := row.claimExpiresAt.any (now < ·)

/-- The first transaction of `claim_outbox`: a new claim, or `none` for a claim that had
expired and was made unknown. -/
def claimTransaction (now : ℤ) (call : ClaimCall) (db : Database) :
    Except StoreError (Database × Option Ticket) := do
  let row ← orRaise (db.outbox.get? call.key) (.keyError call.operationKey)
  let intentLsn ← claimChecks call.key row db
  if row.status = .claimed then
    raiseWhen (row.held now) (.leaseUnavailable "outbox operation already has an active claim")
    .ok (db.setRow call.key
      { row with
        status := .unknown
        unknownDetail := some "pre-effect claim expired; external readback required" }, none)
  else
    let ticket := call.ticket now row intentLsn db
    .ok ((db.addReceipt (call.receipt ticket row.taskId .outboxClaimed
      (.claim call.operationKey ticket.token))).setRow call.key
        { call.held ticket row with status := .claimed, postEffect := {} }, some ticket)

/-- The second transaction of `claim_outbox`. -/
def bindExecution (call : ClaimCall) (ticket : Ticket) (lsn : String) (db : Database) :
    Except StoreError (Database × OutboxClaim) := do
  raiseWhen (!(db.outbox.get? call.key).any fun row =>
      row.workerId = some call.workerId && row.claimFencingToken = ticket.token)
    (.staleFencingToken "outbox claim was superseded before durability binding")
  .ok ((db.bindReceipt ticket.receiptSequence fun _ => lsn).updateRow call.key
    fun row => { row with claimLsn := some lsn }, call.claim ticket lsn)

/-! ### Claims for readback -/

/-- The main transaction of `outbox_claim`. -/
def recoverTransaction (now : ℤ) (call : ClaimCall) (db : Database) :
    Except StoreError (Database × Ticket) := do
  let row ← orRaise (db.outbox.get? call.key) (.keyError call.operationKey)
  raiseWhen row.status.terminal (.keyError call.operationKey)
  let intentLsn ← orRaise row.intentLsn
    (.durabilityPending "outbox intent durability binding is incomplete")
  raiseWhen (row.held now) (.leaseUnavailable "outbox operation still has an active claim")
  let ticket := call.ticket now row intentLsn db
  .ok ((db.addReceipt (call.receipt ticket row.taskId .outboxRecovered
    (.recover call.operationKey ticket.token))).setRow call.key
      { call.held ticket row with
        status := .unknown
        -- the anchors of a merge outlive the claim they were taken under
        postEffect := if row.effectType = "github.merge" then row.postEffect else {}
        unknownDetail := some "worker process lost; external readback required" }, ticket)

/-- The last transaction of `outbox_claim`. -/
def bindRecovery (call : ClaimCall) (ticket : Ticket) (lsn : String) (db : Database) :
    Except StoreError (Database × OutboxClaim) := do
  raiseWhen (!(db.outbox.get? call.key).any fun row =>
      row.workerId = some call.workerId && row.claimFencingToken = ticket.token &&
        row.claimReceiptSequence = some ticket.receiptSequence)
    (.staleFencingToken "outbox recovery was superseded before durability binding")
  .ok ((db.bindReceipt ticket.receiptSequence fun _ => lsn).updateRow call.key
    fun row => { row with claimLsn := some lsn }, call.claim ticket lsn)

/-! ### The claim while the effect runs -/

def OutboxRow.isHeldUnder (row : OutboxRow) (claim : OutboxClaim) : Bool :=
  row.workerId = some claim.workerId && row.claimFencingToken = claim.fencingToken &&
    row.intentLsn = some claim.intentLsn && row.claimLsn = some claim.claimLsn &&
    row.claimReceiptSequence = some claim.receiptSequence &&
    row.claimExpiresAt = some claim.expiresAt

def effectEligible (now : ℤ) (store : ℕ) (claim : OutboxClaim) (db : Database) :
    Database × Except StoreError Bool :=
  match assertExecutorEnabled store (some claim.repository) db with
  | (db', .error (.durabilityPending _)) => (db', .ok false)
  | (db', .error error) => (db', .error error)
  | (db', .ok ()) =>
      (db', .ok ((db'.outbox.get? claim.key).any fun row =>
        row.status = .claimed && row.isHeldUnder claim && row.held now))

def markEffectUnknown (now : ℤ) (claim : OutboxClaim) (detail : String) (db : Database) :
    Except StoreError (Database × Unit) := do
  let row ← orRaise (db.outbox.get? claim.key) (.staleFencingToken "outbox claim is stale")
  raiseWhen (!row.isHeldUnder claim || (row.status = .claimed && !row.held now) ||
      (row.status ≠ .claimed && row.status ≠ .unknown))
    (.staleFencingToken "outbox claim is stale")
  .ok (if row.status = .claimed then
    db.setRow claim.key { row with status := .unknown, unknownDetail := some detail } else db, ())

/-! ### Reconciliation -/

/-- The arguments of `reconcile_outbox`. -/
structure Reconcile where
  store : ℕ
  claim : OutboxClaim
  observedApplied : Bool
  terminalUnknown : Bool := false
  evidence : Evidence

def reconciledStatus (observedApplied terminalUnknown : Bool) : Status :=
  if terminalUnknown then .deadLetter else if observedApplied then .succeeded else .pending

def OutboxRow.awaits (row : OutboxRow) (claim : OutboxClaim) (now : ℤ) : Bool :=
  row.status = .unknown && row.workerId = some claim.workerId &&
    row.claimFencingToken = claim.fencingToken &&
    row.claimReceiptSequence = some claim.receiptSequence &&
    row.claimLsn.getD "0/0" = claim.claimLsn && row.held now

/-- What a reconciliation of an effect nobody can tell about has to show. -/
def terminalUnknownChecks (request : Reconcile) (db : Database) : Except StoreError Unit := do
  let row ← orRaise (db.outbox.get? request.claim.key)
    (.staleFencingToken "unknown effect was already reconciled or superseded")
  let task ← orRaise (db.tasks.get? (request.claim.repository, row.taskId))
    (.staleFencingToken "unknown effect was already reconciled or superseded")
  assertTerminalUnknownModelEvidence row.effectType (row.payload.get? "head_sha")
    task.durablePreSession request.evidence

/-- The first transaction of `reconcile_outbox`; it returns the sequence number of the receipt
and whether the reconciliation had been made before. -/
def reconcileTransaction (hash : Reconcile → String) (now : ℤ) (request : Reconcile)
    (db : Database) : Except StoreError (Database × (ℕ × Bool)) := do
  let claim := request.claim
  let status := reconciledStatus request.observedApplied request.terminalUnknown
  raiseWhen
    (!db.recovery.any (fun r => receiptMatches r && r.governs claim.repository) &&
      !request.observedApplied && !request.terminalUnknown &&
      request.evidence.get? "readback" ≠ some (.text "not-found"))
    (.valueError "fenced negative reconciliation requires explicit not-found readback")
  (if request.terminalUnknown then terminalUnknownChecks request db else .ok ())
  match db.reconciliations.get? (claim.key, claim.fencingToken) with
  | some existing =>
      raiseWhen (existing.requestHash ≠ hash request)
        (.idempotencyConflict
          "outbox reconciliation claim was reused with different readback evidence")
      .ok (db, existing.receiptSequence, true)
  | none =>
      let row ← orRaise (db.outbox.get? claim.key)
        (.staleFencingToken "unknown effect was already reconciled or superseded")
      raiseWhen (!row.awaits claim now)
        (.staleFencingToken "unknown effect was already reconciled or superseded")
      raiseWhen (request.terminalUnknown && (db.deadLetters.get? claim.key).isSome)
        (.runtimeError "duplicate key value violates unique constraint")
      let sequence := db.nextReceipt
      let db' := (db.addReceipt
        { receiptSequence := sequence, repository := claim.repository, taskId := row.taskId
          eventType := .outboxReconciled status
          idempotencyKey := .reconcile claim.operationKey claim.fencingToken
          leaseHolder := some claim.workerId, leaseFencingToken := some claim.fencingToken
          authorityEnvelope := row.authorityEnvelope }).setRow claim.key
        { row with
          status, reconciliationEvidence := some request.evidence
          reconciliationReceiptSequence := some sequence, reconciliationLsn := none
          workerId := none, claimExpiresAt := none }
      .ok ({ db' with
          deadLetters := if request.terminalUnknown then
            db.deadLetters.set claim.key request.evidence else db.deadLetters
          reconciliations := db'.reconciliations.set (claim.key, claim.fencingToken)
            { taskId := row.taskId, workerId := claim.workerId
              claimReceiptSequence := claim.receiptSequence, claimLsn := claim.claimLsn
              observedApplied := request.observedApplied, evidence := request.evidence
              requestHash := hash request, status, receiptSequence := sequence } },
        sequence, false)

/-! ### Post-effect phases -/

def assertPostEffectOrigin (key : Key) (row : OutboxRow) (db : Database) :
    Except StoreError Unit :=
  raiseWhen
    (!(db.receipts.find? fun receipt =>
        receipt.repository = key.1 && receipt.taskId = row.taskId &&
          some receipt.receiptSequence = row.postEffect.claimReceiptSequence &&
          (receipt.eventType = .outboxClaimed || receipt.eventType = .outboxRecovered)).any
      fun receipt =>
        receipt.leaseFencingToken = row.postEffect.fencingToken &&
          receipt.recoveryLsn = row.postEffect.claimLsn &&
          row.postEffect.intentLsn = row.intentLsn &&
          row.postEffect.fencingToken.any fun fence =>
            receipt.idempotencyKey = .claim key.2 fence ||
              receipt.idempotencyKey = .recover key.2 fence)
    (.staleFencingToken "post-effect original claim receipt is inconsistent")

/-- The identity a post-effect phase is pinned to. -/
structure PostEffectIdentity where
  fencingToken : ℕ
  intentLsn : String
  claimLsn : String
  claimReceiptSequence : ℕ
  deriving DecidableEq, Repr

/-- The identity of the claim the row is held under, if it is complete and not over. -/
def OutboxRow.lockedIdentity (row : OutboxRow) (now : ℤ) : Option PostEffectIdentity :=
  match row.workerId, row.intentLsn, row.claimLsn, row.claimReceiptSequence with
  | some _, some intentLsn, some claimLsn, some sequence =>
      if row.held now then some ⟨row.claimFencingToken, intentLsn, claimLsn, sequence⟩ else none
  | _, _, _, _ => none

/-- The identity in the columns `post_effect_*`. -/
def PostEffect.identity (post : PostEffect) : Option PostEffectIdentity :=
  match post.fencingToken, post.intentLsn, post.claimLsn, post.claimReceiptSequence with
  | some token, some intentLsn, some claimLsn, some sequence =>
      some ⟨token, intentLsn, claimLsn, sequence⟩
  | _, _, _, _ => none

/-- `begin_post_effect_pending`, on a repository in canonical form. -/
def beginPostEffectPending (now : ℤ) (key : Key) (minimumFencingToken : ℕ)
    (expectedPrincipal : String) (db : Database) :
    Except StoreError (Database × PostEffectIdentity) := do
  let row ← orRaise (db.outbox.get? key)
    (.staleFencingToken "post-effect pending requires current locked fence")
  let derived ← orRaise (row.lockedIdentity now)
    (.staleFencingToken "post-effect pending requires current locked fence")
  raiseWhen ((row.status ≠ .claimed && row.status ≠ .unknown) ||
      row.claimFencingToken ≠ minimumFencingToken)
    (.staleFencingToken "post-effect pending requires current locked fence")
  raiseWhen (row.authorityEnvelope.actor ≠ expectedPrincipal)
    (.permissionError "post-effect claim does not belong to authenticated principal")
  if row.postEffect.phase = none then
    .ok (db.updateRow key fun row =>
      { row with
        postEffect :=
          { row.postEffect with
            phase := some .pending, fencingToken := some derived.fencingToken
            intentLsn := some derived.intentLsn, claimLsn := some derived.claimLsn
            claimReceiptSequence := some derived.claimReceiptSequence } }, derived)
  else if row.effectType = "github.merge" then
    assertPostEffectOrigin key row db
    raiseWhen (row.postEffect.phase ≠ some .pending)
      (.stateConflict "merge post-effect phase is already terminal")
    let pinned ← orRaise row.postEffect.identity
      (.runtimeError "post-effect identity is incomplete")
    .ok (db, pinned)
  else
    raiseWhen (row.postEffect.identity ≠ some derived)
      (.staleFencingToken "post-effect identity drifted from locked row")
    .ok (db, derived)

/-- The arguments of `reconcile_post_effect`, with the repository in canonical form. -/
structure PostReconcile where
  store : ℕ
  key : Key
  minimumFencingToken : ℕ
  observedApplied : Bool
  evidence : Evidence
  expectedPrincipal : String
  terminalUnknown : Bool := false

/-- The columns the phase was pinned to are those of the row; the claim of a merge may have
been taken over since. -/
def OutboxRow.drifted (row : OutboxRow) : Bool :=
  (row.effectType ≠ "github.merge" &&
      row.postEffect.fencingToken ≠ some row.claimFencingToken) ||
    row.postEffect.intentLsn ≠ row.intentLsn ||
    (row.effectType ≠ "github.merge" && row.postEffect.claimLsn ≠ row.claimLsn) ||
    (row.effectType ≠ "github.merge" &&
      row.postEffect.claimReceiptSequence ≠ row.claimReceiptSequence)

def mergeChecks (request : PostReconcile) (row : OutboxRow) (db : Database) :
    Except StoreError Unit := do
  assertPostEffectOrigin request.key row db
  raiseWhen (!request.observedApplied || request.terminalUnknown ||
      request.evidence.get? "merged" ≠ some (.bool true) ||
      request.evidence.get? "head_sha" ≠ row.payload.get? "head_sha")
    (.valueError "merge reconciliation requires exact positive governed readback")
  let title ← fixedVerifiedMergeCommitTitle (row.payload.get? "pr_number")
  raiseWhen (request.evidence.get? "merge_commit_title" ≠ some (.text title) ||
      request.evidence.get? "merge_commit_message" ≠ some (.text fixedVerifiedMergeCommitMessage))
    (.valueError "merge reconciliation requires exact positive governed readback")

/-- What `reconcile_post_effect` returns. -/
structure PostResult where
  status : Status
  fencingToken : ℕ
  receiptSequence : ℕ
  recoveryLsn : String
  replayed : Bool
  deriving DecidableEq, Repr

/-- How `reconcile_post_effect` goes on after it has read the row. -/
inductive PostPlan
  /-- it had been reconciled before -/
  | finished (result : PostResult)
  /-- only the phase is left to close -/
  | close (result : PostResult)
  /-- the row is reconciled under this claim first -/
  | reconcile (claim : OutboxClaim)

/-- The first transaction of `reconcile_post_effect`; it writes nothing. -/
def readPostEffect (now : ℤ) (request : PostReconcile) (db : Database) :
    Except StoreError PostPlan := do
  let row ← orRaise (db.outbox.get? request.key)
    (.staleFencingToken "post-effect reconciliation requires current locked fence")
  raiseWhen (row.claimFencingToken ≠ request.minimumFencingToken)
    (.staleFencingToken "post-effect reconciliation requires current locked fence")
  raiseWhen (row.authorityEnvelope.actor ≠ request.expectedPrincipal)
    (.permissionError "post-effect claim does not belong to authenticated principal")
  (if row.effectType = "github.merge" then mergeChecks request row db else .ok ())
  if row.postEffect.phase = some .reconciled then
    raiseWhen row.drifted
      (.staleFencingToken "reconciled post-effect identity drifted from locked row")
    raiseWhen (!sameEvidence (row.postEffect.evidence.getD ∅) request.evidence ||
        row.postEffect.observedApplied ≠ some request.observedApplied ||
        row.postEffect.terminalUnknown ≠ some request.terminalUnknown)
      (.idempotencyConflict "post-effect replay has conflicting evidence")
    let sequence ← orRaise row.postEffect.receiptSequence
      (.runtimeError "post-effect receipt is missing")
    .ok (.finished ⟨row.status, request.minimumFencingToken, sequence,
      row.postEffect.recoveryLsn.getD "None", true⟩)
  else if row.postEffect.phase = some .pending ∧
      (row.status = .pending ∨ row.status = .succeeded ∨ row.status = .deadLetter) then
    let expected := reconciledStatus request.observedApplied request.terminalUnknown
    raiseWhen (row.status ≠ expected || row.drifted ||
        !sameEvidence (row.reconciliationEvidence.getD ∅) request.evidence)
      (.idempotencyConflict "post-effect recovery has conflicting reconciliation identity")
    let sequence ← orRaise row.reconciliationReceiptSequence
      (.idempotencyConflict "post-effect recovery has conflicting reconciliation identity")
    let lsn ← orRaise row.reconciliationLsn
      (.idempotencyConflict "post-effect recovery has conflicting reconciliation identity")
    .ok (.close ⟨expected, request.minimumFencingToken, sequence, lsn, true⟩)
  else
    raiseWhen (row.status ≠ .unknown || row.postEffect.phase ≠ some .pending || row.drifted)
      (.staleFencingToken "post-effect reconciliation is stale or reordered")
    match row.workerId, row.lockedIdentity now, row.claimExpiresAt with
    | some worker, some locked, some expiresAt =>
        .ok (.reconcile
          { repository := request.key.1, operationKey := request.key.2, workerId := worker
            fencingToken := request.minimumFencingToken, intentLsn := locked.intentLsn
            claimLsn := locked.claimLsn, receiptSequence := locked.claimReceiptSequence
            expiresAt })
    | _, _, _ =>
        .error (.staleFencingToken "post-effect reconciliation is stale or reordered")

/-- The last transaction of `reconcile_post_effect`; `false` when the phase was no longer
pending under this token, and the call starts over. -/
def closePostEffect (request : PostReconcile) (result : PostResult) (db : Database) :
    Database × Bool :=
  if (db.outbox.get? request.key).any fun row =>
      row.postEffect.phase = some .pending && row.claimFencingToken = request.minimumFencingToken
  then
    (db.updateRow request.key fun row =>
      { row with
        postEffect :=
          { row.postEffect with
            phase := some .reconciled, evidence := some request.evidence
            receiptSequence := some result.receiptSequence
            recoveryLsn := some result.recoveryLsn
            observedApplied := some request.observedApplied
            terminalUnknown := some request.terminalUnknown } }, true)
  else (db, false)

/-! ### Authority epochs -/

/-- The row after a restore: a claim of before is unknown, and nobody holds it. -/
def OutboxRow.fenced (row : OutboxRow) : OutboxRow :=
  if row.status = .claimed then
    { row with
      status := .unknown, unknownDetail := some "recovered claim requires external readback"
      claimExpiresAt := none }
  else row

def activateRecoveredEpoch (store : ℕ) (recoveryId restoredLsn : String) (db : Database) :
    Database × Except StoreError ℕ :=
  if strip recoveryId = "" ∨ strip restoredLsn = "" then
    (db, .error (.valueError "recovery_id and restored_lsn are mandatory"))
  else
    match db.recovery with
    | none => (db, .error (.runtimeError "BuilderOps recovery state is not initialized"))
    | some recovery =>
        if recovery.recoveryId = some recoveryId then
          if recovery.restoredLsn ≠ some restoredLsn then
            (db, .error
              (.runtimeError "recovery identity was reused for another restored LSN"))
          else (db, .ok recovery.activatedAuthorityEpoch)
        else
          match db.authorityEpoch with
          | none => (db, .error (.runtimeError "BuilderOps authority metadata is missing"))
          | some epoch =>
              match bindAuthority store db with
              | (db', .error error) => (db', .error error)
              | (db', .ok ()) =>
                  ({ db' with
                      authorityEpoch := some (epoch + 1)
                      outbox := db'.outbox.mapValues OutboxRow.fenced
                      recovery := some
                        { recovery with
                          activatedAuthorityEpoch := epoch + 1, recoveryId := some recoveryId
                          restoredLsn := some restoredLsn, reconciliationRequired := true
                          executorEnabled := false, bootstrapReceipt := none
                          converged := false } }, .ok (epoch + 1))

end AgenticPkm.ControlPlane
