import AgenticPkm.Heimdal.ConsentLedger
import AgenticPkm.Heimdal.RawLasting
import AgenticPkm.Lib.Fences

/-!
# Captures, revocations and retention side by side

Any number of calls run at the same time: captures, grants, leases, relocations of copies,
revocations, replays of revocations and the two retention jobs.  A step of a call is one access to
shared state: to the ledger under its lock, to the raw state under the liveness fence, or the entry
of the fence of a grant, which is held to the end of its block, also when the block raises.

A revocation erases the records of its grant one by one, then drains the queues of the receipts
that name the grant, and raises when a lease made it leave a record.  Retention by age does the same
with the records that are old enough, outside of any grant's fence.
-/

namespace AgenticPkm.Revocation

open RawStore RawLiveness ConsentLedger

/-- The ledger and the raw evidence.  `admissions` is a record of every consent a raw record ever
had, kept for what is proved; no function reads it. -/
structure World where
  ledger : List ConsentGrant
  memory : Memory := {}
  admissions : List (String × String) := []

def consents (raw : Store) : List (String × String) :=
  raw.rows.flatMap fun row => (raw.consentGrantRefs row.id).map (·, row.id)

/-! ### Retention jobs -/

/-- Retention by age: after days, or of screen frames after minutes. -/
inductive AgeBound
  | hard (retentionWindowDays : ℤ)
  | screenFrame (minutes : ℤ)
  deriving DecidableEq, Repr

namespace AgeBound

def cutoff (reference : ℤ) : AgeBound → ℤ
  | hard retentionWindowDays => reference - retentionWindowDays * 86400 * second
  | screenFrame minutes => reference - minutes * 60 * second

def modality : AgeBound → Option String
  | hard _ => none
  | screenFrame _ => some "screen"

end AgeBound

/-- `retention_metadata_before`: the ids of the records that are older than the cutoff. -/
def expiredRawRecordIds (raw : Store) (cutoff : ℤ) (modality : Option String) :
    Except RawError (List String) :=
  (raw.rows.filter fun row =>
    row.ingestedAt < cutoff && (modality.isNone || row.modality == modality)).mapM fun row =>
      let generations := (((raw.consentAssociations.get? row.id).getD ∅).values.map
        (·.generation)).dedup
      if generations.length ≠ 1 then
        .error (.representationUnavailable
          "active raw identity lacks one correlated consent generation")
      else .ok row.id

/-- Which receipts a job drains. -/
inductive Scan
  | ofGrant (grantDigest : String)
  | ofModality (expected : String)
  | all
  deriving DecidableEq, Repr

def receiptCorrelatesToGrant (receipt : DeletionReceipt) (grantDigest : String) : Bool :=
  match receipt.payload.consentGrantDigest, receipt.payload.consentGrantDigests with
  | none, none => true
  | scalar, digestSet =>
      scalar == some grantDigest || (digestSet.getD []).contains grantDigest

def receiptMatchesRawModality (receipt : DeletionReceipt) (expected : String) :
    Except RawError Bool :=
  match receipt.payload.rawModality with
  | none => .error (.unavailable
      "pending cold cleanup lacks durable raw modality classification")
  | some modality =>
      match canonicalRawModality (some modality) with
      | .error _ => .error (.unavailable
          "pending cold cleanup has malformed raw modality classification")
      | .ok modality => .ok (modality == expected)

/-- Whether `_reconcile_pending_cold_cleanup` has something to do for a receipt. -/
def Scan.selects (receipt : DeletionReceipt) (scan : Scan) : Except RawError Bool :=
  if receipt.payload.coldCleanupLocationRefs.getD [] = [] then .ok false
  else
    match scan with
    | ofGrant grantDigest => .ok (receiptCorrelatesToGrant receipt grantDigest)
    | ofModality expected => receiptMatchesRawModality receipt expected
    | all => .ok true

/-- What a retention job does to the records it selects; `grant` is the grant whose fence it
holds. -/
structure Job where
  grant : Option String
  reason : String
  retentionWindowDays : ℤ
  reference : ℤ
  payload : DeletionPayload := {}
  scan : Scan
  pendingError : ConsentError
  deriving DecidableEq, Repr

def Job.request (job : Job) (recordId : String) : DeleteRequest :=
  { recordId
    reason := job.reason
    retentionWindowDays := job.retentionWindowDays
    deletedAt := job.reference
    payload := job.payload
    correlationGrantRef := job.grant }

/-- The deletion that drains the queue of a receipt. -/
def drainRequest (receipt : DeletionReceipt) : DeleteRequest :=
  { recordId := receipt.recordId
    reason := receipt.reason
    retentionWindowDays := receipt.retentionWindowDays
    deletedAt := receipt.deletedAt
    payload := receipt.payload }

/-- The job of `enforce_consent_revocation`. -/
def revocationJob (crypto : Crypto) (grantRef : String) (reference : ℤ) : Job :=
  { grant := some grantRef
    reason := "consent_revoked"
    retentionWindowDays := 0
    reference
    scan := .ofGrant (crypto.sha256 grantRef)
    pendingError := .consentErasurePending }

/-- The jobs of `enforce_hard_retention_bound` and `enforce_screen_frame_retention`. -/
def AgeBound.job (reference : ℤ) : AgeBound → Job
  | .hard retentionWindowDays =>
      { grant := none
        reason := "hard_retention_bound"
        retentionWindowDays
        reference
        scan := .all
        pendingError := .retentionErasurePending }
  | .screenFrame minutes =>
      { grant := none
        reason := "screen_frame_retention_buffer"
        retentionWindowDays := 0
        reference
        payload := { screenFrameRetentionMinutes := some minutes }
        scan := .ofModality "screen"
        pendingError := .retentionErasurePending }

/-! ### Calls -/

/-- What is done to the copies of a record under `raw_relocation_fence`. -/
inductive Relocation
  | register (request : RegisterRequest) (active : Bool)
  | registerCold (request : RegisterRequest) (locationRef : String) (volume : VerifiedVolume)
  | activate (recordId representationId key : String)
  deriving DecidableEq, Repr

def Relocation.recordId : Relocation → String
  | register request _ => request.recordId
  | registerCold request _ _ => request.recordId
  | activate recordId _ _ => recordId

/-- The checks that `register_raw_representation` starts with, and the id it settles on. -/
def checkHot (env : Env) (request : RegisterRequest) (active : Bool) :
    Except RawError Relocation :=
  if request.recordId = "" then .error (.value "record_id must be non-empty")
  else if request.ciphertext = "" ∨ request.nonce = "" ∨ request.keyRef = "" then
    .error (.value "ciphertext, nonce, and key_ref are required")
  else .ok (.register { request with representationId := some (request.resolvedId env) } active)

/-- The checks that `register_cold_raw_representation` starts with, the last of them whether the
location is still queued for deletion. -/
def checkCold (env : Env) (request : RegisterRequest) (locationRef : String)
    (volume : Option VerifiedVolume) (live : Authority) : Except RawError Relocation :=
  if request.recordId = "" ∨ request.ciphertext = "" ∨ request.nonce = "" ∨ request.keyRef = ""
  then .error (.value "record_id, ciphertext, nonce, and key_ref are required")
  else
    match parseColdLocationRef locationRef with
    | none => .error (.value "cold location_ref must be an opaque heimloc:cold: handle")
    | some (token, objectId) =>
        if objectId ≠ request.resolvedId env then
          .error (.value "cold location_ref must be an opaque heimloc:cold: handle")
        else
          match volume with
          | none => .error (.representationDeletion
              "cold location is not bound to a verified volume")
          | some volume =>
              if token ≠ volume.archiveToken then
                .error (.representationDeletion
                  "cold location is bound to a different archive identity")
              else if coldCleanupLocationIsPending live locationRef then
                .error (.representationDeletion
                  "cold location remains owned by pending governed cleanup")
              else .ok (.registerCold
                { request with representationId := some (request.resolvedId env) } locationRef
                volume)

def contentIdentityForRawRecord (live : Authority) (recordId : String) :
    Except RawError String :=
  match live.generationsByRecord.get? recordId with
  | none => .error (.unavailable "raw identity has no durable liveness generation")
  | some generation =>
      match live.tombstonesByRecord.get? recordId with
      | some tombstone => .error (.erased tombstone)
      | none => .ok generation.contentIdentity

/-- A relocation inside its fence, once the generation is known to be active. -/
def relocateLocked (crypto : Crypto) (env : Env) (generation : ℕ) (raw : Store) :
    Relocation → Store × Except RawError Unit
  | .register request active => registerLocked crypto env request active generation raw
  | .registerCold request locationRef volume =>
      registerColdLocked crypto env request locationRef volume generation raw
  | .activate recordId representationId key =>
      match raw.row? recordId with
      | none => (raw, .error (.representationUnavailable "raw identity does not exist"))
      | some _ =>
          match (do
            requireAuthority env .authorityBeforeVerification
            activateLocked crypto env recordId representationId key raw) with
          | .error e => (raw, .error e)
          | .ok raw => (raw, .ok ())

/-- `raw_relocation_fence` and what is done inside of it. -/
def relocate (crypto : Crypto) (env : Env) (relocation : Relocation) (contentIdentity : String)
    (s : Memory) : Memory × Except RawError Unit :=
  match assertGenerationActive s.live relocation.recordId contentIdentity with
  | .error e => (s, .error e)
  | .ok generation =>
      let result := relocateLocked crypto env generation.generation s.raw relocation
      ({ s with raw := result.1 }, result.2)

/-- What a call is asked for. -/
inductive Request
  /-- `admit_raw_evidence`, then `consent_raw_admission` around `insert_raw_record` -/
  | capture (scope thirdParty : String) (evidence : InsertRequest)
  | grantConsent (request : GrantRequest)
  /-- `project_with_response_leases` -/
  | lease (requests : List (String × String))
  | registerRepresentation (request : RegisterRequest) (active : Bool)
  | registerColdRepresentation (request : RegisterRequest) (locationRef : String)
      (volume : Option VerifiedVolume)
  | activateRepresentation (recordId representationId key : String)
  /-- `revoke_consent` -/
  | revokeConsent (grantRef revokedBy : String)
  /-- `reconcile_revoked_consent_erasure` -/
  | reconcile (scope : Option String)
  /-- `enforce_hard_retention_bound`, with the window it finds in the settings -/
  | hardRetention (retentionWindowDays : ℤ) (now : Option ℤ)
  /-- `enforce_screen_frame_retention` -/
  | screenRetention (minutes : ℤ) (now : Option ℤ)
  deriving DecidableEq, Repr

/-- What is left of a call after the grant it is at: more grants, then retention by age.
`reconciled` are the grants it is done with. -/
structure Plan where
  grants : List String := []
  byAge : Option (AgeBound × ℤ) := none
  reconciled : List String := []
  deriving DecidableEq, Repr

/-- Where a call is. -/
inductive Point
  | granting (request : GrantRequest)
  | leasing (requests : List (String × String))
  | checkingHot (request : RegisterRequest) (active : Bool)
  | checkingCold (request : RegisterRequest) (locationRef : String)
      (volume : Option VerifiedVolume)
  | lookingUp (relocation : Relocation)
  | relocating (relocation : Relocation) (contentIdentity : String)
  | admitting (scope thirdParty : String) (evidence : InsertRequest)
  | enteringAdmission (evidence : InsertRequest)
  | validating (evidence : InsertRequest)
  | inserting (evidence : InsertRequest)
  | captured (grantRef : String) (record : RawRecord) (created : Bool)
  | listing (scope : Option String) (byAge : Option (AgeBound × Option ℤ))
  | enteringRevocation (grantRef : String) (revokedBy : Option String) (plan : Plan)
  | appending (grantRef revokedBy : String) (plan : Plan)
  | selectingByGrant (grantRef : String) (reference : Option ℤ) (plan : Plan)
  | selectingByAge (bound : AgeBound) (reference : Option ℤ) (plan : Plan)
  | erasing (job : Job) (recordIds : List String) (pending : ℕ) (plan : Plan)
  | scanning (job : Job) (pending : ℕ) (plan : Plan)
  | draining (job : Job) (receipts : List DeletionReceipt) (pending : ℕ) (plan : Plan)
  | returned (reconciled : List String)
  | failed (error : ConsentError)
  deriving DecidableEq, Repr

/-- The grant whose fence a call holds. -/
def fence : Point → Option String
  | .validating evidence | .inserting evidence => some evidence.consent.grantRef
  | .appending grantRef _ _ | .selectingByGrant grantRef _ _ => some grantRef
  | .erasing job _ _ _ | .scanning job _ _ | .draining job _ _ _ => job.grant
  | _ => none

/-- Where a call goes when it is done with a grant. -/
def Plan.resume (plan : Plan) : Point :=
  match plan.grants, plan.byAge with
  | grantRef :: grants, _ => .enteringRevocation grantRef none { plan with grants }
  | [], some (bound, reference) =>
      .selectingByAge bound (some reference) { plan with byAge := none }
  | [], none => .returned plan.reconciled

/-- Where a call goes when it is done with a job. -/
def Plan.finish (plan : Plan) (job : Job) : Point :=
  Plan.resume { plan with reconciled := plan.reconciled ++ job.grant.toList }

def start : Request → Point
  | .capture scope thirdParty evidence => .admitting scope thirdParty evidence
  | .grantConsent request => .granting request
  | .lease requests => .leasing requests
  | .registerRepresentation request active => .checkingHot request active
  | .registerColdRepresentation request locationRef volume =>
      .checkingCold request locationRef volume
  | .activateRepresentation recordId representationId key =>
      .lookingUp (.activate recordId representationId key)
  | .revokeConsent grantRef revokedBy =>
      if strip grantRef = "" then .failed (.blankGrantRef grantRef)
      else .enteringRevocation grantRef (some revokedBy) {}
  | .reconcile scope => .listing scope none
  | .hardRetention retentionWindowDays now =>
      .listing none (some (.hard retentionWindowDays, now))
  | .screenRetention minutes now => .selectingByAge (.screenFrame minutes) now {}

/-- Where a call goes with what a function of the raw store returned or raised. -/
def Point.ofResult {α : Type} (result : Except RawError α) (next : α → Point) : Point :=
  match result with
  | .error e => .failed (.raw e)
  | .ok value => next value

section Step

variable (crypto : Crypto) (env : Env) (w : World)

/-- The insert of a capture, and what it leaves in the record of admissions. -/
def capture (evidence : InsertRequest) : World × Point :=
  let result := insertRawRecord crypto env evidence w.memory
  ({ w with
      memory := result.1
      admissions := w.admissions ++ consents result.1.raw },
    Point.ofResult result.2 fun inserted =>
      .captured evidence.consent.grantRef inserted.1 inserted.2)

/-- A deletion, and where the call is when it has returned. -/
def deletion (request : DeleteRequest) (next : DeletionOutcome → Point) : World × Point :=
  let result := governedDelete crypto env request w.memory
  ({ w with memory := result.1 }, Point.ofResult result.2 next)

def step : Point → World × Point
  | .granting request =>
      match grantConsent w.ledger request env.now with
      | .error e => (w, .failed e)
      | .ok ledger => ({ w with ledger }, .returned [])
  | .leasing requests =>
      let result := projectWithResponseLeases env requests w.memory
      ({ w with memory := result.1 }, Point.ofResult result.2 fun _ => .returned [])
  -- a relocation: its checks, the identity of its record, the fence
  | .checkingHot request active =>
      (w, Point.ofResult (checkHot env request active) .lookingUp)
  | .checkingCold request locationRef volume =>
      (w, Point.ofResult (checkCold env request locationRef volume w.memory.live) .lookingUp)
  | .lookingUp relocation =>
      (w, Point.ofResult (contentIdentityForRawRecord w.memory.live relocation.recordId)
        (.relocating relocation))
  | .relocating relocation contentIdentity =>
      let result := relocate crypto env relocation contentIdentity w.memory
      ({ w with memory := result.1 }, Point.ofResult result.2 fun _ => .returned [])
  -- a capture: `admit_raw_evidence`, the fence, the check, the insert
  | .admitting scope thirdParty evidence =>
      match resolveActiveGrant w.ledger scope env.now with
      | none => (w, .failed (.noActiveGrant scope))
      | some grant =>
          (w, .enteringAdmission
            { evidence with consent := stampConsentBlock grant thirdParty })
  | .enteringAdmission evidence =>
      if strip evidence.consent.grantRef = "" then
        (w, .failed (.blankGrantRef evidence.consent.grantRef))
      else (w, .validating evidence)
  | .validating evidence =>
      match assertConsentGrantActive w.ledger evidence.consent.grantRef env.now with
      | .error e => (w, .failed e)
      | .ok _ =>
          if env.raises .afterFinalConsentValidation then
            (w, .failed (.raw (.injected .afterFinalConsentValidation)))
          else (w, .inserting evidence)
  | .inserting evidence => capture crypto env w evidence
  -- the grants that are revoked, one after the other
  | .listing scope byAge =>
      (w, Plan.resume
        { grants := listRevokedGrantRefs w.ledger scope
          byAge := byAge.map fun (bound, now) => (bound, now.getD env.now) })
  | .enteringRevocation grantRef revokedBy plan =>
      if strip grantRef = "" then (w, .failed (.blankGrantRef grantRef))
      else
        match revokedBy with
        | some revokedBy => (w, .appending grantRef revokedBy plan)
        | none => (w, .selectingByGrant grantRef none plan)
  | .appending grantRef revokedBy plan =>
      ({ w with
          ledger := append w.ledger (revocationRow grantRef revokedBy
            (String.ofList (env.revocationId.toList.take 8)) env.now) env.now },
        .selectingByGrant grantRef (some env.now) plan)
  | .selectingByGrant grantRef reference plan =>
      (w, .erasing (revocationJob crypto grantRef (reference.getD env.now))
        (w.memory.raw.recordIdsByConsentGrant grantRef) 0 plan)
  | .selectingByAge bound reference plan =>
      let reference := reference.getD env.now
      (w, Point.ofResult
        (expiredRawRecordIds w.memory.raw (bound.cutoff reference) bound.modality)
        fun recordIds => .erasing (bound.job reference) recordIds 0 plan)
  -- the records of a job, then the queues of the receipts it drains
  | .erasing job [] pending plan => (w, .scanning job pending plan)
  | .erasing job (recordId :: recordIds) pending plan =>
      deletion crypto env w (job.request recordId) fun outcome =>
        .erasing job recordIds (if outcome = .leaseValid then pending + 1 else pending) plan
  | .scanning job pending plan =>
      (w, .draining job w.memory.live.deletionReceipts pending plan)
  | .draining job [] pending plan =>
      (w, if pending ≠ 0 then .failed job.pendingError else plan.finish job)
  | .draining job (receipt :: receipts) pending plan =>
      match job.scan.selects receipt with
      | .error e => (w, .failed (.raw e))
      | .ok false => (w, .draining job receipts pending plan)
      | .ok true =>
          deletion crypto env w (drainRequest receipt) fun _ =>
            .draining job receipts pending plan
  | .captured grantRef record created => (w, .captured grantRef record created)
  | .returned reconciled => (w, .returned reconciled)
  | .failed error => (w, .failed error)

end Step

/-! ### Runs -/

abbrev System := Callers.System World Request Point

abbrev Move := Callers.Move Request Env

def run (crypto : Crypto) (seededAt : ℤ) (moves : List Move) : System :=
  Fences.after start (step crypto) fence { store := { ledger := seeded seededAt } } moves

/-- The ids that the steps of a run draw are new. -/
def FreshRun (crypto : Crypto) (seededAt : ℤ) (moves : List Move) : Prop :=
  Fences.FairFrom start (step crypto) fence (fun env w => Fresh env w.memory)
    { store := { ledger := seeded seededAt } } moves

instance decidableFreshRun (crypto : Crypto) (seededAt : ℤ) (moves : List Move) :
    Decidable (FreshRun crypto seededAt moves) :=
  Fences.decidableFairFrom _ _ _ _ _ _

end AgenticPkm.Revocation
