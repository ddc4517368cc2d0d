import AgenticPkm.Heimdal.RawStore
import AgenticPkm.Lib.Checks
import AgenticPkm.Lib.KeyedList
import Mathlib.Data.Prod.Lex
import Mathlib.Data.String.Basic

/-!
# Raw liveness

The functions of the memory backend that change raw evidence: the insert of a record, the
registration and activation of its copies, the issue of response leases and the governed deletion.
Each holds the liveness fence throughout, so each is one step on the two module states.  A function
that raises leaves behind what it had changed before, so every function here returns the state
beside its result.

Deletion writes the receipt and the tombstone and takes the raw state out.  A hook that raises
before the raw state is gone for good takes all of it back; what goes wrong after that, with the
cold objects, leaves the deletion standing and the objects in the receipt's queue.
-/

namespace AgenticPkm.RawLiveness

open RawStore

/-! ### Generations -/

/-- `register_memory_generation`. -/
def registerGeneration (live : Authority) (recordId contentIdentity : String) (activatedAt : ℤ) :
    Except RawError (Authority × RawLivenessGeneration) :=
  match live.generationsByRecord.get? recordId with
  | some existing =>
      if existing.contentIdentity ≠ contentIdentity ∨
          existing.rawRef ≠ rawRefForRecordId recordId ∨
          (live.tombstonesByRecord.get? recordId).isSome then
        .error (.unavailable "raw generation replay does not match active liveness authority")
      else .ok (live, existing)
  | none =>
      let prior := (live.generationsByContent.get? contentIdentity).getD []
      if prior.any fun item => (live.tombstonesByRecord.get? item.recordId).isNone then
        .error (.unavailable "content identity already has a different untombstoned generation")
      else
        let generation : RawLivenessGeneration :=
          { contentIdentity
            generation := (prior.map (·.generation)).foldl max 0 + 1
            recordId
            rawRef := rawRefForRecordId recordId
            activatedAt }
        .ok ({ live with
                generationsByRecord := live.generationsByRecord.set recordId generation
                generationsByContent :=
                  live.generationsByContent.set contentIdentity (prior ++ [generation]) },
          generation)

/-- `assert_memory_generation_active`. -/
def assertGenerationActive (live : Authority) (recordId contentIdentity : String) :
    Except RawError RawLivenessGeneration :=
  match live.generationsByRecord.get? recordId with
  | none =>
      .error (.unavailable "raw identity has no matching durable liveness generation")
  | some generation =>
      if generation.contentIdentity ≠ contentIdentity then
        .error (.unavailable "raw identity has no matching durable liveness generation")
      else
        match live.tombstonesByRecord.get? recordId with
        | some tombstone => .error (.erased tombstone)
        | none =>
            if (live.retentionClaimsByRecord.get? recordId).isSome then
              .error (.unavailable "raw generation is retiring and refuses new work")
            else .ok generation

/-! ### Inserting a record -/

def representationCiphertext (env : Env) (representation : RawRepresentation) :
    Except RawError String :=
  match representation.storageKind with
  | .postgresHot => .ok representation.ciphertext
  | .encryptedLocalCold =>
      if falsy representation.archiveToken || falsy representation.archiveGeneration then
        .error (.representationUnavailable "cold representation lacks durable archive binding")
      else
        match env.coldCiphertext representation with
        | some ciphertext => .ok ciphertext
        | none => .error (.representationUnavailable "cold representation is unavailable")

def compose (env : Env) (identity : RawIdentity) (representation : RawRepresentation) :
    Except RawError RawRecord := do
  let ciphertext ← representationCiphertext env representation
  pure { identity with
    ciphertext, nonce := representation.nonce, keyRef := representation.keyRef }

/-- What the insert of a record that fails takes back. -/
def discard (raw : Store) (recordId contentIdentity : String) : Store :=
  { rows := raw.rows.filter fun row => row.id ≠ recordId
    byIdentity := raw.byIdentity.erase contentIdentity
    representations := raw.representations.erase recordId
    representationIdsByRecord := raw.representationIdsByRecord.erase recordId
    consentAssociations := raw.consentAssociations.erase recordId }

def firstRepresentation (record : RawRecord) : RawRepresentation :=
  { id := record.id
    recordId := record.id
    storageKind := .postgresHot
    locationRef := "heimloc:" ++ record.id
    ciphertext := record.ciphertext
    nonce := record.nonce
    keyRef := record.keyRef
    active := true }

def withRow (raw : Store) (identity : RawIdentity) (representation : RawRepresentation) : Store :=
  { raw with
      rows := raw.rows ++ [identity]
      byIdentity := raw.byIdentity.set identity.contentIdentity identity
      representations := raw.representations.set representation.id representation
      representationIdsByRecord :=
        raw.representationIdsByRecord.set identity.id [representation.id] }

/-- `_MemoryRawStore.insert`: bytes that are held already get the grant added to their record,
others a new generation. -/
def insert (env : Env) (record : RawRecord) (s : Memory) :
    Memory × Except RawError (RawRecord × Bool) :=
  match s.raw.byIdentity.get? record.contentIdentity with
  | some existing =>
      match assertGenerationActive s.live existing.id record.contentIdentity with
      | .error e => (s, .error e)
      | .ok generation =>
          match s.raw.associateConsent existing.id generation.generation record.consent.grantRef
            env.now with
          | (raw, .error e) => ({ s with raw }, .error e)
          | (raw, .ok _) =>
              ({ s with raw }, do
                let representation ← raw.activeRepresentation existing.id
                let composed ← compose env existing representation
                pure (composed, false))
  | none =>
      let identity : RawIdentity := { record.toRawIdentity with ingestedAt := env.now }
      let representation := firstRepresentation record
      let raw := withRow s.raw identity representation
      match registerGeneration s.live record.id record.contentIdentity identity.ingestedAt with
      | .error e => ({ s with raw := discard raw record.id record.contentIdentity }, .error e)
      | .ok (live, generation) =>
          let representation := { representation with rawGeneration := generation.generation }
          let raw := { raw with
            representations := raw.representations.set representation.id representation }
          match raw.associateConsent record.id generation.generation record.consent.grantRef
            identity.ingestedAt with
          | (raw, .error e) =>
              ({ raw := discard raw record.id record.contentIdentity, live }, .error e)
          | (raw, .ok _) =>
              ({ raw, live }, (compose env identity representation).map (·, true))

/-- What `insert_raw_record` is asked for. -/
structure InsertRequest where
  contentIdentity : String
  captureChain : List String
  sensor : List (String × String)
  consent : ConsentBlock
  ciphertext : String
  nonce : String
  keyRef : String
  key : String
  sourcePath : String
  modality : Option String := none
  deriving DecidableEq, Repr

/-- The record of a request, under the id that `uuid4` draws. -/
def InsertRequest.record (env : Env) (request : InsertRequest) : RawRecord :=
  { id := env.recordId
    contentIdentity := request.contentIdentity
    captureChain := request.captureChain
    sensor := request.sensor
    consent := request.consent
    ciphertext := request.ciphertext
    nonce := request.nonce
    keyRef := request.keyRef
    sourcePath := request.sourcePath
    ingestedAt := env.now
    modality := request.modality }

variable (crypto : Crypto)

def insertRawRecord (env : Env) (request : InsertRequest) (s : Memory) :
    Memory × Except RawError (RawRecord × Bool) :=
  if strip request.contentIdentity = "" then
    (s, .error (.value "content_identity must be a non-empty string"))
  else if request.captureChain = [] then
    (s, .error (.value "capture_chain must be a non-empty list (FABLE_COMPANION §1.1)"))
  else if request.sensor = [] then
    (s, .error (.value ("sensor identity must be provided (T5 mitigation: no unregistered-source "
      ++ "ingestion)")))
  else if request.consent.grantRef = "" then
    (s, .error (.value "consent block with a resolvable grant_ref must be provided (HEIM-3)"))
  else
    match decryptAndVerify crypto request.contentIdentity request.ciphertext request.nonce
      request.key with
    | .error e => (s, .error e)
    | .ok _ => insert env (request.record env) s

/-! ### Registering and activating copies -/

/-- `content_identity_for_raw_record`, then the entry of `raw_relocation_fence`. -/
def relocationFence (live : Authority) (recordId : String) :
    Except RawError RawLivenessGeneration :=
  match live.generationsByRecord.get? recordId with
  | none => .error (.unavailable "raw identity has no durable liveness generation")
  | some generation =>
      match live.tombstonesByRecord.get? recordId with
      | some tombstone => .error (.erased tombstone)
      | none => assertGenerationActive live recordId generation.contentIdentity

/-- `require_raw_mutation_authority`, inside the fence: only the effect check can raise. -/
def requireAuthority (env : Env) (stage : Stage) : Except RawError Unit :=
  if env.raises stage then .error (.injected stage) else .ok ()

/-- `_activate_representation_locked`. -/
def activateLocked (env : Env) (recordId representationId key : String) (raw : Store) :
    Except RawError Store := do
  match raw.representations.get? representationId with
  | none => .error (.representationUnavailable
      "cannot activate an unregistered representation for this raw identity")
  | some target =>
      if target.recordId ≠ recordId then
        .error (.representationUnavailable
          "cannot activate an unregistered representation for this raw identity")
      else
        match raw.row? recordId with
        | none => .error (.representationUnavailable "raw identity does not exist")
        | some identity =>
            let ciphertext ← representationCiphertext env target
            let _ ← decryptAndVerify crypto identity.contentIdentity ciphertext target.nonce key
            requireAuthority env .authorityBeforeActivation
            pure (raw.activate recordId representationId)

/-- The activation that a registration may end with. -/
def activateIf (env : Env) (activate : Bool) (recordId representationId key : String)
    (raw : Store) : Store × Except RawError Unit :=
  if activate then
    match activateLocked crypto env recordId representationId key raw with
    | .error e => (raw, .error e)
    | .ok raw => (raw, .ok ())
  else (raw, .ok ())

/-- What a registration is asked for. -/
structure RegisterRequest where
  recordId : String
  ciphertext : String
  nonce : String
  keyRef : String
  key : String
  representationId : Option String := none
  deriving DecidableEq, Repr

/-- The id of the copy: the one that is asked for, or what `uuid4` draws. -/
def RegisterRequest.resolvedId (env : Env) (request : RegisterRequest) : String :=
  (request.representationId.filter (· ≠ "")).getD env.representationId

def withRepresentation (raw : Store) (representation : RawRepresentation) : Store :=
  { raw with
      representations := raw.representations.set representation.id representation
      representationIdsByRecord := raw.representationIdsByRecord.set representation.recordId
        (raw.representationIds representation.recordId ++ [representation.id]) }

def hotRepresentation (request : RegisterRequest) (representationId : String) (generation : ℕ) :
    RawRepresentation :=
  { id := representationId
    recordId := request.recordId
    storageKind := .postgresHot
    locationRef := "heimloc:" ++ representationId
    ciphertext := request.ciphertext
    nonce := request.nonce
    keyRef := request.keyRef
    active := false
    rawGeneration := generation }

/-- `register_representation`, under its fence. -/
def registerLocked (env : Env) (request : RegisterRequest) (activate : Bool) (generation : ℕ)
    (raw : Store) : Store × Except RawError Unit :=
  let representationId := request.resolvedId env
  match raw.row? request.recordId with
  | none => (raw, .error (.representationUnavailable "raw identity does not exist"))
  | some identity =>
      match (do
        requireAuthority env .authorityBeforeVerification
        decryptAndVerify crypto identity.contentIdentity request.ciphertext request.nonce
          request.key) with
      | .error e => (raw, .error e)
      | .ok _ =>
          match raw.representations.get? representationId with
          | some existing =>
              if ¬ (existing.recordId = request.recordId ∧
                  existing.ciphertext = request.ciphertext ∧ existing.nonce = request.nonce ∧
                  existing.keyRef = request.keyRef ∧ existing.storageKind = .postgresHot ∧
                  existing.rawGeneration = generation ∧ existing.archiveToken = none ∧
                  existing.archiveGeneration = none) then
                (raw, .error (.value
                  "representation id replay does not match registered bytes"))
              else activateIf crypto env activate request.recordId representationId request.key raw
          | none =>
              match requireAuthority env .authorityBeforeRegistration with
              | .error e => (raw, .error e)
              | .ok _ =>
                  activateIf crypto env activate request.recordId representationId request.key
                    (withRepresentation raw (hotRepresentation request representationId generation))

def registerRawRepresentation (env : Env) (request : RegisterRequest) (activate : Bool)
    (s : Memory) : Memory × Except RawError Unit :=
  if request.recordId = "" then (s, .error (.value "record_id must be non-empty"))
  else if request.ciphertext = "" ∨ request.nonce = "" ∨ request.keyRef = "" then
    (s, .error (.value "ciphertext, nonce, and key_ref are required"))
  else
    match relocationFence s.live request.recordId with
    | .error e => (s, .error e)
    | .ok generation =>
        let result := registerLocked crypto env request activate generation.generation s.raw
        ({ s with raw := result.1 }, result.2)

/-- The verified volume a cold copy is written to: the token of its archive identity and its
archive generation. -/
structure VerifiedVolume where
  archiveToken : String
  archiveGeneration : String
  deriving DecidableEq, Repr

def coldCleanupLocationIsPending (live : Authority) (locationRef : String) : Bool :=
  live.deletionReceipts.any fun receipt =>
    locationRef ∈ receipt.payload.coldCleanupLocationRefs.getD []

def coldRepresentation (request : RegisterRequest) (representationId locationRef : String)
    (volume : VerifiedVolume) (generation : ℕ) : RawRepresentation :=
  { id := representationId
    recordId := request.recordId
    storageKind := .encryptedLocalCold
    locationRef
    ciphertext := ""
    nonce := request.nonce
    keyRef := request.keyRef
    active := false
    rawGeneration := generation
    archiveToken := some volume.archiveToken
    archiveGeneration := some volume.archiveGeneration }

/-- `register_cold_representation`, under its fence. -/
def registerColdLocked (env : Env) (request : RegisterRequest) (locationRef : String)
    (volume : VerifiedVolume) (generation : ℕ) (raw : Store) : Store × Except RawError Unit :=
  let representationId := request.resolvedId env
  match raw.row? request.recordId with
  | none => (raw, .error (.representationUnavailable "raw identity does not exist"))
  | some identity =>
      match (do
        requireAuthority env .authorityBeforeVerification
        decryptAndVerify crypto identity.contentIdentity request.ciphertext request.nonce
          request.key) with
      | .error e => (raw, .error e)
      | .ok _ =>
          match raw.representations.get? representationId with
          | some existing =>
              if ¬ (existing.recordId = request.recordId ∧ existing.nonce = request.nonce ∧
                  existing.keyRef = request.keyRef ∧
                  existing.storageKind = .encryptedLocalCold ∧
                  existing.locationRef = locationRef ∧ existing.rawGeneration = generation ∧
                  existing.archiveToken = some volume.archiveToken ∧
                  existing.archiveGeneration = some volume.archiveGeneration) then
                (raw, .error (.value
                  "cold representation id replay does not match registered state"))
              else (raw, .ok ())
          | none =>
              match requireAuthority env .authorityBeforeRegistration with
              | .error e => (raw, .error e)
              | .ok _ =>
                  (withRepresentation raw
                    (coldRepresentation request representationId locationRef volume generation),
                    .ok ())

/-- `register_cold_raw_representation`; `volume` is nothing when the location is not bound to a
verified volume. -/
def registerColdRawRepresentation (env : Env) (request : RegisterRequest) (locationRef : String)
    (volume : Option VerifiedVolume) (s : Memory) : Memory × Except RawError Unit :=
  if request.recordId = "" ∨ request.ciphertext = "" ∨ request.nonce = "" ∨ request.keyRef = ""
  then (s, .error (.value "record_id, ciphertext, nonce, and key_ref are required"))
  else
    match parseColdLocationRef locationRef, volume with
    | none, _ =>
        (s, .error (.value "cold location_ref must be an opaque heimloc:cold: handle"))
    | some (token, objectId), volume =>
        if objectId ≠ request.resolvedId env then
          (s, .error (.value "cold location_ref must be an opaque heimloc:cold: handle"))
        else
          match volume with
          | none => (s, .error (.representationDeletion
              "cold location is not bound to a verified volume"))
          | some volume =>
              if token ≠ volume.archiveToken then
                (s, .error (.representationDeletion
                  "cold location is bound to a different archive identity"))
              else if coldCleanupLocationIsPending s.live locationRef then
                (s, .error (.representationDeletion
                  "cold location remains owned by pending governed cleanup"))
              else
                match relocationFence s.live request.recordId with
                | .error e => (s, .error e)
                | .ok generation =>
                    let result := registerColdLocked crypto env request locationRef volume
                      generation.generation s.raw
                    ({ s with raw := result.1 }, result.2)

def activateRawRepresentation (env : Env) (recordId representationId key : String) (s : Memory) :
    Memory × Except RawError Unit :=
  match relocationFence s.live recordId with
  | .error e => (s, .error e)
  | .ok _ =>
      match s.raw.row? recordId with
      | none => (s, .error (.representationUnavailable "raw identity does not exist"))
      | some _ =>
          match (do
            requireAuthority env .authorityBeforeVerification
            activateLocked crypto env recordId representationId key s.raw) with
          | .error e => (s, .error e)
          | .ok raw => ({ s with raw }, .ok ())

/-! ### Response leases -/

def responseLeaseSeconds : ℤ := 30

inductive Liveness
  | active (lease : RawResponseLease)
  | erasurePending (tombstone : RawDeletionTombstone)
  | erased (tombstone : RawDeletionTombstone)
  deriving DecidableEq, Repr

structure RawLivenessProjection where
  outcome : Liveness
  generation : RawLivenessGeneration
  deriving DecidableEq, Repr

/-- The receipt a tombstone names. -/
def receiptOf (live : Authority) (tombstone : RawDeletionTombstone) : Option DeletionReceipt :=
  live.deletionReceipts.find? fun receipt => receipt.id = tombstone.deletionReceiptId

/-- `_memory_raw_is_exact_active`. -/
def rawIsExactActive (s : Memory) (generation : RawLivenessGeneration) : Bool :=
  s.raw.validateExactActive generation.recordId generation.contentIdentity

/-- The newest lease of a generation that has not run out. -/
def currentLease (live : Authority) (generation : RawLivenessGeneration) (issuedAt : ℤ) :
    Option RawResponseLease :=
  live.leases.reverse.find? fun lease =>
    lease.recordId = generation.recordId ∧ lease.generation = generation.generation ∧
      issuedAt < lease.expiresAt

def newLease (env : Env) (live : Authority) (generation : RawLivenessGeneration)
    (issuedAt : ℤ) : RawResponseLease :=
  { leaseId := env.leaseId live.leases.length
    contentIdentity := generation.contentIdentity
    generation := generation.generation
    recordId := generation.recordId
    rawRef := generation.rawRef
    issuedAt
    expiresAt := issuedAt + responseLeaseSeconds * second }

/-- The end of `_memory_projection_locked`: a lease for an active generation. -/
def leaseActive (env : Env) (generation : RawLivenessGeneration) (issuedAt : ℤ) (s : Memory) :
    Memory × Except RawError RawLivenessProjection :=
  match currentLease s.live generation issuedAt with
  | some lease => (s, .ok { outcome := .active lease, generation })
  | none =>
      let lease := newLease env s.live generation issuedAt
      let s := { s with live := { s.live with leases := s.live.leases ++ [lease] } }
      if env.raises .afterLeaseAppend then (s, .error (.injected .afterLeaseAppend))
      else (s, .ok { outcome := .active lease, generation })

/-- The part of `_memory_projection_locked` for a generation with a tombstone. -/
def projectErased (s : Memory) (generation : RawLivenessGeneration)
    (tombstone : RawDeletionTombstone) : Except RawError RawLivenessProjection :=
  if rawIsExactActive s generation then
    .error (.unavailable "tombstoned raw generation still has an active representation")
  else
    match receiptOf s.live tombstone with
    | none => .error (.unavailable "tombstoned raw generation has no matching deletion receipt")
    | some receipt =>
        .ok { outcome :=
                if receipt.payload.coldCleanupLocationRefs = some [] then .erased tombstone
                else .erasurePending tombstone
              generation }

/-- `_memory_projection_locked`. -/
def projectionLocked (env : Env) (rawRef contentIdentity : String) (issuedAt : ℤ) (s : Memory) :
    Memory × Except RawError RawLivenessProjection :=
  match recordIdFromRawRef rawRef with
  | .error e => (s, .error e)
  | .ok recordId =>
      match s.live.generationsByRecord.get? recordId with
      | none =>
          (s, .error (.unavailable "receipt raw ref has no matching durable liveness generation"))
      | some generation =>
          if generation.contentIdentity ≠ contentIdentity ∨ generation.rawRef ≠ rawRef then
            (s, .error (.unavailable
              "receipt raw ref has no matching durable liveness generation"))
          else
            match s.live.tombstonesByRecord.get? recordId with
            | some tombstone => (s, projectErased s generation tombstone)
            | none =>
                if !rawIsExactActive s generation then
                  (s, .error (.unavailable ("untombstoned raw generation is missing its exact "
                    ++ "active representation")))
                else if (s.live.retentionClaimsByRecord.get? recordId).isSome then
                  (s, .error (.unavailable
                    "raw generation is retiring under a durable retention claim"))
                else leaseActive env generation issuedAt s

def projectAll (env : Env) (issuedAt : ℤ) :
    List (String × String) → Memory →
      Memory × Except RawError (List (String × RawLivenessProjection))
  | [], s => (s, .ok [])
  | (rawRef, contentIdentity) :: requests, s =>
      match projectionLocked env rawRef contentIdentity issuedAt s with
      | (s, .error e) => (s, .error e)
      | (s, .ok projection) =>
          match projectAll env issuedAt requests s with
          | (s, .error e) => (s, .error e)
          | (s, .ok projections) => (s, .ok ((rawRef, projection) :: projections))

/-- `project_with_response_leases`: all of a batch or nothing of it. -/
def projectWithResponseLeases (env : Env) (requests : List (String × String)) (s : Memory) :
    Memory × Except RawError (List (String × RawLivenessProjection)) :=
  let unique := sortedBy (fun request => toLex (request.2, request.1)) requests.dedup
  match projectAll env env.now unique s with
  | (after, .error e) =>
      ({ after with
          live := { after.live with leases := after.live.leases.take s.live.leases.length } },
        .error e)
  | (after, .ok projections) => (after, .ok projections)

/-! ### Governed deletion -/

def assertNewDeletionPayload (payload : DeletionPayload) : Except RawError Unit :=
  if payload.coldCleanupLocationRefs.isSome ∨ payload.coldCleanupArchiveBindings.isSome then
    .error (.value "cold cleanup authority is reserved for governed retention authority")
  else if payload.consentGrantDigest.isSome ∨ payload.consentGrantDigests.isSome then
    .error (.value "consent grant correlation is reserved for governed retention authority")
  else if payload.rawModality.isSome then
    .error (.value "raw modality is reserved for governed retention authority")
  else .ok ()

/-- `_governed_deletion_payload`: the digests of all grants the generation was admitted under. -/
def governedDeletionPayload (payload : DeletionPayload) (grantRefs : List String)
    (correlationGrantRef : Option String) (rawModality : String) :
    Except RawError DeletionPayload :=
  let refs := sortedSet (grantRefs.filter (· ≠ ""))
  if refs = [] then
    .error (.unavailable "active raw generation has no durable consent association")
  else if (correlationGrantRef.any fun ref => ref ∉ refs) then
    .error (.unavailable "deletion correlation grant is not associated with the raw generation")
  else if refs.any (strip · == "") then
    .error (.value "grant_ref must be a non-empty string")
  else
    let selected := match correlationGrantRef with
      | some ref => if ref = "" then (if refs.length = 1 then refs.head? else none) else some ref
      | none => if refs.length = 1 then refs.head? else none
    .ok { payload with
      consentGrantDigests := some (sortedBy id (refs.map crypto.sha256))
      consentGrantDigest := match selected with
        | some ref => some (crypto.sha256 ref)
        | none => payload.consentGrantDigest
      rawModality := some rawModality }

/-- `_memory_claim_retention_locked`: a claim runs until all leases that are out have run out. -/
def claimRetention (env : Env) (generation : RawLivenessGeneration) (reason : String)
    (retentionWindowDays claimedAt : ℤ) (payload : DeletionPayload) (live : Authority) :
    Authority × RawRetentionClaim :=
  match live.retentionClaimsByRecord.get? generation.recordId with
  | some existing => (live, existing)
  | none =>
      let activeExpiries := (live.leases.filter fun lease =>
        lease.recordId = generation.recordId ∧ claimedAt < lease.expiresAt).map (·.expiresAt)
      let claim : RawRetentionClaim :=
        { id := env.claimId
          contentIdentity := generation.contentIdentity
          generation := generation.generation
          recordId := generation.recordId
          rawRef := generation.rawRef
          reason
          retentionWindowDays
          claimedAt
          drainAfter := activeExpiries.foldl max claimedAt
          payload }
      ({ live with
          retentionClaims := live.retentionClaims ++ [claim]
          retentionClaimsByRecord :=
            live.retentionClaimsByRecord.set generation.recordId claim }, claim)

def coldCleanupBinding (payload : DeletionPayload) (locationRef : String)
    (expectedRawGeneration : ℕ) : Except RawError ColdBinding :=
  match (payload.coldCleanupArchiveBindings.getD []).find? (·.1 = locationRef) with
  | none => .error (.unavailable "cold cleanup item lacks durable archive binding")
  | some (_, binding) =>
      let hex64 := List.replicate 64 isHexDigit
      if ¬ fits hex64 binding.archiveToken.toList ∨ ¬ fits hex64 binding.archiveGeneration.toList ∨
          binding.rawGeneration ≠ expectedRawGeneration ∨
          canonicalUuid? binding.representationId ≠ some binding.representationId ∨
          locationRef ≠
            "heimloc:cold:" ++ binding.archiveToken ++ ":" ++ binding.representationId then
        .error (.unavailable "cold cleanup item is stale or bound to a different generation")
      else .ok binding

/-- The queue of a receipt set to what is left of it. -/
def setQueue (live : Authority) (receiptId : String) (remaining : List String) : Authority :=
  { live with
      deletionReceipts := modifyBy (·.id) receiptId
        (fun receipt =>
          { receipt with
              payload := { receipt.payload with coldCleanupLocationRefs := some remaining } })
        live.deletionReceipts }

/-- The loop of `_reconcile_memory_cold_cleanup`: an object that is deleted leaves the queue. -/
def drainQueue (env : Env) (receipt : DeletionReceipt) (rawGeneration : ℕ) :
    List String → List String → Authority → Authority × Except RawError Unit
  | [], remaining, live =>
      if remaining = [] then (live, .ok ())
      else (live, .error (.representationDeletion "cold representation deletion failed"))
  | locationRef :: refs, remaining, live =>
      match coldCleanupBinding receipt.payload locationRef rawGeneration with
      | .error e => (live, .error e)
      | .ok _ =>
          if env.coldDeletable locationRef then
            let remaining := remaining.erase locationRef
            drainQueue env receipt rawGeneration refs remaining
              (setQueue live receipt.id remaining)
          else
            (live, .error (.representationDeletion
              "cold representation archive binding is unavailable"))

/-- `_reconcile_memory_cold_cleanup`. -/
def reconcileColdCleanup (env : Env) (tombstone : RawDeletionTombstone) (live : Authority) :
    Authority × Except RawError Unit :=
  match receiptOf live tombstone with
  | none =>
      (live, .error (.unavailable "tombstoned raw generation has no matching deletion receipt"))
  | some receipt =>
      match receipt.payload.coldCleanupLocationRefs with
      | none =>
          (live, .error (.unavailable "cold cleanup queue evidence is absent or malformed"))
      | some refs => drainQueue env receipt tombstone.generation refs refs live

/-- The bindings of the cold copies of a record, by location. -/
def coldBindings (recordId : String) (generation : RawLivenessGeneration) :
    List RawRepresentation → Dict String ColdBinding → Except RawError (Dict String ColdBinding)
  | [], bindings => .ok bindings
  | representation :: representations, bindings =>
      match representation.storageKind with
      | .postgresHot => coldBindings recordId generation representations bindings
      | .encryptedLocalCold =>
          if falsy representation.archiveToken ∨ falsy representation.archiveGeneration ∨
              representation.rawGeneration ≠ generation.generation then
            .error (.unavailable "cold representation lacks exact archive/generation authority")
          else
            coldBindings recordId generation representations
              (bindings.set representation.locationRef
                { archiveToken := representation.archiveToken.getD ""
                  archiveGeneration := representation.archiveGeneration.getD ""
                  rawGeneration := representation.rawGeneration
                  representationId := representation.id
                  recordId
                  contentIdentity := generation.contentIdentity
                  nonce := representation.nonce })

/-- What a deletion is asked for. -/
structure DeleteRequest where
  recordId : String
  reason : String
  retentionWindowDays : ℤ
  deletedAt : ℤ
  payload : DeletionPayload := {}
  correlationGrantRef : Option String := none
  deriving DecidableEq, Repr

inductive DeletionOutcome
  | deleted (receipt : DeletionReceipt) (tombstone : RawDeletionTombstone)
  | leaseValid
  | alreadyErased (tombstone : RawDeletionTombstone)
  deriving DecidableEq, Repr

/-- `l.pop()` when the last element is `x`. -/
def popLast {α : Type} [DecidableEq α] (l : List α) (x : α) : List α :=
  if l.getLast? = some x then l.dropLast else l

/-- The body of the deletion up to the point where the raw state is gone. -/
def eraseRaw (env : Env) (tombstone : RawDeletionTombstone) (s : Memory) :
    Memory × Except RawError Unit :=
  if env.raises .afterDeletionReceipt then (s, .error (.injected .afterDeletionReceipt))
  else
    let s := { s with
      live := { s.live with
        tombstones := s.live.tombstones ++ [tombstone]
        tombstonesByRecord := s.live.tombstonesByRecord.set tombstone.recordId tombstone } }
    if env.raises .afterTombstone then (s, .error (.injected .afterTombstone))
    else
      match s.raw.hardDelete tombstone.recordId with
      | .error e => (s, .error e)
      | .ok (_, false) =>
          (s, .error (.unavailable
            "retention target disappeared without a governed tombstone commit"))
      | .ok (raw, true) =>
          if env.raises .afterRawDelete then ({ s with raw }, .error (.injected .afterRawDelete))
          else ({ s with raw }, .ok ())

/-- What the handler takes back: the raw state, a claim that is new, the receipt and the
tombstone. -/
def rollBack (snapshot : Store) (claimWasNew : Bool) (claim : RawRetentionClaim)
    (receipt : DeletionReceipt) (tombstone : RawDeletionTombstone) (s : Memory) : Memory :=
  let popClaim := claimWasNew && s.live.retentionClaims.getLast? == some claim
  { raw := snapshot
    live := { s.live with
      retentionClaims :=
        if popClaim then s.live.retentionClaims.dropLast else s.live.retentionClaims
      retentionClaimsByRecord :=
        if popClaim then s.live.retentionClaimsByRecord.erase tombstone.recordId
        else s.live.retentionClaimsByRecord
      deletionReceipts := popLast s.live.deletionReceipts receipt
      tombstones := popLast s.live.tombstones tombstone
      tombstonesByRecord := s.live.tombstonesByRecord.erase tombstone.recordId } }

def newReceipt (env : Env) (request : DeleteRequest) (generation : RawLivenessGeneration)
    (payload : DeletionPayload) (bindings : Dict String ColdBinding) : DeletionReceipt :=
  { id := env.receiptId
    recordId := request.recordId
    contentIdentity := generation.contentIdentity
    reason := request.reason
    retentionWindowDays := request.retentionWindowDays
    deletedAt := request.deletedAt
    payload := { payload with
      coldCleanupLocationRefs := some bindings.keys
      coldCleanupArchiveBindings :=
        if bindings.items = [] then payload.coldCleanupArchiveBindings
        else some bindings.items } }

def newTombstone (env : Env) (request : DeleteRequest) (generation : RawLivenessGeneration) :
    RawDeletionTombstone :=
  { id := env.tombstoneId
    contentIdentity := generation.contentIdentity
    generation := generation.generation
    recordId := request.recordId
    rawRef := generation.rawRef
    deletionReceiptId := env.receiptId
    reason := request.reason
    erasedAt := request.deletedAt }

/-- The deletion of an active generation that is claimed and drained. -/
def commitDeletion (env : Env) (claimWasNew : Bool) (claim : RawRetentionClaim)
    (receipt : DeletionReceipt) (tombstone : RawDeletionTombstone) (s : Memory) :
    Memory × Except RawError DeletionOutcome :=
  let receipted := { s with
    live := { s.live with deletionReceipts := s.live.deletionReceipts ++ [receipt] } }
  match eraseRaw env tombstone receipted with
  | (after, .error e) => (rollBack s.raw claimWasNew claim receipt tombstone after, .error e)
  | (after, .ok _) =>
      -- the raw state is gone: nothing is taken back from here on
      match reconcileColdCleanup env tombstone after.live with
      | (live, .error e) => ({ after with live }, .error e)
      | (live, .ok _) =>
          ({ after with live },
            .ok (.deleted ((receiptOf live tombstone).getD receipt) tombstone))

/-- The checks of a deletion, and the payload it writes. -/
def deletionPayload (request : DeleteRequest) (generation : RawLivenessGeneration) (s : Memory) :
    Except RawError DeletionPayload := do
  assertNewDeletionPayload request.payload
  if !rawIsExactActive s generation then
    .error (.unavailable "untombstoned retention target is missing its active representation")
  else
    let modality ← s.raw.rawModality request.recordId
    governedDeletionPayload crypto request.payload (s.raw.consentGrantRefs request.recordId)
      request.correlationGrantRef modality

def deleteActive (env : Env) (request : DeleteRequest) (generation : RawLivenessGeneration)
    (s : Memory) : Memory × Except RawError DeletionOutcome :=
  match deletionPayload crypto request generation s with
  | .error e => (s, .error e)
  | .ok payload =>
      let claimWasNew := (s.live.retentionClaimsByRecord.get? request.recordId).isNone
      let (live, claim) := claimRetention env generation request.reason
        request.retentionWindowDays request.deletedAt payload s.live
      let s := { s with live }
      if request.deletedAt < claim.drainAfter then (s, .ok .leaseValid)
      else
        match coldBindings request.recordId generation
          (s.raw.representationsOf request.recordId) ∅ with
        | .error e => (s, .error e)
        | .ok bindings =>
            commitDeletion env claimWasNew claim
              (newReceipt env request generation payload bindings)
              (newTombstone env request generation) s

/-- `governed_delete_raw_record`. -/
def governedDelete (env : Env) (request : DeleteRequest) (s : Memory) :
    Memory × Except RawError DeletionOutcome :=
  if env.raises .retentionFence then (s, .error (.injected .retentionFence))
  else
    match s.live.generationsByRecord.get? request.recordId with
    | none =>
        (s, .error (.unavailable "retention target has no durable liveness generation"))
    | some generation =>
        match s.live.tombstonesByRecord.get? request.recordId with
        | none => deleteActive crypto env request generation s
        | some tombstone =>
            match reconcileColdCleanup env tombstone s.live with
            | (live, .error e) => ({ s with live }, .error e)
            | (live, .ok _) =>
                ({ s with live },
                  if rawIsExactActive s generation then
                    .error (.unavailable "tombstoned retention target still has active raw state")
                  else .ok (.alreadyErased tombstone))

end AgenticPkm.RawLiveness
