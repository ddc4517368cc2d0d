import AgenticPkm.Lib.Dict
import AgenticPkm.Lib.Text

/-!
# The raw store

Raw evidence as the memory backend keeps it: one identity row for the bytes of a capture, the
encrypted copies registered for it, and the consent grants it was admitted under.  The store is
the five containers of `_MemoryRawStore`.

Bytes, keys and digests are texts.  What AES-GCM and SHA-256 compute is a parameter, with the one
law that the code counts on: what was encrypted decrypts to what it was.
-/

namespace AgenticPkm.RawStore

/-- Times count microseconds. -/
def second : ℤ := 1000000

/-! ### Encryption -/

/-- What the code asks of SHA-256 and AES-GCM. -/
structure Crypto where
  sha256 : String → String
  encrypt : (plaintext nonce key : String) → String
  decrypt : (ciphertext nonce key : String) → Option String
  decrypt_encrypt : ∀ plaintext nonce key,
    decrypt (encrypt plaintext nonce key) nonce key = some plaintext

/-! ### Records -/

/-- The consent block that a raw record carries. -/
structure ConsentBlock where
  basis : String
  grantedBy : String
  grantedAt : ℤ
  thirdParty : String := "none"
  grantRef : String
  deriving DecidableEq, Repr

/-- Identity and provenance of one piece of evidence; of its payload, the modality. -/
structure RawIdentity where
  id : String
  contentIdentity : String
  captureChain : List String
  sensor : List (String × String)
  consent : ConsentBlock
  sourcePath : String
  ingestedAt : ℤ
  modality : Option String
  deriving DecidableEq, Repr

inductive StorageKind
  | postgresHot
  | encryptedLocalCold
  deriving DecidableEq, Repr

/-- One registered encrypted copy.  The bytes of a cold copy are in the archive, not here. -/
structure RawRepresentation where
  id : String
  recordId : String
  storageKind : StorageKind
  locationRef : String
  ciphertext : String
  nonce : String
  keyRef : String
  active : Bool
  rawGeneration : ℕ := 0
  archiveToken : Option String := none
  archiveGeneration : Option String := none
  deriving DecidableEq, Repr

/-- An identity with the bytes of its active copy. -/
structure RawRecord extends RawIdentity where
  ciphertext : String
  nonce : String
  keyRef : String
  deriving DecidableEq, Repr

/-- Consent coverage of one generation. -/
structure RawConsentAssociation where
  recordId : String
  generation : ℕ
  grantRef : String
  admittedAt : ℤ
  deriving DecidableEq, Repr

/-- `_MemoryRawStore`. -/
structure Store where
  rows : List RawIdentity := []
  byIdentity : Dict String RawIdentity := ∅
  representations : Dict String RawRepresentation := ∅
  representationIdsByRecord : Dict String (List String) := ∅
  consentAssociations : Dict String (Dict String RawConsentAssociation) := ∅

/-! ### The liveness authority -/

structure RawLivenessGeneration where
  contentIdentity : String
  generation : ℕ
  recordId : String
  rawRef : String
  activatedAt : ℤ
  deriving DecidableEq, Repr

structure RawResponseLease where
  leaseId : String
  contentIdentity : String
  generation : ℕ
  recordId : String
  rawRef : String
  issuedAt : ℤ
  expiresAt : ℤ
  deriving DecidableEq, Repr

/-- What binds one queued cold object to the copy it held. -/
structure ColdBinding where
  archiveToken : String
  archiveGeneration : String
  rawGeneration : ℕ
  representationId : String
  recordId : String
  contentIdentity : String
  nonce : String
  deriving DecidableEq, Repr

/-- The payload of a deletion: the caller's own entry, and the entries that are reserved for
the retention authority.  An entry that is `none` is absent. -/
structure DeletionPayload where
  screenFrameRetentionMinutes : Option ℤ := none
  consentGrantDigests : Option (List String) := none
  consentGrantDigest : Option String := none
  rawModality : Option String := none
  coldCleanupLocationRefs : Option (List String) := none
  coldCleanupArchiveBindings : Option (List (String × ColdBinding)) := none
  deriving DecidableEq, Repr

structure DeletionReceipt where
  id : String
  recordId : String
  contentIdentity : String
  reason : String
  retentionWindowDays : ℤ
  deletedAt : ℤ
  payload : DeletionPayload
  deriving DecidableEq, Repr

structure RawDeletionTombstone where
  id : String
  contentIdentity : String
  generation : ℕ
  recordId : String
  rawRef : String
  deletionReceiptId : String
  reason : String
  erasedAt : ℤ
  deriving DecidableEq, Repr

structure RawRetentionClaim where
  id : String
  contentIdentity : String
  generation : ℕ
  recordId : String
  rawRef : String
  reason : String
  retentionWindowDays : ℤ
  claimedAt : ℤ
  drainAfter : ℤ
  payload : DeletionPayload
  deriving DecidableEq, Repr

/-- `_MemoryAuthority`. -/
structure Authority where
  generationsByRecord : Dict String RawLivenessGeneration := ∅
  generationsByContent : Dict String (List RawLivenessGeneration) := ∅
  tombstonesByRecord : Dict String RawDeletionTombstone := ∅
  leases : List RawResponseLease := []
  retentionClaimsByRecord : Dict String RawRetentionClaim := ∅
  retentionClaims : List RawRetentionClaim := []
  deletionReceipts : List DeletionReceipt := []
  tombstones : List RawDeletionTombstone := []

/-- The two module states together: `_MEMORY_STORE` and `_MEMORY`. -/
structure Memory where
  raw : Store := {}
  live : Authority := {}

/-! ### Errors and the environment -/

/-- The points at which a hook of the code, or the effect check of a mutation authority, may
raise. -/
inductive Stage
  | afterFinalConsentValidation
  | retentionFence
  | afterDeletionReceipt
  | afterTombstone
  | afterRawDelete
  | afterLeaseAppend
  | authorityBeforeVerification
  | authorityBeforeRegistration
  | authorityBeforeActivation
  deriving DecidableEq, Repr

/-- What the functions raise. -/
inductive RawError
  /-- `RawLivenessUnavailableError` -/
  | unavailable (message : String)
  /-- `RawEvidenceErasedError` -/
  | erased (tombstone : RawDeletionTombstone)
  /-- `RawRepresentationUnavailableError` -/
  | representationUnavailable (message : String)
  /-- `RawRepresentationDeletionError` -/
  | representationDeletion (message : String)
  /-- `RawRepresentationIdentityMismatchError` -/
  | identityMismatch (message : String)
  /-- `ValueError` -/
  | value (message : String)
  /-- what a hook raised -/
  | injected (stage : Stage)
  deriving DecidableEq, Repr

/-- What a call is given from outside: the time, what `uuid4` draws, at which points a hook
raises, what a cold copy's object holds (nothing when it cannot be read and verified), and which
cold objects can be deleted. -/
structure Env where
  now : ℤ
  recordId : String := ""
  representationId : String := ""
  leaseId : ℕ → String := fun _ => ""
  claimId : String := ""
  receiptId : String := ""
  tombstoneId : String := ""
  revocationId : String := ""
  raises : Stage → Bool := fun _ => false
  coldCiphertext : RawRepresentation → Option String := fun _ => none
  coldDeletable : String → Bool := fun _ => true

/-! ### References -/

def rawRefForRecordId (recordId : String) : String := "heimraw:" ++ recordId

/-- The record a raw reference names. -/
def recordIdFromRawRef (rawRef : String) : Except RawError String :=
  if startsWith "heimraw:" rawRef then
    match canonicalUuid? (textAfter "heimraw:" rawRef) with
    | some recordId => .ok recordId
    | none => .error (.unavailable ("invalid raw reference " ++ rawRef))
  else .error (.unavailable ("invalid raw reference " ++ rawRef))

theorem recordIdFromRawRef_rawRef {recordId : String} (h : canonicalUuid? recordId = some recordId)
    : recordIdFromRawRef (rawRefForRecordId recordId) = .ok recordId := by
  have hs : startsWith "heimraw:" (rawRefForRecordId recordId) = true := by
    unfold startsWith rawRefForRecordId
    rw [String.toList_append, List.isPrefixOf_iff_prefix]
    exact List.prefix_append _ _
  have hr : textAfter "heimraw:" (rawRefForRecordId recordId) = recordId := by
    unfold textAfter
    rw [if_pos hs]
    unfold rawRefForRecordId
    rw [String.toList_append, List.drop_left, String.ofList_toList]
  unfold recordIdFromRawRef
  rw [if_pos hs, hr, h]

theorem rawRefForRecordId_injective : Function.Injective rawRefForRecordId := by
  intro a b h
  unfold rawRefForRecordId at h
  have hch := congrArg String.toList h
  rw [String.toList_append, String.toList_append, List.append_right_inj] at hch
  exact String.toList_injective hch

/-- The characters a text must be made of, one test a place. -/
def fits (pattern : List (Char → Bool)) (text : List Char) : Bool :=
  pattern.length == text.length && (List.zipWith (fun test c => test c) pattern text).all id

/-- `heimloc:cold:<64 hex digits>:<UUID>`, as the archive token and the object's id. -/
def parseColdLocationRef (locationRef : String) : Option (String × String) :=
  let lead := "heimloc:cold:".toList
  let token := (locationRef.toList.drop lead.length).take 64
  let rest := locationRef.toList.drop (lead.length + 64)
  let hex n := List.replicate n isHexDigit
  let dash : List (Char → Bool) := [(· == '-')]
  let uuid := hex 8 ++ dash ++ hex 4 ++ dash ++ (fun c => '1' ≤ c && c ≤ '5') :: hex 3 ++ dash ++
    (fun c => c == '8' || c == '9' || c == 'a' || c == 'b') :: hex 3 ++ dash ++ hex 12
  if lead.isPrefixOf locationRef.toList && fits (hex 64) token && fits ((· == ':') :: uuid) rest
  then some (String.ofList token, String.ofList rest.tail) else none

/-! ### Modality -/

def rawModalityUnspecified : String := "unspecified"

/-- `[a-z][a-z0-9_-]{0,63}`. -/
def isCanonicalModality (text : String) : Bool :=
  match text.toList with
  | [] => false
  | c :: l =>
      ('a' ≤ c && c ≤ 'z') && l.length ≤ 63 &&
        l.all fun c => ('a' ≤ c && c ≤ 'z') || ('0' ≤ c && c ≤ '9') || c == '_' || c == '-'

def canonicalRawModality : Option String → Except RawError String
  | none => .ok rawModalityUnspecified
  | some modality =>
      if isCanonicalModality modality then .ok modality
      else .error (.representationUnavailable "raw record modality metadata is not canonical")

/-! ### Verification -/

section Verification

variable (crypto : Crypto)

/-- `decrypt_and_verify_raw_bytes`: both spellings of a digest are accepted. -/
def decryptAndVerify (contentIdentity ciphertext nonce key : String) : Except RawError String :=
  match crypto.decrypt ciphertext nonce key with
  | none => .error (.identityMismatch
      "raw representation cannot be verified against immutable content identity")
  | some plaintext =>
      if contentIdentity = crypto.sha256 plaintext ∨
          contentIdentity = "sha256:" ++ crypto.sha256 plaintext then .ok plaintext
      else .error (.identityMismatch
        "raw representation plaintext does not match immutable content identity")

end Verification

/-! ### Functions of the store -/

/-- Python's `not text` of an optional text. -/
def falsy (text : Option String) : Bool := text.getD "" == ""

namespace Store

def representationIds (store : Store) (recordId : String) : List String :=
  (store.representationIdsByRecord.get? recordId).getD []

/-- `all_representations`. -/
def representationsOf (store : Store) (recordId : String) : List RawRepresentation :=
  (store.representationIds recordId).filterMap store.representations.get?

def consentGrantRefs (store : Store) (recordId : String) : List String :=
  ((store.consentAssociations.get? recordId).getD ∅).keys

def row? (store : Store) (recordId : String) : Option RawIdentity :=
  store.rows.find? fun row => row.id = recordId

/-- A copy that reads may be served from. -/
def supported (representation : RawRepresentation) : Bool :=
  0 < representation.rawGeneration &&
    match representation.storageKind with
    | .postgresHot =>
        representation.archiveToken == none && representation.archiveGeneration == none
    | .encryptedLocalCold =>
        !falsy representation.archiveToken && !falsy representation.archiveGeneration &&
          startsWith ("heimloc:cold:" ++ representation.archiveToken.getD "" ++ ":")
            representation.locationRef

/-- `_active_representation_locked`. -/
def activeRepresentation (store : Store) (recordId : String) :
    Except RawError RawRepresentation :=
  match (store.representationsOf recordId).filter (·.active) with
  | [representation] =>
      if supported representation then .ok representation
      else .error (.representationUnavailable ("raw identity does not have exactly one supported "
        ++ "active registered representation"))
  | _ => .error (.representationUnavailable ("raw identity does not have exactly one supported "
      ++ "active registered representation"))

def validateExactActive (store : Store) (recordId contentIdentity : String) : Bool :=
  match store.row? recordId with
  | none => false
  | some identity =>
      identity.contentIdentity == contentIdentity &&
        match store.activeRepresentation recordId with
        | .ok _ => true
        | .error _ => false

/-- `_associate_consent_locked`: a grant is written down once for a record. -/
def associateConsent (store : Store) (recordId : String) (generation : ℕ) (grantRef : String)
    (admittedAt : ℤ) : Store × Except RawError RawConsentAssociation :=
  let associations := (store.consentAssociations.get? recordId).getD ∅
  match associations.get? grantRef with
  | some existing =>
      if existing.generation ≠ generation then
        (store, .error (.representationUnavailable
          "consent association replay targets a different raw generation"))
      else (store, .ok existing)
  | none =>
      let association : RawConsentAssociation := { recordId, generation, grantRef, admittedAt }
      ({ store with
          consentAssociations :=
            store.consentAssociations.set recordId (associations.set grantRef association) },
        .ok association)

def rawModality (store : Store) (recordId : String) : Except RawError String :=
  match store.row? recordId with
  | none => .error (.representationUnavailable "raw record modality metadata is unavailable")
  | some row => canonicalRawModality row.modality

def recordIdsByConsentGrant (store : Store) (grantRef : String) : List String :=
  (store.rows.filter fun row => grantRef ∈ store.consentGrantRefs row.id).map (·.id)

/-- The pass of `_activate_representation_locked` over the copies of a record. -/
def activate (store : Store) (recordId representationId : String) : Store :=
  { store with
      representations := (store.representationIds recordId).foldl
        (fun representations id =>
          match representations.get? id with
          | none => representations
          | some current =>
              representations.set id { current with active := id == representationId })
        store.representations }

/-- `hard_delete`: all copies of a record, then its row.  When a copy cannot be taken out, the
store is as it was. -/
def hardDelete (store : Store) (recordId : String) : Except RawError (Store × Bool) :=
  match store.row? recordId with
  | none => .ok (store, false)
  | some row =>
      let ids := store.representationIds recordId
      let representations := ids.foldl (·.erase ·) store.representations
      if ¬ ids.Nodup ∨ ∃ id ∈ ids, store.representations.get? id = none then
        .error (.representationDeletion
          "governed all-copy deletion failed; no identity was removed")
      else if representations.values.any (·.recordId == recordId) then
        .error (.representationDeletion
          "raw representation remains after governed all-copy deletion")
      else
        .ok ({ rows := store.rows.eraseP fun row => row.id = recordId
               byIdentity := store.byIdentity.erase row.contentIdentity
               representations
               representationIdsByRecord := store.representationIdsByRecord.erase recordId
               consentAssociations := store.consentAssociations.erase recordId }, true)

end Store

end AgenticPkm.RawStore
