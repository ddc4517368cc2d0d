import AgenticPkm.Lib.Dict
import AgenticPkm.Lib.Checks
import AgenticPkm.Lib.Text

/-!
# The database outbox

A row of the outbox is one event that waits to be delivered.  It is inserted under a key that
is derived from what the emission is about, and an insert under a key that was used before
does nothing: whether the row of that key is still waiting or was delivered long ago.

Of a payload, the fields are kept that the worker reads or writes itself; `_worker_retry_count`
is kept as the whole number it reads as.
-/

namespace AgenticPkm.Outbox

structure Payload where
  eventId : Option String := none
  originalEventId : Option String := none
  retryCount : Option ℤ := none
  deriving DecidableEq, Repr

/-- The envelope. -/
structure Event where
  eventId : String
  topic : String
  payload : Payload := {}
  deriving DecidableEq, Repr

structure OutboxRow where
  event : Event
  vaultBindingId : String
  createdAt : ℤ
  /-- The key before it was scoped to a binding; old rows have none. -/
  legacyKey : Option String := none
  /-- `meta.vault_binding_id` of the envelope. -/
  metaBindingId : Option String := none
  attempts : ℕ := 0
  delivered : Bool := false
  deriving DecidableEq, Repr

abbrev Rows := Dict String OutboxRow

def quarantineBindingId : String := "outbox-quarantined-unprovable-binding"

def compatibilityBindingId : String := "legacy-compatibility-binding"

/-- What the worker takes from its surroundings: the digest behind the keys, the binding that
a row is written under, and the budget of failed dispatches. -/
structure Config where
  digest : String → String
  resolveBinding : String → Except String String
  maxDispatchAttempts : ℕ

/-! ### Writing -/

def requireText (name value : String) : Except String Unit :=
  raiseIf (strip value == "")
    s!"derive_idempotency_key requires a non-empty string '{name}', got '{value}'"

def deriveIdempotencyKey (cfg : Config) (topic sourceId contentFingerprint : String) :
    Except String String := do
  requireText "topic" topic
  requireText "source_id" sourceId
  requireText "content_fingerprint" contentFingerprint
  pure (cfg.digest (topic ++ "\x1f" ++ sourceId ++ "\x1f" ++ contentFingerprint))

/-- A row with the key is there, under its own identifier, in the form from before keys were
scoped, or in quarantine. -/
def keyTaken (rows : Rows) (scopedKey idempotencyKey bindingId : String) : Bool :=
  rows.items.any fun item =>
    item.1 == scopedKey ||
      (item.2.legacyKey == some idempotencyKey &&
        ((item.1 == idempotencyKey && item.2.vaultBindingId == bindingId) ||
          item.2.vaultBindingId == quarantineBindingId))

/-- `write_outbox_event`: the rows, and the identifier of the row that was inserted; `none`
for an insert that did nothing. -/
def writeOutboxEvent (cfg : Config) (rows : Rows) (event : Event) (createdAt : ℤ)
    (idempotencyKey vaultBindingId : String) : Except String (Rows × Option String) := do
  raiseIf (strip idempotencyKey == "") "write_outbox_event requires a non-empty idempotency_key"
  let bindingId ← cfg.resolveBinding vaultBindingId
  let scopedKey ← deriveIdempotencyKey cfg event.topic bindingId idempotencyKey
  pure (if keyTaken rows scopedKey idempotencyKey bindingId then (rows, none)
    else
      (rows.set scopedKey
        { event := event
          vaultBindingId := bindingId
          createdAt := createdAt
          legacyKey := some idempotencyKey
          metaBindingId := some bindingId }, some scopedKey))

/-! ### Reading -/

/-- `poll_outbox_one`: the oldest row that was not delivered and that this worker may take. -/
def pollOutboxOne (eligible : OutboxRow → Bool) (rows : Rows) : Option (String × OutboxRow) :=
  let waiting := rows.items.filter fun item =>
    !item.2.delivered && item.2.vaultBindingId != quarantineBindingId && eligible item.2
  (waiting.insertionSort fun a b => a.2.createdAt ≤ b.2.createdAt).head?

def ackOutbox (rows : Rows) (id : String) : Rows :=
  match rows.get? id with
  | some row => rows.set id { row with delivered := true }
  | none => rows

/-- `bump_outbox_attempts`: the rows, and the count after it. -/
def bumpOutboxAttempts (rows : Rows) (id : String) : Rows × ℕ :=
  match rows.get? id with
  | some row =>
      if row.delivered then (rows, 0)
      else (rows.set id { row with attempts := row.attempts + 1 }, row.attempts + 1)
  | none => (rows, 0)

/-- `pending_transfer_rows`: the identifiers of the rows of a binding that are not settled. -/
def pendingTransferRows (rows : Rows) (bindingId : String) (includeCompatibility : Bool) :
    List String :=
  (rows.items.filter fun item =>
    !item.2.delivered &&
      (item.2.vaultBindingId == bindingId ||
        (includeCompatibility && item.2.vaultBindingId == compatibilityBindingId) ||
        item.2.metaBindingId == some bindingId)).map Prod.fst

/-! ### What stays -/

variable {rows : Rows} {row : OutboxRow}

theorem mem_of_pollOutboxOne {e : OutboxRow → Bool} {id : String}
    (h : pollOutboxOne e rows = some (id, row)) :
    rows.get? id = some row ∧ row.delivered = false := by
  have hm := List.mem_of_mem_head? h
  rw [List.mem_insertionSort, List.mem_filter] at hm
  obtain ⟨hi, hw⟩ := hm
  refine ⟨Dict.mem_items.mp hi, ?_⟩
  simp only [Bool.and_eq_true, Bool.not_eq_true'] at hw
  exact hw.1.1

theorem get?_ackOutbox {id : String} (h : rows.get? id = some row) (id' : String) :
    (ackOutbox rows id).get? id' =
      if id' = id then some { row with delivered := true } else rows.get? id' := by
  simp only [ackOutbox, h, Dict.get?_set]

theorem get?_bumpOutboxAttempts (rows : Rows) (id id' : String) :
    ((bumpOutboxAttempts rows id).1.get? id').map (·.delivered) =
      (rows.get? id').map (·.delivered) := by
  unfold bumpOutboxAttempts
  cases hr : rows.get? id with
  | none => rfl
  | some row =>
    dsimp only
    split
    · rfl
    · rw [Dict.get?_set]
      split
      · next heq => rw [heq, hr, Option.map_some, Option.map_some]
      · rfl

theorem get?_writeOutboxEvent {cfg : Config} {rows' : Rows} {e : Event} {c : ℤ} {key b : String}
    {cr : Option String} (h : writeOutboxEvent cfg rows e c key b = .ok (rows', cr)) :
    (cr = none ∧ rows' = rows) ∨
      ∃ scopedKey row, cr = some scopedKey ∧ rows.get? scopedKey = none ∧
        row.delivered = false ∧ rows' = rows.set scopedKey row := by
  simp only [writeOutboxEvent, bind_eq_ok_iff, exists_unit_iff, pure_eq_ok_iff] at h
  obtain ⟨-, binding, -, scopedKey, -, hw⟩ := h
  split at hw
  · cases hw
    exact .inl ⟨rfl, rfl⟩
  · next hf =>
    cases hw
    refine .inr ⟨scopedKey, _, rfl, ?_, rfl, rfl⟩
    rw [Dict.get?_eq_none_iff]
    intro hk
    obtain ⟨row, hr⟩ := Dict.mem_keys.mp hk
    refine hf (List.any_eq_true.mpr ⟨(scopedKey, row), Dict.mem_items.mpr hr, ?_⟩)
    simp

end AgenticPkm.Outbox
