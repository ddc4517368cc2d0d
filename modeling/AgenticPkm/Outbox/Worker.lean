import AgenticPkm.Outbox.Rows
import AgenticPkm.Lib.Journal

/-!
# The outbox worker

A tick of the worker polls one row, dispatches it to the handler of its topic and acknowledges it.
A handler that cannot proceed yet defers its row: it writes a retry row and returns, and the row
itself is acknowledged.  `run` skips events it has dispatched before, and copies the identifier of
the envelope into the payload; `run_once`, which also drives `drain_binding_outbox`, does neither.

A handler returns, asks for a retry, finds its row invalid or raises; which is left open.  The
worker keeps two records that the code does not have: the events that `run` has dispatched, and
how each row came to be acknowledged.
-/

namespace AgenticPkm.Outbox

inductive Handling
  | returns
  /-- `_queue_transient_retry` is called for the note. -/
  | defers (notePath reason : String)
  /-- `InvalidPanelNoteUUIDDispatchError` or `SchemaViolationDispatchError`. -/
  | rejects (reason error : String)
  /-- Any other exception. -/
  | raises (transient : Bool) (name error : String)
  deriving DecidableEq, Repr

structure Environment where
  handling : Handling
  /-- The identifier of an event that is made during the tick. -/
  freshEventId : String
  now : ℤ
  /-- A row cannot be written. -/
  writeRaises : Bool := false
  /-- The audit file cannot be appended to. -/
  auditRaises : Bool := false
  deriving DecidableEq, Repr

/-- A record of `outbox.event.dead_lettered`. -/
inductive DeadLetter
  | retryExhausted (originalTopic originalEventId notePath reason : String) (retryCount : ℕ)
  | poisoned (originalTopic originalEventId outboxId reason : String) (attempts : ℕ)
      (error : String)
  deriving DecidableEq, Repr

/-- How a row came to be acknowledged. -/
inductive Ack
  /-- Its dispatch returned, and the row was not deferred. -/
  | succeeded
  | deadLettered (letter : DeadLetter)
  /-- `run` had dispatched an event with this identifier. -/
  | duplicate (eventId : String)
  /-- It was deferred; the identifier of the retry row that was inserted for it, if one
  was. -/
  | deferred (created : Option String)
  deriving DecidableEq, Repr

/-- The record of a row: how it came to be acknowledged, and if `run` had by then dispatched a row
with its event identifier. -/
structure AckRecord where
  how : Ack
  repeats : Bool
  deriving DecidableEq, Repr

/-- The rows, the events of `_EVENT_DEDUP`, the audit file, and the two records. -/
structure Worker where
  rows : Rows
  seen : List String := []
  audit : List DeadLetter := []
  dispatched : List String := []
  acks : Dict String AckRecord := ∅

/-! ### Retries -/

def maxTransientRetryAttempts : ℕ := 3

def deadLetteredTopic : String := "outbox.event.dead_lettered"

def payloadRetryCount (payload : Payload) : ℕ := (payload.retryCount.getD 0).toNat

/-- `_original_event_id`; no handler gives an identifier of its own. -/
def originalEventId (payload : Payload) : String :=
  match payload.eventId.filter (· ≠ "") with
  | some eventId => eventId
  | none => payload.originalEventId.getD ""

/-- What a retry or a dead letter is about: the original event, or the note. -/
def retrySource (payload : Payload) (notePath : String) : String :=
  if originalEventId payload = "" then notePath else originalEventId payload

def retryFingerprint (payload : Payload) (reason : String) : String :=
  let attempt := payloadRetryCount payload + 1
  s!"retry:{attempt}:{reason}"

/-- The write of the retry row. -/
def writeRetry (cfg : Config) (rows : Rows) (env : Environment) (topic : String)
    (payload : Payload) (notePath reason vaultBindingId : String) :
    Except String (Rows × Option String) := do
  let retryEvent : Event :=
    { eventId := env.freshEventId
      topic := topic
      payload := { payload with retryCount := some ↑(payloadRetryCount payload + 1) } }
  let key ← deriveIdempotencyKey cfg topic (retrySource payload notePath)
    (retryFingerprint payload reason)
  raiseIf env.writeRaises "worker retry enqueue failed"
  writeOutboxEvent cfg rows retryEvent env.now key vaultBindingId

/-- A dead letter goes to the audit file and then, as far as that works, to the outbox; what raises
is logged, and the caller goes on. -/
def emitDeadLetter (cfg : Config) (worker : Worker) (env : Environment) (letter : DeadLetter)
    (originalEventId sourceId fingerprint vaultBindingId : String) : Worker :=
  let event : Event :=
    { eventId := env.freshEventId
      topic := deadLetteredTopic
      payload := { originalEventId := some originalEventId } }
  let written : Except String (Rows × Option String) := do
    let key ← deriveIdempotencyKey cfg deadLetteredTopic sourceId fingerprint
    raiseIf env.writeRaises "worker dead-letter audit failed"
    writeOutboxEvent cfg worker.rows event env.now key vaultBindingId
  if env.auditRaises then worker
  else
    { worker with
      audit := worker.audit ++ [letter]
      rows := (written.toOption.map Prod.fst).getD worker.rows }

/-- What `_queue_transient_retry` did. -/
inductive Queued
  /-- It returned true. -/
  | queued (created : Option String)
  /-- It returned false, the attempts are used up. -/
  | exhausted (letter : DeadLetter)
  /-- It returned false, the retry could not be written. -/
  | failed
  deriving DecidableEq, Repr

/-- `_queue_transient_retry`.  It does not look at whether a row was inserted. -/
def queueTransientRetry (cfg : Config) (worker : Worker) (env : Environment) (topic : String)
    (payload : Payload) (notePath reason vaultBindingId : String) : Worker × Queued :=
  let retryCount := payloadRetryCount payload
  if maxTransientRetryAttempts ≤ retryCount then
    let letter := .retryExhausted topic (originalEventId payload) notePath reason retryCount
    (emitDeadLetter cfg worker env letter (originalEventId payload) (retrySource payload notePath)
      s!"retry-exhausted:{reason}:{retryCount}" vaultBindingId, .exhausted letter)
  else
    match writeRetry cfg worker.rows env topic payload notePath reason vaultBindingId with
    | .ok (rows, created) => ({ worker with rows := rows }, .queued created)
    | .error _ => (worker, .failed)

/-! ### Dispatch -/

/-- What came of a dispatch. -/
inductive Dispatched
  | returned (ack : Ack)
  | rejected (reason error : String)
  | raised (transient : Bool) (name error : String)
  deriving DecidableEq, Repr

/-- `_dispatch_topic`, with the answer of the handler to its retry. -/
def dispatchTopic (cfg : Config) (worker : Worker) (env : Environment) (row : OutboxRow)
    (payload : Payload) : Worker × Dispatched :=
  match env.handling with
  | .returns => (worker, .returned .succeeded)
  | .rejects reason error => (worker, .rejected reason error)
  | .raises transient name error => (worker, .raised transient name error)
  | .defers notePath reason =>
      match queueTransientRetry cfg worker env row.event.topic payload notePath reason
          row.vaultBindingId with
      | (worker, .queued created) => (worker, .returned (.deferred created))
      | (worker, .exhausted letter) => (worker, .returned (.deadLettered letter))
      | (worker, .failed) =>
          (worker, .raised true "TransientRetryEnqueueError" "failed to queue retry")

/-- `run` has dispatched a row with the event identifier of this one. -/
def Worker.repeats (worker : Worker) (row : OutboxRow) : Bool :=
  row.event.eventId ≠ "" ∧ row.event.eventId ∈ worker.dispatched

/-- `ack_outbox`, with the record. -/
def Worker.ack (worker : Worker) (id : String) (ack : AckRecord) : Worker :=
  { worker with rows := ackOutbox worker.rows id, acks := worker.acks.set id ack }

def deadLetterAndAck (cfg : Config) (worker : Worker) (env : Environment) (id : String)
    (row : OutboxRow) (payload : Payload) (reason : String) (attempts : ℕ) (error : String)
    (repeats : Bool) : Worker :=
  let letter := .poisoned row.event.topic (originalEventId payload) id reason attempts error
  (emitDeadLetter cfg worker env letter (originalEventId payload) id s!"poison:{attempts}"
    row.vaultBindingId).ack id ⟨.deadLettered letter, repeats⟩

/-- The budget of failed dispatches is spent. -/
def budgetSpent (cfg : Config) (attempts : ℕ) : Prop :=
  attempts ≠ 0 ∧ cfg.maxDispatchAttempts ≤ attempts

instance (cfg : Config) (attempts : ℕ) : Decidable (budgetSpent cfg attempts) :=
  inferInstanceAs (Decidable (_ ∧ _))

/-- `_record_failed_dispatch`: the row is given up once its budget is spent. -/
def recordFailedDispatch (cfg : Config) (worker : Worker) (env : Environment) (id : String)
    (row : OutboxRow) (payload : Payload) (name error : String) (repeats : Bool) :
    Worker × Bool :=
  let (rows, attempts) := bumpOutboxAttempts worker.rows id
  let worker := { worker with rows := rows }
  if budgetSpent cfg attempts then
    (deadLetterAndAck cfg worker env id row payload s!"dispatch_failed:{name}" attempts error
      repeats, true)
  else (worker, false)

inductive TickResult
  | idle
  | processed
  | raised
  deriving DecidableEq, Repr

def runOnce (cfg : Config) (eligible : OutboxRow → Bool) (env : Environment) (worker : Worker) :
    Worker × TickResult :=
  match pollOutboxOne eligible worker.rows with
  | none => (worker, .idle)
  | some (id, row) =>
      let repeats := worker.repeats row
      match dispatchTopic cfg worker env row row.event.payload with
      | (worker, .returned ack) => (worker.ack id ⟨ack, repeats⟩, .processed)
      | (worker, .rejected reason error) =>
          (deadLetterAndAck cfg worker env id row row.event.payload reason 0 error repeats,
            .processed)
      | (worker, .raised ..) => (worker, .raised)

/-- `_EventDedup.seen` adds an event; of too many it forgets half. -/
def remember (seen : List String) (eventId : String) : List String :=
  let seen := seen ++ [eventId]
  if seen.length > 2048 then seen.drop (seen.length - 1024) else seen

/-- The payload that `run` dispatches. -/
def withEventId (payload : Payload) (eventId : String) : Payload :=
  if eventId ≠ "" ∧ payload.eventId.getD "" = "" then { payload with eventId := some eventId }
  else payload

/-- The worker once `run` has seen the event. -/
def Worker.sawEvent (worker : Worker) (eventId : String) : Worker :=
  { worker with
    seen := if eventId = "" then worker.seen else remember worker.seen eventId
    dispatched := worker.dispatched ++ [eventId] }

def run (cfg : Config) (eligible : OutboxRow → Bool) (env : Environment) (worker : Worker) :
    Worker × TickResult :=
  match pollOutboxOne eligible worker.rows with
  | none => (worker, .idle)
  | some (id, row) =>
      let eventId := row.event.eventId
      let repeats := worker.repeats row
      if eventId ≠ "" ∧ eventId ∈ worker.seen then
        (worker.ack id ⟨.duplicate eventId, repeats⟩, .processed)
      else
        let payload := withEventId row.event.payload eventId
        match dispatchTopic cfg (worker.sawEvent eventId) env row payload with
        | (worker, .returned ack) => (worker.ack id ⟨ack, repeats⟩, .processed)
        | (worker, .rejected reason error) =>
            (deadLetterAndAck cfg worker env id row payload reason 0 error repeats, .processed)
        | (worker, .raised true ..) => (worker, .raised)
        | (worker, .raised false name error) =>
            match recordFailedDispatch cfg worker env id row payload name error repeats with
            | (worker, true) => (worker, .processed)
            | (worker, false) => (worker, .raised)

/-! ### Sequences of ticks -/

inductive Tick
  | run (eligible : OutboxRow → Bool) (env : Environment)
  | runOnce (eligible : OutboxRow → Bool) (env : Environment)
  /-- The process starts again. -/
  | restart

def Worker.step (cfg : Config) (worker : Worker) : Tick → Worker
  | .run eligible env => (Outbox.run cfg eligible env worker).1
  | .runOnce eligible env => (Outbox.runOnce cfg eligible env worker).1
  | .restart => { worker with seen := [] }

/-- The loop of `drain_binding_outbox`: the worker at its end, how many ticks it took, and the
rows that it settled. -/
def drainLoop (cfg : Config) (eligible : OutboxRow → Bool) (bindingId : String)
    (includeCompatibility : Bool) (env : ℕ → Environment) :
    ℕ → ℕ → Worker → List String → Worker × ℕ × Except String (List String)
  | 0, ticks, worker, _ =>
      (worker, ticks, .error "source queue drain exceeded its bounded budget")
  | fuel + 1, ticks, worker, settled =>
      let pending := pendingTransferRows worker.rows bindingId includeCompatibility
      if pending = [] then (worker, ticks, .ok settled)
      else
        let (worker, result) := runOnce cfg eligible (env ticks) worker
        let remaining := pendingTransferRows worker.rows bindingId includeCompatibility
        let newlySettled := pending.filter (· ∉ remaining)
        if result = .raised then (worker, ticks + 1, .error "the dispatch raised")
        else if result ≠ .processed ∨ (newlySettled = [] ∧ ∀ id ∈ remaining, id ∈ pending) then
          (worker, ticks + 1,
            .error "source queue has unsettled or stale rows; transfer is not ready")
        else
          drainLoop cfg eligible bindingId includeCompatibility env fuel (ticks + 1) worker
            (settled ++ newlySettled.insertionSort (· ≤ ·))

/-- The rows that a drain may take. -/
def drainEligible (bindingId : String) (includeCompatibility : Bool) (row : OutboxRow) : Bool :=
  row.vaultBindingId == bindingId ||
    (includeCompatibility && row.vaultBindingId == compatibilityBindingId)

def drainBindingOutbox (cfg : Config) (bindingId : String) (includeCompatibility : Bool)
    (env : ℕ → Environment) (worker : Worker) : Worker × ℕ × Except String (List String) :=
  drainLoop cfg (drainEligible bindingId includeCompatibility) bindingId includeCompatibility env
    10000 0 worker []

inductive Call
  | tick (tick : Tick)
  | drain (bindingId : String) (includeCompatibility : Bool) (env : ℕ → Environment)

namespace Worker

def call (cfg : Config) (worker : Worker) : Call → Worker
  | .tick tick => worker.step cfg tick
  | .drain bindingId includeCompatibility env =>
      (drainBindingOutbox cfg bindingId includeCompatibility env worker).1

def after (cfg : Config) (rows : Rows) (calls : List Call) : Worker :=
  Journal.after (call cfg) { rows := rows } calls

def ticksOf (cfg : Config) (worker : Worker) : Call → List Tick
  | .tick tick => [tick]
  | .drain bindingId includeCompatibility env =>
      let ticks := (drainBindingOutbox cfg bindingId includeCompatibility env worker).2.1
      (List.range ticks).map fun i =>
        .runOnce (drainEligible bindingId includeCompatibility) (env i)

def allTicks (cfg : Config) (worker : Worker) : List Call → List Tick
  | [] => []
  | call :: calls => worker.ticksOf cfg call ++ (worker.call cfg call).allTicks cfg calls

end Worker

/-! ### A drain is a sequence of ticks -/

theorem drainLoop_eq (cfg : Config) (eligible : OutboxRow → Bool) (bindingId : String)
    (compatibility : Bool) (env : ℕ → Environment) (fuel ticks : ℕ) (worker : Worker)
    (settled : List String) :
    ∃ n, (drainLoop cfg eligible bindingId compatibility env fuel ticks worker settled).2.1 =
        ticks + n ∧
      (drainLoop cfg eligible bindingId compatibility env fuel ticks worker settled).1 =
        Journal.after (Worker.step cfg) worker
          ((List.range n).map fun i => .runOnce eligible (env (ticks + i))) := by
  induction fuel generalizing ticks worker settled with
  | zero => exact ⟨0, rfl, rfl⟩
  | succ fuel ih =>
    rw [drainLoop]
    dsimp only
    split
    · exact ⟨0, rfl, rfl⟩
    · split
      · exact ⟨1, rfl, rfl⟩
      · split
        · exact ⟨1, rfl, rfl⟩
        · -- one tick, and then those of the rest of the loop
          obtain ⟨n, hn, hw⟩ := ih (ticks + 1) _ _
          refine ⟨n + 1, by rw [hn]; omega, ?_⟩
          rw [hw, List.range_succ_eq_map, List.map_cons, List.map_map]
          have hs : ((fun i => Tick.runOnce eligible (env (ticks + i))) ∘ Nat.succ) =
              fun i => Tick.runOnce eligible (env (ticks + 1 + i)) := by
            funext i
            simp only [Function.comp_apply]
            congr 2
            omega
          rw [hs]
          rfl

namespace Worker

theorem call_eq (cfg : Config) (w : Worker) (call : Call) :
    w.call cfg call = Journal.after (step cfg) w (w.ticksOf cfg call) := by
  cases call with
  | tick tick => rfl
  | drain b i env =>
    obtain ⟨n, hn, hw⟩ := drainLoop_eq cfg (drainEligible b i) b i env 10000 0 w []
    rw [zero_add] at hn
    simp only [zero_add] at hw
    simp only [Worker.call, ticksOf, drainBindingOutbox, hn]
    exact hw

theorem after_eq (cfg : Config) (w : Worker) (c : List Call) :
    Journal.after (call cfg) w c = Journal.after (step cfg) w (w.allTicks cfg c) := by
  induction c generalizing w with
  | nil => rfl
  | cons call c ih =>
    rw [allTicks, Journal.after_append, ← call_eq]
    exact ih _

end Worker

end AgenticPkm.Outbox
