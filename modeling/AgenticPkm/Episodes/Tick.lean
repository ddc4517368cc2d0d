import AgenticPkm.Episodes.Isolation
import AgenticPkm.Lib.Checks
import AgenticPkm.Lib.Journal

/-!
# The segmentation tick

`run_segmentation_tick` reads new rows of every live stream, leaves out what a canonical note or an
open segment represents already, folds the rest and makes the result durable step by step: a note
for every closed segment, the ledger of consumed calendar signals, the open segments, the cursor of
every stream, and last the deletion of closed and retired open records.  A tick is the list of its
durable steps, and a tick that crashes a prefix of it.

A row is whatever a stream holds; its adapter normalises it to a signal or skips it.  `uuid5` is a
parameter.  Left out are the fusion gate, which does nothing without a flow provider, the
assignment of artifacts, the closure of quiet episodes and the projection into the database: none
writes notes' provenance, open records or cursors.

* `tick_boundary_invisible` — **two batches are segmented as one**.
-/

namespace AgenticPkm.Episodes

/-! ### Stored segments -/

/-- The open segments as the next tick loads them. -/
def reloaded (segments : Dict String OpenSegment) : Dict String OpenSegment :=
  segments.mapValues fun segment => .fromState segment.toState

theorem reloaded_eq (segments : Dict String OpenSegment) : reloaded segments = segments :=
  Dict.eq_of_items_eq (by simp [reloaded, Dict.mapValues])

/-- **Tick boundaries do not change segmentation.**  Without frontiers, signals that come in two
batches, the later ones observed later in each scope, give the open and closed segments of one
batch. -/
theorem tick_boundary_invisible (openSegments : OpenSegments)
    {signals later : List SegmentationSignal}
    (h : ∀ a ∈ signals, ∀ b ∈ later, a.scope = b.scope → a.observedAt ≤ b.observedAt)
    (scope : String) :
    let first := foldSignalsIntoSegments signals openSegments.segments
    let second := foldSignalsIntoSegments later (reloaded first.openSegments)
    let whole := foldSignalsIntoSegments (signals ++ later) openSegments.segments
    second.openSegments.get? scope = whole.openSegments.get? scope ∧
      closedOf scope (first.closedSegments ++ second.closedSegments) =
        closedOf scope whole.closedSegments := by
  intro first second whole
  simp only [second, reloaded_eq]
  have hord : inOrder (ofScope scope (signals ++ later)) =
      inOrder (ofScope scope signals) ++ inOrder (ofScope scope later) := by
    rw [ofScope, List.filter_append]
    refine sortedBy_append fun a ha b hb => ?_
    simp only [List.mem_filter, decide_eq_true_eq] at ha hb
    exact h a ha.1 b hb.1 (ha.2.trans hb.2.symm)
  -- each fold, seen through the scope, is a walk
  have hf := view_fold signals openSegments ∅ scope
  have hw := view_fold (signals ++ later) openSegments ∅ scope
  have hs := view_fold later (foldedSegments signals openSegments ∅) ∅ scope
  rw [show (foldedSegments signals openSegments ∅).segments.get? scope = _ from
    congrArg Prod.fst hf] at hs
  simp only [scopeFold, Dict.get?_empty, quiesceScope_none, hord, walk_append] at hf hs hw
  refine ⟨(congrArg Prod.fst hs).trans (congrArg Prod.fst hw).symm, ?_⟩
  rw [closedOf_append]
  exact (congrArg₂ _ (congrArg Prod.snd hf) (congrArg Prod.snd hs)).trans
    (congrArg Prod.snd hw).symm

/-- A morning in two ticks. -/
theorem morning_in_two_ticks :
    (foldSignalsIntoSegments [Sample.signal "work" "w2" 90] (reloaded (foldSignalsIntoSegments
        [Sample.signal "work" "w1" 0] OpenSegments.none.segments).openSegments)).openSegments.get?
        "work" =
      (foldSignalsIntoSegments [Sample.signal "work" "w1" 0, Sample.signal "work" "w2" 90]
        OpenSegments.none.segments).openSegments.get? "work" :=
  (tick_boundary_invisible OpenSegments.none (by decide) "work").1

/-! ### Notes and the durable state -/

/-- What a proposed episode note records of its segment. -/
structure EpisodeNote where
  scope : String
  start : ℤ
  endAt : ℤ
  protagonists : List String
  goal : List String
  derivedFrom : List String
  deriving DecidableEq, Repr

def noteOf (closed : ClosedSegment) : EpisodeNote where
  scope := closed.scope
  start := closed.start
  endAt := closed.endAt
  protagonists := closed.protagonists
  goal := closed.goal
  derivedFrom := closed.derivedFrom

/-- The identifier of the episode that a provenance reference founds in a scope. -/
def episodeIdOf (uuid5 : String → String) (scope firstRef : String) : String :=
  "ep-" ++ uuid5 (scope ++ "|" ++ firstRef)

def deterministicEpisodeId (uuid5 : String → String) (closed : ClosedSegment) : String :=
  episodeIdOf uuid5 closed.scope (closed.derivedFrom.head?.getD "")

def calendarConsumedSignalKey (scope signalId : String) : String :=
  "calendar_consumed_signal:" ++ toString scope.length ++ ":" ++ scope ++ ":" ++ signalId

def calendarStreamId : String := "calendar"

/-- The durable state: the canonical notes by identifier, the open-segment records by
scope, the ledger of consumed calendar signals and the cursor of every stream. -/
structure EngineStore where
  notes : Dict String EpisodeNote := ∅
  openRecords : Dict String SegmentState := ∅
  consumedCalendar : List String := []
  cursors : String → ℕ := fun _ => 0

/-- The live streams: their rows, oldest first, and their adapters.  A row that the
adapter leaves out of its read, or skips, is normalised to nothing. -/
structure Feed (ρ : Type) where
  streams : List String
  rows : String → List ρ
  normalize : String → ρ → Option SegmentationSignal
  /-- A signal carries the identifier of its stream. -/
  stamped : ∀ {stream : String} {row : ρ} {signal : SegmentationSignal},
    normalize stream row = some signal → signal.streamId = stream

/-- The calendar re-polls a window of its rows; it has no cursor. -/
def isPolled (stream : String) : Bool := stream == calendarStreamId

/-! ### Durable steps -/

/-- One durable step of a tick. -/
inductive DurableStep
  | emit (closed : ClosedSegment)
  | consume (key : String)
  | persist (scope : String) (state : SegmentState)
  | advance (stream : String) (position : ℕ)
  | delete (scope : String)
  deriving DecidableEq, Repr

/-- What a durable step does.  A note that exists is not written again. -/
def applyStep (uuid5 : String → String) (store : EngineStore) : DurableStep → EngineStore
  | .emit closed =>
      match store.notes.get? (deterministicEpisodeId uuid5 closed) with
      | some _ => store
      | none =>
          { store with
            notes := store.notes.set (deterministicEpisodeId uuid5 closed) (noteOf closed) }
  | .consume key => { store with consumedCalendar := store.consumedCalendar ++ [key] }
  | .persist scope state => { store with openRecords := store.openRecords.set scope state }
  | .advance stream position =>
      { store with
        cursors := fun other => if other = stream then position else store.cursors other }
  | .delete scope => { store with openRecords := store.openRecords.erase scope }

/-- The state after a number of durable steps. -/
def applySteps (uuid5 : String → String) (store : EngineStore) (steps : List DurableStep) :
    EngineStore :=
  Journal.after (applyStep uuid5) store steps

/-! ### One tick -/

section Tick

variable {ρ : Type} (uuid5 : String → String) (feed : Feed ρ) (store : EngineStore)
  (batch : String → List ρ)

def readSignals : List SegmentationSignal :=
  feed.streams.flatMap fun stream => (batch stream).filterMap (feed.normalize stream)

def loadedSegments : List (String × OpenSegment) :=
  store.openRecords.items.map fun item => (item.1, OpenSegment.fromState item.2)

/-- The canonical note of an open segment: its own note was written already. -/
def staleNote (item : String × OpenSegment) : Option EpisodeNote :=
  store.notes.get? (deterministicEpisodeId uuid5 (close item.2))

/-- The open segments without the stale ones. -/
def carriedSegments : Dict String OpenSegment where
  items := (loadedSegments store).filter fun item => (staleNote uuid5 store item).isNone
  distinct := by
    refine List.Nodup.sublist ((List.filter_sublist).map _) ?_
    have hkeys : (loadedSegments store).map Prod.fst = store.openRecords.keys := by
      simp [loadedSegments, Dict.keys, List.map_map, Function.comp_def]
    rw [hkeys]
    exact store.openRecords.nodup_keys

/-- The scopes whose open record is stale. -/
def retiredScopes : List String :=
  ((loadedSegments store).filter fun item => (staleNote uuid5 store item).isSome).map Prod.fst

/-- The note of an open segment belongs to another scope. -/
def conflictsWithNote (item : String × OpenSegment) : Bool :=
  (staleNote uuid5 store item).any fun note => note.scope != item.1

/-- The source identity of a signal is in a canonical note. -/
def inNotes (notes : Dict String EpisodeNote) (scope ref : String) : Bool :=
  notes.values.any fun note => note.scope = scope && note.derivedFrom.contains ref

/-- The source identity of a signal is in the open segment of its scope. -/
def inOpen (segments : Dict String OpenSegment) (scope ref : String) : Bool :=
  (segments.get? scope).any fun segment => segment.derivedFrom.contains ref

/-- A calendar signal whose segment was closed before. -/
def isConsumedCalendar (signal : SegmentationSignal) : Bool :=
  signal.streamId == calendarStreamId &&
    store.consumedCalendar.contains (calendarConsumedSignalKey signal.scope signal.signalId)

/-- The signals that are folded: neither consumed nor represented. -/
def foldSignals : List SegmentationSignal :=
  ((readSignals feed batch).filter fun signal => !isConsumedCalendar store signal).filter
    fun signal =>
      !(inNotes store.notes signal.scope signal.provenanceRef ||
        inOpen (carriedSegments uuid5 store) signal.scope signal.provenanceRef)

/-- One signal of the frontier pass. -/
def raiseFrontier (frontiers : Dict String ℤ) (signal : SegmentationSignal) : Dict String ℤ :=
  match frontiers.get? signal.scope with
  | none => frontiers.set signal.scope signal.observedAt
  | some current =>
      if signal.observedAt > current then frontiers.set signal.scope signal.observedAt
      else frontiers

/-- `scope_frontiers`: the latest start of a signal, scope by scope. -/
def scopeFrontiers (signals : List SegmentationSignal) : Dict String ℤ :=
  signals.foldl raiseFrontier ∅

def tickSegmentation : Segmentation :=
  let signals := foldSignals uuid5 feed store batch
  foldSignalsIntoSegments signals (carriedSegments uuid5 store) (scopeFrontiers signals)

def calendarSteps (closed : ClosedSegment) : List DurableStep :=
  (closed.derivedFrom.filter fun ref => ref.startsWith "calendar:").map fun ref =>
    .consume (calendarConsumedSignalKey closed.scope (ref.drop "calendar:".length).toString)

/-- The new position of a stream: past the rows that were read.  A polled stream has no
cursor to move. -/
def advanceSteps : List DurableStep :=
  (feed.streams.filter fun stream => !isPolled stream).map fun stream =>
    .advance stream (store.cursors stream + (batch stream).length)

def persistSteps : List DurableStep :=
  (tickSegmentation uuid5 feed store batch).openSegments.items.map fun item =>
    .persist item.1 item.2.toState

/-- `closed_scopes`: the scopes whose open record is deleted last. -/
def closedScopes : List String :=
  (((tickSegmentation uuid5 feed store batch).closedSegments.map ClosedSegment.scope ++
      retiredScopes uuid5 store).dedup).filter fun scope =>
    scope ∉ (tickSegmentation uuid5 feed store batch).openSegments.keys

/-- The durable steps of a tick, up to the deletions. -/
def tickSteps : List DurableStep :=
  let closed := (tickSegmentation uuid5 feed store batch).closedSegments
  closed.map .emit ++ (closed.flatMap calendarSteps ++
    (persistSteps uuid5 feed store batch ++ advanceSteps feed store batch))

/-- `run_segmentation_tick`.  A note of another scope under the identifier of an open
segment stops the tick before any durable step. -/
def runSegmentationTick : Except String (List DurableStep) := do
  raiseIf ((loadedSegments store).any (conflictsWithNote uuid5 store))
    "canonical episode conflicts with open scope"
  pure (tickSteps uuid5 feed store batch)

/-- The rows a tick may read: the next rows of a stream, any number of them; of a polled
stream, any of its rows. -/
def Feed.Reads : Prop :=
  ∀ stream, if isPolled stream then (batch stream).Sublist (feed.rows stream)
    else batch stream <+: (feed.rows stream).drop (store.cursors stream)

/-- **The stores after any sequence of complete and crashed ticks.**  A tick reads some
rows and stops after any number of its durable steps; the closed records are deleted
last, in any order.  A tick that raises leaves the store as it was. -/
inductive Feed.Reaches : EngineStore → Prop
  | start : Reaches {}
  | tick {store : EngineStore} {batch : String → List ρ} {steps : List DurableStep}
      {deletions : List String} (before : Reaches store) (reads : feed.Reads store batch)
      (ran : runSegmentationTick uuid5 feed store batch = .ok steps)
      (deleted : deletions.Perm (closedScopes uuid5 feed store batch)) (k : ℕ) :
      Reaches (applySteps uuid5 store ((steps ++ deletions.map DurableStep.delete).take k))

end Tick

end AgenticPkm.Episodes
