import AgenticPkm.Lib.Dict
import AgenticPkm.Lib.KeyedList
import Mathlib.Data.Finset.Sort
import Mathlib.Data.Finset.Lattice.Basic
import Mathlib.Data.String.Basic

/-!
# Signals, segments and the segmentation fold

The segmenter of `app/episodes/segmenter.py` cuts the signals of each scope into segments.  The
next signal of a scope, in the order of observation, closes the open segment when a shift is
detected and extends it otherwise.  After the walk, a segment is closed as quiescent when the
read position of its own scope has moved past it by more than the time gap.

Instants are integers, in microseconds.  A `frozenset` of strings is a `Finset`, and the
dictionaries keep their insertion order.  The screen dimensions of a signal are not read by the
core, and are left out.
-/

namespace AgenticPkm.Episodes

def timeGapMinutes : ℤ := 45

def timeGap : ℤ := timeGapMinutes * 60 * 1000000

/-! ### Signals and segments -/

/-- One stream's contribution to the segmenter, normalised. -/
structure SegmentationSignal where
  streamId : String
  signalId : String
  observedAt : ℤ
  scope : String
  provenanceRef : String
  observedAtEnd : Option ℤ := none
  protagonists : List String := []
  goal : List String := []
  heimdalSessionId : Option String := none
  causalBreak : Bool := false
  deriving DecidableEq, Repr

/-- `SegmentationSignal.observed_until`: the latest instant a signal evidences. -/
def SegmentationSignal.observedUntil (signal : SegmentationSignal) : ℤ :=
  match signal.observedAtEnd with
  | some observedEnd => if observedEnd > signal.observedAt then observedEnd else signal.observedAt
  | none => signal.observedAt

structure OpenSegment where
  scope : String
  start : ℤ
  lastSignalAt : ℤ
  heimdalSessionId : Option String := none
  protagonists : Finset String := ∅
  goal : Finset String := ∅
  derivedFrom : List String := []
  signalIds : Finset String := ∅
  deriving DecidableEq

structure ClosedSegment where
  scope : String
  start : ℤ
  endAt : ℤ
  heimdalSessionId : Option String
  protagonists : List String
  goal : List String
  derivedFrom : List String
  deriving DecidableEq, Repr

/-! ### Shift detection -/

/-- `_disjoint_set_shift`: both sides carry evidence, and share none of it. -/
def disjointSetShift (enabled : Bool) (openSet signalSet : Finset String) : Bool :=
  if !enabled then false
  else if openSet = ∅ ∨ signalSet = ∅ then false
  else decide (Disjoint openSet signalSet)

def goalShiftDetectionEnabled : Bool := true

def protagonistShiftDetectionEnabled : Bool := true

def causalBreakDetectionEnabled : Bool := true

def causalBreak (signal : SegmentationSignal) : Bool :=
  causalBreakDetectionEnabled && signal.causalBreak

/-- The signal continues the session the segment is bound to. -/
def continuesSession (segment : OpenSegment) (signal : SegmentationSignal) : Bool :=
  signal.heimdalSessionId.isSome && signal.heimdalSessionId == segment.heimdalSessionId

/-- `detect_shift`: whether `signal` closes `segment` and starts a new one. -/
def detectShift (segment : OpenSegment) (signal : SegmentationSignal) : Bool :=
  if continuesSession segment signal then false
  else if signal.observedAt - segment.lastSignalAt > timeGap then true
  else if disjointSetShift goalShiftDetectionEnabled segment.goal signal.goal.toFinset then true
  else if disjointSetShift protagonistShiftDetectionEnabled segment.protagonists
      signal.protagonists.toFinset then true
  else if causalBreak signal then true
  else false

/-! ### Opening, extending and closing a segment -/

def newOpenSegment (signal : SegmentationSignal) : OpenSegment where
  scope := signal.scope
  start := signal.observedAt
  lastSignalAt := signal.observedUntil
  heimdalSessionId := signal.heimdalSessionId
  protagonists := signal.protagonists.toFinset
  goal := signal.goal.toFinset
  derivedFrom := [signal.provenanceRef]
  signalIds := {signal.signalId}

/-- `open_segment.heimdal_session_id or signal.heimdal_session_id`: an empty id is as
good as none. -/
def orSession : Option String → Option String → Option String
  | none, other => other
  | some session, other => if session = "" then other else some session

/-- `_extend_open_segment`: a signal that is already recorded changes nothing. -/
def extendOpenSegment (segment : OpenSegment) (signal : SegmentationSignal) : OpenSegment :=
  if signal.signalId ∈ segment.signalIds then segment
  else
    { segment with
      start := min segment.start signal.observedAt
      lastSignalAt := max segment.lastSignalAt signal.observedUntil
      heimdalSessionId := orSession segment.heimdalSessionId signal.heimdalSessionId
      protagonists := segment.protagonists ∪ signal.protagonists.toFinset
      goal := segment.goal ∪ signal.goal.toFinset
      derivedFrom :=
        if signal.provenanceRef ∈ segment.derivedFrom then segment.derivedFrom
        else segment.derivedFrom ++ [signal.provenanceRef]
      signalIds := segment.signalIds ∪ {signal.signalId} }

def close (segment : OpenSegment) : ClosedSegment where
  scope := segment.scope
  start := segment.start
  endAt := segment.lastSignalAt
  heimdalSessionId := segment.heimdalSessionId
  protagonists := segment.protagonists.sort (· ≤ ·)
  goal := segment.goal.sort (· ≤ ·)
  derivedFrom := segment.derivedFrom

@[simp] theorem newOpenSegment_scope (s : SegmentationSignal) :
    (newOpenSegment s).scope = s.scope := rfl

@[simp] theorem newOpenSegment_derivedFrom (s : SegmentationSignal) :
    (newOpenSegment s).derivedFrom = [s.provenanceRef] := rfl

@[simp] theorem newOpenSegment_signalIds (s : SegmentationSignal) :
    (newOpenSegment s).signalIds = {s.signalId} := rfl

@[simp] theorem extendOpenSegment_scope (s : OpenSegment) (sg : SegmentationSignal) :
    (extendOpenSegment s sg).scope = s.scope := by
  unfold extendOpenSegment
  split <;> rfl

variable {segment : OpenSegment}

theorem extendOpenSegment_of_mem {s : SegmentationSignal}
    (h : s.signalId ∈ segment.signalIds) : extendOpenSegment segment s = segment :=
  if_pos h

@[simp] theorem close_scope (s : OpenSegment) : (close s).scope = s.scope := rfl

@[simp] theorem close_derivedFrom (s : OpenSegment) : (close s).derivedFrom = s.derivedFrom := rfl

/-! ### The walk over one scope -/

/-- One signal of the walk: the current segment and the segments closed so far. -/
def walkStep (acc : Option OpenSegment × List ClosedSegment) (signal : SegmentationSignal) :
    Option OpenSegment × List ClosedSegment :=
  match acc.1 with
  | none => (some (newOpenSegment signal), acc.2)
  | some current =>
      if detectShift current signal then (some (newOpenSegment signal), acc.2 ++ [close current])
      else (some (extendOpenSegment current signal), acc.2)

/-- The walk over the ordered signals of one scope. -/
def walk (current : Option OpenSegment) (ordered : List SegmentationSignal) :
    Option OpenSegment × List ClosedSegment :=
  ordered.foldl walkStep (current, [])

/-- A signal extends or replaces the current segment. -/
def nextSegment (current : Option OpenSegment) (signal : SegmentationSignal) : OpenSegment :=
  match current with
  | none => newOpenSegment signal
  | some segment =>
      if detectShift segment signal then newOpenSegment signal
      else extendOpenSegment segment signal

def closedBy (current : Option OpenSegment) (signal : SegmentationSignal) : List ClosedSegment :=
  match current with
  | none => []
  | some segment => if detectShift segment signal then [close segment] else []

theorem nextSegment_of_shift {signal : SegmentationSignal} (h : detectShift segment signal) :
    nextSegment (some segment) signal = newOpenSegment signal :=
  if_pos h

theorem nextSegment_of_no_shift {signal : SegmentationSignal}
    (h : detectShift segment signal = false) :
    nextSegment (some segment) signal = extendOpenSegment segment signal :=
  if_neg (by simp [h])

theorem closedBy_of_shift {s : SegmentationSignal} (h : detectShift segment s) :
    closedBy (some segment) s = [close segment] :=
  if_pos h

theorem closedBy_of_no_shift {s : SegmentationSignal}
    (h : detectShift segment s = false) : closedBy (some segment) s = [] :=
  if_neg (by simp [h])

theorem walkStep_eq (acc : Option OpenSegment × List ClosedSegment) (s : SegmentationSignal) :
    walkStep acc s = (some (nextSegment acc.1 s), acc.2 ++ closedBy acc.1 s) := by
  obtain ⟨current, closed⟩ := acc
  cases current with
  | none => simp [walkStep, nextSegment, closedBy]
  | some segment =>
    cases hs : detectShift segment s with
    | true => simp [walkStep, hs, nextSegment_of_shift, closedBy_of_shift]
    | false => simp [walkStep, hs, nextSegment_of_no_shift, closedBy_of_no_shift]

@[simp] theorem walk_nil (c : Option OpenSegment) : walk c [] = (c, []) := rfl

theorem foldl_walkStep (c : Option OpenSegment) (cl : List ClosedSegment)
    (o : List SegmentationSignal) :
    o.foldl walkStep (c, cl) = ((walk c o).1, cl ++ (walk c o).2) := by
  induction o generalizing c cl with
  | nil => simp
  | cons signal o ih =>
    unfold walk
    rw [List.foldl_cons, List.foldl_cons, walkStep_eq, walkStep_eq, ih, ih]
    simp

theorem walk_append (c : Option OpenSegment) (o o' : List SegmentationSignal) :
    walk c (o ++ o') = ((walk (walk c o).1 o').1, (walk c o).2 ++ (walk (walk c o).1 o').2) := by
  rw [walk, List.foldl_append]
  exact foldl_walkStep _ _ _

/-- **The first signal, then the rest.** -/
theorem walk_cons (c : Option OpenSegment) (s : SegmentationSignal) (o : List SegmentationSignal) :
    walk c (s :: o) =
      ((walk (some (nextSegment c s)) o).1,
        closedBy c s ++ (walk (some (nextSegment c s)) o).2) := by
  rw [walk, List.foldl_cons, walkStep_eq, foldl_walkStep]
  simp

theorem walk_some_ne_none (s : OpenSegment) (o : List SegmentationSignal) :
    (walk (some s) o).1 ≠ none := by
  induction o generalizing s with
  | nil => simp
  | cons signal o ih =>
    rw [walk_cons]
    exact ih _

theorem walk_fst_eq_none_iff {c : Option OpenSegment} {o : List SegmentationSignal} :
    (walk c o).1 = none ↔ c = none ∧ o = [] := by
  cases o with
  | nil => simp
  | cons signal o =>
    rw [walk_cons]
    simpa using walk_some_ne_none _ o

/-! ### The fold over all scopes -/

/-- What the fold returns: the open segments by scope, and the closed ones. -/
structure Segmentation where
  openSegments : Dict String OpenSegment
  closedSegments : List ClosedSegment

/-- `by_scope.setdefault(signal.scope, []).append(signal)`. -/
def addToScope (byScope : Dict String (List SegmentationSignal)) (signal : SegmentationSignal) :
    Dict String (List SegmentationSignal) :=
  byScope.set signal.scope (((byScope.get? signal.scope).getD []) ++ [signal])

/-- The signals by scope, in the order in which the scopes turn up. -/
def groupByScope (signals : List SegmentationSignal) : Dict String (List SegmentationSignal) :=
  signals.foldl addToScope ∅

/-- The signals of one scope in the order of observation. -/
def inOrder (signals : List SegmentationSignal) : List SegmentationSignal :=
  sortedBy SegmentationSignal.observedAt signals

def walkScope (acc : Segmentation) (item : String × List SegmentationSignal) : Segmentation :=
  let walked := walk (acc.openSegments.get? item.1) (inOrder item.2)
  { openSegments :=
      match walked.1 with
      | none => acc.openSegments
      | some current => acc.openSegments.set item.1 current
    closedSegments := acc.closedSegments ++ walked.2 }

/-- The read position has moved past the segment by more than the time gap. -/
def isQuiescent (frontier : Option ℤ) (segment : OpenSegment) : Bool :=
  match frontier with
  | none => false
  | some instant => instant - segment.lastSignalAt > timeGap

/-- The quiescence pass over one open segment. -/
def quiesce (frontiers : Dict String ℤ) (acc : Segmentation)
    (item : String × OpenSegment) : Segmentation :=
  if isQuiescent (frontiers.get? item.1) item.2 then
    { openSegments := acc.openSegments.erase item.1
      closedSegments := acc.closedSegments ++ [close item.2] }
  else acc

def foldSignalsIntoSegments (signals : List SegmentationSignal)
    (openSegments : Dict String OpenSegment := ∅) (frontiers : Dict String ℤ := ∅) :
    Segmentation :=
  let walked := (groupByScope signals).items.foldl walkScope ⟨openSegments, []⟩
  walked.openSegments.items.foldl (quiesce frontiers) walked

/-- The open segments of the engine: each stands under its own scope. -/
structure OpenSegments where
  segments : Dict String OpenSegment
  keyed : ∀ {scope : String} {segment : OpenSegment}, segments.get? scope = some segment →
    segment.scope = scope

def OpenSegments.none : OpenSegments := ⟨∅, by simp⟩

/-! ### Stored segments -/

/-- An open segment as it is stored: its sets are sorted lists. -/
structure SegmentState where
  scope : String
  start : ℤ
  lastSignalAt : ℤ
  heimdalSessionId : Option String
  protagonists : List String
  goal : List String
  derivedFrom : List String
  signalIds : List String
  deriving DecidableEq, Repr

/-- `OpenSegment.to_state`. -/
def OpenSegment.toState (segment : OpenSegment) : SegmentState where
  scope := segment.scope
  start := segment.start
  lastSignalAt := segment.lastSignalAt
  heimdalSessionId := segment.heimdalSessionId
  protagonists := segment.protagonists.sort (· ≤ ·)
  goal := segment.goal.sort (· ≤ ·)
  derivedFrom := segment.derivedFrom
  signalIds := segment.signalIds.sort (· ≤ ·)

/-- `OpenSegment.from_state`. -/
def OpenSegment.fromState (state : SegmentState) : OpenSegment where
  scope := state.scope
  start := state.start
  lastSignalAt := state.lastSignalAt
  heimdalSessionId := state.heimdalSessionId
  protagonists := state.protagonists.toFinset
  goal := state.goal.toFinset
  derivedFrom := state.derivedFrom
  signalIds := state.signalIds.toFinset

@[simp] theorem fromState_toState (segment : OpenSegment) :
    OpenSegment.fromState segment.toState = segment := by
  simp [OpenSegment.fromState, OpenSegment.toState, Finset.sort_toFinset]

namespace Sample

def signal (scope signalId : String) (minute : ℤ) : SegmentationSignal where
  streamId := "heimdal.observations"
  signalId := signalId
  observedAt := minute * 60 * 1000000
  scope := scope
  provenanceRef := "heimdal.observations:" ++ signalId

end Sample

end AgenticPkm.Episodes
