import AgenticPkm.Episodes.Isolation

/-!
# Sessions and segments

A recorded session is meant to lie within one segment: a signal that continues the session a
segment is bound to always extends it.  But a segment is bound to the first session it met only,
and any signal on which a shift is detected closes it.  A session therefore stays within one
segment exactly as long as no gap, goal, protagonist or causal shift falls between two of its
signals.

The walk is followed together with the signals each segment records; what an open segment held
before the walk is given alongside.  A signal whose id the open segment knows is dropped.

* `heldWalk`, `heldSegments` — the segments of a walk and of the fold, with what they hold.
* `NoShiftWithinSession` — the condition on the signals of a scope.
* `sessions_apart_iff` — **sessions stay apart exactly under that condition**.
-/

namespace AgenticPkm.Episodes

open List

/-- Both signals are of one recorded session. -/
def SameSession (a b : SegmentationSignal) : Prop :=
  a.heimdalSessionId.isSome ∧ a.heimdalSessionId = b.heimdalSessionId

instance (a b : SegmentationSignal) : Decidable (SameSession a b) :=
  inferInstanceAs (Decidable (_ ∧ _))

/-- A segment, and the signals it holds. -/
structure HeldSegment where
  segment : OpenSegment
  held : List SegmentationSignal

/-- No session has signals in both segments. -/
def Apart (h h' : HeldSegment) : Prop := ∀ a ∈ h.held, ∀ b ∈ h'.held, ¬ SameSession a b

instance (h h' : HeldSegment) : Decidable (Apart h h') :=
  inferInstanceAs (Decidable (∀ a ∈ h.held, ∀ b ∈ h'.held, ¬ SameSession a b))

/-- `_new_open_segment`, with the signal it is opened by. -/
def HeldSegment.opened (signal : SegmentationSignal) : HeldSegment :=
  ⟨newOpenSegment signal, [signal]⟩

/-- `_extend_open_segment`: a signal with a known id is not recorded. -/
def HeldSegment.extended (h : HeldSegment) (signal : SegmentationSignal) : HeldSegment :=
  if signal.signalId ∈ h.segment.signalIds then h
  else ⟨extendOpenSegment h.segment signal, h.held ++ [signal]⟩

/-- The segments of a walk, closed ones first, with what each of them holds. -/
def heldWalk : Option HeldSegment → List SegmentationSignal → List HeldSegment
  | current, [] => current.toList
  | none, signal :: ordered => heldWalk (some (.opened signal)) ordered
  | some h, signal :: ordered =>
      if detectShift h.segment signal then h :: heldWalk (some (.opened signal)) ordered
      else heldWalk (some (h.extended signal)) ordered

/-! ### The condition on the signals -/

/-- The signal opens a segment, or has an id that is new to the one it meets. -/
def isRecorded : Option OpenSegment → SegmentationSignal → Bool
  | none, _ => true
  | some segment, signal =>
      detectShift segment signal || decide (signal.signalId ∉ segment.signalIds)

/-- The signals that segments record, of those that come after an open segment. -/
def recorded : Option OpenSegment → List SegmentationSignal → List SegmentationSignal
  | _, [] => []
  | current, signal :: ordered =>
      (if isRecorded current signal then [signal] else []) ++
        recorded (some (nextSegment current signal)) ordered

/-- **No shift falls between two signals of one session.**  Where `detect_shift` fires on a
signal, because of a gap, a goal, a protagonist or a causal break, no signal recorded before it
is of the session of one recorded from it on. -/
def NoShiftWithinSession (current : Option OpenSegment) (held ordered : List SegmentationSignal) :
    Prop :=
  ∀ before signal after segment, ordered = before ++ signal :: after →
    (walk current before).1 = some segment → detectShift segment signal = true →
      ∀ a ∈ held ++ recorded current before, ∀ b ∈ recorded (some segment) (signal :: after),
        ¬ SameSession a b

variable {c : Option OpenSegment} {held ordered : List SegmentationSignal}
  {signal : SegmentationSignal}

theorem recorded_append (c : Option OpenSegment) (l l' : List SegmentationSignal) :
    recorded c (l ++ l') = recorded c l ++ recorded (walk c l).1 l' := by
  induction l generalizing c with
  | nil => rfl
  | cons s l ih => rw [cons_append, recorded, recorded, ih, walk_cons, append_assoc]

/-- The first signal, and then the rest after the segment it leaves. -/
theorem noShiftWithinSession_cons :
    NoShiftWithinSession c held (signal :: ordered) ↔
      (∀ segment, c = some segment → detectShift segment signal = true →
        ∀ a ∈ held, ∀ b ∈ recorded c (signal :: ordered), ¬ SameSession a b) ∧
      NoShiftWithinSession (some (nextSegment c signal))
        (held ++ if isRecorded c signal then [signal] else []) ordered := by
  constructor
  · intro h
    refine ⟨?_, ?_⟩
    · rintro segment rfl hs a ha b hb
      exact h [] signal ordered segment rfl rfl hs a (by simpa [recorded] using ha) b hb
    · intro before x after segment ho hw hs a ha b hb
      refine h (signal :: before) x after segment (by rw [ho]; rfl) ?_ hs a ?_ b hb
      · rw [walk_cons]
        exact hw
      · rwa [recorded, ← append_assoc]
  · rintro ⟨hfirst, hrest⟩ before x after segment ho hw hs a ha b hb
    cases before with
    | nil =>
      obtain ⟨rfl, rfl⟩ := cons_eq_cons.mp ho
      rw [walk_nil] at hw
      subst hw
      exact hfirst segment rfl hs a (by simpa [recorded] using ha) b hb
    | cons s before =>
      rw [cons_append, cons.injEq] at ho
      obtain ⟨rfl, ho⟩ := ho
      rw [walk_cons] at hw
      refine hrest before x after segment ho hw hs a ?_ b hb
      rw [append_assoc]
      exact ha

/-- What was held before a segment was opened may be left out, once it is apart from the rest. -/
theorem noShiftWithinSession_append {late : List SegmentationSignal}
    (h : ∀ a ∈ held, ∀ b ∈ recorded c ordered, ¬ SameSession a b) :
    NoShiftWithinSession c (held ++ late) ordered ↔ NoShiftWithinSession c late ordered := by
  constructor
  · intro hall before x after segment ho hw hs a ha b hb
    refine hall before x after segment ho hw hs a ?_ b hb
    rw [append_assoc]
    exact mem_append_right _ ha
  · intro hlate before x after segment ho hw hs a ha b hb
    rw [append_assoc] at ha
    rcases mem_append.mp ha with ha | ha
    · refine h a ha b ?_
      rw [ho, recorded_append, hw]
      exact mem_append_right _ hb
    · exact hlate before x after segment ho hw hs a ha b hb

/-! ### The walk -/

@[simp] theorem extended_segment (h : HeldSegment) (s : SegmentationSignal) :
    (h.extended s).segment = extendOpenSegment h.segment s := by
  unfold HeldSegment.extended
  split
  next hs => exact (extendOpenSegment_of_mem hs).symm
  next => rfl

theorem extended_held {h : HeldSegment} (hs : detectShift h.segment signal = false) :
    (h.extended signal).held =
      h.held ++ if isRecorded (some h.segment) signal then [signal] else [] := by
  unfold HeldSegment.extended
  by_cases hk : signal.signalId ∈ h.segment.signalIds <;> simp [isRecorded, hs, hk]

/-- **Without what they hold, these are the segments of the walk.** -/
theorem heldWalk_close (c : Option HeldSegment) (o : List SegmentationSignal) :
    (heldWalk c o).map (fun h => close h.segment) =
      (walk (c.map HeldSegment.segment) o).2 ++
        ((walk (c.map HeldSegment.segment) o).1.map close).toList := by
  induction o generalizing c with
  | nil => cases c <;> rfl
  | cons signal o ih =>
    rw [walk_cons]
    cases c with
    | none =>
      rw [heldWalk, ih]
      rfl
    | some h =>
      by_cases hs : detectShift h.segment signal
      · simp [heldWalk, hs, ih, nextSegment, closedBy, HeldSegment.opened]
      · simp [heldWalk, hs, ih, nextSegment, closedBy]

theorem flatMap_held_heldWalk (c : Option HeldSegment) (ordered : List SegmentationSignal) :
    (heldWalk c ordered).flatMap HeldSegment.held =
      (c.map HeldSegment.held).getD [] ++ recorded (c.map HeldSegment.segment) ordered := by
  induction ordered generalizing c with
  | nil => cases c <;> simp [heldWalk, recorded]
  | cons signal ordered ih =>
    cases c with
    | none =>
      rw [heldWalk, ih]
      simp [HeldSegment.opened, recorded, isRecorded, nextSegment]
    | some h =>
      by_cases hs : detectShift h.segment signal
      · simp [heldWalk, hs, ih, HeldSegment.opened, recorded, isRecorded, nextSegment]
      · rw [Bool.not_eq_true] at hs
        simp [heldWalk, hs, ih, extended_held hs, recorded, nextSegment]

theorem forall_apart_iff (h : HeldSegment) (s : List HeldSegment) :
    (∀ h' ∈ s, Apart h h') ↔
      ∀ a ∈ h.held, ∀ b ∈ s.flatMap HeldSegment.held, ¬ SameSession a b := by
  simp only [Apart, mem_flatMap]
  grind

/-- **The segments of a walk share no session exactly when no shift falls within one.** -/
theorem pairwise_apart_iff (c : Option HeldSegment) (ordered : List SegmentationSignal) :
    (heldWalk c ordered).Pairwise Apart ↔
      NoShiftWithinSession (c.map HeldSegment.segment) ((c.map HeldSegment.held).getD [])
        ordered := by
  induction ordered generalizing c with
  | nil => cases c <;> simp [heldWalk, NoShiftWithinSession]
  | cons signal ordered ih =>
    rw [noShiftWithinSession_cons]
    cases c with
    | none =>
      rw [heldWalk, ih]
      simp [HeldSegment.opened, isRecorded, nextSegment]
    | some h =>
      by_cases hs : detectShift h.segment signal
      · -- what the later segments hold is what is recorded from the shift on
        have hrest : recorded (some h.segment) (signal :: ordered) =
            signal :: recorded (some (newOpenSegment signal)) ordered := by
          simp [recorded, isRecorded, nextSegment, hs]
        have hheld : (heldWalk (some (.opened signal)) ordered).flatMap HeldSegment.held =
            signal :: recorded (some (newOpenSegment signal)) ordered :=
          flatMap_held_heldWalk _ _
        have hlater : (heldWalk (some (.opened signal)) ordered).Pairwise Apart ↔
            NoShiftWithinSession (some (newOpenSegment signal)) [signal] ordered := ih _
        rw [heldWalk, if_pos hs, pairwise_cons, forall_apart_iff, hheld, hlater]
        simp only [Option.map_some, Option.getD_some, Option.some.injEq, forall_eq', hs,
          forall_const, hrest, nextSegment_of_shift hs, isRecorded, Bool.true_or, if_true]
        refine and_congr_right fun hapart => (noShiftWithinSession_append ?_).symm
        exact fun a ha b hb => hapart a ha b (mem_cons_of_mem _ hb)
      · rw [Bool.not_eq_true] at hs
        simp [heldWalk, hs, ih, extended_held hs, nextSegment]

/-! ### The segments of the fold -/

/-- The segments of a scope after a fold without frontiers, with what they hold; `held` is what
the open segment of the scope is given to hold. -/
def heldSegments (signals : List SegmentationSignal) (openSegments : OpenSegments)
    (held : String → List SegmentationSignal) (scope : String) : List HeldSegment :=
  heldWalk ((openSegments.segments.get? scope).map fun segment => ⟨segment, held scope⟩)
    (inOrder (ofScope scope signals))

theorem heldSegments_close (s : List SegmentationSignal) (o : OpenSegments)
    (held : String → List SegmentationSignal) (scope : String) :
    (heldSegments s o held scope).map (fun h => close h.segment) =
      closedOf scope (foldSignalsIntoSegments s o.segments).closedSegments ++
        (((foldSignalsIntoSegments s o.segments).openSegments.get? scope).map close).toList := by
  rw [heldSegments, heldWalk_close, Option.map_map, fold_closedSegments, fold_openSegment,
    scopeFold, Dict.get?_empty, quiesceScope_none]
  simp only [Function.comp_def, Option.map_id']

end AgenticPkm.Episodes
