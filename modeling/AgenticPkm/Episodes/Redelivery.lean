import AgenticPkm.Episodes.Isolation

/-!
# Redelivered signals

Streams deliver at least once, so a batch may hold further copies of signals that were folded
before.  Extending a segment with a signal it has recorded changes nothing, but shift detection
comes first: a copy is ignored when, at its place in the order of observation, it meets an open
segment that has recorded its id and on which it detects no shift.  A copy that detects a shift
cuts the segment, and one whose segment was closed before is folded again.

Copies are equal to first deliveries, so which of two equal signals is the copy is open: it is
enough that the copies can be told from the first deliveries in one way.

* `Delivery`, `deliveredSignals`, `firstSignals` — a batch with its copies marked.
* `Absorbs`, `Redelivered` — every copy is absorbed where it comes.
* `redelivery_noop` — **absorbed copies change nothing in what the fold returns**.
-/

namespace AgenticPkm.Episodes

open List

/-- A delivered signal, and whether it is a further copy. -/
structure Delivery where
  signal : SegmentationSignal
  redelivered : Bool := false
  deriving DecidableEq, Repr

def deliveredSignals (batch : List Delivery) : List SegmentationSignal :=
  batch.map Delivery.signal

/-- The signals of a batch without the copies. -/
def firstSignals (batch : List Delivery) : List SegmentationSignal :=
  (batch.filter fun d => !d.redelivered).map Delivery.signal

variable {d : Delivery}

@[simp] theorem firstSignals_cons_copy (h : d.redelivered = true) (batch : List Delivery) :
    firstSignals (d :: batch) = firstSignals batch := by
  simp [firstSignals, h]

@[simp] theorem firstSignals_cons_first (h : d.redelivered = false) (batch : List Delivery) :
    firstSignals (d :: batch) = d.signal :: firstSignals batch := by
  simp [firstSignals, h]

/-- The copy meets an open segment that has recorded it, and detects no shift. -/
def AbsorbedBy (current : Option OpenSegment) (signal : SegmentationSignal) : Prop :=
  ∃ segment, current = some segment ∧ signal.signalId ∈ segment.signalIds ∧
    detectShift segment signal = false

/-- Every copy of an ordered batch is absorbed where it comes. -/
def Absorbs : Option OpenSegment → List Delivery → Prop
  | _, [] => True
  | current, d :: batch =>
      if d.redelivered then AbsorbedBy current d.signal ∧ Absorbs current batch
      else Absorbs (some (nextSegment current d.signal)) batch

/-! ### The walk -/

section Walk

variable {cr : Option OpenSegment} {s : SegmentationSignal}

theorem AbsorbedBy.nextSegment_eq (h : AbsorbedBy cr s) : some (nextSegment cr s) = cr := by
  obtain ⟨segment, rfl, hr, hs⟩ := h
  rw [nextSegment_of_no_shift hs, extendOpenSegment_of_mem hr]

theorem AbsorbedBy.walk_cons (h : AbsorbedBy cr s) (ordered : List SegmentationSignal) :
    walk cr (s :: ordered) = walk cr ordered := by
  rw [Episodes.walk_cons, h.nextSegment_eq]
  obtain ⟨segment, rfl, -, hs⟩ := h
  rw [closedBy_of_no_shift hs, nil_append]

theorem Absorbs.walk_eq {b : List Delivery} (h : Absorbs cr b) :
    walk cr (deliveredSignals b) = walk cr (firstSignals b) := by
  induction b generalizing cr with
  | nil => rfl
  | cons d b ih =>
    unfold Absorbs at h
    by_cases hcp : d.redelivered
    · rw [if_pos hcp] at h
      rw [firstSignals_cons_copy hcp, deliveredSignals, map_cons, h.1.walk_cons]
      exact ih h.2
    · rw [if_neg hcp] at h
      rw [firstSignals_cons_first (by simpa using hcp), deliveredSignals, map_cons,
        Episodes.walk_cons, Episodes.walk_cons]
      have hr := ih h
      rw [deliveredSignals] at hr
      rw [hr]

end Walk

/-! ### The fold over all scopes -/

def deliveriesOf (scope : String) (batch : List Delivery) : List Delivery :=
  (sortedBy (fun d => d.signal.observedAt) batch).filter fun d => d.signal.scope = scope

section Batch

variable (sc : String) (batch : List Delivery)

theorem inOrder_deliveredSignals :
    inOrder (ofScope sc (deliveredSignals batch)) = deliveredSignals (deliveriesOf sc batch) := by
  unfold inOrder ofScope deliveredSignals deliveriesOf
  rw [sortedBy_filter, sortedBy_map, filter_map]
  rfl

theorem inOrder_firstSignals :
    inOrder (ofScope sc (firstSignals batch)) = firstSignals (deliveriesOf sc batch) := by
  unfold inOrder ofScope firstSignals deliveriesOf
  rw [sortedBy_filter, sortedBy_map, sortedBy_filter, filter_map, filter_filter, filter_filter]
  congr 1
  refine filter_congr fun d _ => ?_
  exact Bool.and_comm _ _

end Batch

/-- **The copies can be told from the first deliveries so that every copy is absorbed**: `copied`
is `signals` with copies inserted, and in every scope each of them meets, in the order of
observation, an open segment that has recorded its id and on which it detects no shift. -/
def Redelivered (openSegments : OpenSegments) (signals copied : List SegmentationSignal) : Prop :=
  ∃ batch, deliveredSignals batch = copied ∧ firstSignals batch = signals ∧
    ∀ scope, Absorbs (openSegments.segments.get? scope) (deliveriesOf scope batch)

/-- The scopes of the signals turn up in the same order among the copies. -/
def SameScopeOrder (signals copied : List SegmentationSignal) : Prop :=
  (groupByScope copied).keys.filter (· ∈ (groupByScope signals).keys) =
    (groupByScope signals).keys

section Fold

variable {o : OpenSegments} {signals copied : List SegmentationSignal}

theorem Redelivered.walk_eq (h : Redelivered o signals copied) (scope : String) :
    walk (o.segments.get? scope) (inOrder (ofScope scope copied)) =
      walk (o.segments.get? scope) (inOrder (ofScope scope signals)) := by
  obtain ⟨batch, rfl, rfl, hab⟩ := h
  rw [inOrder_deliveredSignals, inOrder_firstSignals]
  exact (hab scope).walk_eq

theorem Redelivered.view_eq (h : Redelivered o signals copied) (f : Dict String ℤ)
    (scope : String) : (foldSignalsIntoSegments copied o.segments f).view scope =
      (foldSignalsIntoSegments signals o.segments f).view scope := by
  rw [view_fold, view_fold, scopeFold, scopeFold, h.walk_eq]

theorem perm_of_closedOf {closed closed' : List ClosedSegment}
    (h : ∀ scope, closedOf scope closed = closedOf scope closed') : closed.Perm closed' := by
  refine perm_iff_count.mpr fun segment => ?_
  have hc := congrArg (count segment) (h segment.scope)
  rwa [closedOf, closedOf, count_filter (by simp), count_filter (by simp)] at hc

theorem items_groupByScope (s : List SegmentationSignal) :
    (groupByScope s).items = (groupByScope s).keys.map fun scope => (scope, ofScope scope s) := by
  rw [Dict.keys, map_map]
  refine (map_id _).symm.trans (map_congr_left fun item hitem => ?_)
  exact Prod.ext rfl (eq_ofScope_of_mem_groupByScope hitem)

theorem mem_keys_groupByScope {s : List SegmentationSignal} {scope : String}
    (h : ofScope scope s ≠ []) : scope ∈ (groupByScope s).keys := by
  by_contra hno
  rw [← get?_groupByScope, Dict.get?_eq_none_iff.mpr hno] at h
  exact h rfl

/-- The walks over some scopes, with the copies and without them.  A scope that has copies only
is left as it is. -/
theorem Redelivered.foldl_walkScope (h : Redelivered o signals copied) {scopes : List String}
    (hnd : scopes.Nodup) (acc : Segmentation)
    (hacc : ∀ scope ∈ scopes, acc.openSegments.get? scope = o.segments.get? scope) :
    (scopes.map fun scope => (scope, ofScope scope copied)).foldl walkScope acc =
      ((scopes.filter (· ∈ (groupByScope signals).keys)).map fun scope =>
        (scope, ofScope scope signals)).foldl walkScope acc := by
  induction scopes generalizing acc with
  | nil => rfl
  | cons scope scopes ih =>
    obtain ⟨hnot, hnd⟩ := nodup_cons.mp hnd
    obtain ⟨hhere, hrest⟩ := forall_mem_cons.mp hacc
    have hstep : walkScope acc (scope, ofScope scope copied) =
        walkScope acc (scope, ofScope scope signals) := by
      simp only [walkScope, hhere, h.walk_eq]
    have hnext : ∀ s ∈ scopes, (walkScope acc (scope, ofScope scope signals)).openSegments.get? s =
        o.segments.get? s := by
      intro s hs
      rw [get?_walkScope, if_neg (fun heq : s = scope => hnot (heq ▸ hs))]
      exact hrest s hs
    rw [map_cons, foldl_cons, hstep, ih hnd _ hnext]
    by_cases hk : scope ∈ (groupByScope signals).keys
    · simp [hk]
    · -- no signal of the scope but copies: its walk is the walk over nothing
      have hnil : ofScope scope signals = [] := by
        by_contra hne
        exact hk (mem_keys_groupByScope hne)
      have hsame : walkScope acc (scope, ofScope scope signals) = acc := by
        rw [walkScope, hnil]
        cases hc : acc.openSegments.get? scope with
        | none => simp [inOrder, sortedBy]
        | some current => simp [inOrder, sortedBy, Dict.set_of_get?_eq_some hc]
      simp [hk, hsame]

theorem Redelivered.fold_eq (h : Redelivered o signals copied)
    (horder : SameScopeOrder signals copied) (f : Dict String ℤ) :
    foldSignalsIntoSegments copied o.segments f = foldSignalsIntoSegments signals o.segments f := by
  have hwalks := h.foldl_walkScope (groupByScope copied).nodup_keys ⟨o.segments, []⟩
    fun _ _ => rfl
  rw [horder, ← items_groupByScope, ← items_groupByScope] at hwalks
  unfold foldSignalsIntoSegments
  rw [hwalks]

end Fold

end AgenticPkm.Episodes
