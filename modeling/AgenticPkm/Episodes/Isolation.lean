import AgenticPkm.Episodes.Segment

/-!
# Scope isolation of the segmentation fold

The fold keeps one dictionary of open segments and one list of closed ones for all
scopes.  Seen through one scope, it is the fold of that scope alone: the walk over the
signals of the scope from its own open segment, and the quiescence test against its
own frontier.

* `scope_isolation` — **nothing of one scope is visible in another**.
-/

namespace AgenticPkm.Episodes

open List Dict

def ofScope (scope : String) (signals : List SegmentationSignal) : List SegmentationSignal :=
  signals.filter fun signal => signal.scope = scope

def closedOf (scope : String) (closed : List ClosedSegment) : List ClosedSegment :=
  closed.filter fun segment => segment.scope = scope

/-- The quiescence pass over one scope. -/
def quiesceScope (frontier : Option ℤ) :
    Option OpenSegment × List ClosedSegment → Option OpenSegment × List ClosedSegment
  | (none, closed) => (none, closed)
  | (some segment, closed) =>
      if isQuiescent frontier segment then (none, closed ++ [close segment])
      else (some segment, closed)

@[simp] theorem quiesceScope_none (v : Option OpenSegment × List ClosedSegment) :
    quiesceScope none v = v := by
  obtain ⟨_ | s, closed⟩ := v <;> rfl

/-- The fold over one scope: the walk over its signals, and the quiescence test. -/
def scopeFold (current : Option OpenSegment) (signals : List SegmentationSignal)
    (frontier : Option ℤ) : Option OpenSegment × List ClosedSegment :=
  quiesceScope frontier (walk current (inOrder signals))

theorem closedOf_append (s : String) (closed closed' : List ClosedSegment) :
    closedOf s (closed ++ closed') = closedOf s closed ++ closedOf s closed' :=
  filter_append ..

variable {scope : String} {closed : List ClosedSegment}

theorem closedOf_eq_self (h : ∀ segment ∈ closed, segment.scope = scope) :
    closedOf scope closed = closed :=
  filter_eq_self.mpr (by simpa using h)

theorem closedOf_eq_nil {s' : String} (h : ∀ segment ∈ closed, segment.scope = s')
    (hne : s' ≠ s) : closedOf s closed = [] := by
  rw [closedOf, filter_eq_nil_iff]
  intro segment hsegment
  rw [h segment hsegment]
  simpa using hne

/-! ### Grouping -/

theorem get?_groupByScope (s : String) (signals : List SegmentationSignal) :
    ((groupByScope signals).get? s).getD [] = ofScope s signals := by
  induction signals using List.reverseRecOn with
  | nil => rfl
  | append_singleton signals signal ih =>
    have hstep : groupByScope (signals ++ [signal]) = addToScope (groupByScope signals) signal := by
      simp [groupByScope, foldl_append]
    rw [hstep, addToScope, get?_set]
    by_cases hs : s = signal.scope
    · rw [if_pos hs, ← hs, ih]
      simp [ofScope, filter_append, hs]
    · rw [if_neg hs, ih]
      simp [ofScope, filter_append, Ne.symm hs]

theorem eq_ofScope_of_mem_groupByScope {signals : List SegmentationSignal}
    {g : List SegmentationSignal} (h : (scope, g) ∈ (groupByScope signals).items) :
    g = ofScope scope signals := by
  rw [← get?_groupByScope, mem_items.mp h]
  rfl

/-! ### Segments keep their scope -/

/-- Whatever is open is of the given scope. -/
def InScope (scope : String) (current : Option OpenSegment) : Prop :=
  ∀ segment ∈ current, segment.scope = scope

section InScope

variable {cr : Option OpenSegment} {sg : SegmentationSignal}

theorem InScope.nextSegment (h : InScope scope cr) (hsignal : sg.scope = scope) :
    (nextSegment cr sg).scope = scope := by
  cases cr with
  | none => exact hsignal
  | some s =>
    unfold Episodes.nextSegment
    by_cases hs : detectShift s sg
    · simpa [hs] using hsignal
    · simpa [hs] using h s rfl

theorem InScope.closedBy (h : InScope scope cr) :
    ∀ segment ∈ closedBy cr sg, segment.scope = scope := by
  cases cr with
  | none => simp [Episodes.closedBy]
  | some open' =>
    unfold Episodes.closedBy
    by_cases hs : detectShift open' sg
    · simpa [hs] using h open' rfl
    · simp [hs]

theorem InScope.walk (h : InScope scope cr) {o : List SegmentationSignal}
    (hord : ∀ sg ∈ o, sg.scope = scope) :
    InScope scope (walk cr o).1 ∧ ∀ segment ∈ (walk cr o).2, segment.scope = scope := by
  induction o generalizing cr with
  | nil => exact ⟨h, by simp⟩
  | cons sg o ih =>
    obtain ⟨hsignal, hr⟩ := forall_mem_cons.mp hord
    have hn : InScope scope (some (Episodes.nextSegment cr sg)) := by
      rintro segment ⟨⟩
      exact h.nextSegment hsignal
    obtain ⟨ho, hcl⟩ := ih hn hr
    rw [walk_cons]
    refine ⟨ho, ?_⟩
    intro segment hsegment
    rcases mem_append.mp hsegment with hf | hl
    · exact h.closedBy segment hf
    · exact hcl segment hl

end InScope

/-! ### One scope of the fold -/

/-- The open segments all stand under their own scope. -/
def Keyed (segments : Dict String OpenSegment) : Prop :=
  ∀ scope, InScope scope (segments.get? scope)

theorem OpenSegments.isKeyed (o : OpenSegments) : Keyed o.segments :=
  fun _ _ hsegment => o.keyed hsegment

/-- What is seen of a segmentation through one scope. -/
def Segmentation.view (scope : String) (s : Segmentation) :
    Option OpenSegment × List ClosedSegment :=
  (s.openSegments.get? scope, closedOf scope s.closedSegments)

/-- What the walk does to one scope. -/
def walkHere (signals : List SegmentationSignal)
    (v : Option OpenSegment × List ClosedSegment) : Option OpenSegment × List ClosedSegment :=
  ((walk v.1 (inOrder signals)).1, v.2 ++ (walk v.1 (inOrder signals)).2)

section Walk

variable {acc : Segmentation} {item : String × List SegmentationSignal}

theorem get?_walkScope (scope : String) :
    (walkScope acc item).openSegments.get? scope =
      if scope = item.1 then (walk (acc.openSegments.get? item.1) (inOrder item.2)).1
      else acc.openSegments.get? scope := by
  unfold walkScope
  cases hw : (walk (acc.openSegments.get? item.1) (inOrder item.2)).1 with
  | some current =>
    simp only [hw]
    rw [get?_set]
  | none =>
    -- nothing was open and there was no signal, so nothing is written
    simp only [hw]
    by_cases hs : scope = item.1
    · rw [if_pos hs, hs]
      exact (walk_fst_eq_none_iff.mp hw).1
    · rw [if_neg hs]

theorem mem_inOrder_scope (hitem : ∀ signal ∈ item.2, signal.scope = item.1) :
    ∀ signal ∈ inOrder item.2, signal.scope = item.1 := by
  intro signal hsignal
  exact hitem signal (mem_sortedBy.mp hsignal)

section

variable (hacc : Keyed acc.openSegments) (hitem : ∀ signal ∈ item.2, signal.scope = item.1)
include hacc hitem

theorem keyed_walkScope : Keyed (walkScope acc item).openSegments := by
  intro scope
  rw [get?_walkScope]
  by_cases hs : scope = item.1
  · rw [if_pos hs, hs]
    exact ((hacc item.1).walk (mem_inOrder_scope hitem)).1
  · rw [if_neg hs]
    exact hacc scope

theorem view_walkScope : (walkScope acc item).view item.1 = walkHere item.2 (acc.view item.1) := by
  have hcl := ((hacc item.1).walk (mem_inOrder_scope hitem)).2
  unfold Segmentation.view walkHere
  rw [get?_walkScope, if_pos rfl]
  simp only [walkScope]
  rw [closedOf_append, closedOf_eq_self hcl]

theorem view_walkScope_of_ne (hne : item.1 ≠ scope) :
    (walkScope acc item).view scope = acc.view scope := by
  have hcl := ((hacc item.1).walk (mem_inOrder_scope hitem)).2
  unfold Segmentation.view
  rw [get?_walkScope, if_neg (Ne.symm hne)]
  simp only [walkScope]
  rw [closedOf_append, closedOf_eq_nil hcl hne, append_nil]

end

end Walk

theorem view_foldl_walkScope (sc : String) (s : List SegmentationSignal)
    {acc : Segmentation} (hacc : Keyed acc.openSegments) :
    Keyed ((groupByScope s).items.foldl walkScope acc).openSegments ∧
      ((groupByScope s).items.foldl walkScope acc).view sc =
        walkHere (ofScope sc s) (acc.view sc) := by
  have hg : ∀ item ∈ (groupByScope s).items, ∀ signal ∈ item.2, signal.scope = item.1 := by
    rintro ⟨sc', g⟩ hitem signal hsignal
    rw [eq_ofScope_of_mem_groupByScope hitem] at hsignal
    simpa [ofScope] using (mem_filter.mp hsignal).2
  constructor
  · refine List.foldlRecOn (motive := fun acc => Keyed acc.openSegments) _ walkScope hacc ?_
    intro acc hacc item hitem
    exact keyed_walkScope hacc (hg item hitem)
  · rw [view_foldl (fun acc => Keyed acc.openSegments) (Segmentation.view sc) walkHere
      (groupByScope s) sc ?_ ?_ ?_ hacc]
    · -- a scope without signals has no group, and walks nothing
      rw [← get?_groupByScope]
      cases (groupByScope s).get? sc with
      | some g => rfl
      | none => simp [walkHere, inOrder, sortedBy]
    · intro acc item hitem hacc
      exact keyed_walkScope hacc (hg item hitem)
    · intro acc g hitem hacc
      exact view_walkScope hacc (hg _ hitem)
    · intro acc item hitem hne hacc
      exact view_walkScope_of_ne hacc (hg item hitem) hne

section Quiesce

variable {f : Dict String ℤ} {acc : Segmentation} {item : String × OpenSegment}

/-- What the quiescence pass does to one scope. -/
def quiesceHere (frontier : Option ℤ) (segment : OpenSegment)
    (v : Option OpenSegment × List ClosedSegment) : Option OpenSegment × List ClosedSegment :=
  if isQuiescent frontier segment then (none, v.2 ++ [close segment]) else v

theorem keyed_quiesce (hacc : Keyed acc.openSegments) :
    Keyed (quiesce f acc item).openSegments := by
  unfold quiesce
  split
  · intro scope s hsegment
    rw [Option.mem_def, get?_erase] at hsegment
    split at hsegment
    · cases hsegment
    · exact hacc scope s hsegment
  · exact hacc

theorem view_quiesce (hitem : item.2.scope = item.1) :
    (quiesce f acc item).view item.1 = quiesceHere (f.get? item.1) item.2 (acc.view item.1) := by
  unfold quiesce quiesceHere
  split
  · unfold Segmentation.view
    rw [get?_erase, if_pos rfl, closedOf_append]
    simp [closedOf, hitem]
  · rfl

theorem view_quiesce_of_ne (hitem : item.2.scope = item.1)
    (hne : item.1 ≠ scope) : (quiesce f acc item).view scope = acc.view scope := by
  unfold quiesce
  split
  · unfold Segmentation.view
    rw [get?_erase, if_neg (Ne.symm hne), closedOf_append]
    simp [closedOf, hitem, hne]
  · rfl

end Quiesce

theorem view_foldl_quiesce (s : String) (f : Dict String ℤ)
    {w : Segmentation} (hw : Keyed w.openSegments) :
    Keyed (w.openSegments.items.foldl (quiesce f) w).openSegments ∧
      (w.openSegments.items.foldl (quiesce f) w).view s = quiesceScope (f.get? s) (w.view s) := by
  have hi : ∀ item ∈ w.openSegments.items, item.2.scope = item.1 := by
    rintro ⟨s', sg⟩ hitem
    exact hw s' sg (mem_items.mp hitem)
  constructor
  · refine List.foldlRecOn (motive := fun acc => Keyed acc.openSegments) _ (quiesce f)
      hw ?_
    intro acc hacc item _
    exact keyed_quiesce hacc
  · rw [view_foldl (fun _ => True) (Segmentation.view s)
      (quiesceHere (f.get? s)) w.openSegments s ?_ ?_ ?_ trivial]
    · show _ = quiesceScope _ (w.openSegments.get? s, _)
      cases ho : w.openSegments.get? s with
      | none => simp [Segmentation.view, ho, quiesceScope]
      | some sg => simp [Segmentation.view, ho, quiesceScope, quiesceHere]
    · exact fun _ _ _ _ => trivial
    · intro acc sg hitem _
      exact view_quiesce (hi _ hitem)
    · intro acc item hitem hne _
      exact view_quiesce_of_ne (hi item hitem) hne

/-! ### The fold, seen through one scope -/

section Fold

variable (signals : List SegmentationSignal) (openSegments : OpenSegments)
  (frontiers : Dict String ℤ)

theorem keyed_and_view_fold (s : String) :
    Keyed (foldSignalsIntoSegments signals openSegments.segments frontiers).openSegments ∧
      (foldSignalsIntoSegments signals openSegments.segments frontiers).view s =
        scopeFold (openSegments.segments.get? s) (ofScope s signals) (frontiers.get? s) := by
  have hs : Keyed (Segmentation.mk openSegments.segments []).openSegments := openSegments.isKeyed
  obtain ⟨hk, hw⟩ := view_foldl_walkScope s signals hs
  obtain ⟨hk', hv⟩ := view_foldl_quiesce s frontiers hk
  refine ⟨hk', hv.trans ?_⟩
  rw [hw]
  simp [scopeFold, walkHere, Segmentation.view, closedOf]

def foldedSegments : OpenSegments where
  segments := (foldSignalsIntoSegments signals openSegments.segments frontiers).openSegments
  keyed := by
    intro scope segment hsegment
    exact (keyed_and_view_fold signals openSegments frontiers scope).1 scope segment hsegment

/-- **Seen through one scope, the fold is the fold of that scope.** -/
theorem view_fold (s : String) :
    (foldSignalsIntoSegments signals openSegments.segments frontiers).view s =
      scopeFold (openSegments.segments.get? s) (ofScope s signals) (frontiers.get? s) :=
  (keyed_and_view_fold signals openSegments frontiers s).2

theorem fold_openSegment (s : String) :
    (foldSignalsIntoSegments signals openSegments.segments frontiers).openSegments.get? s =
      (scopeFold (openSegments.segments.get? s) (ofScope s signals) (frontiers.get? s)).1 :=
  congrArg Prod.fst (view_fold signals openSegments frontiers s)

theorem fold_closedSegments (s : String) :
    closedOf s
        (foldSignalsIntoSegments signals openSegments.segments frontiers).closedSegments =
      (scopeFold (openSegments.segments.get? s) (ofScope s signals) (frontiers.get? s)).2 :=
  congrArg Prod.snd (view_fold signals openSegments frontiers s)

end Fold

/-- **Scope isolation.**  Two folds that agree, for one scope, on the signals of the
scope, on its open segment and on its frontier agree on its open segment and on the
sequence of its closed segments, whatever they are given for other scopes. -/
theorem scope_isolation {signals signals' : List SegmentationSignal}
    {openSegments openSegments' : OpenSegments} {frontiers frontiers' : Dict String ℤ}
    {scope : String} (hsignals : ofScope scope signals = ofScope scope signals')
    (hopen : openSegments.segments.get? scope = openSegments'.segments.get? scope)
    (hfrontier : frontiers.get? scope = frontiers'.get? scope) :
    (foldSignalsIntoSegments signals openSegments.segments frontiers).openSegments.get? scope =
        (foldSignalsIntoSegments signals' openSegments'.segments
          frontiers').openSegments.get? scope ∧
      closedOf scope
          (foldSignalsIntoSegments signals openSegments.segments frontiers).closedSegments =
        closedOf scope
          (foldSignalsIntoSegments signals' openSegments'.segments frontiers').closedSegments := by
  rw [fold_openSegment, fold_openSegment, fold_closedSegments, fold_closedSegments, hsignals,
    hopen, hfrontier]
  exact ⟨rfl, rfl⟩

/-- A busy sibling scope, with its own frontier, leaves the segments of a scope alone. -/
theorem sibling_is_invisible :
    (foldSignalsIntoSegments [Sample.signal "home" "h1" 0, Sample.signal "work" "w1" 1,
        Sample.signal "home" "h2" 90] OpenSegments.none.segments
        ((∅ : Dict String ℤ).set "home" 99000000000)).openSegments.get? "work" =
      (foldSignalsIntoSegments [Sample.signal "work" "w1" 1]
        OpenSegments.none.segments).openSegments.get? "work" := by
  refine And.left (scope_isolation ?_ ?_ ?_)
  · decide
  · rfl
  · rfl

end AgenticPkm.Episodes
