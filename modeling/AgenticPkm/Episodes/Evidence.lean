import AgenticPkm.Episodes.Tick

/-!
# The evidence of a fold

The fold over one scope cuts the evidence it is given, that of the carried segment
followed by that of the signals, into consecutive segments: nothing is lost, nothing is
repeated and nothing is added.  A segment drops a signal whose `signal_id` it has
recorded, and a `signal_id` is unique within its stream only, so the law needs that the
signals of one scope are told apart by their identifiers.
-/

namespace AgenticPkm.Episodes

open List

variable {ρ : Type} {uuid5 : String → String} {feed : Feed ρ}

def Feed.signals (feed : Feed ρ) : List SegmentationSignal :=
  readSignals feed feed.rows

/-- Every row that normalises to a signal has its own provenance reference. -/
def Feed.OwnProvenance (feed : Feed ρ) : Prop :=
  (feed.signals.map SegmentationSignal.provenanceRef).Nodup

instance (feed : Feed ρ) : Decidable feed.OwnProvenance :=
  inferInstanceAs (Decidable (List.Nodup _))

/-- Within a scope a `signal_id` names one piece of evidence, also across streams. -/
def Feed.SignalIdsApart (feed : Feed ρ) : Prop :=
  ∀ signal ∈ feed.signals, ∀ other ∈ feed.signals, signal.scope = other.scope →
    signal.signalId = other.signalId → signal.provenanceRef = other.provenanceRef

/-- The identifier of an episode names its scope and its first evidence. -/
def Feed.EpisodeIdsApart (uuid5 : String → String) (feed : Feed ρ) : Prop :=
  ∀ signal ∈ feed.signals, ∀ other ∈ feed.signals,
    episodeIdOf uuid5 signal.scope signal.provenanceRef =
        episodeIdOf uuid5 other.scope other.provenanceRef →
      signal.scope = other.scope ∧ signal.provenanceRef = other.provenanceRef

/-- The identifiers of signals and episodes mean one thing each. -/
structure Feed.Unambiguous (uuid5 : String → String) (feed : Feed ρ) : Prop where
  signalIds : feed.SignalIdsApart
  episodeIds : feed.EpisodeIdsApart uuid5

/-! ### Evidence from the feed -/

/-- There is evidence, and it comes from signals of the scope. -/
def Feed.Sourced (feed : Feed ρ) (scope : String) (refs : List String) : Prop :=
  refs ≠ [] ∧ ∀ ref ∈ refs, ∃ signal ∈ feed.signals,
    signal.scope = scope ∧ signal.provenanceRef = ref

/-- An open segment whose evidence comes from the feed, once each, and whose recorded
identifiers are those of its evidence. -/
structure Feed.Sound (feed : Feed ρ) (segment : OpenSegment) : Prop where
  sourced : feed.Sourced segment.scope segment.derivedFrom
  nodup : segment.derivedFrom.Nodup
  recorded : ∀ signalId ∈ segment.signalIds, ∃ signal ∈ feed.signals,
    signal.scope = segment.scope ∧ signal.signalId = signalId ∧
      signal.provenanceRef ∈ segment.derivedFrom

theorem Feed.Sourced.shared_of_episodeId (hi : feed.EpisodeIdsApart uuid5) {s s' : String}
    {refs refs' : List String} (h : feed.Sourced s refs) (h' : feed.Sourced s' refs')
    (heq : episodeIdOf uuid5 s (refs.head?.getD "") = episodeIdOf uuid5 s' (refs'.head?.getD "")) :
    s = s' ∧ ∃ ref ∈ refs, ref ∈ refs' := by
  obtain ⟨hne, hr⟩ := h
  obtain ⟨hne', hr'⟩ := h'
  obtain ⟨f, rest, rfl⟩ := exists_cons_of_ne_nil hne
  obtain ⟨f', rest', rfl⟩ := exists_cons_of_ne_nil hne'
  obtain ⟨signal, hsignal, rfl, rfl⟩ := hr f (by simp)
  obtain ⟨o, ho, rfl, rfl⟩ := hr' f' (by simp)
  obtain ⟨hs, href⟩ := hi signal hsignal o ho heq
  exact ⟨hs, signal.provenanceRef, by simp, by simp [href]⟩

section Sound

variable {s : OpenSegment} {sg : SegmentationSignal}

theorem Feed.Sound.new (hsignal : sg ∈ feed.signals) : feed.Sound (newOpenSegment sg) where
  sourced := ⟨by simp, by simpa using ⟨sg, hsignal, rfl, rfl⟩⟩
  nodup := nodup_singleton _
  recorded := by simpa using ⟨sg, hsignal, rfl, rfl, rfl⟩

theorem Feed.Sound.signalId_notMem (hi : feed.SignalIdsApart) (h : feed.Sound s)
    (hsignal : sg ∈ feed.signals) (hs : sg.scope = s.scope)
    (hnew : sg.provenanceRef ∉ s.derivedFrom) : sg.signalId ∉ s.signalIds := by
  intro hm
  obtain ⟨o, ho, hs', hid, hr⟩ := h.recorded _ hm
  have heq : sg.provenanceRef = o.provenanceRef := hi sg hsignal o ho (hs.trans hs'.symm) hid.symm
  exact hnew (heq ▸ hr)

theorem extendOpenSegment_derivedFrom (hid : sg.signalId ∉ s.signalIds)
    (hnew : sg.provenanceRef ∉ s.derivedFrom) :
    (extendOpenSegment s sg).derivedFrom = s.derivedFrom ++ [sg.provenanceRef] := by
  rw [extendOpenSegment, if_neg hid]
  exact if_neg hnew

theorem Feed.Sound.extend (h : feed.Sound s) (hsignal : sg ∈ feed.signals) (hs : sg.scope = s.scope)
    (hid : sg.signalId ∉ s.signalIds) (hnew : sg.provenanceRef ∉ s.derivedFrom) :
    feed.Sound (extendOpenSegment s sg) where
  sourced := by
    rw [extendOpenSegment_scope, extendOpenSegment_derivedFrom hid hnew]
    refine ⟨by simp, ?_⟩
    intro ref hr
    rcases mem_append.mp hr with ho | hl
    · exact h.sourced.2 ref ho
    · exact ⟨sg, hsignal, hs, (mem_singleton.mp hl).symm⟩
  nodup := by
    rw [extendOpenSegment_derivedFrom hid hnew]
    exact h.nodup.append (nodup_singleton _) (by simpa using hnew)
  recorded := by
    rw [extendOpenSegment_scope, extendOpenSegment_derivedFrom hid hnew]
    intro signalId hm
    rw [extendOpenSegment, if_neg hid] at hm
    rcases Finset.mem_union.mp hm with ho | hl
    · obtain ⟨o, hoth, hs', hid', hr⟩ := h.recorded signalId ho
      exact ⟨o, hoth, hs', hid', mem_append_left _ hr⟩
    · exact ⟨sg, hsignal, hs, (Finset.mem_singleton.mp hl).symm, by simp⟩

end Sound

/-! ### The segments of a fold -/

/-- The evidence of the open segment, if there is one. -/
def openRefs (current : Option OpenSegment) : List String :=
  current.elim [] OpenSegment.derivedFrom

def refsOf (segments : List ClosedSegment) : List String :=
  segments.flatMap ClosedSegment.derivedFrom

/-- The segments of a fold over one scope, the open one last. -/
def segmentsOf (v : Option OpenSegment × List ClosedSegment) : List ClosedSegment :=
  v.2 ++ (v.1.map close).toList

@[simp] theorem openRefs_none : openRefs none = [] := rfl

@[simp] theorem openRefs_some (s : OpenSegment) : openRefs (some s) = s.derivedFrom := rfl

theorem refsOf_append (segments segments' : List ClosedSegment) :
    refsOf (segments ++ segments') = refsOf segments ++ refsOf segments' :=
  flatMap_append

variable {se : List ClosedSegment} {ref : String}

theorem mem_refsOf : ref ∈ refsOf se ↔ ∃ segment ∈ se, ref ∈ segment.derivedFrom := mem_flatMap

theorem refsOf_segmentsOf (v : Option OpenSegment × List ClosedSegment) :
    refsOf (segmentsOf v) = refsOf v.2 ++ openRefs v.1 := by
  obtain ⟨_ | segment, closed⟩ := v <;> simp [segmentsOf, refsOf]

theorem eq_of_mem_refs (h : (refsOf se).Nodup) {segment segment' : ClosedSegment}
    (hsegment : segment ∈ se) (hsegment' : segment' ∈ se) (hr : ref ∈ segment.derivedFrom)
    (hr' : ref ∈ segment'.derivedFrom) : segment = segment' := by
  by_contra hne
  have hp := (nodup_flatMap.mp h).2
  have : Std.Symm (Function.onFun List.Disjoint ClosedSegment.derivedFrom) :=
    ⟨fun _ _ hd => List.Disjoint.symm hd⟩
  have ha : segment.derivedFrom.Disjoint segment'.derivedFrom := hp.forall hsegment hsegment' hne
  exact ha hr hr'

@[simp] theorem segmentsOf_quiesceScope (f : Option ℤ) (v : Option OpenSegment × List ClosedSegment)
    : segmentsOf (quiesceScope f v) = segmentsOf v := by
  obtain ⟨_ | segment, closed⟩ := v
  · rfl
  · rw [quiesceScope]
    split <;> simp [segmentsOf]

theorem mem_of_mem_quiesceScope {f : Option ℤ} {s : OpenSegment}
    {v : Option OpenSegment × List ClosedSegment} (h : s ∈ (quiesceScope f v).1) : s ∈ v.1 := by
  obtain ⟨_ | last, closed⟩ := v
  · exact h
  · rw [quiesceScope] at h
    split at h
    · cases h
    · exact h

/-! ### Conservation -/

/-- **The fold over one scope conserves the evidence**: its segments hold the evidence
of the carried segment and of the signals, in this order and once each, and the carried
segment lives on in one of them. -/
structure Feed.Conserved (feed : Feed ρ) (current : Option OpenSegment)
    (signals : List SegmentationSignal) (v : Option OpenSegment × List ClosedSegment) :
    Prop where
  refs : refsOf (segmentsOf v) =
    openRefs current ++ signals.map SegmentationSignal.provenanceRef
  sound : ∀ segment ∈ v.1, feed.Sound segment
  sourced : ∀ closed ∈ segmentsOf v, feed.Sourced closed.scope closed.derivedFrom
  carried : ∀ segment ∈ current, ∃ closed ∈ segmentsOf v,
    segment.derivedFrom <+: closed.derivedFrom

section Walk

variable {sc : String} {current : Option OpenSegment} {si : SegmentationSignal}
  {o : List SegmentationSignal}

theorem nextSegment_conserves (hi : feed.SignalIdsApart) (hsc : InScope sc current)
    (hcur : ∀ segment ∈ current, feed.Sound segment) (hsignal : si ∈ feed.signals)
    (hof : si.scope = sc) (hnew : si.provenanceRef ∉ openRefs current) :
    feed.Sound (nextSegment current si) ∧
      refsOf (closedBy current si) ++ (nextSegment current si).derivedFrom =
        openRefs current ++ [si.provenanceRef] := by
  cases current with
  | none => exact ⟨.new hsignal, rfl⟩
  | some segment =>
    have hsegment := hcur segment rfl
    have hin : si.scope = segment.scope := hof.trans (hsc segment rfl).symm
    have hid := hsegment.signalId_notMem hi hsignal hin hnew
    cases hs : detectShift segment si with
    | true =>
      rw [nextSegment_of_shift hs, closedBy_of_shift hs]
      exact ⟨.new hsignal, by simp [refsOf]⟩
    | false =>
      rw [nextSegment_of_no_shift hs, closedBy_of_no_shift hs]
      refine ⟨hsegment.extend hsignal hin hid hnew, ?_⟩
      rw [extendOpenSegment_derivedFrom hid hnew]
      rfl

theorem exists_of_mem_closedBy {c : ClosedSegment}
    (h : c ∈ closedBy current si) : ∃ segment ∈ current, c = close segment := by
  cases current with
  | none => cases h
  | some segment =>
    cases hs : detectShift segment si with
    | true =>
      rw [closedBy_of_shift hs] at h
      exact ⟨segment, rfl, mem_singleton.mp h⟩
    | false =>
      rw [closedBy_of_no_shift hs] at h
      cases h

theorem current_carried (s : OpenSegment) (sg : SegmentationSignal) :
    close s ∈ closedBy (some s) sg ∨ s.derivedFrom <+: (nextSegment (some s) sg).derivedFrom := by
  cases hs : detectShift s sg with
  | true => simp [closedBy_of_shift hs]
  | false =>
    right
    rw [nextSegment_of_no_shift hs, extendOpenSegment]
    split
    · exact prefix_rfl
    · show s.derivedFrom <+: if _ then _ else _
      split
      · exact prefix_rfl
      · exact List.prefix_append ..

theorem Feed.Conserved.walk (hids : feed.SignalIdsApart) (hsc : InScope sc current)
    (hcur : ∀ segment ∈ current, feed.Sound segment)
    (hord : ∀ si ∈ o, si ∈ feed.signals ∧ si.scope = sc)
    (hnod : (openRefs current ++ o.map SegmentationSignal.provenanceRef).Nodup) :
    feed.Conserved current o (walk current o) := by
  induction o generalizing current with
  | nil =>
    cases current with
    | none => exact ⟨rfl, by simp, by simp [segmentsOf], by simp⟩
    | some segment =>
      have hsegment := hcur segment rfl
      refine ⟨by simp [segmentsOf, refsOf], ?_, ?_, ?_⟩
      · rintro _ ⟨⟩
        exact hsegment
      · simpa [segmentsOf] using hsegment.sourced
      · rintro _ ⟨⟩
        exact ⟨close segment, by simp [segmentsOf], prefix_rfl⟩
  | cons si o ih =>
    obtain ⟨⟨hsignal, hof⟩, hrs⟩ := forall_mem_cons.mp hord
    have hnew : si.provenanceRef ∉ openRefs current := by
      intro hmem
      exact (disjoint_of_nodup_append hnod) hmem (by simp)
    obtain ⟨hnx, hstep⟩ := nextSegment_conserves hids hsc hcur hsignal hof hnew
    have hall : openRefs current ++ (si :: o).map SegmentationSignal.provenanceRef =
        refsOf (closedBy current si) ++ ((nextSegment current si).derivedFrom ++
          o.map SegmentationSignal.provenanceRef) := by
      rw [map_cons, ← singleton_append, ← append_assoc, ← hstep, append_assoc]
    have hin : InScope sc (some (nextSegment current si)) := by
      rintro _ ⟨⟩
      exact hsc.nextSegment hof
    have hlat := ih hin (by rintro _ ⟨⟩; exact hnx) hrs
      (hall ▸ hnod).of_append_right
    have hsg : segmentsOf (Episodes.walk current (si :: o)) =
        closedBy current si ++ segmentsOf (Episodes.walk (some (nextSegment current si)) o) := by
      rw [walk_cons, segmentsOf, segmentsOf, append_assoc]
    refine ⟨?_, ?_, ?_, ?_⟩
    · rw [hsg, refsOf_append, hlat.refs, hall]
      rfl
    · rw [walk_cons]
      exact hlat.sound
    · -- what is closed here was open, and so sound
      rw [hsg]
      intro closed hcl
      rcases mem_append.mp hcl with hfst | hls
      · obtain ⟨segment, hsegment, rfl⟩ := exists_of_mem_closedBy hfst
        exact (hcur segment hsegment).sourced
      · exact hlat.sourced closed hls
    · rw [hsg]
      rintro segment ⟨⟩
      rcases current_carried segment si with hcl | hgrw
      · exact ⟨close segment, mem_append_left _ hcl, prefix_rfl⟩
      · obtain ⟨closed, hcl, hln⟩ := hlat.carried _ rfl
        exact ⟨closed, mem_append_right _ hcl, hgrw.trans hln⟩

theorem Feed.Conserved.scopeFold (hi : feed.SignalIdsApart) (hs : InScope sc current)
    (hcur : ∀ segment ∈ current, feed.Sound segment) {signals : List SegmentationSignal}
    (hsg : ∀ si ∈ signals, si ∈ feed.signals ∧ si.scope = sc)
    (hn : (openRefs current ++ signals.map SegmentationSignal.provenanceRef).Nodup) (f : Option ℤ) :
    feed.Conserved current (inOrder signals) (scopeFold current signals f) := by
  have hp : (inOrder signals).Perm signals := perm_sortedBy ..
  have hw : feed.Conserved current (inOrder signals)
      (Episodes.walk current (inOrder signals)) := by
    refine .walk hi hs hcur (fun si hsignal => hsg si ?_) ?_
    · exact hp.mem_iff.mp hsignal
    · exact ((hp.map _).append_left _).nodup_iff.mpr hn
  unfold Episodes.scopeFold
  refine ⟨?_, ?_, ?_, ?_⟩
  · rw [segmentsOf_quiesceScope]
    exact hw.refs
  · intro segment hsegment
    exact hw.sound segment (mem_of_mem_quiesceScope hsegment)
  · rw [segmentsOf_quiesceScope]
    exact hw.sourced
  · rw [segmentsOf_quiesceScope]
    exact hw.carried

end Walk

end AgenticPkm.Episodes
