import AgenticPkm.Episodes.Evidence

/-!
# Replay admission

A tick starts from the durable state it finds, which a crashed tick may have left half
written.  The invariant says what an open record can be: *stale*, when the note of its
own identifier holds all its evidence, so that the next tick retires it, or *live*, when
no note of its scope holds any of it.  Under it, the fold of a tick cuts evidence that
no note holds into segments, and what is read and not cut is noted already.
-/

namespace AgenticPkm.Episodes

open List

variable {ρ : Type} {uuid5 : String → String} {feed : Feed ρ} {store : EngineStore}

/-! ### Evidence in the durable state -/

def Noted (store : EngineStore) (scope ref : String) : Prop :=
  ∃ episodeId note, store.notes.get? episodeId = some note ∧ note.scope = scope ∧
    ref ∈ note.derivedFrom

def Recorded (store : EngineStore) (scope ref : String) : Prop :=
  ∃ state, store.openRecords.get? scope = some state ∧ ref ∈ state.derivedFrom

/-- The evidence is in a note of its scope or in the open record of its scope. -/
def Represented (store : EngineStore) (scope ref : String) : Prop :=
  Noted store scope ref ∨ Recorded store scope ref

variable {ref : String}

theorem inNotes_iff {s : String} : inNotes store.notes s ref ↔ Noted store s ref := by
  constructor
  · intro h
    obtain ⟨note, hn, hh⟩ := any_eq_true.mp h
    obtain ⟨e, hi⟩ := Dict.mem_values.mp hn
    simp only [Bool.and_eq_true, decide_eq_true_eq, contains_iff_mem] at hh
    exact ⟨e, note, Dict.mem_items.mp hi, hh⟩
  · rintro ⟨e, note, hg, hs, hr⟩
    refine any_eq_true.mpr ⟨note, Dict.mem_values.mpr ⟨e, ?_⟩, ?_⟩
    · exact Dict.mem_items.mpr hg
    · simp [hs, hr]

instance (scope ref : String) : Decidable (Noted store scope ref) :=
  decidable_of_iff _ inNotes_iff

instance (scope ref : String) : Decidable (Recorded store scope ref) :=
  decidable_of_iff
    ((store.openRecords.get? scope).any fun state => state.derivedFrom.contains ref) (by
      simp [Recorded, Option.any_eq_true])

instance (scope ref : String) : Decidable (Represented store scope ref) :=
  inferInstanceAs (Decidable (_ ∨ _))

/-- **No evidence is lost, none is in two notes**: what a row behind a cursor stands for
is represented, and the notes of a scope share no evidence. -/
structure Feed.ExactlyOnce (feed : Feed ρ) (store : EngineStore) : Prop where
  covered : ∀ stream, ∀ row ∈ (feed.rows stream).take (store.cursors stream), ∀ signal,
    feed.normalize stream row = some signal →
      Represented store signal.scope signal.provenanceRef
  once : ∀ {episodeId episodeId' note note'}, store.notes.get? episodeId = some note →
    store.notes.get? episodeId' = some note' → note.scope = note'.scope →
      ∀ ref ∈ note.derivedFrom, ref ∈ note'.derivedFrom → episodeId = episodeId'

/-! ### The invariant -/

/-- The note of the record's own identifier holds all its evidence. -/
def Stale (uuid5 : String → String) (store : EngineStore) (scope : String)
    (refs : List String) : Prop :=
  ∃ note, store.notes.get? (episodeIdOf uuid5 scope (refs.head?.getD "")) = some note ∧
    note.scope = scope ∧ refs ⊆ note.derivedFrom

/-- No note of the scope holds any of the evidence. -/
def Live (store : EngineStore) (scope : String) (refs : List String) : Prop :=
  ∀ ref ∈ refs, ¬ Noted store scope ref

/-- The invariant of the durable state. -/
structure Feed.Inv (uuid5 : String → String) (feed : Feed ρ) (store : EngineStore) : Prop where
  exactlyOnce : feed.ExactlyOnce store
  notes : ∀ {episodeId note}, store.notes.get? episodeId = some note →
    episodeId = episodeIdOf uuid5 note.scope (note.derivedFrom.head?.getD "") ∧
      feed.Sourced note.scope note.derivedFrom
  records : ∀ {scope state}, store.openRecords.get? scope = some state →
    state.scope = scope ∧ feed.Sound (.fromState state) ∧
      (Stale uuid5 store scope state.derivedFrom ∨ Live store scope state.derivedFrom)

theorem Stale.noted {s : String} {refs : List String} (h : Stale uuid5 store s refs)
    (href : ref ∈ refs) : Noted store s ref := by
  obtain ⟨note, hn, hs, hr⟩ := h
  exact ⟨_, note, hn, hs, hr href⟩

theorem Feed.Inv.start : feed.Inv uuid5 {} where
  exactlyOnce := ⟨by simp, by simp⟩
  notes := by simp
  records := by simp

section Carried

variable {sc : String} {s : OpenSegment} {st : SegmentState}

theorem get?_carriedSegments : (carriedSegments uuid5 store).get? sc = some s ↔
    (∃ st, store.openRecords.get? sc = some st ∧ .fromState st = s) ∧
      staleNote uuid5 store (sc, s) = none := by
  rw [← Dict.mem_items]
  simp [carriedSegments, loadedSegments, Dict.mem_items]

theorem Feed.Inv.staleNote_of_live (hinv : feed.Inv uuid5 store) (hi : feed.EpisodeIdsApart uuid5)
    (hs : s.scope = sc) (hsnd : feed.Sound s) (hl : Live store sc s.derivedFrom) :
    staleNote uuid5 store (sc, s) = none := by
  rw [Option.eq_none_iff_forall_ne_some]
  intro note hn
  obtain ⟨hid, hsr⟩ := hinv.notes hn
  obtain ⟨hsame, ref, hr, hr'⟩ := hsnd.sourced.shared_of_episodeId hi hsr hid
  exact hl ref hr ⟨_, note, hn, hsame.symm.trans hs, hr'⟩

theorem Feed.Inv.carried (hinv : feed.Inv uuid5 store)
    (h : (carriedSegments uuid5 store).get? sc = some s) :
    s.scope = sc ∧ feed.Sound s ∧ Live store sc s.derivedFrom := by
  obtain ⟨⟨st, hst, rfl⟩, hstl⟩ := get?_carriedSegments.mp h
  obtain ⟨hs, hsnd, ⟨note, hn, -⟩ | hl⟩ := hinv.records hst
  · rw [← hs] at hn
    exact absurd (hstl.symm.trans hn) (by simp)
  · exact ⟨hs, hsnd, hl⟩

theorem Feed.Inv.stale_or_carried (hinv : feed.Inv uuid5 store)
    (hi : feed.EpisodeIdsApart uuid5) (h : store.openRecords.get? sc = some st) :
    Stale uuid5 store sc st.derivedFrom ∨
      (carriedSegments uuid5 store).get? sc = some (.fromState st) := by
  obtain ⟨hs, hsnd, hstl | hl⟩ := hinv.records h
  · exact .inl hstl
  · right
    rw [get?_carriedSegments]
    exact ⟨⟨st, h, rfl⟩, hinv.staleNote_of_live hi hs hsnd hl⟩

/-- The carried segments, each under its own scope. -/
def Feed.Inv.openSegments (hinv : feed.Inv uuid5 store) : OpenSegments where
  segments := carriedSegments uuid5 store
  keyed := fun h => (hinv.carried h).1

end Carried

/-! ### The cut of a tick -/

def scopeSegments (s : Segmentation) (scope : String) : List ClosedSegment :=
  segmentsOf (s.view scope)

/-- What the fold of a tick does to the evidence: it cuts evidence that no note holds,
once each, into the segments of a scope; what is carried on grows, and what is read is
noted or cut. -/
structure Feed.Cut (uuid5 : String → String) (feed : Feed ρ) (store : EngineStore)
    (batch : String → List ρ) (s : Segmentation) : Prop where
  nodup : ∀ scope, (refsOf (scopeSegments s scope)).Nodup
  unnoted : ∀ scope, ∀ ref ∈ refsOf (scopeSegments s scope), ¬ Noted store scope ref
  sourced : ∀ scope, ∀ closed ∈ scopeSegments s scope,
    feed.Sourced closed.scope closed.derivedFrom
  sound : ∀ {scope segment}, s.openSegments.get? scope = some segment →
    segment.scope = scope ∧ feed.Sound segment
  carried : ∀ {scope state}, store.openRecords.get? scope = some state →
    Stale uuid5 store scope state.derivedFrom ∨
      ∃ closed ∈ scopeSegments s scope, state.derivedFrom <+: closed.derivedFrom
  read : ∀ stream ∈ feed.streams, isPolled stream = false → ∀ row ∈ batch stream, ∀ signal,
    feed.normalize stream row = some signal →
      Noted store signal.scope signal.provenanceRef ∨
        signal.provenanceRef ∈ refsOf (scopeSegments s signal.scope)

section Cut

variable {batch : String → List ρ}

theorem Feed.Reads.sublist (hr : feed.Reads store batch) (s : String) :
    (batch s).Sublist (feed.rows s) := by
  have h := hr s
  split at h
  · exact h
  · exact h.sublist.trans (drop_sublist ..)

theorem Feed.Reads.readSignals_sublist (hr : feed.Reads store batch) :
    (readSignals feed batch).Sublist feed.signals := by
  unfold Feed.signals readSignals
  induction feed.streams with
  | nil => exact List.Sublist.refl _
  | cons st s ih =>
    rw [flatMap_cons, flatMap_cons]
    exact ((hr.sublist st).filterMap _).append ih

theorem foldSignals_sublist :
    (foldSignals uuid5 feed store batch).Sublist (readSignals feed batch) :=
  filter_sublist.trans filter_sublist

variable {sg : SegmentationSignal}

theorem not_represented_of_mem_foldSignals (h : sg ∈ foldSignals uuid5 feed store batch) :
    ¬ Noted store sg.scope sg.provenanceRef ∧
      inOpen (carriedSegments uuid5 store) sg.scope sg.provenanceRef = false := by
  have hnot := (mem_filter.mp h).2
  simp only [Bool.not_eq_true', Bool.or_eq_false_iff] at hnot
  exact ⟨fun hn => by simp [inNotes_iff.mpr hn] at hnot, hnot.2⟩

theorem mem_foldSignals_or (uuid5 : String → String) (st : EngineStore) {s : String}
    (hstream : s ∈ feed.streams) (hp : isPolled s = false) {row : ρ}
    (hrow : row ∈ batch s) (hsignal : feed.normalize s row = some sg) :
    Noted st sg.scope sg.provenanceRef ∨
      inOpen (carriedSegments uuid5 st) sg.scope sg.provenanceRef ∨
      sg ∈ foldSignals uuid5 feed st batch := by
  by_cases hnot : Noted st sg.scope sg.provenanceRef
  · exact .inl hnot
  · right
    cases ho : inOpen (carriedSegments uuid5 st) sg.scope sg.provenanceRef with
    | true => exact .inl rfl
    | false =>
      right
      have hr : sg ∈ readSignals feed batch :=
        mem_flatMap.mpr ⟨s, hstream, mem_filterMap.mpr ⟨row, hrow, hsignal⟩⟩
      -- the calendar ledger only concerns the calendar, which is polled
      have hl : isConsumedCalendar st sg = false := by
        have hid : (sg.streamId == calendarStreamId) = false := by
          rw [feed.stamped hsignal]
          exact hp
        simp [isConsumedCalendar, hid]
      have hn : inNotes st.notes sg.scope sg.provenanceRef = false := by
        rw [Bool.eq_false_iff, Ne, inNotes_iff]
        exact hnot
      refine mem_filter.mpr ⟨mem_filter.mpr ⟨hr, ?_⟩, ?_⟩
      · simp [hl]
      · simp [hn, ho]

theorem inOpen_iff {s : Dict String OpenSegment} {sc ref : String} :
    inOpen s sc ref ↔ ref ∈ openRefs (s.get? sc) := by
  unfold inOpen
  cases s.get? sc <;> simp

theorem Feed.Inv.view_tick (hinv : feed.Inv uuid5 store) (b : String → List ρ) (s : String) :
    ∃ frontier, (tickSegmentation uuid5 feed store b).view s =
      scopeFold ((carriedSegments uuid5 store).get? s)
        (ofScope s (foldSignals uuid5 feed store b)) frontier :=
  ⟨_, view_fold _ hinv.openSegments _ s⟩

theorem Feed.Inv.conserved (hinv : feed.Inv uuid5 store) (hown : feed.OwnProvenance)
    (hids : feed.SignalIdsApart) (hrd : feed.Reads store batch) (scope : String) :
    feed.Conserved ((carriedSegments uuid5 store).get? scope)
        (inOrder (ofScope scope (foldSignals uuid5 feed store batch)))
        ((tickSegmentation uuid5 feed store batch).view scope) ∧
      (openRefs ((carriedSegments uuid5 store).get? scope) ++
        (ofScope scope (foldSignals uuid5 feed store batch)).map
          SegmentationSignal.provenanceRef).Nodup := by
  obtain ⟨f, hvw⟩ := hinv.view_tick batch scope
  have hsub : (ofScope scope (foldSignals uuid5 feed store batch)).Sublist feed.signals :=
    (filter_sublist.trans foldSignals_sublist).trans hrd.readSignals_sublist
  have hof : ∀ sg ∈ ofScope scope (foldSignals uuid5 feed store batch),
      sg ∈ foldSignals uuid5 feed store batch ∧ sg.scope = scope := by
    intro sg hsignal
    simpa [ofScope] using mem_filter.mp hsignal
  have hcr : ∀ segment ∈ (carriedSegments uuid5 store).get? scope, feed.Sound segment :=
    fun segment hsegment => (hinv.carried hsegment).2.1
  have hnod : (openRefs ((carriedSegments uuid5 store).get? scope) ++
      (ofScope scope (foldSignals uuid5 feed store batch)).map
        SegmentationSignal.provenanceRef).Nodup := by
    refine List.Nodup.append ?_ (hown.sublist (hsub.map _)) ?_
    · cases hop : (carriedSegments uuid5 store).get? scope with
      | none => exact nodup_nil
      | some segment => exact (hcr segment hop).nodup
    · intro ref href hfl
      obtain ⟨sg, hsignal, rfl⟩ := mem_map.mp hfl
      obtain ⟨hfd, rfl⟩ := hof sg hsignal
      rw [← inOpen_iff, (not_represented_of_mem_foldSignals hfd).2] at href
      cases href
  refine ⟨?_, hnod⟩
  have hsc : InScope scope ((carriedSegments uuid5 store).get? scope) :=
    fun segment hsegment => (hinv.carried hsegment).1
  rw [hvw]
  refine .scopeFold hids hsc hcr ?_ hnod f
  exact fun sg hsignal => ⟨hsub.mem hsignal, (hof sg hsignal).2⟩

/-- **The fold of a tick is a cut of the evidence.** -/
theorem Feed.Inv.cut (hinv : feed.Inv uuid5 store) (hown : feed.OwnProvenance)
    (hamb : feed.Unambiguous uuid5) (hrd : feed.Reads store batch) :
    feed.Cut uuid5 store batch (tickSegmentation uuid5 feed store batch) := by
  have hcn := hinv.conserved hown hamb.signalIds hrd
  have hrf : ∀ scope, (refsOf (scopeSegments (tickSegmentation uuid5 feed store batch)
      scope)).Perm (openRefs ((carriedSegments uuid5 store).get? scope) ++
        (ofScope scope (foldSignals uuid5 feed store batch)).map
          SegmentationSignal.provenanceRef) := by
    intro scope
    rw [scopeSegments, (hcn scope).1.refs]
    exact ((perm_sortedBy _ _).map _).append_left _
  refine ⟨?_, ?_, ?_, ?_, ?_, ?_⟩
  · intro scope
    exact (hrf scope).nodup_iff.mpr (hcn scope).2
  · intro scope ref href
    rcases mem_append.mp ((hrf scope).mem_iff.mp href) with hop | hfd
    · cases hsegment : (carriedSegments uuid5 store).get? scope with
      | none => simp [hsegment] at hop
      | some segment =>
        rw [hsegment] at hop
        exact (hinv.carried hsegment).2.2 ref hop
    · obtain ⟨sg, hsignal, rfl⟩ := mem_map.mp hfd
      obtain ⟨hfl, hsc⟩ := mem_filter.mp hsignal
      rw [← of_decide_eq_true hsc]
      exact (not_represented_of_mem_foldSignals hfl).1
  · exact fun scope => (hcn scope).1.sourced
  · intro scope segment hsegment
    refine ⟨?_, (hcn scope).1.sound segment hsegment⟩
    exact (foldedSegments _ hinv.openSegments _).keyed hsegment
  · intro scope state hst
    rcases hinv.stale_or_carried hamb.episodeIds hst with hstl | hop
    · exact .inl hstl
    · exact .inr ((hcn scope).1.carried _ hop)
  · intro stream hstream hpl row hrow sg hsignal
    rcases mem_foldSignals_or uuid5 store hstream hpl hrow hsignal with
      hnot | hop | hfl
    · exact .inl hnot
    · refine .inr ((hrf sg.scope).mem_iff.mpr (mem_append_left _ ?_))
      exact inOpen_iff.mp hop
    · refine .inr ((hrf sg.scope).mem_iff.mpr (mem_append_right _ ?_))
      exact mem_map.mpr ⟨sg, mem_filter.mpr ⟨hfl, by simp⟩, rfl⟩

end Cut

end AgenticPkm.Episodes
