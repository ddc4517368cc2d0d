import AgenticPkm.Episodes.Replay

/-!
# Crashed and repeated ticks

A tick makes its durable steps one after the other and may stop after any of them; the
next tick starts from what it finds.  Wherever a tick stops, it is *midway*: some notes
are written, records change only once all notes are, cursors only once all open records
are.  This is enough to keep the invariant of the durable state.

* `Feed.Reaches.evidence_exactly_once` — **no evidence is lost or noted twice**, if the
  identifiers are unambiguous.  A `signal_id` is unique within its stream only.
-/

namespace AgenticPkm.Episodes

open List

variable {ρ : Type} {uuid5 : String → String} {feed : Feed ρ} {store store' : EngineStore}

/-! ### What the durable steps write -/

namespace DurableStep

def writesNotes : DurableStep → Bool
  | .emit _ => true
  | _ => false

/-- The step puts `record` where the open record of `scope` is. -/
def WritesRecord (scope : String) (record : Option SegmentState) : DurableStep → Prop
  | .persist scope' state => scope' = scope ∧ record = some state
  | .delete scope' => scope' = scope ∧ record = none
  | _ => False

def WritesCursor (stream : String) (position : ℕ) : DurableStep → Prop
  | .advance stream' position' => stream' = stream ∧ position = position'
  | _ => False

end DurableStep

section Steps

variable {ws : List DurableStep}

theorem applySteps_append (st : EngineStore) (ws ws' : List DurableStep) :
    applySteps uuid5 st (ws ++ ws') = applySteps uuid5 (applySteps uuid5 st ws) ws' :=
  Journal.after_append st ws ws'

theorem notes_applySteps (h : ∀ w ∈ ws, w.writesNotes = false) (st : EngineStore) :
    (applySteps uuid5 st ws).notes = st.notes := by
  refine Journal.look_after_of_frame EngineStore.notes (fun w hw st => ?_) st
  cases w with
  | emit => exact absurd (h _ hw) (by simp [DurableStep.writesNotes])
  | _ => rfl

@[simp] theorem applyStep_emit_openRecords (st : EngineStore) (c : ClosedSegment) :
    (applyStep uuid5 st (.emit c)).openRecords = st.openRecords := by
  rw [applyStep]
  split <;> rfl

@[simp] theorem applyStep_emit_cursors (st : EngineStore) (c : ClosedSegment) :
    (applyStep uuid5 st (.emit c)).cursors = st.cursors := by
  rw [applyStep]
  split <;> rfl

theorem record_applyStep (scope : String) (w : DurableStep) (st : EngineStore) :
    w.WritesRecord scope ((applyStep uuid5 st w).openRecords.get? scope) ∨
      (applyStep uuid5 st w).openRecords.get? scope = st.openRecords.get? scope := by
  cases w with
  | persist scope' =>
    by_cases hs : scope' = scope
    · subst hs
      exact .inl ⟨rfl, Dict.get?_set_self ..⟩
    · exact .inr (Dict.get?_set_of_ne _ _ (Ne.symm hs))
  | delete scope' =>
    by_cases hs : scope' = scope
    · subst hs
      exact .inl ⟨rfl, (Dict.get?_erase ..).trans (if_pos rfl)⟩
    · exact .inr ((Dict.get?_erase ..).trans (if_neg (Ne.symm hs)))
  | emit =>
    right
    rw [applyStep_emit_openRecords]
  | _ => exact .inr rfl

theorem cursor_applyStep (stream : String) (w : DurableStep) (st : EngineStore) :
    w.WritesCursor stream ((applyStep uuid5 st w).cursors stream) ∨
      (applyStep uuid5 st w).cursors stream = st.cursors stream := by
  cases w with
  | advance stream' =>
    by_cases hstream : stream' = stream
    · subst hstream
      exact .inl ⟨rfl, if_pos rfl⟩
    · exact .inr (if_neg (Ne.symm hstream))
  | emit =>
    right
    rw [applyStep_emit_cursors]
  | _ => exact .inr rfl

theorem record_applySteps (uuid5 : String → String) (ws : List DurableStep)
    (st : EngineStore) (scope : String) :
    (∃ w ∈ ws, w.WritesRecord scope ((applySteps uuid5 st ws).openRecords.get? scope)) ∨
      (applySteps uuid5 st ws).openRecords.get? scope = st.openRecords.get? scope :=
  Journal.look_after_cases (fun st => st.openRecords.get? scope)
    (fun w record => w.WritesRecord scope record)
    (fun w _ st => record_applyStep scope w st) st

theorem cursor_applySteps (uuid5 : String → String) (ws : List DurableStep)
    (st : EngineStore) (stream : String) :
    (∃ w ∈ ws, w.WritesCursor stream ((applySteps uuid5 st ws).cursors stream)) ∨
      (applySteps uuid5 st ws).cursors stream = st.cursors stream :=
  Journal.look_after_cases (fun st => st.cursors stream)
    (fun w p => w.WritesCursor stream p)
    (fun w _ st => cursor_applyStep stream w st) st

end Steps

/-! ### A tick that has stopped somewhere -/

def Emitted (uuid5 : String → String) (store store' : EngineStore)
    (emitted : List ClosedSegment) : Prop :=
  ∀ episodeId note, store'.notes.get? episodeId = some note ↔
    store.notes.get? episodeId = some note ∨
      ∃ closed ∈ emitted, deterministicEpisodeId uuid5 closed = episodeId ∧ noteOf closed = note

/-- A tick has stopped: some notes are written; a record is old or, once all notes are
written, new; a cursor is old or, once all notes and open records are written, past the
rows that were read. -/
structure Midway (uuid5 : String → String) (feed : Feed ρ) (store : EngineStore)
    (batch : String → List ρ) (s : Segmentation) (emitted : List ClosedSegment)
    (store' : EngineStore) : Prop where
  subset : emitted ⊆ s.closedSegments
  notes : Emitted uuid5 store store' emitted
  records : ∀ scope, store'.openRecords.get? scope = store.openRecords.get? scope ∨
    s.closedSegments ⊆ emitted ∧
      store'.openRecords.get? scope = (s.openSegments.get? scope).map OpenSegment.toState
  cursors : ∀ stream, store'.cursors stream = store.cursors stream ∨
    s.closedSegments ⊆ emitted ∧
      (∀ scope segment, s.openSegments.get? scope = some segment →
        store'.openRecords.get? scope = some segment.toState) ∧
      stream ∈ feed.streams ∧ isPolled stream = false ∧
      store'.cursors stream = store.cursors stream + (batch stream).length

section Midway

variable {b : String → List ρ} {s : Segmentation} {emitted : List ClosedSegment}
  {closed : ClosedSegment}

theorem mem_scopeSegments_of_closed (h : closed ∈ s.closedSegments) :
    closed ∈ scopeSegments s closed.scope :=
  mem_append_left _ (mem_filter.mpr ⟨h, by simp⟩)

theorem mem_refsOf_scopeSegments {sc ref : String} :
    ref ∈ refsOf (scopeSegments s sc) ↔
      (∃ closed ∈ s.closedSegments, closed.scope = sc ∧ ref ∈ closed.derivedFrom) ∨
        ref ∈ openRefs (s.openSegments.get? sc) := by
  rw [scopeSegments, refsOf_segmentsOf, mem_append, mem_refsOf]
  simp [Segmentation.view, closedOf, and_assoc]

theorem openRecords_emitting (st : EngineStore) (e : List ClosedSegment) :
    (applySteps uuid5 st (e.map .emit)).openRecords = st.openRecords := by
  refine Journal.look_after_of_frame EngineStore.openRecords (fun w hw st => ?_) st
  obtain ⟨closed, -, rfl⟩ := mem_map.mp hw
  exact applyStep_emit_openRecords st closed

theorem cursors_emitting (st : EngineStore) (e : List ClosedSegment) :
    (applySteps uuid5 st (e.map .emit)).cursors = st.cursors := by
  refine Journal.look_after_of_frame EngineStore.cursors (fun w hw st => ?_) st
  obtain ⟨closed, -, rfl⟩ := mem_map.mp hw
  exact applyStep_emit_cursors st closed

variable (hcut : feed.Cut uuid5 store b s) (hinv : feed.Inv uuid5 store)
  (hids : feed.EpisodeIdsApart uuid5)
include hcut hids

theorem Feed.Cut.eq_of_episodeId {closed' : ClosedSegment} (h : closed ∈ s.closedSegments)
    (h' : closed' ∈ s.closedSegments)
    (heq : deterministicEpisodeId uuid5 closed = deterministicEpisodeId uuid5 closed') :
    closed = closed' := by
  have hm := mem_scopeSegments_of_closed h
  have hm' := mem_scopeSegments_of_closed h'
  obtain ⟨hs, _, hr, hr'⟩ :=
    (hcut.sourced _ _ hm).shared_of_episodeId hids (hcut.sourced _ _ hm') heq
  rw [← hs] at hm'
  exact eq_of_mem_refs (hcut.nodup _) hm hm' hr hr'

include hinv

theorem Feed.Cut.get?_note (h : closed ∈ s.closedSegments) :
    store.notes.get? (deterministicEpisodeId uuid5 closed) = none := by
  have hm := mem_scopeSegments_of_closed h
  rw [Option.eq_none_iff_forall_ne_some]
  intro note hn
  obtain ⟨hid, hsr⟩ := hinv.notes hn
  obtain ⟨hs, ref, hr, hr'⟩ := (hcut.sourced _ _ hm).shared_of_episodeId hids hsr hid
  refine hcut.unnoted closed.scope ref (mem_refsOf.mpr ⟨closed, hm, hr⟩) ?_
  exact ⟨_, note, hn, hs.symm, hr'⟩

theorem Emitted.emit (h : Emitted uuid5 store store' emitted) (hsub : emitted ⊆ s.closedSegments)
    (hcl : closed ∈ s.closedSegments) :
    Emitted uuid5 store (applyStep uuid5 store' (.emit closed)) (emitted ++ [closed]) := by
  intro e note
  have hn := hcut.get?_note hinv hids hcl
  simp only [mem_append, mem_singleton, or_and_right, exists_or, exists_eq_left]
  rw [← or_assoc, ← h]
  cases hget : store'.notes.get? (deterministicEpisodeId uuid5 closed) with
  | some =>
    -- the note is there: it is the note of this very segment
    have hsame : closed ∈ emitted := by
      rcases (h _ _).mp hget with hold | ⟨closed', hmem, hid, -⟩
      · rw [hn] at hold
        cases hold
      · exact hcut.eq_of_episodeId hids (hsub hmem) hcl hid ▸ hmem
    have hk : applyStep uuid5 store' (.emit closed) = store' := by
      simp [applyStep, hget]
    rw [hk, iff_self_or]
    rintro ⟨rfl, rfl⟩
    exact (h _ _).mpr (.inr ⟨closed, hsame, rfl, rfl⟩)
  | none =>
    have hset : (applyStep uuid5 store' (.emit closed)).notes =
        store'.notes.set (deterministicEpisodeId uuid5 closed) (noteOf closed) := by
      simp [applyStep, hget]
    rw [hset, Dict.get?_set]
    by_cases hid : e = deterministicEpisodeId uuid5 closed
    · simp [hid, hget]
    · simp [hid, Ne.symm hid]

theorem emitted_applySteps (hs : emitted ⊆ s.closedSegments) :
    Emitted uuid5 store (applySteps uuid5 store (emitted.map .emit)) emitted := by
  induction emitted using List.reverseRecOn with
  | nil =>
    intro e note
    simp [applySteps]
  | append_singleton _ _ ih =>
    obtain ⟨hb, hl⟩ := append_subset.mp hs
    rw [map_append, map_singleton, applySteps, Journal.after_concat]
    exact (ih hb).emit hcut hinv hids hb (hl (by simp))

theorem midway_of_emitting (hs : emitted ⊆ s.closedSegments) :
    Midway uuid5 feed store b s emitted (applySteps uuid5 store (emitted.map .emit)) where
  subset := hs
  notes := emitted_applySteps hcut hinv hids hs
  records := fun scope => .inl (by rw [openRecords_emitting])
  cursors := fun stream => .inl (by rw [cursors_emitting])

end Midway

/-! ### The invariant wherever a tick stops -/

section Inv

variable {bt : String → List ρ} {s : Segmentation} {em : List ClosedSegment}
  {scope ref : String}

theorem Feed.Cut.scope_eq (hcut : feed.Cut uuid5 store bt s) {c : ClosedSegment}
    (h : c ∈ scopeSegments s scope) : c.scope = scope := by
  rcases mem_append.mp h with hcl | ho
  · exact of_decide_eq_true (mem_filter.mp hcl).2
  · obtain ⟨_, hsegment, rfl⟩ := Option.mem_map.mp (Option.mem_toList.mp ho)
    exact (hcut.sound hsegment).1

variable (hmid : Midway uuid5 feed store bt s em store')
  (hcut : feed.Cut uuid5 store bt s) (hinv : feed.Inv uuid5 store)
include hmid

theorem Midway.noted_iff :
    Noted store' scope ref ↔ Noted store scope ref ∨
      ∃ closed ∈ em, closed.scope = scope ∧ ref ∈ closed.derivedFrom := by
  constructor
  · rintro ⟨e, note, hn, hs, hr⟩
    rcases (hmid.notes _ _).mp hn with ho | ⟨closed, hcl, -, rfl⟩
    · exact .inl ⟨e, note, ho, hs, hr⟩
    · exact .inr ⟨closed, hcl, hs, hr⟩
  · rintro (⟨e, note, hn, hs, hr⟩ | ⟨closed, hcl, hs, hr⟩)
    · exact ⟨e, note, (hmid.notes _ _).mpr (.inl hn), hs, hr⟩
    · refine ⟨_, noteOf closed, (hmid.notes _ _).mpr (.inr ⟨closed, hcl, rfl, rfl⟩), ?_⟩
      exact ⟨hs, hr⟩

theorem Midway.stale {refs : List String} (h : Stale uuid5 store scope refs) :
    Stale uuid5 store' scope refs := by
  obtain ⟨note, hn, hr⟩ := h
  exact ⟨note, (hmid.notes _ _).mpr (.inl hn), hr⟩

theorem Midway.represented_of_cut (ha : s.closedSegments ⊆ em)
    (ho : ∀ segment, s.openSegments.get? scope = some segment →
      store'.openRecords.get? scope = some segment.toState)
    (hr : ref ∈ refsOf (scopeSegments s scope)) : Represented store' scope ref := by
  rcases mem_refsOf_scopeSegments.mp hr with ⟨closed, hcl, hin⟩ | hin
  · exact .inl (hmid.noted_iff.mpr (.inr ⟨closed, ha hcl, hin⟩))
  · cases hsegment : s.openSegments.get? scope with
    | none => simp [hsegment] at hin
    | some segment =>
      rw [hsegment] at hin
      exact .inr ⟨segment.toState, ho segment hsegment, hin⟩

include hcut

theorem Midway.represented (h : Represented store scope ref) : Represented store' scope ref := by
  rcases h with hn | ⟨state, hs, hr⟩
  · exact .inl (hmid.noted_iff.mpr (.inl hn))
  · rcases hmid.records scope with hsame | ⟨ha, hnew⟩
    · exact .inr ⟨state, hsame.trans hs, hr⟩
    · rcases hcut.carried hs with hstl | ⟨closed, hcl, hl⟩
      · exact .inl (hmid.noted_iff.mpr (.inl (hstl.noted hr)))
      · refine hmid.represented_of_cut ha (fun segment hsegment => ?_) ?_
        · rw [hnew, hsegment, Option.map_some]
        · exact mem_refsOf.mpr ⟨closed, hcl, hl.subset hr⟩

theorem Midway.live_of_open {sg : OpenSegment} (hsegment : s.openSegments.get? scope = some sg) :
    Live store' scope sg.derivedFrom := by
  intro ref hr hnot
  have ho : ref ∈ openRefs (s.openSegments.get? scope) := by
    rw [hsegment]
    exact hr
  rcases hmid.noted_iff.mp hnot with hold | ⟨closed, hcl, hs, hr'⟩
  · exact hcut.unnoted scope ref (mem_refsOf_scopeSegments.mpr (.inr ho)) hold
  · -- the closed segments of a scope and its open one are cut from one list
    have hn := hcut.nodup scope
    rw [scopeSegments, refsOf_segmentsOf] at hn
    refine (disjoint_of_nodup_append hn) (mem_refsOf.mpr ⟨closed, ?_, hr'⟩) ho
    exact mem_filter.mpr ⟨hmid.subset hcl, by simpa using hs⟩

include hinv

/-- An old record becomes stale when the segment it grew into is emitted, and keeps
what it was until then. -/
theorem Midway.stale_or_live {st : SegmentState} (hst : store.openRecords.get? scope = some st) :
    Stale uuid5 store' scope st.derivedFrom ∨ Live store' scope st.derivedFrom := by
  obtain ⟨-, hsnd, hstl | hlv⟩ := hinv.records hst
  · exact .inl (hmid.stale hstl)
  rcases hcut.carried hst with hstl | ⟨closed, hcl, hln⟩
  · exact .inl (hmid.stale hstl)
  have hsc := hcut.scope_eq hcl
  by_cases hem : closed ∈ em
  · left
    have hne : st.derivedFrom ≠ [] := hsnd.sourced.1
    obtain ⟨_, _, hrf⟩ := exists_cons_of_ne_nil hne
    have hsb : st.derivedFrom ⊆ closed.derivedFrom := hln.subset
    obtain ⟨_, hmr⟩ := hln
    have hid : deterministicEpisodeId uuid5 closed =
        episodeIdOf uuid5 scope (st.derivedFrom.head?.getD "") := by
      rw [deterministicEpisodeId, hsc, ← hmr, hrf]
      rfl
    refine ⟨noteOf closed, ?_, hsc, ?_⟩
    · exact (hmid.notes _ _).mpr (.inr ⟨closed, hem, hid, rfl⟩)
    · exact hsb
  · right
    intro ref href hnot
    rcases hmid.noted_iff.mp hnot with hold | ⟨other, hoth, hsc', href'⟩
    · exact hlv ref href hold
    · have hmem := mem_scopeSegments_of_closed (hmid.subset hoth)
      rw [hsc'] at hmem
      have hsame : other = closed :=
        eq_of_mem_refs (hcut.nodup scope) hmem hcl href' (hln.subset href)
      exact hem (hsame ▸ hoth)

theorem Midway.exactlyOnce (hrs : feed.Reads store bt) : feed.ExactlyOnce store' where
  covered := by
    intro st row hrow signal hsignal
    rcases hmid.cursors st with hsame | ⟨hall, hop, hstream, hpl, hnew⟩
    · rw [hsame] at hrow
      exact hmid.represented hcut (hinv.exactlyOnce.covered st row hrow signal hsignal)
    · rw [hnew, take_add] at hrow
      rcases mem_append.mp hrow with hbef | hrd
      · exact hmid.represented hcut (hinv.exactlyOnce.covered st row hbef signal hsignal)
      · have hln := hrs st
        rw [hpl, if_neg (by simp)] at hln
        rw [← prefix_iff_eq_take.mp hln] at hrd
        rcases hcut.read st hstream hpl row hrd signal hsignal with hnot | href
        · exact .inl (hmid.noted_iff.mpr (.inl hnot))
        · exact hmid.represented_of_cut hall (hop signal.scope) href
  once := by
    intro e e' note note' hnt hnt' hsc ref href href'
    rcases (hmid.notes _ _).mp hnt with hold | ⟨closed, hcl, rfl, rfl⟩ <;>
      rcases (hmid.notes _ _).mp hnt' with hold' | ⟨closed', hcl', rfl, rfl⟩
    · exact hinv.exactlyOnce.once hold hold' hsc ref href href'
    · have hmem := mem_scopeSegments_of_closed (hmid.subset hcl')
      exact absurd ⟨e, note, hold, hsc, href⟩
        (hcut.unnoted _ ref (mem_refsOf.mpr ⟨closed', hmem, href'⟩))
    · have hmem := mem_scopeSegments_of_closed (hmid.subset hcl)
      exact absurd ⟨e', note', hold', hsc.symm, href'⟩
        (hcut.unnoted _ ref (mem_refsOf.mpr ⟨closed, hmem, href⟩))
    · have hmem := mem_scopeSegments_of_closed (hmid.subset hcl)
      have hmem' := mem_scopeSegments_of_closed (hmid.subset hcl')
      have heq : closed.scope = closed'.scope := hsc
      rw [← heq] at hmem'
      rw [eq_of_mem_refs (hcut.nodup _) hmem hmem' href href']

/-- **The invariant holds wherever a tick stops.** -/
theorem Feed.Inv.midway (hr : feed.Reads store bt) : feed.Inv uuid5 store' where
  exactlyOnce := hmid.exactlyOnce hcut hinv hr
  notes := by
    intro e note hn
    rcases (hmid.notes _ _).mp hn with hold | ⟨closed, hcl, rfl, rfl⟩
    · exact hinv.notes hold
    · exact ⟨rfl, hcut.sourced _ _ (mem_scopeSegments_of_closed (hmid.subset hcl))⟩
  records := by
    intro scope state hs
    rcases hmid.records scope with hsame | ⟨-, hnew⟩
    · rw [hsame] at hs
      obtain ⟨hsc, hsnd, -⟩ := hinv.records hs
      exact ⟨hsc, hsnd, hmid.stale_or_live hcut hinv hs⟩
    · rw [hnew] at hs
      obtain ⟨_, hsegment, rfl⟩ := Option.map_eq_some_iff.mp hs
      obtain ⟨hsc, hsnd⟩ := hcut.sound hsegment
      rw [fromState_toState]
      exact ⟨hsc, hsnd, .inr (hmid.live_of_open hcut hsegment)⟩

end Inv

/-! ### From the steps of a tick to where it stops -/

section Run

variable {batch : String → List ρ} {deletions : List String} {ws : List DurableStep}

/-- The steps after the notes: ledger, open records, cursors, deletions. -/
def laterSteps (uuid5 : String → String) (feed : Feed ρ) (store : EngineStore)
    (batch : String → List ρ) (deletions : List String) : List DurableStep :=
  ((tickSegmentation uuid5 feed store batch).closedSegments.flatMap calendarSteps ++
      persistSteps uuid5 feed store batch) ++
    (advanceSteps feed store batch ++ deletions.map DurableStep.delete)

theorem tickSteps_append_deletions :
    tickSteps uuid5 feed store batch ++ deletions.map DurableStep.delete =
      (tickSegmentation uuid5 feed store batch).closedSegments.map .emit ++
        laterSteps uuid5 feed store batch deletions := by
  simp [tickSteps, laterSteps, append_assoc]

variable {w : DurableStep}

theorem mem_laterSteps (h : w ∈ laterSteps uuid5 feed store batch deletions) :
    (∃ key, w = .consume key) ∨
      (∃ scope segment, (tickSegmentation uuid5 feed store batch).openSegments.get? scope =
        some segment ∧ w = .persist scope segment.toState) ∨
      (∃ stream ∈ feed.streams, isPolled stream = false ∧
        w = .advance stream (store.cursors stream + (batch stream).length)) ∨
      ∃ scope ∈ deletions, w = .delete scope := by
  rcases mem_append.mp h with hf | hl
  · rcases mem_append.mp hf with hcn | hp
    · obtain ⟨_, -, hm⟩ := mem_flatMap.mp hcn
      obtain ⟨_, -, rfl⟩ := mem_map.mp hm
      exact .inl ⟨_, rfl⟩
    · obtain ⟨⟨scope, segment⟩, hi, rfl⟩ := mem_map.mp hp
      exact .inr (.inl ⟨scope, segment, Dict.mem_items.mp hi, rfl⟩)
  · rcases mem_append.mp hl with ha | hd
    · obtain ⟨stream, hstream, rfl⟩ := mem_map.mp ha
      obtain ⟨hm, hpl⟩ := mem_filter.mp hstream
      exact .inr (.inr (.inl ⟨stream, hm, by simpa using hpl, rfl⟩))
    · obtain ⟨scope, hs, rfl⟩ := mem_map.mp hd
      exact .inr (.inr (.inr ⟨scope, hs, rfl⟩))

variable (hdeletions : ∀ scope ∈ deletions,
  (tickSegmentation uuid5 feed store batch).openSegments.get? scope = none)
include hdeletions

/-- A later step that writes a record writes what the fold leaves open, or removes what
it does not. -/
theorem writesRecord_later (h : w ∈ laterSteps uuid5 feed store batch deletions)
    {sc : String} {r : Option SegmentState} (hwr : w.WritesRecord sc r) :
    r = ((tickSegmentation uuid5 feed store batch).openSegments.get? sc).map
      OpenSegment.toState := by
  rcases mem_laterSteps h with ⟨key, rfl⟩ | ⟨sc', segment, hsegment, rfl⟩ |
    ⟨stream, -, -, rfl⟩ | ⟨sc', hs', rfl⟩
  · exact hwr.elim
  · obtain ⟨rfl, rfl⟩ := hwr
    rw [hsegment, Option.map_some]
  · exact hwr.elim
  · obtain ⟨rfl, rfl⟩ := hwr
    rw [hdeletions sc' hs', Option.map_none]

/-- Once a cursor has moved, all open segments are stored. -/
theorem persisted_of_advanced (hws : ws <+: laterSteps uuid5 feed store batch deletions)
    {st : String} {p : ℕ} (hadv : .advance st p ∈ ws)
    (b : EngineStore) {sc : String} {sg : OpenSegment}
    (hsegment : (tickSegmentation uuid5 feed store batch).openSegments.get? sc = some sg) :
    (applySteps uuid5 b ws).openRecords.get? sc = some sg.toState := by
  have hp : .persist sc sg.toState ∈ ws := by
    rcases Journal.prefix_append_cases hws with hel | ⟨rest, -, rfl⟩
    · -- the ledger and the open records come before the first cursor
      rcases mem_append.mp (hel.subset hadv) with hcn | hp
      · obtain ⟨_, -, hmem⟩ := mem_flatMap.mp hcn
        obtain ⟨_, -, hstep⟩ := mem_map.mp hmem
        cases hstep
      · obtain ⟨_, -, hstep⟩ := mem_map.mp hp
        cases hstep
    · refine mem_append_left _ (mem_append_right _ ?_)
      exact mem_map.mpr ⟨(sc, sg), Dict.mem_items.mpr hsegment, rfl⟩
  refine Journal.look_after_eq (fun store => store.openRecords.get? sc) hp ?_ ?_ b
  · exact fun store => Dict.get?_set_self ..
  · intro w hw store'
    rcases record_applyStep sc w store' with hwr | hsame
    · left
      rw [writesRecord_later hdeletions (hws.subset hw) hwr, hsegment, Option.map_some]
    · exact .inr hsame

/-- **Wherever a tick stops, it is midway.** -/
theorem Feed.Cut.midway
    (hcut : feed.Cut uuid5 store batch (tickSegmentation uuid5 feed store batch))
    (hinv : feed.Inv uuid5 store) (hids : feed.EpisodeIdsApart uuid5)
    (hws : ws <+: tickSteps uuid5 feed store batch ++ deletions.map DurableStep.delete) :
    ∃ emitted, Midway uuid5 feed store batch (tickSegmentation uuid5 feed store batch) emitted
      (applySteps uuid5 store ws) := by
  rw [tickSteps_append_deletions] at hws
  rcases Journal.prefix_append_cases hws with hem | ⟨later, hlat, rfl⟩
  · rw [prefix_iff_eq_take, ← map_take] at hem
    rw [hem]
    exact ⟨_, midway_of_emitting hcut hinv hids (take_subset ..)⟩
  · refine ⟨(tickSegmentation uuid5 feed store batch).closedSegments, ?_⟩
    have hnot := emitted_applySteps hcut hinv hids (List.Subset.refl _)
    rw [applySteps_append]
    refine ⟨List.Subset.refl _, ?_, ?_, ?_⟩
    · intro e note
      have hfr : ∀ w ∈ later, w.writesNotes = false := by
        intro w hw
        rcases mem_laterSteps (hlat.subset hw) with ⟨key, rfl⟩ | ⟨scope, sg, -, rfl⟩ |
          ⟨st, -, -, rfl⟩ | ⟨scope, -, rfl⟩ <;> rfl
      rw [notes_applySteps hfr]
      exact hnot e note
    · intro scope
      rcases record_applySteps uuid5 later _ scope with ⟨w, hw, hwr⟩ | hsame
      · exact .inr ⟨List.Subset.refl _, writesRecord_later hdeletions (hlat.subset hw) hwr⟩
      · left
        rw [hsame, openRecords_emitting]
    · intro st
      rcases cursor_applySteps uuid5 later _ st with ⟨w, hw, hwr⟩ | hsame
      · rcases mem_laterSteps (hlat.subset hw) with ⟨key, rfl⟩ | ⟨scope, sg, -, rfl⟩ |
          ⟨st', hstream, hpl, rfl⟩ | ⟨scope, -, rfl⟩
        · exact hwr.elim
        · exact hwr.elim
        · obtain ⟨rfl, hpos⟩ := hwr
          refine .inr ⟨List.Subset.refl _, ?_, hstream, hpl, hpos⟩
          intro scope sg hsegment
          exact persisted_of_advanced hdeletions hlat hw _ hsegment
        · exact hwr.elim
      · left
        rw [hsame, cursors_emitting]

end Run

theorem runSegmentationTick_eq_ok_iff {b : String → List ρ} {steps : List DurableStep} :
    runSegmentationTick uuid5 feed store b = .ok steps ↔
      (loadedSegments store).any (conflictsWithNote uuid5 store) = false ∧
        tickSteps uuid5 feed store b = steps := by
  rw [runSegmentationTick, bind_unit_eq_ok_iff, raiseIf_eq_ok_iff, pure_eq_ok_iff]

theorem Feed.Reaches.inv (ho : feed.OwnProvenance) (ha : feed.Unambiguous uuid5)
    (h : feed.Reaches uuid5 store) : feed.Inv uuid5 store := by
  induction h with
  | start => exact .start
  | @tick store batch steps deletions _ hr hran hd k ih =>
    obtain ⟨-, rfl⟩ := runSegmentationTick_eq_ok_iff.mp hran
    have hcut := ih.cut ho ha hr
    have hdeletions : ∀ scope ∈ deletions,
        (tickSegmentation uuid5 feed store batch).openSegments.get? scope = none := by
      intro scope hs
      have hcl := (mem_filter.mp (hd.mem_iff.mp hs)).2
      rw [Dict.get?_eq_none_iff]
      exact of_decide_eq_true hcl
    obtain ⟨_, hmid⟩ := Feed.Cut.midway hdeletions hcut ih ha.episodeIds (List.take_prefix k _)
    exact ih.midway hmid hcut hr

/-- **Complete and crashed ticks lose and duplicate nothing.**  If every row has its own
provenance and the identifiers of the feed are unambiguous, then after any sequence of
ticks, each stopped after any of its durable steps, every row behind a cursor is
represented and no evidence is in two notes. -/
theorem Feed.Reaches.evidence_exactly_once (hown : feed.OwnProvenance)
    (hamb : feed.Unambiguous uuid5)
    (h : feed.Reaches uuid5 store) : feed.ExactlyOnce store :=
  (h.inv hown hamb).exactlyOnce

/-! ### Two streams -/

namespace Sample

def twoStreams (heimdal vault : List SegmentationSignal) : Feed SegmentationSignal where
  streams := ["heimdal.observations", "vault.activity"]
  rows := fun stream =>
    if stream = "heimdal.observations" then heimdal
    else if stream = "vault.activity" then vault
    else []
  normalize := fun stream signal => if signal.streamId = stream then some signal else none
  stamped := by
    intro stream row signal hsignal
    split at hsignal
    · rename_i hstream
      rw [← Option.some_inj.mp hsignal, hstream]
    · cases hsignal

def edit (scope rowId : String) (minute : ℤ) : SegmentationSignal where
  streamId := "vault.activity"
  signalId := rowId
  observedAt := minute * 60 * 1000000
  scope := scope
  provenanceRef := "vault.activity:" ++ rowId

def read (feed : Feed SegmentationSignal) (store : EngineStore) (limit : ℕ) (stream : String) :
    List SegmentationSignal :=
  ((feed.rows stream).drop (store.cursors stream)).take limit

theorem reads (feed : Feed SegmentationSignal) (st : EngineStore) (l : ℕ) :
    feed.Reads st (read feed st l) := by
  intro stream
  split
  · exact (take_sublist ..).trans (drop_sublist ..)
  · exact take_prefix ..

def tick (feed : Feed SegmentationSignal) (store : EngineStore) (limit k : ℕ) : EngineStore :=
  applySteps id store
    ((tickSteps id feed store (read feed store limit) ++
      (closedScopes id feed store (read feed store limit)).map DurableStep.delete).take k)

theorem reaches_tick {feed : Feed SegmentationSignal} {st : EngineStore} (l k : ℕ)
    (h : feed.Reaches id st) (hok : (loadedSegments st).any (conflictsWithNote id st) = false) :
    feed.Reaches id (tick feed st l k) :=
  .tick h (reads feed st l) (runSegmentationTick_eq_ok_iff.mpr ⟨hok, rfl⟩) (.refl _) k

def meetings : Feed SegmentationSignal :=
  twoStreams [signal "work" "m1" 0, signal "work" "m2" 90] [edit "work" "e1" 5]

def recovered : EngineStore := tick meetings (tick meetings {} 5 1) 5 9

def clash : Feed SegmentationSignal :=
  twoStreams [signal "work" "m1" 0] [edit "work" "m1" 5]

end Sample

/-- The second tick reads all rows again and folds what the first one did not note. -/
theorem recovered_exactlyOnce :
    Sample.meetings.ExactlyOnce Sample.recovered ∧ Sample.recovered.notes.keys.length = 1 := by
  have hr : Sample.meetings.Reaches id Sample.recovered := by
    refine Sample.reaches_tick 5 9 (Sample.reaches_tick 5 1 .start ?_) ?_
    · decide +kernel
    · decide +kernel
  refine ⟨Feed.Reaches.evidence_exactly_once ?_ ⟨?_, ?_⟩ hr, ?_⟩
  · decide +kernel
  · unfold Feed.SignalIdsApart
    decide +kernel
  · unfold Feed.EpisodeIdsApart
    decide +kernel
  · decide +kernel

/-- **Two streams with one `signal_id` lose a row**: a complete tick moves both cursors,
and the evidence of the second row is in no note and in no open record. -/
theorem shared_signal_id_loses_evidence :
    Sample.clash.OwnProvenance ∧ ∃ store, Sample.clash.Reaches id store ∧
      ¬ Sample.clash.ExactlyOnce store := by
  refine ⟨by decide +kernel, Sample.tick Sample.clash {} 5 9, ?_, ?_⟩
  · exact Sample.reaches_tick 5 9 .start (by decide +kernel)
  · intro ho
    have hr : Sample.edit "work" "m1" 5 ∈ (Sample.clash.rows "vault.activity").take
        ((Sample.tick Sample.clash {} 5 9).cursors "vault.activity") := by
      decide +kernel
    have hl : ¬ Represented (Sample.tick Sample.clash {} 5 9) "work" "vault.activity:m1" := by
      decide +kernel
    exact hl (ho.covered "vault.activity" _ hr (Sample.edit "work" "m1" 5) (by rfl))

end AgenticPkm.Episodes
