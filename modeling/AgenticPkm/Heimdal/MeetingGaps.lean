import AgenticPkm.Heimdal.MeetingLedger

/-!
# First write wins in the meeting ledger

Rows are inserted where there was none and never changed, and a session is closed once.  So
every step of every caller lets the ledger grow only, and what one caller has seen there, no
other caller can take away.

* `meeting_ledger_first_write_wins` — what becomes of an admission, over all interleavings; a
  complete report stays so, and does not depend on the order in which segments came in.
-/

namespace AgenticPkm.MeetingLedger

open List Option

open Callers (Discipline)

/-! ### Rows and their keys -/

variable {l l' : Ledger} {sessionId : String} {row : SegmentRow} {session : MeetingSession}
  {admission : Admission} {request : Request} {point : Point} {seq : ℕ} {moves : List Move}
  {sessionSeq : ℕ} {segments : List SegmentRow} {conflicts : List SegmentConflict}

theorem getSegment_eq_some (h : l.getSegment sessionId sessionSeq = some row) :
    row ∈ l.segments ∧ row.sessionId = sessionId ∧ row.sessionSeq = sessionSeq := by
  have hk := find?_some h
  simp only [decide_eq_true_eq, SegmentRow.key, Prod.mk.injEq] at hk
  exact ⟨mem_of_find?_eq_some h, hk⟩

theorem getSession_eq_some (h : l.getSession sessionId = some session) :
    session.sessionId = sessionId := by
  have hk := find?_some h
  simpa using hk

def Stored (l : Ledger) (sessionId : String) (sessionSeq : ℕ) : Prop :=
  ∃ row, l.getSegment sessionId sessionSeq = some row

theorem stored_iff :
    Stored l sessionId sessionSeq ↔ ∃ row ∈ l.segments, row.key = (sessionId, sessionSeq) := by
  constructor
  · rintro ⟨row, hr⟩
    obtain ⟨hm, hs, hseq⟩ := getSegment_eq_some hr
    exact ⟨row, hm, by rw [SegmentRow.key, hs, hseq]⟩
  · rintro ⟨row, hm, hk⟩
    have hso : (l.getSegment sessionId sessionSeq).isSome := by
      rw [Ledger.getSegment, find?_isSome]
      exact ⟨row, hm, decide_eq_true hk⟩
    exact isSome_iff_exists.1 hso

/-- The later ledger has all that the earlier one had: its rows as they were, its sessions, as
they were once closed, and its conflicts. -/
structure Grows (l l' : Ledger) : Prop where
  segment : ∀ {sessionId sessionSeq row}, l.getSegment sessionId sessionSeq = some row →
    l'.getSegment sessionId sessionSeq = some row
  session : ∀ {sessionId session}, l.getSession sessionId = some session →
    ∃ session', l'.getSession sessionId = some session' ∧
      (session.closed = true → session' = session)
  conflicts : l.conflicts ⊆ l'.conflicts

/-- What was read of a session is still so, if it was closed. -/
def Current (l : Ledger) (session : MeetingSession) : Prop :=
  ∃ session', l.getSession session.sessionId = some session' ∧
    (session.closed = true → session' = session)

namespace Grows

theorem refl (l : Ledger) : Grows l l where
  segment h := h
  session h := ⟨_, h, fun _ => rfl⟩
  conflicts := List.Subset.refl _

theorem current (h : Grows l l') (hc : Current l session) : Current l' session := by
  obtain ⟨_, hs', hsame⟩ := hc
  obtain ⟨session'', hs'', hsame'⟩ := h.session hs'
  refine ⟨session'', hs'', fun hcl => ?_⟩
  obtain rfl := hsame hcl
  exact hsame' hcl

theorem trans {l'' : Ledger} (h : Grows l l') (h' : Grows l' l'') : Grows l l'' where
  segment hr := h'.segment (h.segment hr)
  session hs := by
    obtain rfl := getSession_eq_some hs
    exact h'.current (h.session hs)
  conflicts := List.Subset.trans h.conflicts h'.conflicts

theorem stored (h : Grows l l') (hs : Stored l sessionId sessionSeq) :
    Stored l' sessionId sessionSeq := by
  obtain ⟨row, hr⟩ := hs
  exact ⟨row, h.segment hr⟩

end Grows

/-! ### What a statement does -/

theorem grows_insertSession (l : Ledger) (s : MeetingSession) : Grows l (l.insertSession s).1 := by
  unfold Ledger.insertSession
  split
  · exact .refl l
  · refine ⟨fun h => h, fun {sessionId found} h => ⟨found, ?_, fun _ => rfl⟩, List.Subset.refl _⟩
    have h' : l.sessions.find? (fun s => s.sessionId = sessionId) = some found := h
    simp [Ledger.getSession, h']

theorem getSession_updateClosed (l : Ledger) (s s' : String) (c : ℕ) (now : String) :
    (l.updateClosed s c now).1.getSession s' =
      (l.getSession s').map fun session =>
        if session.sessionId = s ∧ session.closed = false then
          MeetingSession.close c now session else session := by
  simp only [Ledger.updateClosed, Ledger.getSession, find?_map]
  congr 2
  funext session
  simp only [Function.comp_apply]
  split <;> rfl

theorem grows_updateClosed (l : Ledger) (s : String) (c : ℕ) (now : String) :
    Grows l (l.updateClosed s c now).1 := by
  refine ⟨fun h => h, fun {s' session} h => ?_, List.Subset.refl _⟩
  rw [getSession_updateClosed, h]
  refine ⟨_, rfl, fun hcl => if_neg ?_⟩
  rintro ⟨-, ho⟩
  rw [hcl] at ho
  cases ho

theorem insertSegment_cases (l : Ledger) (row : SegmentRow) :
    (l.insertSegment row = (l, false) ∧ Stored l row.sessionId row.sessionSeq) ∨
    (l.insertSegment row = ({ l with segments := l.segments ++ [row] }, true) ∧
      ∀ other ∈ l.segments, other.key ≠ row.key) := by
  unfold Ledger.insertSegment
  split
  · next h =>
    obtain ⟨other, ho, hk⟩ := any_eq_true.1 h
    exact .inl ⟨rfl, stored_iff.2 ⟨other, ho, of_decide_eq_true hk⟩⟩
  · next h =>
    refine .inr ⟨rfl, fun other ho hk => h ?_⟩
    exact any_eq_true.2 ⟨other, ho, decide_eq_true hk⟩

theorem grows_insertSegment (l : Ledger) (row : SegmentRow) : Grows l (l.insertSegment row).1 := by
  rcases insertSegment_cases l row with ⟨heq, -⟩ | ⟨heq, -⟩
  · rw [heq]
    exact .refl l
  · rw [heq]
    refine ⟨fun {sessionId sessionSeq found} h => ?_, fun h => ⟨_, h, fun _ => rfl⟩,
      List.Subset.refl _⟩
    have h' : l.segments.find? (fun row => row.key = (sessionId, sessionSeq)) = some found := h
    simp [Ledger.getSegment, h']

theorem getSegment_insertSegment (h : l.insertSegment row = (l', true)) :
    l'.getSegment row.sessionId row.sessionSeq = some row := by
  rcases insertSegment_cases l row with ⟨heq, -⟩ | ⟨heq, hnew⟩
  · rw [heq] at h
    cases h
  · rw [heq] at h
    cases h
    have hn : l.segments.find? (fun o => o.key = (row.sessionId, row.sessionSeq)) = none := by
      rw [find?_eq_none]
      intro o ho hk
      exact hnew o ho (of_decide_eq_true hk)
    simp only [Ledger.getSegment, find?_append, hn, none_or]
    exact find?_cons_of_pos (decide_eq_true rfl)

/-- **Every step of every call lets the ledger grow.** -/
theorem grows_step (now : String) (l : Ledger) (p : Point) : Grows l (step now l p).1 := by
  cases p with
  | openInsert => exact grows_insertSession l _
  | closeUpdate sessionId cn => exact grows_updateClosed l sessionId cn now
  | admitInsert => exact grows_insertSegment l _
  | conflictInsert => exact ⟨fun h => h, fun h => ⟨_, h, fun _ => rfl⟩, subset_append_left ..⟩
  | reportConflicts _ _ lf =>
    cases lf with
    | none => exact .refl l
    | some => exact ⟨fun h => h, fun h => ⟨_, h, fun _ => rfl⟩, List.Subset.refl _⟩
  | openRead | closeLook | closeRead | admitLook | admitSession | admitRelook | conflictLook |
    reportSession | reportSegments | returned | raised => exact .refl l

theorem distinctKeys_step (h : DistinctKeys SegmentRow.key l.segments) (now : String)
    (p : Point) : DistinctKeys SegmentRow.key (step now l p).1.segments := by
  cases p with
  | openInsert =>
    simp only [step, Ledger.insertSession]
    split <;> exact h
  | admitInsert admission late =>
    simp only [step]
    rcases insertSegment_cases l (admission.row now late) with ⟨heq, -⟩ | ⟨heq, hnew⟩
    · rw [heq]
      exact h
    · rw [heq]
      simp only [DistinctKeys, map_append, map_cons, map_nil]
      refine List.Nodup.append h (nodup_singleton _) ?_
      intro key hk hm
      obtain ⟨o, ho, rfl⟩ := mem_map.1 hk
      exact hnew o ho (mem_singleton.1 hm)
  | reportConflicts _ _ lf => cases lf <;> exact h
  | closeUpdate | conflictInsert | openRead | closeLook | closeRead | admitLook | admitSession |
    admitRelook | conflictLook | reportSession | reportSegments | returned | raised => exact h

/-! ### What is known at a point of a call -/

/-- The admission is in the ledger, or left its conflict there. -/
def Settled (l : Ledger) (admission : Admission) : Prop :=
  ∃ row, l.getSegment admission.sessionId admission.sessionSeq = some row ∧
    (row.contentSha256 = admission.contentSha256 ∨
      ∃ conflict ∈ l.conflicts, conflict.isOf admission = true)

/-- A session is closed and has all its segments. -/
def Complete (l : Ledger) (sessionId : String) : Prop :=
  ∃ session count, l.getSession sessionId = some session ∧ session.closed = true ∧
    session.finalSeqCount = some count ∧ ∀ seq < count, Stored l sessionId seq

theorem Grows.settled (h : Grows l l') (hs : Settled l admission) : Settled l' admission := by
  obtain ⟨row, hr, hcn⟩ := hs
  refine ⟨row, h.segment hr, hcn.imp_right ?_⟩
  rintro ⟨conflict, hm, hof⟩
  exact ⟨conflict, h.conflicts hm, hof⟩

theorem Grows.complete (h : Grows l l') (hc : Complete l sessionId) : Complete l' sessionId := by
  obtain ⟨session, cn, hs, hcl, hct, ha⟩ := hc
  obtain ⟨session', hs', hsame⟩ := h.session hs
  obtain rfl := hsame hcl
  exact ⟨session', cn, hs', hcl, hct, fun seq hseq => h.stored (ha seq hseq)⟩

theorem Settled.stored (h : Settled l admission) :
    Stored l admission.sessionId admission.sessionSeq := by
  obtain ⟨row, hr, -⟩ := h
  exact ⟨row, hr⟩

/-- What holds when a call is at a point. -/
def Known (l : Ledger) (request : Request) : Point → Prop
  | .admitLook admission => request.admission? = some admission
  | .admitSession admission => request.admission? = some admission
  | .admitInsert admission late => request.admission? = some admission ∧
      (late = true → (l.getSession admission.sessionId).isSome)
  | .admitRelook admission => request.admission? = some admission ∧
      Stored l admission.sessionId admission.sessionSeq
  | .conflictLook admission => request.admission? = some admission ∧
      Stored l admission.sessionId admission.sessionSeq
  | .conflictInsert admission => request.admission? = some admission ∧
      Stored l admission.sessionId admission.sessionSeq
  | .reportSession sessionId (some admission) => request.admission? = some admission ∧
      Settled l admission ∧ (l.getSession sessionId).isSome
  | .reportSegments _ (some admission) => request.admission? = some admission ∧
      Settled l admission
  | .reportConflicts _ _ (some admission) => request.admission? = some admission ∧
      Settled l admission
  | .reportSegments session none => request.admission? = none ∧ Current l session
  | .reportConflicts session segments none => request.admission? = none ∧ Current l session ∧
      ∀ row ∈ segments, Stored l session.sessionId row.sessionSeq
  | .returned (.segment _ _) => ∃ admission, request.admission? = some admission ∧
      Settled l admission
  | .returned (.report report) => request.admission? = none ∧
      (report.complete = true → Complete l report.sessionId)
  | _ => request.admission? = none

theorem Known.grows (h : Known l request point) (hg : Grows l l') : Known l' request point := by
  have hso : ∀ {sessionId}, (l.getSession sessionId).isSome → (l'.getSession sessionId).isSome := by
    intro sessionId hso
    obtain ⟨session, hss⟩ := isSome_iff_exists.1 hso
    obtain ⟨session', hss', -⟩ := hg.session hss
    exact isSome_iff_exists.2 ⟨session', hss'⟩
  cases point with
  | admitInsert => exact ⟨h.1, fun hl => hso (h.2 hl)⟩
  | admitRelook | conflictLook | conflictInsert => exact ⟨h.1, hg.stored h.2⟩
  | reportSession _ lf =>
    cases lf with
    | none => exact h
    | some => exact ⟨h.1, hg.settled h.2.1, hso h.2.2⟩
  | reportSegments _ lf =>
    cases lf with
    | none => exact ⟨h.1, hg.current h.2⟩
    | some => exact ⟨h.1, hg.settled h.2⟩
  | reportConflicts _ _ lf =>
    cases lf with
    | none => exact ⟨h.1, hg.current h.2.1, fun row hr => hg.stored (h.2.2 row hr)⟩
    | some => exact ⟨h.1, hg.settled h.2⟩
  | returned result =>
    cases result with
    | session => exact h
    | segment =>
      obtain ⟨admission, ha, hs⟩ := h
      exact ⟨admission, ha, hg.settled hs⟩
    | report => exact ⟨h.1, fun hcm => hg.complete (h.2 hcm)⟩
  | openInsert | openRead | closeLook | closeUpdate | closeRead | admitLook | admitSession |
    raised => exact h

/-- The points at which a call that is no admission starts. -/
def First : Point → Prop
  | .openInsert .. => True
  | .closeLook .. => True
  | .reportSession _ none => True
  | .raised _ => True
  | _ => False

theorem start_cases (r : Request) :
    r.admission? = none ∧ First (start r) ∨
    ∃ admission, r.admission? = some admission ∧ start r = .admitLook admission := by
  cases r with
  | openSession sessionId d =>
    refine .inl ⟨rfl, ?_⟩
    simp only [start, validateSessionId]
    split
    · trivial
    · by_cases hd : strip d = "" <;> simp only [hd] <;> trivial
  | close _ cn =>
    refine .inl ⟨rfl, ?_⟩
    simp only [start, validateSessionId]
    split
    · trivial
    · cases validateCount .finalSeqCountOutOfRange cn <;> trivial
  | admission sessionId seq ri content rr ti =>
    simp only [start, Request.admission?]
    cases validateAdmission sessionId seq ri content rr ti with
    | error => exact .inl ⟨rfl, trivial⟩
    | ok admission => exact .inr ⟨admission, rfl, rfl⟩
  | report sessionId =>
    refine .inl ⟨rfl, ?_⟩
    simp only [start]
    cases validateSessionId sessionId <;> trivial

theorem known_start (l : Ledger) (r : Request) : Known l r (start r) := by
  rcases start_cases r with ⟨hn, hf⟩ | ⟨admission, hs, heq⟩
  · generalize start r = point at hf
    cases point with
    | openInsert | closeLook | raised => exact hn
    | reportSession _ lf =>
      cases lf with
      | none => exact hn
      | some => cases hf
    | _ => cases hf
  · rw [heq]
    exact hs

/-- The report is complete exactly when the session was read as closed and every number below
its count was among the segments read. -/
theorem gapReport_complete_iff :
    (gapReport session segments conflicts).complete ↔
      session.closed ∧ ∃ count, session.finalSeqCount = some count ∧
        ∀ seq < count, ∃ row ∈ segments, row.sessionSeq = seq := by
  rw [gapReport, Bool.and_eq_true, Option.any_eq_true]
  simp

theorem mem_segmentsForSession :
    row ∈ l.segmentsForSession sessionId ↔ row ∈ l.segments ∧ row.sessionId = sessionId := by
  simp [Ledger.segmentsForSession]

theorem stored_iff_segmentsForSession :
    Stored l sessionId seq ↔ ∃ row ∈ l.segmentsForSession sessionId, row.sessionSeq = seq := by
  simp [stored_iff, mem_segmentsForSession, SegmentRow.key, and_assoc]

theorem known_step (now : String) (h : Known l request point) :
    Known (step now l point).1 request (step now l point).2 := by
  have hgrw := grows_step now l point
  cases point with
  | openInsert => exact h
  | openRead sessionId created | closeLook sessionId cn | closeRead sessionId newlyClosed =>
    simp only [step]
    cases l.getSession sessionId <;> exact h
  | closeUpdate => exact h
  | admitLook admission =>
    simp only [step]
    cases hget : l.getSegment admission.sessionId admission.sessionSeq with
    | none => exact h
    | some e =>
      simp only
      split
      · next hcn => exact ⟨admission, h, e, hget, .inl hcn⟩
      · exact ⟨h, e, hget⟩
  | admitSession admission =>
    refine ⟨h, fun hlt => ?_⟩
    simp only [step] at hlt ⊢
    cases hget : l.getSession admission.sessionId with
    | none => simp [hget] at hlt
    | some => rfl
  | admitInsert admission late =>
    obtain ⟨hadm, hss⟩ := h
    rcases insertSegment_cases l (admission.row now late) with ⟨heq, hsr⟩ | ⟨heq, -⟩
    · simp only [step, heq]
      exact ⟨hadm, hsr⟩
    · have hrow := getSegment_insertSegment heq
      have hst : Settled { l with segments := l.segments ++ [admission.row now late] }
          admission := ⟨_, hrow, .inl rfl⟩
      simp only [step, heq]
      cases late with
      | true => exact ⟨hadm, hst, hss rfl⟩
      | false => exact ⟨admission, hadm, hst⟩
  | admitRelook admission =>
    obtain ⟨hadm, row, hrow⟩ := h
    simp only [step, hrow]
    split
    · next hcn => exact ⟨admission, hadm, row, hrow, .inl hcn⟩
    · exact ⟨hadm, row, hrow⟩
  | conflictLook admission =>
    obtain ⟨hadm, row, hrow⟩ := h
    simp only [step]
    split
    · next hany =>
      obtain ⟨conflict, hmem, hof⟩ := any_eq_true.1 hany
      exact ⟨admission, hadm, row, hrow, .inr ⟨conflict, hmem, hof⟩⟩
    · exact ⟨hadm, row, hrow⟩
  | conflictInsert admission =>
    obtain ⟨hadm, row, hrow⟩ := h
    refine ⟨admission, hadm, row, hrow, .inr ⟨admission.conflict now, ?_, ?_⟩⟩
    · exact mem_append_right _ mem_cons_self
    · simp [SegmentConflict.isOf, Admission.conflict]
  | reportSession sessionId lf =>
    simp only [step]
    cases hget : l.getSession sessionId with
    | none =>
      cases lf with
      | none => exact h
      | some => simp [Known, hget] at h
    | some session =>
      cases lf with
      | none =>
        refine ⟨h, session, ?_, fun _ => rfl⟩
        rw [getSession_eq_some hget, hget]
      | some => exact ⟨h.1, h.2.1⟩
  | reportSegments _ lf =>
    cases lf with
    | none =>
      refine ⟨h.1, h.2, fun row hrow => ?_⟩
      exact stored_iff_segmentsForSession.2 ⟨row, hrow, rfl⟩
    | some => exact h
  | reportConflicts _ _ lf =>
    cases lf with
    | none =>
      refine ⟨h.1, fun hcm => ?_⟩
      obtain ⟨-, ⟨session', hss', hsame⟩, hrw⟩ := h
      obtain ⟨hcl, cn, hct, hall⟩ := gapReport_complete_iff.1 hcm
      obtain rfl := hsame hcl
      refine ⟨session', cn, hss', hcl, hct, fun seq hseq => ?_⟩
      obtain ⟨row, hrow, rfl⟩ := hall seq hseq
      exact hrw row hrow
    | some admission => exact ⟨admission, h.1, h.2⟩
  | returned => exact h
  | raised => exact h

theorem discipline : Discipline start step
    (fun l : Ledger => DistinctKeys SegmentRow.key l.segments) Grows
    (fun l _ request point => Known l request point) where
  refl := Grows.refl
  trans := Grows.trans
  starts l _ request _ := known_start l request
  keeps now _ _ _ point h _ := distinctKeys_step h now point
  guarantees now l _ _ point _ _ := grows_step now l point
  advances now _ _ _ _ _ h := known_step now h
  stable hg h := h.grows hg

/-! ### Later reports -/

/-- What holds at a point of a call made after the session was complete. -/
def Later (l : Ledger) (sessionId : String) : Point → Prop
  | .reportSegments session _ => session.sessionId = sessionId →
      session.closed = true ∧ l.getSession sessionId = some session
  | .reportConflicts session segments _ => session.sessionId = sessionId →
      session.closed = true ∧ ∃ count, session.finalSeqCount = some count ∧
        ∀ seq < count, ∃ row ∈ segments, row.sessionSeq = seq
  | .returned (.report report) => report.sessionId = sessionId → report.complete = true
  | _ => True

theorem later_start (l : Ledger) (s : String) (r : Request) : Later l s (start r) := by
  rcases start_cases r with ⟨-, hf⟩ | ⟨admission, -, heq⟩
  · generalize start r = point at hf
    cases point with
    | openInsert | closeLook | raised | reportSession => trivial
    | _ => cases hf
  · rw [heq]
    trivial

theorem Later.grows (h : Later l sessionId point) (hg : Grows l l') : Later l' sessionId point := by
  cases point with
  | reportSegments session =>
    intro hid
    obtain ⟨hcl, hs⟩ := h hid
    obtain ⟨_, hs', hsame⟩ := hg.session hs
    rw [hsame hcl] at hs'
    exact ⟨hcl, hs'⟩
  | reportConflicts => exact h
  | returned result => cases result <;> exact h
  | _ => trivial

theorem later_step (now : String) (hcm : Complete l sessionId) (h : Later l sessionId point) :
    Later (step now l point).1 sessionId (step now l point).2 := by
  obtain ⟨_, cn, hcur, hcl, hct, ha⟩ := hcm
  cases point with
  | reportSession sessionId' =>
    simp only [step]
    cases hg : l.getSession sessionId' with
    | none => trivial
    | some =>
      intro hid
      obtain rfl := (getSession_eq_some hg).symm.trans hid
      rw [hcur] at hg
      cases hg
      exact ⟨hcl, hcur⟩
  | reportSegments =>
    intro hid
    obtain ⟨-, hs⟩ := h hid
    rw [hcur] at hs
    cases hs
    refine ⟨hcl, cn, hct, fun seq hseq => ?_⟩
    rw [hid]
    exact stored_iff_segmentsForSession.1 (ha seq hseq)
  | reportConflicts _ _ lf =>
    cases lf with
    | none => exact fun hid => gapReport_complete_iff.2 (h hid)
    | some => trivial
  | returned result => cases result <;> exact h
  | openRead sessionId' created | closeLook sessionId' cn' | closeRead sessionId' newlyClosed =>
    simp only [step]
    cases l.getSession sessionId' <;> trivial
  | admitInsert =>
    simp only [step]
    split
    · trivial
    · split <;> trivial
  | admitLook admission | admitRelook admission =>
    simp only [step]
    cases l.getSegment admission.sessionId admission.sessionSeq with
    | none => trivial
    | some =>
      simp only
      split <;> trivial
  | conflictLook =>
    simp only [step]
    split <;> trivial
  | openInsert | closeUpdate | admitSession | conflictInsert | raised => trivial

theorem discipline_later (s : String) (n : ℕ) : Discipline start step
    (fun l : Ledger => Complete l s) Grows
    (fun l i _ point => n ≤ i → Later l s point) where
  refl := Grows.refl
  trans := Grows.trans
  starts l _ request _ _ := later_start l s request
  keeps now l _ _ point h _ := (grows_step now l point).complete h
  guarantees now l _ _ point _ _ := grows_step now l point
  advances now _ _ _ _ hcm h hi := later_step now hcm (h hi)
  stable hg h hi := (h hi).grows hg

/-! ### Runs -/

theorem kept_after (m : List Move) :
    Discipline.Kept (fun l : Ledger => DistinctKeys SegmentRow.key l.segments)
      (fun l _ request point => Known l request point) (after m) := by
  refine (discipline.kept_after (s := ⟨({} : Ledger), []⟩) ⟨nodup_nil, fun _ _ _ h => ?_⟩ m).1
  simp at h

theorem after_append (m more : List Move) :
    after (m ++ more) = Callers.after start step (after m) more :=
  Callers.after_append ..

theorem after_concat (m : List Move) (move : Move) :
    after (m ++ [move]) = Callers.next start step (after m) move :=
  Callers.after_concat ..

theorem grows_after (m more : List Move) : Grows (after m).store (after (m ++ more)).store := by
  rw [after_append]
  exact (discipline.kept_after (kept_after m) more).2

def Quiet (s : System) : Prop := ∀ caller ∈ s.callers, caller.2.ended = true

instance : DecidablePred Quiet := fun s =>
  inferInstanceAs (Decidable (∀ caller ∈ s.callers, caller.2.ended = true))

def Admitted (s : System) (sessionId : String) (seq : ℕ) (content : String) : Prop :=
  ∃ caller ∈ s.callers, ∃ admission, caller.1.admission? = some admission ∧
    admission.sessionId = sessionId ∧ admission.sessionSeq = seq ∧
    admission.contentSha256 = content

theorem step_segments {now : String} (h : row ∈ (step now l point).1.segments) :
    row ∈ l.segments ∨ ∃ admission late, point = .admitInsert admission late ∧
      row.key = (admission.sessionId, admission.sessionSeq) := by
  cases point with
  | openInsert =>
    simp only [step, Ledger.insertSession] at h
    split at h <;> exact .inl h
  | admitInsert admission late =>
    simp only [step] at h
    rcases insertSegment_cases l (admission.row now late) with ⟨heq, -⟩ | ⟨heq, -⟩
    · rw [heq] at h
      exact .inl h
    · rw [heq] at h
      rcases mem_append.1 h with h | h
      · exact .inl h
      · rw [mem_singleton.1 h]
        exact .inr ⟨admission, late, rfl, rfl⟩
  | reportConflicts _ _ lf => cases lf <;> exact .inl h
  | _ => exact .inl h

theorem admitted_of_mem_segments (m : List Move) (h : row ∈ (after m).store.segments) :
    ∃ content, Admitted (after m) row.sessionId row.sessionSeq content := by
  induction m using List.reverseRecOn with
  | nil => cases h
  | append_singleton m move ih =>
    have hcontent : ∀ {seq content}, Admitted (after m) row.sessionId seq content →
        Admitted (after (m ++ [move])) row.sessionId seq content := by
      rintro seq content ⟨caller, hcl, admission, hadm, hr⟩
      obtain ⟨i, hi⟩ := getElem?_of_mem hcl
      obtain ⟨request, point⟩ := caller
      obtain ⟨point', hp'⟩ := Callers.request_next (after m) move hi
      rw [after_concat]
      exact ⟨(request, point'), mem_of_getElem? hp', admission, hadm, hr⟩
    have hold : row ∈ (after m).store.segments →
        ∃ content, Admitted (after (m ++ [move])) row.sessionId row.sessionSeq content := by
      intro hrow
      obtain ⟨content, ha⟩ := ih hrow
      exact ⟨content, hcontent ha⟩
    rw [after_concat] at h
    rcases Callers.store_next (after m) move with hsame | ⟨ind, now, request, point, rfl, hind⟩
    · rw [hsame] at h
      exact hold h
    · rw [Callers.store_next_step hind] at h
      rcases step_segments h with hrow | ⟨admission, late, rfl, hkey⟩
      · exact hold hrow
      · -- the caller that inserted the row was asked for it
        have hk := (kept_after m).2 ind request _ hind
        rw [SegmentRow.key, Prod.mk.injEq] at hkey
        refine ⟨admission.contentSha256, hcontent ?_⟩
        exact ⟨_, mem_of_getElem? hind, admission, hk.1, hkey.1.symm, hkey.2.symm, rfl⟩

theorem settled_of_ended (h : Known l request point) (hend : point.ended)
    (ha : request.admission? = some admission) : Settled l admission := by
  have hn : request.admission? ≠ none := by simp [ha]
  cases point with
  | returned result =>
    cases result with
    | session => exact absurd h hn
    | segment =>
      obtain ⟨_, ha', hs⟩ := h
      rw [ha] at ha'
      cases ha'
      exact hs
    | report => exact absurd h.1 hn
  | raised => exact absurd h hn
  | _ => cases hend

theorem stored_iff_admitted (hq : Quiet (after moves)) :
    Stored (after moves).store sessionId seq ↔
      ∃ content, Admitted (after moves) sessionId seq content := by
  constructor
  · rintro ⟨row, hr⟩
    obtain ⟨hm, rfl, rfl⟩ := getSegment_eq_some hr
    exact admitted_of_mem_segments moves hm
  · rintro ⟨content, caller, hcl, admission, ha, rfl, rfl, -⟩
    obtain ⟨i, hi⟩ := getElem?_of_mem hcl
    obtain ⟨request, point⟩ := caller
    have hk := (kept_after moves).2 i request point hi
    exact (settled_of_ended hk (hq _ hcl) ha).stored

/-! ### The report and the order of admissions -/

/-- What a report says of a session. -/
def GapReport.summary (report : GapReport) : List ℕ × List ℕ × Bool :=
  (report.received, report.missing, report.complete)

/-- The close record of a session, as a report reads it. -/
def MeetingSession.closeRecord (session : MeetingSession) : Bool × Option ℕ :=
  (session.closed, session.finalSeqCount)

theorem nodup_seqs (h : DistinctKeys SegmentRow.key l.segments) (s : String) :
    ((l.segmentsForSession s).map SegmentRow.sessionSeq).Nodup := by
  have hr : (l.segments.filter fun row => row.sessionId = s).Pairwise
      fun a b => a.sessionSeq ≠ b.sessionSeq := by
    rw [pairwise_filter]
    refine (pairwise_map.1 h).imp fun {a b} hab ha hb hseq => hab ?_
    rw [SegmentRow.key, SegmentRow.key, of_decide_eq_true ha, of_decide_eq_true hb, hseq]
  have hp := (perm_sortedBy SegmentRow.sessionSeq
    (l.segments.filter fun row => row.sessionId = s)).map SegmentRow.sessionSeq
  exact hp.nodup_iff.2 (pairwise_map.2 hr)

theorem received_congr (h : DistinctKeys SegmentRow.key l.segments)
    (h' : DistinctKeys SegmentRow.key l'.segments)
    (hsame : ∀ seq, Stored l sessionId seq ↔ Stored l' sessionId seq) :
    sortedBy id ((l.segmentsForSession sessionId).map SegmentRow.sessionSeq) =
      sortedBy id ((l'.segmentsForSession sessionId).map SegmentRow.sessionSeq) := by
  have hp : ((l.segmentsForSession sessionId).map SegmentRow.sessionSeq).Perm
      ((l'.segmentsForSession sessionId).map SegmentRow.sessionSeq) := by
    rw [perm_ext_iff_of_nodup (nodup_seqs h sessionId) (nodup_seqs h' sessionId)]
    intro seq
    rw [List.mem_map, List.mem_map, ← stored_iff_segmentsForSession,
      ← stored_iff_segmentsForSession]
    exact hsame seq
  exact sortedBy_eq_of_perm (fun _ _ _ _ h => h) hp

theorem summary_congr {session' : MeetingSession} {s' : List SegmentRow}
    {c' : List SegmentConflict} (hcl : session.closeRecord = session'.closeRecord)
    (hr : sortedBy id (s.map SegmentRow.sessionSeq) = sortedBy id (s'.map SegmentRow.sessionSeq)) :
    (gapReport session s c).summary = (gapReport session' s' c').summary := by
  obtain ⟨hcs, hct⟩ := Prod.mk.injEq .. ▸ hcl
  simp [GapReport.summary, gapReport, expected, hr, hcs, hct]

theorem report_congr {m' : List Move} (hq : Quiet (after m)) (hq' : Quiet (after m'))
    (hcl : ((after m).store.getSession sessionId).map MeetingSession.closeRecord =
      ((after m').store.getSession sessionId).map MeetingSession.closeRecord)
    (hsame : ∀ seq content, Admitted (after m) sessionId seq content ↔
      Admitted (after m') sessionId seq content) :
    (buildGapReport (after m).store sessionId).map GapReport.summary =
      (buildGapReport (after m').store sessionId).map GapReport.summary := by
  have hs : ∀ seq, Stored (after m).store sessionId seq ↔
      Stored (after m').store sessionId seq := by
    intro seq
    rw [stored_iff_admitted hq, stored_iff_admitted hq']
    exact exists_congr fun content => hsame seq content
  have hr := received_congr (kept_after m).1 (kept_after m').1 hs
  unfold buildGapReport
  cases hg : (after m).store.getSession sessionId with
  | none =>
    cases hg' : (after m').store.getSession sessionId with
    | none => rfl
    | some => simp [hg, hg'] at hcl
  | some =>
    cases hg' : (after m').store.getSession sessionId with
    | none => simp [hg, hg'] at hcl
    | some =>
      rw [hg, hg'] at hcl
      exact congrArg Except.ok (summary_congr (Option.some.inj hcl) hr)

theorem complete_of_later {more : List Move} {i j : ℕ} {r' : Request} {rp rp' : GapReport}
    (hr : (after moves).callers[i]? = some (r, .returned (.report rp))) (hcm : rp.complete)
    (hj : (after moves).callers.length ≤ j)
    (hr' : (after (moves ++ more)).callers[j]? = some (r', .returned (.report rp')))
    (hsame : rp'.sessionId = rp.sessionId) : rp'.complete := by
  have hk := (kept_after moves).2 i r _ hr
  have hkp : Discipline.Kept (fun l : Ledger => Complete l rp.sessionId)
      (fun l i _ point => (after moves).callers.length ≤ i → Later l rp.sessionId point)
      (after moves) := by
    refine ⟨hk.2 hcm, fun i r point hi hle => ?_⟩
    have hlt := (List.getElem?_eq_some_iff.1 hi).1
    omega
  have hl := (discipline_later rp.sessionId (after moves).callers.length).kept_after hkp more
  rw [← after_append] at hl
  exact hl.1.2 j r' _ hr' hj hsame

/-- **First write wins, and order does not matter.**  In every interleaving, a pair has one row
and keeps it, a close record stays as it was written, an admission that has returned has its
content in the row or left a conflict, and reports stay complete; and once no call is under way,
the report depends on the close record and on what was admitted, in whatever order. -/
theorem meeting_ledger_first_write_wins :
    (∀ moves : List Move, DistinctKeys SegmentRow.key (after moves).store.segments) ∧
    (∀ (moves more : List Move) (sessionId : String) (seq : ℕ) (row : SegmentRow),
      (after moves).store.getSegment sessionId seq = some row →
      (after (moves ++ more)).store.getSegment sessionId seq = some row) ∧
    (∀ (moves more : List Move) (sessionId : String) (session : MeetingSession),
      (after moves).store.getSession sessionId = some session → session.closed = true →
      (after (moves ++ more)).store.getSession sessionId = some session) ∧
    (∀ (moves : List Move) (request : Request) (point : Point) (admission : Admission),
      (request, point) ∈ (after moves).callers → point.ended = true →
      request.admission? = some admission →
      ∃ row, (after moves).store.getSegment admission.sessionId admission.sessionSeq = some row ∧
        (row.contentSha256 ≠ admission.contentSha256 →
          ∃ conflict ∈ (after moves).store.conflicts, conflict.isOf admission = true)) ∧
    (∀ (moves more : List Move) (i j : ℕ) (request request' : Request)
      (report report' : GapReport),
      (after moves).callers[i]? = some (request, .returned (.report report)) →
      report.complete = true → (after moves).callers.length ≤ j →
      (after (moves ++ more)).callers[j]? = some (request', .returned (.report report')) →
      report'.sessionId = report.sessionId → report'.complete = true) ∧
    (∀ (moves moves' : List Move) (sessionId : String),
      Quiet (after moves) → Quiet (after moves') →
      ((after moves).store.getSession sessionId).map MeetingSession.closeRecord =
        ((after moves').store.getSession sessionId).map MeetingSession.closeRecord →
      (∀ seq content, Admitted (after moves) sessionId seq content ↔
        Admitted (after moves') sessionId seq content) →
      (buildGapReport (after moves).store sessionId).map GapReport.summary =
        (buildGapReport (after moves').store sessionId).map GapReport.summary) := by
  refine ⟨fun moves => (kept_after moves).1,
    fun moves more _ _ _ hrow => (grows_after moves more).segment hrow,
    fun moves more _ session hs hcs => ?_,
    fun moves request point admission hca hend hadm => ?_,
    fun moves more i j request request' report report' => complete_of_later,
    fun _ _ _ hq hq' hcl hsame => report_congr hq hq' hcl hsame⟩
  · obtain ⟨session', hs', hsame⟩ := (grows_after moves more).session hs
    rw [hs', hsame hcs]
  · obtain ⟨i, hi⟩ := getElem?_of_mem hca
    have hk := (kept_after moves).2 i request point hi
    obtain ⟨row, hrow, hcn⟩ := settled_of_ended hk hend hadm
    exact ⟨row, hrow, fun hne => hcn.resolve_left hne⟩

def alone (index steps : ℕ) (request : Request) : List Move :=
  .call request :: List.replicate steps (.step index "2026-01-01T00:00:00Z")

def segmentThenClose : List Move :=
  alone 0 2 (.openSession "m" "phone" .null "") ++
    alone 1 3 (.admission "m" 0 "receipt" "hash" "raw" "") ++ alone 2 3 (.close "m" 1)

def closeThenSegment : List Move :=
  alone 0 2 (.openSession "m" "phone" .null "") ++ alone 1 3 (.close "m" 1) ++
    alone 2 6 (.admission "m" 0 "receipt" "hash" "raw" "")

theorem admitted_iff_requests {s : System} {content : String} :
    Admitted s sessionId seq content ↔
      ∃ request, request ∈ s.callers.map Prod.fst ∧
        ∃ admission, request.admission? = some admission ∧ admission.sessionId = sessionId ∧
          admission.sessionSeq = seq ∧ admission.contentSha256 = content := by
  constructor
  · rintro ⟨caller, hcl, ha⟩
    exact ⟨caller.1, mem_map_of_mem hcl, ha⟩
  · rintro ⟨request, hr, ha⟩
    obtain ⟨caller, hcl, rfl⟩ := mem_map.1 hr
    exact ⟨caller, hcl, ha⟩

theorem late_segment_same_report :
    Quiet (after segmentThenClose) ∧ Quiet (after closeThenSegment) ∧
    (buildGapReport (after segmentThenClose).store "m").map GapReport.summary =
      (buildGapReport (after closeThenSegment).store "m").map GapReport.summary := by
  have hq : Quiet (after segmentThenClose) := by decide +kernel
  have hq' : Quiet (after closeThenSegment) := by decide +kernel
  obtain ⟨-, -, -, -, -, ho⟩ := meeting_ledger_first_write_wins
  refine ⟨hq, hq', ho _ _ "m" hq hq' (by decide +kernel) fun seq content => ?_⟩
  have hcl : (after segmentThenClose).callers.map Prod.fst =
      [.openSession "m" "phone" .null "", .admission "m" 0 "receipt" "hash" "raw" "",
        .close "m" 1] := by rfl
  have hcl' : (after closeThenSegment).callers.map Prod.fst =
      [.openSession "m" "phone" .null "", .close "m" 1,
        .admission "m" 0 "receipt" "hash" "raw" ""] := by rfl
  rw [admitted_iff_requests, admitted_iff_requests, hcl, hcl']
  refine exists_congr fun request => and_congr_left' ?_
  simp only [mem_cons, not_mem_nil, or_false]
  exact or_congr_right or_comm

end AgenticPkm.MeetingLedger
