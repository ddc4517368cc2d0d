import AgenticPkm.Lib.Callers
import AgenticPkm.Lib.Dict
import AgenticPkm.Lib.KeyedList
import AgenticPkm.Lib.Text

/-!
# The revisions of a meeting note

A note of the user is a block with a history of revisions.  A request sends one revision: it looks
for the revision in the history, asks the guard of the block, reads the history for the latest
revision, has the guard write the block, commits an event, inserts the revision and answers.
Each of these is a step of its own.  Two requests of one revision can both find the history without
it; the insert of the second is ignored, and both are acknowledged, each with its own text.

* `notesKept_of_oneAtATime` — **requests that do not overlap are kept**.
-/

namespace AgenticPkm.UserNotes

open Callers

/-! ### The guard of a block -/

/-- `BLOCK_TYPES`. -/
inductive BlockType
  | userNote
  | derivedProjection
  | transcriptSegment
  deriving DecidableEq

/-- `MeetingBlock`, with the fields that requests read; `editorIdentity` is of its provenance. -/
structure MeetingBlock where
  sessionId : String
  blockType : BlockType
  editorIdentity : String
  content : String
  revision : ℕ

/-- `UserNoteRequest`, with the session of its path. -/
structure UserNoteRequest where
  sessionId : String
  revision : ℕ
  text : String
  editorIdentity : String

/-- `_authorize_target` for the writer of the request, who is a user editor. -/
def authorizeTarget (body : UserNoteRequest) (block : MeetingBlock) : Option String :=
  if block.sessionId ≠ body.sessionId then
    some "block belongs to a different session (ownership conflict)"
  else if block.blockType = .userNote then
    if strip body.editorIdentity = "" ∨
        (block.editorIdentity ≠ "" ∧ body.editorIdentity ≠ block.editorIdentity) then
      some "editor identity does not match the note's recorded editor"
    else none
  else some ("writer provenance does not own this block " ++
    "(derived writers are confined to their own provenance)")

/-- A revise that only asks (`verify_only`). -/
def verifyOnly (body : UserNoteRequest) : Option MeetingBlock → Option String
  | none => some "unknown block_id (fail closed: nothing was written)"
  | some existing => authorizeTarget body existing

/-! ### One request -/

/-- The block and the rows of its history.  `writes` is not stored: it has the revision and the
text of every request that wrote the block. -/
structure NoteStore where
  block : Option MeetingBlock := none
  noteRevisions : Dict ℕ String := ∅
  writes : List (ℕ × String) := []

/-- Why a request is not acknowledged. -/
inductive Refusal
  | sessionUnknown
  | blockWriteRefused (reason : String)
  | noteRevisionConflict
  | staleNoteRevision (latestAcked : ℕ)
  | noteEventCommitFailed
  deriving DecidableEq

/-- Where a request is: the store operation it makes next, or its end. -/
inductive Stage
  | getMeetingSession
  | getNoteRevision
  /-- the revision was found with this text -/
  | replayAuth (existing : String)
  | getBlock
  | preAuth
  /-- `noteRevisions` is read next; the block was there, or was not -/
  | latestAcked (present : Bool)
  | create
  | insertBlock
  /-- the block that was inserted first is read -/
  | racer
  | revise
  | updateBlock (existing : MeetingBlock)
  | emitUserNoteEvent
  | insertNoteRevision
  | respond
  | acknowledged
  | refused (refusal : Refusal)

structure Point where
  body : UserNoteRequest
  stage : Stage

def NoteStore.content (s : NoteStore) : Option String := s.block.map (·.content)

/-- The stage after the create finds a block: a replay, or a refusal. -/
def replayed (body : UserNoteRequest) (existing : MeetingBlock) (reason : String) : Stage :=
  if existing.blockType = .userNote ∧ existing.content = body.text then .emitUserNoteEvent
  else .refused (.blockWriteRefused reason)

/-- The operations that read only. -/
def read (ok : Bool) (s : NoteStore) (body : UserNoteRequest) : Stage → Stage
  | .getMeetingSession => if ok then .getNoteRevision else .refused .sessionUnknown
  | .getNoteRevision =>
      match s.noteRevisions.get? body.revision with
      | some existing => .replayAuth existing
      | none => .getBlock
  | .replayAuth existing =>
      match verifyOnly body s.block with
      | some reason => .refused (.blockWriteRefused reason)
      | none => if existing ≠ body.text then .refused .noteRevisionConflict else .acknowledged
  | .getBlock => if s.block.isSome then .preAuth else .latestAcked false
  | .preAuth =>
      match verifyOnly body s.block with
      | some reason => .refused (.blockWriteRefused reason)
      | none => .latestAcked true
  | .latestAcked present =>
      if body.revision ≤ s.noteRevisions.keys.foldl max 0 then
        .refused (.staleNoteRevision (s.noteRevisions.keys.foldl max 0))
      else if present then .revise else .create
  | .create =>
      match s.block with
      | some existing =>
          match authorizeTarget body existing with
          | some reason => .refused (.blockWriteRefused reason)
          | none => replayed body existing ("block_id already exists with different identity " ++
              "or content (block ids are never reused)")
      | none =>
          if strip body.editorIdentity = "" then .refused (.blockWriteRefused
            "user_note blocks are writable only by the user's editor identity (INV-CDLM-6)")
          else .insertBlock
  | .racer =>
      match s.block with
      | some racer =>
          if (authorizeTarget body racer).isNone then
            replayed body racer "block_id was concurrently minted with different content"
          else .refused (.blockWriteRefused
            "block_id was concurrently minted with different content")
      | none => .refused (.blockWriteRefused
          "block_id was concurrently minted with different content")
  | .revise =>
      match s.block with
      | none => .refused (.blockWriteRefused "unknown block_id (fail closed: nothing was written)")
      | some existing =>
          match authorizeTarget body existing with
          | some reason => .refused (.blockWriteRefused reason)
          | none =>
              if body.text = existing.content then .emitUserNoteEvent else .updateBlock existing
  | .emitUserNoteEvent => if ok then .insertNoteRevision else .refused .noteEventCommitFailed
  | .respond => .acknowledged
  | stage => stage

/-- **One store operation of `write_user_note`.**  `ok` is what the ledger of sessions and the log
of events answer: the session is known, the event is committed. -/
def step (ok : Bool) (s : NoteStore) (p : Point) : NoteStore × Point :=
  let body := p.body
  match p.stage with
  | .insertBlock =>
      match s.block with
      | none =>
          ({ s with
              block := some ⟨body.sessionId, .userNote, body.editorIdentity, body.text, 1⟩
              writes := s.writes ++ [(body.revision, body.text)] }, ⟨body, .emitUserNoteEvent⟩)
      | some _ => (s, ⟨body, .racer⟩)
  | .updateBlock existing =>
      ({ s with
          block := s.block.map fun row =>
            { row with content := body.text, revision := existing.revision + 1 }
          writes := s.writes ++ [(body.revision, body.text)] }, ⟨body, .emitUserNoteEvent⟩)
  | .insertNoteRevision =>
      -- `INSERT OR IGNORE`, and what it returns is not looked at
      ({ s with
          noteRevisions :=
            if (s.noteRevisions.get? body.revision).isSome then s.noteRevisions
            else s.noteRevisions.set body.revision body.text }, ⟨body, .respond⟩)
  | stage => (s, ⟨body, read ok s body stage⟩)

def start (body : UserNoteRequest) : Point := ⟨body, .getMeetingSession⟩

abbrev Requests := System NoteStore UserNoteRequest Point

abbrev after (moves : List (Move UserNoteRequest Bool)) : Requests :=
  Callers.after start step { store := {} } moves

def acks (s : Requests) : List (ℕ × String) :=
  s.callers.filterMap fun caller =>
    match caller.2.stage with
    | .acknowledged => some (caller.2.body.revision, caller.2.body.text)
    | _ => none

/-- **What is acknowledged is what is stored.** -/
structure NotesKept (s : Requests) : Prop where
  stored : ∀ ack ∈ acks s, s.store.noteRevisions.get? ack.1 = some ack.2
  immutable : ∀ ack ∈ acks s, ∀ ack' ∈ acks s, ack.1 = ack'.1 → ack.2 = ack'.2
  shown : (∀ write ∈ s.store.writes, write ∈ acks s) →
    ∀ ack ∈ acks s, (∀ ack' ∈ acks s, ack'.1 ≤ ack.1) → s.store.content = some ack.2

/-- No request goes on once another has been made; `made` requests were made before. -/
def OneAtATime (made : ℕ) : List (Move UserNoteRequest Bool) → Prop
  | [] => True
  | .call _ :: moves => OneAtATime (made + 1) moves
  | .step index _ :: moves => index + 1 = made ∧ OneAtATime made moves

/-! ### Requests that do not overlap -/

variable {s : NoteStore} {body : UserNoteRequest} (ok : Bool)

def Ahead (s : NoteStore) (body : UserNoteRequest) : Prop :=
  ∀ r text, s.noteRevisions.get? r = some text → r < body.revision

/-- What a request knows at a stage, with no other request since it was made. -/
def Knows (s : NoteStore) (body : UserNoteRequest) : Stage → Prop
  | .replayAuth existing => s.noteRevisions.get? body.revision = some existing
  | .create | .insertBlock | .racer | .revise => Ahead s body
  | .updateBlock _ => Ahead s body ∧ s.block.isSome
  | .emitUserNoteEvent | .insertNoteRevision => Ahead s body ∧ s.content = some body.text
  | .respond | .acknowledged => s.noteRevisions.get? body.revision = some body.text
  | _ => True

/-- A revision that the block does not show was overtaken by a later one that was written. -/
def Overtaken (s : NoteStore) : Prop :=
  ∀ r text, s.noteRevisions.get? r = some text → s.content = some text ∨
    ∃ write ∈ s.writes, r < write.1

theorem knows_replayed {e : MeetingBlock} {r : String} (ha : Ahead s body)
    (hb : s.block = some e) : Knows s body (replayed body e r) := by
  unfold replayed
  split
  · next h => exact ⟨ha, by rw [NoteStore.content, hb, Option.map_some, h.2]⟩
  · trivial

theorem Knows.read {st : Stage} (h : Knows s body st) : Knows s body (read ok s body st) := by
  unfold UserNotes.read
  split
  · split <;> trivial
  · split
    · next e heq => exact heq
    · trivial
  · next e =>
    split
    · trivial
    · split
      · trivial
      · next ht => exact h.trans (congrArg some (not_not.mp ht))
  · split <;> trivial
  · split <;> trivial
  · split
    · trivial
    · next hl =>
      have ha : Ahead s body := by
        intro r text hr
        exact (le_foldl_max (.inr (Dict.mem_keys.mpr ⟨text, hr⟩))).trans_lt (not_le.mp hl)
      split
      · exact ha
      · exact ha
  · split
    · next e hb =>
      split
      · trivial
      · exact knows_replayed h hb
    · split
      · trivial
      · exact h
  · split
    · next racer hb =>
      split
      · exact knows_replayed h hb
      · trivial
    · trivial
  · split
    · trivial
    · next e hb =>
      split
      · trivial
      · split
        · next ht => exact ⟨h, by rw [NoteStore.content, hb, Option.map_some, ht]⟩
        · exact ⟨h, by rw [hb]; rfl⟩
  · split
    · exact h
    · trivial
  · exact h
  · exact h

theorem overtaken_of_ahead (h : Ahead s body) (block : Option MeetingBlock) :
    Overtaken { s with block, writes := s.writes ++ [(body.revision, body.text)] } :=
  fun r text hr => .inr ⟨_, List.mem_append_right _ (List.mem_singleton_self _), h r text hr⟩

/-- **An operation of the one request that goes on.** -/
theorem Overtaken.step (h : Overtaken s) {p : Point} (hk : Knows s p.body p.stage) :
    Overtaken (step ok s p).1 ∧
      Knows (step ok s p).1 (step ok s p).2.body (step ok s p).2.stage ∧
      ∀ {r text}, s.noteRevisions.get? r = some text →
        (step ok s p).1.noteRevisions.get? r = some text := by
  obtain ⟨body, stage⟩ := p
  cases stage with
  | insertBlock =>
    simp only [UserNotes.step]
    split
    · exact ⟨overtaken_of_ahead hk _, ⟨hk, rfl⟩, id⟩
    · exact ⟨h, hk, id⟩
  | updateBlock e =>
    obtain ⟨block, hb⟩ := Option.isSome_iff_exists.mp hk.2
    refine ⟨overtaken_of_ahead hk.1 _, ⟨hk.1, ?_⟩, id⟩
    simp [UserNotes.step, NoteStore.content, hb]
  | insertNoteRevision =>
    obtain ⟨ha, hcn⟩ := hk
    have hnew : s.noteRevisions.get? body.revision = none := by
      rw [Option.eq_none_iff_forall_ne_some]
      exact fun text ht => lt_irrefl _ (ha _ text ht)
    simp only [UserNotes.step, hnew, Option.isSome_none, Bool.false_eq_true, if_false]
    refine ⟨fun r text hr => ?_, Dict.get?_set_self .., Dict.get?_set_of_some hnew⟩
    -- the block shows the new revision, and has not changed for the others
    rw [Dict.get?_set] at hr
    split at hr
    · exact .inl (Option.some.inj hr ▸ hcn)
    · exact h r text hr
  | _ => exact ⟨h, hk.read ok, id⟩

/-! ### Runs -/

/-- What holds while requests do not overlap: what the last one knows, and what those know that
were acknowledged. -/
structure Inv (s : Requests) : Prop where
  overtaken : Overtaken s.store
  known : ∀ {i : ℕ} {caller : UserNoteRequest × Point}, s.callers[i]? = some caller →
    i + 1 = s.callers.length ∨ caller.2.stage = .acknowledged →
      Knows s.store caller.2.body caller.2.stage

variable {s : Requests}

theorem Inv.call (h : Inv s) (r : UserNoteRequest) :
    Inv (next start UserNotes.step s (.call r : Move _ Bool)) := by
  refine ⟨h.overtaken, fun {i caller} hi hl => ?_⟩
  rcases caller_before hi with ⟨ho, -⟩ | ⟨_, _, rfl⟩ | ⟨_, _, _, hm, -⟩
  · have hlt := (List.getElem?_eq_some_iff.mp ho).1
    refine h.known ho (hl.imp_left fun hlen => ?_)
    rw [next, List.length_append, List.length_singleton] at hlen
    omega
  · trivial
  · cases hm

theorem length_next_step (i : ℕ) :
    (next start step s (.step i ok)).callers.length = s.callers.length := by
  unfold next
  dsimp only
  split
  · rfl
  · exact List.length_set

theorem Inv.step (h : Inv s) {index : ℕ} (hind : index + 1 = s.callers.length) :
    Inv (next start UserNotes.step s (.step index ok)) := by
  cases hcl : s.callers[index]? with
  | none => rwa [next_step_of_eq_none hcl]
  | some caller =>
    obtain ⟨hov, hkn, hkp⟩ := h.overtaken.step ok (h.known hcl (.inl hind))
    have hsr : (next start UserNotes.step s (.step index ok)).store = _ := store_next_step hcl
    rw [← hsr] at hov hkn hkp
    refine ⟨hov, fun {i caller'} hi hls => ?_⟩
    rw [length_next_step] at hls
    rcases caller_before hi with ⟨hold, hoth⟩ | ⟨_, hmv, -⟩ | ⟨_, _, _, hmv, hold, rfl⟩
    · rcases hls with hlen | hack
      · obtain rfl : i = index := by omega
        exact absurd rfl (hoth ok)
      · have hst := h.known hold (.inr hack)
        rw [hack] at hst ⊢
        exact hkp hst
    · cases hmv
    · cases hmv
      cases hcl.symm.trans hold
      exact hkn

theorem Inv.after {m : List (Move UserNoteRequest Bool)} (h : Inv s)
    (ho : OneAtATime s.callers.length m) : Inv (Callers.after start UserNotes.step s m) := by
  induction m generalizing s with
  | nil => exact h
  | cons move m ih =>
    cases move with
    | call request =>
      refine ih (h.call request) ?_
      rwa [next, List.length_append, List.length_singleton]
    | step index ok =>
      refine ih (h.step ok ho.1) ?_
      rw [length_next_step]
      exact ho.2

/-- **Requests that do not overlap are acknowledged with what is stored**, whichever of them stop
on their way and are sent again. -/
theorem notesKept_of_oneAtATime (moves : List (Move UserNoteRequest Bool))
    (hone : OneAtATime 0 moves) : NotesKept (after moves) := by
  have h : Inv (after moves) := Inv.after ⟨by simp [Overtaken], by simp⟩ hone
  have hst : ∀ ack ∈ acks (after moves),
      (after moves).store.noteRevisions.get? ack.1 = some ack.2 := by
    intro ack hack
    obtain ⟨caller, hcl, heq⟩ := List.mem_filterMap.mp hack
    obtain ⟨i, hi⟩ := List.mem_iff_getElem?.mp hcl
    split at heq
    · next hac =>
      cases heq
      have hkn := h.known hi (.inr hac)
      rwa [hac] at hkn
    · cases heq
  refine ⟨hst, fun ack hack ack' hack' hsame => ?_, fun hwr ack hack hlat => ?_⟩
  · have htx := hst ack hack
    rw [hsame, hst ack' hack'] at htx
    exact (Option.some.inj htx).symm
  · rcases h.overtaken _ _ (hst ack hack) with hsh | ⟨write, hwt, hlt⟩
    · exact hsh
    · exact absurd (hlat write (hwr write hwt)) (not_le.mpr hlt)

/-- A request that runs to its end, if it is not refused. -/
def whole (index : ℕ) (body : UserNoteRequest) : List (Move UserNoteRequest Bool) :=
  .call body :: List.replicate 10 (.step index true)

def note (revision : ℕ) (text : String) : UserNoteRequest := ⟨"session", revision, text, "editor"⟩

theorem two_notes_kept : OneAtATime 0 (whole 0 (note 1 "a") ++ whole 1 (note 2 "b")) ∧
    NotesKept (after (whole 0 (note 1 "a") ++ whole 1 (note 2 "b"))) :=
  ⟨by simp [whole, OneAtATime], notesKept_of_oneAtATime _ (by simp [whole, OneAtATime])⟩

/-- A second revision is sent twice at once, with two texts: both requests read the history before
either writes, and both are acknowledged. -/
def overlapping : List (Move UserNoteRequest Bool) :=
  whole 0 (note 1 "a") ++ [.call (note 2 "b"), .call (note 2 "c")] ++
    List.replicate 5 (.step 1 true) ++ List.replicate 10 (.step 2 true) ++
      List.replicate 5 (.step 1 true)

theorem one_revision_two_texts : ¬NotesKept (after overlapping) := by
  have ha : (2, "b") ∈ acks (after overlapping) ∧ (2, "c") ∈ acks (after overlapping) := by
    decide +kernel
  intro h
  exact absurd (h.immutable _ ha.1 _ ha.2 rfl) (by decide)

end AgenticPkm.UserNotes
