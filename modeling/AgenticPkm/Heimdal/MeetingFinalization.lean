import AgenticPkm.Heimdal.MeetingLedger
import AgenticPkm.Lib.Dict
import Mathlib.Data.Prod.Lex

/-!
# The files of a finalized meeting

The finalization of a closed session writes its transcript, its analysis and the notes of the user
as three files, named by a digest, and then a receipt.  A file that is there stays as it is, and a
receipt with the digest is returned again with nothing rendered.

The digest is over the segments and the outcomes of their transcription.  The files also have the
errors of failed transcriptions, the latest analysis and the notes, and these can change with no
change of the digest: then the files of the receipt are out of date.

A call of `finalize_session` runs alone and may stop after any number of its writes.

* `showsCurrent_of_determined` — **when the files show the session as it is**.
-/

namespace AgenticPkm.MeetingFinalization

open List

open MeetingLedger (Ledger MeetingSession SegmentRow GapReport gapReport)

/-! ### What is read -/

/-- `AsrDerivation`, with its status. -/
inductive AsrDerivation
  | ok (text : String)
  | failed (error : String)

/-- The content of an analysis block. -/
inductive BlockContent
  | text (content : String)
  | items (content : List String)
  deriving DecidableEq

structure AnalysisBlock where
  blockType : String
  content : BlockContent
  deriving DecidableEq

/-- The analysis of a projection; the defaults are those of a session with no revision. -/
structure Analysis where
  revision : Option ℕ := none
  templateId : String := "generic-default@1"
  derivedFrom : List (ℕ × String) := []
  engine : List (String × String) := [("engine", "heimdal-meeting-analysis"), ("version", "v1")]
  blocks : List AnalysisBlock := []
  deriving DecidableEq

/-- `MeetingBlock` of type `user_note`; the editor is of its provenance. -/
structure UserNote where
  blockId : String
  sessionId : String
  position : ℕ
  revision : ℕ
  retired : Bool := false
  editorIdentity : String
  content : String
  deriving DecidableEq

/-- The stores that finalization reads, with the latest analysis of each session. -/
structure World where
  ledger : Ledger := {}
  derivations : Dict String AsrDerivation := ∅
  latestRevision : Dict String Analysis := ∅
  notes : Dict String UserNote := ∅

/-- A row of the transcript of a projection. -/
inductive Row
  | segment (seq : ℕ) (text : String)
  | gap (seq : ℕ)
  | gapRun (first last count : ℕ)
  | needsAttention (seq : ℕ) (error : String)
  | pending (seq : ℕ)
  deriving DecidableEq

def flushGapRun (first last : ℕ) : List Row :=
  let count := last - first + 1
  if count ≤ 25 then (List.range' first count).map .gap else [.gapRun first last count]

/-- The rows so far, and where a run of missing segments has begun. -/
structure Reading where
  transcript : List Row := []
  pendingGapStart : Option ℕ := none

/-- The run of missing segments that ends before `seq`, if there is one. -/
def Reading.flushed (r : Reading) (seq : ℕ) : List Row :=
  r.transcript ++ (r.pendingGapStart.map (flushGapRun · (seq - 1))).getD []

def segmentRow (w : World) (seg : SegmentRow) : Row :=
  match w.derivations.get? seg.contentSha256 with
  | none => .pending seg.sessionSeq
  | some (.failed error) => .needsAttention seg.sessionSeq error
  | some (.ok text) => .segment seg.sessionSeq text

/-- One turn of the loop of `build_projection`. -/
def readSeq (w : World) (report : GapReport) (r : Reading) (seq : ℕ) : Reading :=
  match report.segments.find? (·.sessionSeq = seq) with
  | none => { r with pendingGapStart := r.pendingGapStart.or (some seq) }
  | some seg => { transcript := r.flushed seq ++ [segmentRow w seg] }

/-- The transcript of `build_projection`: every sequence number that was received or declared. -/
def transcript (w : World) (report : GapReport) : List Row :=
  let receivedBound := (report.received.max?.map (· + 1)).getD 0
  let maxBound := if report.closed then max (report.finalSeqCount.getD 0) receivedBound
    else receivedBound
  ((List.range maxBound).foldl (readSeq w report) {}).flushed maxBound

/-- What a call reads of a session: the report, the projection and the notes of the user. -/
structure View where
  sessionId : String
  complete : Bool
  missing : List ℕ
  segments : List (ℕ × String)
  finalSeqCount : Option ℕ
  transcript : List Row
  analysis : Analysis
  notes : List UserNote
  deriving DecidableEq

def view (w : World) (session : MeetingSession) : View :=
  let id := session.sessionId
  let report := gapReport session (w.ledger.segmentsForSession id) (w.ledger.conflictsForSession id)
  { sessionId := id
    complete := report.complete
    missing := report.missing
    segments := report.segments.map fun seg => (seg.sessionSeq, seg.contentSha256)
    finalSeqCount := report.finalSeqCount
    transcript := transcript w report
    analysis := (w.latestRevision.get? id).getD {}
    notes := sortedBy (fun note => toLex (note.position, note.blockId))
      (w.notes.values.filter fun note => note.sessionId = id ∧ !note.retired) }

/-! ### The digest and the files -/

/-- What the digest is over. -/
structure Covered where
  segments : List (ℕ × String)
  missing : List ℕ
  finalSeqCount : Option ℕ
  derivations : List (ℕ × String × String)
  deriving DecidableEq

/-- The digests: of a text, of a state, and the first eight characters of one. -/
structure Digests (δ κ : Type) where
  sha256 : String → String
  state : Covered → δ
  short : δ → κ

def sessionPathComponent (sha256 : String → String) (sessionId : String) : String :=
  let safe := sessionId.toList.all (fun c => c.isAlphanum || c ∈ ['.', '_', '-']) &&
    sessionId.toList.head?.any Char.isAlphanum && sessionId.toList.length ≤ 128 &&
    ('.', '.') ∉ sessionId.toList.zip sessionId.toList.tail
  if safe then sessionId
  else "sess-" ++ String.ofList ((sha256 sessionId).toList.take 16)

inductive ArtifactName
  | transcript
  | analysis
  | userNotes
  deriving DecidableEq

/-- A file: its front matter and its text.  What depends on when it was written stands apart. -/
structure Artifact (δ : Type) where
  front : Json
  finalizationState : δ
  supersedes : Option δ
  writtenAt : String
  body : String

/-- The name of a file: its directory, and a file name with the short digest. -/
abbrev Path (κ : Type) := String × ArtifactName × κ

/-- `str.rstrip`. -/
def rstrip (text : String) : String :=
  String.ofList (text.toList.reverse.dropWhile isSpace).reverse

/-- `str.title` of the words of a block type. -/
def title (start : Bool) : List Char → List Char
  | [] => []
  | c :: cs => (if start then c.toUpper else c.toLower) :: title (!c.isAlpha) cs

def Row.line : Row → String
  | .segment seq text => s!"**[{seq}]** {text}"
  | .gap seq => s!"**[{seq}]** _[missing segment]_"
  | .gapRun first last count => s!"**[{first}–{last}]** _[{count} missing segments]_"
  | .needsAttention seq error => s!"**[{seq}]** _[derivation failed: {error}]_"
  | .pending seq => s!"**[{seq}]** _[not yet derived]_"

def AnalysisBlock.lines (block : AnalysisBlock) : List String :=
  let name := block.blockType.toList.map fun c => if c = '_' then ' ' else c
  ("## " ++ String.ofList (title true name)) ::
    match block.content with
    | .items [] | .text "" => ["_none_", ""]
    | .items content => content.map ("- " ++ ·) ++ [""]
    | .text content => [content, ""]

namespace View

variable (v : View)

/-- The warning of a transcript or an analysis that has gaps. -/
def warning (before after : String) : List String :=
  if v.complete then []
  else ["> **Needs attention:** " ++ before ++ "[" ++
    String.intercalate ", " (v.missing.map toString) ++ "]" ++ after, ""]

/-- The front matter, with `_completeness_fields`; the digest stands apart. -/
def front (name : String) (fields : List (String × Json)) : Json :=
  .obj ([("artifact_class", .str name), ("zone", .str "sources"),
    ("note_class", .str "create-once"), ("session_id", .str v.sessionId),
    ("completeness", .str (if v.complete then "complete" else "needs_attention")),
    ("missing_seqs", .arr (v.missing.map .num))] ++ fields)

def provenance (fields : List (String × String)) : String × Json :=
  ("provenance", .obj ((fields ++ [("materialized_by", "heimdal-meeting-finalization")]).map
    fun field => (field.1, .str field.2)))

/-- The front matter and the body of the three files: `_render_transcript`, `_render_analysis`
and `_render_user_notes`. -/
def contents : ArtifactName → Json × String
  | .transcript =>
      (v.front "meeting_transcript"
        [provenance [("kind", "derived"), ("engine", "app.media.transcribe.run_asr")]],
      rstrip (String.intercalate "\n" ([s!"# Meeting transcript — {v.sessionId}", ""] ++
        v.warning "missing sequence numbers "
          " — this transcript has gaps and must not be read as complete." ++
        v.transcript.flatMap fun row => [row.line, ""])) ++ "\n")
  | .analysis =>
      (v.front "meeting_analysis"
        [("standing", .str "draft"),
          ("promotion", .str "human-only (trust path); this note never self-promotes"),
          ("template_id", .str v.analysis.templateId),
          ("analysis_revision", .ofOption .num v.analysis.revision),
          ("derived_from", .arr (v.analysis.derivedFrom.map fun seg =>
            .obj [("seq", .num seg.1), ("content_sha256", .str seg.2)])),
          provenance (("kind", "derived") :: v.analysis.engine)],
      rstrip (String.intercalate "\n" ([s!"# Meeting analysis — {v.sessionId}", ""] ++
        v.warning "derived over an incomplete segment set; missing " "." ++
        v.analysis.blocks.flatMap AnalysisBlock.lines)) ++ "\n")
  | .userNotes =>
      (v.front "meeting_user_notes"
        [provenance [("kind", "human"),
            ("authored_by", "user (structural editor identity per block history)")],
          ("note_blocks", .arr (v.notes.map fun note =>
            .obj [("block_id", .str note.blockId), ("revision", .num note.revision),
              ("editor_identity", .str note.editorIdentity)]))],
      String.intercalate "\n" ([s!"# Meeting notes (human-authored) — {v.sessionId}", ""] ++
        v.notes.flatMap fun note =>
          [s!"<!-- user_note {note.blockId} revision {note.revision} -->", note.content, ""]))

end View

section Finalization

variable {δ κ : Type} (d : Digests δ κ)

def stateIdentity (v : View) : δ :=
  d.state
    { segments := sortedBy Prod.fst v.segments
      missing := v.missing
      finalSeqCount := v.finalSeqCount
      derivations := v.transcript.filterMap fun
        | .segment seq text => some (seq, "ok", d.sha256 text)
        | .needsAttention seq _ => some (seq, "needs_attention", "")
        | .pending seq => some (seq, "pending", "")
        | _ => none }

/-- The directory and the short digest of the files of a session. -/
def address (v : View) : String × κ :=
  (sessionPathComponent d.sha256 v.sessionId, d.short (stateIdentity d v))

def artifactRefs (v : View) (name : ArtifactName) : Path κ :=
  ((address d v).1, name, (address d v).2)

def render (v : View) (name : ArtifactName) (supersedes : Option δ) (writtenAt : String) :
    Artifact δ where
  front := (v.contents name).1
  finalizationState := stateIdentity d v
  supersedes := supersedes
  writtenAt := writtenAt
  body := (v.contents name).2

/-! ### The calls -/

structure FinalizationReceipt (δ κ : Type) where
  vaultBindingId : String
  sessionId : String
  stateSha256 : δ
  complete : Bool
  missingSeqs : List ℕ
  artifactRefs : ArtifactName → Path κ
  supersedes : Option δ
  finalizedAt : String

structure State (δ κ : Type) where
  world : World := {}
  files : Dict (Path κ) (Artifact δ) := ∅
  receipts : List (FinalizationReceipt δ κ) := []

/-- A call.  Three files are written, the block is registered, the event is committed and the
receipt inserted; the call stops after so many of these `operations`. -/
structure Call where
  sessionId : String
  vaultBindingId : String
  vaultRoot : Bool
  now : String
  operations : ℕ

inductive Outcome (δ κ : Type)
  | notInLedger
  | notClosed
  | skipped
  | stopped
  | finalized (receipt : FinalizationReceipt δ κ)
  | replayed (receipt : FinalizationReceipt δ κ)

def Outcome.receipt? : Outcome δ κ → Option (FinalizationReceipt δ κ)
  | .finalized receipt | .replayed receipt => some receipt
  | _ => none

variable [DecidableEq δ] [DecidableEq κ]

/-- `latest` of the receipts. -/
def State.latest (s : State δ κ) (c : Call) : Option (FinalizationReceipt δ κ) :=
  s.receipts.reverse.find? fun receipt =>
    receipt.vaultBindingId = c.vaultBindingId ∧ receipt.sessionId = c.sessionId

/-- `create_candidate_note_once`. -/
def createOnce (files : Dict (Path κ) (Artifact δ)) (path : Path κ) (file : Artifact δ) :
    Dict (Path κ) (Artifact δ) :=
  if (files.get? path).isSome then files else files.set path file

def writeAll (v : View) (supersedes : Option δ) (now : String) (names : List ArtifactName)
    (files : Dict (Path κ) (Artifact δ)) : Dict (Path κ) (Artifact δ) :=
  names.foldl (fun files name => createOnce files (artifactRefs d v name)
    (render d v name supersedes now)) files

/-- `finalize_session` from the digest on. -/
def materialize (s : State δ κ) (c : Call) (v : View) : State δ κ × Outcome δ κ :=
  let stateSha256 := stateIdentity d v
  match s.receipts.find? fun receipt => receipt.vaultBindingId = c.vaultBindingId ∧
      receipt.sessionId = v.sessionId ∧ receipt.stateSha256 = stateSha256 with
  | some existing => (s, .replayed existing)
  | none =>
      let supersedes := (s.latest c).map (·.stateSha256)
      let names := [ArtifactName.transcript, .analysis, .userNotes].take c.operations
      let s := { s with files := writeAll d v supersedes c.now names s.files }
      if c.operations < 6 then (s, .stopped)
      else
        let receipt :=
          { vaultBindingId := c.vaultBindingId, sessionId := v.sessionId, stateSha256
            complete := v.complete, missingSeqs := v.missing
            artifactRefs := artifactRefs d v, supersedes, finalizedAt := c.now }
        ({ s with receipts := s.receipts ++ [receipt] }, .finalized receipt)

def finalizeSession (s : State δ κ) (c : Call) : State δ κ × Outcome δ κ :=
  match s.world.ledger.getSession c.sessionId with
  | none => (s, .notInLedger)
  | some session =>
      if !session.closed then (s, .notClosed)
      else if !c.vaultRoot then (s, .skipped)
      else materialize d s c (view s.world session)

/-- `maybe_refinalize`: only what was finalized before. -/
def maybeRefinalize (s : State δ κ) (c : Call) : State δ κ :=
  if (s.latest c).isSome then (finalizeSession d s c).1 else s

end Finalization

/-! ### Histories -/

/-- What happens: to the ledger, the transcriptions, the analyses and the notes, and the calls. -/
inductive Move
  | openSession (session : MeetingSession)
  | closeSession (sessionId : String) (finalSeqCount : ℕ) (now : String)
  | segment (row : SegmentRow)
  | derivation (contentSha256 : String) (outcome : AsrDerivation)
  | revision (sessionId : String) (derivedFrom : List (ℕ × String)) (blocks : List AnalysisBlock)
  | note (note : UserNote)
  | finalize (call : Call)
  | refinalize (call : Call)

/-- What a move does to the stores that finalization reads. -/
def World.next (w : World) : Move → World
  | .openSession session => { w with ledger := (w.ledger.insertSession session).1 }
  | .closeSession sessionId finalSeqCount now =>
      { w with ledger := (w.ledger.updateClosed sessionId finalSeqCount now).1 }
  | .segment row => { w with ledger := (w.ledger.insertSegment row).1 }
  | .derivation contentSha256 outcome =>
      -- only a failed transcription is replaced
      match w.derivations.get? contentSha256 with
      | some (.ok _) => w
      | _ => { w with derivations := w.derivations.set contentSha256 outcome }
  | .revision sessionId derivedFrom blocks =>
      let number := ((w.latestRevision.get? sessionId).bind (·.revision)).getD 0 + 1
      let latest := { revision := some number, derivedFrom, blocks }
      { w with latestRevision := w.latestRevision.set sessionId latest }
  | .note note => { w with notes := w.notes.set note.blockId note }
  | .finalize _ | .refinalize _ => w

/-- What a call reads, if it comes so far. -/
def read? (w : World) (c : Call) : Option View :=
  (w.ledger.getSession c.sessionId).bind fun session =>
    if session.closed && c.vaultRoot then some (view w session) else none

def Move.read (w : World) : Move → List View
  | .finalize c | .refinalize c => (read? w c).toList
  | _ => []

def views (w : World) : List Move → List View
  | [] => []
  | m :: moves => m.read w ++ views (w.next m) moves

/-! ### What a write keeps -/

section Files

variable {δ κ : Type} [DecidableEq κ] (d : Digests δ κ)

/-- Every file shows what some call has read, and every receipt has its files. -/
structure Inv (s : State δ κ) (seen : List View) : Prop where
  rendered : ∀ ⦃path file⦄, s.files.get? path = some file →
    ∃ v ∈ seen, ∃ name supersedes writtenAt, path = artifactRefs d v name ∧
      file = render d v name supersedes writtenAt
  receipted : ∀ receipt ∈ s.receipts, ∃ v ∈ seen, receipt.sessionId = v.sessionId ∧
    receipt.stateSha256 = stateIdentity d v ∧ receipt.artifactRefs = artifactRefs d v ∧
    ∀ name, (s.files.get? (artifactRefs d v name)).isSome

variable {d} {s : State δ κ} {seen : List View} {v : View} {files : Dict (Path κ) (Artifact δ)}
  {path : Path κ} {file : Artifact δ}

theorem get?_createOnce_self : ((createOnce files path file).get? path).isSome := by
  unfold createOnce
  split
  · assumption
  · rw [Dict.get?_set_self]
    rfl

theorem isSome_createOnce {path' : Path κ} (h : (files.get? path').isSome) :
    ((createOnce files path file).get? path').isSome := by
  unfold createOnce
  split
  · exact h
  · rw [Dict.get?_set]
    split
    · rfl
    · exact h

theorem eq_of_get?_createOnce {path' : Path κ} {new : Artifact δ}
    (h : (createOnce files path file).get? path' = some new) :
    files.get? path' = some new ∨ path' = path ∧ new = file := by
  unfold createOnce at h
  split at h
  · exact .inl h
  · rw [Dict.get?_set] at h
    split at h
    · next hp => exact .inr ⟨hp, (Option.some.inj h).symm⟩
    · exact .inl h

theorem Inv.writeAll (hi : Inv d s seen) (hv : v ∈ seen) (supersedes : Option δ) (now : String)
    (n : List ArtifactName) : Inv d { s with files := writeAll d v supersedes now n s.files } seen ∧
      ∀ name ∈ n, ((writeAll d v supersedes now n s.files).get?
        (artifactRefs d v name)).isSome := by
  induction n using List.reverseRecOn with
  | nil => exact ⟨hi, fun _ hn => absurd hn not_mem_nil⟩
  | append_singleton n name ih =>
    obtain ⟨⟨hr, hc⟩, hw⟩ := ih
    simp only [MeetingFinalization.writeAll, foldl_concat] at hr hc hw ⊢
    refine ⟨⟨fun path file h => ?_, fun receipt hm => ?_⟩, fun name' hn => ?_⟩
    · obtain h | ⟨hp, hf⟩ := eq_of_get?_createOnce h
      · exact hr h
      · exact ⟨v, hv, name, supersedes, now, hp, hf⟩
    · obtain ⟨u, hu, hid, hst, href, hfs⟩ := hc receipt hm
      exact ⟨u, hu, hid, hst, href, fun name' => isSome_createOnce (hfs name')⟩
    · obtain hn | hn := mem_append.mp hn
      · exact isSome_createOnce (hw name' hn)
      · rw [mem_singleton.mp hn]
        exact get?_createOnce_self

theorem Inv.mono (hi : Inv d s seen) {seen' : List View} (hs : seen ⊆ seen') : Inv d s seen' where
  rendered path file h := by
    obtain ⟨u, hu, hp⟩ := hi.rendered h
    exact ⟨u, hs hu, hp⟩
  receipted receipt hm := by
    obtain ⟨u, hu, hp⟩ := hi.receipted receipt hm
    exact ⟨u, hs hu, hp⟩

end Files

section Histories

variable {δ κ : Type} [DecidableEq δ] [DecidableEq κ] (d : Digests δ κ)

def step (s : State δ κ) : Move → State δ κ
  | .finalize c => (finalizeSession d s c).1
  | .refinalize c => maybeRefinalize d s c
  | m => { s with world := s.world.next m }

def after (moves : List Move) : State δ κ := moves.foldl (step d) {}

/-- **The files of a receipt that is returned show the session as it is**, whatever they say about
when they were written and what they supersede. -/
def ShowsCurrent (moves : List Move) (c : Call) : Prop :=
  ∀ receipt session, (finalizeSession d (after d moves) c).2.receipt? = some receipt →
    (after d moves).world.ledger.getSession c.sessionId = some session →
    ∀ name, ∃ supersedes writtenAt,
      (finalizeSession d (after d moves) c).1.files.get? (receipt.artifactRefs name) =
        some (render d (view (after d moves).world session) name supersedes writtenAt)

/-- Two of these that have the same file names are the same. -/
def Determined (seen : List View) : Prop :=
  ∀ u ∈ seen, ∀ v ∈ seen, address d u = address d v → u = v

/-! ### What a move keeps -/

variable {d} {s : State δ κ} {seen : List View} {v : View}

/-- What a call leaves, and the receipt it returns: of what it has read, with its three files. -/
theorem Inv.materialize (hi : Inv d s seen) (hv : v ∈ seen) (c : Call) :
    Inv d (materialize d s c v).1 seen ∧ (materialize d s c v).1.world = s.world ∧
      ∀ receipt, (materialize d s c v).2.receipt? = some receipt →
        receipt ∈ (materialize d s c v).1.receipts ∧ receipt.sessionId = v.sessionId ∧
          receipt.stateSha256 = stateIdentity d v := by
  unfold MeetingFinalization.materialize
  simp only
  split
  · next e hf =>
    have hp := find?_some hf
    simp only [decide_eq_true_eq] at hp
    refine ⟨hi, rfl, fun receipt h => ?_⟩
    obtain rfl : e = receipt := Option.some.inj h
    exact ⟨mem_of_find?_eq_some hf, hp.2⟩
  · obtain ⟨hw, hfs⟩ := hi.writeAll hv ((s.latest c).map (·.stateSha256)) c.now
      ([ArtifactName.transcript, .analysis, .userNotes].take c.operations)
    split
    · exact ⟨hw, rfl, fun receipt h => absurd h (by simp [Outcome.receipt?])⟩
    · next hop =>
      -- all three files were written before the receipt
      rw [take_of_length_le (by simp only [length_cons, length_nil]; omega)]
        at hw hfs ⊢
      refine ⟨⟨hw.rendered, fun receipt hm => ?_⟩, rfl, fun receipt h => ?_⟩
      · obtain hm | hm := mem_append.mp hm
        · exact hw.receipted receipt hm
        · obtain rfl := mem_singleton.mp hm
          exact ⟨v, hv, rfl, rfl, rfl, fun name => hfs name (by cases name <;> simp)⟩
      · cases h
        exact ⟨mem_append_right _ (mem_singleton_self _), rfl, rfl⟩

theorem finalizeSession_cases (d : Digests δ κ) (s : State δ κ) (c : Call) :
    (∃ session, s.world.ledger.getSession c.sessionId = some session ∧
      read? s.world c = some (view s.world session) ∧
      finalizeSession d s c = materialize d s c (view s.world session)) ∨
    (finalizeSession d s c).1 = s ∧ (finalizeSession d s c).2.receipt? = none := by
  unfold finalizeSession read?
  split
  · exact .inr ⟨rfl, rfl⟩
  · next session hs =>
    split
    · exact .inr ⟨rfl, rfl⟩
    · next hc =>
      split
      · exact .inr ⟨rfl, rfl⟩
      · next hr =>
        refine .inl ⟨session, hs, ?_, rfl⟩
        rw [hs, Option.bind_some, if_pos (by simp_all)]

theorem Inv.finalizeSession (hi : Inv d s seen) (c : Call) :
    Inv d (finalizeSession d s c).1 (seen ++ (read? s.world c).toList) ∧
      (MeetingFinalization.finalizeSession d s c).1.world = s.world := by
  obtain ⟨ss, -, hr, he⟩ | ⟨he, -⟩ := finalizeSession_cases d s c
  · rw [he, hr]
    obtain ⟨hm, hw, -⟩ := (hi.mono (subset_append_left seen _)).materialize
      (mem_append_right seen (mem_singleton_self (view s.world ss))) c
    exact ⟨hm, hw⟩
  · rw [he]
    exact ⟨hi.mono (subset_append_left _ _), rfl⟩

/-- **The step lemma.** -/
theorem Inv.step (hi : Inv d s seen) (m : Move) :
    Inv d (step d s m) (seen ++ m.read s.world) ∧
      (MeetingFinalization.step d s m).world = s.world.next m := by
  cases m with
  | finalize c => exact hi.finalizeSession c
  | refinalize c =>
    simp only [MeetingFinalization.step, maybeRefinalize]
    split
    · exact hi.finalizeSession c
    · exact ⟨hi.mono (subset_append_left _ _), rfl⟩
  | _ => exact ⟨⟨(hi.mono (subset_append_left _ _)).rendered,
      (hi.mono (subset_append_left _ _)).receipted⟩, rfl⟩

theorem Inv.foldl (mv : List Move) :
    ∀ {s : State δ κ} {seen}, Inv d s seen →
      Inv d (mv.foldl (MeetingFinalization.step d) s) (seen ++ views s.world mv) := by
  induction mv with
  | nil => intro s seen hi; exact hi.mono (subset_append_left _ _)
  | cons m mv ih =>
    intro s seen hi
    obtain ⟨hn, hw⟩ := hi.step m
    rw [foldl_cons, views, ← append_assoc, ← hw]
    exact ih hn

/-- **The files of a returned receipt show the session as it is**, in every history in which calls
with the same file names have read the same. -/
theorem showsCurrent_of_determined (d : Digests δ κ) (moves : List Move) (c : Call)
    (h : Determined d (views {} moves ++ (read? (after d moves).world c).toList)) :
    ShowsCurrent d moves c := by
  intro receipt session hr hs name
  have h₀ : Inv d ({} : State δ κ) [] := ⟨fun _ _ h => (nomatch h), fun _ hm => (nomatch hm)⟩
  have hi : Inv d (after d moves) (views {} moves) := Inv.foldl moves h₀
  obtain ⟨session', hs', hrd, he⟩ | ⟨-, hn⟩ := finalizeSession_cases d (after d moves) c
  · obtain rfl : session' = session := Option.some.inj (hs'.symm.trans hs)
    have hv : view (after d moves).world session' ∈
        views {} moves ++ (read? (after d moves).world c).toList :=
      mem_append_right _ (by rw [hrd]; exact mem_singleton_self _)
    rw [he] at hr ⊢
    obtain ⟨hm, -, hret⟩ := (hi.mono (subset_append_left _ _)).materialize hv c
    obtain ⟨hmem, hid, hst⟩ := hret receipt hr
    -- the receipt is of a call with the same digest, so of one that has read the same
    obtain ⟨u, hu, hid', hst', href, hfs⟩ := hm.receipted receipt hmem
    have hu' : u = view (after d moves).world session' := by
      refine h u hu _ hv ?_
      rw [address, address, ← hid', ← hst', hid, hst]
    obtain ⟨file, hf⟩ := Option.isSome_iff_exists.mp (hfs name)
    -- and so is its file
    obtain ⟨u', hu'', name', sup, at', hp, hfl⟩ := hm.rendered hf
    obtain ⟨h₁, h₂, h₃⟩ : (address d u).1 = (address d u').1 ∧ name = name' ∧
        (address d u).2 = (address d u').2 := by
      simpa only [artifactRefs, Prod.mk.injEq] using hp
    have huu : u' = u := h u' hu'' u hu (Prod.ext h₁.symm h₃.symm)
    refine ⟨sup, at', ?_⟩
    rw [href, hf, hfl, huu, ← h₂, hu']
  · rw [hn] at hr
    exact absurd hr (by simp)

end Histories

/-! ### Two histories -/

def plain : Digests Covered Covered := ⟨id, id, id⟩

def noted (revision : ℕ) (content : String) : Move :=
  .note ⟨"n", "m", 0, revision, false, "ed", content⟩

def meeting : List Move :=
  [.openSession ⟨"m", "phone", .null, "1", false, none, none, "t"⟩,
    .segment ⟨"m", 0, "r", "aa", "raw", "2", false⟩, .derivation "aa" (.ok "We agreed."),
    .revision "m" [(0, "aa")] [⟨"summary", .text "We agreed."⟩], noted 1 "first",
    .closeSession "m" 1 "3"]

def call (operations : ℕ) : Call := ⟨"m", "b", true, "4", operations⟩

/-- A call stops after its second file, and the next one goes on. -/
def retried : List Move := meeting ++ [.finalize (call 2), .finalize (call 6)]

/-- The receipt of the retried call is replayed. -/
theorem retried_finalization_shown :
    Determined plain (views {} retried ++ (read? (after plain retried).world (call 6)).toList) ∧
    (finalizeSession plain (after plain retried) (call 6)).2.receipt?.isSome ∧
    ShowsCurrent plain retried (call 6) := by
  have h : Determined plain
      (views {} retried ++ (read? (after plain retried).world (call 6)).toList) := by
    unfold Determined
    decide +kernel
  exact ⟨h, by decide +kernel, showsCurrent_of_determined plain _ _ h⟩

/-- **A note that is edited between two calls is not shown**: the second call replays the receipt,
and its file has the note as it was. -/
theorem note_edited_after_finalization :
    ¬ ShowsCurrent plain (meeting ++ [.finalize (call 6), noted 2 "second"]) (call 6) := by
  intro h
  obtain ⟨sp, w, hf⟩ := h _ _ rfl rfl .userNotes
  have hb := congrArg (Option.map Artifact.body) hf
  revert hb
  change ¬ _ = some ((View.contents _ .userNotes).2)
  decide +kernel

end AgenticPkm.MeetingFinalization
