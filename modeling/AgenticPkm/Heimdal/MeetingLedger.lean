import AgenticPkm.Lib.Callers
import AgenticPkm.Lib.Json
import AgenticPkm.Lib.Text

/-!
# The meeting ledger

The ledger of meeting sessions and of their admitted segments, in its SQLite form: three tables,
and functions that each make several statements on them, one connection a statement.  Others may
make theirs in between, so a call is the point it has reached, and a step of it its next statement
with all that follows without touching the store.  `insert_conflict` is two steps as well: its
transaction begins with the insert only.  The time a statement is given is the input of its step.
-/

namespace AgenticPkm.MeetingLedger

/-- Upper bound on sequence numbers and declared final counts. -/
def maxSessionSeq : ℤ := 100000

/-! ### The tables -/

structure MeetingSession where
  sessionId : String
  deviceId : String
  templateSelection : Json
  openedAt : String
  closed : Bool := false
  finalSeqCount : Option ℕ := none
  closedAt : Option String := none
  traceId : String

def MeetingSession.close (finalSeqCount : ℕ) (now : String) (session : MeetingSession) :
    MeetingSession :=
  { session with closed := true, finalSeqCount := some finalSeqCount, closedAt := some now }

structure SegmentRow where
  sessionId : String
  sessionSeq : ℕ
  receiptId : String
  contentSha256 : String
  rawRef : String
  admittedAt : String
  late : Bool
  deriving DecidableEq, Repr

def SegmentRow.key (row : SegmentRow) : String × ℕ := (row.sessionId, row.sessionSeq)

structure SegmentConflict where
  sessionId : String
  sessionSeq : ℕ
  attemptedContentSha256 : String
  attemptedReceiptId : String
  recordedAt : String
  deriving DecidableEq, Repr

/-- What is emitted for a late admission. -/
structure LateAdmitted where
  sessionId : String
  sessionSeq : ℕ
  receiptId : String
  contentSha256 : String
  complete : Bool
  missing : List ℕ
  traceId : String
  deriving DecidableEq, Repr

structure Ledger where
  sessions : List MeetingSession := []
  segments : List SegmentRow := []
  conflicts : List SegmentConflict := []
  lateEvents : List LateAdmitted := []

namespace Ledger

def getSession (l : Ledger) (sessionId : String) : Option MeetingSession :=
  l.sessions.find? fun session => session.sessionId = sessionId

/-- The insert of `open_session`, ignored for a known session. -/
def insertSession (l : Ledger) (session : MeetingSession) : Ledger × Bool :=
  if l.sessions.any fun other => other.sessionId = session.sessionId then (l, false)
  else ({ l with sessions := l.sessions ++ [session] }, true)

def updateClosed (l : Ledger) (sessionId : String) (finalSeqCount : ℕ) (now : String) :
    Ledger × Bool :=
  let hit := fun session : MeetingSession => session.sessionId = sessionId ∧ session.closed = false
  ({ l with sessions := l.sessions.map fun session =>
      if hit session then MeetingSession.close finalSeqCount now session else session },
    (l.sessions.filter fun session => hit session).length = 1)

def getSegment (l : Ledger) (sessionId : String) (sessionSeq : ℕ) : Option SegmentRow :=
  l.segments.find? fun row => row.key = (sessionId, sessionSeq)

/-- `insert_segment`, ignored for a known pair. -/
def insertSegment (l : Ledger) (row : SegmentRow) : Ledger × Bool :=
  if l.segments.any fun other => other.key = row.key then (l, false)
  else ({ l with segments := l.segments ++ [row] }, true)

def segmentsForSession (l : Ledger) (sessionId : String) : List SegmentRow :=
  sortedBy SegmentRow.sessionSeq (l.segments.filter fun row => row.sessionId = sessionId)

def conflictsForSession (l : Ledger) (sessionId : String) : List SegmentConflict :=
  l.conflicts.filter fun conflict => conflict.sessionId = sessionId

end Ledger

/-! ### The gap report -/

inductive LedgerError
  | blankSessionId (sessionId : String)
  | blankDeviceId (deviceId : String)
  | sessionSeqOutOfRange (sessionSeq : ℤ)
  | finalSeqCountOutOfRange (finalSeqCount : ℤ)
  | sessionNotFound (sessionId : String)
  | neitherInsertedNorReadable (sessionId : String)
  deriving DecidableEq, Repr

structure GapReport where
  sessionId : String
  received : List ℕ
  missing : List ℕ
  closed : Bool
  complete : Bool
  finalSeqCount : Option ℕ
  segments : List SegmentRow
  needsAttention : List SegmentConflict
  deriving DecidableEq, Repr

/-- The sequence numbers a session should have: below the declared count once it is closed,
below the highest one received while it is open. -/
def expected (session : MeetingSession) (received : List ℕ) : List ℕ :=
  match session.closed, session.finalSeqCount with
  | true, some count => List.range count
  | _, _ =>
      match received.max? with
      | some highest => List.range (highest + 1)
      | none => []

/-- The report from what was read. -/
def gapReport (session : MeetingSession) (segments : List SegmentRow)
    (conflicts : List SegmentConflict) : GapReport :=
  let received := sortedBy id (segments.map SegmentRow.sessionSeq)
  { sessionId := session.sessionId
    received := received
    missing := (expected session received).filter fun seq => seq ∉ received
    closed := session.closed
    complete := session.closed && session.finalSeqCount.any fun count =>
      (List.range count).all fun seq => seq ∈ received
    finalSeqCount := session.finalSeqCount
    segments := segments
    needsAttention := conflicts }

/-- The report of one moment. -/
def buildGapReport (l : Ledger) (sessionId : String) : Except LedgerError GapReport :=
  match l.getSession sessionId with
  | none => .error (.sessionNotFound sessionId)
  | some session =>
      .ok (gapReport session (l.segmentsForSession sessionId) (l.conflictsForSession sessionId))

/-! ### The calls -/

/-- An admission whose session and sequence number passed their checks. -/
structure Admission where
  sessionId : String
  sessionSeq : ℕ
  receiptId : String
  contentSha256 : String
  rawRef : String
  traceId : String
  deriving DecidableEq, Repr

/-- What a caller asks for. -/
inductive Request
  | openSession (sessionId deviceId : String) (templateSelection : Json) (traceId : String)
  | close (sessionId : String) (finalSeqCount : ℤ)
  | admission (sessionId : String) (sessionSeq : ℤ)
      (receiptId contentSha256 rawRef traceId : String)
  | report (sessionId : String)

inductive SegmentOutcome
  | recorded
  | replay
  | conflict
  deriving DecidableEq, Repr

/-- What a call returns. -/
inductive Result
  | session (session : MeetingSession) (changed : Bool)
  | segment (outcome : SegmentOutcome) (late : Bool)
  | report (report : GapReport)

/-- Where a call is: the statement it makes next, or its end. -/
inductive Point
  | openInsert (sessionId deviceId : String) (templateSelection : Json) (traceId : String)
  | openRead (sessionId : String) (created : Bool)
  | closeLook (sessionId : String) (finalSeqCount : ℕ)
  | closeUpdate (sessionId : String) (finalSeqCount : ℕ)
  | closeRead (sessionId : String) (newlyClosed : Bool)
  | admitLook (admission : Admission)
  | admitSession (admission : Admission)
  | admitInsert (admission : Admission) (late : Bool)
  /-- The insert was ignored. -/
  | admitRelook (admission : Admission)
  | conflictLook (admission : Admission)
  | conflictInsert (admission : Admission)
  /-- A gap report, asked for or made for a late admission. -/
  | reportSession (sessionId : String) (lateFor : Option Admission)
  | reportSegments (session : MeetingSession) (lateFor : Option Admission)
  | reportConflicts (session : MeetingSession) (segments : List SegmentRow)
      (lateFor : Option Admission)
  | returned (result : Result)
  | raised (error : LedgerError)

def Point.ended : Point → Bool
  | .returned _ => true
  | .raised _ => true
  | _ => false

def validateSessionId (sessionId : String) : Except LedgerError String :=
  if strip sessionId = "" then .error (.blankSessionId sessionId) else .ok (strip sessionId)

/-- The check of a sequence number, and of a declared final count. -/
def validateCount (error : ℤ → LedgerError) (count : ℤ) : Except LedgerError ℕ :=
  if count < 0 ∨ maxSessionSeq < count then .error (error count) else .ok count.toNat

def validateSeq : ℤ → Except LedgerError ℕ := validateCount .sessionSeqOutOfRange

/-- The admission a request asks for, with its checks. -/
def validateAdmission (sessionId : String) (sessionSeq : ℤ)
    (receiptId contentSha256 rawRef traceId : String) : Except LedgerError Admission := do
  let sessionId ← validateSessionId sessionId
  let sessionSeq ← validateSeq sessionSeq
  pure ⟨sessionId, sessionSeq, receiptId, contentSha256, rawRef, traceId⟩

/-- The point a check leads to. -/
def checked {α : Type} (f : α → Point) : Except LedgerError α → Point
  | .ok a => f a
  | .error e => .raised e

def start : Request → Point
  | .openSession sessionId deviceId templateSelection traceId =>
      checked (fun point => point) do
        let sessionId ← validateSessionId sessionId
        if strip deviceId = "" then
          throw (.blankDeviceId deviceId)
        pure (.openInsert sessionId (strip deviceId) templateSelection traceId)
  | .close sessionId finalSeqCount =>
      checked (fun point => point) do
        let sessionId ← validateSessionId sessionId
        let finalSeqCount ← validateCount .finalSeqCountOutOfRange finalSeqCount
        pure (.closeLook sessionId finalSeqCount)
  | .admission sessionId sessionSeq receiptId contentSha256 rawRef traceId =>
      checked .admitLook
        (validateAdmission sessionId sessionSeq receiptId contentSha256 rawRef traceId)
  | .report sessionId => checked (.reportSession · none) (validateSessionId sessionId)

def Admission.row (admission : Admission) (now : String) (late : Bool) : SegmentRow where
  sessionId := admission.sessionId
  sessionSeq := admission.sessionSeq
  receiptId := admission.receiptId
  contentSha256 := admission.contentSha256
  rawRef := admission.rawRef
  admittedAt := now
  late := late

def Admission.conflict (admission : Admission) (now : String) : SegmentConflict where
  sessionId := admission.sessionId
  sessionSeq := admission.sessionSeq
  attemptedContentSha256 := admission.contentSha256
  attemptedReceiptId := admission.receiptId
  recordedAt := now

def SegmentConflict.isOf (admission : Admission) (conflict : SegmentConflict) : Bool :=
  conflict.sessionId = admission.sessionId && conflict.sessionSeq = admission.sessionSeq &&
    conflict.attemptedContentSha256 = admission.contentSha256

/-- The event of a late admission. -/
def Admission.lateAdmitted (admission : Admission) (report : GapReport) : LateAdmitted where
  sessionId := admission.sessionId
  sessionSeq := admission.sessionSeq
  receiptId := admission.receiptId
  contentSha256 := admission.contentSha256
  complete := report.complete
  missing := report.missing
  traceId := admission.traceId

def step (now : String) (l : Ledger) : Point → Ledger × Point
  | .openInsert sessionId deviceId templateSelection traceId =>
      let (l, created) := l.insertSession
        { sessionId, deviceId, templateSelection, openedAt := now, traceId }
      (l, .openRead sessionId created)
  | .openRead sessionId created =>
      (l, match l.getSession sessionId with
        | none => .raised (.neitherInsertedNorReadable sessionId)
        | some session => .returned (.session session created))
  | .closeLook sessionId finalSeqCount =>
      (l, match l.getSession sessionId with
        | none => .raised (.sessionNotFound sessionId)
        | some _ => .closeUpdate sessionId finalSeqCount)
  | .closeUpdate sessionId finalSeqCount =>
      let (l, newlyClosed) := l.updateClosed sessionId finalSeqCount now
      (l, .closeRead sessionId newlyClosed)
  | .closeRead sessionId newlyClosed =>
      (l, match l.getSession sessionId with
        | none => .raised (.sessionNotFound sessionId)
        | some session => .returned (.session session newlyClosed))
  | .admitLook admission =>
      (l, match l.getSegment admission.sessionId admission.sessionSeq with
        | none => .admitSession admission
        | some existing =>
            if existing.contentSha256 = admission.contentSha256 then
              .returned (.segment .replay false)
            else .conflictLook admission)
  | .admitSession admission =>
      (l, .admitInsert admission
        ((l.getSession admission.sessionId).any fun session => session.closed))
  | .admitInsert admission late =>
      let (l, created) := l.insertSegment (admission.row now late)
      (l, if !created then .admitRelook admission
        else if late then .reportSession admission.sessionId (some admission)
        else .returned (.segment .recorded late))
  | .admitRelook admission =>
      (l, match l.getSegment admission.sessionId admission.sessionSeq with
        | none => .conflictLook admission
        | some racer =>
            if racer.contentSha256 = admission.contentSha256 then
              .returned (.segment .replay false)
            else .conflictLook admission)
  | .conflictLook admission =>
      (l, if l.conflicts.any (·.isOf admission) then .returned (.segment .conflict false)
        else .conflictInsert admission)
  | .conflictInsert admission =>
      ({ l with conflicts := l.conflicts ++ [admission.conflict now] },
        .returned (.segment .conflict false))
  | .reportSession sessionId lateFor =>
      (l, match l.getSession sessionId with
        | none => .raised (.sessionNotFound sessionId)
        | some session => .reportSegments session lateFor)
  | .reportSegments session lateFor =>
      (l, .reportConflicts session (l.segmentsForSession session.sessionId) lateFor)
  | .reportConflicts session segments lateFor =>
      let report := gapReport session segments (l.conflictsForSession session.sessionId)
      match lateFor with
      | none => (l, .returned (.report report))
      | some admission =>
          ({ l with lateEvents := l.lateEvents ++ [admission.lateAdmitted report] },
            .returned (.segment .recorded true))
  | .returned result => (l, .returned result)
  | .raised error => (l, .raised error)

abbrev Move := Callers.Move Request String
abbrev System := Callers.System Ledger Request Point

def after (moves : List Move) : System :=
  Callers.after start step { store := {} } moves

/-- The admission a request asks for. -/
def Request.admission? : Request → Option Admission
  | .admission sessionId sessionSeq receiptId contentSha256 rawRef traceId =>
      (validateAdmission sessionId sessionSeq receiptId contentSha256 rawRef traceId).toOption
  | _ => none

end AgenticPkm.MeetingLedger
