import AgenticPkm.Lib.Dict
import AgenticPkm.Lib.Journal

/-!
# Reserved paths of memory notes

`materialize_promoted_memory` reserves the path of a note in the marker beside the receipt file,
writes the note, appends the promotion receipt and the authority receipt, and makes the decision
terminal.  A call may stop after any of these writes.  The next call for the candidate goes on from
the promotion receipt if that is on file, and refuses to go on from a reservation or a note alone.

A reservation is only cleared by the rewrite of the marker that follows the promotion receipt: a
call that stops between the two leaves it for good.  Calls do not overlap, under the write lock.

* `not_reserved_of_terminal` — **else terminal decisions have no reservation**.
-/

namespace AgenticPkm.AgentMemory

open List

/-- A record of the receipt file, under its receipt id; a failed promotion has a new one. -/
inductive Record (κ : Type)
  | applied (receiptId : κ)
  | failed
  | authority (receiptId : κ)
  deriving DecidableEq

/-- The reservations of the marker, the receipt file, the notes that were written and the terminal
decisions, all by the receipt id of the candidate. -/
structure Store (κ : Type) where
  targetReservations : Dict κ String := ∅
  records : List (Record κ) := []
  notes : List κ := []
  terminal : List κ := []

/-- A durable step. -/
inductive Write (κ : Type)
  | reserve (receiptId : κ) (artifactPath : String)
  | marker (clearTargetReservation : Option κ)
  | append (record : Record κ)
  | note (receiptId : κ)
  | markTerminal (receiptId : κ)
  deriving DecidableEq

/-- What becomes of the note: the write guard refuses it, its write raises, before the note is there
or after, or it is written. -/
inductive Attempt
  | refused
  | failed
  | failedLate
  | written

/-- A call, and the number of its writes after which it stops. -/
structure Call (κ : Type) where
  receiptId : κ
  artifactPath : String
  attempt : Attempt
  stop : ℕ

section Model

variable {κ : Type} [DecidableEq κ] (semantic : κ → Bool) (fits : Dict κ String → Bool)

def Store.write (s : Store κ) : Write κ → Store κ
  | .reserve id path => { s with targetReservations := s.targetReservations.set id path }
  | .marker none => s
  | .marker (some id) => { s with targetReservations := s.targetReservations.erase id }
  | .append record => { s with records := s.records ++ [record] }
  | .note id => { s with notes := s.notes ++ [id] }
  | .markTerminal id => { s with terminal := s.terminal ++ [id] }

/-- `_append_owned_materialization_record`. -/
def appendOwnedRecord (record : Record κ) (clear : Option κ) : List (Write κ) :=
  [.append record, .marker clear]

/-- `_ensure_materialization_authority_receipt`, then the rewrite of the marker by
`_materialization_terminal_guard` and the terminal decision. -/
def terminalize (s : Store κ) (id : κ) : List (Write κ) :=
  (if .authority id ∈ s.records then [] else appendOwnedRecord (.authority id) none) ++
    [.marker none, .markTerminal id]

/-- `materialize_promoted_memory`, as the writes of a call that nothing stops.  `fits` are the
bounds of the marker. -/
def materializePromotedMemory (s : Store κ) (call : Call κ) : List (Write κ) :=
  let id := call.receiptId
  if id ∈ s.terminal then []
  else if !semantic id then [.markTerminal id]
  else if .applied id ∈ s.records then terminalize s id
  else if (s.targetReservations.get? id).isSome ∨ id ∈ s.notes then []
  else
    match call.attempt, fits (s.targetReservations.set id call.artifactPath) with
    | .refused, _ => appendOwnedRecord .failed none
    | _, false => []
    | .failed, true => .reserve id call.artifactPath :: appendOwnedRecord .failed none
    | .failedLate, true =>
        .reserve id call.artifactPath :: .note id :: appendOwnedRecord .failed none
    | .written, true =>
        .reserve id call.artifactPath :: .note id ::
          appendOwnedRecord (.applied id) (some id) ++ terminalize s id

def writesOf (s : Store κ) (call : Call κ) : List (Write κ) :=
  (materializePromotedMemory semantic fits s call).take call.stop

def afterCalls (s : Store κ) (calls : List (Call κ)) : Store κ :=
  calls.foldl (fun s call => Journal.after Store.write s (writesOf semantic fits s call)) s

/-- No call stops right after its promotion receipt. -/
def Unbroken : Store κ → List (Call κ) → Prop
  | _, [] => True
  | s, call :: calls =>
      (writesOf semantic fits s call).getLast? ≠ some (.append (.applied call.receiptId)) ∧
        Unbroken (afterCalls semantic fits s [call]) calls

/-- A terminal promotion has its receipt, and no reservation has one. -/
structure Settled (s : Store κ) : Prop where
  terminal : ∀ id ∈ s.terminal, semantic id → .applied id ∈ s.records
  reserved : ∀ id path, s.targetReservations.get? id = some path →
    semantic id ∧ .applied id ∉ s.records

end Model

variable {κ : Type} {semantic : κ → Bool} {s : Store κ} {id : κ} {a : Prop} {record : Record κ}

theorem mem_records_append (hr : record ≠ .applied id) :
    .applied id ∈ s.records ++ [record] ↔ .applied id ∈ s.records := by
  rw [mem_append, mem_singleton, or_iff_left hr.symm]

/-- The other writes for a candidate, by whether its promotion receipt is on file. -/
inductive Plain (semantic : κ → Bool) (id : κ) (onFile : Prop) : Write κ → Prop
  | reserve (path : String) (hs : semantic id) (hn : ¬onFile) :
      Plain semantic id onFile (.reserve id path)
  | note : Plain semantic id onFile (.note id)
  | append (record : Record κ) (hr : ∀ id', record ≠ .applied id') :
      Plain semantic id onFile (.append record)
  | marker : Plain semantic id onFile (.marker none)
  | markTerminal (h : semantic id → onFile) : Plain semantic id onFile (.markTerminal id)

theorem plain_appendOwnedRecord (hr : ∀ id', record ≠ .applied id') :
    ∀ w ∈ appendOwnedRecord record none, Plain semantic id a w :=
  forall_mem_cons.mpr ⟨.append record hr, forall_mem_singleton.mpr .marker⟩

variable [DecidableEq κ] {fits : Dict κ String → Bool} {call : Call κ} {ws : List (Write κ)}

theorem plain_terminalize (h : semantic id → a) :
    ∀ w ∈ terminalize s id, Plain semantic id a w := by
  refine forall_mem_append.mpr ⟨?_, forall_mem_cons.mpr
    ⟨.marker, forall_mem_singleton.mpr (.markTerminal h)⟩⟩
  split
  · nofun
  · exact plain_appendOwnedRecord nofun

theorem Settled.applied (h : Settled semantic s) (id : κ) :
    Settled semantic ((s.write (.append (.applied id))).write (.marker (some id))) := by
  refine ⟨fun id' ht hs => mem_append_left _ (h.terminal id' ht hs), fun id' path hi => ?_⟩
  simp only [Store.write, Dict.get?_erase] at hi
  split at hi
  · cases hi
  · next hne =>
    obtain ⟨hs, hn⟩ := h.reserved id' path hi
    exact ⟨hs, (mem_records_append fun he => hne (Record.applied.inj he).symm).not.mpr hn⟩

theorem Settled.plain (h : Settled semantic s) (ha : .applied id ∈ s.records ↔ a)
    (hw : ∀ w ∈ ws, Plain semantic id a w) (n : ℕ) :
    Settled semantic (Journal.after Store.write s (ws.take n)) := by
  refine (foldlRecOn (ws.take n) _ (motive := fun s => Settled semantic s ∧
    (.applied id ∈ s.records ↔ a)) ⟨h, ha⟩ ?_).1
  rintro s ⟨h, ha⟩ w hm
  cases hw w (mem_of_mem_take hm) with
  | reserve path hs hn =>
    refine ⟨⟨h.terminal, fun id' path' hr => ?_⟩, ha⟩
    rw [Store.write, Dict.get?_set] at hr
    split at hr
    · next he =>
      subst he
      exact ⟨hs, ha.not.mpr hn⟩
    · exact h.reserved id' path' hr
  | note => exact ⟨⟨h.terminal, h.reserved⟩, ha⟩
  | append record hr =>
    refine ⟨⟨fun id' ht hs => mem_append_left _ (h.terminal id' ht hs), fun id' path hi => ?_⟩,
      (mem_records_append (hr id)).trans ha⟩
    exact (h.reserved id' path hi).imp_right (mem_records_append (hr id')).not.mpr
  | marker => exact ⟨h, ha⟩
  | markTerminal hs =>
    refine ⟨⟨fun id' ht hs' => ?_, h.reserved⟩, ha⟩
    rcases mem_append.mp ht with ht | ht
    · exact h.terminal id' ht hs'
    · obtain rfl := mem_singleton.mp ht
      exact ha.mpr (hs hs')

theorem Settled.after_call (h : Settled semantic s)
    (hn : (writesOf semantic fits s call).getLast? ≠ some (.append (.applied call.receiptId))) :
    Settled semantic (Journal.after Store.write s (writesOf semantic fits s call)) := by
  revert hn
  unfold writesOf materializePromotedMemory
  dsimp only
  split_ifs with ht hs ha hr
  · exact fun _ => by simpa using h
  · have hs : semantic call.receiptId = false := by simpa using hs
    refine fun _ => h.plain (Iff.refl (.applied call.receiptId ∈ s.records))
      (forall_mem_singleton.mpr (.markTerminal fun hs' => ?_)) _
    rw [hs] at hs'
    cases hs'
  · exact fun _ => h.plain .rfl (plain_terminalize fun _ => ha) _
  · exact fun _ => by simpa using h
  · have hs : semantic call.receiptId := by simpa using hs
    have hoff := iff_of_false ha not_false
    have hreserve : Plain semantic call.receiptId False _ := .reserve call.artifactPath hs not_false
    split
    · refine fun _ => h.plain hoff ?_ _
      exact plain_appendOwnedRecord fun _ hr => by cases hr
    · exact fun _ => by simpa using h
    · refine fun _ => h.plain hoff (forall_mem_cons.mpr ⟨hreserve, ?_⟩) _
      exact plain_appendOwnedRecord fun _ hr => by cases hr
    · refine fun _ => h.plain hoff
        (forall_mem_cons.mpr ⟨hreserve, forall_mem_cons.mpr ⟨.note, ?_⟩⟩) _
      exact plain_appendOwnedRecord fun _ hr => by cases hr
    · intro hn
      have hbefore := h.plain hoff (forall_mem_cons.mpr ⟨hreserve, forall_mem_singleton.mpr .note⟩)
      -- where the call stops: before the receipt, right after it, or after the marker
      rcases hk : call.stop with _ | _ | _ | _ | n
      · exact h
      · exact hbefore 1
      · exact hbefore 2
      · rw [hk] at hn
        exact absurd rfl hn
      · refine ((hbefore 2).applied call.receiptId).plain (iff_of_true ?_ trivial)
          (plain_terminalize fun _ => trivial) n
        exact mem_append_right _ (mem_singleton.mpr rfl)

/-- Under the condition a terminal decision has no reservation. -/
theorem get?_of_terminal {calls : List (Call κ)} (h : Unbroken semantic fits {} calls)
    (ht : id ∈ (afterCalls semantic fits {} calls).terminal) :
    (afterCalls semantic fits {} calls).targetReservations.get? id = none := by
  have hrun : ∀ s, Settled semantic s → Unbroken semantic fits s calls →
      Settled semantic (afterCalls semantic fits s calls) := by
    clear h ht
    induction calls with
    | nil => exact fun s hs _ => hs
    | cons call calls ih => exact fun s hs hu => ih _ (hs.after_call hu.1) hu.2
  have hs := hrun {} ⟨nofun, nofun⟩ h
  refine Option.eq_none_iff_forall_ne_some.mpr fun path hr => ?_
  obtain ⟨hsem, hn⟩ := hs.reserved id path hr
  exact hn (hs.terminal id ht hsem)

/-- **A terminal decision has no reservation**, after any calls of which none stops between its
promotion receipt and the rewrite of the marker. -/
theorem not_reserved_of_terminal (semantic : κ → Bool) (fits : Dict κ String → Bool)
    (calls : List (Call κ)) (h : Unbroken semantic fits {} calls) (id : κ)
    (ht : id ∈ (afterCalls semantic fits {} calls).terminal) :
    (afterCalls semantic fits {} calls).targetReservations.get? id = none :=
  get?_of_terminal h ht

/-- So terminal decisions take up no capacity: of the reservations there are no more than of the
candidates that are undecided. -/
theorem length_reservations_le {calls : List (Call κ)} (h : Unbroken semantic fits {} calls)
    {undecided : List κ}
    (hu : ∀ id ∈ (afterCalls semantic fits {} calls).targetReservations.keys,
      id ∈ (afterCalls semantic fits {} calls).terminal ∨ id ∈ undecided) :
    (afterCalls semantic fits {} calls).targetReservations.keys.length ≤ undecided.length := by
  refine ((Dict.nodup_keys _).subperm fun id hid => ?_).length_le
  refine (hu id hid).resolve_left fun ht => ?_
  exact Dict.get?_eq_none_iff.mp (get?_of_terminal h ht) hid

/-- Two candidates, one of them in two calls. -/
theorem not_reserved_of_retry :
    (afterCalls (fun _ => true) (fun _ => true) {}
      [⟨0, "a.md", .written, 6⟩, ⟨1, "b.md", .failed, 9⟩, ⟨0, "a.md", .written, 9⟩]
      ).targetReservations.get? 0 = none :=
  not_reserved_of_terminal (fun _ => true) (fun _ => true)
    [⟨0, "a.md", .written, 6⟩, ⟨1, "b.md", .failed, 9⟩, ⟨0, "a.md", .written, 9⟩]
    ⟨by decide, by decide, by decide, trivial⟩ 0 (by decide)

/-- Stopped after its promotion receipt, a candidate is made terminal by the next call and keeps its
reservation. -/
theorem reserved_of_stop :
    let s := afterCalls (fun _ => true) (fun _ => true) {}
      [⟨0, "a.md", .written, 3⟩, ⟨0, "a.md", .written, 9⟩]
    0 ∈ s.terminal ∧ s.targetReservations.get? 0 = some "a.md" := by
  decide

end AgenticPkm.AgentMemory
