import AgenticPkm.Lib.JsonText
import AgenticPkm.Lib.Journal
import AgenticPkm.Lib.Text

/-!
# The JSONL event log

`append_jsonl_record` adds one JSON object to a file of lines.  Under the file's lock it reads
every record, looks for one with the same `event_id`, and writes a line at the end of the file
only when there is none: the same content is taken for a repetition, other content is refused.
The comparison is Python's `!=`, for which `true` is `1` and `false` is `0`, so a record that
differs in this only is taken for a repetition and not stored.

The file is the text of its characters, empty also when there is no file.  What the operating
system can refuse is not modelled, nor is a text that is no UTF-8.

* `event_log_lawful_iff` — **the log is lawful if no call does that**.
-/

namespace AgenticPkm.EventLog

open JsonText List

variable {φ : Type} (F : FloatFormat φ)

abbrev Fields (φ : Type) := List (String × Value φ)

/-- A record to append: a JSON object. -/
structure Record (φ : Type) where
  fields : Fields φ
  distinct : (Value.obj fields).Distinct

/-- What a call raises. -/
inductive AppendError
  | valueError (message : String)
  /-- `JsonlOutboxCorruptionError`: a line is no JSON text, or an object repeats a key -/
  | unreadable (path : String)
  | corruption (message : String)
  | conflict (message : String)
  deriving DecidableEq, Repr

/-! ### Reading -/

/-- One line of the file: blank, or a JSON object. -/
def readLine (path : String) (line : List Char) : Except AppendError (Option (Fields φ)) :=
  if stripChars line = [] then .ok none
  else
    match loads F line with
    | none => .error (.unreadable path)
    | some (.obj fields) => .ok (some fields)
    | some _ => .error (.corruption ("JSONL outbox record is not an object: " ++ path))

def readLines (path : String) : List (List Char) → Except AppendError (List (Fields φ))
  | [] => .ok []
  | line :: lines => do
      let record ← readLine F path line
      let records ← readLines path lines
      pure (record.toList ++ records)

def readRecords (path : String) (text : List Char) : Except AppendError (List (Fields φ)) :=
  readLines F path (text.splitOn '\n')

/-- `_read_jsonl_records_unlocked`: the records, and the file with its last line ended. -/
def readJsonlRecords (path : String) (text : List Char) :
    Except AppendError (List (Fields φ) × List Char) := do
  if text = [] then
    return ([], text)
  let records ← readRecords F path text
  return (records, if text.getLast? = some '\n' then text else text ++ ['\n'])

/-! ### Appending -/

/-- The event id of a record, if it is a text that is not blank. -/
def eventIdOf (fields : Fields φ) : Option String :=
  match fields.lookup "event_id" with
  | some (.scalar (.str id)) => if strip id ≠ "" then some id else none
  | _ => none

/-- The stored record is one of the event. -/
def isMatch (id : String) (existing : Fields φ) : Bool :=
  match existing.lookup "event_id" with
  | some value => pyEq F value (.scalar (.str id))
  | none => false

/-- The loop over the stored records: the first one of the event, unless there is a conflict. -/
def firstMatch (id : String) (record : Fields φ) :
    Option (Fields φ) → List (Fields φ) → Except AppendError (Option (Fields φ))
  | first, [] => .ok first
  | first, existing :: rest =>
      if isMatch F id existing then
        if first.any fun first => !pyEq F (.obj existing) (.obj first) then
          .error (.conflict
            ("JSONL outbox already contains conflicting duplicate event_id: " ++ id))
        else if !pyEq F (.obj existing) (.obj record) then
          .error (.conflict ("JSONL outbox event_id maps to different content: " ++ id))
        else firstMatch id record (first.or (some existing)) rest
      else firstMatch id record first rest

/-- One call: its record, and whether it requires an event id. -/
structure Call (φ : Type) where
  requireEventId : Bool
  record : Record φ

def lineOf (record : Fields φ) : List Char := dump F (.obj record) ++ ['\n']

/-- `append_jsonl_record`: what it returns or raises, and the file as it leaves it. -/
def appendJsonlRecord (path : String) (text : List Char) (call : Call φ) :
    Except AppendError Bool × List Char :=
  let record := call.record.fields
  if call.requireEventId ∧ eventIdOf record = none then
    (.error (.valueError "JSONL outbox events require a non-empty event_id"), text)
  else
    match readJsonlRecords F path text with
    | .error e => (.error e, text)
    | .ok (records, text) =>
        match eventIdOf record with
        | none => (.ok true, text ++ lineOf F record)
        | some id =>
            match firstMatch F id record none records with
            | .error e => (.error e, text)
            | .ok (some _) => (.ok true, text)
            | .ok none => (.ok true, text ++ lineOf F record)

def after (path : String) (text : List Char) (calls : List (Call φ)) : List Char :=
  Journal.after (fun text call => (appendJsonlRecord F path text call).2) text calls

/-! ### The store it is meant to be -/

/-- Two records have the same event id. -/
def sameEvent (a b : Fields φ) : Bool :=
  match a.lookup "event_id", b.lookup "event_id" with
  | some x, some y => jsonEq F x y
  | _, _ => false

def Call.Refused (call : Call φ) : Prop :=
  call.requireEventId = true ∧ eventIdOf call.record.fields = none

instance (call : Call φ) : Decidable call.Refused := by
  unfold Call.Refused
  infer_instance

/-- The store after a call: the first record of each event is kept. -/
def accept (store : List (Fields φ)) (call : Call φ) : List (Fields φ) :=
  if call.Refused ∨ store.any (sameEvent F · call.record.fields) then store
  else store ++ [call.record.fields]

/-- The store after some calls. -/
def accepted (store : List (Fields φ)) (calls : List (Call φ)) : List (Fields φ) :=
  Journal.after (accept F) store calls

/-- A file as the calls find it: nothing, or lines that end, every one of them blank or a JSON
object, with distinct event ids. -/
structure WellFormed (path : String) (text : List Char) (store : List (Fields φ)) : Prop where
  ended : text = [] ∨ text.getLast? = some '\n'
  reads : readRecords F path text = .ok store
  distinct : store.Pairwise fun a b => sameEvent F a b = false

/-- **The log behaves as the store, call by call.** -/
structure Lawful (path : String) (text : List Char) (store : List (Fields φ))
    (calls : List (Call φ)) : Prop where
  /-- the file reads as the accepted records, in the order of their first append -/
  reads : ∀ before, before <+: calls →
    WellFormed F path (after F path text before) (accepted F store before)
  /-- no call changes what was there -/
  appendOnly : ∀ before call, before ++ [call] <+: calls →
    after F path text before <+: after F path text (before ++ [call])
  /-- the same content again changes nothing -/
  repeated : ∀ before call, before ++ [call] <+: calls → ∀ stored ∈ accepted F store before,
    sameEvent F stored call.record.fields = true →
    jsonEq F (.obj stored) (.obj call.record.fields) = true →
    after F path text (before ++ [call]) = after F path text before
  /-- other content for a known event raises and changes nothing -/
  conflict : ∀ before call, before ++ [call] <+: calls → ∀ stored ∈ accepted F store before,
    sameEvent F stored call.record.fields = true →
    jsonEq F (.obj stored) (.obj call.record.fields) = false →
    (∃ e, (appendJsonlRecord F path (after F path text before) call).1 = .error e) ∧
      after F path text (before ++ [call]) = after F path text before

/-- The condition on a call: when its event is known, its id is a text that is not blank, and
Python tells its content from the stored one where JSON does. -/
def Careful (store : List (Fields φ)) (call : Call φ) : Prop :=
  call.Refused ∨ ∀ stored ∈ store, sameEvent F stored call.record.fields = true →
    eventIdOf call.record.fields ≠ none ∧
    (pyEq F (.obj stored) (.obj call.record.fields) = true →
      jsonEq F (.obj stored) (.obj call.record.fields) = true)

/-! ### Lines -/

variable {F} {path : String}

theorem readLines_append (l l' : List (List Char)) :
    readLines F path (l ++ l') =
      (readLines F path l >>= fun records =>
        readLines F path l' >>= fun records' => pure (records ++ records')) := by
  induction l with
  | nil =>
    simp only [nil_append, readLines]
    cases readLines F path l' <;> rfl
  | cons line l ih => simp only [cons_append, readLines, ih, bind_assoc, pure_bind, append_assoc]

variable {text : List Char} {store : List (Fields φ)} {record stored : Fields φ} {call : Call φ}
  {calls : List (Call φ)}

theorem splitOn_of_ended (h : text = [] ∨ text.getLast? = some '\n') :
    ∃ lines, text.splitOn '\n' = lines ++ [[]] ∧
      ∀ line, '\n' ∉ line → (text ++ (line ++ ['\n'])).splitOn '\n' = lines ++ [line, []] := by
  have hl : ∀ line : List Char, '\n' ∉ line → (line ++ ['\n']).splitOn '\n' = [line, []] := by
    intro line hl
    rw [List.splitOn, splitOnP_append_cons_of_forall_mem]
    · rfl
    · intro c hc
      rw [beq_eq_false_iff_ne]
      rintro rfl
      exact hl hc
    · rfl
  rcases h with rfl | h
  · exact ⟨[], rfl, hl⟩
  · obtain ⟨body, rfl⟩ := getLast?_eq_some_iff.1 h
    refine ⟨body.splitOn '\n', ?_, fun line hm => ?_⟩
    · exact splitOnP_append_cons body [] rfl
    · rw [append_assoc]
      have hs := @splitOnP_append_cons _ (· == '\n') body (line ++ ['\n']) '\n' rfl
      exact hs.trans (congrArg _ (hl line hm))

theorem readLine_nil : readLine F path [] = .ok none := rfl

theorem readLine_dump (r : Record φ) :
    readLine F path (dump F (.obj r.fields)) = .ok (some r.fields) := by
  have hb : ¬ stripChars (dump F (.obj r.fields)) = [] := by
    rw [stripChars_eq_nil_iff]
    intro h
    have hm : '\x7b' ∈ dump F (.obj r.fields) := by
      cases r.fields <;> simp [dump]
    exact absurd (h _ hm) (by decide)
  rw [readLine, if_neg hb, loads_dump F r.distinct]

theorem readLines_concat_nil (lines : List (List Char)) :
    readLines F path (lines ++ [[]]) = readLines F path lines := by
  rw [readLines_append]
  cases readLines F path lines with
  | error e => rfl
  | ok r => exact congrArg Except.ok (append_nil r)

theorem readLines_concat_dump {l : List (List Char)} (h : readLines F path l = .ok store)
    (r : Record φ) :
    readLines F path (l ++ [dump F (.obj r.fields), []]) = .ok (store ++ [r.fields]) := by
  rw [readLines_append, h]
  simp only [readLines, readLine_dump, readLine_nil]
  rfl

/-! ### One call -/

theorem WellFormed.nil : WellFormed F path [] [] where
  ended := .inl rfl
  reads := rfl
  distinct := .nil

theorem WellFormed.readJsonlRecords_eq (h : WellFormed F path text store) :
    readJsonlRecords F path text = .ok (store, text) := by
  have hr := h.reads
  by_cases hn : text = []
  · subst hn
    cases hr
    rfl
  · have hl := h.ended.resolve_left hn
    simp only [readJsonlRecords, if_neg hn, hr, if_pos hl]
    rfl

theorem WellFormed.append (h : WellFormed F path text store) (r : Record φ)
    (hnew : ∀ stored ∈ store, sameEvent F stored r.fields = false) :
    WellFormed F path (text ++ lineOf F r.fields) (store ++ [r.fields]) := by
  obtain ⟨lines, hl, ha⟩ := splitOn_of_ended h.ended
  refine ⟨.inr (by simp [lineOf]), ?_, ?_⟩
  · have hr := h.reads
    rw [readRecords, hl, readLines_concat_nil] at hr
    rw [readRecords, lineOf, ha _ (newline_notMem_dump F _)]
    exact readLines_concat_dump hr r
  · rw [pairwise_append]
    refine ⟨h.distinct, pairwise_singleton .., fun stored hs new hnew' => ?_⟩
    rw [mem_singleton.1 hnew']
    exact hnew stored hs

variable {id : String}

theorem lookup_of_eventIdOf {f : Fields φ} (h : eventIdOf f = some id) :
    f.lookup "event_id" = some (.scalar (.str id)) := by
  unfold eventIdOf at h
  split at h
  · next id' heq =>
    split at h
    · rw [heq, Option.some.inj h]
    · cases h
  · cases h

theorem isMatch_iff {e : Fields φ} (h : eventIdOf record = some id) :
    isMatch F id e = sameEvent F e record := by
  rw [isMatch, sameEvent, lookup_of_eventIdOf h]
  cases e.lookup "event_id" with
  | none => rfl
  | some value =>
    rw [Bool.eq_iff_iff]
    exact (pyEq_str_iff F).trans (jsonEq_str_iff F).symm

variable {a b : Fields φ}

theorem sameEvent_of_isMatch (ha : isMatch F id a)
    (hb : isMatch F id b) : sameEvent F a b := by
  unfold isMatch at ha hb
  cases hla : a.lookup "event_id" with
  | none => simp [hla] at ha
  | some x =>
    cases hlb : b.lookup "event_id" with
    | none => simp [hlb] at hb
    | some y =>
      simp only [hla, pyEq_str_iff] at ha
      simp only [hlb, pyEq_str_iff] at hb
      simp [sameEvent, hla, hlb, ha, hb, jsonEq_str_iff]

theorem firstMatch_of_no_match (first : Option (Fields φ))
    (h : ∀ stored ∈ store, isMatch F id stored = false) :
    firstMatch F id record first store = .ok first := by
  induction store with
  | nil => rfl
  | cons e rest ih =>
    have hr : ∀ stored ∈ rest, isMatch F id stored = false := fun stored hs =>
      h stored (mem_cons_of_mem _ hs)
    rw [firstMatch, h e mem_cons_self]
    exact ih hr

theorem eq_of_sameEvent (hd : store.Pairwise fun a b => sameEvent F a b = false)
    (hid : eventIdOf record ≠ none) (ha : a ∈ store) (hb : b ∈ store)
    (hsa : sameEvent F a record) (hsb : sameEvent F b record) : a = b := by
  obtain ⟨id, hid⟩ := Option.ne_none_iff_exists'.1 hid
  rw [← isMatch_iff hid] at hsa hsb
  by_contra hne
  have hp : store.Pairwise fun a b => ¬ (isMatch F id a = true ∧ isMatch F id b) := by
    refine hd.imp fun {a b} hab hbt => ?_
    have hsame := sameEvent_of_isMatch hbt.1 hbt.2
    rw [hab] at hsame
    cases hsame
  have hs : Std.Symm fun a b => ¬ (isMatch F id a = true ∧ isMatch F id b) :=
    ⟨fun _ _ h hbt => h hbt.symm⟩
  exact hp.forall ha hb hne ⟨hsa, hsb⟩

theorem firstMatch_of_match (hd : store.Pairwise fun a b => sameEvent F a b = false)
    (hs : stored ∈ store) (hm : isMatch F id stored) :
    firstMatch F id record none store =
      if pyEq F (.obj stored) (.obj record) then .ok (some stored)
      else .error (.conflict ("JSONL outbox event_id maps to different content: " ++ id)) := by
  induction store with
  | nil => cases hs
  | cons e rest ih =>
    rw [pairwise_cons] at hd
    rw [firstMatch]
    rcases mem_cons.1 hs with rfl | hr
    · -- no other record is of the event
      have hoth : ∀ o ∈ rest, isMatch F id o = false := by
        intro o ho
        rw [Bool.eq_false_iff]
        intro hm'
        have hsame := sameEvent_of_isMatch hm hm'
        rw [hd.1 o ho] at hsame
        cases hsame
      cases heq : pyEq F (.obj stored) (.obj record) with
      | true => simp [hm, firstMatch_of_no_match _ hoth]
      | false => simp [hm]
    · have hes : isMatch F id e = false := by
        rw [Bool.eq_false_iff]
        intro hm'
        have hsame := sameEvent_of_isMatch hm' hm
        rw [hd.1 stored hr] at hsame
        cases hsame
      rw [hes]
      exact ih hd.2 hr

/-- What a call on a well-formed file does. -/
inductive Effect (F : FloatFormat φ) (text : List Char) (store : List (Fields φ))
    (call : Call φ) : Except AppendError Bool × List Char → Prop
  | refused (e : AppendError) (h : call.Refused) : Effect F text store call (.error e, text)
  | appended (h : ¬ call.Refused)
      (hnew : eventIdOf call.record.fields = none ∨
        ∀ stored ∈ store, sameEvent F stored call.record.fields = false) :
      Effect F text store call (.ok true, text ++ lineOf F call.record.fields)
  | repeated (stored : Fields φ) (hstored : stored ∈ store)
      (hid : eventIdOf call.record.fields ≠ none)
      (hsame : sameEvent F stored call.record.fields = true)
      (heq : pyEq F (.obj stored) (.obj call.record.fields) = true) :
      Effect F text store call (.ok true, text)
  | conflict (e : AppendError) (stored : Fields φ) (hstored : stored ∈ store)
      (hid : eventIdOf call.record.fields ≠ none)
      (hsame : sameEvent F stored call.record.fields = true)
      (hne : pyEq F (.obj stored) (.obj call.record.fields) = false) :
      Effect F text store call (.error e, text)

theorem WellFormed.effect (h : WellFormed F path text store) (call : Call φ) :
    Effect F text store call (appendJsonlRecord F path text call) := by
  by_cases hr : call.Refused
  · have hcn : call.requireEventId ∧ eventIdOf call.record.fields = none := hr
    simp only [appendJsonlRecord, if_pos hcn]
    exact .refused _ hr
  · have hcn : ¬ (call.requireEventId = true ∧ eventIdOf call.record.fields = none) := hr
    simp only [appendJsonlRecord, if_neg hcn, h.readJsonlRecords_eq]
    cases hid : eventIdOf call.record.fields with
    | none => exact .appended hr (.inl hid)
    | some id =>
      have hm : ∀ stored, isMatch F id stored = sameEvent F stored call.record.fields :=
        fun stored => isMatch_iff hid
      have hso : eventIdOf call.record.fields ≠ none := by simp [hid]
      by_cases hnew : ∀ stored ∈ store, isMatch F id stored = false
      · simp only [firstMatch_of_no_match none hnew]
        exact .appended hr (.inr fun stored hs => hm stored ▸ hnew stored hs)
      · push Not at hnew
        obtain ⟨stored, hs, hne⟩ := hnew
        rw [Bool.ne_false_iff] at hne
        simp only [firstMatch_of_match h.distinct hs hne]
        have hsame := (hm stored).symm.trans hne
        cases heq : pyEq F (.obj stored) (.obj call.record.fields) with
        | true => exact .repeated stored hs hso hsame heq
        | false => exact .conflict _ stored hs hso hsame heq

/-! ### Runs -/

theorem accept_of_refused (h : call.Refused) : accept F store call = store := if_pos (.inl h)

theorem accept_of_known (hs : stored ∈ store)
    (hsame : sameEvent F stored call.record.fields) : accept F store call = store :=
  if_pos (.inr (any_eq_true.2 ⟨stored, hs, hsame⟩))

theorem accept_of_new (h : ¬ call.Refused)
    (hnew : ∀ stored ∈ store, sameEvent F stored call.record.fields = false) :
    accept F store call = store ++ [call.record.fields] := by
  refine if_neg ?_
  rintro (hr | ha)
  · exact h hr
  · obtain ⟨stored, hs, hsame⟩ := any_eq_true.1 ha
    rw [hnew stored hs] at hsame
    cases hsame

/-- A careful call on a well-formed file leaves one, with the store as it should be. -/
theorem WellFormed.step (h : WellFormed F path text store) (hcareful : Careful F store call) :
    WellFormed F path (appendJsonlRecord F path text call).2 (accept F store call) := by
  have heff := h.effect call
  generalize appendJsonlRecord F path text call = result at heff
  cases heff with
  | refused e hr => rwa [accept_of_refused hr]
  | appended hr hnew =>
    have hnew' : ∀ stored ∈ store, sameEvent F stored call.record.fields = false := by
      rcases hnew with hn | hnew
      · intro stored hs
        rw [Bool.eq_false_iff]
        intro hsame
        exact ((hcareful.resolve_left hr) stored hs hsame).1 hn
      · exact hnew
    rw [accept_of_new hr hnew']
    exact h.append call.record hnew'
  | repeated stored hs _ hsame _ | conflict e stored hs _ hsame _ => rwa [accept_of_known hs hsame]

/-- Whatever the call, the old file begins the new one. -/
theorem WellFormed.appendOnly (h : WellFormed F path text store) (call : Call φ) :
    text <+: (appendJsonlRecord F path text call).2 := by
  have heff := h.effect call
  generalize appendJsonlRecord F path text call = result at heff
  cases heff with
  | refused | repeated | conflict => exact prefix_refl _
  | appended => exact prefix_append ..

theorem WellFormed.known (h : WellFormed F path text store) (hcareful : Careful F store call)
    (hs : stored ∈ store) (hsame : sameEvent F stored call.record.fields) :
    (appendJsonlRecord F path text call).2 = text ∧
    (jsonEq F (.obj stored) (.obj call.record.fields) = false →
      ∃ e, (appendJsonlRecord F path text call).1 = .error e) := by
  have heff := h.effect call
  generalize appendJsonlRecord F path text call = result at heff
  cases heff with
  | refused e | conflict e => exact ⟨rfl, fun _ => ⟨e, rfl⟩⟩
  | appended href hnew =>
    rcases hnew with hn | hnew
    · exact absurd hn ((hcareful.resolve_left href) stored hs hsame).1
    · rw [hnew stored hs] at hsame
      cases hsame
  | repeated o hoth hid hsame' heq =>
    refine ⟨rfl, fun hne => ?_⟩
    -- the two stored records are one
    obtain rfl := eq_of_sameEvent h.distinct hid hoth hs hsame' hsame
    have href : ¬ call.Refused := fun hr => hid hr.2
    rw [((hcareful.resolve_left href) o hoth hsame).2 heq] at hne
    cases hne

@[simp] theorem after_concat (text : List Char) (c : List (Call φ)) (call : Call φ) :
    after F path text (c ++ [call]) = (appendJsonlRecord F path (after F path text c) call).2 :=
  Journal.after_concat ..

@[simp] theorem accepted_concat (s : List (Fields φ)) (c : List (Call φ)) (call : Call φ) :
    accepted F s (c ++ [call]) = accept F (accepted F s c) call :=
  Journal.after_concat ..

section

variable (h : WellFormed F path text store)
  (hcareful : ∀ before call, before ++ [call] <+: calls → Careful F (accepted F store before) call)
include h hcareful

theorem WellFormed.after :
    WellFormed F path (EventLog.after F path text calls) (accepted F store calls) := by
  induction calls using List.reverseRecOn with
  | nil => exact h
  | append_singleton calls call ih =>
    have hb := ih fun before call' hp => hcareful before call' (hp.trans (prefix_append ..))
    rw [after_concat, accepted_concat]
    exact hb.step (hcareful calls call (prefix_refl _))

theorem lawful_of_careful : Lawful F path text store calls := by
  have hr : ∀ before, before <+: calls →
      WellFormed F path (EventLog.after F path text before) (accepted F store before) :=
    fun before hp => h.after fun before' call hp' => hcareful before' call (hp'.trans hp)
  have hb : ∀ before (call : Call φ), before ++ [call] <+: calls →
      WellFormed F path (EventLog.after F path text before) (accepted F store before) :=
    fun before call hp => hr before ((prefix_append ..).trans hp)
  refine ⟨hr, fun before call hp => ?_, fun before call hp stored hs hsame _ => ?_,
    fun before call hp stored hs hsame hne => ?_⟩
  · rw [after_concat]
    exact (hb before call hp).appendOnly call
  · rw [after_concat]
    exact ((hb before call hp).known (hcareful before call hp) hs hsame).1
  · have hk := (hb before call hp).known (hcareful before call hp) hs hsame
    rw [after_concat]
    exact ⟨hk.2 hne, hk.1⟩

end

/-- A call on a known event that a lawful log takes is careful. -/
theorem careful_of_lawful (h : Lawful F path text store calls) {before : List (Call φ)}
    (hp : before ++ [call] <+: calls) : Careful F (accepted F store before) call := by
  by_cases href : call.Refused
  · exact .inl href
  refine .inr fun stored hst hsame => ?_
  have hwf := h.reads before ((prefix_append ..).trans hp)
  have hrep := h.repeated before call hp stored hst hsame
  have hcn := h.conflict before call hp stored hst hsame
  have heff := hwf.effect call
  rw [after_concat] at hrep hcn
  generalize appendJsonlRecord F path (EventLog.after F path text before) call = result
    at heff hrep hcn
  have hsm : result.2 = EventLog.after F path text before := by
    cases heq : jsonEq F (.obj stored) (.obj call.record.fields) with
    | true => exact hrep heq
    | false => exact (hcn heq).2
  cases heff with
  | refused _ href' => exact absurd href' href
  | appended =>
    -- the line would be a second one of the event
    have hlen := congrArg List.length hsm
    simp [lineOf] at hlen
  | repeated o hoth hid hsame' heq =>
    refine ⟨hid, fun _ => ?_⟩
    by_contra hne
    rw [Bool.not_eq_true] at hne
    obtain ⟨⟨e, he⟩, -⟩ := hcn hne
    cases he
  | conflict e o hoth hid hsame' hne =>
    refine ⟨hid, fun heq => ?_⟩
    obtain rfl := eq_of_sameEvent hwf.distinct hid hoth hst hsame' hsame
    rw [hne] at heq
    cases heq

/-- **The log is an idempotent append-only store exactly when no call repeats an event id with
content that only Python takes for the same.** -/
theorem event_log_lawful_iff (F : FloatFormat φ) (path : String) (text : List Char)
    (store : List (Fields φ)) (h : WellFormed F path text store) (calls : List (Call φ)) :
    Lawful F path text store calls ↔
      ∀ before call, before ++ [call] <+: calls → Careful F (accepted F store before) call := by
  constructor
  · intro hl before call hp
    exact careful_of_lawful hl hp
  · exact lawful_of_careful h

def eventWith (value : Scalar ℤ) : Record ℤ where
  fields := [("event_id", .scalar (.str "e")), ("v", .scalar value)]
  distinct := by simp [Value.Distinct, DistinctFields]

theorem pyEq_eventWith_iff (a b : Scalar ℤ) :
    pyEq wholeFloats (.obj (eventWith a).fields) (.obj (eventWith b).fields) =
      pyScalarEq wholeFloats a b := by
  simp [pyEq, eventWith, valueEq, fieldsEq, pyScalarEq, List.lookup_cons]

theorem jsonEq_eventWith_iff (a b : Scalar ℤ) :
    jsonEq wholeFloats (.obj (eventWith a).fields) (.obj (eventWith b).fields) =
      jsonScalarEq wholeFloats a b := by
  simp [jsonEq, eventWith, valueEq, fieldsEq, jsonScalarEq, List.lookup_cons]

theorem eventIdOf_eventWith (a : Scalar ℤ) : eventIdOf (eventWith a).fields = some "e" := by
  have hs : strip "e" ≠ "" := by decide
  simp [eventIdOf, eventWith, hs]

theorem sameEvent_eventWith (a b : Scalar ℤ) :
    sameEvent wholeFloats (eventWith a).fields (eventWith b).fields := by
  simp [sameEvent, eventWith, jsonEq_str_iff]

theorem accepted_eventWith (a : Scalar ℤ) :
    accepted wholeFloats [] [⟨true, eventWith a⟩] = [(eventWith a).fields] := by
  simp [accepted, accept, Call.Refused, eventIdOf_eventWith, Journal.after]

/-- Two appends of the same event to a new file. -/
theorem same_event_twice_lawful :
    WellFormed wholeFloats "outbox.jsonl" [] [] ∧
    Lawful wholeFloats "outbox.jsonl" [] []
      [⟨true, eventWith (.int 1)⟩, ⟨true, eventWith (.int 1)⟩] := by
  refine ⟨WellFormed.nil,
    (event_log_lawful_iff wholeFloats "outbox.jsonl" [] [] WellFormed.nil _).2 ?_⟩
  intro before call hp
  have hl := hp.length_le
  match before, hp, hl with
  | [], _, _ => exact .inr fun stored hs => absurd hs not_mem_nil
  | [first], hp, _ =>
    obtain ⟨rest, hr⟩ := hp
    cases hr
    refine .inr fun stored hs _ => ⟨by simp [eventIdOf_eventWith], fun _ => ?_⟩
    have hst : stored = (eventWith (.int 1)).fields := by
      rw [accepted_eventWith] at hs
      exact mem_singleton.1 hs
    rw [hst, jsonEq_eventWith_iff]
    rfl
  | _ :: _ :: _, _, hl => simp at hl

/-- `true` after `1`: the second append returns, and its content is nowhere. -/
theorem true_after_one_lost :
    jsonEq wholeFloats (.obj (eventWith (.int 1)).fields)
      (.obj (eventWith (.bool true)).fields) = false ∧
    appendJsonlRecord wholeFloats "outbox.jsonl"
        (after wholeFloats "outbox.jsonl" [] [⟨true, eventWith (.int 1)⟩])
        ⟨true, eventWith (.bool true)⟩ =
      (.ok true, after wholeFloats "outbox.jsonl" [] [⟨true, eventWith (.int 1)⟩]) ∧
    ¬ Lawful wholeFloats "outbox.jsonl" [] []
      [⟨true, eventWith (.int 1)⟩, ⟨true, eventWith (.bool true)⟩] := by
  have hne : jsonEq wholeFloats (.obj (eventWith (.int 1)).fields)
      (.obj (eventWith (.bool true)).fields) = false := by
    rw [jsonEq_eventWith_iff]
    rfl
  have hsame := sameEvent_eventWith (.int 1) (.bool true)
  have hwf : WellFormed wholeFloats "outbox.jsonl"
      (after wholeFloats "outbox.jsonl" [] [⟨true, eventWith (.int 1)⟩])
      [(eventWith (.int 1)).fields] := by
    rw [← accepted_eventWith]
    refine WellFormed.nil.step (.inr fun stored hs => absurd hs not_mem_nil)
  have ha : appendJsonlRecord wholeFloats "outbox.jsonl"
        (after wholeFloats "outbox.jsonl" [] [⟨true, eventWith (.int 1)⟩])
        ⟨true, eventWith (.bool true)⟩ =
      (.ok true, after wholeFloats "outbox.jsonl" [] [⟨true, eventWith (.int 1)⟩]) := by
    have heff := hwf.effect ⟨true, eventWith (.bool true)⟩
    generalize appendJsonlRecord wholeFloats "outbox.jsonl" _ _ = result at heff ⊢
    cases heff with
    | refused _ h => simp [Call.Refused, eventIdOf_eventWith] at h
    | appended _ hnew =>
      rcases hnew with hn | hnew
      · simp [eventIdOf_eventWith] at hn
      · rw [hnew _ mem_cons_self] at hsame
        cases hsame
    | repeated => rfl
    | conflict e stored hs _ _ hpy =>
      rw [mem_singleton.1 hs, pyEq_eventWith_iff] at hpy
      cases hpy
  refine ⟨hne, ha, fun h => ?_⟩
  have hm : (eventWith (.int 1)).fields ∈ accepted wholeFloats [] [⟨true, eventWith (.int 1)⟩] := by
    rw [accepted_eventWith]
    exact mem_cons_self
  obtain ⟨⟨e, he⟩, -⟩ := h.conflict [⟨true, eventWith (.int 1)⟩] ⟨true, eventWith (.bool true)⟩
    (prefix_refl _) _ hm hsame hne
  rw [ha] at he
  cases he

end AgenticPkm.EventLog
