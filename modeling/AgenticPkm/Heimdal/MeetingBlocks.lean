import AgenticPkm.Heimdal.UserNotes

/-!
# Who may write a meeting block

Every write of a block goes through `apply_block_write`.  A block is created with the provenance of
its writer, and a later write is let through if its writer is the one that the recorded provenance
names: the editor of a note, or the engine and the role of a derived block.  The extra provenance of
a call cannot replace the keys that are read; the detail of a derived writer can.

* `changed_only_by_creator` — **only its creator changes a block**.
-/

namespace AgenticPkm.MeetingBlocks

open UserNotes (BlockType)
open Dict (get?_set_self get?_set_of_ne)

/-- A value of a provenance; what is not a string is only kept. -/
inductive Value
  | text (s : String)
  | other (json : String)
  deriving DecidableEq

abbrev Provenance := Dict String Value

/-- `{**d, **e}`. -/
def update (d e : Provenance) : Provenance := e.items.foldl (fun d item => d.set item.1 item.2) d

def reservedProvenanceKeys : List String := ["kind", "engine", "role", "editor_identity"]

structure WriterIdentity where
  kind : String
  editorIdentity : String := ""
  engine : String := ""
  role : String := ""
  detail : Provenance := ∅

def WriterIdentity.asProvenance (writer : WriterIdentity) : Provenance :=
  if writer.kind = "user_editor" then
    (Dict.set ∅ "kind" (.text writer.kind)).set "editor_identity" (.text writer.editorIdentity)
  else
    update (((Dict.set ∅ "kind" (.text writer.kind)).set "engine" (.text writer.engine)).set "role"
      (.text writer.role)) writer.detail

/-- `OWNERS`. -/
inductive Owner
  | user
  | system
  deriving DecidableEq

structure MeetingBlock where
  sessionId : String
  owner : Owner
  blockType : BlockType
  provenance : Provenance
  content : String
  position : ℤ
  revision : ℕ
  retired : Bool
  createdAt : ℤ
  revisedAt : ℤ

inductive Action
  | create
  | revise
  | retire
  | move
  | other (name : String)

/-- A call of `apply_block_write`; a type that is not one of `BLOCK_TYPES` is `none`. -/
structure Call where
  sessionId : String
  writer : WriterIdentity
  action : Action
  blockId : String
  blockType : Option BlockType := none
  content : String := ""
  position : Option ℤ := none
  provenanceExtra : Provenance := ∅
  verifyOnly : Bool := false
  now : ℤ := 0

def derivedOwns (writer : WriterIdentity) (block : MeetingBlock) : Bool :=
  block.provenance.get? "kind" = some (.text "derived") &&
    block.provenance.get? "engine" = some (.text writer.engine) &&
    block.provenance.get? "role" = some (.text writer.role) && writer.engine ≠ ""

/-- `_authorize_target` refuses nothing. -/
def authorizeTarget (writer : WriterIdentity) (block : MeetingBlock) (sessionId : String) : Bool :=
  let recorded := (block.provenance.get? "editor_identity").getD (.text "")
  block.sessionId = sessionId &&
    if block.blockType = .userNote then
      writer.kind = "user_editor" && strip writer.editorIdentity ≠ "" &&
        (recorded = .text "" || recorded = .text writer.editorIdentity)
    else writer.kind = "derived" && derivedOwns writer block

/-- The checks of a create, which a probe makes too. -/
def mayCreate (writer : WriterIdentity) : BlockType → Bool
  | .userNote => writer.kind = "user_editor" && strip writer.editorIdentity ≠ ""
  | .derivedProjection => writer.kind = "derived" && writer.engine ≠ ""
  | .transcriptSegment => writer.kind = "derived" && writer.engine ≠ "" && writer.role = "asr"

def ownerOf (blockType : BlockType) : Owner := if blockType = .userNote then .user else .system

/-- The provenance with what the call adds. -/
def Call.extend (call : Call) (provenance : Provenance) : Provenance :=
  update provenance (call.provenanceExtra.keep (· ∉ reservedProvenanceKeys))

def Call.newBlock (call : Call) (blockType : BlockType) : MeetingBlock where
  sessionId := call.sessionId
  owner := ownerOf blockType
  blockType := blockType
  provenance := call.extend call.writer.asProvenance
  content := call.content
  position := call.position.getD 0
  revision := 1
  retired := false
  createdAt := call.now
  revisedAt := call.now

/-- The block that `apply_block_write` writes under the id, where `existing` is; nothing if it
refuses, is only asked, or finds that the block is as it should be. -/
def blockWrite (existing : Option MeetingBlock) (call : Call) : Option MeetingBlock :=
  match call.action, existing with
  | .create, none => do
      let blockType ← call.blockType
      if mayCreate call.writer blockType && !call.verifyOnly then call.newBlock blockType else none
  -- a replay, or a refusal
  | .create, some _ => none
  | _, none => none
  | action, some existing =>
      let position := call.position.getD existing.position
      if !authorizeTarget call.writer existing call.sessionId || call.verifyOnly then none
      else
        match action with
        | .move => some { existing with position, revisedAt := call.now }
        | .retire => some { existing with retired := true, revisedAt := call.now }
        | .revise =>
            if call.content = existing.content ∧ position = existing.position then none
            else
              some { existing with
                provenance := call.extend existing.provenance
                content := call.content
                position
                revision := existing.revision + 1
                revisedAt := call.now }
        | _ => none

/-- `apply_block_write`; a blank id raises. -/
def applyBlockWrite (store : Dict String MeetingBlock) (call : Call) : Dict String MeetingBlock :=
  match blockWrite (store.get? call.blockId) call with
  | none => store
  | some block => if strip call.blockId = "" then store else store.set call.blockId block

def afterCalls (calls : List Call) : Dict String MeetingBlock := calls.foldl applyBlockWrite ∅

/-! ### The maker of a block -/

/-- What a writer is known by: its provenance without the detail. -/
def WriterIdentity.identity (writer : WriterIdentity) : Provenance :=
  { writer with detail := ∅ }.asProvenance

/-- The detail of the writer leaves the reserved keys alone. -/
def WriterIdentity.Plain (writer : WriterIdentity) : Prop :=
  ∀ key ∈ reservedProvenanceKeys, key ∉ writer.detail.keys

/-- The block is one that the call created. -/
structure MadeBy (made : Call) (block : MeetingBlock) : Prop where
  action : made.action = .create
  session : block.sessionId = made.sessionId
  blockType : made.blockType = some block.blockType
  owner : block.owner = ownerOf block.blockType
  createdAt : block.createdAt = made.now
  granted : mayCreate made.writer block.blockType
  provenance : ∀ key ∈ reservedProvenanceKeys,
    block.provenance.get? key = made.writer.identity.get? key

/-- The call is for the block and by a writer of its maker's identity. -/
structure ByMaker (made call : Call) (block : MeetingBlock) : Prop where
  blockId : call.blockId = made.blockId
  identity : call.writer.identity = made.writer.identity
  editor : block.blockType = .userNote → call.writer.kind = "user_editor"

variable {d e : Provenance} {key id session : String} {writer : WriterIdentity} {made call : Call}
  {block block' : MeetingBlock} {store : Dict String MeetingBlock}

theorem get?_update (h : key ∉ e.keys) : (update d e).get? key = d.get? key := by
  refine List.foldlRecOn e.items _ (motive := fun d' => Dict.get? d' key = d.get? key) rfl ?_
  intro d' ih item hi
  have hne : key ≠ item.1 := fun he => h (he ▸ List.mem_map_of_mem hi)
  rw [get?_set_of_ne _ _ hne, ih]

theorem get?_extend (h : key ∈ reservedProvenanceKeys) : (call.extend d).get? key = d.get? key := by
  refine get?_update fun hk => ?_
  obtain ⟨item, hi, rfl⟩ := List.mem_map.mp hk
  exact of_decide_eq_true (List.mem_filter.mp hi).2 h

theorem identity_of_editor (h : writer.kind = "user_editor") :
    writer.identity = (Dict.set ∅ "kind" (.text "user_editor")).set "editor_identity"
      (.text writer.editorIdentity) := by
  simp [WriterIdentity.identity, WriterIdentity.asProvenance, h]

theorem identity_of_derived (h : writer.kind = "derived") :
    writer.identity = ((Dict.set ∅ "kind" (.text "derived")).set "engine"
      (.text writer.engine)).set "role" (.text writer.role) := by
  simp [WriterIdentity.identity, WriterIdentity.asProvenance, h, update]

theorem get?_asProvenance (h : writer.Plain) (hk : key ∈ reservedProvenanceKeys) :
    writer.asProvenance.get? key = writer.identity.get? key := by
  unfold WriterIdentity.identity WriterIdentity.asProvenance
  split
  · rfl
  · exact get?_update (h key hk)

theorem MadeBy.of_editor (h : MadeBy made block) (ht : block.blockType = .userNote)
    (ha : authorizeTarget writer block session) :
    writer.kind = "user_editor" ∧ writer.identity = made.writer.identity := by
  have hg := h.granted
  have hp := h.provenance "editor_identity" (by decide)
  simp only [ht, mayCreate, Bool.and_eq_true, decide_eq_true_eq] at hg
  rw [identity_of_editor hg.1, get?_set_self] at hp
  simp only [authorizeTarget, ht, hp, if_true, Option.getD_some, Bool.and_eq_true, Bool.or_eq_true,
    decide_eq_true_eq, Value.text.injEq] at ha
  obtain ⟨-, ⟨hk, -⟩, he⟩ := ha
  -- the editor of the note is not blank
  have he := he.resolve_left fun h0 => hg.2 (by rw [h0]; rfl)
  exact ⟨hk, by rw [identity_of_editor hk, identity_of_editor hg.1, he]⟩

theorem MadeBy.of_derived (h : MadeBy made block) (ht : block.blockType ≠ .userNote)
    (ha : authorizeTarget writer block session) : writer.identity = made.writer.identity := by
  have hg : made.writer.kind = "derived" := by
    have hg := h.granted
    cases hb : block.blockType <;> simp_all [mayCreate]
  have he := h.provenance "engine" (by decide)
  have hr := h.provenance "role" (by decide)
  rw [identity_of_derived hg] at he hr
  simp only [authorizeTarget, if_neg ht, derivedOwns, he, hr, Bool.and_eq_true,
    decide_eq_true_eq] at ha
  obtain ⟨-, hk, ⟨⟨-, he⟩, hr⟩, -⟩ := ha
  simp [Dict.get?_set] at he hr
  rw [identity_of_derived hk, identity_of_derived hg, he, hr]

/-- What is written is a new block, or an authorised change that its maker's mark survives. -/
theorem blockWrite_cases {existing : Option MeetingBlock}
    (h : blockWrite existing call = some block') :
    (existing = none ∧ call.action = .create ∧ ∃ blockType, call.blockType = some blockType ∧
      mayCreate call.writer blockType ∧ block' = call.newBlock blockType) ∨
    ∃ block, existing = some block ∧ authorizeTarget call.writer block call.sessionId ∧
      ∀ made, MadeBy made block → MadeBy made block' := by
  unfold blockWrite at h
  split at h
  · next hact =>
    obtain ⟨blockType, hb, h⟩ := Option.bind_eq_some_iff.mp h
    split_ifs at h with hc
    cases h
    exact .inl ⟨rfl, hact, blockType, hb, (Bool.and_eq_true_iff.mp hc).1, rfl⟩
  · cases h
  · cases h
  · split_ifs at h with hc
    refine .inr ⟨_, rfl, by simp_all, fun made hm => ?_⟩
    split at h
    · cases h
      exact { hm with }
    · cases h
      exact { hm with }
    · dsimp only at h
      split_ifs at h
      cases h
      exact { hm with provenance := fun key hk => (get?_extend hk).trans (hm.provenance key hk) }
    · cases h

theorem get?_applyBlockWrite (h : (applyBlockWrite store call).get? id ≠ store.get? id) :
    call.blockId = id ∧ ∃ block, blockWrite (store.get? id) call = some block ∧
      (applyBlockWrite store call).get? id = some block := by
  unfold applyBlockWrite at h ⊢
  split at h
  · exact absurd rfl h
  next block hw =>
  split_ifs at h
  · exact absurd rfl h
  by_cases hid : id = call.blockId
  · subst hid
    simp_all
  · exact absurd (get?_set_of_ne _ _ hid) h

theorem MadeBy.after (h : MadeBy made block) (hs : store.get? made.blockId = some block)
    (call : Call) :
    ∃ block', (applyBlockWrite store call).get? made.blockId = some block' ∧
      MadeBy made block' ∧ (block' = block ∨ ByMaker made call block) := by
  by_cases heq : (applyBlockWrite store call).get? made.blockId = store.get? made.blockId
  · exact ⟨block, heq.trans hs, h, .inl rfl⟩
  obtain ⟨hid, block', hw, hb'⟩ := get?_applyBlockWrite heq
  obtain ⟨h0, -⟩ | ⟨block₀, hb, ha, hmade⟩ := blockWrite_cases hw
  · cases hs.symm.trans h0
  cases hs.symm.trans hb
  refine ⟨block', hb', hmade made h, .inr ?_⟩
  by_cases ht : block.blockType = .userNote
  · exact ⟨hid, (h.of_editor ht ha).2, fun _ => (h.of_editor ht ha).1⟩
  · exact ⟨hid, h.of_derived ht ha, fun hu => absurd hu ht⟩

theorem madeBy_of_new (hp : call.writer.Plain) (hs : store.get? id = none)
    (h : (applyBlockWrite store call).get? id = some block) :
    call.blockId = id ∧ MadeBy call block := by
  obtain ⟨hid, block', hw, hb'⟩ := get?_applyBlockWrite (by rw [h, hs]; nofun)
  cases h.symm.trans hb'
  obtain ⟨-, hact, blockType, hb, hg, rfl⟩ | ⟨block₀, hb, -⟩ := blockWrite_cases hw
  · exact ⟨hid, hact, rfl, hb, rfl, rfl, hg, fun key hk =>
      (get?_extend hk).trans (get?_asProvenance hp hk)⟩
  · cases hs.symm.trans hb

/-- Every block was created by one of the calls, where there was none. -/
theorem exists_madeBy {calls : List Call} (hp : ∀ call ∈ calls, call.writer.Plain)
    (h : (afterCalls calls).get? id = some block) :
    ∃ before made after, calls = before ++ made :: after ∧ (afterCalls before).get? id = none ∧
      made.blockId = id ∧ MadeBy made block := by
  induction calls using List.reverseRecOn generalizing block with
  | nil => cases h
  | append_singleton calls call ih =>
    rw [afterCalls, List.foldl_concat] at h
    cases hs : (afterCalls calls).get? id with
    | none =>
      obtain ⟨hid, hm⟩ := madeBy_of_new (hp call (by simp)) hs h
      exact ⟨calls, call, [], rfl, hs, hid, hm⟩
    | some block₀ =>
      obtain ⟨before, made, after, rfl, hnone, rfl, hm⟩ := ih (fun c hc => hp c (by simp [hc])) hs
      obtain ⟨block', hb, hm', -⟩ := hm.after hs call
      cases hb.symm.trans h
      exact ⟨before, made, after ++ [call], by simp, hnone, rfl, hm'⟩

/-- **Only the writer that created a block changes it**, if no detail has a reserved key.  Every
block has the session, type, owner and time of the call that created it and the identity of its
writer, and keeps them whatever is called; what changes it is a call by that writer. -/
theorem changed_only_by_creator (calls : List Call) (hp : ∀ call ∈ calls, call.writer.Plain)
    (id : String) (block : MeetingBlock) (h : (afterCalls calls).get? id = some block) :
    ∃ before made after, calls = before ++ made :: after ∧ (afterCalls before).get? id = none ∧
      made.blockId = id ∧ MadeBy made block ∧ ∀ call : Call,
        ∃ block', (afterCalls (calls ++ [call])).get? id = some block' ∧ MadeBy made block' ∧
          (block' = block ∨ ByMaker made call block) := by
  obtain ⟨before, made, after, hcalls, hnone, rfl, hm⟩ := exists_madeBy hp h
  refine ⟨before, made, after, hcalls, hnone, rfl, hm, fun call => ?_⟩
  rw [afterCalls, List.foldl_concat]
  exact hm.after h call

def sampleCreate (detail : Provenance) : Call :=
  { sessionId := "s", writer := { kind := "derived", engine := "a", role := "r", detail },
    action := .create, blockId := "b", blockType := some .derivedProjection, content := "x" }

def sampleRevise (engine content : String) : Call :=
  { sessionId := "s", writer := { kind := "derived", engine, role := "r" }, action := .revise,
    blockId := "b", content }

/-- A revision by another engine is refused, and one by the maker is written. -/
theorem plain_detail_keeps_block :
    let calls := [sampleCreate ∅, sampleRevise "z" "w", sampleRevise "a" "y"]
    ((afterCalls calls).get? "b").map MeetingBlock.content = some "y" ∧
      ∃ before made after, calls = before ++ made :: after ∧
        (afterCalls before).get? "b" = none ∧ made.action = .create := by
  intro calls
  have hc : ((afterCalls calls).get? "b").map MeetingBlock.content = some "y" := by decide +kernel
  refine ⟨hc, ?_⟩
  obtain ⟨block, hb, -⟩ := Option.map_eq_some_iff.mp hc
  obtain ⟨before, made, after, heq, hnone, -, hm, -⟩ := changed_only_by_creator calls
    (by simp [calls, sampleCreate, sampleRevise, WriterIdentity.Plain, Dict.keys]) "b" block hb
  exact ⟨before, made, after, heq, hnone, hm.action⟩

/-- A detail that names another engine: the writer of that engine rewrites the block. -/
theorem detail_rehomes_block :
    let calls := [sampleCreate (Dict.set ∅ "engine" (.text "z")), sampleRevise "z" "y"]
    ((afterCalls calls).get? "b").map MeetingBlock.content = some "y" := by
  decide +kernel

end AgenticPkm.MeetingBlocks
