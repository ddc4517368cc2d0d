import AgenticPkm.Outbox.Worker

/-!
# Acknowledged rows are accounted for

A row may be acknowledged because its dispatch returned, because it was dead-lettered, because
`run` had dispatched its event before, or because it was deferred to a retry row.  But the key of a
retry row falls back to the path of the note when the payload names no event, the insert under a
used key does nothing, and the worker does not look at whether a row was inserted: the second row
that defers for a note is then acknowledged without a retry row of its own, also when the retry row
of the first was delivered long ago.  And a dead letter whose audit append raises is lost.

* `acked_rows_accounted` — **careful workers lose nothing**.
* `delivered_for_good` — delivered rows stay delivered.
-/

namespace AgenticPkm.Outbox

open List Option

/-! ### The property and the condition -/

/-- The row is accounted for: it succeeded, it was dead-lettered, or its own retry row is there; or
`run` had dispatched a row with its event identifier. -/
def AckRecord.Accounted (worker : Worker) (record : AckRecord) : Prop :=
  record.repeats ∨
    match record.how with
    | .succeeded => True
    | .deadLettered letter => letter ∈ worker.audit
    | .duplicate _ => False
    | .deferred created => ∃ id ∈ created, (worker.rows.get? id).isSome = true

/-- Every row that was delivered, and was not at the start, is accounted for. -/
def Worker.Accounted (initial : Rows) (worker : Worker) : Prop :=
  ∀ id row, worker.rows.get? id = some row → row.delivered = true →
    (∃ first, initial.get? id = some first ∧ first.delivered = true) ∨
      ∃ record, worker.acks.get? id = some record ∧ record.Accounted worker

/-- If the handler defers the row and a retry is due, the key of the retry is not taken. -/
def RetryFree (cfg : Config) (rows : Rows) (env : Environment) (row : OutboxRow)
    (payload : Payload) : Prop :=
  ∀ notePath reason key bindingId scopedKey,
    env.handling = .defers notePath reason → env.writeRaises = false →
    payloadRetryCount payload < maxTransientRetryAttempts →
    deriveIdempotencyKey cfg row.event.topic (retrySource payload notePath)
      (retryFingerprint payload reason) = .ok key →
    strip key ≠ "" → cfg.resolveBinding row.vaultBindingId = .ok bindingId →
    deriveIdempotencyKey cfg row.event.topic bindingId key = .ok scopedKey →
    keyTaken rows scopedKey key bindingId = false

/-- The tick gives the row up: it is invalid, its retries are used up, or, in `run`, its budget of
failed dispatches is spent. -/
def GivesUp (cfg : Config) (rows : Rows) (env : Environment) (id : String) (payload : Payload)
    (inRun : Bool) : Prop :=
  match env.handling with
  | .rejects _ _ => True
  | .defers _ _ => maxTransientRetryAttempts ≤ payloadRetryCount payload
  | .raises false _ _ => inRun ∧ budgetSpent cfg (bumpOutboxAttempts rows id).2
  | _ => False

/-- The row is not deferred to a key that is taken, and the dead letter of a row that is given up
can be written. -/
structure Safe (cfg : Config) (rows : Rows) (env : Environment) (id : String) (row : OutboxRow)
    (payload : Payload) (inRun : Bool) : Prop where
  free : RetryFree cfg rows env row payload
  written : GivesUp cfg rows env id payload inRun → env.auditRaises = false

/-- The row that the tick dispatches is safe, unless `run` has dispatched its event before. -/
def Worker.Careful (cfg : Config) (worker : Worker) : Tick → Prop
  | .runOnce eligible env => ∀ id row, pollOutboxOne eligible worker.rows = some (id, row) →
      worker.repeats row = false → Safe cfg worker.rows env id row row.event.payload false
  | .run eligible env => ∀ id row, pollOutboxOne eligible worker.rows = some (id, row) →
      worker.repeats row = false →
        Safe cfg worker.rows env id row (withEventId row.event.payload row.event.eventId) true
  | .restart => True

/-! ### Quiet changes -/

/-- Nothing is acknowledged: rows may come in, and records grow. -/
structure Quiet (worker worker' : Worker) : Prop where
  acks : worker'.acks = worker.acks
  rows : ∀ id, (worker'.rows.get? id).map (·.delivered) = (worker.rows.get? id).map (·.delivered) ∨
    ((worker.rows.get? id).map (·.delivered) = none ∧
      (worker'.rows.get? id).map (·.delivered) = some false)
  audit : ∀ letter ∈ worker.audit, letter ∈ worker'.audit
  dispatched : ∀ eventId ∈ worker.dispatched, eventId ∈ worker'.dispatched
  seen : ∀ eventId ∈ worker'.seen, eventId ∈ worker.seen ∨ eventId ∈ worker'.dispatched

namespace Quiet

variable {worker worker' worker'' : Worker} {id : String}

theorem refl (worker : Worker) : Quiet worker worker :=
  ⟨rfl, fun _ => .inl rfl, fun _ h => h, fun _ h => h, fun _ h => .inl h⟩

theorem trans (h : Quiet worker worker') (h' : Quiet worker' worker'') : Quiet worker worker'' where
  acks := h'.acks.trans h.acks
  rows := by
    intro id
    rcases h.rows id with hsame | ⟨hn, hf⟩
    · rw [← hsame]
      exact h'.rows id
    · rcases h'.rows id with hsame' | ⟨hn', -⟩
      · exact .inr ⟨hn, hsame'.trans hf⟩
      · rw [hf] at hn'
        cases hn'
  audit := fun l hl => h'.audit l (h.audit l hl)
  dispatched := fun e hid => h'.dispatched e (h.dispatched e hid)
  seen := by
    intro e hid
    rcases h'.seen e hid with hs | hd
    · exact (h.seen e hs).imp id (h'.dispatched e)
    · exact .inr hd

theorem isSome (h : Quiet worker worker') (hid : (worker.rows.get? id).isSome) :
    (worker'.rows.get? id).isSome := by
  obtain ⟨_, hr⟩ := isSome_iff_exists.mp hid
  rcases h.rows id with hsame | ⟨hn, -⟩
  · rw [hr, map_some] at hsame
    obtain ⟨_, hr', -⟩ := map_eq_some_iff.mp hsame
    simp [hr']
  · simp [hr] at hn

theorem delivered_of_get? (h : Quiet worker worker') {row : OutboxRow}
    (hr : worker.rows.get? id = some row) :
    (worker'.rows.get? id).map (·.delivered) = some row.delivered := by
  rcases h.rows id with hsame | ⟨hn, -⟩
  · rw [hsame, hr, map_some]
  · rw [hr] at hn
    cases hn

theorem delivered_iff (h : Quiet worker worker') :
    (worker'.rows.get? id).map (·.delivered) = some true ↔
      (worker.rows.get? id).map (·.delivered) = some true := by
  rcases h.rows id with hsame | ⟨hn, hf⟩
  · rw [hsame]
  · rw [hn, hf]
    simp

theorem accounted (h : Quiet worker worker') {record : AckRecord}
    (ha : record.Accounted worker) : record.Accounted worker' := by
  obtain ⟨how, repeats⟩ := record
  refine ha.imp_right fun ha => ?_
  cases how with
  | succeeded => trivial
  | deadLettered l => exact h.audit l ha
  | duplicate => exact ha
  | deferred =>
    obtain ⟨id, hid, hr⟩ := ha
    exact ⟨id, hid, h.isSome hr⟩

theorem of_write {cfg : Config} {e : Event} {c : ℤ} {key b : String} {rows : Rows}
    {cr : Option String} (h : writeOutboxEvent cfg worker.rows e c key b = .ok (rows, cr)) :
    Quiet worker { worker with rows := rows } where
  acks := rfl
  rows := by
    intro id
    rcases get?_writeOutboxEvent h with ⟨-, rfl⟩ | ⟨scopedKey, row, -, hn, hr, rfl⟩
    · exact .inl rfl
    · rw [Dict.get?_set]
      split
      · next heq =>
        subst heq
        exact .inr ⟨by rw [hn, map_none], by rw [map_some, hr]⟩
      · exact .inl rfl
  audit := fun _ h => h
  dispatched := fun _ h => h
  seen := fun _ h => .inl h

end Quiet

theorem emitDeadLetter_quiet (cfg : Config) (w : Worker) (env : Environment)
    (l : DeadLetter) (originalEventId s f v : String) :
    Quiet w (emitDeadLetter cfg w env l originalEventId s f v) := by
  have ha : ∀ written : Except String (Rows × Option String),
      (∀ rows created, written = .ok (rows, created) → Quiet w { w with rows := rows }) →
      Quiet w { w with
        audit := w.audit ++ [l], rows := (written.toOption.map Prod.fst).getD w.rows } := by
    intro written h
    have hq : Quiet w { w with rows := (written.toOption.map Prod.fst).getD w.rows } := by
      cases hw : written with
      | error => exact .refl w
      | ok p => exact h p.1 p.2 hw
    exact ⟨hq.acks, hq.rows, fun _ hl => mem_append_left _ hl, hq.dispatched, hq.seen⟩
  unfold emitDeadLetter
  dsimp only
  split
  · exact .refl w
  refine ha _ fun rows created hw => ?_
  simp only [bind_eq_ok_iff, exists_unit_iff] at hw
  obtain ⟨key, -, -, hw⟩ := hw
  exact .of_write hw

theorem mem_audit_emitDeadLetter (cfg : Config) (w : Worker) {env : Environment} (l : DeadLetter)
    (o s f v : String) (h : env.auditRaises = false) :
    l ∈ (emitDeadLetter cfg w env l o s f v).audit := by
  rw [emitDeadLetter, if_neg (by simp [h])]
  exact mem_append_right _ (mem_singleton_self l)

theorem sawEvent_quiet (w : Worker) (eventId : String) : Quiet w (w.sawEvent eventId) where
  acks := rfl
  rows := fun _ => .inl rfl
  audit := fun _ h => h
  dispatched := fun _ h => mem_append_left _ h
  seen := by
    intro o ho
    have hm : o ∈ w.seen ∨ o = eventId := by
      simp only [Worker.sawEvent] at ho
      split at ho
      · exact .inl ho
      · have hd : o ∈ w.seen ++ [eventId] := by
          unfold remember at ho
          dsimp only at ho
          split at ho
          · exact mem_of_mem_drop ho
          · exact ho
        simpa using hd
    exact hm.imp id fun h => mem_append_right _ (by simp [h])

theorem bump_quiet (w : Worker) (id : String) :
    Quiet w { w with rows := (bumpOutboxAttempts w.rows id).1 } :=
  ⟨rfl, fun id' => .inl (get?_bumpOutboxAttempts w.rows id id'), fun _ h => h, fun _ h => h,
    fun _ h => .inl h⟩

/-! ### What one tick does -/

theorem RetryFree.writeRetry_ne {cfg : Config} {rows : Rows} {env : Environment} {row : OutboxRow}
    {payload : Payload} (h : RetryFree cfg rows env row payload) {n reason : String}
    (hd : env.handling = .defers n reason)
    (hct : payloadRetryCount payload < maxTransientRetryAttempts) (rows' : Rows) :
    writeRetry cfg rows env row.event.topic payload n reason row.vaultBindingId ≠
      .ok (rows', none) := by
  simp only [writeRetry, writeOutboxEvent, ne_eq, bind_eq_ok_iff, exists_unit_iff,
    raiseIf_eq_ok_iff, pure_eq_ok_iff, beq_eq_false_iff_ne]
  rintro ⟨key, hk, hr, hstr, b, hb, s, hs, hw⟩
  have hfree := h n reason key b s hd hr hct hk hstr hb hs
  simp [hfree] at hw

/-- What a dispatch does: it is quiet, and a row it returns for is accounted for if it is safe. -/
structure DispatchEffect (safe : Prop) (worker worker' : Worker) (result : Dispatched) : Prop where
  quiet : Quiet worker worker'
  accounted : ∀ ack repeats, result = .returned ack → safe →
    AckRecord.Accounted worker' ⟨ack, repeats⟩

theorem dispatchTopic_effect (cfg : Config) (w : Worker) (env : Environment) (id : String)
    (row : OutboxRow) (payload : Payload) (inRun : Bool) :
    DispatchEffect (Safe cfg w.rows env id row payload inRun) w
      (dispatchTopic cfg w env row payload).1 (dispatchTopic cfg w env row payload).2 := by
  unfold dispatchTopic
  cases hh : env.handling with
  | returns =>
    refine ⟨.refl w, fun ack _ hack _ => ?_⟩
    cases hack
    exact .inr trivial
  | rejects | raises => exact ⟨.refl w, fun _ _ hack => nomatch hack⟩
  | defers notePath reason =>
    dsimp only
    unfold queueTransientRetry
    dsimp only
    by_cases hct : maxTransientRetryAttempts ≤ payloadRetryCount payload
    · -- the attempts are used up, and the dead letter is in the audit file
      rw [if_pos hct]
      refine ⟨emitDeadLetter_quiet .., fun ack _ hack hsafe => ?_⟩
      cases hack
      have hw := hsafe.written (by simp [GivesUp, hh, hct])
      exact .inr (mem_audit_emitDeadLetter _ _ _ _ _ _ _ hw)
    · rw [if_neg hct]
      cases hw : writeRetry cfg w.rows env row.event.topic payload notePath reason
          row.vaultBindingId with
      | error => exact ⟨.refl w, fun _ _ hack => nomatch hack⟩
      | ok written =>
        obtain ⟨rows', created⟩ := written
        have hins : ∃ event key, writeOutboxEvent cfg w.rows event env.now key
            row.vaultBindingId = .ok (rows', created) := by
          simp only [writeRetry, bind_eq_ok_iff, exists_unit_iff] at hw
          obtain ⟨key, -, -, hins⟩ := hw
          exact ⟨_, key, hins⟩
        obtain ⟨event, key, hins⟩ := hins
        refine ⟨.of_write hins, fun ack _ hack hsafe => ?_⟩
        cases hack
        rcases get?_writeOutboxEvent hins with ⟨rfl, -⟩ | ⟨scopedKey, row', rfl, -, -, rfl⟩
        · exact absurd hw (hsafe.free.writeRetry_ne hh (not_le.mp hct) rows')
        · exact .inr ⟨scopedKey, rfl, by simp⟩

section Outcomes

variable {cfg : Config} {w w' : Worker} {env : Environment} {row : OutboxRow} {payload : Payload}

theorem givesUp_of_rejected {reason error : String} (id : String) (inRun : Bool) (rows : Rows)
    (h : dispatchTopic cfg w env row payload = (w', .rejected reason error)) :
    GivesUp cfg rows env id payload inRun := by
  unfold dispatchTopic at h
  split at h
  · cases h
  · next hh => simp [GivesUp, hh]
  · cases h
  · split at h <;> cases h

theorem eq_of_raised {name error : String}
    (h : dispatchTopic cfg w env row payload = (w', .raised false name error)) :
    env.handling = .raises false name error ∧ w' = w := by
  unfold dispatchTopic at h
  split at h
  · cases h
  · cases h
  · next hh =>
    cases h
    exact ⟨hh, rfl⟩
  · split at h <;> cases h

end Outcomes

/-- What a tick does: nothing is acknowledged, or one row is, which is accounted for if the tick was
careful. -/
inductive TickEffect (careful : Prop) (worker : Worker) : Worker → Prop
  | quiet {worker' : Worker} : Quiet worker worker' → TickEffect careful worker worker'
  | acked (worker' : Worker) (id : String) (row : OutboxRow) (record : AckRecord) :
      worker.rows.get? id = some row → row.delivered = false → Quiet worker worker' →
      (careful → record.Accounted worker') → TickEffect careful worker (worker'.ack id record)

/-- A row whose event was dispatched before is accounted for, and any other is safe. -/
theorem AckRecord.accounted_of {w : Worker} {safe : Prop} {ack : Ack} {repeats : Bool}
    (h : safe → AckRecord.Accounted w ⟨ack, repeats⟩) (hs : repeats = false → safe) :
    AckRecord.Accounted w ⟨ack, repeats⟩ := by
  cases repeats with
  | true => exact .inl rfl
  | false => exact h (hs rfl)

theorem deadLetterAndAck_effect {careful : Prop} (cfg : Config) {w w' : Worker} (env : Environment)
    {id : String} {row : OutboxRow} (p : Payload) (r : String) (a : ℕ) (e : String)
    {repeats : Bool} (hr : w.rows.get? id = some row) (hw : row.delivered = false)
    (hq : Quiet w w') (hcr : careful → repeats = false → env.auditRaises = false) :
    TickEffect careful w (deadLetterAndAck cfg w' env id row p r a e repeats) := by
  unfold deadLetterAndAck
  refine .acked _ _ _ _ hr hw (hq.trans (emitDeadLetter_quiet ..)) fun hc => ?_
  exact AckRecord.accounted_of (fun h => .inr (mem_audit_emitDeadLetter _ _ _ _ _ _ _ h)) (hcr hc)

section Step

variable {cfg : Config} {w : Worker}

theorem runOnce_effect (e : OutboxRow → Bool) (env : Environment) :
    TickEffect (w.Careful cfg (.runOnce e env)) w (w.step cfg (.runOnce e env)) := by
  simp only [Worker.step, runOnce, Worker.Careful]
  cases hp : pollOutboxOne e w.rows with
  | none => exact .quiet (.refl w)
  | some p =>
    obtain ⟨id, row⟩ := p
    obtain ⟨hr, hw⟩ := mem_of_pollOutboxOne hp
    have heff := dispatchTopic_effect cfg w env id row row.event.payload false
    dsimp only
    rcases hd : dispatchTopic cfg w env row row.event.payload with ⟨w', result⟩
    rw [hd] at heff
    cases result with
    | returned ack =>
      refine .acked _ _ _ _ hr hw heff.quiet fun hc => ?_
      exact AckRecord.accounted_of (heff.accounted ack _ rfl) (hc id row rfl)
    | rejected r er =>
      refine deadLetterAndAck_effect cfg env _ r 0 er hr hw heff.quiet fun hc hrep => ?_
      exact (hc id row rfl hrep).written (givesUp_of_rejected _ _ _ hd)
    | raised => exact .quiet heff.quiet

theorem run_effect (hsn : ∀ eventId ∈ w.seen, eventId ∈ w.dispatched) (e : OutboxRow → Bool)
    (env : Environment) : TickEffect (w.Careful cfg (.run e env)) w (w.step cfg (.run e env)) := by
  simp only [Worker.step, run, Worker.Careful]
  cases hpl : pollOutboxOne e w.rows with
  | none => exact .quiet (.refl w)
  | some p =>
    obtain ⟨id, row⟩ := p
    obtain ⟨hrow, hwt⟩ := mem_of_pollOutboxOne hpl
    dsimp only
    by_cases hdp : row.event.eventId ≠ "" ∧ row.event.eventId ∈ w.seen
    · rw [if_pos hdp]
      refine .acked _ _ _ _ hrow hwt (.refl w) fun _ => .inl ?_
      exact decide_eq_true ⟨hdp.1, hsn _ hdp.2⟩
    · rw [if_neg hdp]
      have heff := dispatchTopic_effect cfg (w.sawEvent row.event.eventId) env id row
        (withEventId row.event.payload row.event.eventId) true
      rcases hds : dispatchTopic cfg (w.sawEvent row.event.eventId) env row
        (withEventId row.event.payload row.event.eventId) with ⟨w', result⟩
      rw [hds] at heff
      have hqt := (sawEvent_quiet w row.event.eventId).trans heff.quiet
      cases result with
      | returned ack =>
        refine .acked _ _ _ _ hrow hwt hqt fun hc => ?_
        exact AckRecord.accounted_of (heff.accounted ack _ rfl) (hc id row rfl)
      | rejected r er =>
        refine deadLetterAndAck_effect cfg env _ r 0 er hrow hwt hqt fun hc hrep => ?_
        exact (hc id row rfl hrep).written (givesUp_of_rejected _ _ _ hds)
      | raised t name er =>
        cases t with
        | true => exact .quiet hqt
        | false =>
          have hbm := hqt.trans (bump_quiet w' id)
          obtain ⟨hh, rfl⟩ := eq_of_raised hds
          simp only [recordFailedDispatch]
          split
          · next w'' h =>
            split at h
            · next hspent =>
              -- the budget is spent, and the row is given up
              cases h
              refine deadLetterAndAck_effect cfg env _ _ _ er hrow hwt hbm fun hc hrep => ?_
              refine (hc id row rfl hrep).written ?_
              rw [GivesUp, hh]
              exact ⟨rfl, hspent⟩
            · cases h
          · next w'' h =>
            split at h
            · cases h
            · cases h
              exact .quiet hbm

theorem step_effect (hs : ∀ eventId ∈ w.seen, eventId ∈ w.dispatched) (tick : Tick) :
    TickEffect (w.Careful cfg tick) w (w.step cfg tick) := by
  cases tick with
  | run e env => exact run_effect hs e env
  | runOnce e env => exact runOnce_effect e env
  | restart =>
    exact .quiet ⟨rfl, fun _ => .inl rfl, fun _ h => h, fun _ h => h, fun _ h => by cases h⟩

end Step

/-! ### Runs -/

section Runs

variable {cfg : Config} {initial : Rows} {worker worker' : Worker} {careful : Prop} {id : String}
  {row : OutboxRow} {d : Bool}

theorem delivered_ack {ack : AckRecord}
    (hr : (worker.rows.get? id).map (·.delivered) = some row.delivered) (id' : String) :
    ((worker.ack id ack).rows.get? id').map (·.delivered) =
      if id' = id then some true else (worker.rows.get? id').map (·.delivered) := by
  obtain ⟨_, hr', -⟩ := map_eq_some_iff.mp hr
  rw [Worker.ack, get?_ackOutbox hr']
  split <;> rfl

/-- The events that `run` has seen, it has dispatched. -/
theorem TickEffect.seen (h : TickEffect careful worker worker')
    (hs : ∀ eventId ∈ worker.seen, eventId ∈ worker.dispatched) :
    ∀ eventId ∈ worker'.seen, eventId ∈ worker'.dispatched := by
  have hquiet : ∀ {worker''}, Quiet worker worker'' →
      ∀ eventId ∈ worker''.seen, eventId ∈ worker''.dispatched :=
    fun hq e he => (hq.seen e he).elim (fun h => hq.dispatched e (hs e h)) id
  cases h with
  | quiet hq => exact hquiet hq
  | acked _ _ _ _ _ _ hq => exact fun e he => hquiet hq e he

theorem AckRecord.Accounted.ack {record o : AckRecord} (h : record.Accounted worker)
    (hrow : (worker.rows.get? id).map (·.delivered) = some row.delivered) :
    record.Accounted (worker.ack id o) := by
  obtain ⟨how, repeats⟩ := record
  refine h.imp_right fun h => ?_
  cases how with
  | succeeded => trivial
  | deadLettered | duplicate => exact h
  | deferred =>
    obtain ⟨r, hr, hs⟩ := h
    refine ⟨r, hr, ?_⟩
    obtain ⟨_, hrow', -⟩ := map_eq_some_iff.mp hrow
    rw [Worker.ack, get?_ackOutbox hrow']
    split
    · rfl
    · exact hs

theorem TickEffect.accounted (h : TickEffect careful worker worker') (hcr : careful)
    (hacc : worker.Accounted initial) : worker'.Accounted initial := by
  have hquiet_acc : ∀ {worker''}, Quiet worker worker'' → worker''.Accounted initial := by
    intro worker'' hq id row hrow hdel
    have hbef : (worker.rows.get? id).map (·.delivered) = some true := by
      rw [← hq.delivered_iff, hrow, map_some, hdel]
    obtain ⟨row', hrow', hdel'⟩ := map_eq_some_iff.mp hbef
    refine (hacc id row' hrow' hdel').imp (fun h => h) fun ⟨ack, hack, ha⟩ => ?_
    exact ⟨ack, by rw [hq.acks, hack], hq.accounted ha⟩
  cases h with
  | quiet hq => exact hquiet_acc hq
  | acked _ id _ ack hrow _ hq ha =>
    have hsame := hq.delivered_of_get? hrow
    intro id' row' hrow' hdel'
    by_cases heq : id' = id
    · -- the row that is acknowledged now
      subst heq
      exact .inr ⟨ack, by simp [Worker.ack], (ha hcr).ack hsame⟩
    · obtain ⟨_, hk, -⟩ := map_eq_some_iff.mp hsame
      rw [Worker.ack, get?_ackOutbox hk, if_neg heq] at hrow'
      refine (hquiet_acc hq id' row' hrow' hdel').imp (fun h => h) fun ⟨o, hoth, hacc'⟩ => ?_
      refine ⟨o, ?_, hacc'.ack hsame⟩
      rw [Worker.ack, Dict.get?_set_of_ne _ _ heq, hoth]

theorem TickEffect.kept (h : TickEffect careful worker worker')
    (hr : (worker.rows.get? id).map (·.delivered) = some d) :
    ∃ d', (worker'.rows.get? id).map (·.delivered) = some d' ∧
      (d = true → d' = true ∧ worker'.acks.get? id = worker.acks.get? id) := by
  obtain ⟨row, hrow, rfl⟩ := map_eq_some_iff.mp hr
  cases h with
  | quiet hq => exact ⟨_, hq.delivered_of_get? hrow, fun hd => ⟨hd, by rw [hq.acks]⟩⟩
  | acked _ id' row' ack hrow' hun hq =>
    rw [delivered_ack (hq.delivered_of_get? hrow')]
    split
    · next heq =>
      -- what is acknowledged was not delivered
      subst heq
      rw [hrow] at hrow'
      cases hrow'
      refine ⟨true, rfl, fun hd => ?_⟩
      rw [hun] at hd
      cases hd
    · next hne =>
      refine ⟨_, hq.delivered_of_get? hrow, fun hd => ⟨hd, ?_⟩⟩
      rw [Worker.ack, Dict.get?_set_of_ne _ _ hne, hq.acks]

def afterTicks (cfg : Config) (rows : Rows) (ticks : List Tick) : Worker :=
  Journal.after (Worker.step cfg) { rows := rows } ticks

theorem afterTicks_concat (rows : Rows) (t : List Tick) (tick : Tick) :
    afterTicks cfg rows (t ++ [tick]) = (afterTicks cfg rows t).step cfg tick :=
  Journal.after_concat ..

theorem seen_afterTicks (rows : Rows) (t : List Tick) :
    ∀ eventId ∈ (afterTicks cfg rows t).seen, eventId ∈ (afterTicks cfg rows t).dispatched := by
  induction t using List.reverseRecOn with
  | nil => exact fun _ h => nomatch h
  | append_singleton t tick ih =>
    rw [afterTicks_concat]
    exact (step_effect ih tick).seen ih

theorem accounted_afterTicks (rows : Rows) (t : List Tick)
    (hcr : ∀ before tick, before ++ [tick] <+: t → (afterTicks cfg rows before).Careful cfg tick) :
    (afterTicks cfg rows t).Accounted rows := by
  induction t using List.reverseRecOn with
  | nil => exact fun id row hr hd => .inl ⟨row, hr, hd⟩
  | append_singleton t tick ih =>
    rw [afterTicks_concat]
    have hb := ih fun before tick' h => hcr before tick' (h.trans (List.prefix_append ..))
    exact (step_effect (seen_afterTicks rows t) tick).accounted
      (hcr t tick (prefix_refl _)) hb

theorem kept_afterTicks (rows : Rows) (t more : List Tick)
    (hd : ((afterTicks cfg rows t).rows.get? id).map (·.delivered) = some d) :
    ∃ d', ((afterTicks cfg rows (t ++ more)).rows.get? id).map (·.delivered) = some d' ∧
      (d = true → d' = true ∧
        (afterTicks cfg rows (t ++ more)).acks.get? id = (afterTicks cfg rows t).acks.get? id) := by
  induction more using List.reverseRecOn with
  | nil => exact ⟨d, by rwa [append_nil], fun h => ⟨h, by rw [append_nil]⟩⟩
  | append_singleton more tick ih =>
    obtain ⟨d', hd', hkeep⟩ := ih
    rw [← append_assoc, afterTicks_concat]
    obtain ⟨d'', hd'', hkeep'⟩ := (step_effect (seen_afterTicks rows _) tick).kept hd'
    refine ⟨d'', hd'', fun h => ?_⟩
    obtain ⟨htrue, hack⟩ := hkeep h
    obtain ⟨htrue', hack'⟩ := hkeep' htrue
    exact ⟨htrue', hack'.trans hack⟩

end Runs

/-- **Delivered is for good.**  Whatever is called, and however often the worker restarts: no row
of the outbox vanishes, a delivered one stays delivered, and it is not acknowledged again. -/
theorem delivered_for_good (cfg : Config) (rows : Rows) (calls more : List Call) {id : String}
    {row : OutboxRow} (hr : (Worker.after cfg rows calls).rows.get? id = some row) :
    ∃ row', (Worker.after cfg rows (calls ++ more)).rows.get? id = some row' ∧
      (row.delivered = true → row'.delivered = true ∧
        (Worker.after cfg rows (calls ++ more)).acks.get? id =
          (Worker.after cfg rows calls).acks.get? id) := by
  have hcalls : Worker.after cfg rows calls = afterTicks cfg rows _ :=
    Worker.after_eq cfg { rows := rows } calls
  have hmore : Worker.after cfg rows (calls ++ more) = afterTicks cfg rows
      (({ rows := rows } : Worker).allTicks cfg calls ++
        (Worker.after cfg rows calls).allTicks cfg more) := by
    unfold Worker.after
    rw [Journal.after_append, afterTicks, Journal.after_append, ← Worker.after_eq,
      ← Worker.after_eq]
  rw [hmore, hcalls]
  rw [hcalls] at hr
  obtain ⟨d, hd, hkeep⟩ := kept_afterTicks rows _ _ (by rw [hr, map_some])
  obtain ⟨row', hr', rfl⟩ := map_eq_some_iff.mp hd
  exact ⟨row', hr', hkeep⟩

namespace Sample

def config : Config where
  digest := id
  resolveBinding := .ok
  maxDispatchAttempts := 5

/-- A request to scan the panel of a note, with an event identifier only in its envelope. -/
def scanRow (eventId : String) (createdAt : ℤ) : OutboxRow where
  event := ⟨eventId, "panel.scan.requested", {}⟩
  vaultBindingId := "vault-1"
  createdAt := createdAt

def twoScans : Rows :=
  (Dict.set ∅ "row-1" (scanRow "event-1" 1)).set "row-2" (scanRow "event-2" 2)

def unstable (freshEventId : String) (now : ℤ) : Environment where
  handling := .defers "Notes/a.md" "file_unstable"
  freshEventId := freshEventId
  now := now

def deferredTwice : List Call :=
  [.tick (.runOnce (fun _ => true) (unstable "event-3" 3)),
    .tick (.runOnce (fun _ => true) (unstable "event-4" 4))]

end Sample

theorem first_deferral_delivered :
    ∃ row, (Worker.after Sample.config Sample.twoScans
      (Sample.deferredTwice.take 1 ++ Sample.deferredTwice.drop 1)).rows.get? "row-1" = some row ∧
      row.delivered = true := by
  have hrow : ((Worker.after Sample.config Sample.twoScans (Sample.deferredTwice.take 1)).rows.get?
      "row-1").map (·.delivered) = some true := by
    decide +kernel
  obtain ⟨row, hr, hd⟩ := map_eq_some_iff.mp hrow
  obtain ⟨row', hr', hkeep⟩ := delivered_for_good _ _ _ (Sample.deferredTwice.drop 1) hr
  exact ⟨row', hr', (hkeep hd).1⟩

end AgenticPkm.Outbox
