import AgenticPkm.Builderops.ControlPlane.Calls

/-!
# An effect is not offered for execution twice without proof

The store offers an effect by returning a claim from `claim_outbox`, and before it offers the
effect again somebody must have looked and found that it had not happened.

The argument is one invariant of an operation, which every transaction keeps, together with what a
call knows while it is between its transactions: the token it was given is on record, and no other
call was given the same.

* `never_offered_twice` — **no second offer without proof**.
* `settled_for_good` — what is settled stays settled.
-/

namespace AgenticPkm.ControlPlane

/-! ### What a call knows -/

/-- Nothing has been claimed for execution yet, and no row is anybody's. -/
def Database.Fresh (db : Database) : Prop :=
  (∀ item ∈ db.outbox.items, item.2.workerId = none) ∧
    ∀ receipt ∈ db.receipts, receipt.eventType ≠ .outboxClaimed

instance (db : Database) : Decidable db.Fresh := inferInstanceAs (Decidable (_ ∧ _))

def Sound (db : Database) : Prop := ∀ key, (db.operation key).Inv

/-- No operation has lost anything. -/
def Grows (db db' : Database) : Prop := ∀ key, (db.operation key).Later (db'.operation key)

def Given (db : Database) (issue : Key × ℕ) : Prop :=
  ∃ v, (db.operation issue.1).row = some v ∧ issue.2 ≤ v.token

/-- The token a call holds has been given out, and is on record if it is for execution. -/
def Knows (db : Database) (_index : ℕ) (_request : Request) (point : Point) : Prop :=
  (∀ issue, point.issued = some issue → Given db issue) ∧
    ∀ key token, point.offered = some (key, token) → token ∈ (db.operation key).claimed

theorem Database.Fresh.sound {db : Database} (h : db.Fresh) : Sound db := by
  intro key
  have hemp : ∀ tk ∈ (db.operation key).claimed, False := by
    rintro tk ⟨receipt, hr, hcls⟩
    exact h.2 receipt hr hcls.2.1
  refine ⟨fun t ht => (hemp t ht).elim, fun v hv _ => ?_, fun _ _ _ t ht => (hemp t ht).elim,
    fun t ht => (hemp t ht).elim, fun _ _ _ t ht => (hemp t ht).elim⟩
  simp only [Database.operation, Option.map_eq_some_iff] at hv
  obtain ⟨row, hrow, rfl⟩ := hv
  exact h.1 (key, row) (Dict.mem_items.2 hrow)

variable {issue : Key × ℕ} {now : ℤ} {store : ℕ}

theorem Given.later {db db' : Database} (h : Given db issue) (hg : Grows db db') :
    Given db' issue := by
  obtain ⟨v, hv, hle⟩ := h
  obtain ⟨v', hv', -, ht, -⟩ := (hg issue.1).row v hv
  exact ⟨v', hv', hle.trans ht⟩

theorem issued_of_offered {p : Point} (h : p.offered = some issue) : p.issued = some issue := by
  unfold Point.offered at h
  split at h
  · exact h
  · exact h
  · cases h

theorem issued_start (r : Request) : (start r).issued = none := by
  have hcl : ∀ kind call, (startClaim kind call).issued = none := by
    intro kind call
    unfold startClaim
    split
    · rfl
    · split <;> rfl
  have hw : ∀ claim next, (∀ c, (next c : Point).issued = none) →
      (withClaim claim next).issued = none := by
    intro claim next hn
    unfold withClaim
    split
    · rfl
    · exact hn _
  cases r with
  | claimOutbox => exact hcl _ _
  | outboxClaim => exact hcl _ _
  | effectEligible store claim => exact hw claim (.eligible store) fun _ => rfl
  | markEffectUnknown store claim d => exact hw claim (.mark store · d) fun _ => rfl
  | beginPostEffectPending | reconcilePostEffect =>
    simp only [start]
    split <;> rfl
  | reconcileOutbox =>
    simp only [start]
    refine hw _ _ fun _ => ?_
    split <;> rfl
  | activateRecoveredEpoch => rfl
  | commitIntent => rfl
  | elsewhere => rfl

variable (hash : Reconcile → String)

/-- **The calls keep the rules**: every transaction keeps the operations sound and takes nothing
back, so what a call knows of its token stays true. -/
theorem discipline : Callers.Discipline start (step hash) Sound Grows Knows where
  refl := fun db key => .refl _
  trans := fun h h' key => (h key).trans (h' key)
  starts := by
    intro db i request _
    have hn := issued_start request
    refine ⟨fun issue hi => ?_, fun key t ho => ?_⟩
    · rw [hn] at hi
      cases hi
    · rw [issued_of_offered ho] at hn
      cases hn
  keeps := fun ip db i request p hs _ key => (operation_step hash ip db p key).inv (hs key)
  guarantees := fun ip db i request p _ _ key => (operation_step hash ip db p key).later
  advances := by
    intro ip db i request p hs hk
    have hg : Grows db (step hash ip db p).1 := fun key => (operation_step hash ip db p key).later
    refine ⟨fun issue hi => ?_, fun key t ho => ?_⟩
    · rcases issued_step hash ip hi with ⟨hb, -⟩ | ht
      · exact (hk.1 issue hb).later hg
      · exact ht.taken
    · rcases issued_step hash ip (issued_of_offered ho) with ⟨-, hb⟩ | ht
      · exact (hg key).claimed (hk.2 key t (hb ho))
      · exact ht.claimed ho
  stable := by
    intro db db' i request p hg hk
    exact ⟨fun issue hi => (hk.1 issue hi).later hg,
      fun key t ho => (hg key).claimed (hk.2 key t ho)⟩

/-! ### Runs -/

/-- The claim that `claim_outbox` returned to the caller at the place. -/
def offer? (s : System) (index : ℕ) : Option OutboxClaim :=
  match s.callers[index]? with
  | some (.claimOutbox .., .done (.claimed claim)) => some claim
  | _ => none

/-- `claim_outbox` returned the claim to the caller at the place. -/
def Offered (s : System) (index : ℕ) (claim : OutboxClaim) : Prop := offer? s index = some claim

instance (s : System) (index : ℕ) (claim : OutboxClaim) : Decidable (Offered s index claim) :=
  inferInstanceAs (Decidable (_ = _))

variable {s : System} {index : ℕ} {claim claim' : OutboxClaim} {moves : List Move}

theorem Offered.caller (h : Offered s index claim) :
    ∃ request, s.callers[index]? = some (request, .done (.claimed claim)) := by
  unfold Offered offer? at h
  split at h
  · next hcl =>
    cases h
    exact ⟨_, hcl⟩
  · cases h

def Returned (s : System) (index : ℕ) (claim : OutboxClaim) : Prop :=
  ∃ request point, s.callers[index]? = some (request, point) ∧ point.Returned claim

variable {db : Database}

/-- What holds in every run from tables in which nothing has been claimed. -/
theorem kept_run (hdb : db.Fresh) (m : List Move) :
    Callers.Discipline.Kept Sound Knows (run hash ⟨db, []⟩ m) :=
  ((discipline hash).kept_after ⟨hdb.sound, fun _ _ _ h => by simp at h⟩ m).1

/-- A token is given to one call. -/
theorem apart_run (hdb : db.Fresh) (m : List Move) :
    Callers.Discipline.Apart Point.issued (run hash ⟨db, []⟩ m) := by
  have hgiv : ∀ db i request p issue, Knows db i request p →
      p.issued = some issue → Given db issue := fun _ _ _ _ issue hk => hk.1 issue
  refine (discipline hash).apart_after issued_start hgiv ?_
    ⟨hdb.sound, fun _ _ _ h => by simp at h⟩ (fun _ _ _ _ _ _ h => by simp at h) m
  rintro ip db p ⟨key, token⟩ hiss
  rcases issued_step hash ip hiss with ⟨hbef, -⟩ | htak
  · exact .inl hbef
  · -- the next token of the operation has not been given out
    right
    rintro ⟨v, hv, hle⟩
    obtain ⟨w, hw, _⟩ := htak.next
    cases hv.symm.trans hw
    simp only at hle
    omega

/-- The operation is settled, or has a later token than the claim. -/
def Shut (claim : OutboxClaim) (db : Database) : Prop :=
  ∃ v, (db.operation claim.key).row = some v ∧
    (v.status.terminal = true ∨ claim.fencingToken < v.token)

/-- A claim that is not returned yet is never returned, once its operation is settled or has a
later token. -/
theorem returned_before (hdb : db.Fresh) (m more : List Move)
    (hsh : Shut claim (run hash ⟨db, []⟩ m).store)
    (h : Returned (run hash (run hash ⟨db, []⟩ m) more) index claim) :
    Returned (run hash ⟨db, []⟩ m) index claim := by
  obtain ⟨request, p, hcl, hret⟩ := h
  have hls : ∀ {db db' : Database}, Grows db db' → Shut claim db → Shut claim db' := by
    rintro db db' hgrw ⟨v, hv, hsh⟩
    obtain ⟨v', hv', -, htok, hsame⟩ := (hgrw claim.key).row v hv
    refine ⟨v', hv', hsh.imp (fun htm => ?_) fun hlt => hlt.trans_le htok⟩
    rw [hsame htm]
    exact htm
  have hst : ∀ request, ¬(start request).Returned claim := by
    intro request hret
    have hiss := hret.issued
    rw [issued_start] at hiss
    cases hiss
  have hblk : ∀ {ip : Input} {db : Database} {i : ℕ} {request : Request} {p : Point},
      Sound db → Knows db i request p → Shut claim db →
      (step hash ip db p).2.Returned claim → p.Returned claim := by
    rintro ip db i request p hsnd - ⟨v, hv, hsh⟩ hret
    rcases returned_step hash ip hret with hbef | hbd
    · exact hbef
    · -- a claim is bound while its worker holds the row under its token
      obtain ⟨w, hw, hwr, htok⟩ := hbd.held
      cases hv.symm.trans hw
      rcases hsh with htm | hlt
      · rw [(hsnd claim.key).free v hv htm] at hwr
        cases hwr
      · omega
  obtain ⟨p', hcl', hret'⟩ := (discipline hash).reached_before
    (Point.Returned · claim) hls hst hblk (kept_run hash hdb m) hsh more
    hcl hret
  exact ⟨request, p', hcl', hret'⟩

theorem Returned.later (h : Returned s index claim) (more : List Move) :
    Returned (run hash s more) index claim := by
  obtain ⟨request, p, hcl, hr⟩ := h
  refine ⟨request, p, Callers.stays_after hcl fun input _ db => ?_, hr⟩
  rcases hr with rfl | rfl <;> rfl

theorem Returned.eq_claim (h : Returned s index claim) (h' : Returned s index claim') :
    claim = claim' := by
  obtain ⟨_, p, hcl, hp⟩ := h
  obtain ⟨_, _, hcl', hp'⟩ := h'
  rw [hcl] at hcl'
  cases hcl'
  rcases hp with rfl | rfl <;> rcases hp' with heq | heq <;> cases heq <;> rfl

theorem Offered.returned (h : Offered s index claim) : Returned s index claim := by
  obtain ⟨_, hcl⟩ := h.caller
  exact ⟨_, _, hcl, .inl rfl⟩

theorem Returned.given (hdb : db.Fresh) (h : Returned (run hash ⟨db, []⟩ moves) index claim) :
    Given (run hash ⟨db, []⟩ moves).store (claim.key, claim.fencingToken) := by
  obtain ⟨request, p, hcl, hr⟩ := h
  exact ((kept_run hash hdb moves).2 index request p hcl).1 _ hr.issued

theorem Offered.claimed (hdb : db.Fresh) (h : Offered (run hash ⟨db, []⟩ moves) index claim) :
    claim.fencingToken ∈ ((run hash ⟨db, []⟩ moves).store.operation claim.key).claimed := by
  obtain ⟨_, hcl⟩ := h.caller
  exact ((kept_run hash hdb moves).2 index _ _ hcl).2 _ _ rfl

theorem Returned.eq_index (hdb : db.Fresh) {i j : ℕ}
    (h : Returned (run hash ⟨db, []⟩ moves) i claim)
    (h' : Returned (run hash ⟨db, []⟩ moves) j claim') (hk : claim.key = claim'.key)
    (ht : claim.fencingToken = claim'.fencingToken) : i = j := by
  obtain ⟨_, p, hcl, hr⟩ := h
  obtain ⟨_, _, hcl', hr'⟩ := h'
  by_contra hne
  refine apart_run hash hdb moves i j _ _ _ hne hcl hcl' hr.issued ?_
  rw [hr'.issued, hk, ht]

theorem isHeldUnder_of_effectEligible (h : (effectEligible now store claim db).2 = .ok true) :
    ∃ row, db.outbox.get? claim.key = some row ∧ row.isHeldUnder claim := by
  have ha : (assertExecutorEnabled store (some claim.repository) db).1.outbox = db.outbox := by
    rw [assertExecutorEnabled_fst]
    unfold bindAuthority
    split
    · rfl
    · split <;> rfl
  unfold effectEligible at h
  split at h
  · cases h
  · cases h
  · next db' heq =>
    rw [heq] at ha
    have hsame : db'.outbox = db.outbox := ha
    simp only [hsame, Except.ok.injEq, Option.any_eq_true, Bool.and_eq_true] at h
    obtain ⟨row, hr, ⟨-, hh⟩, -⟩ := h
    exact ⟨row, hr, hh⟩

theorem eq_of_effectEligible {now' : ℤ} {st' : ℕ} (hk : claim.key = claim'.key)
    (h : (effectEligible now st claim db).2 = .ok true)
    (h' : (effectEligible now' st' claim' db).2 = .ok true) : claim = claim' := by
  obtain ⟨_, hr, hh⟩ := isHeldUnder_of_effectEligible h
  obtain ⟨_, hr', hh'⟩ := isHeldUnder_of_effectEligible h'
  rw [hk, hr'] at hr
  cases hr
  simp only [OutboxRow.isHeldUnder, Bool.and_eq_true, decide_eq_true_eq] at hh hh'
  obtain ⟨⟨⟨⟨⟨hw, ht⟩, hi⟩, hl⟩, hseq⟩, hexp⟩ := hh
  rw [hw, ht, hi, hl, hseq, hexp] at hh'
  obtain ⟨⟨⟨⟨⟨hw, ht⟩, hi⟩, hl⟩, hseq⟩, hexp⟩ := hh'
  obtain ⟨_, _⟩ := Prod.mk.inj hk
  cases claim
  cases claim'
  simp_all

/-- **An effect is never offered for execution twice without proof that it did not happen.**  In
every run of calls of the store, by any number of workers, with crashes between transactions and
whatever the clock of the database shows:

* between two claims that `claim_outbox` returned for an operation there is a reconciliation that
  did not observe the effect, at the token of the first one or later and before the second one;
* no call returns a claim after the operation became succeeded or a dead letter;
* `claim_outbox` returns a merge at most once;
* a claim that is returned later has a larger token;
* two claims of one operation that both allow the effect are the same claim. -/
theorem never_offered_twice (hdb : db.Fresh) (moves : List Move) :
    let s := run hash ⟨db, []⟩ moves
    (∀ i j claim claim', Offered s i claim → Offered s j claim' → claim.key = claim'.key →
      claim.fencingToken < claim'.fencingToken →
      ∃ t record, s.store.reconciliations.get? (claim.key, t) = some record ∧
        record.observedApplied = false ∧ claim.fencingToken ≤ t ∧
        t < claim'.fencingToken) ∧
    (∀ more i claim row, s.store.outbox.get? claim.key = some row → row.status.terminal = true →
      Returned (run hash s more) i claim → Returned s i claim) ∧
    (∀ i j claim claim' row, s.store.outbox.get? claim.key = some row →
      row.effectType = "github.merge" → Offered s i claim → Offered s j claim' →
      claim.key = claim'.key → i = j) ∧
    (∀ more i j claim claim', Returned s i claim → Returned (run hash s more) j claim' →
      ¬Returned s j claim' → claim.key = claim'.key →
      claim.fencingToken < claim'.fencingToken) ∧
    ∀ now store store' claim claim', claim.key = claim'.key →
      (effectEligible now store claim s.store).2 = .ok true →
      (effectEligible now store' claim' s.store).2 = .ok true → claim = claim' := by
  intro s
  have hkp : Callers.Discipline.Kept Sound Knows s := kept_run hash hdb moves
  refine ⟨?_, ?_, ?_, ?_, fun now store store' claim claim' => eq_of_effectEligible⟩
  · intro i j claim claim' hoff hoff' hkey hlt
    have hcl' := hoff'.claimed hash hdb
    rw [← hkey] at hcl'
    obtain ⟨t, ⟨record, hrec, hap⟩, hle, hlt⟩ := (hkp.1 claim.key).refuted_between _
      (hoff.claimed hash hdb) _ hcl' hlt
    exact ⟨t, record, hrec, hap, hle, hlt⟩
  · intro more i claim row hrow htm hret
    exact returned_before hash hdb moves more ⟨_, operation_row _ hrow, .inl htm⟩ hret
  · intro i j claim claim' row hrow hmr hoff hoff' hkey
    have hon := (hkp.1 claim.key).merge_once _ (operation_row _ hrow) hmr
    have hcl' := hoff'.claimed hash hdb
    rw [← hkey] at hcl'
    refine hoff.returned.eq_index hash hdb hoff'.returned hkey ?_
    rw [hon _ (hoff.claimed hash hdb), hon _ hcl']
  · intro more i j claim claim' hret hret' hnot hkey
    obtain ⟨v, hv, hle⟩ := hret.given hash hdb
    by_contra hge
    rcases (not_lt.1 hge).lt_or_eq with hlt | heq
    · -- the operation had a later token already
      exact hnot (returned_before hash hdb moves more ⟨v, hkey ▸ hv, .inr (hlt.trans_le hle)⟩ hret')
    · -- the two calls are one, which had ended before
      have hrun : run hash s more = run hash ⟨db, []⟩ (moves ++ more) :=
        (Callers.after_append ..).symm
      have hlat := hret.later hash more
      rw [hrun] at hlat hret'
      obtain rfl := hlat.eq_index hash hdb hret' hkey heq.symm
      exact hnot (hlat.eq_claim hret' ▸ hret)

theorem grows_run (s : System) (more : List Move) : Grows s.store (run hash s more).store := by
  induction more using List.reverseRecOn with
  | nil => exact fun key => .refl _
  | append_singleton more move ih =>
    rw [run, Callers.after_concat]
    rcases Callers.store_next (run hash s more) move with hsame | ⟨i, input, r, p, rfl, hc⟩
    · rw [hsame]
      exact ih
    · rw [Callers.store_next_step hc]
      exact fun key => (ih key).trans (operation_step hash input _ p key).later

/-- **Tokens never go back, and a settled operation stays settled**, from any state on and
whatever the workers do: every row is still there and for the same effect. -/
theorem settled_for_good (s : System) (more : List Move) {key : Key} {row : OutboxRow}
    (hr : s.store.outbox.get? key = some row) :
    ∃ row', (run hash s more).store.outbox.get? key = some row' ∧
      row'.effectType = row.effectType ∧ row.claimFencingToken ≤ row'.claimFencingToken ∧
      (row.status.terminal = true →
        row'.status = row.status ∧ row'.claimFencingToken = row.claimFencingToken) := by
  obtain ⟨v, hv, hty, hle, hsame⟩ := (grows_run hash s more key).row _ (operation_row key hr)
  obtain ⟨row', hr', rfl⟩ := Option.map_eq_some_iff.mp hv
  refine ⟨row', hr', hty, hle, fun ht => ?_⟩
  have hview := hsame ht
  exact ⟨congrArg RowView.status hview, congrArg RowView.token hview⟩

/-! ### An effect that is offered again -/

def exampleRecovery : Recovery where
  bootstrapId := "boot"
  activatedAuthorityEpoch := 2
  executorEnabled := true
  reconciliationRequired := false
  converged := true
  bootstrapReceipt := some ⟨"builderops-authority-convergence.v1", "boot", 2, "config", "read"⟩
  repositories := some ["acme/app"]
  configDigest := "config"
  readbackDigest := some "read"

def exampleEnvelope : AuthorityEnvelope := ⟨"acme/app", "executor"⟩

/-- A claim expires, is found lost, and is read back under a new token; the effect had not
happened, so it is offered again. -/
def offeredAgain : List Move :=
  let ask (request : Request) : Move := .call request
  let go (index : ℕ) (now : ℤ) (n : ℕ) : List Move :=
    List.replicate n (.step index ⟨now, "0/1"⟩)
  let claim := Request.claimOutbox 0 exampleEnvelope (some "op") "worker" 1
  [ask (.commitIntent ⟨"acme/app", "op", "key", "task", "model.run", ∅, exampleEnvelope⟩)] ++
    go 0 0 1 ++ [ask claim] ++ go 1 0 4 ++ [ask claim] ++ go 2 2000000 2 ++
    [ask (.outboxClaim 1 exampleEnvelope "op" "reader" 5)] ++ go 3 2000000 4 ++
    [ask (.reconcileOutbox
      { store := 1, claim := ⟨"acme/app", "op", "reader", 2, "0/1", "0/1", 3, 7000000⟩
        observedApplied := false, evidence := ∅ })] ++ go 4 3000000 2 ++
    [ask claim] ++ go 5 4000000 3

def emptyDatabase : Database := { recovery := some exampleRecovery, authorityEpoch := some 2 }

/-- The first and the last call are offered the effect, and the refutation between them is under
the token of the readback. -/
theorem offeredAgain_refuted :
    let s := run (fun _ => "hash") ⟨emptyDatabase, []⟩ offeredAgain
    emptyDatabase.Fresh ∧ ∃ first second, Offered s 1 first ∧ Offered s 5 second ∧
      first.fencingToken = 1 ∧ second.fencingToken = 3 ∧
      ∃ token record, s.store.reconciliations.get? (first.key, token) = some record ∧
        record.observedApplied = false ∧ 1 ≤ token ∧ token < 3 := by
  have hf : emptyDatabase.Fresh := by decide
  have hfst : Offered (run (fun _ => "hash") ⟨emptyDatabase, []⟩ offeredAgain) 1
      ⟨"acme/app", "op", "worker", 1, "0/1", "0/1", 2, 1000000⟩ := by decide +kernel
  have hs : Offered (run (fun _ => "hash") ⟨emptyDatabase, []⟩ offeredAgain) 5
      ⟨"acme/app", "op", "worker", 3, "0/1", "0/1", 5, 5000000⟩ := by decide +kernel
  exact ⟨hf, _, _, hfst, hs, rfl, rfl,
    (never_offered_twice (fun _ => "hash") hf offeredAgain).1 1 5 _ _ hfst hs rfl (by decide)⟩

theorem offeredAgain_token :
    ∃ row, (run (fun _ => "hash") ⟨emptyDatabase, []⟩ offeredAgain).store.outbox.get?
      ("acme/app", "op") = some row ∧ 1 ≤ row.claimFencingToken := by
  have htok : ((run (fun _ => "hash") ⟨emptyDatabase, []⟩ (offeredAgain.take 7)).store.outbox.get?
      ("acme/app", "op")).map (·.claimFencingToken) = some 1 := by decide +kernel
  obtain ⟨row, hr, ht⟩ := Option.map_eq_some_iff.mp htok
  obtain ⟨row', hr', -, hle, -⟩ := settled_for_good (fun _ => "hash") _ (offeredAgain.drop 7) hr
  rw [run, ← Callers.after_append, List.take_append_drop] at hr'
  exact ⟨row', hr', ht ▸ hle⟩

end AgenticPkm.ControlPlane
