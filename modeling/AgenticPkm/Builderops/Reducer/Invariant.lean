import AgenticPkm.Builderops.Reducer.Step

/-!
# The invariant of runs

Every move of an Issue writes its ledger in one way: it may record the outcome
that the event reports, and then authorise at most one proposal.  From this the
invariant `RunSetup.Inv` is shown to survive every accepted step, and the
induction rules of runs are derived, which later proofs use instead of looking
at steps.
-/

namespace AgenticPkm.Builderops

open List

variable {hash : Json → String} {S : RunSetup hash}

/-! ### What a move writes -/

/-- A failure of an effect is only recorded for an active Issue, at its authorised
target if it has one, and ends the Issue. -/
structure EndsIssue (a : AdmittedEvent hash) (effect : ReducerEffect) (it it' : IssueRunState) :
    Prop where
  type : a.event.eventType = .effectFailed
  active : it.phase.isTerminal = false
  ended : it'.phase.isTerminal = true
  target : effect.pullRequestNumber.isSome = true → AtTarget effect it

/-- The two ways to prepare a ledger: leave it, or record a reported outcome. -/
inductive OutcomeWrite (S : RunSetup hash) (i : RunInput hash) (it it' : IssueRunState) :
    List EffectLedgerEntry → Prop
  | kept : OutcomeWrite S i it it' it.effectLedger
  | recorded (a : AdmittedEvent hash) (effect : ReducerEffect) (outcome : EffectOutcomeEvidence)
      (subject : AuthoritySnapshot) (input : i = .event a)
      (report : Reports S.plan a it effect outcome subject)
      (ending : outcome.outcomeState = .failed → EndsIssue a effect it it') :
      OutcomeWrite S i it it' (recordLedger effect outcome it.effectLedger)

/-- What a move may write to a ledger: an outcome, and then the authorisation of at
most one proposal. -/
inductive LedgerWrite (S : RunSetup hash) (i : RunInput hash) (it it' : IssueRunState) :
    List EffectProposal → Prop
  | quiet (write : OutcomeWrite S i it it' it'.effectLedger) : LedgerWrite S i it it' []
  | authorized (base : List EffectLedgerEntry) (p : EffectProposal)
      (write : OutcomeWrite S i it it' base) (issue_eq : p.issue = it.issue)
      (derivable : p.Derivable)
      (ledger_eq : it'.effectLedger = authorizeLedger (identityOf hash S.initial p) p base) :
      LedgerWrite S i it it' [p]

section Moves

variable {w : ℕ} {i : RunInput hash} {it it' : IssueRunState} {ps : List EffectProposal}

theorem IssueMove.frame (h : IssueMove S w i it it' ps) :
    it'.issue = it.issue ∧ it'.waveIndex = it.waveIndex := by
  cases h with
  | handled a _ u _ h =>
    rw [authorizedAll_eq]
    exact h.frame
  | _ => exact ⟨rfl, rfl⟩

variable {ec : EffectClass} {p : EffectProposal}

theorem IssueRunState.Coherent.of_ledgeredProposal (hit : it.Coherent S)
    (h : ledgeredProposal ec it = some p) :
    ∃ e ∈ it.effectLedger, e.proposal = some p ∧ e.effectClass = ec ∧
      e.outcomeState = none ∧ p.issue = it.issue ∧ p.effectClass = ec ∧ p.Derivable ∧
      (identityOf hash S.initial p).idempotencyKey = e.idempotencyKey := by
  obtain ⟨e, he, hp⟩ := Option.bind_eq_some_iff.mp h
  have hf := find?_some he
  simp only [Bool.and_eq_true, beq_iff_eq, Option.isNone_iff_eq_none] at hf
  have hm := mem_of_find?_eq_some he
  obtain ⟨q, hq, hi, hcls, hd, hk⟩ := hit.derived e hm
  rw [hp] at hq
  cases hq
  exact ⟨e, hm, hp, hf.1.1, hf.1.2, hi, hcls.trans hf.1.1, hd, hk⟩

theorem Handled.ledgerWrite {rq : List AcceptanceEvidenceKind}
    {a : AdmittedEvent hash} (h : Handled S.plan rq a it it' ps) :
    LedgerWrite S (.event a) it (it'.authorizedAll hash S.initial ps) ps := by
  have hpr := fun {p : EffectProposal} (hp : p ∈ ps) => h.proposal hp
  have ha := h.active
  cases h with
  | claimSucceeded effect outcome sb report type
  | outcome effect outcome sb _ _ report type =>
    obtain ⟨hi, hd⟩ := hpr mem_cons_self
    exact .authorized _ _ (.recorded a effect outcome sb rfl report
      fun hf => absurd hf (report.outcomeState_ne_failed type)) hi hd rfl
  | workerCompleted | reviewAccepted | reviewDeferred =>
    obtain ⟨hi, hd⟩ := hpr mem_cons_self
    exact .authorized _ _ .kept hi hd rfl
  | workerLaunched effect outcome sb report type
  | reviewRecorded effect outcome sb report type
  | delivered effect outcome sb report type
  | unmet effect outcome sb _ report type =>
    exact .quiet (.recorded a effect outcome sb rfl report
      fun hf => absurd hf (report.outcomeState_ne_failed type))
  | effectFailed effect outcome sb report type _ target
  | ciFailed effect outcome sb report type _ _ target =>
    exact .quiet (.recorded a effect outcome sb rfl report fun _ => ⟨type, ha, rfl, target⟩)
  | workerBlocked | reviewBlocked | contractDrift | authorityChanged => exact .quiet .kept

/-- **Every move writes the ledger like this.** -/
theorem IssueMove.ledgerWrite (hit : it.Coherent S) (h : IssueMove S w i it it' ps) :
    LedgerWrite S i it it' ps := by
  cases h with
  | idle | excepted | terminated => exact .quiet .kept
  | opened | resumedClaim => exact .authorized _ _ .kept rfl (fun hc => by cases hc) rfl
  | resumedPending _ _ _ _ _ _ l =>
    obtain ⟨e, -, -, -, -, hi, -, hd, -⟩ := hit.of_ledgeredProposal l
    exact .authorized _ _ .kept hi hd rfl
  | handled _ _ _ _ h => exact h.ledgerWrite

variable {ph : RunPhase}

theorem active_of_resumable (h : resumableEffectByPhase ph = some ec) : ph.isTerminal = false := by
  cases ph <;> first | rfl | cases h

theorem IssueMove.eq_of_terminal (h : IssueMove S w i it it' ps)
    (ht : it.phase.isTerminal) : it' = it ∧ ps = [] := by
  have absurdActive : it.phase.isTerminal = false → it' = it ∧ ps = [] := by
    intro ha
    rw [ht] at ha
    cases ha
  cases h with
  | idle => exact ⟨rfl, rfl⟩
  | opened _ _ _ _ ph | resumedClaim _ _ _ ph => exact absurdActive (by rw [ph]; rfl)
  | excepted _ _ _ _ active | terminated _ _ _ _ _ active => exact absurdActive active
  | handled _ _ _ _ h => exact absurdActive h.active
  | resumedPending _ _ _ _ _ rs => exact absurdActive (active_of_resumable rs)

theorem IssueMove.active_of_active (h : IssueMove S w i it it' ps)
    (ha : it'.phase.isTerminal = false) : it.phase.isTerminal = false := by
  by_contra ht
  rw [Bool.not_eq_false] at ht
  rw [(h.eq_of_terminal ht).1, ht] at ha
  cases ha

theorem eq_awaitedPhase_of_resumable (h : resumableEffectByPhase ph = some ec) :
    ph = ec.awaitedPhase := by
  cases ph <;> cases h <;> rfl

/-- **An effect is proposed by moving to the phase that awaits it.**  The exception
is a resume, which proposes the claim of an admitted Issue and leaves it admitted. -/
theorem IssueMove.awaited (hit : it.Coherent S) (h : IssueMove S w i it it' ps) (hp : p ∈ ps) :
    it'.phase = p.effectClass.awaitedPhase ∨
      ∃ c, i = .command c ∧ c.command = .resume ∧ it.phase = .admitted ∧ it.waveIndex = w ∧
        it'.phase = .admitted ∧ p = claimProposal it := by
  obtain rfl := h.eq_singleton hp
  cases h with
  | opened => exact .inl rfl
  | handled _ _ _ _ h => exact .inl (by rw [authorizedAll_eq]; exact h.awaited hp)
  | resumedClaim c _ resume ph wave => exact .inr ⟨c, rfl, resume, ph, wave, ph, rfl⟩
  | resumedPending _ _ _ _ _ rs l =>
    obtain ⟨e, -, -, -, -, -, hcls, -⟩ := hit.of_ledgeredProposal l
    left
    rw [hcls]
    exact eq_awaitedPhase_of_resumable rs

theorem IssueMove.active_of_mem (hit : it.Coherent S) (h : IssueMove S w i it it' ps)
    (hp : p ∈ ps) : it'.phase.isTerminal = false := by
  rcases h.awaited hit hp with hph | ⟨c, -, -, -, -, hph, -⟩
  · rw [hph]
    cases p.effectClass <;> rfl
  · rw [hph]
    rfl

end Moves

/-! ### The invariant -/

section Coherence

variable {i : RunInput hash} {it it' : IssueRunState} {base : List EffectLedgerEntry}

/-- The entry of a reported effect, after the report. -/
structure ReportedEntry (S : RunSetup hash) (i : RunInput hash) (it it' : IssueRunState)
    (e e' : EffectLedgerEntry) (a : AdmittedEvent hash) (effect : ReducerEffect)
    (outcome : EffectOutcomeEvidence) (subject : AuthoritySnapshot) : Prop where
  input : i = .event a
  report : Reports S.plan a it effect outcome subject
  key_eq : e.idempotencyKey = effect.idempotencyKey
  class_eq : e.effectClass = effect.effectClass
  entry_eq : e' = outcomeEntry effect outcome it.effectLedger
  ending : outcome.outcomeState = .failed → EndsIssue a effect it it'

/-- The two entries are one authorisation, and its outcome was reported in between
if they differ. -/
def EntryStep (S : RunSetup hash) (i : RunInput hash) (it it' : IssueRunState)
    (e e' : EffectLedgerEntry) : Prop :=
  e.SameAuthorization e' ∧ (e' = e ∨ ∃ a effect outcome subject,
    ReportedEntry S i it it' e e' a effect outcome subject)

variable {e : EffectLedgerEntry}

section

variable (hit : it.Coherent S)
include hit

theorem entryStep_recorded {a : AdmittedEvent hash}
    {effect : ReducerEffect} {outcome : EffectOutcomeEvidence} {subject : AuthoritySnapshot}
    (input : i = .event a) (report : Reports S.plan a it effect outcome subject)
    (en : outcome.outcomeState = .failed → EndsIssue a effect it it')
    (he : e ∈ it.effectLedger) (hk : e.idempotencyKey = effect.idempotencyKey) :
    EntryStep S i it it' e (outcomeEntry effect outcome it.effectLedger) := by
  obtain ⟨_, he₀, hkey₀, hclass₀⟩ := report.ledgered
  obtain rfl := hit.strict.distinctKeys.eq_of_key_eq he he₀ (hk.trans hkey₀.symm)
  exact ⟨sameAuthorization_outcomeEntry hit.strict he hk hclass₀,
    .inr ⟨a, effect, outcome, subject, input, report, hk, hclass₀, rfl, en⟩⟩

theorem OutcomeWrite.origin (h : OutcomeWrite S i it it' base) {e' : EffectLedgerEntry}
    (he' : e' ∈ base) : ∃ e ∈ it.effectLedger, EntryStep S i it it' e e' := by
  cases h with
  | kept => exact ⟨e', he', ⟨rfl, rfl, rfl⟩, .inl rfl⟩
  | recorded _ _ _ _ ip report en =>
    rcases mem_recordLedger.mp he' with ⟨he, -⟩ | rfl
    · exact ⟨e', he, ⟨rfl, rfl, rfl⟩, .inl rfl⟩
    · obtain ⟨e, he, hk, -⟩ := report.ledgered
      exact ⟨e, he, entryStep_recorded hit ip report en he hk⟩

theorem OutcomeWrite.persists (h : OutcomeWrite S i it it' base)
    (he : e ∈ it.effectLedger) : ∃ e' ∈ base, EntryStep S i it it' e e' := by
  cases h with
  | kept => exact ⟨e, he, ⟨rfl, rfl, rfl⟩, .inl rfl⟩
  | recorded _ effect _ _ ip report en =>
    by_cases hk : e.idempotencyKey = effect.idempotencyKey
    · exact ⟨_, mem_recordLedger.mpr (.inr rfl), entryStep_recorded hit ip report en he hk⟩
    · exact ⟨e, mem_recordLedger.mpr (.inl ⟨he, hk⟩), ⟨rfl, rfl, rfl⟩, .inl rfl⟩

theorem OutcomeWrite.strictKeys (h : OutcomeWrite S i it it' base) :
    StrictKeys EffectLedgerEntry.idempotencyKey base := by
  cases h with
  | kept => exact hit.strict
  | recorded => exact strictKeys_recordLedger hit.strict

theorem OutcomeWrite.coherent (h : OutcomeWrite S i it it' base)
    (hact : it'.phase.isTerminal = false → it.phase.isTerminal = false)
    (hiss : it'.issue = it.issue) :
    ({ it' with effectLedger := base } : IssueRunState).Coherent S where
  planned := hiss ▸ hit.planned
  strict := h.strictKeys hit
  derived := by
    intro e' he'
    obtain ⟨e, he, hsame, -⟩ := h.origin hit he'
    obtain ⟨p, hp, hps, hcls, hder, hkey⟩ := hit.derived e he
    exact ⟨p, hsame.proposal_eq.trans hp, hps.trans hiss.symm,
      hcls.trans hsame.class_eq.symm, hder, hkey.trans hsame.key_eq.symm⟩
  unfailed := by
    intro ha e' he'
    obtain ⟨e, he, -, rfl | ⟨a, _, _, _, hen⟩⟩ := h.origin hit he'
    · exact hit.unfailed (hact ha) e' he
    · intro hf
      have ha : it'.phase.isTerminal = false := ha
      rw [hen.entry_eq] at hf
      rw [(hen.ending (Option.some.inj hf)).ended] at ha
      cases ha

theorem LedgerWrite.coherent {ps : List EffectProposal} (h : LedgerWrite S i it it' ps)
    (hact : it'.phase.isTerminal = false → it.phase.isTerminal = false) (hi : it'.issue = it.issue)
    : it'.Coherent S := by
  cases h with
  | quiet write => exact write.coherent hit hact hi
  | authorized _ p write issue_eq d ledger_eq =>
    have hb := write.coherent hit hact hi
    refine ⟨hb.planned, ?_, ?_, ?_⟩
    · rw [ledger_eq]
      exact strictKeys_authorizeLedger hb.strict
    · intro e he
      rw [ledger_eq] at he
      rcases mem_of_mem_authorizeLedger he with he | rfl
      · exact hb.derived e he
      · exact ⟨p, rfl, issue_eq.trans hi.symm, rfl, d, rfl⟩
    · intro ha e he
      rw [ledger_eq] at he
      rcases mem_of_mem_authorizeLedger he with he | rfl
      · exact hb.unfailed ha e he
      · exact fun hf => by cases hf

theorem IssueMove.coherent {w : ℕ} {ps : List EffectProposal}
    (h : IssueMove S w i it it' ps) : it'.Coherent S :=
  (h.ledgerWrite hit).coherent hit h.active_of_active h.frame.1

end

end Coherence

/-! ### What happens to an entry -/

variable {i : RunInput hash} {it it' : IssueRunState} {ps : List EffectProposal}
  {s : DeliveryRunState} {r : Reduction}

/-- **An entry survives every move** with its authorisation, and its outcome only
changes when it is reported. -/
theorem IssueMove.entry_persists {w : ℕ} (hit : it.Coherent S) (h : IssueMove S w i it it' ps)
    {e : EffectLedgerEntry} (he : e ∈ it.effectLedger) :
    ∃ e' ∈ it'.effectLedger, EntryStep S i it it' e e' := by
  cases h.ledgerWrite hit with
  | quiet write => exact write.persists hit he
  | authorized _ _ write _ _ ledger_eq =>
    have ha := h.active_of_mem hit mem_cons_self
    have hb := write.coherent hit h.active_of_active h.frame.1
    obtain ⟨e', he', hstep⟩ := write.persists hit he
    refine ⟨e', ?_, hstep⟩
    rw [ledger_eq]
    refine mem_authorizeLedger hb.strict he' ?_
    have hu := hb.unfailed ha e' he'
    simp [EffectLedgerEntry.isResolvedUncommitted, hu]

/-- **Where an entry comes from**: it was there before the move, or it is the entry
of the proposal the move makes. -/
theorem IssueMove.entry_origin {w : ℕ} (hit : it.Coherent S) (h : IssueMove S w i it it' ps)
    {e' : EffectLedgerEntry} (he' : e' ∈ it'.effectLedger) :
    (∃ e ∈ it.effectLedger, EntryStep S i it it' e e') ∨
      ∃ p ∈ ps, e' = (identityOf hash S.initial p).entry p := by
  cases h.ledgerWrite hit with
  | quiet write => exact .inl (write.origin hit he')
  | authorized _ p write _ _ ledger_eq =>
    rw [ledger_eq] at he'
    rcases mem_of_mem_authorizeLedger he' with he' | rfl
    · exact .inl (write.origin hit he')
    · exact .inr ⟨p, mem_cons_self, rfl⟩

/-! ### Accepted steps -/

theorem LedgerWrite.of_mem (h : LedgerWrite S i it it' ps) {p : EffectProposal} (hp : p ∈ ps) :
    p.issue = it.issue ∧ p.Derivable ∧ ∃ e ∈ it'.effectLedger,
      e.idempotencyKey = (identityOf hash S.initial p).idempotencyKey := by
  cases h with
  | quiet => cases hp
  | authorized _ _ _ issue_eq d ledger_eq =>
    obtain rfl := mem_singleton.mp hp
    rw [ledger_eq]
    exact ⟨issue_eq, d, exists_mem_authorizeLedger _ _ _⟩

theorem Accepted.exists_move (h : Accepted S s i r) {p : EffectProposal} (hp : p ∈ r.effects) :
    ∃ it ∈ s.issues, ∃ it' ∈ r.state.issues, ∃ ps, p ∈ ps ∧
      IssueMove S (openWaveIndex s.issues) i it it' ps := by
  obtain ⟨f, g, hi, hef, hm⟩ := h.moves
  rw [hef] at hp
  obtain ⟨it, hit, hp⟩ := mem_flatMap.mp hp
  refine ⟨it, hit, f it, ?_, g it, hp, hm it hit⟩
  rw [hi]
  exact mem_map_of_mem hit

theorem Accepted.exists_handled {a : AdmittedEvent hash} (h : Accepted S s (.event a) r)
    {is : IssueScope} (hs : a.subjectIssue = some is) :
    ∃ it ∈ s.issues, ∃ updated ps, is.scopeKey = it.scopeKey ∧
      Handled S.plan S.profile.requiredEvidence a it updated ps ∧
      updated.authorizedAll hash S.initial ps ∈ r.state.issues := by
  obtain ⟨f, g, hi, -, hm⟩ := h.moves
  obtain ⟨it, hit, hk⟩ := h.subject_found a is rfl hs
  have hmem : f it ∈ r.state.issues := by
    rw [hi]
    exact mem_map_of_mem hit
  generalize hit' : f it = it' at hmem
  have hmov := hm it hit
  rw [hit'] at hmov
  generalize g it = ps at hmov
  cases hmov with
  | idle _ _ away => exact absurd hk (away a is rfl hs)
  | opened _ _ _ sb | excepted _ _ _ sb => simp [sb] at hs
  | handled _ _ updated _ h => exact ⟨it, hit, updated, ps, hk, h, hmem⟩

theorem Accepted.map_scopeKey (h : Accepted S s i r) :
    r.state.issues.map IssueRunState.scopeKey = s.issues.map IssueRunState.scopeKey := by
  obtain ⟨f, g, hi, -, hm⟩ := h.moves
  rw [hi, map_map]
  refine map_congr_left fun it hit => ?_
  exact congrArg IssueScope.scopeKey (hm it hit).frame.1

/-- **An accepted step keeps the invariant.** -/
theorem Accepted.inv (hs : S.Inv s) (h : Accepted S s i r) : S.Inv r.state where
  runId_eq := h.binding.runId_eq.trans hs.runId_eq
  planRef_eq := h.binding.planRef_eq.trans hs.planRef_eq
  checks_eq := h.binding.checks_eq.trans hs.checks_eq
  evidence_eq := h.binding.evidence_eq.trans hs.evidence_eq
  profile_eq := h.binding.profile_eq.trans hs.profile_eq
  keyed := hs.keyed.of_map_eq h.map_scopeKey
  coherent := by
    obtain ⟨f, g, hi, -, hm⟩ := h.moves
    intro it' hit'
    rw [hi] at hit'
    obtain ⟨it, hit, rfl⟩ := mem_map.mp hit'
    exact (hm it hit).coherent (hs.coherent it hit)

/-! ### Induction over runs -/

/-- The events an accepted input adds to the log. -/
def RunInput.events : RunInput hash → List (AdmittedEvent hash)
  | .event a => [a]
  | .command _ => []

theorem acceptedEvents_accepted (h : r.refusal = none) (hi : List (RunStep hash)) :
    acceptedEvents (hi ++ [⟨s, i, r⟩]) = acceptedEvents hi ++ i.events := by
  rw [acceptedEvents_append, acceptedEvents_single]
  cases i <;> simp [RunStep.acceptedEvent, RunInput.events, h]

theorem acceptedEvents_refused {rs : RefusalReason} (hi : List (RunStep hash)) :
    acceptedEvents (hi ++ [⟨s, i, refuse s rs⟩]) = acceptedEvents hi := by
  rw [acceptedEvents_append, acceptedEvents_single]
  cases i <;> simp [RunStep.acceptedEvent, refuse]

namespace RunSetup

variable {gr : List (RunStep hash) → DeliveryRunState → RunInput hash → Prop}
  {h : List (RunStep hash)} {s : DeliveryRunState}

/-- **The induction rule of runs.**  A refused step changes nothing but the
history; an accepted one is an `Accepted` step from a state with the invariant. -/
theorem run_induct {P : List (RunStep hash) → DeliveryRunState → Prop}
    (hg : ∀ h s i, gr h s i → S.Admits h s i) (st : P [] S.initial)
    (rf : ∀ h s i reason, S.Inv s → P h s → P (h ++ [⟨s, i, refuse s reason⟩]) s)
    (a : ∀ h s i r, (reducer hash).Run gr S.initial h s → S.Inv s → P h s →
      gr h s i → Accepted S s i r → P (h ++ [⟨s, i, r⟩]) r.state)
    (hr : (reducer hash).Run gr S.initial h s) : S.Inv s ∧ P h s := by
  refine Machine.Run.invariant (fun h s => S.Inv s ∧ P h s) ⟨S.inv_initial, st⟩ ?_ hr
  intro h s i r hr hs ha hstep
  rcases step_cases hs.1 (hg h s i ha) hstep with ⟨reason, rfl⟩ | hacc
  · exact ⟨hs.1, rf h s i reason hs.1 hs.2⟩
  · exact ⟨hacc.inv hs.1, a h s i r hr hs.1 hs.2 ha hacc⟩

/-- **The induction rule for single Issues**: a property of an Issue and the events
accepted so far that holds of fresh Issues and survives every move holds of every
Issue of every reachable state. -/
theorem issue_induct {P : List (AdmittedEvent hash) → IssueRunState → Prop}
    (hg : ∀ h s i, gr h s i → S.Admits h s i) (st : ∀ it, it.Fresh S → P [] it)
    (move : ∀ h s i r it it' ps, gr h s i → S.Inv s → Accepted S s i r → it ∈ s.issues →
      P (acceptedEvents h) it → IssueMove S (openWaveIndex s.issues) i it it' ps →
        P (acceptedEvents h ++ i.events) it') (hr : (reducer hash).Run gr S.initial h s) :
    ∀ it ∈ s.issues, P (acceptedEvents h) it := by
  refine (run_induct (P := fun h s => ∀ it ∈ s.issues, P (acceptedEvents h) it) hg ?_ ?_ ?_ hr).2
  · intro it hit
    exact st it (fresh_of_mem_initial hit)
  · intro h s i reason _ ih it hit
    rw [acceptedEvents_refused]
    exact ih it hit
  · intro h s i r _ hs ih hadm ha it' hit'
    obtain ⟨f, g, hi, -, hm⟩ := ha.moves
    rw [hi] at hit'
    obtain ⟨it, hit, rfl⟩ := mem_map.mp hit'
    rw [acceptedEvents_accepted ha.unrefused]
    exact move h s i r it (f it) (g it) hadm hs ha hit (ih it hit) (hm it hit)

theorem Reaches.inv (hr : S.Reaches h s) : S.Inv s :=
  (run_induct (P := fun _ _ => True) (fun _ _ _ hg => hg) trivial (fun _ _ _ _ _ _ => trivial)
    (fun _ _ _ _ _ _ _ _ _ => trivial) hr).1

/-- **The induction rule of continued runs.** -/
theorem Reaches.continues {post : List (RunStep hash)} {s' : DeliveryRunState}
    (P : List (RunStep hash) → DeliveryRunState → Prop) (hrun : S.Reaches h s) (st : P [] s)
    (rf : ∀ post s i reason, P post s → P (post ++ [⟨s, i, refuse s reason⟩]) s)
    (a : ∀ post s i r, S.Reaches (h ++ post) s → P post s → Accepted S s i r →
      P (post ++ [⟨s, i, r⟩]) r.state) (hr : S.Reaches (h ++ post) s') : P post s' := by
  refine Machine.Run.continues P hrun st ?_ hr
  intro post s i r hp ih ha hstep
  have hp : S.Reaches (h ++ post) s := hp
  rcases step_cases hp.inv ha hstep with ⟨reason, rfl⟩ | hacc
  · exact rf post s i reason ih
  · exact a post s i r hp ih hacc

end RunSetup

end AgenticPkm.Builderops
