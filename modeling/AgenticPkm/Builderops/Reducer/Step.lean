import AgenticPkm.Builderops.Reducer.Handlers

/-!
# What one step of a run can do

Every invariant of a run is derived from this file.  `IssueMove` says what any
accepted input does to any Issue, and `step_cases` that a step either refuses and
changes nothing, or moves every Issue by an `IssueMove`.
-/

namespace AgenticPkm.Builderops

open List Option

variable {hash : Json → String}

/-! ### Due claims -/

/-- An Issue whose claim a tick opens: admitted, in the open wave. -/
def isDue (openWave : ℕ) (it : IssueRunState) : Bool :=
  it.waveIndex == openWave && it.phase == .admitted

/-- An Issue as a tick leaves it before its claim is ledgered. -/
def openIssue (openWave : ℕ) (it : IssueRunState) : IssueRunState :=
  if isDue openWave it then { it with phase := .claiming } else it

/-- The claims of an Issue that a tick proposes. -/
def dueClaims (openWave : ℕ) (it : IssueRunState) : List EffectProposal :=
  if isDue openWave it then [claimProposal it] else []

variable {sg : ReducerSignal}

theorem openDueClaim_eq (ht : sg.isTick) (w : ℕ) (opened : List IssueRunState × List EffectProposal)
    (it : IssueRunState) :
    openDueClaim w sg opened it =
      if isDue w it then
        (replaceIssue opened.1 { it with phase := .claiming }, opened.2 ++ [claimProposal it])
      else opened := by
  have hleg : (transitionMatrix .admitted sg).legal := by
    cases sg <;> first | rfl | cases ht
  unfold openDueClaim isDue
  by_cases hw : it.waveIndex = w
  · by_cases hp : it.phase = .admitted
    · simp [hw, hp, hleg]
    · by_cases hl : (transitionMatrix it.phase sg).legal = true <;> simp [hw, hp, hl]
  · simp [hw]

theorem foldl_openDueClaim (ht : sg.isTick) (w : ℕ)
    (todo acc : List IssueRunState) (ps : List EffectProposal) :
    todo.foldl (openDueClaim w sg) (acc, ps) =
      ((todo.filter (isDue w)).foldl
          (fun acc it => modifyBy IssueRunState.scopeKey it.scopeKey
            (fun _ => { it with phase := .claiming }) acc) acc,
        ps ++ todo.flatMap (dueClaims w)) := by
  induction todo generalizing acc ps with
  | nil => simp
  | cons it todo ih =>
    rw [foldl_cons, openDueClaim_eq ht]
    cases hd : isDue w it with
    | true =>
      rw [if_pos rfl, ih, filter_cons_of_pos hd, foldl_cons, flatMap_cons]
      simp only [dueClaims, hd, if_true, append_assoc]
      rfl
    | false =>
      rw [if_neg (by simp), ih, filter_cons_of_neg (by simp [hd]), flatMap_cons]
      simp [dueClaims, hd]

/-- **A tick opens every due Issue**, in one pass. -/
theorem openDueClaims_eq {i : List IssueRunState}
    (hd : DistinctKeys IssueRunState.scopeKey i) (ht : sg.isTick) :
    openDueClaims i sg =
      (i.map (openIssue (openWaveIndex i)), i.flatMap (dueClaims (openWaveIndex i))) := by
  unfold openDueClaims
  rw [foldl_openDueClaim ht, nil_append]
  have hp := foldl_modifyBy IssueRunState.scopeKey IssueRunState.scopeKey
    (fun (it : IssueRunState) (_ : IssueRunState) => { it with phase := .claiming })
    (fun _ _ _ => rfl) (i.filter (isDue (openWaveIndex i))) i
  rw [hp]
  congr 1
  refine map_congr_left fun it hit => ?_
  -- the updates of an Issue's key are its own, if it is due
  have hm : ((i.filter (isDue (openWaveIndex i))).filter
      fun u => u.scopeKey = it.scopeKey) = [it].filter (isDue (openWaveIndex i)) := by
    rw [filter_comm, hd.filter_key hit]
  rw [hm]
  cases hdue : isDue (openWaveIndex i) it with
  | true => simp [openIssue, hdue]
  | false => simp [openIssue, hdue]

/-! ### Moves and accepted steps -/

/-- What an accepted input does to an Issue, and the effects it proposes for it.
`openWave` is the open wave of the state before. -/
inductive IssueMove (S : RunSetup hash) (openWave : ℕ) :
    RunInput hash → IssueRunState → IssueRunState → List EffectProposal → Prop
  | idle (i : RunInput hash) (it : IssueRunState)
      (away : ∀ a issue, i = .event a → a.subjectIssue = some issue →
        issue.scopeKey ≠ it.scopeKey) :
      IssueMove S openWave i it it []
  | opened (a : AdmittedEvent hash) (it : IssueRunState) (tick : a.signal.isTick = true)
      (subjectless : a.subjectIssue = none) (phase : it.phase = .admitted)
      (wave : it.waveIndex = openWave) :
      IssueMove S openWave (.event a) it
        ({ it with phase := .claiming }.authorized hash S.initial (claimProposal it))
        [claimProposal it]
  | excepted (a : AdmittedEvent hash) (it : IssueRunState) (kind : ExceptionKind)
      (subjectless : a.subjectIssue = none) (active : it.phase.isTerminal = false) :
      IssueMove S openWave (.event a) it
        { it with phase := exceptionTarget kind, blockedReason := some kind.text } []
  | handled (a : AdmittedEvent hash) (it updated : IssueRunState) (ps : List EffectProposal)
      (h : Handled S.plan S.profile.requiredEvidence a it updated ps) :
      IssueMove S openWave (.event a) it (updated.authorizedAll hash S.initial ps) ps
  | resumedClaim (c : LifecycleCommand) (it : IssueRunState) (resume : c.command = .resume)
      (phase : it.phase = .admitted) (wave : it.waveIndex = openWave) :
      IssueMove S openWave (.command c) it (it.authorized hash S.initial (claimProposal it))
        [claimProposal it]
  | resumedPending (c : LifecycleCommand) (it : IssueRunState) (effectClass : EffectClass)
      (p : EffectProposal) (resume : c.command = .resume)
      (resumable : resumableEffectByPhase it.phase = some effectClass)
      (ledgered : ledgeredProposal effectClass it = some p) :
      IssueMove S openWave (.command c) it (it.authorized hash S.initial p) [p]
  | terminated (c : LifecycleCommand) (it : IssueRunState) (phase : RunPhase)
      (ending : c.command = .cancel ∨ c.command = .supersede)
      (terminal : phase = .cancelled ∨ phase = .superseded)
      (active : it.phase.isTerminal = false) :
      IssueMove S openWave (.command c) it
        { it with phase := phase, blockedReason := some c.command.text } []

theorem IssueMove.eq_singleton {S : RunSetup hash} {w : ℕ} {i : RunInput hash}
    {it it' : IssueRunState} {ps : List EffectProposal} (h : IssueMove S w i it it' ps)
    {p : EffectProposal} (hp : p ∈ ps) : ps = [p] := by
  cases h with
  | idle | excepted | terminated => cases hp
  | opened | resumedClaim | resumedPending => rw [mem_singleton.mp hp]
  | handled _ _ _ _ h => exact h.eq_singleton hp

/-- What holds of every Issue of every reachable state: it is planned, its ledger
is in strict key order, every entry stores the proposal its key derives from, and
no failure is on the books of an active Issue. -/
structure IssueRunState.Coherent (S : RunSetup hash) (it : IssueRunState) : Prop where
  planned : it.issue ∈ S.plan.finalScope
  strict : StrictKeys EffectLedgerEntry.idempotencyKey it.effectLedger
  derived : ∀ e ∈ it.effectLedger, ∃ p, e.proposal = some p ∧ p.issue = it.issue ∧
    p.effectClass = e.effectClass ∧ p.Derivable ∧
      (identityOf hash S.initial p).idempotencyKey = e.idempotencyKey
  unfailed : it.phase.isTerminal = false → ∀ e ∈ it.effectLedger, e.outcomeState ≠ some .failed

/-- What holds in every reachable state. -/
structure RunSetup.Inv (S : RunSetup hash) (s : DeliveryRunState) : Prop where
  runId_eq : s.runId = S.runId
  planRef_eq : s.planRef = S.plan.ref hash
  checks_eq : s.requiredCheckNames = S.plan.policyProfile.requiredCheckNames
  evidence_eq : s.requiredAcceptanceEvidence = S.profile.requiredEvidence
  profile_eq : s.acceptanceProfileHash = S.profile.contentHash hash
  keyed : DistinctKeys IssueRunState.scopeKey s.issues
  coherent : ∀ it ∈ s.issues, it.Coherent S

/-- What a run binds at its start and never rewrites. -/
structure SameBinding (s s' : DeliveryRunState) : Prop where
  runId_eq : s'.runId = s.runId
  planRef_eq : s'.planRef = s.planRef
  checks_eq : s'.requiredCheckNames = s.requiredCheckNames
  evidence_eq : s'.requiredAcceptanceEvidence = s.requiredAcceptanceEvidence
  profile_eq : s'.acceptanceProfileHash = s.acceptanceProfileHash

/-- An accepted step: every Issue makes a move, and the effects are those of the
moves. -/
structure Accepted (S : RunSetup hash) (s : DeliveryRunState) (i : RunInput hash)
    (r : Reduction) : Prop where
  unrefused : r.refusal = none
  subject_found : ∀ a issue, i = .event a → a.subjectIssue = some issue →
    ∃ it ∈ s.issues, issue.scopeKey = it.scopeKey
  event_gate : ∀ a, i = .event a → eventGate s a.event = none
  command_gate : ∀ c, i = .command c → commandGate s c = none
  binding : SameBinding s r.state
  live : r.effects ≠ [] → r.state.lifecycle = .active
  moves : ∃ (f : IssueRunState → IssueRunState) (g : IssueRunState → List EffectProposal),
    r.state.issues = s.issues.map f ∧ r.effects = s.issues.flatMap g ∧
      ∀ it ∈ s.issues, IssueMove S (openWaveIndex s.issues) i it (f it) (g it)

/-! ### The start of a run -/

/-- An Issue as a run starts with it. -/
structure IssueRunState.Fresh (S : RunSetup hash) (it : IssueRunState) : Prop where
  planned : it.issue ∈ S.plan.finalScope
  authority : lastBy AuthoritySnapshot.authorityId it.issue.authorityId S.plan.inputAuthorities =
    some it.currentAuthority
  untouched : it = { issue := it.issue, waveIndex := it.waveIndex,
                     currentAuthority := it.currentAuthority }

theorem IssueRunState.Fresh.phase_eq {S : RunSetup hash} {it : IssueRunState}
    (h : it.Fresh S) : it.phase = .admitted :=
  congrArg IssueRunState.phase h.untouched

theorem IssueRunState.Fresh.effectLedger_eq {S : RunSetup hash} {it : IssueRunState}
    (h : it.Fresh S) : it.effectLedger = [] :=
  congrArg IssueRunState.effectLedger h.untouched

namespace RunSetup

variable {S : RunSetup hash}

theorem valid (S : RunSetup hash) : S.plan.Valid := DeliveryPlan.valid_of_validate S.plan_valid

variable {it : IssueRunState}

theorem fresh_of_initialIssue {i : IssueScope} (hp : i ∈ S.plan.finalScope)
    (h : initialIssue S.plan i = .ok it) : it.issue = i ∧ it.Fresh S := by
  unfold initialIssue at h
  split at h
  next p wave hpl hw =>
    obtain rfl := pure_eq_ok_iff.mp h
    exact ⟨rfl, hp, hpl, rfl⟩
  · cases h

theorem fresh_of_forall₂ {sc : List IssueScope} {i : List IssueRunState}
    (hs : ∀ issue ∈ sc, issue ∈ S.plan.finalScope)
    (h : List.Forall₂ (fun issue it => initialIssue S.plan issue = .ok it) sc i) :
    i.map IssueRunState.issue = sc ∧ ∀ it ∈ i, it.Fresh S := by
  induction h with
  | nil => exact ⟨rfl, by simp⟩
  | cons hh ht ih =>
    obtain ⟨hissue, hf⟩ := fresh_of_initialIssue (hs _ mem_cons_self) hh
    obtain ⟨hiss, hr⟩ := ih fun issue hi => hs issue (mem_cons_of_mem _ hi)
    rw [map_cons, hissue, hiss]
    exact ⟨rfl, forall_mem_cons.mpr ⟨hf, hr⟩⟩

theorem initial_cases (S : RunSetup hash) :
    (∃ issues, S.initial.issues = sortedBy (fun it => it.issue.sortKey) issues ∧
      issues.map IssueRunState.issue = S.plan.finalScope ∧ ∀ it ∈ issues, it.Fresh S) ∧
    S.initial.runId = S.runId ∧ S.initial.planRef = S.plan.ref hash ∧
    S.initial.requiredCheckNames = S.plan.policyProfile.requiredCheckNames ∧
    S.initial.requiredAcceptanceEvidence = S.profile.requiredEvidence ∧
    S.initial.acceptanceProfileHash = S.profile.contentHash hash := by
  have h := S.initial_eq
  simp only [initialDeliveryRunState, exists_unit_iff, bind_eq_ok_iff, collectAll_eq_ok_iff,
    pure_eq_ok_iff] at h
  obtain ⟨-, issues, hiss, hin⟩ := h
  rw [← hin]
  exact ⟨⟨issues, rfl, fresh_of_forall₂ (fun _ hi => hi) hiss⟩, rfl, rfl, rfl, rfl, rfl⟩

theorem fresh_of_mem_initial (hit : it ∈ S.initial.issues) : it.Fresh S := by
  obtain ⟨⟨issues, hi, -, hf⟩, -⟩ := S.initial_cases
  rw [hi, mem_sortedBy] at hit
  exact hf it hit

theorem inv_initial (S : RunSetup hash) : S.Inv S.initial := by
  obtain ⟨⟨i, hi, hiss, -⟩, hr, hp, hchk, hev, hpr⟩ := S.initial_cases
  refine ⟨hr, hp, hchk, hev, hpr, ?_, ?_⟩
  · have hkeys : i.map IssueRunState.scopeKey = S.plan.finalScope.map IssueScope.scopeKey := by
      rw [← hiss, List.map_map]
      rfl
    unfold DistinctKeys
    rw [hi, ((perm_sortedBy _ i).map _).nodup_iff, hkeys]
    exact S.valid.scope_distinct
  · intro it hit
    have hf := fresh_of_mem_initial hit
    refine ⟨hf.planned, ?_, ?_, ?_⟩
    · rw [hf.effectLedger_eq]
      exact strictKeys_nil
    · simp [hf.effectLedger_eq]
    · simp [hf.effectLedger_eq]

/-! ### One step -/

theorem Inv.identityOf_eq {s : DeliveryRunState} (hs : S.Inv s) (p : EffectProposal) :
    identityOf hash s p = identityOf hash S.initial p := by
  have hi := S.inv_initial
  unfold identityOf
  rw [proposalEffectIdentity_congr (hs.runId_eq.trans hi.runId_eq.symm)
    (hs.planRef_eq.trans hi.planRef_eq.symm) (hs.checks_eq.trans hi.checks_eq.symm)]

theorem Inv.authorizedAll_eq {s : DeliveryRunState} (hs : S.Inv s) (ps : List EffectProposal)
    (it : IssueRunState) : it.authorizedAll hash s ps = it.authorizedAll hash S.initial ps := by
  simp only [IssueRunState.authorizedAll, IssueRunState.authorized, hs.identityOf_eq]

variable {s : DeliveryRunState} {a : AdmittedEvent hash} {c : LifecycleCommand} {r : Reduction}
  {f : IssueRunState → IssueRunState} {g : IssueRunState → List EffectProposal}

theorem Inv.recordAuthorizations_eq {issues' : List IssueRunState} (hs : S.Inv s)
    (s' : DeliveryRunState) (hr : s'.runId = s.runId) (hp : s'.planRef = s.planRef)
    (hchk : s'.requiredCheckNames = s.requiredCheckNames)
    (hf : ∀ it ∈ s.issues, (f it).scopeKey = it.scopeKey)
    (hg : ∀ it ∈ s.issues, ∀ p ∈ g it, p.issue.scopeKey = it.scopeKey)
    (h : recordAuthorizations hash s' (s.issues.map f) (s.issues.flatMap g) = .ok issues') :
    issues' = s.issues.map fun it => (f it).authorizedAll hash S.initial (g it) := by
  have hs' : S.Inv { s' with
      issues := s.issues
      requiredAcceptanceEvidence := s.requiredAcceptanceEvidence
      acceptanceProfileHash := s.acceptanceProfileHash } :=
    ⟨hr.trans hs.runId_eq, hp.trans hs.planRef_eq, hchk.trans hs.checks_eq,
      hs.evidence_eq, hs.profile_eq, hs.keyed, hs.coherent⟩
  rw [Builderops.recordAuthorizations_eq hs.keyed hf hg h]
  exact map_congr_left fun it _ => hs'.authorizedAll_eq (g it) (f it)

theorem eventGate_eq_none_iff {e : ReducerEvent} :
    eventGate s e = none ↔ e.runId = s.runId ∧ s.lifecycle = .active ∧
      e.eventId ∉ s.seenEventIds ∧ e.planRef = s.planRef := by
  unfold eventGate
  cases hl : s.lifecycle <;> simp [LifecycleState.isTerminated, ite_eq_iff]

theorem Inv.accepted_of_advance (hs : S.Inv s) (hgt : eventGate s a.event = none)
    (hf : ∀ it ∈ s.issues, (f it).scopeKey = it.scopeKey)
    (hg : ∀ it ∈ s.issues, ∀ p ∈ g it, p.issue.scopeKey = it.scopeKey)
    (hm : ∀ it ∈ s.issues, IssueMove S (openWaveIndex s.issues) (.event a) it
      ((f it).authorizedAll hash S.initial (g it)) (g it))
    (hfd : ∀ issue, a.subjectIssue = some issue → ∃ it ∈ s.issues, issue.scopeKey = it.scopeKey)
    (h : advance hash s a.event.eventId (s.issues.map f) (s.issues.flatMap g) = .ok r) :
    Accepted S s (.event a) r := by
  simp only [advance, bind_eq_ok_iff, pure_eq_ok_iff] at h
  obtain ⟨issues', hi', rfl⟩ := h
  have hp := hs.recordAuthorizations_eq s rfl rfl rfl hf hg hi'
  refine ⟨rfl, ?_, ?_, ?_, ⟨rfl, rfl, rfl, rfl, rfl⟩, ?_, _, g, hp, rfl, hm⟩
  · rintro b issue hb
    cases hb
    exact hfd issue
  · rintro b hb
    cases hb
    exact hgt
  · rintro c hc
    cases hc
  · intro _
    exact (eventGate_eq_none_iff.mp hgt).2.1

theorem tick_of_isTick (hu : a.Under S.plan) (ht : a.signal.isTick) :
    a.event.subjectAuthority = none ∧ a.event.effectRef = none ∧ a.event.resultRef = none ∧
      a.event.eventType.isSubjectlessCause ∧ a.subjectIssue = none := by
  obtain ⟨input, hi, -⟩ := hu
  cases admissionView hi with
  | tick _ su effect result sb _ issue => exact ⟨su, effect, result, sb, issue⟩
  | exception _ sg | authorityChanged _ _ sg | workerResult _ _ sg
  | reviewResult _ _ sg | failed _ _ _ sg => simp [sg, ReducerSignal.isTick] at ht
  | succeeded effect _ _ sg =>
    cases hc : effect.effectClass <;>
      simp [sg, hc, EffectClass.successSignal, ReducerSignal.isTick] at ht

theorem idle_of_subjectless {w : ℕ} (hn : a.subjectIssue = none) (it : IssueRunState) :
    IssueMove S w (.event a) it it [] := by
  refine .idle (.event a) it ?_
  rintro b issue hb hi
  cases hb
  cases hn.symm.trans hi

theorem Inv.accepted_of_reduceTick (hs : S.Inv s) (hg : eventGate s a.event = none)
    (hu : a.Under S.plan) (ht : a.signal.isTick)
    (h : reduceTick s a = .ok r) : Accepted S s (.event a) r := by
  obtain ⟨-, -, -, -, hn⟩ := tick_of_isTick hu ht
  simp only [reduceTick, openDueClaims_eq hs.keyed ht] at h
  refine hs.accepted_of_advance hg ?_ ?_ ?_ (by simp [hn]) h
  · intro it _
    unfold openIssue
    split <;> rfl
  · intro it _ p hp
    unfold dueClaims at hp
    split at hp
    · obtain rfl := mem_singleton.mp hp
      rfl
    · cases hp
  · intro it _
    unfold openIssue dueClaims
    cases hd : isDue (openWaveIndex s.issues) it with
    | true =>
      simp only [isDue, Bool.and_eq_true, beq_iff_eq] at hd
      exact .opened a it ht hn hd.2 hd.1
    | false => exact idle_of_subjectless hn it

theorem Inv.accepted_of_reduceException (hs : S.Inv s) (hg : eventGate s a.event = none)
    (hu : a.Under S.plan) (hsignal : a.signal = .exceptionRecorded)
    (h : reduceException s a = .ok r) : Accepted S s (.event a) r := by
  have hn : a.subjectIssue = none := by
    obtain ⟨input, hi, -⟩ := hu
    cases admissionView hi with
    | exception _ _ _ _ _ _ issue => exact issue
    | tick sg => simp [hsignal, ReducerSignal.isTick] at sg
    | authorityChanged _ _ sg | workerResult _ _ sg | reviewResult _ _ sg
    | failed _ _ _ sg => simp [hsignal] at sg
    | succeeded effect outcome subject sg =>
      cases hc : effect.effectClass <;> simp [hsignal, hc, EffectClass.successSignal] at sg
  simp only [reduceException, bind_eq_ok_iff] at h
  obtain ⟨x, -, h⟩ := h
  have hnil : ([] : List EffectProposal) = s.issues.flatMap fun _ => [] := by simp
  rw [hnil] at h
  refine hs.accepted_of_advance hg ?_ (by simp) ?_ (by simp [hn]) h
  · intro it _
    unfold exceptIssue
    split <;> rfl
  · intro it _
    have hl := transitionMatrix_legal it.phase .exceptionRecorded
    unfold exceptIssue
    rw [hl]
    cases ht : it.phase.isTerminal with
    | true =>
      simp only [ReducerSignal.admittedIn, ReducerSignal.homePhase, ht, Bool.not_true,
        Bool.not_false, if_true]
      exact idle_of_subjectless hn it
    | false =>
      simp only [ReducerSignal.admittedIn, ReducerSignal.homePhase, ht, Bool.not_true,
        Bool.not_false, Bool.false_eq_true, if_false]
      exact .excepted a it x.kind hn ht

theorem Inv.accepted_of_reduceIssueEvent (hs : S.Inv s) (hgt : eventGate s a.event = none)
    (hund : a.Under S.plan) (h : reduceIssueEvent s a = .ok r) :
    (∃ reason, r = refuse s reason) ∨ Accepted S s (.event a) r := by
  unfold reduceIssueEvent at h
  split at h
  · exact .inl ⟨_, ((pure_eq_ok_iff.mp h).symm)⟩
  next issue hiss =>
    split at h
    · exact .inl ⟨_, ((pure_eq_ok_iff.mp h).symm)⟩
    next it hit =>
      obtain ⟨hmem, hkey⟩ := hs.keyed.find?_eq_some_iff.mp hit
      split at h
      · exact .inl ⟨_, ((pure_eq_ok_iff.mp h).symm)⟩
      next hleg =>
        split at h
        · exact .inl ⟨_, ((pure_eq_ok_iff.mp h).symm)⟩
        next hau =>
          rw [bind_eq_ok_iff] at h
          obtain ⟨decision, hdec, h⟩ := h
          cases decision with
          | refused reason => exact .inl ⟨reason, ((pure_eq_ok_iff.mp h).symm)⟩
          | advanced updated ps =>
            rw [hs.evidence_eq] at hdec
            have hhn := handled_of_issueHandler hund S.valid (hs.coherent it hmem).planned
              hiss hkey.symm (by simpa using hleg)
              (by intro effect heff; simpa [heff] using hau) hdec
            have hupd : updated.scopeKey = it.scopeKey := congrArg IssueScope.scopeKey hhn.frame.1
            refine .inr ?_
            have hrp : replaceIssue s.issues updated =
                s.issues.map fun x => if x.scopeKey = it.scopeKey then updated else x := by
              rw [replaceIssue, replaceBy, hupd]
            rw [concludeIssue, hrp, ← hs.keyed.flatMap_ite hmem ps] at h
            refine hs.accepted_of_advance hgt (fun x _ => scopeKey_ite hupd x) ?_ ?_ ?_ h
            · exact fun x _ p hp => scopeKey_of_mem_ite (fun p hp => (hhn.proposal hp).1) hp
            · intro x hx
              by_cases hk : x.scopeKey = it.scopeKey
              · obtain rfl := hs.keyed.eq_of_key_eq hx hmem hk
                simp only [if_true]
                exact .handled a x updated ps hhn
              · simp only [hk, if_false, authorizedAll_nil]
                refine .idle (.event a) x ?_
                rintro b j hb hj
                cases hb
                cases hiss.symm.trans hj
                intro hjx
                exact hk (hjx.symm.trans hkey.symm)
            · intro j hj
              cases hiss.symm.trans hj
              exact ⟨it, hmem, hkey.symm⟩

theorem Inv.move_of_pendingProposal (hs : S.Inv s) {w : ℕ} (hit : it ∈ s.issues)
    (hres : c.command = .resume) {p : EffectProposal} (h : pendingProposal w it = some p) :
    p.issue = it.issue ∧ IssueMove S w (.command c) it (it.authorized hash S.initial p) [p] := by
  unfold pendingProposal at h
  split at h
  · cases h
  · split at h
    next hph =>
      split at h
      next hw =>
        cases h
        exact ⟨rfl, .resumedClaim c it hres (by simpa using hph) (by simpa using hw)⟩
      · cases h
    · obtain ⟨ec, hr, hl⟩ := bind_eq_some_iff.mp h
      refine ⟨?_, .resumedPending c it ec p hres hr hl⟩
      obtain ⟨e, he, hp⟩ := bind_eq_some_iff.mp hl
      obtain ⟨q, hq, hi, -⟩ := (hs.coherent it hit).derived e (mem_of_find?_eq_some he)
      rw [hp] at hq
      cases hq
      exact hi

theorem accepted_of_command (hg : commandGate s c = none) (hr : r.refusal = none)
    (hbn : SameBinding s r.state) (hl : r.effects ≠ [] → r.state.lifecycle = .active)
    (hi : r.state.issues = s.issues.map f) (hef : r.effects = s.issues.flatMap g)
    (hm : ∀ it ∈ s.issues, IssueMove S (openWaveIndex s.issues) (.command c) it (f it) (g it)) :
    Accepted S s (.command c) r := by
  refine ⟨hr, ?_, ?_, ?_, hbn, hl, f, g, hi, hef, hm⟩
  · rintro b issue hb
    cases hb
  · rintro b hb
    cases hb
  · rintro c' hc
    cases hc
    exact hg

theorem idle_command {w : ℕ} (it : IssueRunState) : IssueMove S w (.command c) it it [] := by
  refine .idle (.command c) it ?_
  rintro b issue hb
  cases hb

theorem Inv.accepted_of_resume (hs : S.Inv s) (hg : commandGate s c = none)
    (hr : c.command = .resume)
    (h : resumeRun hash (commandState s c .active) = .ok r) : Accepted S s (.command c) r := by
  simp only [resumeRun, bind_eq_ok_iff, pure_eq_ok_iff] at h
  obtain ⟨issues', hi', rfl⟩ := h
  -- at most one proposal for each Issue
  have hpn : pendingEffectProposals (commandState s c .active) =
      s.issues.flatMap fun it => (pendingProposal (openWaveIndex s.issues) it).toList := by
    rw [← filterMap_eq_flatMap_toList]
    rfl
  have hrec : recordAuthorizations hash (commandState s c .active) (s.issues.map id)
      (s.issues.flatMap fun it => (pendingProposal (openWaveIndex s.issues) it).toList) =
        .ok issues' := by
    rw [← hpn, List.map_id]
    exact hi'
  have hps := hs.recordAuthorizations_eq (commandState s c .active) rfl rfl rfl
    (fun it _ => rfl) ?_ hrec
  · refine accepted_of_command hg rfl ⟨rfl, rfl, rfl, rfl, rfl⟩ (fun _ => rfl) hps hpn ?_
    intro it hit
    cases hp : pendingProposal (openWaveIndex s.issues) it with
    | none => exact idle_command it
    | some p => exact (hs.move_of_pendingProposal hit hr hp).2
  · intro it hit p hp
    rw [mem_toList] at hp
    exact congrArg IssueScope.scopeKey (hs.move_of_pendingProposal hit hr hp).1

theorem Inv.accepted_of_terminate {l : LifecycleState} {p : RunPhase} (hg : commandGate s c = none)
    (hend : c.command = .cancel ∨ c.command = .supersede) (hp : p = .cancelled ∨ p = .superseded)
    (h : terminateRun s c l p = .ok r) : Accepted S s (.command c) r := by
  simp only [terminateRun, bind_eq_ok_iff, pure_eq_ok_iff] at h
  obtain ⟨o, -, rfl⟩ := h
  refine accepted_of_command (f := terminateIssue p c.command) (g := fun _ => []) hg rfl
    ⟨rfl, rfl, rfl, rfl, rfl⟩ (fun hne => absurd rfl hne) rfl (by simp) ?_
  intro it _
  unfold terminateIssue
  cases ht : it.phase.isTerminal with
  | true => exact idle_command it
  | false => exact .terminated c it p hend hp ht

/-- **A step refuses, and changes nothing, or is accepted.** -/
theorem step_cases {h : List (RunStep hash)} {i : RunInput hash} (hs : S.Inv s)
    (hadm : S.Admits h s i) (hstep : (reducer hash).step s i = .ok r) :
    (∃ reason, r = refuse s reason) ∨ Accepted S s i r := by
  cases i with
  | event a =>
    have hstep : reduceDeliveryRun s a = .ok r := hstep
    unfold reduceDeliveryRun at hstep
    split at hstep
    · exact .inl ⟨_, (pure_eq_ok_iff.mp hstep).symm⟩
    next hg =>
      have hund : a.Under S.plan := hadm ((eventGate_eq_none_iff.mp hg).2.2.2.trans hs.planRef_eq)
      split at hstep
      next ht => exact .inr (hs.accepted_of_reduceTick hg hund ht hstep)
      · split at hstep
        next hsignal =>
          exact .inr (hs.accepted_of_reduceException hg hund (by simpa using hsignal) hstep)
        · exact hs.accepted_of_reduceIssueEvent hg hund hstep
  | command c =>
    have hstep : reduceLifecycleCommand hash s c = .ok r := hstep
    unfold reduceLifecycleCommand at hstep
    split at hstep
    · exact .inl ⟨_, (pure_eq_ok_iff.mp hstep).symm⟩
    next hg =>
      right
      split at hstep
      · obtain rfl := pure_eq_ok_iff.mp hstep
        exact accepted_of_command (f := id) (g := fun _ => []) hg rfl ⟨rfl, rfl, rfl, rfl, rfl⟩
          (fun hne => absurd rfl hne) (map_id _).symm (by simp) fun it _ => idle_command it
      next hres => exact hs.accepted_of_resume hg hres hstep
      next hcn => exact Inv.accepted_of_terminate hg (.inl hcn) (.inl rfl) hstep
      next hsup => exact Inv.accepted_of_terminate hg (.inr hsup) (.inr rfl) hstep

end RunSetup

end AgenticPkm.Builderops
