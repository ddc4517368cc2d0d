import AgenticPkm.Builderops.Reducer.Obligations
import AgenticPkm.Builderops.Reducer.Stages

/-!
# Acknowledging effects

An effect that a step proposes is meant to be executed and its success reported.
The report is accepted if the phase that the step leaves the Issue in admits it.
Every handler moves to that phase.  A resume does not: it proposes the claim of an
admitted Issue and leaves the Issue admitted, where a successful claim is refused.

* `Reaches.acknowledgeable_iff` — **which effects can be acknowledged**.
* `Reaches.pause_resume_transparent` — what a pause and a resume change.
-/

namespace AgenticPkm.Builderops

open List

variable {hash : Json → String} {S : RunSetup hash}

/-- A truthful report of the success of a proposal, in the state after the proposal
was made: an unseen event of the run that reports the effect the proposal
materialises as. -/
structure Acknowledges (s : DeliveryRunState) (p : EffectProposal) (a : AdmittedEvent hash) :
    Prop where
  run_eq : a.event.runId = s.runId
  plan_eq : a.event.planRef = s.planRef
  unseen : a.event.eventId ∉ s.seenEventIds
  type : a.event.eventType = .effectSucceeded
  effect : ∃ identity cause sequence provenance,
    proposalEffectIdentity hash s p = .ok identity ∧
      a.effect = some (proposedEffect s p identity cause sequence provenance)

/-- Each proposal of a step leaves its Issue in a phase that admits its success, and
every truthful report of the success is accepted. -/
def Acknowledgeable (S : RunSetup hash) (r : Reduction) : Prop :=
  ∀ p ∈ r.effects, ∃ it ∈ r.state.issues, it.issue = p.issue ∧
    (transitionMatrix it.phase p.effectClass.successSignal).legal = true ∧
    ∀ a : AdmittedEvent hash, a.Under S.plan → Acknowledges r.state p a →
      ∃ r', reduceDeliveryRun r.state a = .ok r' ∧ r'.refusal = none

/-- A resume that passes its gates while an Issue of the open wave is admitted. -/
def ResumesAdmitted (s : DeliveryRunState) (i : RunInput hash) : Prop :=
  ∃ c, i = .command c ∧ c.command = .resume ∧ commandGate s c = none ∧
    ∃ it ∈ s.issues, it.phase = .admitted ∧ it.waveIndex = openWaveIndex s.issues

/-! ### A report is accepted -/

section Report

variable {a : AdmittedEvent hash} {it : IssueRunState} {ef : ReducerEffect}
  {required : List AcceptanceEvidenceKind}

theorem issueHandler_of_success (hsignal : a.signal = ef.effectClass.successSignal)
    (heff : a.effect = some ef) (ht : 2 ≤ ef.effectClass.stage → AtTarget ef it)
    (hdef : ef.effectClass = .recordKnownDefect →
      ef.knownDefectRegistryRef = it.pendingKnownDefectRef ∧
        ef.knownDefectFindingHash = it.pendingKnownDefectFindingHash) :
    ∃ updated ps, issueHandler required a it = .ok (.advanced updated ps) := by
  have hmt : 2 ≤ ef.effectClass.stage → authorizedTargetMatches it a := by
    intro hs
    obtain ⟨hp, hh⟩ := ht hs
    simp [authorizedTargetMatches, heff, hp, hh]
  unfold issueHandler
  rw [hsignal]
  cases hcls : ef.effectClass with
  | claimIssue => exact ⟨_, _, rfl⟩
  | launchWorker =>
    simp only [EffectClass.successSignal, reduceWorkerLaunched, heff, getOrRaise_some, ok_bind]
    exact ⟨_, _, rfl⟩
  | awaitCi | mergePullRequest | closeIssue | requestReview =>
    have hm := hmt (by simp [hcls, EffectClass.stage])
    simp only [EffectClass.successSignal, reduceChecksPassed, reduceMergeSucceeded,
      reduceClosureSucceeded, reduceOutcome, reduceReviewRecorded, hm, Bool.not_true,
      Bool.false_eq_true, if_false]
    exact ⟨_, _, rfl⟩
  | recordKnownDefect =>
    have hm := hmt (by simp [hcls, EffectClass.stage])
    obtain ⟨href, hhs⟩ := hdef hcls
    simp only [EffectClass.successSignal, reduceKnownDefectRecorded, hm, Bool.not_true,
      Bool.false_eq_true, if_false, heff, getOrRaise_some, ok_bind, href, hhs, bne_self_eq_false,
      Bool.or_self]
    exact ⟨_, _, rfl⟩
  | recordDeliveryReceipt =>
    have hm := hmt (by simp [hcls, EffectClass.stage])
    simp only [EffectClass.successSignal, reduceReceiptRecorded, hm, Bool.not_true,
      Bool.false_eq_true, if_false]
    split
    · exact ⟨_, _, rfl⟩
    · exact ⟨_, _, rfl⟩

variable {s : DeliveryRunState}

theorem reduceDeliveryRun_of_advanced (hs : S.Inv s) (hgt : eventGate s a.event = none)
    (hund : a.Under S.plan) (hsignal : a.signal = ef.effectClass.successSignal)
    (heff : a.effect = some ef) (hsb : a.subjectIssue = some it.issue) (hit : it ∈ s.issues)
    (hph : it.phase = ef.effectClass.awaitedPhase) (hau : isAuthorizedEffect it ef)
    {u : IssueRunState} {ps : List EffectProposal}
    (hadv : issueHandler s.requiredAcceptanceEvidence a it = .ok (.advanced u ps)) :
    ∃ r, reduceDeliveryRun s a = .ok r ∧ r.refusal = none := by
  have hleg : (transitionMatrix it.phase a.signal).legal := by
    rw [transitionMatrix_legal, hsignal]
    exact successSignal_admittedIn_iff.mpr hph
  have hfd : s.issueState it.issue.scopeKey = some it := hs.keyed.find?_eq_some_iff.mpr ⟨hit, rfl⟩
  have hhn := handled_of_issueHandler hund S.valid (hs.coherent it hit).planned hsb rfl
    hleg (fun e he => by rwa [Option.some.inj (he.symm.trans heff)]) hadv
  obtain ⟨issues', hiss'⟩ := @recordAuthorizations_total hash s ps
    (fun p hp => (hhn.proposal hp).2) (replaceIssue s.issues u)
  have htc : a.signal.isTick = false := by
    rw [hsignal]
    cases ef.effectClass <;> rfl
  have hexc : (a.signal == .exceptionRecorded) = false := by
    rw [hsignal]
    cases ef.effectClass <;> rfl
  simp only [reduceDeliveryRun, hgt, htc, hexc, reduceIssueEvent, hsb, hfd,
    hleg, heff, hau, hadv, concludeIssue, advance, hiss', ok_bind,
    Option.any_some, Bool.not_true, Bool.false_eq_true, if_false]
  exact ⟨_, rfl, rfl⟩

/-- **A truthful report is accepted** in the phase that awaits it, if the effect is on
file and bound to its Issue. -/
theorem accepted_of_acknowledges {p : EffectProposal} (hs : S.Inv s)
    (hlv : s.lifecycle = .active) (hit : it ∈ s.issues) (hiss : it.issue = p.issue)
    (hph : it.phase = p.effectClass.awaitedPhase) (hder : p.Derivable)
    (hfil : ∃ e ∈ it.effectLedger, e.idempotencyKey = S.effectKey p ∧ e.effectClass = p.effectClass)
    (htg : 2 ≤ p.effectClass.stage → p.pullRequestNumber = it.authorizedPullRequest ∧
      p.exactHeadSha = it.authorizedHeadSha) (hdef : p.effectClass = .recordKnownDefect →
      p.knownDefectRegistryRef = it.pendingKnownDefectRef ∧
        p.knownDefectFindingHash = it.pendingKnownDefectFindingHash) (hund : a.Under S.plan)
    (hack : Acknowledges s p a) : ∃ r, reduceDeliveryRun s a = .ok r ∧ r.refusal = none := by
  obtain ⟨identity, cause, sq, provenance, hid, heff⟩ := hack.effect
  rw [proposalEffectIdentity_eq hder, hs.identityOf_eq, Except.ok.injEq] at hid
  have hgt : eventGate s a.event = none :=
    RunSetup.eventGate_eq_none_iff.mpr ⟨hack.run_eq, hlv, hack.unseen, hack.plan_eq⟩
  -- admission fixes the signal and the subject of the report
  obtain ⟨hsignal, hsb⟩ :
      a.signal = p.effectClass.successSignal ∧ a.subjectIssue = some p.issue := by
    obtain ⟨input, hinp, -⟩ := hund
    have hty := hack.type
    cases admissionView hinp with
    | tick _ _ _ _ sb => rw [hty] at sb; cases sb
    | exception _ _ type | authorityChanged _ _ _ type | workerResult _ _ _ type
    | reviewResult _ _ _ type | failed _ _ _ _ type => rw [hty] at type; cases type
    | succeeded ef' outcome subject signal _ report =>
      have heq := Option.some.inj (report.effect_eq.symm.trans heff)
      refine ⟨?_, ?_⟩
      · rw [signal, heq]
        rfl
      · rw [report.issue_eq, heq]
        rfl
  have hau : isAuthorizedEffect it
      (proposedEffect s p identity cause sq provenance) = true := by
    obtain ⟨e, he, hkey, hcls⟩ := hfil
    refine any_eq_true.mpr ⟨e, he, ?_⟩
    simp [proposedEffect, hkey, hcls, ← hid, RunSetup.effectKey]
  obtain ⟨u, ps, hadv⟩ := issueHandler_of_success hsignal heff htg hdef
  exact reduceDeliveryRun_of_advanced hs hgt hund hsignal heff (by rw [hsb, hiss]) hit hph hau hadv

end Report

/-! ### Resumes -/

variable {c : LifecycleCommand}

/-- A resume writes ledgers of admitted Issues only: what it proposes for another Issue is filed
there, without an outcome. -/
theorem IssueMove.of_resume {w : ℕ} {it it' : IssueRunState} {ps : List EffectProposal}
    (hit : it.Coherent S) (hr : c.command = .resume) (h : IssueMove S w (.command c) it it' ps) :
    it' = { it with effectLedger := it'.effectLedger } ∧ (it.phase ≠ .admitted → it' = it ∧
      ∀ p ∈ ps, ∃ e ∈ it.effectLedger, e.outcomeState = none ∧ e.proposal = some p ∧
        (identityOf hash S.initial p).idempotencyKey = e.idempotencyKey) := by
  cases h with
  | idle => exact ⟨rfl, fun _ => ⟨rfl, nofun⟩⟩
  | resumedClaim _ _ _ phase => exact ⟨rfl, fun hne => absurd phase hne⟩
  | resumedPending _ _ _ p _ _ l =>
    obtain ⟨e, he, hp, -, ho, -, -, -, hk⟩ := hit.of_ledgeredProposal l
    have hen := (ledgerEntry_eq_some_iff hit.strict).mpr ⟨he, hk.symm⟩
    refine ⟨rfl, fun _ => ⟨?_, fun q hq => ?_⟩⟩
    · -- the key is filed and open, so it is not filed again
      simp [IssueRunState.authorized, authorizeLedger, hen,
        EffectLedgerEntry.isResolvedUncommitted, ho]
    · cases mem_singleton.mp hq
      exact ⟨e, he, ho, hp, hk⟩
  | terminated _ _ _ e =>
    rw [hr] at e
    rcases e with h | h <;> cases h

theorem claimProposal_mem_of_resume {s : DeliveryRunState} {r : Reduction}
    (hr : c.command = .resume) (hg : commandGate s c = none)
    (hstep : reduceLifecycleCommand hash s c = .ok r) {it : IssueRunState} (hit : it ∈ s.issues)
    (hp : it.phase = .admitted) (hw : it.waveIndex = openWaveIndex s.issues) :
    claimProposal it ∈ r.effects := by
  simp only [reduceLifecycleCommand, hg, hr, resumeRun, bind_eq_ok_iff, pure_eq_ok_iff] at hstep
  obtain ⟨issues', -, rfl⟩ := hstep
  refine mem_filterMap.mpr ⟨it, hit, ?_⟩
  have ho : openWaveIndex (commandState s c .active).issues = it.waveIndex := hw.symm
  simp [pendingProposal, hp, ho, RunPhase.isTerminal]

namespace RunSetup

/-- **The effects of a step can be acknowledged exactly if the step does not resume an
admitted Issue of the open wave**, provided the digest does not collide on the
effects of the run. -/
theorem Reaches.acknowledgeable_iff {h : List (RunStep hash)} {s : DeliveryRunState}
    {i : RunInput hash} {r : Reduction} (hrun : S.Reaches h s) (hadmits : S.Admits h s i)
    (hstep : (reducer hash).step s i = .ok r)
    (hfree : S.CollisionFree (emittedProposals (h ++ [⟨s, i, r⟩]))) :
    Acknowledgeable S r ↔ ¬ ResumesAdmitted s i := by
  have hs := hrun.inv
  have hnx : S.Reaches (h ++ [⟨s, i, r⟩]) r.state := Machine.Run.step hrun hadmits hstep
  constructor
  · rintro hack ⟨c, rfl, hres, hgt, it, hit, hph, hwv⟩
    -- the claim of the admitted Issue is proposed, and the Issue stays admitted
    obtain ⟨it', hit', hissue, hleg, -⟩ :=
      hack _ (claimProposal_mem_of_resume hres hgt hstep hit hph hwv)
    rw [transitionMatrix_legal, successSignal_admittedIn_iff] at hleg
    rcases step_cases hs hadmits hstep with ⟨reason, rfl⟩ | hacc
    · have hmem := claimProposal_mem_of_resume hres hgt hstep hit hph hwv
      cases hmem
    · obtain ⟨f, g, hiss, -, hmv⟩ := hacc.moves
      rw [hiss] at hit'
      obtain ⟨x, hx, rfl⟩ := mem_map.mp hit'
      have hsame : x = it := by
        refine hs.keyed.eq_of_key_eq hx hit (congrArg IssueScope.scopeKey ?_)
        rw [← (hmv x hx).frame.1, hissue]
        rfl
      have hfr := congrArg IssueRunState.phase ((hmv x hx).of_resume (hs.coherent x hx) hres).1
      rw [hfr, hsame, hph] at hleg
      cases hleg
  · intro hrs p hp
    rcases step_cases hs hadmits hstep with ⟨reason, rfl⟩ | hacc
    · cases hp
    · obtain ⟨it, hit, it', hit', ps, hps, hmv⟩ := hacc.exists_move hp
      have hcoh := hs.coherent it hit
      have hph : it'.phase = p.effectClass.awaitedPhase := by
        rcases hmv.awaited hcoh hps with hph | ⟨c, rfl, hres, hph, hwv, -, -⟩
        · exact hph
        · exact absurd ⟨c, rfl, hres, hacc.command_gate c rfl, it, hit, hph, hwv⟩ hrs
      obtain ⟨hissue, hder, e, he, hkey⟩ := (hmv.ledgerWrite hcoh).of_mem hps
      have hissue' : it'.issue = p.issue := hmv.frame.1.trans hissue.symm
      refine ⟨it', hit', hissue', ?_, ?_⟩
      · rw [transitionMatrix_legal]
        exact successSignal_admittedIn_iff.mpr hph
      · intro a hund hack
        -- the entry under the key is of the class of the proposal, or keys collide
        have hcls : e.effectClass = p.effectClass := by
          obtain ⟨q, hq, -, hqcl, hdq, hqk⟩ := (hnx.inv.coherent it' hit').derived e he
          rw [← hqcl]
          refine (hfree.eq_of_effectKey_eq (hnx.filed.stored it' hit' e he q hq) ?_ hdq
            hder (hqk.trans hkey)).1
          rw [emittedProposals_append, emittedProposals_single]
          exact mem_append_right _ hp
        have hstg := staged_of_run (fun _ _ _ hg => hg) hrun it hit
        have hbd := hmv.bound hcoh hstg hps
        exact accepted_of_acknowledges hnx.inv (hacc.live (ne_nil_of_mem hp)) hit'
          hissue' hph hder ⟨e, he, hkey, hcls⟩ hbd.1 hbd.2 hund hack

/-- The launch that the report of a claim proposes can be acknowledged. -/
theorem acknowledgeable_of_claimedRun :
    ∃ x, Demo.claimedRun = .ok x ∧ ∃ st, x.history.getLast? = some st ∧
      st.result.effects.map EffectProposal.effectClass = [.launchWorker] ∧
      Acknowledgeable Demo.setup st.result := by
  obtain ⟨x, hx, hkeys, st, hst, hev, hl⟩ : ∃ x, Demo.claimedRun = .ok x ∧
      (∀ p ∈ emittedProposals x.history, ∀ q ∈ emittedProposals x.history,
        Demo.setup.effectKey p = Demo.setup.effectKey q → p = q) ∧
      ∃ st ∈ x.history.getLast?, st.acceptedEvent.isSome = true ∧
        st.result.effects.map EffectProposal.effectClass = [.launchWorker] := by decide +kernel
  obtain ⟨h, hh, hrun, hadm, hstep, -⟩ := Session.last_step hst
  have hf : Demo.setup.CollisionFree (emittedProposals (h ++ [st])) := by
    rw [← hh]
    exact collisionFree_of_effectKey
      (fun p hp => (x.reached.reachesOrdered.reaches.filed.emitted p hp).1) hkeys
  have hres : ¬ ResumesAdmitted st.before st.input := by
    rintro ⟨c, hc, -⟩
    simp [RunStep.acceptedEvent, hc] at hev
  exact ⟨x, hx, st, hst, hl, (Reaches.acknowledgeable_iff hrun.reachesOrdered.reaches
    hadm.admitsOrdered.admits hstep hf).mpr hres⟩

/-- A resume before the first tick claims an Issue and leaves it in a phase that does
not admit the success of the claim. -/
theorem resumed_claim_not_acknowledgeable :
    ∃ h s i r, Demo.setup.ReachesLogged h s ∧ Demo.setup.AdmitsLogged h s i ∧
      (reducer Demo.digest).step s i = .ok r ∧ r.refusal = none ∧
      ∃ p ∈ r.effects, p.effectClass = .claimIssue ∧ ∃ it ∈ r.state.issues, it.issue = p.issue ∧
        (transitionMatrix it.phase p.effectClass.successSignal).legal = false ∧
        ¬ Acknowledgeable Demo.setup r := by
  obtain ⟨x, -, st, hst, href, p, hp, hcls, ⟨it, hit, hiss, hill⟩, hall⟩ :
      ∃ x, Demo.resumedRun = .ok x ∧ ∃ st ∈ x.history.getLast?, st.result.refusal = none ∧
        ∃ p ∈ st.result.effects, p.effectClass = .claimIssue ∧
          (∃ it ∈ st.result.state.issues, it.issue = p.issue ∧
            (transitionMatrix it.phase p.effectClass.successSignal).legal = false) ∧
          ∀ it ∈ st.result.state.issues, it.issue = p.issue →
            (transitionMatrix it.phase p.effectClass.successSignal).legal = false := by
    decide +kernel
  obtain ⟨h, -, hrun, hadm, hstep, -⟩ := Session.last_step hst
  refine ⟨h, st.before, st.input, st.result, hrun, hadm, hstep, href, p, hp, hcls, it,
    hit, hiss, hill, ?_⟩
  intro hack
  obtain ⟨it', hit', hiss', hleg, -⟩ := hack p hp
  rw [hall it' hit' hiss'] at hleg
  cases hleg

/-- **A pause and a resume are transparent to authorised work.**  They change the version, the
seen commands and ledgers of admitted Issues; for any other Issue the resume proposes what is
filed for it without an outcome, under the key it is filed under. -/
theorem Reaches.pause_resume_transparent {h : List (RunStep hash)} {s : DeliveryRunState}
    {pause resume : LifecycleCommand} {r r' : Reduction} (hrun : S.Reaches h s)
    (hp : pause.command = .pause) (hr : resume.command = .resume)
    (h₁ : reduceLifecycleCommand hash s pause = .ok r) (ha : r.refusal = none)
    (h₂ : reduceLifecycleCommand hash r.state resume = .ok r') (ha' : r'.refusal = none) :
    r'.state = { s with
      version := r'.state.version
      seenCommandIds := r'.state.seenCommandIds
      issues := r'.state.issues } ∧
    List.Forall₂ (fun it it' => it' = { it with effectLedger := it'.effectLedger } ∧
      (it.phase ≠ .admitted → it' = it)) s.issues r'.state.issues ∧
    ∀ it ∈ s.issues, it.phase ≠ .admitted → ∀ p ∈ r'.effects, p.issue.scopeKey = it.scopeKey →
      ∃ e ∈ it.effectLedger, e.outcomeState = none ∧ e.proposal = some p ∧
        ∃ identity, proposalEffectIdentity hash r'.state p = .ok identity ∧
          identity.idempotencyKey = e.idempotencyKey := by
  have hnx : S.Reaches (h ++ [⟨s, .command pause, r⟩]) r.state :=
    Machine.Run.step (i := RunInput.command pause) hrun trivial h₁
  have hs := hnx.inv
  have hacc : Accepted S r.state (.command resume) r' := by
    rcases step_cases (i := .command resume) (h := h) hs trivial h₂ with ⟨_, rfl⟩ | hacc
    · cases ha'
    · exact hacc
  have hst' : r'.state =
      { commandState r.state resume .active with issues := r'.state.issues } := by
    simp only [reduceLifecycleCommand, hacc.command_gate _ rfl, hr, resumeRun, bind_eq_ok_iff,
      pure_eq_ok_iff] at h₂
    obtain ⟨_, -, rfl⟩ := h₂
    rfl
  obtain ⟨hst, hl⟩ : r.state = commandState s pause .paused ∧ s.lifecycle = .active := by
    unfold reduceLifecycleCommand at h₁
    split at h₁
    · rw [← pure_eq_ok_iff.mp h₁] at ha
      cases ha
    · rw [hp] at h₁
      exact ⟨by rw [← pure_eq_ok_iff.mp h₁], by grind [commandGate]⟩
  have hi : s.issues = r.state.issues := by
    rw [hst]
    rfl
  rw [hi]
  obtain ⟨f, g, hf, hef, hmv⟩ := hacc.moves
  have hm := fun it hit => (hmv it hit).of_resume (hs.coherent it hit) hr
  refine ⟨?_, ?_, ?_⟩
  · rw [hst', hst]
    simp only [commandState, hl]
  · rw [hf, forall₂_map_right_iff, forall₂_same]
    exact fun it hit => ⟨(hm it hit).1, fun hne => ((hm it hit).2 hne).1⟩
  · intro it hit hne p hp hk
    rw [hef] at hp
    obtain ⟨x, hx, hp⟩ := mem_flatMap.mp hp
    obtain ⟨hiss, hder, -⟩ := ((hmv x hx).ledgerWrite (hs.coherent x hx)).of_mem hp
    rw [hiss] at hk
    cases hs.keyed.eq_of_key_eq hx hit hk
    obtain ⟨e, he, ho, hep, hkey⟩ := ((hm it hit).2 hne).2 p hp
    refine ⟨e, he, ho, hep, _, proposalEffectIdentity_eq hder, ?_⟩
    rw [(hacc.inv hs).identityOf_eq, hkey]

/-- The started run waits for the claim of its first Issue, before a pause and after it. -/
theorem started_run_pauses :
    ∃ x, Demo.startedRun = .ok x ∧ ∃ r, reduceLifecycleCommand Demo.digest x.state
      (Demo.command .pause 1) = .ok r ∧ ∃ r', reduceLifecycleCommand Demo.digest r.state
        (Demo.command .resume 2) = .ok r' ∧
      r'.effects.map EffectProposal.effectClass = [.claimIssue] ∧
      List.Forall₂ (fun it it' => it.phase ≠ .admitted → it' = it) x.state.issues
        r'.state.issues := by
  obtain ⟨x, hx, r, h₁, ha, r', h₂, ha', hcl⟩ : ∃ x, Demo.startedRun = .ok x ∧
      ∃ r, reduceLifecycleCommand Demo.digest x.state (Demo.command .pause 1) = .ok r ∧
        r.refusal = none ∧ ∃ r', reduceLifecycleCommand Demo.digest r.state
          (Demo.command .resume 2) = .ok r' ∧ r'.refusal = none ∧
            r'.effects.map EffectProposal.effectClass = [.claimIssue] := by decide +kernel
  exact ⟨x, hx, r, h₁, r', h₂, hcl, (Reaches.pause_resume_transparent
    x.reached.reachesOrdered.reaches rfl rfl h₁ ha h₂ ha').2.1.imp fun _ _ h => h.2⟩

end RunSetup

end AgenticPkm.Builderops
