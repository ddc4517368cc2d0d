import AgenticPkm.Builderops.Reducer.Session
import AgenticPkm.Builderops.Reducer.Stages

/-!
# What a delivery rests on

A merge is authorised on the strength of what was accepted before it: a completed
worker result, passed checks and an accepting review, all for one pull request and
one head, and a recorded defect if the review deferred a finding.  The run state
only holds the phase and the authorised target, so this file ties both to the
events of the run.

* `Grounded`, `Evidenced` — what every step keeps of an Issue.
* `Reaches.merge_rests_on_evidence` — **no merge without its evidence**.
* `Reaches.delivery_agrees_with_profile` — the same for acceptance evidence.
-/

namespace AgenticPkm.Builderops

open List Option

variable {hash : Json → String} {S : RunSetup hash}

/-! ### What events establish -/

def IssueRunState.HasFiled (it : IssueRunState) (effectClass : EffectClass) (key : String) :
    Prop :=
  ∃ e ∈ it.effectLedger, e.effectClass = effectClass ∧ e.idempotencyKey = key

structure IssueRunState.AtHead (it : IssueRunState) (pullRequest : ℕ) (head : String) :
    Prop where
  pullRequest_eq : it.authorizedPullRequest = some pullRequest
  head_eq : it.authorizedHeadSha = some head

/-- A completed worker result for the Issue at a head, naming a launch on file. -/
def CompletedWork (it : IssueRunState) (pullRequest : ℕ) (head : String)
    (a : AdmittedEvent hash) : Prop :=
  a.event.eventType = .workerResultRecorded ∧ ∃ result, a.workerResult = some result ∧
    result.issue = it.issue ∧ result.deliveryResult.status = .completed ∧
    result.pullRequestNumber = some pullRequest ∧ result.exactHeadSha = some head ∧
    it.HasFiled .launchWorker result.effectRef.contractId

structure Achieved (it : IssueRunState) (pullRequest : ℕ) (head : String)
    (effectClass : EffectClass) (effect : ReducerEffect) (a : AdmittedEvent hash) : Prop where
  type : a.event.eventType = .effectSucceeded
  effect_eq : a.effect = some effect
  outcome : ∃ outcome, a.event.effectOutcome = some outcome ∧
    outcome.outcomeState = successOutcomeByEffect effectClass
  class_eq : effect.effectClass = effectClass
  issue_eq : effect.issue = it.issue
  pullRequest_eq : effect.pullRequestNumber = some pullRequest
  head_eq : effect.exactHeadSha = some head
  filed : it.HasFiled effectClass effect.idempotencyKey

def PassedChecks (it : IssueRunState) (pullRequest : ℕ) (head : String)
    (a : AdmittedEvent hash) : Prop :=
  ∃ effect, Achieved it pullRequest head .awaitCi effect a

/-- A structured verdict on a head, without a blocking finding. -/
structure Verdict (it : IssueRunState) (pullRequest : ℕ) (head : String) (review : ReviewResult)
    (a : AdmittedEvent hash) : Prop where
  type : a.event.eventType = .reviewResultRecorded
  review_eq : a.reviewResult = some review
  issue_eq : review.issue = it.issue
  pullRequest_eq : review.pullRequestNumber = pullRequest
  head_eq : review.exactHeadSha = head
  unblocked : ∀ finding ∈ review.findings, finding.severity ≠ .p0 ∧ finding.severity ≠ .p1 ∧
    finding.protectedRisk = false ∧ finding.falseGreen = false

/-- A verdict that defers exactly one P2 finding, under exactly one registry ref. -/
structure Defers (review : ReviewResult) (finding : ReviewFinding) (registryRef : String) :
    Prop where
  disposition : review.disposition = .acceptWithRisk
  finding_eq : review.findings.filter (fun f => f.severity == .p2) = [finding]
  registry_eq : review.knownDefectRefs = [registryRef]

/-- The durable record of a finding under a registry ref. -/
def RecordedDefect (it : IssueRunState) (pullRequest : ℕ) (head registryRef findingHash : String)
    (a : AdmittedEvent hash) : Prop :=
  ∃ effect, Achieved it pullRequest head .recordKnownDefect effect a ∧
    effect.knownDefectRegistryRef = some registryRef ∧
    effect.knownDefectFindingHash = some findingHash

/-- What authorises a merge: completed work, passed checks and a verdict, in this
order, where the verdict accepts, or defers a finding that has been recorded
since. -/
def MergeEvidence (it : IssueRunState) (pullRequest : ℕ) (head : String)
    (log : List (AdmittedEvent hash)) : Prop :=
  (∃ review, review.disposition = .accept ∧
    InOrder [CompletedWork it pullRequest head, PassedChecks it pullRequest head,
      Verdict it pullRequest head review] log) ∨
  (∃ review finding registryRef, Defers review finding registryRef ∧
    InOrder [CompletedWork it pullRequest head, PassedChecks it pullRequest head,
      Verdict it pullRequest head review,
      RecordedDefect it pullRequest head registryRef (hash finding.toJson)] log)

/-! ### Growing ledgers -/

/-- The later state of the Issue has everything on file that the earlier one has. -/
structure IssueRunState.Extends (it it' : IssueRunState) : Prop where
  issue_eq : it'.issue = it.issue
  filed : ∀ effectClass key, it.HasFiled effectClass key → it'.HasFiled effectClass key

variable {it it' : IssueRunState} {ps : List EffectProposal} {a : AdmittedEvent hash} {w : ℕ}
  {i : RunInput hash} {kind : AcceptanceEvidenceKind} {effect : ReducerEffect}

theorem IssueMove.extends (hit : it.Coherent S) (h : IssueMove S w i it it' ps) :
    it.Extends it' where
  issue_eq := h.frame.1
  filed := by
    rintro effectClass key ⟨e, he, hcls, hk⟩
    obtain ⟨e', he', hsame, -⟩ := h.entry_persists hit he
    exact ⟨e', he', hsame.class_eq.trans hcls, hsame.key_eq.trans hk⟩

section Growth

variable (hext : it.Extends it') {p : ℕ} {head : String}

include hext

theorem CompletedWork.extend (h : CompletedWork it p head a) : CompletedWork it' p head a := by
  obtain ⟨type, result, hr, hi, hs, hp, hh, hf⟩ := h
  exact ⟨type, result, hr, hi.trans hext.issue_eq.symm, hs, hp, hh, hext.filed _ _ hf⟩

theorem Achieved.extend {e : EffectClass} {ef : ReducerEffect} (h : Achieved it p head e ef a) :
    Achieved it' p head e ef a :=
  { h with
    issue_eq := h.issue_eq.trans hext.issue_eq.symm
    filed := hext.filed _ _ h.filed }

theorem PassedChecks.extend (h : PassedChecks it p head a) : PassedChecks it' p head a := by
  obtain ⟨effect, heff⟩ := h
  exact ⟨effect, heff.extend hext⟩

theorem Verdict.extend {r : ReviewResult} (h : Verdict it p head r a) : Verdict it' p head r a :=
  { h with issue_eq := h.issue_eq.trans hext.issue_eq.symm }

theorem RecordedDefect.extend {r f : String} (h : RecordedDefect it p head r f a) :
    RecordedDefect it' p head r f a := by
  obtain ⟨effect, heff, hr, hh⟩ := h
  exact ⟨effect, heff.extend hext, hr, hh⟩

end Growth

/-! ### The grounds of a phase -/

/-- What the phase of an Issue says about the events accepted so far. -/
structure Grounded (log : List (AdmittedEvent hash)) (it : IssueRunState) : Prop where
  launch : ∀ key, it.authorizedInvocationEffectKey = some key → it.HasFiled .launchWorker key
  work : it.phase = .awaitingCi → ∃ pullRequest head, it.AtHead pullRequest head ∧
    InOrder [CompletedWork it pullRequest head] log
  checks : it.phase = .awaitingReview → ∃ pullRequest head, it.AtHead pullRequest head ∧
    InOrder [CompletedWork it pullRequest head, PassedChecks it pullRequest head] log
  deferral : it.phase = .recordingDefect → ∃ pullRequest head review finding registryRef,
    it.AtHead pullRequest head ∧ Defers review finding registryRef ∧
      it.pendingKnownDefectRef = some registryRef ∧
      it.pendingKnownDefectFindingHash = some (hash finding.toJson) ∧
      InOrder [CompletedWork it pullRequest head, PassedChecks it pullRequest head,
        Verdict it pullRequest head review] log
  merge : it.phase = .merging → ∃ pullRequest head, it.AtHead pullRequest head ∧
    MergeEvidence it pullRequest head log

section Grounds

variable {log : List (AdmittedEvent hash)} {pr : ℕ} {head : String} {rv : ReviewResult}

theorem inOrder_extend_work (hext : it.Extends it') (h : InOrder [CompletedWork it pr head] log) :
    InOrder [CompletedWork it' pr head] log :=
  h.mono (.cons (fun _ h => h.extend hext) .nil)

theorem inOrder_extend_checks (hext : it.Extends it')
    (h : InOrder [CompletedWork it pr head, PassedChecks it pr head] log) :
    InOrder [CompletedWork it' pr head, PassedChecks it' pr head] log :=
  h.mono (.cons (fun _ h => h.extend hext) (.cons (fun _ h => h.extend hext) .nil))

theorem inOrder_extend_verdict (hext : it.Extends it')
    (h : InOrder [CompletedWork it pr head, PassedChecks it pr head, Verdict it pr head rv] log) :
    InOrder [CompletedWork it' pr head, PassedChecks it' pr head, Verdict it' pr head rv] log :=
  h.mono (.cons (fun _ h => h.extend hext) (.cons (fun _ h => h.extend hext)
    (.cons (fun _ h => h.extend hext) .nil)))

theorem MergeEvidence.extend (hext : it.Extends it') (h : MergeEvidence it pr head log)
    (more : List (AdmittedEvent hash)) : MergeEvidence it' pr head (log ++ more) := by
  rcases h with ⟨rv, ha, ho⟩ | ⟨rv, finding, registryRef, hd, ho⟩
  · exact .inl ⟨rv, ha, (inOrder_extend_verdict hext ho).append more⟩
  · refine .inr ⟨rv, finding, registryRef, hd, (ho.mono ?_).append more⟩
    exact .cons (fun _ h => h.extend hext) (.cons (fun _ h => h.extend hext)
      (.cons (fun _ h => h.extend hext) (.cons (fun _ h => h.extend hext) .nil)))

/-- In a phase that rests on nothing, only the launch has to be on file. -/
theorem Grounded.of_phase
    (hl : ∀ key, it.authorizedInvocationEffectKey = some key → it.HasFiled .launchWorker key)
    (hp : it.phase ≠ .awaitingCi ∧ it.phase ≠ .awaitingReview ∧
      it.phase ≠ .recordingDefect ∧ it.phase ≠ .merging) : Grounded log it :=
  ⟨hl, fun h => absurd h hp.1, fun h => absurd h hp.2.1,
    fun h => absurd h hp.2.2.1, fun h => absurd h hp.2.2.2⟩

/-- The parts of an Issue that its grounds speak about, apart from its ledger. -/
structure IssueRunState.SameGrounds (it it' : IssueRunState) : Prop where
  phase_eq : it'.phase = it.phase
  pullRequest_eq : it'.authorizedPullRequest = it.authorizedPullRequest
  head_eq : it'.authorizedHeadSha = it.authorizedHeadSha
  invocation_eq : it'.authorizedInvocationEffectKey = it.authorizedInvocationEffectKey
  registry_eq : it'.pendingKnownDefectRef = it.pendingKnownDefectRef
  finding_eq : it'.pendingKnownDefectFindingHash = it.pendingKnownDefectFindingHash

theorem IssueRunState.AtHead.of_same (hsame : it.SameGrounds it')
    (h : it.AtHead pr head) : it'.AtHead pr head :=
  ⟨hsame.pullRequest_eq.trans h.pullRequest_eq, hsame.head_eq.trans h.head_eq⟩

theorem Grounded.extend (hext : it.Extends it') (hsame : it.SameGrounds it')
    (h : Grounded log it) (more : List (AdmittedEvent hash)) : Grounded (log ++ more) it' where
  launch := by
    intro key hk
    rw [hsame.invocation_eq] at hk
    exact hext.filed _ _ (h.launch key hk)
  work := by
    intro hp
    rw [hsame.phase_eq] at hp
    obtain ⟨pr, head, hat, ho⟩ := h.work hp
    exact ⟨pr, head, hat.of_same hsame, (inOrder_extend_work hext ho).append more⟩
  checks := by
    intro hp
    rw [hsame.phase_eq] at hp
    obtain ⟨pr, head, hat, ho⟩ := h.checks hp
    exact ⟨pr, head, hat.of_same hsame, (inOrder_extend_checks hext ho).append more⟩
  deferral := by
    intro hp
    rw [hsame.phase_eq] at hp
    obtain ⟨pr, head, rv, f, r, hat, hd, hr, hh, ho⟩ := h.deferral hp
    exact ⟨pr, head, rv, f, r, hat.of_same hsame, hd,
      hsame.registry_eq.trans hr, hsame.finding_eq.trans hh,
      (inOrder_extend_verdict hext ho).append more⟩
  merge := by
    intro hp
    rw [hsame.phase_eq] at hp
    obtain ⟨pr, head, hat, hev⟩ := h.merge hp
    exact ⟨pr, head, hat.of_same hsame, hev.extend hext more⟩

theorem Reports.achieved {ef : ReducerEffect} {outcome : EffectOutcomeEvidence}
    {sb : AuthoritySnapshot}
    (r : Reports S.plan a it ef outcome sb) (hext : it.Extends it')
    (type : a.event.eventType = .effectSucceeded) (t : AtTarget ef it) (hat : it.AtHead pr head) :
    Achieved it' pr head ef.effectClass ef a where
  type := type
  effect_eq := r.effect_eq
  outcome := by
    refine ⟨outcome, r.outcome_eq, ?_⟩
    rw [r.state_eq, type]
    rfl
  class_eq := rfl
  issue_eq := r.own.trans hext.issue_eq.symm
  pullRequest_eq := t.1.trans hat.pullRequest_eq
  head_eq := t.2.trans hat.head_eq
  filed := by
    obtain ⟨e, he, hk, hcls⟩ := r.ledgered
    exact hext.filed _ _ ⟨e, he, hcls, hk⟩

theorem verdict_of_review (result_eq : a.reviewResult = some rv)
    (type : a.event.eventType = .reviewResultRecorded) (own : rv.issue = it.issue)
    (hext : it.Extends it') (unblocked : rv.findings.any ReviewFinding.isBlocking = false) :
    Verdict it' rv.pullRequestNumber rv.exactHeadSha rv a where
  type := type
  review_eq := result_eq
  issue_eq := own.trans hext.issue_eq.symm
  pullRequest_eq := rfl
  head_eq := rfl
  unblocked := by
    intro f hf
    have hcl := List.any_eq_false.mp unblocked f hf
    simpa [ReviewFinding.isBlocking, and_assoc] using hcl

theorem Grounded.inOrder_verdict (hg : Grounded log it)
    (hext : it.Extends it') (phase : it.phase = .awaitingReview)
    (hat : it.AtHead rv.pullRequestNumber rv.exactHeadSha)
    (hv : Verdict it' rv.pullRequestNumber rv.exactHeadSha rv a) :
    InOrder [CompletedWork it' rv.pullRequestNumber rv.exactHeadSha,
      PassedChecks it' rv.pullRequestNumber rv.exactHeadSha,
      Verdict it' rv.pullRequestNumber rv.exactHeadSha rv] (log ++ [a]) := by
  obtain ⟨_, _, hat', ho⟩ := hg.checks phase
  cases hat'.pullRequest_eq.symm.trans hat.pullRequest_eq
  cases hat'.head_eq.symm.trans hat.head_eq
  exact (inOrder_extend_checks hext ho).snoc hv

/-- The success of an effect moves the grounds to those of the next phase. -/
theorem Grounded.outcome {ef : ReducerEffect} {next : EffectClass}
    {outcome : EffectOutcomeEvidence} {sb : AuthoritySnapshot} (hg : Grounded log it)
    (r : Reports S.plan a it ef outcome sb) (type : a.event.eventType = .effectSucceeded)
    (step : OutcomeStep ef.effectClass it.phase it'.phase next) (t : AtTarget ef it)
    (defect : ef.effectClass = .recordKnownDefect →
      ef.knownDefectRegistryRef = it.pendingKnownDefectRef ∧
        ef.knownDefectFindingHash = it.pendingKnownDefectFindingHash)
    (hext : it.Extends it') (hto : ∀ {pr head}, it.AtHead pr head → it'.AtHead pr head)
    (hl : ∀ key, it'.authorizedInvocationEffectKey = some key → it'.HasFiled .launchWorker key) :
    Grounded (log ++ [a]) it' := by
  generalize hcls : ef.effectClass = effectClass at step
  generalize hbef : it.phase = before at step
  generalize hph : it'.phase = phase at step
  -- the checks and the recorded defect are grounds of the next phase, the others are not
  cases step with
  | checks =>
    obtain ⟨pr, head, hat, ho⟩ := hg.work hbef
    have hach := r.achieved hext type t hat
    rw [hcls] at hach
    refine ⟨hl, ?_, fun _ => ⟨pr, head, hto hat, ?_⟩, ?_, ?_⟩
    · simp [hph]
    · exact (inOrder_extend_work hext ho).snoc ⟨ef, hach⟩
    · simp [hph]
    · simp [hph]
  | defect =>
    obtain ⟨pr, head, rv, f, registryRef, hat, hdef, href, hhs, ho⟩ := hg.deferral hbef
    obtain ⟨hreg, hfn⟩ := defect hcls
    have hach := r.achieved hext type t hat
    rw [hcls] at hach
    refine ⟨hl, ?_, ?_, ?_, fun _ => ⟨pr, head, hto hat, .inr ⟨rv, f, registryRef, hdef, ?_⟩⟩⟩
    · simp [hph]
    · simp [hph]
    · simp [hph]
    · exact (inOrder_extend_verdict hext ho).snoc ⟨ef, hach, hreg.trans href, hfn.trans hhs⟩
  | merge | closure =>
    refine .of_phase hl ?_
    simp [hph]

end Grounds

/-- **A handler moves from grounds to grounds.** -/
theorem Handled.grounded {r : List AcceptanceEvidenceKind} {log : List (AdmittedEvent hash)}
    {u : IssueRunState} (h : Handled S.plan r a it u ps) (hext : it.Extends it')
    (heq : it' = { u with effectLedger := it'.effectLedger }) (hg : Grounded log it) :
    Grounded (log ++ [a]) it' := by
  -- the launch stays on file, unless it is this event that names it
  have hlch : u.authorizedInvocationEffectKey = it.authorizedInvocationEffectKey →
      ∀ key, it'.authorizedInvocationEffectKey = some key → it'.HasFiled .launchWorker key := by
    intro hsame key hkey
    rw [heq] at hkey
    exact hext.filed _ _ (hg.launch key (hsame.symm.trans hkey))
  cases h with
  | claimSucceeded | workerBlocked | reviewBlocked | delivered | unmet | effectFailed | ciFailed
  | contractDrift =>
    -- the phase after it rests on nothing
    refine .of_phase (hlch rfl) ?_
    rw [heq]
    simp [afterOutcome]
  | workerLaunched _ _ _ report _ _ class_eq =>
    refine .of_phase ?_ ?_
    · intro key hkey
      rw [heq] at hkey
      cases hkey
      obtain ⟨e, he, hkey, hcls⟩ := report.ledgered
      exact hext.filed _ _ ⟨e, he, hcls.trans class_eq, hkey⟩
    · rw [heq]
      simp
  | reviewRecorded | authorityChanged =>
    exact hg.extend hext (by rw [heq]; exact ⟨rfl, rfl, rfl, rfl, rfl, rfl⟩) [a]
  | workerCompleted result _ pullRequest head result_eq _ _ own phase type launch status
      pullRequest_eq head_eq =>
    -- the work is the first of the grounds
    have hat : it'.AtHead pullRequest head := by
      rw [heq]
      exact ⟨rfl, rfl⟩
    have hwr : CompletedWork it' pullRequest head a :=
      ⟨type, result, result_eq, own.trans hext.issue_eq.symm, status, pullRequest_eq, head_eq,
        hext.filed _ _ (hg.launch _ launch)⟩
    have hph : it'.phase = .awaitingCi := by rw [heq]
    refine ⟨hlch rfl, fun _ => ⟨pullRequest, head, hat, (inOrder_nil log).snoc hwr⟩, ?_, ?_,
      ?_⟩ <;> simp [hph]
  | outcome _ outcome _ phase _ report type step target defect =>
    have hph : it'.phase = phase := by
      rw [heq]
      rfl
    refine hg.outcome report type (hph ▸ step) target defect hext ?_ (hlch rfl)
    intro pr head hat
    rw [heq]
    exact ⟨hat.pullRequest_eq, hat.head_eq⟩
  | reviewAccepted result _ result_eq _ _ own phase type pullRequest_eq head_eq disposition
      unblocked =>
    -- the verdict comes after the checks
    have hph : it'.phase = .merging := by rw [heq]
    have hat : it'.AtHead result.pullRequestNumber result.exactHeadSha := by
      rw [heq]
      exact ⟨pullRequest_eq, head_eq⟩
    refine ⟨hlch rfl, ?_, ?_, ?_, fun _ => ⟨_, _, hat, .inl ⟨result, disposition, ?_⟩⟩⟩
    · simp [hph]
    · simp [hph]
    · simp [hph]
    · exact hg.inOrder_verdict hext phase ⟨pullRequest_eq, head_eq⟩
        (verdict_of_review result_eq type own hext unblocked)
  | reviewDeferred result _ finding registryRef result_eq _ _ own phase type pullRequest_eq
      head_eq disposition unblocked deferred registry =>
    have hph : it'.phase = .recordingDefect := by rw [heq]
    have hat : it'.AtHead result.pullRequestNumber result.exactHeadSha := by
      rw [heq]
      exact ⟨pullRequest_eq, head_eq⟩
    refine ⟨hlch rfl, ?_, ?_, fun _ => ⟨_, _, result, finding, registryRef, hat,
      ⟨disposition, deferred, registry⟩, ?_, ?_, ?_⟩, ?_⟩
    · simp [hph]
    · simp [hph]
    · rw [heq]
    · rw [heq]
    · exact hg.inOrder_verdict hext phase ⟨pullRequest_eq, head_eq⟩
        (verdict_of_review result_eq type own hext unblocked)
    · simp [hph]

/-- **A move goes from grounds to grounds.** -/
theorem IssueMove.grounded {log : List (AdmittedEvent hash)} (hit : it.Coherent S)
    (h : IssueMove S w i it it' ps) (hg : Grounded log it) : Grounded (log ++ i.events) it' := by
  have hext := h.extends hit
  cases h with
  | idle | resumedClaim | resumedPending => exact hg.extend hext ⟨rfl, rfl, rfl, rfl, rfl, rfl⟩ _
  | opened =>
    exact .of_phase (fun key hk => hext.filed _ _ (hg.launch key hk)) (by
      simp [IssueRunState.authorized])
  | excepted _ _ kind =>
    exact .of_phase (fun key hk => hext.filed _ _ (hg.launch key hk)) (by
      cases kind <;> simp [exceptionTarget])
  | terminated _ _ _ _ terminal =>
    exact .of_phase (fun key hk => hext.filed _ _ (hg.launch key hk)) (by
      rcases terminal with rfl | rfl <;> simp)
  | handled _ _ _ _ h => exact h.grounded hext (authorizedAll_eq _ _ _) hg

namespace RunSetup

theorem Reaches.grounded {h : List (RunStep hash)} {s : DeliveryRunState}
    (hr : S.Reaches h s) : ∀ it ∈ s.issues, Grounded (acceptedEvents h) it := by
  refine issue_induct (P := fun log it => Grounded log it) (fun _ _ _ hg => hg) ?_ ?_ hr
  · intro it hf
    have hinv : it.authorizedInvocationEffectKey = none :=
      congrArg IssueRunState.authorizedInvocationEffectKey hf.untouched
    exact .of_phase (by simp [hinv]) (by simp [hf.phase_eq])
  · intro h s i r it it' ps _ hs _ hit hg hm
    exact hm.grounded (hs.coherent it hit) hg

/-- **No merge without its evidence.**  Whenever a step of a run proposes a merge, the
proposal names a pull request and a head, and the events accepted up to and
including that step contain, in this order and all for that Issue, pull request
and head, completed work under a launch on file, passed checks of a wait on file,
and an accepting verdict, or a verdict that defers one finding followed by the
record of that finding. -/
theorem Reaches.merge_rests_on_evidence {h : List (RunStep hash)} {st : RunStep hash}
    {s : DeliveryRunState} (hrun : S.Reaches (h ++ [st]) s) :
    ∀ p ∈ st.result.effects, p.effectClass = .mergePullRequest →
      ∃ it ∈ s.issues, it.issue = p.issue ∧
        ∃ pullRequest head, p.pullRequestNumber = some pullRequest ∧
          p.exactHeadSha = some head ∧
          MergeEvidence it pullRequest head (acceptedEvents (h ++ [st])) := by
  obtain ⟨hbef, hadm, hstep⟩ := Machine.Run.of_append hrun
  have hbef : S.Reaches h st.before := hbef
  have hs := hbef.inv
  obtain rfl := hrun.state_unique (Machine.Run.step hbef hadm hstep)
  intro p hp hcls
  rcases step_cases hs hadm hstep with ⟨reason, href⟩ | hacc
  · rw [href] at hp
    cases hp
  · obtain ⟨it, hit, it', hit', ps, hps, hmv⟩ := hacc.exists_move hp
    have hcoh := hs.coherent it hit
    obtain ⟨hiss, -⟩ := (hmv.ledgerWrite hcoh).of_mem hps
    have hph : it'.phase = .merging := by
      rcases hmv.awaited hcoh hps with hph | ⟨c, -, -, -, -, -, rfl⟩
      · rw [hph, hcls]
        rfl
      · cases hcls
    obtain ⟨pullRequest, head, hat, hev⟩ := (hrun.grounded it' hit').merge hph
    have hstg := staged_of_run (fun _ _ _ hg => hg) hbef it hit
    obtain ⟨hpl, hhd⟩ := (hmv.bound hcoh hstg hps).1 (by rw [hcls]; decide)
    exact ⟨it', hit', hmv.frame.1.trans hiss.symm, pullRequest, head,
      hpl.trans hat.pullRequest_eq, hhd.trans hat.head_eq, hev⟩

/-- The two runs that the witnesses below are about. -/
theorem merged_and_delivered :
    (∃ x, Demo.reviewedRun Demo.verdict = .ok x ∧ ∃ st ∈ x.history.getLast?,
      ∃ p ∈ st.result.effects, p.effectClass = .mergePullRequest ∧ p.issue = Demo.issue 1 ∧
        p.pullRequestNumber = some 7 ∧ p.exactHeadSha = some Demo.head) ∧
    ∃ x, Demo.deliveredRun = .ok x ∧
      ∃ it ∈ x.state.issues, it.issue = Demo.issue 1 ∧ it.phase = .delivered := by
  decide +kernel

/-- An accepting verdict proposes the merge of the pull request it is about, which
rests on the work, the checks and the verdict. -/
theorem merge_rests_on_evidence_of_reviewedRun :
    ∃ x, Demo.reviewedRun Demo.verdict = .ok x ∧ ∃ it ∈ x.state.issues,
      it.issue = Demo.issue 1 ∧ MergeEvidence it 7 Demo.head (acceptedEvents x.history) := by
  obtain ⟨x, hx, st, hst, p, hp, hcls, hiss, hpl, hh⟩ := merged_and_delivered.1
  obtain ⟨h, hhs, -⟩ := Session.last_step hst
  have hrun : Demo.setup.ReachesLogged (h ++ [st]) x.state := hhs ▸ x.reached
  obtain ⟨it, hit, hi, pullRequest, head, hpl', hh', hev⟩ :=
    Reaches.merge_rests_on_evidence hrun.reachesOrdered.reaches p hp hcls
  cases hpl'.symm.trans hpl
  cases hh'.symm.trans hh
  rw [← hhs] at hev
  exact ⟨x, hx, it, hit, hi.trans hiss, hev⟩

end RunSetup

/-! ### Acceptance evidence -/

/-- The event stands behind a kind of acceptance evidence of the Issue at a head. -/
def Backs (it : IssueRunState) (pullRequest : ℕ) (head : String) :
    AcceptanceEvidenceKind → AdmittedEvent hash → Prop
  | .requiredChecksGreen, a => ∃ effect, Achieved it pullRequest head .awaitCi effect a
  | .reviewAccepted, a => ∃ review, Verdict it pullRequest head review a ∧
      (review.disposition = .accept ∨ review.disposition = .acceptWithRisk)
  | .knownDefectRecorded, a =>
      ∃ effect, Achieved it pullRequest head .recordKnownDefect effect a
  | .pullRequestMerged, a => ∃ effect, Achieved it pullRequest head .mergePullRequest effect a
  | .issueClosed, a => ∃ effect, Achieved it pullRequest head .closeIssue effect a

/-- What the acceptance evidence of an Issue says about the events accepted so far. -/
structure Evidenced (required : List AcceptanceEvidenceKind) (log : List (AdmittedEvent hash))
    (it : IssueRunState) : Prop where
  backed : ∀ kind ∈ it.acceptanceEvidence, ∃ pullRequest head, it.AtHead pullRequest head ∧
    ∃ a ∈ log, Backs it pullRequest head kind a
  early : it.phase.reached ≤ 2 → it.acceptanceEvidence = []
  met : it.phase = .delivered → ∀ kind ∈ required, kind ∈ it.acceptanceEvidence

theorem Backs.extend (hext : it.Extends it') {p : ℕ} {head : String}
    (h : Backs it p head kind a) : Backs it' p head kind a := by
  cases kind with
  | reviewAccepted =>
    obtain ⟨review, hv, hd⟩ := h
    exact ⟨review, hv.extend hext, hd⟩
  | issueClosed | knownDefectRecorded | pullRequestMerged | requiredChecksGreen =>
    obtain ⟨effect, heff⟩ := h
    exact ⟨effect, heff.extend hext⟩

theorem Achieved.backs {p : ℕ} {head : String} {e : EffectClass} (h : Achieved it p head e effect a)
    (hk : acceptanceEvidenceByEffectOutcome (successOutcomeByEffect e) = some kind) :
    Backs it p head kind a := by
  cases e <;> cases hk <;> exact ⟨effect, h⟩

/-- A validated effect of a class that acts on a pull request names it and a head. -/
theorem ReducerEffect.target_of_validate (h : effect.validate hash = .ok ())
    (hcls : effect.effectClass.requiresPullRequest) :
    ∃ pullRequest head, effect.pullRequestNumber = some pullRequest ∧
      effect.exactHeadSha = some head := by
  have hs := ReducerEffect.sound_of_validate h
  obtain ⟨pullRequest, hp⟩ := isSome_iff_exists.mp (hs.pull_some.trans hcls)
  obtain ⟨head, hh⟩ := isSome_iff_exists.mp (hs.head_some.trans hcls)
  exact ⟨pullRequest, head, hp, hh⟩

section Evidence

variable {rq : List AcceptanceEvidenceKind} {log more : List (AdmittedEvent hash)}

theorem Evidenced.extend (hext : it.Extends it') (h : Evidenced rq log it)
    (hsub : ∀ kind ∈ it'.acceptanceEvidence, kind ∈ it.acceptanceEvidence)
    (hpl : it'.authorizedPullRequest = it.authorizedPullRequest)
    (hhd : it'.authorizedHeadSha = it.authorizedHeadSha)
    (hph : it.phase.reached ≤ it'.phase.reached)
    (hdel : it'.phase = .delivered → ∀ kind ∈ rq, kind ∈ it'.acceptanceEvidence)
    (more : List (AdmittedEvent hash)) : Evidenced rq (log ++ more) it' where
  backed := by
    intro kind hkd
    obtain ⟨pullRequest, head, hat, a, ha, hbc⟩ := h.backed kind (hsub kind hkd)
    exact ⟨pullRequest, head, ⟨hpl.trans hat.pullRequest_eq, hhd.trans hat.head_eq⟩, a,
      mem_append_left _ ha, hbc.extend hext⟩
  early := by
    intro hrch
    have hno := h.early (hph.trans hrch)
    refine eq_nil_iff_forall_not_mem.mpr fun kind hkd => ?_
    have hmem := hsub kind hkd
    rw [hno] at hmem
    cases hmem
  met := hdel

theorem Evidenced.add (hext : it.Extends it') (h : Evidenced rq log it)
    (hp : it'.authorizedPullRequest = it.authorizedPullRequest)
    (hh : it'.authorizedHeadSha = it.authorizedHeadSha)
    (hnew : ∀ kind ∈ it'.acceptanceEvidence, kind ∈ it.acceptanceEvidence ∨
      ∃ pullRequest head, it.AtHead pullRequest head ∧ Backs it' pullRequest head kind a)
    (hl : 2 < it'.phase.reached)
    (hdel : it'.phase = .delivered → ∀ kind ∈ rq, kind ∈ it'.acceptanceEvidence) :
    Evidenced rq (log ++ [a]) it' where
  backed := by
    intro kind hk
    rcases hnew kind hk with hold | ⟨pullRequest, head, hat, hbc⟩
    · obtain ⟨pullRequest, head, hat, b, hb, hbc⟩ := h.backed kind hold
      exact ⟨pullRequest, head, ⟨hp.trans hat.pullRequest_eq, hh.trans hat.head_eq⟩, b,
        mem_append_left _ hb, hbc.extend hext⟩
    · exact ⟨pullRequest, head, ⟨hp.trans hat.pullRequest_eq, hh.trans hat.head_eq⟩, a,
        mem_append_right _ mem_cons_self, hbc⟩
  early := fun hrch => absurd hrch (by omega)
  met := hdel

variable {ec next : EffectClass} {af b : RunPhase}

theorem Reports.backs {e : ReducerEffect} {o : EffectOutcomeEvidence} {sb : AuthoritySnapshot}
    (r : Reports S.plan a it e o sb) (hext : it.Extends it')
    (type : a.event.eventType = .effectSucceeded) (t : AtTarget e it)
    (hk : kind ∈ withEvidence it (acceptanceEvidenceByEffectOutcome o.outcomeState).toList) :
    kind ∈ it.acceptanceEvidence ∨
      ∃ pullRequest head, it.AtHead pullRequest head ∧ Backs it' pullRequest head kind a := by
  rw [withEvidence, mem_sortedSet, mem_append, mem_toList] at hk
  rcases hk with hk | hk
  · exact .inl hk
  · right
    have hs : o.outcomeState = successOutcomeByEffect e.effectClass := by
      rw [r.state_eq, type]
      rfl
    rw [hs] at hk
    have hcls : e.effectClass.requiresPullRequest := by
      cases hc : e.effectClass <;> rw [hc] at hk <;> first | rfl | cases hk
    obtain ⟨pullRequest, head, hp, hh⟩ := ReducerEffect.target_of_validate r.valid hcls
    have hat : it.AtHead pullRequest head := ⟨t.1.symm.trans hp, t.2.symm.trans hh⟩
    exact ⟨pullRequest, head, hat, (r.achieved hext type t hat).backs hk⟩

theorem Evidenced.report {e : ReducerEffect} {o : EffectOutcomeEvidence} {sb : AuthoritySnapshot}
    {l : List EffectLedgerEntry} {reason : Option String} (h : Evidenced rq log it)
    (hext : it.Extends it')
    (heq : it' = { afterOutcome af e o sb it with effectLedger := l, blockedReason := reason })
    (r : Reports S.plan a it e o sb) (type : a.event.eventType = .effectSucceeded)
    (t : AtTarget e it) (hl : 2 < af.reached)
    (hdel : af = .delivered → ∀ kind ∈ rq, kind ∈ it'.acceptanceEvidence) :
    Evidenced rq (log ++ [a]) it' := by
  subst heq
  exact h.add hext rfl rfl (fun _ => r.backs hext type t) hl hdel

theorem backs_of_verdict {review : ReviewResult}
    (hv : Verdict it' review.pullRequestNumber review.exactHeadSha review a)
    (hp : it.authorizedPullRequest = some review.pullRequestNumber)
    (hh : it.authorizedHeadSha = some review.exactHeadSha)
    (hd : review.disposition = .accept ∨ review.disposition = .acceptWithRisk)
    (hk : kind ∈ withEvidence it [.reviewAccepted]) :
    kind ∈ it.acceptanceEvidence ∨
      ∃ pullRequest head, it.AtHead pullRequest head ∧ Backs it' pullRequest head kind a := by
  rw [withEvidence, mem_sortedSet, mem_append, mem_singleton] at hk
  rcases hk with hk | rfl
  · exact .inl hk
  · exact .inr ⟨_, _, ⟨hp, hh⟩, review, hv, hd⟩

theorem OutcomeStep.late (h : OutcomeStep ec b af next) : 2 < af.reached := by
  cases h <;> decide

theorem OutcomeStep.ne_delivered (h : OutcomeStep ec b af next) : af ≠ .delivered := by
  cases h <;> decide

/-- **A handler adds only evidence that its event backs.** -/
theorem Handled.evidenced {u : IssueRunState} (h : Handled S.plan rq a it u ps)
    (hext : it.Extends it') (heq : it' = { u with effectLedger := it'.effectLedger })
    (hr : it.phase.reached ≤ it'.phase.reached) (hg : Evidenced rq log it) :
    Evidenced rq (log ++ [a]) it' := by
  cases h with
  | claimSucceeded | workerLaunched | workerBlocked | reviewBlocked | effectFailed
  | contractDrift => refine hg.extend hext ?_ ?_ ?_ hr ?_ [a] <;> rw [heq] <;> simp
  | reviewRecorded | authorityChanged =>
    refine hg.extend hext ?_ ?_ ?_ hr ?_ [a]
    · rw [heq]
      exact fun _ hk => hk
    · rw [heq]
    · rw [heq]
    · rw [heq]
      exact hg.met
  | ciFailed =>
    refine hg.extend hext ?_ ?_ ?_ hr ?_ [a]
    · rw [heq]
      exact fun _ hk => mem_of_mem_filter hk
    · rw [heq]
    · rw [heq]
    · rw [heq]
      simp
  | workerCompleted _ _ _ _ _ _ _ _ phase =>
    -- nothing has been accepted for this Issue before its first head
    have hn : it.acceptanceEvidence = [] := hg.early (by rw [phase]; decide)
    have hn' : it'.acceptanceEvidence = [] := by
      rw [heq]
      simp [headFreeEvidence, hn]
    refine ⟨?_, fun _ => hn', ?_⟩
    · simp [hn']
    · rw [heq]
      simp
  | outcome _ _ _ _ _ report type step target =>
    refine hg.report hext heq report type target step.late ?_
    exact fun hp => absurd hp step.ne_delivered
  | reviewAccepted result _ result_eq _ _ own phase type pullRequest_eq head_eq disposition
      unblocked
  | reviewDeferred _ _ _ _ result_eq _ _ own _ type pullRequest_eq head_eq disposition
      unblocked =>
    refine hg.add hext ?_ ?_ ?_ ?_ ?_
    · rw [heq]
    · rw [heq]
    · intro kind hk
      rw [heq] at hk
      exact backs_of_verdict (verdict_of_review result_eq type own hext unblocked) pullRequest_eq
        head_eq (by simp [disposition]) hk
    · rw [heq]
      simp [RunPhase.reached]
    · rw [heq]
      simp
  | delivered _ _ _ report type _ _ target met =>
    refine hg.report hext heq report type target (by simp [RunPhase.reached]) ?_
    intro _ kind hk
    rw [heq]
    simp [afterOutcome, withEvidence, met kind hk]
  | unmet _ _ _ _ report type _ _ target =>
    exact hg.report hext heq report type target (by simp [afterOutcome, RunPhase.reached])
      (by simp [afterOutcome])

/-- **Evidence stays backed** whatever move an Issue makes. -/
theorem IssueMove.evidenced (hit : it.Coherent S) (h : IssueMove S w i it it' ps)
    (hg : Evidenced S.profile.requiredEvidence log it) :
    Evidenced S.profile.requiredEvidence (log ++ i.events) it' := by
  have hext := h.extends hit
  have hr := h.reached_le
  cases h with
  | idle | resumedClaim | resumedPending =>
    exact hg.extend hext (fun _ hk => hk) rfl rfl hr hg.met _
  | opened =>
    refine hg.extend hext (fun _ hk => hk) rfl rfl hr ?_ _
    simp [IssueRunState.authorized]
  | excepted _ _ kind =>
    refine hg.extend hext (fun _ hk => hk) rfl rfl hr ?_ _
    cases kind <;> simp [exceptionTarget]
  | terminated _ _ _ _ terminal =>
    refine hg.extend hext (fun _ hk => hk) rfl rfl hr ?_ _
    rcases terminal with rfl | rfl <;> simp
  | handled _ _ _ _ h => exact h.evidenced hext (authorizedAll_eq _ _ _) hr hg

end Evidence

namespace RunSetup

variable {s : DeliveryRunState}

theorem Reaches.evidenced {h : List (RunStep hash)} (hr : S.Reaches h s) :
    ∀ it ∈ s.issues, Evidenced S.profile.requiredEvidence (acceptedEvents h) it := by
  refine issue_induct (P := fun log it => Evidenced S.profile.requiredEvidence log it)
    (fun _ _ _ hg => hg) ?_ ?_ hr
  · intro it hf
    have hn : it.acceptanceEvidence = [] := congrArg IssueRunState.acceptanceEvidence hf.untouched
    refine ⟨?_, fun _ => hn, ?_⟩
    · simp [hn]
    · simp [hf.phase_eq]
  · intro h s i r it it' ps _ hs _ hit hg hm
    exact hm.evidenced (hs.coherent it hit) hg

theorem Inv.resolveTerminalDelivery_eq (hs : S.Inv s) {it : IssueRunState} (hit : it ∈ s.issues) :
    resolveTerminalDelivery hash s it.issue S.profile =
      .ok ((S.profile.unmetEvidence it.acceptanceEvidence).isEmpty && it.phase == .delivered,
        S.profile.unmetEvidence it.acceptanceEvidence) := by
  have hf : s.issueState it.issue.scopeKey = some it := hs.keyed.find?_eq_some_iff.mpr ⟨hit, rfl⟩
  simp [resolveTerminalDelivery, hs.profile_eq, hf, pure, Except.pure]

/-- **Terminal delivery agrees with the acceptance profile.**  In every reachable
state a delivered Issue has all the evidence its profile requires; every kind of
evidence an Issue has is backed by an accepted event at its authorised pull request
and head; and terminal delivery, asked with the bound profile, answers yes exactly
for the delivered Issues. -/
theorem Reaches.delivery_agrees_with_profile {h : List (RunStep hash)} {s : DeliveryRunState}
    (hrun : S.Reaches h s) :
    ∀ it ∈ s.issues,
      (it.phase = .delivered → ∀ kind ∈ S.profile.requiredEvidence, kind ∈ it.acceptanceEvidence) ∧
      (∀ kind ∈ it.acceptanceEvidence, ∃ pullRequest head, it.AtHead pullRequest head ∧
        ∃ a ∈ acceptedEvents h, Backs it pullRequest head kind a) ∧
      ∃ unmet, resolveTerminalDelivery hash s it.issue S.profile =
        .ok (decide (it.phase = .delivered), unmet) := by
  intro it hit
  have hev := hrun.evidenced it hit
  refine ⟨hev.met, hev.backed, S.profile.unmetEvidence it.acceptanceEvidence, ?_⟩
  rw [hrun.inv.resolveTerminalDelivery_eq hit]
  by_cases hp : it.phase = .delivered
  · -- nothing required is unmet once the phase is reached
    have hu : S.profile.unmetEvidence it.acceptanceEvidence = [] := by
      simpa [DeliveryAcceptanceProfile.unmetEvidence] using hev.met hp
    simp [hp, hu]
  · simp [hp]

/-- A delivered Issue has all its evidence, and terminal delivery says so. -/
theorem delivery_agrees_of_deliveredRun :
    ∃ x, Demo.deliveredRun = .ok x ∧ ∃ it ∈ x.state.issues, it.issue = Demo.issue 1 ∧
      (∀ kind ∈ Demo.profile.requiredEvidence, kind ∈ it.acceptanceEvidence) ∧
      ∃ unmet, resolveTerminalDelivery Demo.digest x.state (Demo.issue 1) Demo.profile =
        .ok (true, unmet) := by
  obtain ⟨x, hx, it, hit, hi, hd⟩ := merged_and_delivered.2
  obtain ⟨hm, -, unmet, hr⟩ :=
    Reaches.delivery_agrees_with_profile x.reached.reachesOrdered.reaches it hit
  rw [hi, decide_eq_true hd] at hr
  exact ⟨x, hx, it, hit, hi, hm hd, unmet, hr⟩

end RunSetup

end AgenticPkm.Builderops
