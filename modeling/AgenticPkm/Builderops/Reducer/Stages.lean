import AgenticPkm.Builderops.Reducer.Invariant

/-!
# The stages of a delivery

Every class of effects has a place in the course of a delivery, and an active phase
says how far a delivery has come.  A ledger never runs ahead of its phase, so when
a handler proposes the next effect, none of its class has been filed before, and
what the earlier effects are bound to does not change any more.
-/

namespace AgenticPkm.Builderops

variable {hash : Json → String} {S : RunSetup hash}

/-- The place of an effect class in a delivery. -/
def EffectClass.stage : EffectClass → ℕ
  | .claimIssue => 0
  | .launchWorker => 1
  | .awaitCi => 2
  | .requestReview => 3
  | .recordKnownDefect => 4
  | .mergePullRequest => 5
  | .closeIssue => 6
  | .recordDeliveryReceipt => 7

/-- How far a delivery has come: the effects of earlier places may be filed. -/
def RunPhase.reached : RunPhase → ℕ
  | .admitted | .claiming => 1
  | .launching | .working => 2
  | .awaitingCi => 3
  | .awaitingReview => 4
  | .recordingDefect => 5
  | .merging => 6
  | .closing => 7
  | _ => 8

theorem reached_awaitedPhase (e : EffectClass) : e.awaitedPhase.reached = e.stage + 1 := by
  cases e <;> rfl

variable {ec next : EffectClass} {pha pha' : RunPhase}

theorem OutcomeStep.stage_next (h : OutcomeStep ec pha pha' next) : next.stage = pha.reached := by
  cases h <;> rfl

theorem OutcomeStep.reached_le (h : OutcomeStep ec pha pha' next) : pha.reached ≤ pha'.reached := by
  cases h <;> decide

/-- The ledger of an Issue is in step with the Issue. -/
structure IssueRunState.Staged (it : IssueRunState) : Prop where
  bound : it.phase.isTerminal = false → ∀ e ∈ it.effectLedger,
    e.effectClass.stage < it.phase.reached
  target : ∀ e ∈ it.effectLedger, ∀ p, e.proposal = some p → 2 ≤ e.effectClass.stage →
    p.pullRequestNumber = it.authorizedPullRequest ∧ p.exactHeadSha = it.authorizedHeadSha
  defect : ∀ e ∈ it.effectLedger, ∀ p, e.proposal = some p →
    e.effectClass = .recordKnownDefect →
      p.knownDefectRegistryRef = it.pendingKnownDefectRef ∧
        p.knownDefectFindingHash = it.pendingKnownDefectFindingHash

section Moves

variable {w : ℕ} {i : RunInput hash} {it it' : IssueRunState} {ps : List EffectProposal}
  {plan : DeliveryPlan} {required : List AcceptanceEvidenceKind} {a : AdmittedEvent hash}
  {u : IssueRunState}

section

variable (h : Handled plan required a it u ps)
include h

theorem Handled.reached_le : it.phase.reached ≤ u.phase.reached := by
  cases h with
  | claimSucceeded _ _ _ _ _ pha | workerLaunched _ _ _ _ _ pha | workerBlocked _ pha
  | workerCompleted _ _ _ _ _ _ _ _ pha | reviewRecorded _ _ _ _ _ pha
  | reviewBlocked _ _ pha | reviewAccepted _ _ _ _ _ _ pha
  | reviewDeferred _ _ _ _ _ _ _ _ pha | delivered _ _ _ _ _ pha | unmet _ _ _ _ _ _ pha
  | ciFailed _ _ _ _ _ pha => simp [pha, RunPhase.reached, afterOutcome]
  | outcome _ _ _ _ _ _ _ step => exact step.reached_le
  | effectFailed | contractDrift =>
    show it.phase.reached ≤ 8
    cases it.phase <;> decide
  | authorityChanged => exact le_rfl

variable {p : EffectProposal}

theorem Handled.reached_le_stage (hp : p ∈ ps) : it.phase.reached ≤ p.effectClass.stage := by
  obtain rfl := h.eq_singleton hp
  cases h with
  | claimSucceeded _ _ _ _ _ pha | workerCompleted _ _ _ _ _ _ _ _ pha
  | reviewAccepted _ _ _ _ _ _ pha | reviewDeferred _ _ _ _ _ _ _ _ pha =>
    simp [pha, RunPhase.reached, EffectClass.stage, launchProposal, awaitProposal,
      targetProposal, defectProposal]
  | outcome _ _ _ _ _ _ _ step => exact step.stage_next.ge

theorem Handled.bound (hp : p ∈ ps) :
    (2 ≤ p.effectClass.stage → p.pullRequestNumber = u.authorizedPullRequest ∧
      p.exactHeadSha = u.authorizedHeadSha) ∧
    (p.effectClass = .recordKnownDefect →
      p.knownDefectRegistryRef = u.pendingKnownDefectRef ∧
        p.knownDefectFindingHash = u.pendingKnownDefectFindingHash) := by
  obtain rfl := h.eq_singleton hp
  cases h with
  | claimSucceeded =>
    exact ⟨fun hs => absurd hs (by simp [launchProposal, EffectClass.stage]), fun hc => by cases hc⟩
  | workerCompleted | reviewAccepted => exact ⟨fun _ => ⟨rfl, rfl⟩, fun hc => by cases hc⟩
  | reviewDeferred => exact ⟨fun _ => ⟨rfl, rfl⟩, fun _ => ⟨rfl, rfl⟩⟩
  | outcome _ _ _ _ _ _ _ step => exact ⟨fun _ => ⟨rfl, rfl⟩, fun hc => absurd hc step.next_ne⟩

/-- The target of an Issue is fixed once its worker has delivered, and its defect
once it has been reviewed. -/
theorem Handled.fixed :
    (2 < it.phase.reached → u.authorizedPullRequest = it.authorizedPullRequest ∧
      u.authorizedHeadSha = it.authorizedHeadSha) ∧
    (4 < it.phase.reached → u.pendingKnownDefectRef = it.pendingKnownDefectRef ∧
      u.pendingKnownDefectFindingHash = it.pendingKnownDefectFindingHash) := by
  cases h with
  | workerCompleted _ _ _ _ _ _ _ _ pha =>
    rw [pha]
    exact ⟨fun h => absurd h (by decide), fun h => absurd h (by decide)⟩
  | reviewDeferred _ _ _ _ _ _ _ _ pha =>
    rw [pha]
    exact ⟨fun _ => ⟨rfl, rfl⟩, fun h => absurd h (by decide)⟩
  | _ => exact ⟨fun _ => ⟨rfl, rfl⟩, fun _ => ⟨rfl, rfl⟩⟩

end

theorem IssueMove.fixed (h : IssueMove S w i it it' ps) :
    (2 < it.phase.reached → it'.authorizedPullRequest = it.authorizedPullRequest ∧
      it'.authorizedHeadSha = it.authorizedHeadSha) ∧
    (4 < it.phase.reached → it'.pendingKnownDefectRef = it.pendingKnownDefectRef ∧
      it'.pendingKnownDefectFindingHash = it.pendingKnownDefectFindingHash) := by
  cases h with
  | handled _ _ u _ h =>
    rw [authorizedAll_eq]
    exact h.fixed
  | _ => exact ⟨fun _ => ⟨rfl, rfl⟩, fun _ => ⟨rfl, rfl⟩⟩

theorem RunPhase.reached_le_eight (ph : RunPhase) : ph.reached ≤ 8 := by
  cases ph <;> decide

theorem IssueMove.reached_le (h : IssueMove S w i it it' ps) :
    it.phase.reached ≤ it'.phase.reached := by
  cases h with
  | idle | resumedClaim | resumedPending => exact le_rfl
  | opened _ _ _ _ pha => simp [IssueRunState.authorized, pha, RunPhase.reached]
  | handled _ _ u _ h =>
    rw [authorizedAll_eq]
    exact h.reached_le
  | excepted _ _ kind =>
    have hend : (exceptionTarget kind).reached = 8 := by cases kind <;> rfl
    exact it.phase.reached_le_eight.trans hend.ge
  | terminated _ _ pha _ terminal =>
    have hend : pha.reached = 8 := by rcases terminal with rfl | rfl <;> rfl
    exact it.phase.reached_le_eight.trans hend.ge

theorem IssueMove.stage_lt (hit : it.Coherent S) (h : IssueMove S w i it it' ps) (hp : p ∈ ps) :
    p.effectClass.stage < it'.phase.reached := by
  rcases h.awaited hit hp with hph | ⟨c, -, -, -, -, hph, rfl⟩
  · rw [hph, reached_awaitedPhase]
    exact Nat.lt_succ_self _
  · rw [hph]
    exact Nat.zero_lt_one

theorem IssueMove.bound (hit : it.Coherent S) (hs : it.Staged)
    (h : IssueMove S w i it it' ps) (hp : p ∈ ps) :
    (2 ≤ p.effectClass.stage → p.pullRequestNumber = it'.authorizedPullRequest ∧
      p.exactHeadSha = it'.authorizedHeadSha) ∧
    (p.effectClass = .recordKnownDefect →
      p.knownDefectRegistryRef = it'.pendingKnownDefectRef ∧
        p.knownDefectFindingHash = it'.pendingKnownDefectFindingHash) := by
  obtain rfl := h.eq_singleton hp
  cases h with
  | opened | resumedClaim =>
    exact ⟨fun hst => absurd hst (by simp [claimProposal, EffectClass.stage]),
      fun hc => by cases hc⟩
  | handled _ _ u _ h =>
    rw [authorizedAll_eq]
    exact h.bound hp
  | resumedPending _ _ _ _ _ _ l =>
    obtain ⟨e, he, hpr, hcls, -, -, hpcl, -⟩ := hit.of_ledgeredProposal l
    rw [hpcl, ← hcls]
    exact ⟨hs.target e he p hpr, hs.defect e he p hpr⟩

/-- **A move keeps an Issue staged.** -/
theorem IssueMove.staged (hit : it.Coherent S) (hstg : it.Staged)
    (h : IssueMove S w i it it' ps) : it'.Staged := by
  by_cases htm : it.phase.isTerminal
  · rw [(h.eq_of_terminal htm).1]
    exact hstg
  rw [Bool.not_eq_true] at htm
  have hbd := hstg.bound htm
  have hle := h.reached_le
  refine ⟨?_, ?_, ?_⟩
  · intro _ e' he'
    rcases h.entry_origin hit he' with ⟨e, he, hsame, -⟩ | ⟨p, hp, rfl⟩
    · have hlt := hbd e he
      rw [hsame.class_eq]
      omega
    · exact h.stage_lt hit hp
  · intro e' he' q hq hst
    rcases h.entry_origin hit he' with ⟨e, he, hsame, -⟩ | ⟨p, hp, rfl⟩
    · -- the entry is of a place that the Issue has passed, so its target is fixed
      rw [hsame.class_eq] at hst
      obtain ⟨hpl, hhd⟩ := h.fixed.1 (lt_of_le_of_lt hst (hbd e he))
      rw [hpl, hhd]
      exact hstg.target e he q (hsame.proposal_eq.symm.trans hq) hst
    · cases hq
      exact (h.bound hit hstg hp).1 hst
  · intro e' he' q hq hcls
    rcases h.entry_origin hit he' with ⟨e, he, hsame, -⟩ | ⟨p, hp, rfl⟩
    · rw [hsame.class_eq] at hcls
      have hlt := hbd e he
      rw [hcls] at hlt
      obtain ⟨href, hhs⟩ := h.fixed.2 hlt
      rw [href, hhs]
      exact hstg.defect e he q (hsame.proposal_eq.symm.trans hq) hcls
    · cases hq
      exact (h.bound hit hstg hp).2 hcls

/-- **What a move proposes is new, or filed, or a claim**: none of its class is in the
ledger, or the very same key is, or it is the claim of an admitted Issue. -/
theorem IssueMove.new_or_filed (hit : it.Coherent S) (hs : it.Staged)
    (h : IssueMove S w i it it' ps) (hp : p ∈ ps) :
    (∀ e ∈ it.effectLedger, e.effectClass ≠ p.effectClass) ∨
    (∃ e ∈ it.effectLedger, e.effectClass = p.effectClass ∧
      e.idempotencyKey = (identityOf hash S.initial p).idempotencyKey) ∨
    (p = claimProposal it ∧ it.phase = .admitted ∧ it.waveIndex = w ∧
      ((∃ a, i = .event a ∧ a.signal.isTick) ∨ ∃ c, i = .command c ∧ c.command = .resume)) := by
  obtain rfl := h.eq_singleton hp
  cases h with
  | opened a _ tick _ pha wave => exact .inr (.inr ⟨rfl, pha, wave, .inl ⟨a, rfl, tick⟩⟩)
  | resumedClaim c _ resume pha wave => exact .inr (.inr ⟨rfl, pha, wave, .inr ⟨c, rfl, resume⟩⟩)
  | handled _ _ _ _ h =>
    left
    intro e he hcls
    have hlt := hs.bound h.active e he
    have hle := h.reached_le_stage hp
    rw [hcls] at hlt
    omega
  | resumedPending _ _ _ _ _ _ l =>
    obtain ⟨e, he, -, hcls, -, -, hpcl, -, hk⟩ := hit.of_ledgeredProposal l
    exact .inr (.inl ⟨e, he, hcls.trans hpcl.symm, hk.symm⟩)

end Moves

namespace RunSetup

/-- **Every Issue of every reachable state is staged.** -/
theorem staged_of_run {g : List (RunStep hash) → DeliveryRunState → RunInput hash → Prop}
    (hg : ∀ h s i, g h s i → S.Admits h s i) {h : List (RunStep hash)} {s : DeliveryRunState}
    (hr : (reducer hash).Run g S.initial h s) : ∀ it ∈ s.issues, it.Staged := by
  refine issue_induct (P := fun _ it => it.Staged) hg ?_ ?_ hr
  · intro it hf
    refine ⟨?_, ?_, ?_⟩ <;> simp [hf.effectLedger_eq]
  · intro h s i r it it' ps _ hs _ hit hstg hm
    exact hm.staged (hs.coherent it hit) hstg

end RunSetup

end AgenticPkm.Builderops
