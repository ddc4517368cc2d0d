import AgenticPkm.Builderops.Reducer.Authority
import AgenticPkm.Builderops.Reducer.Delivery
import AgenticPkm.Builderops.Reducer.Obligations

/-!
# From proposals to effects

The reducer proposes effects; `materialize_effect` turns a proposal into a reducer
effect and passes it through the validators of the contract layer, which share no
code with the handlers.  They accept every
proposal with two exceptions: a verdict may name a known defect
that is not written as a canonical registry reference, and a result may reuse the
id of an earlier one, under which the validators then find the other.

* `ReachesLogged.materializes_iff` — **when a proposal is materialised**, in a run whose
  admissions cite exactly the accepted log.
-/

namespace AgenticPkm.Builderops

open List Option

variable {hash : Json → String} {S : RunSetup hash}

/-! ### Well-formed proposals -/

/-- The fields of a proposal are valid, and those its class calls for are there. -/
structure EffectProposal.WellFormed (p : EffectProposal) : Prop where
  pull_valid : checkOption (checkPositiveInt "pull_request_number") p.pullRequestNumber = .ok ()
  head_valid : checkOption (checkGitSha "exact_head_sha") p.exactHeadSha = .ok ()
  ref_valid : checkOption (checkNonEmptyStr "known_defect_registry_ref")
    p.knownDefectRegistryRef = .ok ()
  pull_some : p.pullRequestNumber.isSome = p.effectClass.requiresPullRequest
  head_some : p.exactHeadSha.isSome = p.effectClass.requiresPullRequest
  ref_some : p.knownDefectRegistryRef.isSome = (p.effectClass == .recordKnownDefect)
  finding_some : p.knownDefectFindingHash.isSome = (p.effectClass == .recordKnownDefect)

theorem ReducerEffect.target_valid {e : ReducerEffect} (h : e.validate hash = .ok ()) :
    checkOption (checkPositiveInt "pull_request_number") e.pullRequestNumber = .ok () ∧
      checkOption (checkGitSha "exact_head_sha") e.exactHeadSha = .ok () := by
  simp only [validate, validateNew, validateScalars, bind_unit_eq_ok_iff] at h
  exact ⟨h.2.1.2.2.2.1, h.2.1.2.2.2.2.1⟩

variable {result : WorkerResultV2} {h : List (RunStep hash)}

theorem WorkerResultV2.target_valid (h : result.validate = .ok ()) :
    checkOption (checkPositiveInt "pull_request_number") result.pullRequestNumber = .ok () ∧
      checkOption (checkGitSha "exact_head_sha") result.exactHeadSha = .ok () := by
  simp only [validate, validateFields, bind_unit_eq_ok_iff] at h
  exact ⟨h.1.2.2.2.2.2.2.2.1, h.1.2.2.2.2.2.2.1⟩

theorem WorkerResultV2.target_eq (h : result.validate = .ok ()) :
    result.deliveryResult.pullRequestNumber = result.pullRequestNumber ∧
      result.deliveryResult.exactHeadSha = result.exactHeadSha := by
  simp only [validate, validateResultV2, bind_unit_eq_ok_iff, raiseIf_eq_ok_iff,
    Bool.or_eq_false_iff, bne_eq_false_iff_eq] at h
  exact ⟨h.2.2.2.2.2.2.2.1.2, h.2.2.2.2.2.2.2.1.1.2⟩

theorem ReviewResult.fields_valid {rs : ReviewResult} (h : rs.validate = .ok ()) :
    checkPositiveInt "pull_request_number" rs.pullRequestNumber = .ok () ∧
      checkGitSha "exact_head_sha" rs.exactHeadSha = .ok () ∧ ∀ r ∈ rs.knownDefectRefs, r ≠ "" := by
  simp only [validate, validateFields, bind_unit_eq_ok_iff, checkAll_eq_ok_iff,
    checkNonEmptyStr_eq_ok_iff] at h
  exact ⟨h.1.2.2.2.2.2.1, h.1.2.2.2.2.2.2.1, h.1.2.2.2.2.2.2.2.2.2.1⟩

section WellFormed

variable {w : ℕ} {it it' : IssueRunState} {ps : List EffectProposal} {p : EffectProposal}
  {a : AdmittedEvent hash} {r : List AcceptanceEvidenceKind} {u : IssueRunState}
  {e next : EffectClass} {ph ph' : RunPhase}

theorem wellFormed_targetProposal {sb : AuthoritySnapshot} {pr : ℕ} {head : String}
    (hn : next.requiresPullRequest) (hd : next ≠ .recordKnownDefect)
    (hpl : it.authorizedPullRequest = some pr) (hh : it.authorizedHeadSha = some head)
    (hv : checkPositiveInt "pull_request_number" pr = .ok () ∧
      checkGitSha "exact_head_sha" head = .ok ()) : (targetProposal next sb it).WellFormed := by
  have hne : (next == EffectClass.recordKnownDefect) = false := beq_eq_false_iff_ne.mpr hd
  refine ⟨?_, ?_, rfl, ?_, ?_, hne.symm, hne.symm⟩
  · show checkOption _ it.authorizedPullRequest = .ok ()
    rw [hpl]
    exact hv.1
  · show checkOption _ it.authorizedHeadSha = .ok ()
    rw [hh]
    exact hv.2
  · show it.authorizedPullRequest.isSome = next.requiresPullRequest
    rw [hpl, hn]
    rfl
  · show it.authorizedHeadSha.isSome = next.requiresPullRequest
    rw [hh, hn]
    rfl

theorem OutcomeStep.requiresPullRequest (h : OutcomeStep e ph ph' next) :
    e.requiresPullRequest := by
  cases h <;> rfl

theorem OutcomeStep.active_after (h : OutcomeStep e ph ph' next) : ph'.isTerminal = false := by
  cases h <;> rfl

theorem OutcomeStep.next_requiresPullRequest (h : OutcomeStep e ph ph' next) :
    next.requiresPullRequest := by
  cases h <;> rfl

theorem Handled.wellFormed (h : Handled S.plan r a it u ps) (hp : p ∈ ps) : p.WellFormed := by
  obtain rfl := h.eq_singleton hp
  cases h with
  | claimSucceeded => exact ⟨rfl, rfl, rfl, rfl, rfl, rfl, rfl⟩
  | workerCompleted _ _ _ _ _ _ valid _ _ _ _ _ pullRequest_eq head_eq =>
    have ht := WorkerResultV2.target_valid valid
    rw [pullRequest_eq, head_eq] at ht
    exact ⟨ht.1, ht.2, rfl, rfl, rfl, rfl, rfl⟩
  | outcome _ _ _ _ _ report _ step target =>
    obtain ⟨_, _, hpl, hh⟩ := ReducerEffect.target_of_validate report.valid step.requiresPullRequest
    have hv := ReducerEffect.target_valid report.valid
    rw [hpl, hh] at hv
    exact wellFormed_targetProposal step.next_requiresPullRequest step.next_ne
      (target.1.symm.trans hpl) (target.2.symm.trans hh) hv
  | reviewAccepted _ _ _ _ valid _ _ _ pullRequest_eq head_eq =>
    obtain ⟨hpl, hh, -⟩ := ReviewResult.fields_valid valid
    exact wellFormed_targetProposal rfl (by decide) pullRequest_eq head_eq ⟨hpl, hh⟩
  | reviewDeferred _ _ _ registryRef _ _ valid _ _ _ pullRequest_eq head_eq _ _ _ registry =>
    obtain ⟨hpl, hh, hr⟩ := ReviewResult.fields_valid valid
    have href : registryRef ≠ "" := hr registryRef (by rw [registry]; exact mem_cons_self)
    refine ⟨?_, ?_, checkNonEmptyStr_eq_ok_iff.mpr href, ?_, ?_, rfl, rfl⟩
    · show checkOption _ it.authorizedPullRequest = .ok ()
      rw [pullRequest_eq]
      exact hpl
    · show checkOption _ it.authorizedHeadSha = .ok ()
      rw [head_eq]
      exact hh
    · show it.authorizedPullRequest.isSome
      rw [pullRequest_eq]
      rfl
    · show it.authorizedHeadSha.isSome
      rw [head_eq]
      rfl

/-- What a handler proposes binds the authority it leaves, which is the subject of
its event, for an Issue it does not end. -/
theorem Handled.cause (h : Handled S.plan r a it u ps) (hp : p ∈ ps) :
    p.expectedAuthorities = [u.currentAuthority] ∧
      a.event.subjectAuthority = some u.currentAuthority ∧ u.phase.isTerminal = false := by
  obtain rfl := h.eq_singleton hp
  cases h with
  | claimSucceeded _ _ _ report => exact ⟨rfl, report.subject_eq, rfl⟩
  | outcome _ _ _ _ _ report _ step => exact ⟨rfl, report.subject_eq, step.active_after⟩
  | workerCompleted _ _ _ _ _ subject_eq | reviewAccepted _ _ _ subject_eq
  | reviewDeferred _ _ _ _ _ subject_eq => exact ⟨rfl, subject_eq, rfl⟩

end WellFormed

/-! ### Outcome keys -/

theorem append_le_append_left_text (st : String) {a b : String} (h : a ≤ b) :
    st ++ a ≤ st ++ b := by
  rw [String.le_iff_toList_le] at h ⊢
  rw [String.toList_append, String.toList_append]
  generalize st.toList = l
  induction l with
  | nil => exact h
  | cons c l ih => exact cons_le_cons c ih

variable {s : DeliveryRunState}

theorem sorted_outcomeKeys {p : EffectProposal} {keys : List String}
    (h : p.outcomeKeys s = .ok keys) : keys.Pairwise fun a b => id a ≤ id b := by
  unfold EffectProposal.outcomeKeys deliveryEffectExpectedOutcomeKeys at h
  cases hcls : p.effectClass with
  | awaitCi =>
    simp only [hcls, Except.ok.injEq] at h
    subst h
    rw [pairwise_map]
    exact (pairwise_sortedBy id s.requiredCheckNames).imp fun hab =>
      append_le_append_left_text _ hab
  | recordKnownDefect =>
    simp only [hcls] at h
    split at h
    · cases h
      exact pairwise_singleton _ _
    · cases h
  | claimIssue | launchWorker | requestReview | mergePullRequest | closeIssue
  | recordDeliveryReceipt =>
    simp only [hcls, Except.ok.injEq] at h
    subst h
    exact pairwise_singleton _ _

/-! ### The validators on a proposed effect -/

/-- A proposal with all that the contract layer asks of it, apart from the two
exceptions: `before` are the events that precede its cause. -/
structure Supported (S : RunSetup hash) (a : AdmittedEvent hash) (before : List ReducerEvent)
    (p : EffectProposal) (authority : AuthoritySnapshot) : Prop where
  planned : p.issue ∈ S.plan.finalScope
  derivable : p.Derivable
  wellFormed : p.WellFormed
  expected : p.expectedAuthorities = [authority]
  binds : authority.Binds p.issue
  runId_ne : S.runId ≠ ""
  run_eq : a.event.runId = S.runId
  plan_eq : a.event.planRef = S.plan.ref hash
  cause : a.event.subjectAuthority = some authority ∨
    a.event.subjectAuthority = none ∧ a.event.eventType.isSubjectlessCause = true ∧
      ∀ origin, plannedAuthority S.plan p.issue = some origin →
        sameAuthorityState authority (resolveCurrentAuthority p.issue.authorityId origin S.runId
          (S.plan.ref hash) a.event.sequence before) = true

/-- The provenance of an effect: later than its plan, its cause and its authority. -/
structure Follows (S : RunSetup hash) (a : AdmittedEvent hash) (p : EffectProposal)
    (sequence : ℕ) (provenance : Provenance) : Prop where
  sequence_lt : a.event.sequence < sequence
  plan_le : S.plan.provenance.createdAt ≤ provenance.createdAt
  event_le : a.event.provenance.createdAt ≤ provenance.createdAt
  authority_le : ∀ authority ∈ p.expectedAuthorities,
    authority.observedAt ≤ provenance.createdAt

section Validators

variable {s : DeliveryRunState} {a : AdmittedEvent hash} {b : List ReducerEvent}
  {p : EffectProposal} {au : AuthoritySnapshot} {sequence : ℕ} {pr : Provenance}
  {evidence : EvidenceLog}

theorem Supported.validOutcomeKeys (hp : Supported S a b p au) (hs : S.Inv s) :
    ValidOutcomeKeys (identityOf hash s p).outcomeKeys := by
  rw [hs.identityOf_eq]
  exact RunSetup.validOutcomeKeys_identityOf hp.derivable

theorem Supported.validateScalars (hp : Supported S a b p au)
    (hs : S.Inv s) (hfollows : Follows S a p sequence pr) :
    (proposedEffect s p (identityOf hash s p) a.event sequence pr).validateScalars = .ok () := by
  have hk : (identityOf hash s p).idempotencyKey ≠ "" := by
    rw [hs.identityOf_eq]
    exact RunSetup.effectKey_ne hp.derivable
  have hr : s.runId ≠ "" := hs.runId_eq ▸ hp.runId_ne
  have hseq : 0 < sequence := Nat.lt_of_le_of_lt (Nat.zero_le _) hfollows.sequence_lt
  simp only [ReducerEffect.validateScalars, proposedEffect, bind_unit_eq_ok_iff,
    checkNonEmptyStr_eq_ok_iff, checkPositiveInt_eq_ok_iff, checkAll_eq_ok_iff]
  exact ⟨hk, hr, hseq, hp.wellFormed.pull_valid, hp.wellFormed.head_valid,
    (hp.validOutcomeKeys hs).1, hp.wellFormed.ref_valid, hk⟩

/-- The defect a proposal names, if any, is written as a canonical registry
reference. -/
def EffectProposal.NamesCanonicalDefect (p : EffectProposal) : Prop :=
  ∀ r, p.knownDefectRegistryRef = some r → isCanonicalRegistryRef p.issue.repository r = true

/-- **The contract of an effect accepts a supported proposal** exactly if the defect
it names is named canonically. -/
theorem Supported.validateEffect_iff (hp : Supported S a b p au)
    (hs : S.Inv s) (hfollows : Follows S a p sequence pr) :
    (proposedEffect s p (identityOf hash s p) a.event sequence pr).validateEffect hash =
      .ok () ↔ p.NamesCanonicalDefect := by
  rw [ReducerEffect.validateEffect_eq_ok_iff]
  constructor
  · exact fun hsnd => hsnd.canonical
  · intro hcan
    have hder := @derived_identityOf hash s p hp.derivable
    have hkeys := hp.validOutcomeKeys hs
    have hwf := hp.wellFormed
    exact
      { schema_eq := congrArg ContractRef.schemaVersion hs.planRef_eq
        cause_run := hp.run_eq.trans hs.runId_eq.symm
        cause_plan := hp.plan_eq.trans hs.planRef_eq.symm
        cause_lt := hfollows.sequence_lt
        authorities_ne := by simp [proposedEffect, hp.expected]
        observed_le := hfollows.authority_le
        ids_distinct := by simp [proposedEffect, hp.expected]
        keys_distinct := hkeys.2.2
        ids_sorted := by simp [proposedEffect, hp.expected]
        keys_sorted := sorted_outcomeKeys hder.outcomeKeys_eq
        binds := by
          refine ⟨au, ?_, hp.binds⟩
          show au ∈ p.expectedAuthorities
          rw [hp.expected]
          exact mem_cons_self
        subject := by
          intro subject hsj
          rcases hp.cause with hso | ⟨hn, -⟩
          · rw [← some.inj (hso.symm.trans hsj)]
            exact hp.expected
          · cases hn.symm.trans hsj
        subjectless := by
          intro hn
          rcases hp.cause with hso | ⟨-, hsb, -⟩
          · cases hso.symm.trans hn
          · exact hsb
        pull_some := hwf.pull_some
        head_some := hwf.head_some
        ref_some := hwf.ref_some
        finding_some := hwf.finding_some
        canonical := hcan
        input_eq := hder.inputHash_eq
        key_eq := by
          show (identityOf hash s p).idempotencyKey = _
          rw [hder.idempotencyKey_eq, hder.inputHash_eq]
          rfl
        id_eq := rfl }

structure CauseResolves (S : RunSetup hash) (a : AdmittedEvent hash) (evidence : EvidenceLog)
    (p : EffectProposal) : Prop where
  resolves : eventEvidenceBody hash S.plan (validateReducerEffectEvidence hash S.plan) a.event
    (a.event.references evidence)
    { evidence with events := eventsBefore a.event.sequence evidence.events } = .ok ()
  target : ∀ t, (a.event.references evidence).target = some t →
    t = (p.pullRequestNumber, p.exactHeadSha)

variable {is : IssueScope}

theorem filter_inputAuthorities (hi : is ∈ S.plan.finalScope) :
    ∃ origin, plannedAuthority S.plan is = some origin ∧
      (S.plan.inputAuthorities.filter fun x => x.authorityId == is.authorityId) = [origin] := by
  obtain ⟨origin, hm, hpl⟩ := S.valid.exists_plannedAuthority hi
  refine ⟨origin, hpl, ?_⟩
  rw [← S.valid.authority_distinct.filter_key hm, (binds_of_plannedAuthority hpl).1]
  refine filter_congr fun x _ => ?_
  rw [Bool.eq_iff_iff]
  simp

theorem find_expectedStates (hi : is ∈ S.plan.finalScope) :
    ∃ expected, (S.plan.expectedStates.find? fun item =>
      item.issue.scopeKey == is.scopeKey) = some expected := by
  obtain ⟨expected, hmem, hexp⟩ := S.valid.expected_covers is hi
  cases hf : S.plan.expectedStates.find? fun item => item.issue.scopeKey == is.scopeKey with
  | none =>
    have hm := find?_eq_none.mp hf expected hmem
    simp [hexp] at hm
  | some f => exact ⟨f, rfl⟩

theorem Supported.same_causalAuthority (hp : Supported S a b p au) (hs : S.Inv s)
    (i : EffectIdentity) {o : AuthoritySnapshot} (ho : plannedAuthority S.plan p.issue = some o) :
    sameAuthorityState au (causalAuthority (proposedEffect s p i a.event sequence pr) o b) := by
  rcases hp.cause with hso | ⟨hn, -, hcur⟩
  · simp only [causalAuthority, proposedEffect, hso]
    exact sameAuthorityState_refl au
  · simp only [causalAuthority, proposedEffect, hn, hs.runId_eq, hs.planRef_eq]
    exact hcur o ho

theorem Supported.effectAuthorityEvidence_eq (hp : Supported S a b p au)
    (hs : S.Inv s) (i : EffectIdentity) :
    effectAuthorityEvidence S.plan (proposedEffect s p i a.event sequence pr) b = .ok () := by
  obtain ⟨expected, hexp⟩ := find_expectedStates hp.planned
  obtain ⟨origin, ho, hf⟩ := filter_inputAuthorities hp.planned
  have hb : ([au].filter fun x => x.authorityId == p.issue.authorityId) = [au] := by
    simp [hp.binds.1]
  have hsame := @Supported.same_causalAuthority hash S s a b p au sequence pr hp hs i origin ho
  simp only [effectAuthorityEvidence, proposedEffect, hexp, hp.expected, hb, hf]
  simp only [proposedEffect, hp.expected] at hsame
  rw [hsame]
  rfl

section

variable (hp : Supported S a (eventsBefore a.event.sequence evidence.events) p au)
  (hs : S.Inv s) (hallow : S.plan.effectAllowlist = effectAllowlist)
  (hfollows : Follows S a p sequence pr)
include hp hs hallow hfollows

/-- **The evidence of a supported proposal resolves** exactly if its cause does. -/
theorem Supported.effectEvidence_iff :
    validateReducerEffectEvidence hash S.plan
        (proposedEffect s p (identityOf hash s p) a.event sequence pr) evidence =
      .ok () ↔ CauseResolves S a evidence p := by
  have hsc : lastBy IssueScope.scopeKey p.issue.scopeKey S.plan.finalScope = some p.issue :=
    S.valid.scope_distinct.lastBy_eq_some_iff.mpr ⟨hp.planned, rfl⟩
  have hkeys : deliveryEffectExpectedOutcomeKeys p.effectClass s.runId p.issue
      p.pullRequestNumber S.plan.policyProfile.requiredCheckNames p.knownDefectRegistryRef
      p.knownDefectFindingHash = .ok (identityOf hash s p).outcomeKeys := by
    rw [← hs.checks_eq]
    exact (derived_identityOf hp.derivable).outcomeKeys_eq
  have hau := @Supported.effectAuthorityEvidence_eq hash S s a _ p au sequence
    pr hp hs (identityOf hash s p)
  have hcls : effectAllowlist.contains p.effectClass :=
    contains_iff_mem.mpr (mem_effectAllowlist p.effectClass)
  have hpl : ¬ pr.createdAt < S.plan.provenance.createdAt := not_lt.mpr hfollows.plan_le
  have hev : ¬ pr.createdAt < a.event.provenance.createdAt := not_lt.mpr hfollows.event_le
  have hrun : a.event.runId = s.runId := hp.run_eq.trans hs.runId_eq.symm
  simp only [proposedEffect, hs.planRef_eq] at hau
  simp only [validateReducerEffectEvidence, effectEvidenceBody, proposedEffect,
    validateReducerEventEvidence_eq, bind_eq_ok_iff, exists_unit_iff, raiseIf_eq_ok_iff,
    bne_eq_false_iff_eq, Bool.or_eq_false_iff, decide_eq_false_iff_not, hsc, hkeys, hallow,
    hcls, hau, hpl, hev, hs.planRef_eq, hrun, hp.plan_eq, Except.ok.injEq,
    Bool.not_true, not_false_eq_true, exists_eq_left', and_true, true_and]
  constructor
  · rintro ⟨hres, htg⟩
    refine ⟨hres, fun t ht => ?_⟩
    simpa [ht] using htg
  · rintro ⟨hres, htg⟩
    refine ⟨hres, ?_⟩
    cases ht : (a.event.references evidence).target with
    | none => rfl
    | some t => simp [htg t ht]

/-- **When a supported proposal is materialised.** -/
theorem Supported.materializeEffect_iff :
    (∃ effect, materializeEffect hash p s S.plan a.event sequence pr evidence =
        .ok effect) ↔ p.NamesCanonicalDefect ∧ CauseResolves S a evidence p := by
  have hpl : s.planRef.contractId = S.plan.planId := congrArg ContractRef.contractId hs.planRef_eq
  simp only [materializeEffect, bind_eq_ok_iff, exists_unit_iff, raiseIf_eq_ok_iff,
    bne_eq_false_iff_eq, hpl, hs.checks_eq, proposalEffectIdentity_eq hp.derivable,
    Except.ok.injEq, exists_eq_left', ReducerEffect.validateNew, hp.validateScalars hs hfollows,
    hp.validateEffect_iff hs hfollows, hp.effectEvidence_iff hs hallow hfollows,
    pure_eq_ok_iff, true_and, exists_and_left, exists_eq', and_true]

end

end Validators

/-! ### Reported effects -/

/-- The success of an effect of this class moves its Issue on to a later place. -/
def EffectClass.movesOn : EffectClass → Bool
  | .launchWorker | .requestReview => false
  | _ => true

/-- An active Issue is past the places of the effects reported for it. -/
def Passed (log : List (AdmittedEvent hash)) (it : IssueRunState) : Prop :=
  ∀ b ∈ log, ∀ effect, b.reportedEffect = some effect → effect.issue = it.issue →
    effect.effectClass.movesOn = true →
      it.phase.isTerminal = true ∨ effect.effectClass.stage + 1 < it.phase.reached

theorem AdmittedEvent.report_of_reportedEffect {a : AdmittedEvent hash} {e : ReducerEffect}
    (h : a.reportedEffect = some e) :
    ∃ plan outcome subject, EffectReport hash plan a.toAdmission e outcome subject := by
  obtain ⟨i, hi⟩ := a.admitted
  unfold reportedEffect at h
  split at h
  next ht =>
    cases admissionView hi with
    | tick _ _ _ _ hsb =>
      cases hc : a.event.eventType <;>
        simp [hc, EventType.isEffectResult, EventType.isSubjectlessCause] at ht hsb
    | exception _ _ type | authorityChanged _ _ _ type | workerResult _ _ _ type
    | reviewResult _ _ _ type => simp [type, EventType.isEffectResult] at ht
    | succeeded e' outcome subject _ _ report | failed e' outcome subject _ _ report =>
      cases report.effect_eq.symm.trans h
      exact ⟨i.plan, outcome, subject, report⟩
  · cases h

section Reported

variable {w : ℕ} {it it' up : IssueRunState} {ps : List EffectProposal}
  {a : AdmittedEvent hash} {required : List AcceptanceEvidenceKind} {effect : ReducerEffect}
  {log : List (AdmittedEvent hash)} {ec next : EffectClass} {p p' : RunPhase}

theorem OutcomeStep.stage_lt (h : OutcomeStep ec p p' next) : ec.stage + 1 < p'.reached := by
  cases h <;> decide

theorem OutcomeStep.movesOn (h : OutcomeStep ec p p' next) : ec.movesOn := by
  cases h <;> rfl

theorem OutcomeStep.before_awaited (h : OutcomeStep ec p p' next) : p = ec.awaitedPhase := by
  cases h <;> rfl

theorem Handled.passed (h : Handled S.plan required a it up ps)
    (heff : a.reportedEffect = some effect) (hm : effect.effectClass.movesOn) :
    up.phase.isTerminal ∨ effect.effectClass.stage + 1 < up.phase.reached := by
  have heq : a.effect = some effect := by
    obtain ⟨_, _, _, report⟩ := AdmittedEvent.report_of_reportedEffect heff
    exact report.effect_eq
  cases h with
  | workerBlocked | reviewBlocked | delivered | unmet | effectFailed | ciFailed
  | contractDrift => exact .inl rfl
  | claimSucceeded _ _ _ report _ _ class_eq =>
    cases report.effect_eq.symm.trans heq
    right
    rw [class_eq]
    show EffectClass.claimIssue.stage + 1 < RunPhase.launching.reached
    decide
  | workerLaunched effect' _ _ report _ _ class_eq
  | reviewRecorded _ _ _ report _ _ class_eq =>
    cases report.effect_eq.symm.trans heq
    rw [class_eq] at hm
    cases hm
  | outcome _ _ _ _ _ report _ step =>
    cases report.effect_eq.symm.trans heq
    exact .inr step.stage_lt
  | workerCompleted _ _ _ _ _ _ _ _ _ type | reviewAccepted _ _ _ _ _ _ _ type
  | reviewDeferred _ _ _ _ _ _ _ _ _ type | authorityChanged _ _ type =>
    simp [AdmittedEvent.reportedEffect, type, EventType.isEffectResult] at heff

theorem IssueMove.passed {i : RunInput hash} (h : IssueMove S w i it it' ps)
    (hpas : Passed log it) : Passed (log ++ i.events) it' := by
  intro b hb effect heff hi hm
  rw [h.frame.1] at hi
  rcases mem_append.mp hb with hb | hb
  · -- an earlier report
    rcases hpas b hb effect heff hi hm with ht | hr
    · rw [(h.eq_of_terminal ht).1]
      exact .inl ht
    · exact .inr (Nat.lt_of_lt_of_le hr h.reached_le)
  · -- the report of this very event
    obtain ⟨_, _, _, report⟩ := AdmittedEvent.report_of_reportedEffect heff
    cases i with
    | command => cases hb
    | event a =>
      obtain rfl : b = a := mem_singleton.mp hb
      cases h with
      | idle _ _ away => exact absurd (congrArg _ hi) (away b _ rfl report.issue_eq)
      | opened _ _ _ sb | excepted _ _ _ sb => cases sb.symm.trans report.issue_eq
      | handled _ _ _ _ h =>
        rw [authorizedAll_eq]
        exact h.passed heff hm

end Reported

theorem RunSetup.Reaches.passed (hr : S.Reaches h s) :
    ∀ it ∈ s.issues, Passed (acceptedEvents h) it := by
  refine RunSetup.issue_induct (P := fun log it => Passed log it) (fun _ _ _ hg => hg) ?_ ?_ hr
  · intro it _ b hb
    cases hb
  · intro h s i r it it' ps _ _ _ _ hpas hm
    exact hm.passed hpas

/-! ### Causes and the accepted log -/

/-- The references of a log tell its entries apart. -/
structure EvidenceLog.CollisionFree (hash : Json → String) (log : EvidenceLog) : Prop where
  effects : Set.InjOn hash {input | ∃ effect ∈ log.effects, input = effect.semanticInput}
  workerResults : Set.InjOn (StructuredWorkerResult.ref hash) {r | r ∈ log.workerResults}
  reviewResults : Set.InjOn (ReviewResult.ref hash) {r | r ∈ log.reviewResults}

theorem EvidenceLog.collisionFree_of_distinct {log : EvidenceLog}
    (hef : ∀ e ∈ log.effects, ∀ e' ∈ log.effects,
      hash e.semanticInput = hash e'.semanticInput → e = e')
    (hres : ∀ r ∈ log.workerResults, ∀ r' ∈ log.workerResults, r.ref hash = r'.ref hash → r = r')
    (hrev : ∀ r ∈ log.reviewResults, ∀ r' ∈ log.reviewResults,
      r.ref hash = r'.ref hash → r = r') : log.CollisionFree hash := by
  refine ⟨?_, fun r hr r' hr' => hres r hr r' hr', fun r hr r' hr' => hrev r hr r' hr'⟩
  rintro _ ⟨e, he, rfl⟩ _ ⟨e', he', rfl⟩ hh
  rw [hef e he e' he' hh]

/-- The defects a verdict defers are named by canonical registry references. -/
def CanonicalDefects (a : AdmittedEvent hash) : Prop :=
  ∀ review, a.recordedReview = some review → ∀ r ∈ review.knownDefectRefs,
    isCanonicalRegistryRef review.issue.repository r = true

/-- The first result accepted under the id of a recorded result is that result. -/
def ResolvesOwnResult (log : List (AdmittedEvent hash)) (a : AdmittedEvent hash) : Prop :=
  (∀ result, a.recordedResult = some result →
    ((evidenceLog (log ++ [a])).workerResults.find? fun item => item.resultId == result.resultId) =
      some result) ∧
  (∀ review, a.recordedReview = some review →
    ((evidenceLog (log ++ [a])).reviewResults.find? fun item => item.resultId == review.resultId) =
      some review)

/-- An event of a run that was admitted against exactly the accepted log. -/
structure CitesLog (S : RunSetup hash) (log : List (AdmittedEvent hash))
    (a : AdmittedEvent hash) : Prop extends FollowsLog S log a where
  cites : ∃ input, resolveAdmission hash input = .ok a.toAdmission ∧ input.plan = S.plan ∧
    input.log = evidenceLog log

theorem citesLog_of_admitsLogged {a : AdmittedEvent hash} (hs : S.Inv s)
    (hg : eventGate s a.event = none) (ha : S.AdmitsLogged h s (.event a)) :
    CitesLog S (acceptedEvents h) a := by
  have hfollows := followsLog_of_admitsOrdered hs hg ha.admitsOrdered
  obtain ⟨⟨i, hi, hpl, hl⟩, -⟩ := ha
  exact ⟨hfollows, i, hi, hpl hfollows.plan_eq, hl⟩

section Causes

variable {log : List (AdmittedEvent hash)} {a : AdmittedEvent hash}
  {evidence evidence' : EvidenceLog} {refs refs' : EventReferences} {ev : ReducerEvent}
  {v : ReducerEffect → EvidenceLog → Except String Unit}

/-- The evidence an admitted event carries. -/
def AdmittedEvent.references (a : AdmittedEvent hash) : EventReferences where
  effect := a.effect
  workerResult := a.workerResult.map WorkerResultV2.deliveryResult
  reviewResult := a.reviewResult

theorem CitesLog.resolves (h : CitesLog S log a) :
    eventEvidenceBody hash S.plan (validateReducerEffectEvidence hash S.plan) a.event
      a.references (evidenceLog log) = .ok () := by
  obtain ⟨_, hi, hpl, hl⟩ := h.cites
  obtain ⟨-, -, -, -, -, hev, r, -, hf⟩ := checks_of_resolveAdmission hi
  rw [← hpl, ← hl]
  unfold AdmittedEvent.references
  rw [hf]
  exact hev

theorem FollowsLog.eventsBefore_eq (h : FollowsLog S log a) :
    eventsBefore a.event.sequence (evidenceLog (log ++ [a])).events = (evidenceLog log).events := by
  simp only [eventsBefore, evidenceLog, map_append, filter_append, map_cons, map_nil]
  rw [filter_eq_self.mpr (by simpa using h.later)]
  simp

variable {plan : DeliveryPlan} {p : EffectProposal}

theorem eventEvidenceBody_of_subjectless (ht : ev.eventType.isSubjectlessCause) :
    eventEvidenceBody hash plan v ev refs evidence =
      eventEvidenceBody hash plan v ev refs' evidence' := by
  unfold eventEvidenceBody
  cases hc : ev.eventType with
  | runStarted | timerElapsed | exceptionRecorded => rfl
  | effectSucceeded | effectFailed | workerResultRecorded | reviewResultRecorded
  | authorityChanged => exact absurd ht (by rw [hc]; decide)

theorem eventEvidenceBody_of_report {e : ReducerEffect}
    (ht : ev.eventType.isEffectResult) (hr : refs.effect = some e)
    (hr' : refs'.effect = some e) (hev : evidence'.events = evidence.events)
    (hef : effectsBefore e.sequence evidence'.effects = effectsBefore e.sequence evidence.effects)
    (hw : evidence'.workerResults = evidence.workerResults)
    (hrev : evidence'.reviewResults = evidence.reviewResults) :
    eventEvidenceBody hash plan v ev refs' evidence' =
      eventEvidenceBody hash plan v ev refs evidence := by
  have hrep : effectReportEvidence hash v ev refs' evidence' =
      effectReportEvidence hash v ev refs evidence := by
    simp [effectReportEvidence, hr, hr', hev, hef, hw, hrev]
  unfold eventEvidenceBody
  cases hc : ev.eventType with
  | effectSucceeded | effectFailed => simp only [hrep, referencedIssueEvidence, hev]
  | workerResultRecorded | reviewResultRecorded | authorityChanged | runStarted | timerElapsed
  | exceptionRecorded => exact absurd ht (by rw [hc]; decide)

theorem eventEvidenceBody_of_worker (ht : ev.eventType = .workerResultRecorded)
    (hr : refs'.workerResult = refs.workerResult) (hev : evidence'.events = evidence.events) :
    eventEvidenceBody hash plan v ev refs' evidence' =
      eventEvidenceBody hash plan v ev refs evidence := by
  simp [eventEvidenceBody, ht, workerReportEvidence, hr, referencedIssueEvidence, hev]

theorem eventEvidenceBody_of_review (ht : ev.eventType = .reviewResultRecorded)
    (hr : refs'.reviewResult = refs.reviewResult) (hev : evidence'.events = evidence.events) :
    eventEvidenceBody hash plan v ev refs' evidence' =
      eventEvidenceBody hash plan v ev refs evidence := by
  simp [eventEvidenceBody, ht, reviewReportEvidence, hr, referencedIssueEvidence, hev]

theorem CitesLog.causeResolves_of_subjectless (h : CitesLog S log a)
    (hty : a.event.eventType.isSubjectlessCause) (heff : a.event.effectRef = none)
    (hr : a.event.resultRef = none) : CauseResolves S a (evidenceLog (log ++ [a])) p where
  resolves := (eventEvidenceBody_of_subjectless hty).trans h.resolves
  target := by
    intro t ht
    simp [ReducerEvent.references, heff, hr, EventReferences.target] at ht

theorem find?_concat_self {α : Type} {p : α → Bool} {l : List α} {x : α} (hx : p x)
    (hl : ∀ y ∈ l, p y → y = x) : (l ++ [x]).find? p = some x := by
  rw [find?_append]
  cases hf : l.find? p with
  | none => simp [hx]
  | some y =>
    rw [hl y (mem_of_find?_eq_some hf) (find?_some hf)]
    rfl

theorem AdmittedEvent.recorded_of_resultVersion (ht : a.event.eventType.resultVersion = none) :
    a.recordedResult = none ∧ a.recordedReview = none := by
  unfold recordedResult recordedReview
  cases hc : a.event.eventType with
  | effectSucceeded | effectFailed | authorityChanged | runStarted | timerElapsed
  | exceptionRecorded => exact ⟨rfl, rfl⟩
  | workerResultRecorded | reviewResultRecorded => exact absurd ht (by rw [hc]; decide)

theorem AdmittedEvent.recorded_of_worker (ht : a.event.eventType = .workerResultRecorded)
    {r : WorkerResultV2} (hr : a.workerResult = some r) :
    a.recordedResult = some r.deliveryResult ∧ a.recordedReview = none := by
  simp [recordedResult, recordedReview, ht, hr]

theorem AdmittedEvent.recorded_of_review (ht : a.event.eventType = .reviewResultRecorded) :
    a.recordedResult = none ∧ a.recordedReview = a.reviewResult := by
  simp [recordedResult, recordedReview, ht]

/-- A report whose effect was not reported before resolves, at its own target. -/
theorem CitesLog.causeResolves_of_report (h : CitesLog S log a) {effect : ReducerEffect}
    {o : EffectOutcomeEvidence} {sb : AuthoritySnapshot}
    (r : EffectReport hash plan a.toAdmission effect o sb) (hty : a.event.eventType.isEffectResult)
    (hf : ∀ x ∈ (evidenceLog log).effects, x.effectId ≠ effect.effectId)
    (htg : (effect.pullRequestNumber, effect.exactHeadSha) = (p.pullRequestNumber, p.exactHeadSha))
    : CauseResolves S a (evidenceLog (log ++ [a])) p := by
  have hrep : a.reportedEffect = some effect := by
    simp [AdmittedEvent.reportedEffect, hty, r.effect_eq]
  have hef : (evidenceLog (log ++ [a])).effects = (evidenceLog log).effects ++ [effect] := by
    simp [evidenceLog, hrep]
  have hr : (a.event.references (evidenceLog (log ++ [a]))).effect = some effect := by
    simp only [ReducerEvent.references, r.ref_eq, hef]
    refine find?_concat_self (by simp [ReducerEffect.ref]) ?_
    intro x hx hid
    exact absurd (by simpa [ReducerEffect.ref] using hid) (hf x hx)
  obtain ⟨hw, hrev⟩ := AdmittedEvent.recorded_of_resultVersion
    (EventType.resultVersion_of_isEffectResult hty)
  refine ⟨?_, ?_⟩
  · refine (eventEvidenceBody_of_report hty r.effect_eq hr h.eventsBefore_eq ?_ ?_
      ?_).trans h.resolves
    · simp [hef, effectsBefore]
    · simp [evidenceLog, hw]
    · simp [evidenceLog, hrev]
  · intro t ht
    simp only [EventReferences.target, hr, Option.some.injEq] at ht
    rw [← ht, htg]

theorem references_effect_eq_none (heff : ev.effectRef = none) :
    (ev.references evidence).effect = none := by
  simp [ReducerEvent.references, heff]

theorem eq_of_find?_of_ref {α β : Type} {l : List α} {p : α → Bool} {ref : α → β}
    {x f : α} (hi : Set.InjOn ref {r | r ∈ l}) (hx : x ∈ l)
    (hf : l.find? p = some f) (hr : some (ref x) = some (ref f)) : f = x :=
  hi (mem_of_find?_eq_some hf) hx (Option.some.inj hr).symm

/-- **A worker result resolves** exactly if it is the first of its id. -/
theorem CitesLog.causeResolves_of_worker (h : CitesLog S log a)
    (hfr : (evidenceLog (log ++ [a])).CollisionFree hash)
    (hty : a.event.eventType = .workerResultRecorded) {r : WorkerResultV2}
    (hrs : a.workerResult = some r)
    (htg : (r.deliveryResult.pullRequestNumber, r.deliveryResult.exactHeadSha) =
      (p.pullRequestNumber, p.exactHeadSha)) :
    CauseResolves S a (evidenceLog (log ++ [a])) p ↔ ResolvesOwnResult log a := by
  obtain ⟨i, hi, -⟩ := h.cites
  obtain ⟨_, report⟩ := workerReport_of_type hi hty hrs
  have href := report.ref_eq
  have heff := report.effect_eq
  obtain ⟨hrec, hrev⟩ := AdmittedEvent.recorded_of_worker hty hrs
  have hmem : r.deliveryResult ∈ (evidenceLog (log ++ [a])).workerResults := by
    simp [evidenceLog, hrec]
  have hlk : (a.event.references (evidenceLog (log ++ [a]))).workerResult =
      (evidenceLog (log ++ [a])).workerResults.find? fun item =>
        item.resultId == r.deliveryResult.resultId := by
    simp [ReducerEvent.references, href, StructuredWorkerResult.ref]
  have hown : ResolvesOwnResult log a ↔
      (a.event.references (evidenceLog (log ++ [a]))).workerResult = some r.deliveryResult := by
    rw [hlk]
    simp [ResolvesOwnResult, hrec, hrev]
  rw [hown]
  constructor
  · intro hcs
    have hres := hcs.resolves
    simp only [eventEvidenceBody, hty, workerReportEvidence, bind_eq_ok_iff, exists_unit_iff,
      getOrRaise_eq_ok_iff, raiseIf_eq_ok_iff, Bool.or_eq_false_iff, bne_eq_false_iff_eq]
      at hres
    obtain ⟨-, -, _, ⟨_, hfd, ⟨⟨⟨hsame, -⟩, -⟩, -⟩, -⟩, -⟩ := hres
    rw [href] at hsame
    rw [hlk] at hfd ⊢
    rw [hfd, eq_of_find?_of_ref hfr.workerResults hmem hfd hsame]
  · intro hfd
    refine ⟨?_, ?_⟩
    · refine (eventEvidenceBody_of_worker hty ?_ h.eventsBefore_eq).trans h.resolves
      rw [hfd, AdmittedEvent.references, hrs]
      rfl
    · intro t ht
      simp only [EventReferences.target, references_effect_eq_none heff, hfd,
        Option.some.injEq] at ht
      rw [← ht, htg]

/-- **A verdict resolves** exactly if it is the first of its id. -/
theorem CitesLog.causeResolves_of_review (h : CitesLog S log a)
    (hfr : (evidenceLog (log ++ [a])).CollisionFree hash)
    (hty : a.event.eventType = .reviewResultRecorded) {review : ReviewResult}
    (hrev : a.reviewResult = some review)
    (htg : (some review.pullRequestNumber, some review.exactHeadSha) =
      (p.pullRequestNumber, p.exactHeadSha)) :
    CauseResolves S a (evidenceLog (log ++ [a])) p ↔ ResolvesOwnResult log a := by
  obtain ⟨i, hi, -⟩ := h.cites
  obtain ⟨_, report⟩ := reviewReport_of_type hi hty hrev
  have href := report.ref_eq
  have heff := report.effect_eq
  obtain ⟨hrs, hrec⟩ := AdmittedEvent.recorded_of_review hty
  rw [hrev] at hrec
  have hmem : review ∈ (evidenceLog (log ++ [a])).reviewResults := by
    simp [evidenceLog, hrec]
  have hlk : (a.event.references (evidenceLog (log ++ [a]))).reviewResult =
      (evidenceLog (log ++ [a])).reviewResults.find? fun item =>
        item.resultId == review.resultId := by
    simp [ReducerEvent.references, href, ReviewResult.ref]
  have hown : ResolvesOwnResult log a ↔
      (a.event.references (evidenceLog (log ++ [a]))).reviewResult = some review := by
    rw [hlk]
    simp [ResolvesOwnResult, hrec, hrs]
  rw [hown]
  constructor
  · intro hcs
    have hres := hcs.resolves
    simp only [eventEvidenceBody, hty, reviewReportEvidence, bind_eq_ok_iff, exists_unit_iff,
      getOrRaise_eq_ok_iff, raiseIf_eq_ok_iff, Bool.or_eq_false_iff, bne_eq_false_iff_eq]
      at hres
    obtain ⟨-, -, _, ⟨_, hfd, ⟨⟨⟨⟨hsame, -⟩, -⟩, -⟩, -⟩, -⟩, -⟩ := hres
    rw [href] at hsame
    rw [hlk] at hfd ⊢
    rw [hfd, eq_of_find?_of_ref hfr.reviewResults hmem hfd hsame]
  · intro hfd
    refine ⟨?_, ?_⟩
    · refine (eventEvidenceBody_of_review hty ?_ h.eventsBefore_eq).trans h.resolves
      rw [hfd, AdmittedEvent.references, hrev]
    · intro t ht
      have hnw : (a.event.references (evidenceLog (log ++ [a]))).workerResult = none := by
        simp [ReducerEvent.references, href, ReviewResult.ref, workerResultVersion,
          reviewResultVersion]
      simp only [EventReferences.target, references_effect_eq_none heff, hnw, hfd,
        Option.some.injEq] at ht
      rw [← ht, htg]

end Causes

/-! ### Proposals of a run -/

section Proposals

variable {w : ℕ} {it it' : IssueRunState} {ps : List EffectProposal} {p : EffectProposal}
  {log : List (AdmittedEvent hash)} {a : AdmittedEvent hash}

/-- An effect that moves its Issue on was not reported before it is awaited. -/
theorem effectId_ne_of_passed (hpas : Passed log it) (hact : it.phase.isTerminal = false)
    (hfr : (evidenceLog (log ++ [a])).CollisionFree hash) {e : ReducerEffect}
    (hrep : a.reportedEffect = some e) (hiss : e.issue = it.issue) (hmov : e.effectClass.movesOn)
    (hph : it.phase = e.effectClass.awaitedPhase) :
    ∀ x ∈ (evidenceLog log).effects, x.effectId ≠ e.effectId := by
  intro x hx hid
  obtain ⟨b, hb, hxb⟩ := mem_filterMap.mp hx
  obtain ⟨_, _, _, hxr⟩ := AdmittedEvent.report_of_reportedEffect hxb
  obtain ⟨_, _, _, hrp⟩ := AdmittedEvent.report_of_reportedEffect hrep
  have hxs := ReducerEffect.sound_of_validate hxr.valid
  have hsnd := ReducerEffect.sound_of_validate hrp.valid
  have hhs : hash x.semanticInput = hash e.semanticInput := by
    rw [hxs.id_eq, hsnd.id_eq, hxs.key_eq, hsnd.key_eq] at hid
    exact deliveryEffectIdempotencyKey_injective hid
  have hinp := hfr.effects
    ⟨x, mem_filterMap.mpr ⟨b, mem_append_left _ hb, hxb⟩, rfl⟩
    ⟨e, mem_filterMap.mpr ⟨a, mem_append_right _ mem_cons_self, hrep⟩, rfl⟩ hhs
  obtain ⟨hcls, hxi⟩ := eq_of_deliveryEffectInput_eq hinp
  rcases hpas b hb x hxb (hxi.trans hiss) (hcls ▸ hmov) with htm | hrch
  · rw [hact] at htm
    cases htm
  · rw [hph, reached_awaitedPhase, hcls] at hrch
    exact absurd hrch (lt_irrefl _)

theorem unexceptional_of_resultVersion (ht : a.event.eventType.resultVersion = none) :
    CanonicalDefects a ∧ ResolvesOwnResult log a := by
  obtain ⟨hres, hr⟩ := AdmittedEvent.recorded_of_resultVersion ht
  refine ⟨?_, ?_, ?_⟩
  · intro review h
    cases hr.symm.trans h
  · intro result h
    cases hres.symm.trans h
  · intro review h
    cases hr.symm.trans h

theorem namesCanonicalDefect_of_none (h : p.knownDefectRegistryRef = none) :
    p.NamesCanonicalDefect := by
  intro r hr
  cases h.symm.trans hr

theorem ReviewResult.knownDefectRefs_of_accept {r : ReviewResult} (h : r.validate = .ok ())
    (hd : r.disposition = .accept) : r.knownDefectRefs = [] := by
  simp only [validate, validateReview, bind_unit_eq_ok_iff, raiseIf_eq_ok_iff] at h
  obtain ⟨-, -, -, -, -, -, -, -, -, -, hr, -⟩ := h
  simpa [hd] using hr

theorem exceptions_of_report (hcit : CitesLog S log a) (hpas : Passed log it)
    (hfr : (evidenceLog (log ++ [a])).CollisionFree hash) {effect : ReducerEffect}
    {o : EffectOutcomeEvidence} {sb : AuthoritySnapshot} (r : Reports S.plan a it effect o sb)
    (type : a.event.eventType = .effectSucceeded) (hact : it.phase.isTerminal = false)
    (hmov : effect.effectClass.movesOn) (hph : it.phase = effect.effectClass.awaitedPhase)
    (hdef : p.knownDefectRegistryRef = none)
    (ht : (effect.pullRequestNumber, effect.exactHeadSha) = (p.pullRequestNumber, p.exactHeadSha)) :
    p.NamesCanonicalDefect ∧ CauseResolves S a (evidenceLog (log ++ [a])) p ↔
      CanonicalDefects a ∧ ResolvesOwnResult log a := by
  have hres : a.event.eventType.isEffectResult := by
    rw [type]
    rfl
  have hrep : a.reportedEffect = some effect := by
    simp [AdmittedEvent.reportedEffect, hres, r.effect_eq]
  have hf := effectId_ne_of_passed hpas hact hfr hrep r.own hmov hph
  refine iff_of_true ⟨namesCanonicalDefect_of_none hdef,
    hcit.causeResolves_of_report r.toEffectReport hres hf ht⟩ ?_
  exact unexceptional_of_resultVersion (EventType.resultVersion_of_isEffectResult hres)

/-- **What a handler proposes is accepted** exactly without the exceptions. -/
theorem Handled.exceptions_iff {rq : List AcceptanceEvidenceKind} {u : IssueRunState}
    (h : Handled S.plan rq a it u ps) (hp : p ∈ ps) (hcit : CitesLog S log a) (hpas : Passed log it)
    (hfr : (evidenceLog (log ++ [a])).CollisionFree hash) :
    p.NamesCanonicalDefect ∧ CauseResolves S a (evidenceLog (log ++ [a])) p ↔
      CanonicalDefects a ∧ ResolvesOwnResult log a := by
  have hact := h.active
  obtain rfl := h.eq_singleton hp
  cases h with
  | claimSucceeded _ _ _ report type phase class_eq =>
    refine exceptions_of_report hcit hpas hfr report type hact ?_ ?_ rfl ?_
    · rw [class_eq]
      rfl
    · rw [class_eq, phase]
      rfl
    · -- a claim acts on no pull request
      have hsnd := ReducerEffect.sound_of_validate report.valid
      have hpl := hsnd.pull_some
      have hhd := hsnd.head_some
      rw [class_eq] at hpl hhd
      rw [isNone_iff_eq_none.mp (isSome_eq_false_iff.mp hpl),
        isNone_iff_eq_none.mp (isSome_eq_false_iff.mp hhd)]
      rfl
  | outcome _ _ _ _ _ report type step target =>
    refine exceptions_of_report hcit hpas hfr report type hact step.movesOn
      step.before_awaited rfl ?_
    rw [target.1, target.2]
    rfl
  | workerCompleted _ _ _ _ result_eq _ valid _ _ type _ _ pullRequest_eq head_eq =>
    obtain ⟨hpl, hhd⟩ := WorkerResultV2.target_eq valid
    have hcan : CanonicalDefects a := by
      intro review hrev
      simp [AdmittedEvent.recordedReview, type] at hrev
    refine and_congr (iff_of_true (namesCanonicalDefect_of_none rfl) hcan)
      (hcit.causeResolves_of_worker hfr type result_eq ?_)
    rw [hpl, hhd, pullRequest_eq, head_eq]
    rfl
  | reviewAccepted review _ result_eq _ valid _ _ type pullRequest_eq head_eq disposition =>
    have hrec := (AdmittedEvent.recorded_of_review type).2.trans result_eq
    have hcan : CanonicalDefects a := by
      intro review' hrev' r hr
      cases hrec.symm.trans hrev'
      rw [ReviewResult.knownDefectRefs_of_accept valid disposition] at hr
      cases hr
    refine and_congr (iff_of_true (namesCanonicalDefect_of_none rfl) hcan)
      (hcit.causeResolves_of_review hfr type result_eq ?_)
    rw [← pullRequest_eq, ← head_eq]
    rfl
  | reviewDeferred review _ _ _ result_eq _ _ own _ type pullRequest_eq head_eq _ _ _ registry =>
    have hrec := (AdmittedEvent.recorded_of_review type).2.trans result_eq
    refine and_congr ?_
      (hcit.causeResolves_of_review hfr type result_eq ?_)
    · -- the proposal names the one defect of the verdict
      simp [EffectProposal.NamesCanonicalDefect, CanonicalDefects, hrec, registry, own,
        defectProposal]
    · rw [← pullRequest_eq, ← head_eq]
      rfl

theorem runId_ne_of_citesLog (hcit : CitesLog S log a) : S.runId ≠ "" := by
  obtain ⟨i, hi, -⟩ := hcit.cites
  obtain ⟨-, hev, -, -, -, -, _, -, hf⟩ := checks_of_resolveAdmission hi
  have hne := (ReducerEvent.shape_of_validate hev).runId_ne
  have heq : a.event = i.event := by rw [hf]
  rw [← heq, hcit.run_eq] at hne
  exact hne

/-- **What a run proposes on an event is supported.** -/
theorem IssueMove.supported (h : IssueMove S w (.event a) it it' ps) (hp : p ∈ ps)
    (hit : it.Coherent S) (hcit : CitesLog S log a) (hagr : Agrees S log it)
    (hbd : it'.phase.isTerminal = false → it'.currentAuthority.Binds it'.issue) :
    Supported S a (evidenceLog log).events p it'.currentAuthority := by
  have hiss := h.frame.1
  obtain ⟨hps, hder, -⟩ := (h.ledgerWrite hit).of_mem hp
  have hpl : p.issue ∈ S.plan.finalScope := hps ▸ hit.planned
  rw [hiss, ← hps] at hbd
  obtain rfl := h.eq_singleton hp
  cases h with
  | opened _ _ tick _ phase =>
    obtain ⟨hsj, -, -, hsb, -⟩ := RunSetup.tick_of_isTick hcit.under tick
    refine ⟨hpl, hder, ⟨rfl, rfl, rfl, rfl, rfl, rfl, rfl⟩, rfl, hbd rfl,
      runId_ne_of_citesLog hcit, hcit.run_eq, hcit.plan_eq,
      .inr ⟨hsj, hsb, fun origin hor => ?_⟩⟩
    obtain ⟨_, hor', hsame⟩ := hagr (by rw [phase]; rfl)
    cases hor'.symm.trans hor
    exact hsame a.event.sequence hcit.later
  | handled _ _ _ _ h =>
    obtain ⟨hexp, hsj, hact⟩ := h.cause hp
    rw [authorizedAll_eq] at hbd ⊢
    exact ⟨hpl, hder, h.wellFormed hp, hexp, hbd hact,
      runId_ne_of_citesLog hcit, hcit.run_eq, hcit.plan_eq, .inl hsj⟩

theorem IssueMove.exceptions_iff (h : IssueMove S w (.event a) it it' ps) (hp : p ∈ ps)
    (hcit : CitesLog S log a) (hpas : Passed log it)
    (hf : (evidenceLog (log ++ [a])).CollisionFree hash) :
    p.NamesCanonicalDefect ∧ CauseResolves S a (evidenceLog (log ++ [a])) p ↔
      CanonicalDefects a ∧ ResolvesOwnResult log a := by
  obtain rfl := h.eq_singleton hp
  cases h with
  | opened _ _ tick =>
    obtain ⟨-, heff, hr, hsb, -⟩ := RunSetup.tick_of_isTick hcit.under tick
    refine iff_of_true ⟨namesCanonicalDefect_of_none rfl,
      hcit.causeResolves_of_subjectless hsb heff hr⟩ ?_
    refine unexceptional_of_resultVersion ?_
    cases hc : a.event.eventType <;>
      first | rfl | (simp [hc, EventType.isSubjectlessCause] at hsb)
  | handled _ _ _ _ h => exact h.exceptions_iff hp hcit hpas hf

end Proposals

namespace RunSetup

/-- **When the contract layer accepts what the reducer proposes.**  In a run whose
admissions cite exactly the accepted log, under a compiled plan, a proposal of an
accepted event is materialised, with that event as its cause, a later sequence, a
later provenance and the accepted log as its evidence, if and only if the event is
no verdict that names a known defect otherwise than by a canonical registry
reference, and no result under the id of an earlier, different one. -/
theorem ReachesLogged.materializes_iff {h : List (RunStep hash)} {s : DeliveryRunState}
    {a : AdmittedEvent hash} {r : Reduction} {p : EffectProposal} {sequence : ℕ}
    {provenance : Provenance} (hrun : S.ReachesLogged h s)
    (hallow : S.plan.effectAllowlist = effectAllowlist)
    (hadmits : S.AdmitsLogged h s (.event a)) (hstep : reduceDeliveryRun s a = .ok r)
    (hp : p ∈ r.effects) (hfollows : Follows S a p sequence provenance)
    (hfree : (evidenceLog (acceptedEvents h ++ [a])).CollisionFree hash) :
    (∃ effect, materializeEffect hash p r.state S.plan a.event sequence provenance
        (evidenceLog (acceptedEvents h ++ [a])) = .ok effect) ↔
      CanonicalDefects a ∧ ResolvesOwnResult (acceptedEvents h) a := by
  have hord := hrun.reachesOrdered
  have hs := hord.reaches.inv
  have hnx := hrun.event hadmits hstep
  rcases step_cases hs hadmits.admitsOrdered.admits hstep with ⟨reason, rfl⟩ | hacc
  · cases hp
  · obtain ⟨it, hit, it', hit', ps, hps, hmv⟩ := hacc.exists_move hp
    have hcit := citesLog_of_admitsLogged hs (hacc.event_gate a rfl) hadmits
    have hsp := hmv.supported hps (hs.coherent it hit) hcit (hord.agrees hit)
      (hnx.reachesOrdered.binds hit')
    rw [← hcit.eventsBefore_eq] at hsp
    rw [hsp.materializeEffect_iff hnx.reachesOrdered.reaches.inv hallow hfollows]
    exact hmv.exceptions_iff hps hcit (hord.reaches.passed it hit) hfree

/-- The record of a defect under a canonical reference is materialised. -/
theorem materializes_of_canonical_reference :
    ∃ x, Demo.reviewedRun (Demo.riskVerdict "registry:owner/repo/issues/9:KD-0123456789AB") =
        .ok x ∧
      ∃ st, x.history.getLast? = some st ∧ ∃ a, st.acceptedEvent = some a ∧
        ∃ p ∈ st.result.effects, p.effectClass = .recordKnownDefect ∧
          ∃ effect, materializeEffect Demo.digest p x.state Demo.plan a.event
            (a.event.sequence + 1) Demo.provenance x.log = .ok effect := by
  obtain ⟨x, hx, hef, hrs, hrv, st, hst, a, ha, hcan, hres, hrev,
      hev, p, hp, hcls, hau⟩ :
      ∃ x, Demo.reviewedRun (Demo.riskVerdict "registry:owner/repo/issues/9:KD-0123456789AB") =
          .ok x ∧
        (∀ e ∈ x.log.effects, ∀ e' ∈ x.log.effects,
          Demo.digest e.semanticInput = Demo.digest e'.semanticInput → e = e') ∧
        (∀ r ∈ x.log.workerResults, ∀ r' ∈ x.log.workerResults,
          r.ref Demo.digest = r'.ref Demo.digest → r = r') ∧
        (∀ r ∈ x.log.reviewResults, ∀ r' ∈ x.log.reviewResults,
          r.ref Demo.digest = r'.ref Demo.digest → r = r') ∧
        ∃ st ∈ x.history.getLast?, ∃ a ∈ st.acceptedEvent,
          (∀ review ∈ a.recordedReview, ∀ r ∈ review.knownDefectRefs,
            isCanonicalRegistryRef review.issue.repository r = true) ∧
          (∀ result ∈ a.recordedResult,
            (x.log.workerResults.find? fun item => item.resultId == result.resultId) =
              some result) ∧
          (∀ review ∈ a.recordedReview,
            (x.log.reviewResults.find? fun item => item.resultId == review.resultId) =
              some review) ∧
          a.event.provenance.createdAt ≤ Demo.provenance.createdAt ∧
          ∃ p ∈ st.result.effects, p.effectClass = .recordKnownDefect ∧
            ∀ authority ∈ p.expectedAuthorities,
              authority.observedAt ≤ Demo.provenance.createdAt := by decide +kernel
  obtain ⟨h, hhs, hrun, hadm, hstep, hstate⟩ := Session.last_step hst
  have hlog := Session.log_concat hhs ha
  obtain ⟨hinp, -⟩ := RunStep.acceptedEvent_eq_some_iff.mp ha
  rw [hinp] at hadm hstep
  have hfr := EvidenceLog.collisionFree_of_distinct hef hrs hrv
  rw [hlog] at hfr hres hrev
  refine ⟨x, hx, st, hst, a, ha, p, hp, hcls, ?_⟩
  rw [hstate, hlog]
  exact (ReachesLogged.materializes_iff hrun rfl hadm hstep hp
    ⟨Nat.lt_succ_self _, le_rfl, hev, hau⟩ hfr).mpr ⟨hcan, hres, hrev⟩

/-- The record of a defect under another reference is proposed and not materialised. -/
theorem risk_verdict_not_materialized :
    ∃ h s a r, Demo.setup.ReachesLogged h s ∧ Demo.setup.AdmitsLogged h s (.event a) ∧
      reduceDeliveryRun s a = .ok r ∧ r.refusal = none ∧
      ∃ p ∈ r.effects, Follows Demo.setup a p (a.event.sequence + 1) Demo.provenance ∧
        materializeEffect Demo.digest p r.state Demo.plan a.event (a.event.sequence + 1)
            Demo.provenance (evidenceLog (acceptedEvents h ++ [a])) =
          .error "known-defect target must use canonical repository registry identity" := by
  obtain ⟨x, -, st, hst, a, ha, hev, p, hp, hau, herr⟩ :
      ∃ x, Demo.reviewedRun (Demo.riskVerdict "KD-1") = .ok x ∧
        ∃ st ∈ x.history.getLast?, ∃ a ∈ st.acceptedEvent,
          a.event.provenance.createdAt ≤ Demo.provenance.createdAt ∧
          ∃ p ∈ st.result.effects,
            (∀ authority ∈ p.expectedAuthorities,
              authority.observedAt ≤ Demo.provenance.createdAt) ∧
            materializeEffect Demo.digest p st.result.state Demo.plan a.event
                (a.event.sequence + 1) Demo.provenance x.log =
              .error "known-defect target must use canonical repository registry identity" := by
    decide +kernel
  obtain ⟨h, hh, hrun, hadm, hstep, -⟩ := Session.last_step hst
  have hlog := Session.log_concat hh ha
  obtain ⟨hinp, href⟩ := RunStep.acceptedEvent_eq_some_iff.mp ha
  rw [hinp] at hadm hstep
  rw [hlog] at herr
  exact ⟨h, st.before, a, st.result, hrun, hadm, hstep, href, p, hp,
    ⟨Nat.lt_succ_self _, le_rfl, hev, hau⟩, herr⟩

end RunSetup

end AgenticPkm.Builderops
