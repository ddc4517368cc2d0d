import AgenticPkm.Builderops.Reducer.Ledger
import AgenticPkm.Builderops.Reducer.Session

/-!
# Independent events

An event about one Issue reads the gate of the run and that Issue, and writes that
Issue, the version and the set of seen events.  Nothing here is about runs: the state may
be any state whose Issues have distinct keys.

* `independent_events_commute` — **events about different Issues commute**.
-/

namespace AgenticPkm.Builderops

open List

variable {hash : Json → String}

/-! ### The handlers stay with their Issue -/

/-- A decision that updates one Issue and proposes derivable effects for it. -/
def IssueDecision.About (issue : IssueScope) : IssueDecision → Prop
  | .refused _ => True
  | .advanced updated ps => updated.issue = issue ∧ ∀ p ∈ ps, p.issue = issue ∧ p.Derivable

section Handlers

variable {a : AdmittedEvent hash} {it : IssueRunState}

theorem about_refused (issue : IssueScope) (r : RefusalReason) :
    (IssueDecision.refused r).About issue := trivial

variable {u : IssueRunState} {next : EffectClass}

theorem about_quiet (h : u.issue = it.issue) : (IssueDecision.advanced u []).About it.issue :=
  ⟨h, forall_mem_nil _⟩

theorem about_single {p : EffectProposal} (h : u.issue = it.issue) (hp : p.issue = it.issue)
    (hd : p.Derivable) : (IssueDecision.advanced u [p]).About it.issue :=
  ⟨h, forall_mem_singleton.mpr ⟨hp, hd⟩⟩

theorem about_advanceOutcome (p : RunPhase) (hn : next ≠ .recordKnownDefect) :
    (advanceOutcome p next a it).About it.issue :=
  about_single rfl rfl fun hcls => absurd hcls hn

theorem about_reduceOutcome (p : RunPhase) (hn : next ≠ .recordKnownDefect) :
    (reduceOutcome p next a it).About it.issue := by
  unfold reduceOutcome
  split
  · exact about_refused _ _
  · exact about_advanceOutcome p hn

variable {e : ReducerEffect}

theorem about_reduceWorkerLaunched (h : a.effect = some e) :
    ∃ d, reduceWorkerLaunched a it = .ok d ∧ d.About it.issue := by
  simp only [reduceWorkerLaunched, h, getOrRaise_some, ok_bind]
  exact ⟨_, rfl, about_quiet rfl⟩

theorem about_reduceReceiptRecorded (r : List AcceptanceEvidenceKind) :
    (reduceReceiptRecorded r a it).About it.issue := by
  unfold reduceReceiptRecorded
  split
  · exact about_refused _ _
  · dsimp only
    split
    · exact about_quiet rfl
    · exact about_quiet rfl

theorem about_reduceReviewRecorded : (reduceReviewRecorded a it).About it.issue := by
  unfold reduceReviewRecorded
  split
  · exact about_refused _ _
  · exact about_quiet rfl

theorem about_reduceWorkerResult {r : WorkerResultV2} (h : a.workerResult = some r) :
    ∃ d, reduceWorkerResult a it = .ok d ∧ d.About it.issue := by
  simp only [reduceWorkerResult, h, getOrRaise_some, ok_bind]
  split
  · exact ⟨_, rfl, about_refused _ _⟩
  · split
    · exact ⟨_, rfl, about_quiet rfl⟩
    · split
      · split
        · exact ⟨_, rfl, about_refused _ _⟩
        · exact ⟨_, rfl, about_single rfl rfl fun hcls => by cases hcls⟩
      · exact ⟨_, rfl, about_refused _ _⟩

theorem about_reduceReviewResult {r : ReviewResult} (h : a.reviewResult = some r) :
    ∃ d, reduceReviewResult a it = .ok d ∧ d.About it.issue := by
  simp only [reduceReviewResult, h, getOrRaise_some, ok_bind]
  split
  · exact ⟨_, rfl, about_refused _ _⟩
  · split
    · exact ⟨_, rfl, about_refused _ _⟩
    · split
      · exact ⟨_, rfl, about_quiet rfl⟩
      · split
        · exact ⟨_, rfl, about_single rfl rfl fun hcls => by cases hcls⟩
        · split
          · exact ⟨_, rfl, about_single rfl rfl fun _ => ⟨rfl, rfl⟩⟩
          · exact ⟨_, rfl, about_quiet rfl⟩

theorem about_reduceKnownDefectRecorded (h : a.effect = some e) :
    ∃ d, reduceKnownDefectRecorded a it = .ok d ∧ d.About it.issue := by
  simp only [reduceKnownDefectRecorded, h, getOrRaise_some, ok_bind]
  split
  · exact ⟨_, rfl, about_refused _ _⟩
  · split
    · exact ⟨_, rfl, about_refused _ _⟩
    · exact ⟨_, rfl, about_advanceOutcome _ (by decide)⟩

theorem about_reduceEffectFailed (h : a.effect = some e) :
    ∃ d, reduceEffectFailed a it = .ok d ∧ d.About it.issue := by
  simp only [reduceEffectFailed, h, getOrRaise_some, ok_bind]
  split
  · exact ⟨_, rfl, about_refused _ _⟩
  · split
    · exact ⟨_, rfl, about_quiet rfl⟩
    · exact ⟨_, rfl, about_quiet rfl⟩

theorem about_reduceAuthorityChanged {sb : AuthoritySnapshot}
    (h : a.event.subjectAuthority = some sb) :
    ∃ d, reduceAuthorityChanged a it = .ok d ∧ d.About it.issue := by
  simp only [reduceAuthorityChanged, h, getOrRaise_some, ok_bind]
  split
  · exact ⟨_, rfl, about_quiet rfl⟩
  · exact ⟨_, rfl, about_quiet rfl⟩

/-- **A handler does not raise on an admitted event about an Issue**, and what it
decides stays with the Issue it was given. -/
theorem issueHandler_total {is : IssueScope} (hs : a.subjectIssue = some is)
    (r : List AcceptanceEvidenceKind) (it : IssueRunState) :
    ∃ d, issueHandler r a it = .ok d ∧ d.About it.issue := by
  obtain ⟨_, hi⟩ := a.admitted
  unfold issueHandler
  cases admissionView hi with
  | tick _ _ _ _ _ _ hn => simp [hn] at hs
  | exception _ _ _ _ _ _ hn => simp [hn] at hs
  | authorityChanged _ _ signal _ report =>
    rw [signal]
    exact about_reduceAuthorityChanged report.subject_eq
  | workerResult _ _ signal _ report =>
    rw [signal]
    exact about_reduceWorkerResult report.result_eq
  | reviewResult _ _ signal _ report =>
    rw [signal]
    exact about_reduceReviewResult report.result_eq
  | failed _ _ _ signal _ report =>
    rw [signal]
    exact about_reduceEffectFailed report.effect_eq
  | succeeded e _ _ signal _ report =>
    rw [signal]
    cases e.effectClass with
    | claimIssue => exact ⟨_, rfl, about_single rfl rfl fun hcls => by cases hcls⟩
    | launchWorker => exact about_reduceWorkerLaunched report.effect_eq
    | awaitCi | mergePullRequest | closeIssue => exact ⟨_, rfl, about_reduceOutcome _ (by decide)⟩
    | requestReview => exact ⟨_, rfl, about_reduceReviewRecorded⟩
    | recordKnownDefect => exact about_reduceKnownDefectRecorded report.effect_eq
    | recordDeliveryReceipt => exact ⟨_, rfl, about_reduceReceiptRecorded r⟩

end Handlers

/-! ### One event about one Issue -/

/-- What an event about the Issue of a key comes to in a state. -/
def issueDecision (s : DeliveryRunState) (a : AdmittedEvent hash) (key : String × ℕ) :
    Except String IssueDecision :=
  match eventGate s a.event, s.issueState key with
  | some reason, _ => pure (.refused reason)
  | none, none => pure (.refused .foreignRun)
  | none, some it =>
      if !(transitionMatrix it.phase a.signal).legal then pure (.refused .illegalTransition)
      else if a.effect.any fun effect => !isAuthorizedEffect it effect then
        pure (.refused .unauthorizedEffect)
      else
        issueHandler s.requiredAcceptanceEvidence a it

def conclude (hash : Json → String) (s : DeliveryRunState) (eventId : String) :
    IssueDecision → Reduction
  | .refused reason => refuse s reason
  | .advanced updated ps =>
      { state :=
          { s with
            version := s.version + 1
            issues := modifyBy IssueRunState.scopeKey updated.scopeKey
              (fun _ => updated.authorizedAll hash s ps) s.issues
            seenEventIds := sortedSet (s.seenEventIds ++ [eventId]) }
        effects := ps }

section Events

variable {s : DeliveryRunState} {a : AdmittedEvent hash} {i : IssueScope}

/-- A decision that only concerns the Issue of a key, which is in the run. -/
def IssueDecision.At (s : DeliveryRunState) (key : String × ℕ) (d : IssueDecision) : Prop :=
  ∀ updated ps, d = .advanced updated ps →
    ∃ it ∈ s.issues, it.scopeKey = key ∧ d.About it.issue

theorem issueDecision_total (hd : DistinctKeys IssueRunState.scopeKey s.issues)
    (hs : a.subjectIssue = some i) :
    ∃ d, issueDecision s a i.scopeKey = .ok d ∧ d.At s i.scopeKey := by
  unfold issueDecision
  cases hg : eventGate s a.event with
  | some => exact ⟨_, rfl, fun _ _ h => by cases h⟩
  | none =>
    cases hf : s.issueState i.scopeKey with
    | none => exact ⟨_, rfl, fun _ _ h => by cases h⟩
    | some it =>
      dsimp only
      split
      · exact ⟨_, rfl, fun _ _ h => by cases h⟩
      · split
        · exact ⟨_, rfl, fun _ _ h => by cases h⟩
        · obtain ⟨d, hdec, ha⟩ := issueHandler_total hs s.requiredAcceptanceEvidence it
          obtain ⟨hit, hk⟩ := hd.find?_eq_some_iff.mp hf
          exact ⟨d, hdec, fun _ _ _ => ⟨it, hit, hk, ha⟩⟩

theorem concludeIssue_eq (hd : DistinctKeys IssueRunState.scopeKey s.issues) {key : String × ℕ}
    {d : IssueDecision} (hat : d.At s key) :
    concludeIssue s a d = .ok (conclude hash s a.event.eventId d) := by
  cases d with
  | refused => rfl
  | advanced updated ps =>
    obtain ⟨it, hit, -, hi, hps⟩ := hat updated ps rfl
    have hkey : updated.scopeKey = it.scopeKey := congrArg IssueScope.scopeKey hi
    obtain ⟨issues', hiss'⟩ : ∃ issues',
        recordAuthorizations hash s (replaceIssue s.issues updated) ps = .ok issues' :=
      recordAuthorizations_total (fun p hp => (hps p hp).2) _
    have hpa : issues' = modifyBy IssueRunState.scopeKey updated.scopeKey
        (fun _ => updated.authorizedAll hash s ps) s.issues := by
      have hrec := hiss'
      rw [replaceIssue, replaceBy, hkey, ← hd.flatMap_ite hit ps] at hrec
      rw [recordAuthorizations_eq hd ?_ ?_ hrec, modifyBy, hkey]
      · refine map_congr_left fun x _ => ?_
        by_cases hx : x.scopeKey = it.scopeKey
        · simp [hx]
        · simp [hx]
      · exact fun x _ => scopeKey_ite hkey x
      · exact fun x _ p hp => scopeKey_of_mem_ite (fun p hp => (hps p hp).1) hp
    simp only [concludeIssue, advance, hiss', ok_bind, hpa]
    rfl

theorem AdmittedEvent.signal_of_subjectIssue (hs : a.subjectIssue = some i) :
    a.signal.isTick = false ∧ (a.signal == .exceptionRecorded) = false := by
  obtain ⟨_, hi⟩ := a.admitted
  cases admissionView hi with
  | tick _ _ _ _ _ _ hn => simp [hn] at hs
  | exception _ _ _ _ _ _ hn => simp [hn] at hs
  | authorityChanged _ _ signal | workerResult _ _ signal | reviewResult _ _ signal
  | failed _ _ _ signal =>
    rw [signal]
    exact ⟨rfl, rfl⟩
  | succeeded effect _ _ signal =>
    rw [signal]
    cases effect.effectClass <;> exact ⟨rfl, rfl⟩

/-- **The reduction of an event about one Issue**: decide, and conclude. -/
theorem reduceDeliveryRun_eq (hd : DistinctKeys IssueRunState.scopeKey s.issues)
    (hs : a.subjectIssue = some i) {d : IssueDecision}
    (hdec : issueDecision s a i.scopeKey = .ok d) (hat : d.At s i.scopeKey) :
    reduceDeliveryRun s a = .ok (conclude hash s a.event.eventId d) := by
  obtain ⟨ht, hexc⟩ := AdmittedEvent.signal_of_subjectIssue hs
  unfold issueDecision at hdec
  unfold reduceDeliveryRun
  cases hg : eventGate s a.event with
  | some =>
    simp only [hg, pure_eq_ok_iff] at hdec
    subst hdec
    rfl
  | none =>
    simp only [hg] at hdec
    simp only [ht, hexc, Bool.false_eq_true, if_false, reduceIssueEvent, hs]
    cases hf : s.issueState i.scopeKey with
    | none =>
      simp only [hf, pure_eq_ok_iff] at hdec
      subst hdec
      rfl
    | some =>
      simp only [hf] at hdec ⊢
      split at hdec
      next hill =>
        rw [if_pos hill]
        obtain rfl := pure_eq_ok_iff.mp hdec
        rfl
      next hleg =>
        rw [if_neg hleg]
        split at hdec
        next hu =>
          rw [if_pos hu]
          obtain rfl := pure_eq_ok_iff.mp hdec
          rfl
        next ha =>
          rw [if_neg ha, hdec, ok_bind]
          exact concludeIssue_eq hd hat

end Events

/-! ### Two events -/

/-- What an event about the Issue of a key sees of a run. -/
structure SameView (eventId : String) (key : String × ℕ) (s s' : DeliveryRunState) : Prop where
  runId_eq : s'.runId = s.runId
  planRef_eq : s'.planRef = s.planRef
  lifecycle_eq : s'.lifecycle = s.lifecycle
  evidence_eq : s'.requiredAcceptanceEvidence = s.requiredAcceptanceEvidence
  seen_iff : eventId ∈ s'.seenEventIds ↔ eventId ∈ s.seenEventIds
  issue_eq : s'.issueState key = s.issueState key

section Pairs

variable {s s' : DeliveryRunState} {a b : AdmittedEvent hash} {i j : IssueScope}
  {da db : IssueDecision} {key : String × ℕ} {d : IssueDecision}

theorem SameView.issueDecision_eq (h : SameView a.event.eventId key s s') :
    issueDecision s' a key = issueDecision s a key := by
  have hg : eventGate s' a.event = eventGate s a.event := by
    have hs : s'.seenEventIds.contains a.event.eventId =
        s.seenEventIds.contains a.event.eventId := by
      rw [Bool.eq_iff_iff, contains_iff_mem, contains_iff_mem]
      exact h.seen_iff
    simp only [eventGate, h.runId_eq, h.planRef_eq, h.lifecycle_eq, hs]
  simp only [issueDecision, hg, h.issue_eq, h.evidence_eq]

variable {ei : String} {key' : String × ℕ} {d' : IssueDecision}

theorem sameView_conclude (hi : a.event.eventId ≠ ei) (hkeys : i.scopeKey ≠ key) (hat : d.At s key)
    : SameView a.event.eventId i.scopeKey s (conclude hash s ei d).state := by
  cases d with
  | refused => exact ⟨rfl, rfl, rfl, rfl, Iff.rfl, rfl⟩
  | advanced updated ps =>
    obtain ⟨_, -, hk, hiss, -⟩ := hat updated ps rfl
    have hu : updated.scopeKey = key := (congrArg IssueScope.scopeKey hiss).trans hk
    refine ⟨rfl, rfl, rfl, rfl, ?_, ?_⟩
    · simp [conclude, hi]
    · refine find?_modifyBy_of_ne (by rwa [hu]) ?_ s.issues
      intro x _
      rw [authorizedAll_eq]
      rfl

theorem map_scopeKey_conclude (e : String) (d : IssueDecision) :
    (conclude hash s e d).state.issues.map IssueRunState.scopeKey =
      s.issues.map IssueRunState.scopeKey := by
  cases d with
  | refused => rfl
  | advanced =>
    refine map_key_modifyBy fun x _ => ?_
    rw [authorizedAll_eq]
    rfl

theorem IssueDecision.At.conclude (hkeys : key ≠ key') (hat : d.At s key) (hat' : d'.At s key') :
    d.At (conclude hash s ei d').state key := by
  intro updated ps hadv
  obtain ⟨it, hit, hk, ha⟩ := hat updated ps hadv
  refine ⟨it, ?_, hk, ha⟩
  cases d' with
  | refused => exact hit
  | advanced updated' ps' =>
    obtain ⟨_, -, hk', hi', -⟩ := hat' updated' ps' rfl
    have hu' : updated'.scopeKey = key' := (congrArg IssueScope.scopeKey hi').trans hk'
    refine mem_map.mpr ⟨it, hit, if_neg ?_⟩
    rw [hk, hu']
    exact hkeys

theorem sortedSet_concat_comm (seen : List String) (e e' : String) :
    sortedSet (sortedSet (seen ++ [e]) ++ [e']) = sortedSet (sortedSet (seen ++ [e']) ++ [e]) := by
  refine sortedSet_congr fun x => ?_
  simp only [mem_append, mem_sortedSet, mem_singleton]
  tauto

/-- **Conclusions on different Issues commute.** -/
theorem conclude_comm {e e' : String} (hkeys : key ≠ key') (hat : d.At s key)
    (hat' : d'.At s key') :
    (conclude hash (conclude hash s e d).state e' d').state =
      (conclude hash (conclude hash s e' d').state e d).state := by
  cases d with
  | refused => rfl
  | advanced updated ps =>
    cases d' with
    | refused => rfl
    | advanced updated' ps' =>
      obtain ⟨_, -, hkey, hi, -⟩ := hat updated ps rfl
      obtain ⟨_, -, hkey', hi', -⟩ := hat' updated' ps' rfl
      have hne : updated'.scopeKey ≠ updated.scopeKey := by
        intro heq
        refine hkeys ?_
        rw [← hkey, ← hkey']
        exact (congrArg IssueScope.scopeKey hi).symm.trans
          (heq.symm.trans (congrArg IssueScope.scopeKey hi'))
      have hk : ∀ (updated : IssueRunState) (ps : List EffectProposal),
          (updated.authorizedAll hash s ps).scopeKey = updated.scopeKey := by
        intro updated ps
        rw [authorizedAll_eq]
        rfl
      -- the identities of proposals do not depend on the Issues
      have hf : updated.authorizedAll hash
          (conclude hash s e' (.advanced updated' ps')).state ps =
            updated.authorizedAll hash s ps := authorizedAll_congr rfl rfl rfl ps updated
      have hs : updated'.authorizedAll hash
          (conclude hash s e (.advanced updated ps)).state ps' =
            updated'.authorizedAll hash s ps' := authorizedAll_congr rfl rfl rfl ps' updated'
      have hiss := modifyBy_comm hne (fun _ _ => hk updated' ps')
        (fun _ _ => hk updated ps) s.issues
      rw [conclude, hs]
      conv_rhs => rw [conclude, hf]
      simp [conclude, hiss, sortedSet_concat_comm s.seenEventIds e e']

/-- **Independent events commute.**  In any state whose Issues have distinct keys,
two admitted events with different ids about different Issues are reduced without
raising; either order leads to the same state, and each event meets the same
refusal, or proposes the same effects, in both orders. -/
theorem independent_events_commute (hd : DistinctKeys IssueRunState.scopeKey s.issues)
    (hids : a.event.eventId ≠ b.event.eventId) (hi : a.subjectIssue = some i)
    (hj : b.subjectIssue = some j) (hkeys : i.scopeKey ≠ j.scopeKey) :
    ∃ ra rb ra' rb',
      reduceDeliveryRun s a = .ok ra ∧ reduceDeliveryRun ra.state b = .ok rb ∧
      reduceDeliveryRun s b = .ok rb' ∧ reduceDeliveryRun rb'.state a = .ok ra' ∧
      rb.state = ra'.state ∧
      (ra.refusal = ra'.refusal ∧ ra.effects = ra'.effects) ∧
      (rb.refusal = rb'.refusal ∧ rb.effects = rb'.effects) := by
  obtain ⟨da, hda, ha⟩ := issueDecision_total hd hi
  obtain ⟨db, hdb, hatb⟩ := issueDecision_total hd hj
  -- neither event sees what the other one does
  have hv := sameView_conclude (a := b) hids.symm hkeys.symm ha
  have hvw := sameView_conclude (a := a) hids hkeys hatb
  refine ⟨_, _, _, _, reduceDeliveryRun_eq hd hi hda ha,
    reduceDeliveryRun_eq ?_ hj (hv.issueDecision_eq.trans hdb) ?_,
    reduceDeliveryRun_eq hd hj hdb hatb,
    reduceDeliveryRun_eq ?_ hi (hvw.issueDecision_eq.trans hda) ?_,
    conclude_comm hkeys ha hatb, ?_, ?_⟩
  · exact hd.of_map_eq (map_scopeKey_conclude _ _)
  · exact hatb.conclude hkeys.symm ha
  · exact hd.of_map_eq (map_scopeKey_conclude _ _)
  · exact ha.conclude hkeys hatb
  · cases da <;> exact ⟨rfl, rfl⟩
  · cases db <;> exact ⟨rfl, rfl⟩

end Pairs

/-- The labels of two Issues change, in either order. -/
theorem label_changes_commute :
    ∃ a b : AdmittedEvent Demo.digest, a.subjectIssue = some (Demo.issue 1) ∧
      b.subjectIssue = some (Demo.issue 2) ∧ ∃ ra rb ra' rb',
        reduceDeliveryRun Demo.initialState a = .ok ra ∧ reduceDeliveryRun ra.state b = .ok rb ∧
        reduceDeliveryRun Demo.initialState b = .ok rb' ∧
        reduceDeliveryRun rb'.state a = .ok ra' ∧ rb.state = ra'.state := by
  obtain ⟨a, -, b, -, hi, hj, hids⟩ :
      ∃ a, admitReducerEvent Demo.digest (Demo.labelChange 1 1) = .ok a ∧
        ∃ b, admitReducerEvent Demo.digest (Demo.labelChange 2 2) = .ok b ∧
          a.subjectIssue = some (Demo.issue 1) ∧ b.subjectIssue = some (Demo.issue 2) ∧
          a.event.eventId ≠ b.event.eventId := by decide +kernel
  have hkeys : (Demo.initialState.issues.map IssueRunState.scopeKey).Nodup := by decide +kernel
  obtain ⟨ra, rb, ra', rb', hra, hrb, hrb', hra', hs, -⟩ :=
    independent_events_commute hkeys hids hi hj (by decide)
  exact ⟨a, b, hi, hj, ra, rb, ra', rb', hra, hrb, hrb', hra', hs⟩

end AgenticPkm.Builderops
