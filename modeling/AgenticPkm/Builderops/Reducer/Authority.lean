import AgenticPkm.Builderops.Reducer.Invariant
import AgenticPkm.Builderops.Reducer.Session

/-!
# The authority a run believes in

The reducer keeps, for every Issue, the authority its handlers last saw; the
contract layer resolves the same authority from the event log.  The two are
written independently: one takes the subject of every event it handles, the other
the last of the events that advance an authority.

* `ReachesOrdered.authority_agrees_with_log` — they agree on every active Issue of a run
  whose events are admitted against its accepted events, in order.
-/

namespace AgenticPkm.Builderops

open List

variable {hash : Json → String} {S : RunSetup hash}

/-! ### What a log proves -/

/-- The authority of an Issue as a list of events proves it, from an origin. -/
def logAuthority (S : RunSetup hash) (issue : IssueScope) (origin : AuthoritySnapshot)
    (beforeSequence : ℕ) (log : List (AdmittedEvent hash)) : AuthoritySnapshot :=
  resolveCurrentAuthority issue.authorityId origin S.runId (S.plan.ref hash) beforeSequence
    (log.map fun a => a.event)

/-- The authority of an active Issue is the one its log proves, from the plan's. -/
def Agrees (S : RunSetup hash) (log : List (AdmittedEvent hash)) (it : IssueRunState) : Prop :=
  it.phase.isTerminal = false →
    ∃ origin, plannedAuthority S.plan it.issue = some origin ∧
      ∀ beforeSequence, (∀ b ∈ log, b.event.sequence < beforeSequence) →
        sameAuthorityState it.currentAuthority
          (logAuthority S it.issue origin beforeSequence log) = true

/-- An authority is that of an Issue, under the contract the Issue was planned with. -/
def AuthoritySnapshot.Binds (authority : AuthoritySnapshot) (issue : IssueScope) : Prop :=
  authority.authorityId = issue.authorityId ∧ authority.contentHash = issue.contractHash

variable {plan : DeliveryPlan} {issue : IssueScope} {a : AdmittedEvent hash}
  {subject : AuthoritySnapshot}

theorem binds_of_plannedAuthority {o : AuthoritySnapshot}
    (h : plannedAuthority plan issue = some o) : o.Binds issue := by
  have hf := find?_some h
  simp only [Bool.and_eq_true, beq_iff_eq] at hf
  exact hf

theorem DeliveryPlan.Valid.exists_plannedAuthority (hp : plan.Valid) (hi : issue ∈ plan.finalScope)
    : ∃ origin ∈ plan.inputAuthorities, plannedAuthority plan issue = some origin := by
  obtain ⟨bound, hb, hid, hcn⟩ := hp.authority_bound issue hi
  cases hf : plannedAuthority plan issue with
  | none =>
    have hm := find?_eq_none.mp hf bound hb
    simp [hid, hcn] at hm
  | some origin => exact ⟨origin, mem_of_find?_eq_some hf, rfl⟩

theorem DeliveryPlan.Valid.plannedAuthority_eq (hp : plan.Valid)
    (hi : issue ∈ plan.finalScope) {origin : AuthoritySnapshot}
    (ho : lastBy AuthoritySnapshot.authorityId issue.authorityId plan.inputAuthorities =
      some origin) : plannedAuthority plan issue = some origin := by
  obtain ⟨_, hf, hpl⟩ := hp.exists_plannedAuthority hi
  obtain ⟨hm, hid⟩ := lastBy_eq_some ho
  rw [hpl, hp.authority_distinct.eq_of_key_eq hf hm
    ((binds_of_plannedAuthority hpl).1.trans hid.symm)]

/-! ### Events in order -/

/-- An event of this run and plan, admitted against a log and later than all of it. -/
structure FollowsLog (S : RunSetup hash) (log : List (AdmittedEvent hash))
    (a : AdmittedEvent hash) : Prop where
  admitted : ∃ input, resolveAdmission hash input = .ok a.toAdmission ∧ input.plan = S.plan ∧
    input.priorEvents = log.map fun b => b.event
  later : ∀ b ∈ log, b.event.sequence < a.event.sequence
  run_eq : a.event.runId = S.runId
  plan_eq : a.event.planRef = S.plan.ref hash

theorem followsLog_of_admitsOrdered {h : List (RunStep hash)} {s : DeliveryRunState}
    (hs : S.Inv s) (hg : eventGate s a.event = none) (ha : S.AdmitsOrdered h s (.event a)) :
    FollowsLog S (acceptedEvents h) a := by
  obtain ⟨⟨input, hi, hpl, hp⟩, hl⟩ := ha
  obtain ⟨hrun, -, -, hr⟩ := RunSetup.eventGate_eq_none_iff.mp hg
  have hr : a.event.planRef = S.plan.ref hash := hr.trans hs.planRef_eq
  exact ⟨⟨input, hi, hpl hr, hp⟩, hl, hrun.trans hs.runId_eq, hr⟩

namespace FollowsLog

variable {log : List (AdmittedEvent hash)} {i : IssueScope} {o : AuthoritySnapshot}
  {beforeSequence : ℕ}

theorem under (h : FollowsLog S log a) : a.Under S.plan := by
  obtain ⟨input, hi, hp, -⟩ := h.admitted
  exact ⟨input, hi, hp⟩

theorem logAuthority_of_advancing (h : FollowsLog S log a)
    (hadv : a.event.eventType.isAuthorityAdvancing) (hs : a.event.subjectAuthority = some subject)
    (hid : subject.authorityId = i.authorityId)
    (ha : ∀ b ∈ log ++ [a], b.event.sequence < beforeSequence) :
    logAuthority S i o beforeSequence (log ++ [a]) = subject := by
  have hseq := ha a (mem_append_right _ mem_cons_self)
  have ho : advancingObservation i.authorityId S.runId (S.plan.ref hash) beforeSequence
      a.event = some (a.event.sequence, subject) := by
    simp [advancingObservation, hs, h.run_eq, h.plan_eq, hseq, hadv, hid]
  unfold logAuthority
  rw [map_append]
  exact resolveCurrentAuthority_concat_of_some ho (by simpa using h.later)

theorem logAuthority_of_away (ha : a.event.eventType.isAuthorityAdvancing →
      ∀ subject, a.event.subjectAuthority = some subject → subject.authorityId ≠ i.authorityId) :
    logAuthority S i o beforeSequence (log ++ [a]) = logAuthority S i o beforeSequence log := by
  unfold logAuthority
  rw [map_append]
  refine resolveCurrentAuthority_concat_of_none ?_
  unfold advancingObservation
  cases hs : a.event.subjectAuthority with
  | none => rfl
  | some subject =>
    cases hadv : a.event.eventType.isAuthorityAdvancing with
    | false => simp
    | true => simp [ha hadv subject hs]

theorem same_of_current (h : FollowsLog S log a)
    (hcur : ∀ input, resolveAdmission hash input = .ok a.toAdmission →
      CurrentSubject input i subject) (ho : plannedAuthority S.plan i = some o)
    (ha : ∀ b ∈ log, b.event.sequence < beforeSequence) :
    sameAuthorityState subject (logAuthority S i o beforeSequence log) = true := by
  obtain ⟨input, hinp, hpl, hpr⟩ := h.admitted
  obtain ⟨p, hp, hsame⟩ := hcur input hinp
  have hev : input.event = a.event := by
    obtain ⟨-, -, -, -, -, -, r, -, hfld⟩ := checks_of_resolveAdmission hinp
    rw [hfld]
  rw [hpl, ho] at hp
  cases hp
  rw [hev, hpr, h.run_eq, h.plan_eq] at hsame
  unfold logAuthority
  have ha' : ∀ x ∈ log.map fun b => b.event, x.sequence < beforeSequence := by
    simpa using ha
  have hlat : ∀ x ∈ log.map fun b => b.event, x.sequence < a.event.sequence := by
    simpa using h.later
  rw [resolveCurrentAuthority_of_above ha' hlat]
  exact hsame

end FollowsLog

theorem AdmittedEvent.subject_of_advancing (hu : a.Under plan)
    (ha : a.event.eventType.isAuthorityAdvancing) (hs : a.event.subjectAuthority = some subject) :
    ∃ issue ∈ plan.finalScope, a.subjectIssue = some issue ∧
      subject.authorityId = issue.authorityId := by
  obtain ⟨_, hi, rfl⟩ := hu
  cases admissionView hi with
  | tick _ hn => simp [hn] at hs
  | exception _ _ _ _ hn => simp [hn] at hs
  | workerResult _ _ _ type | reviewResult _ _ _ type | failed _ _ _ _ type =>
    simp [type, EventType.isAuthorityAdvancing] at ha
  | authorityChanged _ issue _ _ report =>
    cases report.subject_eq.symm.trans hs
    exact ⟨issue, report.planned, report.issue_eq, report.subject_id.symm⟩
  | succeeded effect _ _ _ _ report =>
    cases report.subject_eq.symm.trans hs
    exact ⟨effect.issue, report.planned, report.issue_eq, report.subject_id⟩

variable {ip : AdmissionInput}

theorem currentSubject_of_worker (hi : resolveAdmission hash ip = .ok a.toAdmission)
    (type : a.event.eventType = .workerResultRecorded) {r : WorkerResultV2}
    (result_eq : a.workerResult = some r) (subject_eq : a.event.subjectAuthority = some subject) :
    CurrentSubject ip r.issue subject := by
  obtain ⟨_, report⟩ := workerReport_of_type hi type result_eq
  cases report.subject_eq.symm.trans subject_eq
  exact report.current

theorem currentSubject_of_review (hi : resolveAdmission hash ip = .ok a.toAdmission)
    (type : a.event.eventType = .reviewResultRecorded) {r : ReviewResult}
    (result_eq : a.reviewResult = some r) (subject_eq : a.event.subjectAuthority = some subject) :
    CurrentSubject ip r.issue subject := by
  obtain ⟨_, report⟩ := reviewReport_of_type hi type result_eq
  cases report.subject_eq.symm.trans subject_eq
  exact report.current

/-! ### Moves -/

section Moves

variable {w : ℕ} {it it' : IssueRunState} {ps : List EffectProposal}
  {log : List (AdmittedEvent hash)} {or : AuthoritySnapshot}

theorem agrees_of_advancing (hl : FollowsLog S log a)
    (ho : plannedAuthority S.plan it'.issue = some or)
    (hadv : a.event.eventType.isAuthorityAdvancing)
    (hs : a.event.subjectAuthority = some it'.currentAuthority)
    (hid : it'.currentAuthority.authorityId = it'.issue.authorityId) :
    Agrees S (log ++ [a]) it' := by
  intro _
  refine ⟨or, ho, fun beforeSequence ha => ?_⟩
  rw [hl.logAuthority_of_advancing hadv hs hid ha]
  exact sameAuthorityState_refl _

theorem agrees_of_current (hl : FollowsLog S log a)
    (ho : plannedAuthority S.plan it'.issue = some or)
    (hr : a.event.eventType.isAuthorityAdvancing = false)
    (hcur : ∀ ip, resolveAdmission hash ip = .ok a.toAdmission →
      CurrentSubject ip it'.issue it'.currentAuthority) : Agrees S (log ++ [a]) it' := by
  intro _
  refine ⟨or, ho, fun beforeSequence ha => ?_⟩
  rw [FollowsLog.logAuthority_of_away (by simp [hr])]
  refine hl.same_of_current hcur ho fun b hb => ?_
  exact ha b (mem_append_left _ hb)

variable {u : IssueRunState} {r : List AcceptanceEvidenceKind} {i : RunInput hash}

/-- **A handler leaves the authority that the log then proves.** -/
theorem Handled.agrees (h : Handled S.plan r a it u ps) (hl : FollowsLog S log a)
    (ho : plannedAuthority S.plan it.issue = some or)
    (heq : it' = { u with effectLedger := it'.effectLedger }) : Agrees S (log ++ [a]) it' := by
  have hi : it'.issue = it.issue := by
    rw [heq]
    exact h.frame.1
  rw [← hi] at ho
  cases h with
  | workerBlocked | reviewBlocked | delivered | unmet | effectFailed | ciFailed
  | contractDrift =>
    -- these end the Issue
    intro ha
    rw [heq] at ha
    cases ha
  | claimSucceeded effect outcome subject report type
  | workerLaunched effect outcome subject report type
  | outcome effect outcome subject _ _ report type
  | reviewRecorded _ _ _ report type =>
    refine agrees_of_advancing hl ho (by rw [type]; rfl) ?_ ?_
    · rw [heq]
      exact report.subject_eq
    · rw [hi, heq]
      exact report.subject_id.trans (congrArg _ report.own)
  | authorityChanged _ subject_eq type _ subject_id =>
    refine agrees_of_advancing hl ho (by rw [type]; rfl) ?_ ?_
    · rw [heq]
      exact subject_eq
    · rw [hi, heq]
      exact subject_id
  | workerCompleted _ _ _ _ result_eq subject_eq _ own _ type =>
    refine agrees_of_current hl ho (by rw [type]; rfl) fun ip hinp => ?_
    rw [hi, heq, ← own]
    exact currentSubject_of_worker hinp type result_eq subject_eq
  | reviewAccepted result subject result_eq subject_eq _ own _ type
  | reviewDeferred _ _ _ _ result_eq subject_eq _ own _ type =>
    refine agrees_of_current hl ho (by rw [type]; rfl) fun ip hinp => ?_
    rw [hi, heq, ← own]
    exact currentSubject_of_review hinp type result_eq subject_eq

theorem Agrees.away (hagr : Agrees S log it) (hund : a.Under S.plan)
    (hpl : it.issue ∈ S.plan.finalScope) (hiss : it'.issue = it.issue)
    (hau : it'.currentAuthority = it.currentAuthority)
    (hact : it'.phase.isTerminal = false → it.phase.isTerminal = false)
    (haw : ∀ issue, a.subjectIssue = some issue → issue.scopeKey ≠ it.scopeKey) :
    Agrees S (log ++ [a]) it' := by
  intro hact'
  obtain ⟨or, hor, hsame⟩ := hagr (hact hact')
  rw [hiss, hau]
  refine ⟨or, hor, fun beforeSequence hab => ?_⟩
  rw [FollowsLog.logAuthority_of_away]
  · exact hsame beforeSequence fun b hb => hab b (mem_append_left _ hb)
  · intro hadv subject hsj hid
    obtain ⟨issue, hsc, hfd, hsb⟩ := AdmittedEvent.subject_of_advancing hund hadv hsj
    have heq := S.valid.eq_of_authorityId hsc hpl (hsb.symm.trans hid)
    exact haw issue hfd (congrArg IssueScope.scopeKey heq)

/-- **Every move keeps the agreement.** -/
theorem IssueMove.agrees (h : IssueMove S w i it it' ps) (hit : it.Coherent S)
    (hl : ∀ a, i = .event a → FollowsLog S log a) (ha : Agrees S log it) :
    Agrees S (log ++ i.events) it' := by
  cases h with
  | handled a _ _ _ h =>
    obtain ⟨_, ho, -⟩ := ha h.active
    exact h.agrees (hl a rfl) ho (authorizedAll_eq _ _ _)
  | opened a _ _ sb p =>
    refine ha.away (hl a rfl).under hit.planned rfl rfl (fun _ => ?_) (by simp [sb])
    rw [p]
    rfl
  | excepted a _ _ sb active =>
    exact ha.away (hl a rfl).under hit.planned rfl rfl (fun _ => active) (by simp [sb])
  | idle i _ away =>
    cases i with
    | event a => exact ha.away (hl a rfl).under hit.planned rfl rfl id fun issue => away a issue rfl
    | command => simpa [RunInput.events] using ha
  | resumedClaim | resumedPending =>
    rw [RunInput.events, append_nil]
    exact ha
  | terminated _ _ _ _ terminal =>
    intro hact
    rcases terminal with rfl | rfl <;> cases hact

theorem binds_of_current (hl : FollowsLog S log a) (ha : Agrees S log it)
    (hact : it.phase.isTerminal = false) (hb : it.currentAuthority.Binds it.issue)
    {sb : AuthoritySnapshot}
    (hcur : ∀ ip, resolveAdmission hash ip = .ok a.toAdmission →
      CurrentSubject ip it.issue sb) : sb.Binds it.issue := by
  obtain ⟨_, ho, hsame⟩ := ha hact
  have hsb := hl.same_of_current hcur ho hl.later
  have hs := sameAuthorityState_iff.mp
    (sameAuthorityState_trans hsb (sameAuthorityState_symm (hsame _ hl.later)))
  exact ⟨hs.2.1.trans hb.1, hs.2.2.1.trans hb.2⟩

theorem Handled.binds (h : Handled S.plan r a it u ps) (hl : FollowsLog S log a)
    (ha : Agrees S log it) (hb : it.currentAuthority.Binds it.issue)
    (hact : u.phase.isTerminal = false) : u.currentAuthority.Binds u.issue := by
  have hbef := h.active
  cases h with
  | workerBlocked | reviewBlocked | delivered | unmet | effectFailed | ciFailed
  | contractDrift => cases hact
  | claimSucceeded effect outcome subject report type
  | workerLaunched effect outcome subject report type
  | outcome effect outcome subject _ _ report type
  | reviewRecorded _ _ _ report =>
    have ho := report.own
    exact ⟨ho ▸ report.subject_id, ho ▸ report.subject_hash⟩
  | authorityChanged _ _ _ _ subject_id subject_hash => exact ⟨subject_id, subject_hash⟩
  | workerCompleted _ _ _ _ result_eq subject_eq _ own _ type =>
    exact binds_of_current hl ha hbef hb fun ip hi =>
      own ▸ currentSubject_of_worker hi type result_eq subject_eq
  | reviewAccepted result subject result_eq subject_eq _ own _ type
  | reviewDeferred _ _ _ _ result_eq subject_eq _ own _ type =>
    exact binds_of_current hl ha hbef hb fun ip hi =>
      own ▸ currentSubject_of_review hi type result_eq subject_eq

theorem IssueMove.binds (h : IssueMove S w i it it' ps)
    (hl : ∀ a, i = .event a → FollowsLog S log a) (ha : Agrees S log it)
    (hb : it.phase.isTerminal = false → it.currentAuthority.Binds it.issue)
    (hact : it'.phase.isTerminal = false) : it'.currentAuthority.Binds it'.issue := by
  have hbef := h.active_of_active hact
  cases h with
  | handled a _ u _ h =>
    rw [authorizedAll_eq] at hact ⊢
    exact h.binds (hl a rfl) ha (hb hbef) hact
  | opened | excepted | idle | resumedClaim | resumedPending | terminated => exact hb hbef

end Moves

namespace RunSetup

variable {h : List (RunStep hash)} {s : DeliveryRunState}

theorem ReachesOrdered.agrees_and_binds (hr : S.ReachesOrdered h s) :
    ∀ it ∈ s.issues, Agrees S (acceptedEvents h) it ∧
      (it.phase.isTerminal = false → it.currentAuthority.Binds it.issue) := by
  refine issue_induct (P := fun log it => Agrees S log it ∧
    (it.phase.isTerminal = false → it.currentAuthority.Binds it.issue)) ?_ ?_ ?_ hr
  · intro h s i hadm
    exact hadm.admits
  · intro it hf
    have hp := S.valid.plannedAuthority_eq hf.planned hf.authority
    refine ⟨fun _ => ⟨it.currentAuthority, hp, fun _ _ => ?_⟩, fun _ => ?_⟩
    · exact sameAuthorityState_refl _
    · exact binds_of_plannedAuthority hp
  · intro h s i r it it' ps hadm hs hacc hit ⟨ha, hb⟩ hm
    have hl : ∀ a, i = .event a → FollowsLog S (acceptedEvents h) a := by
      rintro a rfl
      exact followsLog_of_admitsOrdered hs (hacc.event_gate a rfl) hadm
    exact ⟨hm.agrees (hs.coherent it hit) hl ha, hm.binds hl ha hb⟩

theorem ReachesOrdered.agrees (hr : S.ReachesOrdered h s) {it : IssueRunState}
    (hit : it ∈ s.issues) : Agrees S (acceptedEvents h) it :=
  (hr.agrees_and_binds it hit).1

theorem ReachesOrdered.binds (hr : S.ReachesOrdered h s) {it : IssueRunState} (hit : it ∈ s.issues)
    (ha : it.phase.isTerminal = false) : it.currentAuthority.Binds it.issue :=
  (hr.agrees_and_binds it hit).2 ha

/-- **The authority of the reducer is the authority of the log.**  In every ordered
run, the authority kept for an active Issue is, up to the time of its observation,
the one resolved from the accepted events, with the plan's input as the origin and
any bound above all of them. -/
theorem ReachesOrdered.authority_agrees_with_log {h : List (RunStep hash)}
    {s : DeliveryRunState} (hrun : S.ReachesOrdered h s) :
    ∀ it ∈ s.issues, it.phase.isTerminal = false →
      ∃ origin, plannedAuthority S.plan it.issue = some origin ∧
        ∀ beforeSequence, (∀ b ∈ acceptedEvents h, b.event.sequence < beforeSequence) →
          sameAuthorityState it.currentAuthority
            (resolveCurrentAuthority it.issue.authorityId origin S.runId (S.plan.ref hash)
              beforeSequence ((acceptedEvents h).map fun b => b.event)) = true :=
  fun _ hit => hrun.agrees hit

/-- The claim of an Issue is its authority in the log. -/
theorem authority_agrees_of_claimedRun :
    ∃ x, Demo.claimedRun = .ok x ∧ ∃ it ∈ x.state.issues, it.currentAuthority = Demo.claimed 1 ∧
      ∃ origin, plannedAuthority Demo.plan it.issue = some origin ∧
        ∀ beforeSequence, (∀ b ∈ acceptedEvents x.history, b.event.sequence < beforeSequence) →
          sameAuthorityState (Demo.claimed 1)
            (resolveCurrentAuthority it.issue.authorityId origin "run"
              (Demo.plan.ref Demo.digest) beforeSequence
              ((acceptedEvents x.history).map fun b => b.event)) = true := by
  obtain ⟨x, hx, it, hit, hcl, hact⟩ : ∃ x, Demo.claimedRun = .ok x ∧
      ∃ it ∈ x.state.issues, it.currentAuthority = Demo.claimed 1 ∧
        it.phase.isTerminal = false := by decide +kernel
  have ha := ReachesOrdered.authority_agrees_with_log x.reached.reachesOrdered it hit hact
  rw [hcl] at ha
  exact ⟨x, hx, it, hit, hcl, ha⟩

end RunSetup

end AgenticPkm.Builderops
