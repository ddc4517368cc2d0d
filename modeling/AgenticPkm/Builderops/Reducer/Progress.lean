import AgenticPkm.Builderops.Reducer.Session
import AgenticPkm.Builderops.Reducer.Stages

/-!
# Forward progress and at-most-once acceptance

The phases of an Issue come in the order of a delivery, with the terminal phases at its end.

The reducer remembers the ids of the events and commands it accepted, and counts every accepted
input in the version of the run.  The version a lifecycle command is fenced on is the number of
inputs accepted before it.

* `Reaches.progress_forward_once` — **no Issue moves back, no id is accepted twice**.
-/

namespace AgenticPkm.Builderops

variable {hash : Json → String} {S : RunSetup hash}

/-! ### The order of the phases -/

/-- The place of a phase in a delivery; the terminal phases come last. -/
def RunPhase.rank : RunPhase → ℕ
  | .admitted => 0
  | .claiming => 1
  | .launching => 2
  | .working => 3
  | .awaitingCi => 4
  | .awaitingReview => 5
  | .recordingDefect => 6
  | .merging => 7
  | .closing => 8
  | .recordingReceipt => 9
  | .repairing | .delivered | .blocked | .ownerDecision => 10
  | .systemBlocked | .cancelled | .superseded => 10

theorem RunPhase.rank_le_ten (p : RunPhase) : p.rank ≤ 10 := by
  cases p <;> decide

theorem RunPhase.rank_eq_ten_iff {p : RunPhase} : p.rank = 10 ↔ p.isTerminal := by
  cases p <;> decide

theorem RunPhase.rank_le_of_isTerminal (p : RunPhase) {p' : RunPhase}
    (h : p'.isTerminal) : p.rank ≤ p'.rank := by
  have hl : p'.rank = 10 := RunPhase.rank_eq_ten_iff.mpr h
  have hle := p.rank_le_ten
  omega

theorem OutcomeStep.rank_lt {e next : EffectClass} {p p' : RunPhase}
    (h : OutcomeStep e p p' next) : p.rank < p'.rank := by
  cases h <;> decide

section Moves

variable {w : ℕ} {i : RunInput hash} {it it' u : IssueRunState} {ps : List EffectProposal}
  {plan : DeliveryPlan} {required : List AcceptanceEvidenceKind} {a : AdmittedEvent hash}

theorem Handled.rank_le (h : Handled plan required a it u ps) : it.phase.rank ≤ u.phase.rank := by
  cases h with
  | claimSucceeded _ _ _ _ _ phase | workerLaunched _ _ _ _ _ phase
  | workerCompleted _ _ _ _ _ _ _ _ phase | reviewRecorded _ _ _ _ _ phase
  | reviewAccepted _ _ _ _ _ _ phase | reviewDeferred _ _ _ _ _ _ _ _ phase =>
    simp [phase, RunPhase.rank]
  | outcome _ _ _ _ _ _ _ step => exact step.rank_lt.le
  | workerBlocked | reviewBlocked | delivered | unmet | effectFailed | ciFailed
  | contractDrift => exact it.phase.rank_le_of_isTerminal rfl
  | authorityChanged => exact le_rfl

/-- **No move takes an Issue back.** -/
theorem IssueMove.rank_le (h : IssueMove S w i it it' ps) : it.phase.rank ≤ it'.phase.rank := by
  cases h with
  | idle | resumedClaim | resumedPending => exact le_rfl
  | opened _ _ _ _ phase =>
    rw [phase]
    exact Nat.zero_le _
  | handled _ _ _ _ h =>
    rw [authorizedAll_eq]
    exact h.rank_le
  | excepted _ _ kind => exact it.phase.rank_le_of_isTerminal (by cases kind <;> rfl)
  | terminated _ _ phase _ terminal =>
    have hend : phase.isTerminal := by rcases terminal with rfl | rfl <;> rfl
    exact it.phase.rank_le_of_isTerminal hend

end Moves

/-! ### Counting the accepted inputs -/

def RunStep.acceptedCommand (st : RunStep hash) : Option LifecycleCommand :=
  match st.input, st.result.refusal with
  | .command command, none => some command
  | _, _ => none

def acceptedCommands (h : List (RunStep hash)) : List LifecycleCommand :=
  h.filterMap RunStep.acceptedCommand

def acceptedEventIds (h : List (RunStep hash)) : List String :=
  (acceptedEvents h).map fun a => a.event.eventId

def acceptedCommandIds (h : List (RunStep hash)) : List String :=
  (acceptedCommands h).map LifecycleCommand.commandId

/-- An accepted input: its id is new, and it is counted once. -/
inductive Counted (s s' : DeliveryRunState) : RunInput hash → Prop
  | event (a : AdmittedEvent hash) (unseen : a.event.eventId ∉ s.seenEventIds)
      (version : s'.version = s.version + 1)
      (events : s'.seenEventIds = sortedSet (s.seenEventIds ++ [a.event.eventId]))
      (commands : s'.seenCommandIds = s.seenCommandIds) : Counted s s' (.event a)
  | command (c : LifecycleCommand) (unseen : c.commandId ∉ s.seenCommandIds)
      (version : s'.version = s.version + 1) (events : s'.seenEventIds = s.seenEventIds)
      (commands : s'.seenCommandIds = sortedSet (s.seenCommandIds ++ [c.commandId])) :
      Counted s s' (.command c)

section Steps

variable {s : DeliveryRunState} {r : Reduction} {a : AdmittedEvent hash} {c : LifecycleCommand}

theorem counted_of_advance {is : List IssueRunState} {e : List EffectProposal}
    (hg : eventGate s a.event = none) (h : advance hash s a.event.eventId is e = .ok r) :
    r.refusal = none ∧ Counted s r.state (.event a) := by
  unfold advance at h
  obtain ⟨is', -, hr⟩ := bind_eq_ok_iff.mp h
  obtain rfl := pure_eq_ok_iff.mp hr
  obtain ⟨-, -, hu, -⟩ := RunSetup.eventGate_eq_none_iff.mp hg
  exact ⟨rfl, .event a hu rfl rfl rfl⟩

theorem counted_of_reduceDeliveryRun (h : reduceDeliveryRun s a = .ok r) :
    (∃ reason, r = refuse s reason) ∨ r.refusal = none ∧ Counted s r.state (.event a) := by
  unfold reduceDeliveryRun at h
  split at h
  · exact .inl ⟨_, (pure_eq_ok_iff.mp h).symm⟩
  next hg =>
    split at h
    · exact .inr (counted_of_advance hg h)
    · split at h
      · unfold reduceException at h
        obtain ⟨e, -, h⟩ := bind_eq_ok_iff.mp h
        exact .inr (counted_of_advance hg h)
      · unfold reduceIssueEvent at h
        -- each lookup that fails refuses; what is left is the decision of a handler
        split at h
        · exact .inl ⟨_, (pure_eq_ok_iff.mp h).symm⟩
        split at h
        · exact .inl ⟨_, (pure_eq_ok_iff.mp h).symm⟩
        split at h
        · exact .inl ⟨_, (pure_eq_ok_iff.mp h).symm⟩
        split at h
        · exact .inl ⟨_, (pure_eq_ok_iff.mp h).symm⟩
        obtain ⟨d, -, h⟩ := bind_eq_ok_iff.mp h
        cases d with
        | refused reason => exact .inl ⟨reason, (pure_eq_ok_iff.mp h).symm⟩
        | advanced updated effects => exact .inr (counted_of_advance hg h)

theorem unseen_of_commandGate (h : commandGate s c = none) : c.commandId ∉ s.seenCommandIds := by
  intro hs
  have hcn : s.seenCommandIds.contains c.commandId := by simpa using hs
  unfold commandGate at h
  rw [hcn] at h
  split at h
  · cases h
  · cases h

theorem counted_of_reduceLifecycleCommand (h : reduceLifecycleCommand hash s c = .ok r) :
    (∃ reason, r = refuse s reason) ∨
      r.refusal = none ∧ Counted s r.state (.command c : RunInput hash) := by
  unfold reduceLifecycleCommand at h
  split at h
  · exact .inl ⟨_, (pure_eq_ok_iff.mp h).symm⟩
  next hg =>
    right
    have hu := unseen_of_commandGate hg
    split at h
    · obtain rfl := pure_eq_ok_iff.mp h
      exact ⟨rfl, .command c hu rfl rfl rfl⟩
    · unfold resumeRun at h
      obtain ⟨issues, -, hr⟩ := bind_eq_ok_iff.mp h
      obtain rfl := pure_eq_ok_iff.mp hr
      exact ⟨rfl, .command c hu rfl rfl rfl⟩
    all_goals
      unfold terminateRun at h
      obtain ⟨o, -, hr⟩ := bind_eq_ok_iff.mp h
      obtain rfl := pure_eq_ok_iff.mp hr
      exact ⟨rfl, .command c hu rfl rfl rfl⟩

/-- **A step refuses, and changes nothing, or counts its input.** -/
theorem step_counted {i : RunInput hash} (h : (reducer hash).step s i = .ok r) :
    (∃ reason, r = refuse s reason) ∨ r.refusal = none ∧ Counted s r.state i := by
  cases i with
  | event a => exact counted_of_reduceDeliveryRun h
  | command c => exact counted_of_reduceLifecycleCommand h

end Steps

/-! ### The tally of a history -/

/-- The state agrees with the history: it has seen the ids of the accepted inputs,
each once, and its version is their number. -/
structure Tally (h : List (RunStep hash)) (s : DeliveryRunState) : Prop where
  events_nodup : s.seenEventIds.Nodup
  events_perm : s.seenEventIds.Perm (acceptedEventIds h)
  commands_nodup : s.seenCommandIds.Nodup
  commands_perm : s.seenCommandIds.Perm (acceptedCommandIds h)
  version_eq : s.version = s.seenEventIds.length + s.seenCommandIds.length

theorem tally_concat {seen ids : List String} {x : String} (hsn : seen.Nodup) (hx : x ∉ seen)
    (hp : seen.Perm ids) :
    (sortedSet (seen ++ [x])).Nodup ∧ (sortedSet (seen ++ [x])).Perm (ids ++ [x]) ∧
      (sortedSet (seen ++ [x])).length = seen.length + 1 := by
  have hn : (seen ++ [x]).Nodup := by
    rw [← List.concat_eq_append]
    exact hsn.concat hx
  have hs := perm_sortedBy id (seen ++ [x]).dedup
  unfold sortedSet
  rw [hn.dedup] at hs ⊢
  exact ⟨hs.nodup_iff.mpr hn, hs.trans (hp.append_right _), hs.length_eq.trans (by simp)⟩

theorem Tally.refused {h : List (RunStep hash)} {s : DeliveryRunState} (ht : Tally h s)
    (i : RunInput hash) (rs : RefusalReason) : Tally (h ++ [⟨s, i, refuse s rs⟩]) s := by
  have hev : acceptedEventIds (h ++ [⟨s, i, refuse s rs⟩]) = acceptedEventIds h := by
    unfold acceptedEventIds
    rw [acceptedEvents_refused]
  have hcm : acceptedCommandIds (h ++ [⟨s, i, refuse s rs⟩]) = acceptedCommandIds h := by
    cases i <;> simp [acceptedCommandIds, acceptedCommands, RunStep.acceptedCommand, refuse]
  exact ⟨ht.events_nodup, hev ▸ ht.events_perm, ht.commands_nodup,
    hcm ▸ ht.commands_perm, ht.version_eq⟩

theorem Tally.counted {h : List (RunStep hash)} {s : DeliveryRunState} {i : RunInput hash}
    {r : Reduction} (ht : Tally h s) (hr : r.refusal = none)
    (hcn : Counted s r.state i) : Tally (h ++ [⟨s, i, r⟩]) r.state := by
  cases hcn with
  | event a unseen v events cm =>
    obtain ⟨hn, hp, hl⟩ := tally_concat ht.events_nodup unseen ht.events_perm
    have hi : acceptedEventIds (h ++ [⟨s, .event a, r⟩]) =
        acceptedEventIds h ++ [a.event.eventId] := by
      unfold acceptedEventIds
      rw [acceptedEvents_accepted hr]
      simp [RunInput.events]
    have hcm : acceptedCommandIds (h ++ [⟨s, .event a, r⟩]) = acceptedCommandIds h := by
      simp [acceptedCommandIds, acceptedCommands, RunStep.acceptedCommand]
    refine ⟨events ▸ hn, ?_, cm ▸ ht.commands_nodup, ?_, ?_⟩
    · rwa [events, hi]
    · rw [cm, hcm]
      exact ht.commands_perm
    · rw [v, events, cm, hl, ht.version_eq]
      omega
  | command c unseen v events cm =>
    obtain ⟨hn, hp, hl⟩ := tally_concat ht.commands_nodup unseen ht.commands_perm
    have hev : acceptedEventIds (h ++ [⟨s, .command c, r⟩]) = acceptedEventIds h := by
      unfold acceptedEventIds
      rw [acceptedEvents_accepted hr]
      simp [RunInput.events]
    have hi : acceptedCommandIds (h ++ [⟨s, .command c, r⟩]) =
        acceptedCommandIds h ++ [c.commandId] := by
      simp [acceptedCommandIds, acceptedCommands, RunStep.acceptedCommand, hr]
    refine ⟨events ▸ ht.events_nodup, ?_, cm ▸ hn, ?_, ?_⟩
    · rw [events, hev]
      exact ht.events_perm
    · rwa [cm, hi]
    · rw [v, events, cm, hl, ht.version_eq]
      omega

namespace RunSetup

theorem tally_initial (S : RunSetup hash) : Tally ([] : List (RunStep hash)) S.initial := by
  have h := S.initial_eq
  simp only [initialDeliveryRunState, exists_unit_iff, bind_eq_ok_iff, pure_eq_ok_iff] at h
  obtain ⟨-, issues, -, hi⟩ := h
  rw [← hi]
  exact ⟨.nil, .nil, .nil, .nil, rfl⟩

variable {s : DeliveryRunState}

/-- **Every reachable state agrees with its history.** -/
theorem tally_of_run {g : List (RunStep hash) → DeliveryRunState → RunInput hash → Prop}
    {h : List (RunStep hash)} (hr : (reducer hash).Run g S.initial h s) : Tally h s := by
  refine Machine.Run.invariant Tally S.tally_initial ?_ hr
  intro h s i r _ ht _ hstep
  rcases step_counted hstep with ⟨reason, rfl⟩ | ⟨href, hcn⟩
  · exact ht.refused i reason
  · exact ht.counted href hcn

/-! ### Forward progress -/

/-- The Issues of a state, compared with those of an earlier one: the same Issues, none
further back, and the terminal ones untouched. -/
structure Forward (s s' : DeliveryRunState) : Prop where
  same : s'.issues.map IssueRunState.scopeKey = s.issues.map IssueRunState.scopeKey
  rank_le : ∀ it ∈ s.issues, ∀ it' ∈ s'.issues, it'.scopeKey = it.scopeKey →
    it.phase.rank ≤ it'.phase.rank
  kept : ∀ it ∈ s.issues, it.phase.isTerminal = true → ∀ it' ∈ s'.issues,
    it'.scopeKey = it.scopeKey → it' = it

theorem Forward.refl (hs : S.Inv s) : Forward s s where
  same := rfl
  rank_le := by
    intro it hit it' hit' hk
    rw [hs.keyed.eq_of_key_eq hit' hit hk]
  kept := by
    intro it hit _ it' hit' hk
    exact hs.keyed.eq_of_key_eq hit' hit hk

/-- **An accepted step goes forward.** -/
theorem Forward.accepted {s₀ : DeliveryRunState} {i : RunInput hash} {r : Reduction}
    (hf : Forward s₀ s) (h : Accepted S s i r) : Forward s₀ r.state := by
  obtain ⟨f, g, hi, -, hm⟩ := h.moves
  have hk : ∀ it ∈ s.issues, (f it).scopeKey = it.scopeKey := by
    intro it hit
    exact congrArg IssueScope.scopeKey (hm it hit).frame.1
  refine ⟨h.map_scopeKey.trans hf.same, ?_, ?_⟩
  · intro it₀ hit₀ it' hit' hk'
    rw [hi] at hit'
    obtain ⟨it, hit, rfl⟩ := List.mem_map.mp hit'
    have hb := hf.rank_le it₀ hit₀ it hit ((hk it hit).symm.trans hk')
    exact hb.trans (hm it hit).rank_le
  · intro it₀ hit₀ ht it' hit' hk'
    rw [hi] at hit'
    obtain ⟨it, hit, rfl⟩ := List.mem_map.mp hit'
    have hb := hf.kept it₀ hit₀ ht it hit ((hk it hit).symm.trans hk')
    -- the Issue has not changed so far, so it is terminal now and this move leaves it alone
    have hs : it.phase.isTerminal := by rw [hb]; exact ht
    rw [((hm it hit).eq_of_terminal hs).1, hb]

theorem Reaches.forward {h post : List (RunStep hash)} {s' : DeliveryRunState}
    (hrun : S.Reaches h s) (hr : S.Reaches (h ++ post) s') : Forward s s' := by
  refine Reaches.continues (fun _ s' => Forward s s') hrun (.refl hrun.inv) ?_ ?_ hr
  · intro _ _ _ _ hf
    exact hf
  · intro _ _ _ _ _ hf ha
    exact hf.accepted ha

/-- **Progress is forward-only and at most once.**  From any point of any run to any
later one, no Issue moves back, and a terminal Issue keeps its phase, head, evidence,
ledger and every other field; no event id and no command id is accepted twice, and the
version is the number of the ids seen. -/
theorem Reaches.progress_forward_once {h post : List (RunStep hash)} {s s' : DeliveryRunState}
    (hrun : S.Reaches h s) (hrest : S.Reaches (h ++ post) s') :
    s'.issues.map IssueRunState.scopeKey = s.issues.map IssueRunState.scopeKey ∧
    (∀ it ∈ s.issues, ∀ it' ∈ s'.issues, it'.scopeKey = it.scopeKey →
      it.phase.rank ≤ it'.phase.rank) ∧
    (∀ it ∈ s.issues, it.phase.isTerminal = true → ∀ it' ∈ s'.issues,
      it'.scopeKey = it.scopeKey → it' = it) ∧
    (acceptedEventIds (h ++ post)).Nodup ∧ (acceptedCommandIds (h ++ post)).Nodup ∧
    s'.seenEventIds.Nodup ∧ s'.seenCommandIds.Nodup ∧
    (∀ id, id ∈ s'.seenEventIds ↔ id ∈ acceptedEventIds (h ++ post)) ∧
    (∀ id, id ∈ s'.seenCommandIds ↔ id ∈ acceptedCommandIds (h ++ post)) ∧
    s'.version = s'.seenEventIds.length + s'.seenCommandIds.length := by
  have hf := hrun.forward hrest
  have ht : Tally (h ++ post) s' := tally_of_run hrest
  refine ⟨hf.same, hf.rank_le, hf.kept, ?_, ?_, ht.events_nodup,
    ht.commands_nodup, fun id => ht.events_perm.mem_iff,
    fun id => ht.commands_perm.mem_iff, ht.version_eq⟩
  · exact ht.events_perm.nodup_iff.mp ht.events_nodup
  · exact ht.commands_perm.nodup_iff.mp ht.commands_nodup

/-- A run whose first claim fails goes from admitted to terminal, and counts its three
events. -/
theorem failed_run_counts :
    ∃ h s, Demo.setup.Reaches h s ∧ s.version = 3 ∧
      (∃ it ∈ Demo.setup.initial.issues, ∃ it' ∈ s.issues, it'.scopeKey = it.scopeKey ∧
        it'.phase.isTerminal = true ∧ it.phase.rank ≤ it'.phase.rank) ∧
      (acceptedEventIds h).Nodup ∧
      s.version = s.seenEventIds.length + s.seenCommandIds.length := by
  obtain ⟨x, -, ht, it, hit, it', hit', hk, hend⟩ :
      ∃ x, Demo.failedRun = .ok x ∧ x.state.version = 3 ∧ ∃ it ∈ Demo.setup.initial.issues,
        ∃ it' ∈ x.state.issues, it'.scopeKey = it.scopeKey ∧ it'.phase.isTerminal = true := by
    decide +kernel
  have hrun : Demo.setup.Reaches x.history x.state := x.reached.reachesOrdered.reaches
  have hr : Demo.setup.Reaches ([] ++ x.history) x.state := hrun
  obtain ⟨-, hrn, -, hi, -, -, -, -, -, hv⟩ := Reaches.progress_forward_once .start hr
  exact ⟨x.history, x.state, hrun, ht,
    ⟨it, hit, it', hit', hk, hend, hrn it hit it' hit' hk⟩, hi, hv⟩

end RunSetup

end AgenticPkm.Builderops
