import AgenticPkm.Builderops.Reducer.Invariant
import AgenticPkm.Builderops.Reducer.Session

/-!
# Dependency waves

No effect is authorised for an Issue before every Issue of the earlier waves is
delivered.  The open wave is computed anew by every tick and by every resume, so
the law is an invariant of states, not of single Issues.

* `Reaches.effects_gated_by_waves` — **the law of waves**.
-/

namespace AgenticPkm.Builderops

open List

variable {hash : Json → String} {S : RunSetup hash}

/-- An Issue that was claimed at some point: it has a ledger, or it is in the middle
of its delivery. -/
def IssueRunState.Started (it : IssueRunState) : Prop :=
  it.effectLedger ≠ [] ∨ (it.phase.isTerminal = false ∧ it.phase ≠ .admitted)

/-- All Issues in waves before a started one are delivered. -/
def WavesGated (issues : List IssueRunState) : Prop :=
  ∀ x ∈ issues, x.Started → ∀ y ∈ issues, y.waveIndex < x.waveIndex → y.phase = .delivered

theorem delivered_of_lt_openWaveIndex {is : List IssueRunState} {y : IssueRunState}
    (hy : y ∈ is) (hlt : y.waveIndex < openWaveIndex is) : y.phase = .delivered := by
  by_contra hp
  have hmem : y.waveIndex ∈
      (is.filter fun it => it.phase != .delivered).map IssueRunState.waveIndex :=
    mem_map_of_mem (mem_filter.mpr ⟨hy, by simpa using hp⟩)
  unfold openWaveIndex at hlt
  cases hm : ((is.filter fun it => it.phase != .delivered).map IssueRunState.waveIndex).min? with
  | none =>
    rw [min?_eq_none_iff] at hm
    rw [hm] at hmem
    cases hmem
  | some m =>
    rw [hm, Option.getD_some] at hlt
    have hle := (min?_eq_some_iff.mp hm).2 y.waveIndex hmem
    omega

section Moves

variable {w : ℕ} {i : RunInput hash} {it it' : IssueRunState} {ps : List EffectProposal}
  {a : AdmittedEvent hash}

theorem Reports.started {plan : DeliveryPlan} {ef : ReducerEffect} {o : EffectOutcomeEvidence}
    {sb : AuthoritySnapshot} (r : Reports plan a it ef o sb) : it.Started := by
  obtain ⟨e, he, -⟩ := r.ledgered
  exact .inl (ne_nil_of_mem he)

theorem Handled.started {r : List AcceptanceEvidenceKind} {u : IssueRunState}
    (h : Handled S.plan r a it u ps) (hs : (u.authorizedAll hash S.initial ps).Started) :
    it.Started := by
  cases h with
  | claimSucceeded _ _ _ report | workerLaunched _ _ _ report | outcome _ _ _ _ _ report
  | reviewRecorded _ _ _ report | delivered _ _ _ report | unmet _ _ _ _ report
  | effectFailed _ _ _ report | ciFailed _ _ _ report => exact report.started
  | workerBlocked _ p | workerCompleted _ _ _ _ _ _ _ _ p | reviewBlocked _ _ p
  | reviewAccepted _ _ _ _ _ _ p | reviewDeferred _ _ _ _ _ _ _ _ p =>
    exact .inr (by rw [p]; exact ⟨rfl, by decide⟩)
  | contractDrift =>
    rcases hs with hl | ⟨ha, -⟩
    · exact .inl hl
    · cases ha
  | authorityChanged => exact hs

/-- **Only a claim in the open wave starts an Issue.** -/
theorem IssueMove.started (h : IssueMove S w i it it' ps) (hs : it'.Started) :
    it.Started ∨ it.waveIndex = w := by
  cases h with
  | idle => exact .inl hs
  | opened _ _ _ _ _ wave | resumedClaim _ _ _ _ wave => exact .inr wave
  | handled _ _ _ _ h => exact .inl (h.started hs)
  | resumedPending _ _ _ _ _ _ l =>
    obtain ⟨e, he, -⟩ := Option.bind_eq_some_iff.mp l
    exact .inl (.inl (ne_nil_of_mem (mem_of_find?_eq_some he)))
  | excepted _ _ kind =>
    rcases hs with hl | ⟨ha, -⟩
    · exact .inl (.inl hl)
    · cases kind <;> cases ha
  | terminated _ _ phase _ terminal =>
    rcases hs with hl | ⟨ha, -⟩
    · exact .inl (.inl hl)
    · rcases terminal with rfl | rfl <;> cases ha

end Moves

theorem Accepted.wavesGated {s : DeliveryRunState} {i : RunInput hash} {r : Reduction}
    (h : Accepted S s i r) (hg : WavesGated s.issues) : WavesGated r.state.issues := by
  obtain ⟨f, g, hi, -, hm⟩ := h.moves
  rw [hi]
  intro x' hx' hs y' hy' hlt
  obtain ⟨x, hx, rfl⟩ := mem_map.mp hx'
  obtain ⟨y, hy, rfl⟩ := mem_map.mp hy'
  rw [(hm x hx).frame.2, (hm y hy).frame.2] at hlt
  have hd : y.phase = .delivered := by
    rcases (hm x hx).started hs with hs | hw
    · exact hg x hx hs y hy hlt
    · exact delivered_of_lt_openWaveIndex hy (hw ▸ hlt)
  rw [((hm y hy).eq_of_terminal (by rw [hd]; rfl)).1]
  exact hd

namespace RunSetup

variable {h : List (RunStep hash)} {s : DeliveryRunState}

theorem Reaches.wavesGated (hr : S.Reaches h s) : WavesGated s.issues := by
  refine (run_induct (P := fun _ s => WavesGated s.issues) (fun _ _ _ hg => hg) ?_ ?_ ?_ hr).2
  · intro x hx hs
    have hf := fresh_of_mem_initial hx
    rcases hs with hl | ⟨-, hp⟩
    · exact absurd hf.effectLedger_eq hl
    · exact absurd hf.phase_eq hp
  · intro h s i reason _ ih
    exact ih
  · intro h s i r _ _ ih _ ha
    exact ha.wavesGated ih

/-- From a state on in which an Issue has ended undelivered, nothing is proposed for
an Issue of a later wave. -/
theorem Reaches.no_effect_after {post : List (RunStep hash)} {s' : DeliveryRunState}
    (hrun : S.Reaches h s) (hrs : S.Reaches (h ++ post) s') {x y : IssueRunState}
    (hx : x ∈ s.issues) (hy : y ∈ s.issues) (htm : y.phase.isTerminal) (hund : y.phase ≠ .delivered)
    (hlt : y.waveIndex < x.waveIndex) : ∀ p ∈ emittedProposals post, p.issue ≠ x.issue := by
  -- the ended Issue stays as it is, and the later one stays in its wave
  have hinv : y ∈ s'.issues ∧
      (∃ x' ∈ s'.issues, x'.issue = x.issue ∧ x'.waveIndex = x.waveIndex) ∧
      ∀ p ∈ emittedProposals post, p.issue ≠ x.issue := by
    refine hrun.continues (fun post s' => y ∈ s'.issues ∧
      (∃ x' ∈ s'.issues, x'.issue = x.issue ∧ x'.waveIndex = x.waveIndex) ∧
      ∀ p ∈ emittedProposals post, p.issue ≠ x.issue) ?_ ?_ ?_ hrs
    · exact ⟨hy, ⟨x, hx, rfl, rfl⟩, by simp [emittedProposals]⟩
    · rintro post s i reason ⟨hy, hx, hem⟩
      refine ⟨hy, hx, ?_⟩
      intro p hp
      simp only [emittedProposals_append, emittedProposals_single, refuse, append_nil] at hp
      exact hem p hp
    · rintro post s i r hpt ⟨hy, ⟨x', hx', hissue, hwv⟩, hem⟩ hacc
      obtain ⟨f, g, hiss, -, hmv⟩ := hacc.moves
      have hst : y ∈ r.state.issues := by
        rw [hiss]
        exact mem_map.mpr ⟨y, hy, ((hmv y hy).eq_of_terminal htm).1⟩
      have hnx : f x' ∈ r.state.issues := by
        rw [hiss]
        exact mem_map_of_mem hx'
      have hfr := (hmv x' hx').frame
      refine ⟨hst, ⟨f x', hnx, hfr.1.trans hissue, hfr.2.trans hwv⟩, ?_⟩
      intro p hp
      rw [emittedProposals_append, emittedProposals_single, mem_append] at hp
      rcases hp with hp | hp
      · exact hem p hp
      · obtain ⟨it, hit, it', hit', ps, hps, hmv'⟩ := hacc.exists_move hp
        obtain ⟨hpi, -, e, he, -⟩ := (hmv'.ledgerWrite (hpt.inv.coherent it hit)).of_mem hps
        intro hpx
        -- the proposal would start the later Issue
        have hsame : it' = f x' := by
          refine (hacc.inv hpt.inv).keyed.eq_of_key_eq hit' hnx ?_
          have hissue' : it'.issue = (f x').issue := by
            rw [hmv'.frame.1, ← hpi, hpx, hfr.1, hissue]
          exact congrArg IssueScope.scopeKey hissue'
        refine hund (hacc.wavesGated hpt.wavesGated it' hit'
          (.inl (ne_nil_of_mem he)) y hst ?_)
        rw [hsame, hfr.2, hwv]
        exact hlt
  exact hinv.2.2

/-- **The law of waves.**  In every reachable state, all Issues in waves before one
that has an effect ledger are delivered; and from a state on in which an Issue has
ended undelivered, no effect, and in particular no claim, is ever proposed for an
Issue of a later wave. -/
theorem Reaches.effects_gated_by_waves {h post : List (RunStep hash)} {s s' : DeliveryRunState}
    (hrun : S.Reaches h s) (hrest : S.Reaches (h ++ post) s') :
    (∀ x ∈ s.issues, x.effectLedger ≠ [] →
      ∀ y ∈ s.issues, y.waveIndex < x.waveIndex → y.phase = .delivered) ∧
    (∀ y ∈ s.issues, y.phase.isTerminal = true → y.phase ≠ .delivered →
      ∀ x ∈ s.issues, y.waveIndex < x.waveIndex →
        ∀ p ∈ emittedProposals post, p.issue ≠ x.issue) := by
  refine ⟨fun x hx hl => hrun.wavesGated x hx (.inl hl), ?_⟩
  intro y hy ht hu x hx hlt
  exact hrun.no_effect_after hrest hx hy ht hu hlt

/-- A tick after the first wave has failed proposes nothing for the second. -/
theorem effects_gated_of_failedRun :
    ∃ x, Demo.failedRun = .ok x ∧ ∃ st, x.history.getLast? = some st ∧
      ∃ it ∈ st.before.issues, it.phase = .blocked ∧
        ∃ later ∈ st.before.issues, it.waveIndex < later.waveIndex ∧
          ∀ p ∈ st.result.effects, p.issue ≠ later.issue := by
  obtain ⟨x, hx, st, hst, it, hit, hb, later, hl, hlt⟩ :
      ∃ x, Demo.failedRun = .ok x ∧ ∃ st ∈ x.history.getLast?, ∃ it ∈ st.before.issues,
        it.phase = .blocked ∧ ∃ later ∈ st.before.issues, it.waveIndex < later.waveIndex := by
    decide +kernel
  obtain ⟨h, hh, hrun, -⟩ := Session.last_step hst
  have hr : Demo.setup.ReachesLogged (h ++ [st]) x.state := hh ▸ x.reached
  have hg := (Reaches.effects_gated_by_waves hrun.reachesOrdered.reaches
    hr.reachesOrdered.reaches).2 it hit (by rw [hb]; rfl) (by simp [hb]) later
    hl hlt
  rw [emittedProposals_single] at hg
  exact ⟨x, hx, st, hst, it, hit, hb, later, hl, hlt, hg⟩

end RunSetup

end AgenticPkm.Builderops
