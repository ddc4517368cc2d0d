import AgenticPkm.Builderops.Reducer.Session
import AgenticPkm.Builderops.Reducer.Stages

/-!
# One logical effect, one identity

A delivery has one effect of each class, so a ledger should hold at most one entry
of each class.  The phases see to this for all classes but the claim: a resume
files the claim of an Issue that stays admitted, and the next tick claims it again
under whatever authority the Issue has by then.

* `one_entry_of_each_class` — **one entry of each class**, if claims agree.
-/

namespace AgenticPkm.Builderops

variable {hash : Json → String} {S : RunSetup hash}

/-- Every claim that is on file for an admitted Issue of the open wave has the key
that the claim under the current authority derives. -/
def ClaimsAgree (hash : Json → String) (s : DeliveryRunState) : Prop :=
  ∀ it ∈ s.issues, it.phase = .admitted → it.waveIndex = openWaveIndex s.issues →
    ∀ e ∈ it.effectLedger, e.effectClass = .claimIssue →
      ∀ identity, proposalEffectIdentity hash s (claimProposal it) = .ok identity →
        e.idempotencyKey = identity.idempotencyKey

instance (hash : Json → String) (s : DeliveryRunState) : Decidable (ClaimsAgree hash s) :=
  inferInstanceAs (Decidable (∀ it ∈ s.issues, it.phase = .admitted →
    it.waveIndex = openWaveIndex s.issues → ∀ e ∈ it.effectLedger, e.effectClass = .claimIssue →
      ∀ identity, proposalEffectIdentity hash s (claimProposal it) = .ok identity →
        e.idempotencyKey = identity.idempotencyKey))

/-- The inputs that claim admitted Issues: ticks and resumes that pass their gates. -/
def OpensClaims (s : DeliveryRunState) : RunInput hash → Prop
  | .event a => a.signal.isTick = true ∧ eventGate s a.event = none
  | .command c => c.command = .resume ∧ commandGate s c = none

namespace RunSetup

def AdmitsAgreed (S : RunSetup hash) (h : List (RunStep hash)) (s : DeliveryRunState)
    (i : RunInput hash) : Prop :=
  S.Admits h s i ∧ (OpensClaims s i → ClaimsAgree hash s)

end RunSetup

def OneKeyPerClass (ledger : List EffectLedgerEntry) : Prop :=
  ∀ e ∈ ledger, ∀ e' ∈ ledger, e.effectClass = e'.effectClass →
    e.idempotencyKey = e'.idempotencyKey

variable {s : DeliveryRunState} {i : RunInput hash} {it it' : IssueRunState}
  {ps : List EffectProposal}

section

variable (hs : S.Inv s) (hit : it ∈ s.issues) (hstaged : it.Staged)
  (hone : OneKeyPerClass it.effectLedger)
  (hagree : ((∃ a, i = .event a ∧ a.signal.isTick = true) ∨
    ∃ c, i = .command c ∧ c.command = .resume) → ClaimsAgree hash s)
  (h : IssueMove S (openWaveIndex s.issues) i it it' ps)
include hs hit hstaged hone hagree h

theorem IssueMove.key_eq_of_class_eq {p : EffectProposal} (hp : p ∈ ps)
    {e : EffectLedgerEntry} (he : e ∈ it.effectLedger) (hcls : e.effectClass = p.effectClass) :
    e.idempotencyKey = (identityOf hash S.initial p).idempotencyKey := by
  have hcoh := hs.coherent it hit
  rcases h.new_or_filed hcoh hstaged hp with
    hnew | ⟨e', he', hcls', hkey'⟩ | ⟨rfl, hph, hwv, hop⟩
  · exact absurd hcls (hnew e he)
  · exact (hone e he e' he' (hcls.trans hcls'.symm)).trans hkey'
  · refine hagree hop it hit hph hwv e he hcls _ ?_
    rw [proposalEffectIdentity_eq ((h.ledgerWrite hcoh).of_mem hp).2.1, hs.identityOf_eq]

theorem IssueMove.oneKeyPerClass : OneKeyPerClass it'.effectLedger := by
  have hcoh := hs.coherent it hit
  -- an old entry and the entry of a proposal
  have hmix : ∀ e ∈ it.effectLedger, ∀ e', e.SameAuthorization e' → ∀ p ∈ ps,
      e'.effectClass = p.effectClass →
        e'.idempotencyKey = (identityOf hash S.initial p).idempotencyKey := by
    intro e he e' hsame p hp hcls
    rw [hsame.class_eq] at hcls
    rw [hsame.key_eq]
    exact h.key_eq_of_class_eq hs hit hstaged hone hagree hp he hcls
  intro e₁ he₁ e₂ he₂ hcls
  rcases h.entry_origin hcoh he₁ with ⟨o₁, ho₁, hsame₁, -⟩ | ⟨p, hp, rfl⟩
  · rcases h.entry_origin hcoh he₂ with ⟨o₂, ho₂, hsame₂, -⟩ | ⟨q, hq, rfl⟩
    · rw [hsame₁.key_eq, hsame₂.key_eq]
      refine hone o₁ ho₁ o₂ ho₂ ?_
      rw [← hsame₁.class_eq, ← hsame₂.class_eq, hcls]
    · exact hmix o₁ ho₁ e₁ hsame₁ q hq hcls
  · rcases h.entry_origin hcoh he₂ with ⟨o₂, ho₂, hsame₂, -⟩ | ⟨q, hq, rfl⟩
    · exact (hmix o₂ ho₂ e₂ hsame₂ p hp hcls.symm).symm
    · -- a move proposes one effect
      cases h.ledgerWrite hcoh with
      | quiet => cases hp
      | authorized => rw [List.mem_singleton.mp hp, List.mem_singleton.mp hq]

end

namespace RunSetup

/-- **If claims agree whenever a tick or a resume opens them, no ledger of the run
ever holds two entries of one effect class.** -/
theorem one_entry_of_each_class {h : List (RunStep hash)} {s : DeliveryRunState}
    (hrun : (reducer hash).Run S.AdmitsAgreed S.initial h s) :
    ∀ it ∈ s.issues, (it.effectLedger.map EffectLedgerEntry.effectClass).Nodup := by
  have hone : ∀ it ∈ s.issues, it.Staged ∧ OneKeyPerClass it.effectLedger := by
    refine issue_induct (P := fun _ it => it.Staged ∧ OneKeyPerClass it.effectLedger)
      (fun _ _ _ hg => hg.1) ?_ ?_ hrun
    · intro it hfr
      refine ⟨⟨?_, ?_, ?_⟩, ?_⟩ <;> simp [OneKeyPerClass, hfr.effectLedger_eq]
    · rintro h s i r it it' ps hadm hs hacc hit ⟨hstaged, hone⟩ hmv
      refine ⟨hmv.staged (hs.coherent it hit) hstaged,
        hmv.oneKeyPerClass hs hit hstaged hone fun hop => hadm.2 ?_⟩
      rcases hop with ⟨a, rfl, htc⟩ | ⟨c, rfl, hres⟩
      · exact ⟨htc, hacc.event_gate a rfl⟩
      · exact ⟨hres, hacc.command_gate c rfl⟩
  intro it hit
  have hrc : S.Reaches h s := hrun.mono fun _ _ _ hg => hg.1
  rw [List.Nodup, List.pairwise_map]
  refine List.Pairwise.imp_of_mem ?_ (hrc.inv.coherent it hit).strict
  intro e e' he he' hlt hcls
  exact absurd ((hone it hit).2 e he e' he' hcls) (ne_of_lt hlt)

/-- A run that is resumed and started under one authority claims an Issue once. -/
theorem one_entry_of_each_class_of_restartedRun :
    ∃ x, Demo.restartedRun = .ok x ∧
      x.history.map (fun st => st.result.effects.map EffectProposal.effectClass) =
        [[], [.claimIssue], [.claimIssue]] ∧
      ∀ it ∈ x.state.issues, (it.effectLedger.map EffectLedgerEntry.effectClass).Nodup := by
  obtain ⟨x, hx, hcls, hagree⟩ : ∃ x, Demo.restartedRun = .ok x ∧
      x.history.map (fun st => st.result.effects.map EffectProposal.effectClass) =
        [[], [.claimIssue], [.claimIssue]] ∧
      ∀ st ∈ x.history, ClaimsAgree Demo.digest st.before := by decide +kernel
  have hr := Machine.Run.and_of_forall x.reached.reachesOrdered.reaches
    (Q := fun s i => OpensClaims s i → ClaimsAgree Demo.digest s) fun st hst _ => hagree st hst
  exact ⟨x, hx, hcls, one_entry_of_each_class hr⟩

/-- A run that is resumed, sees the labels of an Issue change and is started claims the
Issue twice, under two keys. -/
theorem claim_is_filed_twice :
    ∃ h s, Demo.setup.ReachesLogged h s ∧
      ∃ it ∈ s.issues, it.effectLedger.map EffectLedgerEntry.effectClass =
        [.claimIssue, .claimIssue] := by
  obtain ⟨x, -, ht⟩ : ∃ x, Demo.relabelledRun = .ok x ∧
      ∃ it ∈ x.state.issues, it.effectLedger.map EffectLedgerEntry.effectClass =
        [.claimIssue, .claimIssue] := by decide +kernel
  exact ⟨x.history, x.state, x.reached, ht⟩

end RunSetup

end AgenticPkm.Builderops
