import AgenticPkm.Builderops.Reducer.Invariant
import AgenticPkm.Builderops.Reducer.Session

/-!
# Effect ledgers and the obligations of a run

A run keeps a ledger of every effect it authorised, and a terminated run reports
what is left to reconcile.

A failure that is reported after the success of the same effect overwrites the
success, so an effect known to be committed can drop out of the obligations.

* `Reaches.ledger_complete` — every proposal is filed once, under the key it derives, and the
  obligations are the filed effects without a truthful failure.
* `committed_effects_stay_obligations` — if no failure contradicts a success.
-/

namespace AgenticPkm.Builderops

open List Option

variable {hash : Json → String} {S : RunSetup hash}

/-! ### Keys -/

variable {a b : String} {i : RunInput hash} {r : Reduction} {e : EffectLedgerEntry}

theorem append_ne_empty (h : a ≠ "" ∨ b ≠ "") : a ++ b ≠ "" := by
  rw [ne_eq, String.append_eq_empty_iff]
  rintro ⟨ha, hb⟩
  rcases h with h | h
  · exact h ha
  · exact h hb

namespace RunSetup

def effectKey (S : RunSetup hash) (p : EffectProposal) : String :=
  (identityOf hash S.initial p).idempotencyKey

def effectInput (S : RunSetup hash) (p : EffectProposal) : Json :=
  p.semanticInput S.initial (identityOf hash S.initial p).outcomeKeys

/-- The digest does not collide on the semantic inputs of the given proposals. -/
def CollisionFree (S : RunSetup hash) (ps : List EffectProposal) : Prop :=
  Set.InjOn hash {input | ∃ p ∈ ps, input = S.effectInput p}

variable {p : EffectProposal}

theorem effectKey_eq (hp : p.Derivable) :
    S.effectKey p = deliveryEffectIdempotencyKey (hash (S.effectInput p)) := by
  have h := @derived_identityOf hash S.initial p hp
  rw [effectKey, effectInput, h.idempotencyKey_eq, h.inputHash_eq]

theorem effectKey_ne (hp : p.Derivable) : S.effectKey p ≠ "" := by
  rw [effectKey_eq hp]
  exact append_ne_empty (.inl (by decide))

end RunSetup

theorem deliveryEffectIdempotencyKey_injective : Function.Injective deliveryEffectIdempotencyKey :=
  fun _ _ h => (String.append_right_inj _).mp h

theorem eq_of_deliveryEffectInput_eq {ri ri' : String} {pl pl' : ContractRef} {ec ec' : EffectClass}
    {issue issue' : IssueScope} {pr pr' : Option ℕ} {head head' : Option String}
    {au au' : List AuthoritySnapshot} {keys keys' : List String} {rr rr' f f' : Option String}
    (h : deliveryEffectInput ri pl ec issue pr head au keys
        rr f =
      deliveryEffectInput ri' pl' ec' issue' pr' head' au' keys' rr' f') :
    ec = ec' ∧ issue = issue' := by
  simp only [deliveryEffectInput, Json.obj.injEq, List.cons.injEq, Prod.mk.injEq, Json.str.injEq,
    true_and] at h
  exact ⟨EffectClass.text_injective h.2.2.1, IssueScope.toJson_injective h.2.2.2.1⟩

namespace RunSetup

variable {p q : EffectProposal} {ps : List EffectProposal}

theorem eq_of_effectInput_eq (h : S.effectInput p = S.effectInput q) :
    p.effectClass = q.effectClass ∧ p.issue = q.issue :=
  eq_of_deliveryEffectInput_eq h

theorem CollisionFree.eq_of_effectKey_eq (hf : S.CollisionFree ps) (hp : p ∈ ps) (hq : q ∈ ps)
    (hdp : p.Derivable) (hdq : q.Derivable) (hk : S.effectKey p = S.effectKey q) :
    p.effectClass = q.effectClass ∧ p.issue = q.issue := by
  rw [effectKey_eq hdp, effectKey_eq hdq] at hk
  exact eq_of_effectInput_eq
    (hf ⟨p, hp, rfl⟩ ⟨q, hq, rfl⟩ (deliveryEffectIdempotencyKey_injective hk))

theorem collisionFree_of_effectKey (hd : ∀ p ∈ ps, p.Derivable)
    (h : ∀ p ∈ ps, ∀ q ∈ ps, S.effectKey p = S.effectKey q → p = q) : S.CollisionFree ps := by
  rintro _ ⟨p, hp, rfl⟩ _ ⟨q, hq, rfl⟩ hh
  rw [h p hp q hq]
  rw [effectKey_eq (hd p hp), effectKey_eq (hd q hq), hh]

end RunSetup

/-! ### Every proposal is filed -/

/-- What the history of a run and its ledgers have to do with each other. -/
structure Filed (S : RunSetup hash) (h : List (RunStep hash)) (s : DeliveryRunState) : Prop where
  emitted : ∀ p ∈ emittedProposals h, p.Derivable ∧ ∃ it ∈ s.issues, it.issue = p.issue ∧
    ∃ e ∈ it.effectLedger, e.idempotencyKey = S.effectKey p
  stored : ∀ it ∈ s.issues, ∀ e ∈ it.effectLedger, ∀ p, e.proposal = some p →
    p ∈ emittedProposals h

variable {h : List (RunStep hash)} {s : DeliveryRunState}

theorem Filed.accepted (hs : S.Inv s) (hfil : Filed S h s)
    (hacc : Accepted S s i r) : Filed S (h ++ [⟨s, i, r⟩]) r.state := by
  obtain ⟨f, g, hiss, hef, hmv⟩ := hacc.moves
  have hnx : ∀ it ∈ s.issues, f it ∈ r.state.issues := by
    intro it hit
    rw [hiss]
    exact mem_map_of_mem hit
  constructor
  · intro p hp
    rw [emittedProposals_append, emittedProposals_single, mem_append] at hp
    rcases hp with hp | hp
    · obtain ⟨hder, it, hit, hissue, e, he, hkey⟩ := hfil.emitted p hp
      obtain ⟨e', he', hsame, -⟩ := (hmv it hit).entry_persists (hs.coherent it hit) he
      exact ⟨hder, f it, hnx it hit, (hmv it hit).frame.1.trans hissue, e', he',
        hsame.key_eq.trans hkey⟩
    · obtain ⟨it, hit, it', hit', ps, hps, hmov⟩ := hacc.exists_move hp
      obtain ⟨hissue, hder, e, he, hkey⟩ := (hmov.ledgerWrite (hs.coherent it hit)).of_mem hps
      exact ⟨hder, it', hit', hmov.frame.1.trans hissue.symm, e, he, hkey⟩
  · intro it' hit' e' he' p hp
    rw [hiss] at hit'
    obtain ⟨it, hit, rfl⟩ := mem_map.mp hit'
    rw [emittedProposals_append, emittedProposals_single, mem_append]
    rcases (hmv it hit).entry_origin (hs.coherent it hit) he' with ⟨e, he, hsame, -⟩ | ⟨q, hq, rfl⟩
    · exact .inl (hfil.stored it hit e he p (hsame.proposal_eq.symm.trans hp))
    · cases hp
      right
      rw [hef]
      exact mem_flatMap.mpr ⟨it, hit, hq⟩

theorem RunSetup.Reaches.filed (hr : S.Reaches h s) : Filed S h s := by
  refine (RunSetup.run_induct (P := Filed S) (fun _ _ _ hg => hg) ?_ ?_ ?_ hr).2
  · constructor
    · intro p hp
      simp [emittedProposals] at hp
    · intro it hit e he
      simp [(RunSetup.fresh_of_mem_initial hit).effectLedger_eq] at he
  · intro h s i rs _ hf
    have hsame : emittedProposals (h ++ [⟨s, i, refuse s rs⟩]) = emittedProposals h := by
      simp [refuse]
    exact ⟨by rw [hsame]; exact hf.emitted, by rw [hsame]; exact hf.stored⟩
  · intro h s i r _ hs hf _ ha
    exact hf.accepted hs ha

/-! ### Obligations validate -/

/-- Outcome keys an obligation can carry. -/
def ValidOutcomeKeys (keys : List String) : Prop :=
  (∀ k ∈ keys, k ≠ "") ∧ keys ≠ [] ∧ keys.Nodup

theorem validOutcomeKeys_single (h : a ≠ "" ∨ b ≠ "") : ValidOutcomeKeys [a ++ b] :=
  ⟨by simpa using append_ne_empty h, by simp, by simp⟩

theorem RunSetup.validOutcomeKeys_identityOf {p : EffectProposal} (hp : p.Derivable) :
    ValidOutcomeKeys (identityOf hash S.initial p).outcomeKeys := by
  have hkeys := (@derived_identityOf hash S.initial p hp).outcomeKeys_eq
  generalize (identityOf hash S.initial p).outcomeKeys = keys at hkeys ⊢
  unfold EffectProposal.outcomeKeys deliveryEffectExpectedOutcomeKeys at hkeys
  cases hcls : p.effectClass with
  | awaitCi =>
    simp only [hcls, Except.ok.injEq] at hkeys
    rw [S.inv_initial.checks_eq] at hkeys
    have hpm := perm_sortedBy id S.plan.policyProfile.requiredCheckNames
    subst hkeys
    refine ⟨?_, ?_, ?_⟩
    · intro k hk
      obtain ⟨name, -, rfl⟩ := mem_map.mp hk
      exact append_ne_empty (.inl (by decide))
    · intro hnil
      have hemp := map_eq_nil_iff.mp hnil
      rw [hemp] at hpm
      exact S.valid.checks_present (nil_perm.mp hpm)
    · refine List.Nodup.map (fun a b hab => (String.append_right_inj _).mp hab) ?_
      exact hpm.nodup_iff.mpr S.valid.checks_distinct
  | recordKnownDefect =>
    obtain ⟨href, hh⟩ := hp hcls
    obtain ⟨rr, hr⟩ := isSome_iff_exists.mp href
    obtain ⟨f, hf⟩ := isSome_iff_exists.mp hh
    simp only [hcls, hr, hf, Except.ok.injEq] at hkeys
    subst hkeys
    exact validOutcomeKeys_single (.inl (append_ne_empty (.inr (by decide))))
  | claimIssue | closeIssue =>
    simp only [hcls, Except.ok.injEq] at hkeys
    subst hkeys
    exact validOutcomeKeys_single (.inr (by decide))
  | launchWorker | requestReview | recordDeliveryReceipt | mergePullRequest =>
    simp only [hcls, Except.ok.injEq] at hkeys
    subst hkeys
    exact validOutcomeKeys_single (.inl (append_ne_empty (.inr (by decide))))

theorem EffectOutcomeEvidence.validOutcomeKeys {o : EffectOutcomeEvidence}
    (h : o.validate = .ok ()) : ValidOutcomeKeys o.outcomeKeys := by
  simp only [EffectOutcomeEvidence.validate, bind_unit_eq_ok_iff, checkAll_eq_ok_iff,
    checkNonEmptyStr_eq_ok_iff, raiseIf_eq_ok_iff, Bool.or_eq_false_iff,
    requireUnique_eq_ok_iff] at h
  obtain ⟨-, hne, -, ⟨hs, -⟩, hn, -⟩ := h
  exact ⟨hne, by simpa using hs, hn⟩

theorem EffectLedgerEntry.validate_obligation (hkey : e.idempotencyKey ≠ "")
    (h : ValidOutcomeKeys e.outcomeKeys) : e.obligation.validate = .ok () := by
  obtain ⟨hne, hs, hn⟩ := h
  have hp := perm_sortedBy id e.outcomeKeys
  simp only [OutstandingEffectObligation.validate, EffectLedgerEntry.obligation,
    bind_unit_eq_ok_iff, checkAll_eq_ok_iff, checkNonEmptyStr_eq_ok_iff, raiseIf_eq_ok_iff,
    requireUnique_eq_ok_iff, requireSortedBy_eq_ok_iff]
  refine ⟨hkey, ?_, ?_, hp.nodup_iff.mpr hn, pairwise_sortedBy id e.outcomeKeys⟩
  · intro k hk
    exact hne k (mem_sortedBy.mp hk)
  · rw [isEmpty_eq_false_iff]
    intro hnil
    rw [hnil] at hp
    exact hs (nil_perm.mp hp)

namespace RunSetup

variable {h : List (RunStep hash)} {s : DeliveryRunState}

theorem Reaches.validOutcomeKeys (hr : S.Reaches h s) :
    ∀ it ∈ s.issues, ∀ e ∈ it.effectLedger, ValidOutcomeKeys e.outcomeKeys := by
  refine issue_induct (P := fun _ it => ∀ e ∈ it.effectLedger, ValidOutcomeKeys e.outcomeKeys)
    (fun _ _ _ hg => hg) ?_ ?_ hr
  · intro it hf e he
    simp [hf.effectLedger_eq] at he
  · intro h s i r it it' ps _ hs _ hit ih hm e' he'
    have hcoh := hs.coherent it hit
    rcases hm.entry_origin hcoh he' with
      ⟨e, he, -, rfl | ⟨a, effect, outcome, subject, hen⟩⟩ | ⟨p, hp, rfl⟩
    · exact ih e' he
    · rw [hen.entry_eq]
      exact hen.report.outcome_valid |> EffectOutcomeEvidence.validOutcomeKeys
    · exact validOutcomeKeys_identityOf ((hm.ledgerWrite hcoh).of_mem hp).2.1

theorem Reaches.outstandingEffectObligations_eq (hr : S.Reaches h s) :
    outstandingEffectObligations s =
      .ok ((obligationRecords s).map EffectLedgerEntry.obligation) := by
  have hv : checkAll OutstandingEffectObligation.validate
      ((obligationRecords s).map EffectLedgerEntry.obligation) = .ok () := by
    rw [checkAll_eq_ok_iff]
    intro o ho
    obtain ⟨e, he, rfl⟩ := mem_map.mp ho
    obtain ⟨it, hit, he⟩ := mem_flatMap.mp (mem_of_mem_dictBy he)
    have he := mem_of_mem_filter he
    obtain ⟨p, -, -, -, hder, hk⟩ := (hr.inv.coherent it hit).derived e he
    refine EffectLedgerEntry.validate_obligation ?_ (hr.validOutcomeKeys it hit e he)
    have hd : S.effectKey p = e.idempotencyKey := hk
    rw [← hd, effectKey_eq hder]
    exact append_ne_empty (.inl (by decide))
  simp only [outstandingEffectObligations, hv, ok_bind]
  rfl

theorem Reaches.command_total (hr : S.Reaches h s) (c : LifecycleCommand) :
    ∃ r, reduceLifecycleCommand hash s c = .ok r := by
  unfold reduceLifecycleCommand
  split
  · exact ⟨_, rfl⟩
  · split
    · exact ⟨_, rfl⟩
    · have hpn : ∀ p ∈ pendingEffectProposals (commandState s c .active), p.Derivable := by
        intro p hp
        obtain ⟨it, hit, hp⟩ := mem_filterMap.mp hp
        unfold pendingProposal at hp
        split at hp
        · cases hp
        · split at hp
          · split at hp
            · cases hp
              exact fun hc => by cases hc
            · cases hp
          · obtain ⟨ec, -, hl⟩ := bind_eq_some_iff.mp hp
            obtain ⟨-, -, -, -, -, -, -, hd, -⟩ := (hr.inv.coherent it hit).of_ledgeredProposal hl
            exact hd
      obtain ⟨issues', hi'⟩ := @recordAuthorizations_total hash
        (commandState s c .active) _ hpn (commandState s c .active).issues
      exact ⟨_, by rw [resumeRun, hi', ok_bind]; rfl⟩
    all_goals
      unfold terminateRun
      rw [hr.outstandingEffectObligations_eq]
      exact ⟨_, rfl⟩

theorem Reaches.distinct_unreconciled (hrun : S.Reaches h s)
    (hfr : S.CollisionFree (emittedProposals h)) :
    DistinctKeys EffectLedgerEntry.idempotencyKey s.unreconciledEffects := by
  have hs := hrun.inv
  unfold DistinctKeys DeliveryRunState.unreconciledEffects
  rw [map_flatMap, nodup_flatMap]
  constructor
  · intro it hit
    exact List.Nodup.sublist (filter_sublist.map _) (hs.coherent it hit).strict.distinctKeys
  · have hne : s.issues.Pairwise fun x y => x.scopeKey ≠ y.scopeKey := pairwise_map.mp hs.keyed
    refine List.Pairwise.imp_of_mem ?_ hne
    intro x y hx hy hxy k hkx hky
    obtain ⟨e, he, rfl⟩ := mem_map.mp hkx
    obtain ⟨e', he', hkey⟩ := mem_map.mp hky
    have he := mem_of_mem_filter he
    have he' := mem_of_mem_filter he'
    obtain ⟨p, hp, hpx, -, hdp, hkp⟩ := (hs.coherent x hx).derived e he
    obtain ⟨q, hq, hqy, -, hdq, hkq⟩ := (hs.coherent y hy).derived e' he'
    have hiss : p.issue = q.issue := by
      refine (hfr.eq_of_effectKey_eq (hrun.filed.stored x hx e he p hp)
        (hrun.filed.stored y hy e' he' q hq) hdp hdq ?_).2
      exact hkp.trans (hkey.symm.trans hkq.symm)
    rw [hpx, hqy] at hiss
    exact hxy (congrArg IssueScope.scopeKey hiss)

theorem obligations_of_terminating {c : LifecycleCommand}
    (hc : c.command = .cancel ∨ c.command = .supersede)
    (hstep : reduceLifecycleCommand hash s c = .ok r) (ha : r.refusal = none) :
    outstandingEffectObligations s = .ok r.obligations := by
  unfold reduceLifecycleCommand at hstep
  split at hstep
  · rw [pure_eq_ok_iff] at hstep
    rw [← hstep] at ha
    cases ha
  · have ht : ∃ l ph, terminateRun s c l ph = .ok r := by
      rcases hc with hc | hc
      · rw [hc] at hstep
        exact ⟨_, _, hstep⟩
      · rw [hc] at hstep
        exact ⟨_, _, hstep⟩
    obtain ⟨l, ph, ht⟩ := ht
    simp only [terminateRun, bind_eq_ok_iff, pure_eq_ok_iff] at ht
    obtain ⟨obligations, ho, rfl⟩ := ht
    exact ho

/-- **The effect ledgers are complete, and so are the obligations.**  If the digest
does not collide on the effects of the run, then in every reachable state

* every proposal made so far is filed exactly once in the ledger of its Issue,
  under the key it derives,
* ledgers are in strictly increasing key order, and every key is derived from the
  proposal stored with it,
* commands do not raise, and the obligations of an accepted cancel or supersede
  are, each once and in key order, the filed effects of all Issues that did not
  truthfully fail as a claim, a wait for checks or a closure. -/
theorem Reaches.ledger_complete {h : List (RunStep hash)} {s : DeliveryRunState}
    (hrun : S.Reaches h s) (hfree : S.CollisionFree (emittedProposals h)) :
    (∀ p ∈ emittedProposals h, ∃ identity, proposalEffectIdentity hash s p = .ok identity ∧
      ∃ it ∈ s.issues, it.issue = p.issue ∧
        ∃! e, e ∈ it.effectLedger ∧ e.idempotencyKey = identity.idempotencyKey) ∧
    (∀ it ∈ s.issues, StrictKeys EffectLedgerEntry.idempotencyKey it.effectLedger ∧
      ∀ e ∈ it.effectLedger, ∃ p identity, e.proposal = some p ∧
        proposalEffectIdentity hash s p = .ok identity ∧
        identity.idempotencyKey = e.idempotencyKey) ∧
    (∀ c, ∃ r, reduceLifecycleCommand hash s c = .ok r) ∧
    (∀ c r, c.command = .cancel ∨ c.command = .supersede →
      reduceLifecycleCommand hash s c = .ok r → r.refusal = none →
        StrictKeys OutstandingEffectObligation.effectIdempotencyKey r.obligations ∧
        r.obligations.Perm
          ((s.issues.flatMap fun it => it.effectLedger.filter fun e =>
            !(e.outcomeState == some .failed &&
              [EffectClass.claimIssue, .awaitCi, .closeIssue].contains e.effectClass)).map
            EffectLedgerEntry.obligation)) := by
  have hs := hrun.inv
  have hid : ∀ p : EffectProposal, p.Derivable →
      proposalEffectIdentity hash s p = .ok (identityOf hash S.initial p) := by
    intro p hp
    rw [proposalEffectIdentity_eq hp, hs.identityOf_eq]
  refine ⟨?_, ?_, hrun.command_total, ?_⟩
  · intro p hp
    obtain ⟨hder, it, hit, hiss, e, he, hkey⟩ := hrun.filed.emitted p hp
    refine ⟨_, hid p hder, it, hit, hiss, e, ⟨he, hkey⟩, ?_⟩
    rintro e' ⟨he', hkey'⟩
    exact (hs.coherent it hit).strict.distinctKeys.eq_of_key_eq he' he (hkey'.trans hkey.symm)
  · intro it hit
    refine ⟨(hs.coherent it hit).strict, ?_⟩
    intro e he
    obtain ⟨p, hp, -, -, hder, hkey⟩ := (hs.coherent it hit).derived e he
    exact ⟨p, _, hp, hid p hder, hkey⟩
  · intro c r hc hstep hacc
    have hobl := obligations_of_terminating hc hstep hacc
    rw [hrun.outstandingEffectObligations_eq, Except.ok.injEq] at hobl
    rw [← hobl]
    constructor
    · exact pairwise_map.mpr (strictKeys_dictBy s.unreconciledEffects)
    · have hsame : s.unreconciledEffects = s.issues.flatMap fun it =>
          it.effectLedger.filter fun e => !(e.outcomeState == some .failed &&
            [EffectClass.claimIssue, .awaitCi, .closeIssue].contains e.effectClass) := by
        unfold DeliveryRunState.unreconciledEffects IssueRunState.unreconciledEffects
          EffectLedgerEntry.isResolvedUncommitted
        congr 1
        funext it
        refine filter_congr fun e _ => ?_
        cases e.effectClass <;> rfl
      rw [← hsame]
      exact (hrun.distinct_unreconciled hfree).perm_dictBy.map _

/-- The claim and the launch of a first Issue are filed under their keys. -/
theorem ledger_complete_of_claimedRun :
    ∃ x, Demo.claimedRun = .ok x ∧
      (emittedProposals x.history).map EffectProposal.effectClass = [.claimIssue, .launchWorker] ∧
      ∀ p ∈ emittedProposals x.history, ∃ identity,
        proposalEffectIdentity Demo.digest x.state p = .ok identity ∧
        ∃ it ∈ x.state.issues, it.issue = p.issue ∧
          ∃! e, e ∈ it.effectLedger ∧ e.idempotencyKey = identity.idempotencyKey := by
  obtain ⟨x, hx, hcl, hkeys⟩ : ∃ x, Demo.claimedRun = .ok x ∧
      (emittedProposals x.history).map EffectProposal.effectClass = [.claimIssue, .launchWorker] ∧
      ∀ p ∈ emittedProposals x.history, ∀ q ∈ emittedProposals x.history,
        Demo.setup.effectKey p = Demo.setup.effectKey q → p = q := by decide +kernel
  have hr := x.reached.reachesOrdered.reaches
  have hf : Demo.setup.CollisionFree (emittedProposals x.history) :=
    collisionFree_of_effectKey (fun p hp => (hr.filed.emitted p hp).1) hkeys
  exact ⟨x, hx, hcl, (Reaches.ledger_complete hr hf).1⟩

end RunSetup

/-! ### Committed effects -/

/-- A failure report that contradicts a recorded success: it passes the gates of the
run, it is about an effect whose failure counts as proof that nothing was
committed, and the ledger of an active Issue already holds a success of that
effect. -/
def ContradictsSuccess (s : DeliveryRunState) (a : AdmittedEvent hash) : Prop :=
  eventGate s a.event = none ∧ a.event.eventType = .effectFailed ∧
    ∃ effect, a.effect = some effect ∧ failureProvesUncommitted effect.effectClass = true ∧
      ∃ it ∈ s.issues, it.scopeKey = effect.issue.scopeKey ∧ it.phase.isTerminal = false ∧
        (effect.pullRequestNumber.isSome = true → AtTarget effect it) ∧
        ∃ e ∈ it.effectLedger, e.idempotencyKey = effect.idempotencyKey ∧
          e.effectClass = effect.effectClass ∧ ∃ state, e.outcomeState = some state ∧
            state ≠ .failed

/-- An effect that is known to have an outcome and did not truthfully fail. -/
structure EffectLedgerEntry.Committed (e : EffectLedgerEntry) : Prop where
  known : e.outcomeState ≠ none
  unfailed : e.isResolvedUncommitted = false

namespace RunSetup

def AdmitsConsistent (S : RunSetup hash) (h : List (RunStep hash)) (s : DeliveryRunState)
    (i : RunInput hash) : Prop :=
  S.Admits h s i ∧ ∀ a, i = .event a → ¬ ContradictsSuccess s a

end RunSetup

def RunInput.reportsFailure : RunInput hash → Bool
  | .event a => a.event.eventType == .effectFailed
  | .command _ => false

theorem RunSetup.Reaches.consistent (hr : S.Reaches h s)
    (hq : ∀ st ∈ h, st.input.reportsFailure = false) :
    (reducer hash).Run S.AdmitsConsistent S.initial h s := by
  refine Machine.Run.and_of_forall hr (Q := fun s i => ∀ a, i = .event a →
    ¬ ContradictsSuccess s a) ?_
  rintro st hst a ha ⟨-, ht, -⟩
  have hi := hq st hst
  simp [ha, RunInput.reportsFailure, ht] at hi

theorem IssueMove.committed {it it' : IssueRunState} {ps : List EffectProposal}
    (hs : S.Inv s) (hit : it ∈ s.issues) (hgt : ∀ a, i = .event a → eventGate s a.event = none)
    (hcn : ∀ a, i = .event a → ¬ ContradictsSuccess s a)
    (h : IssueMove S (openWaveIndex s.issues) i it it' ps) (he : e ∈ it.effectLedger)
    (hcm : e.Committed) :
    ∃ e' ∈ it'.effectLedger, e'.idempotencyKey = e.idempotencyKey ∧ e'.Committed := by
  obtain ⟨e', he', hsame, rfl | ⟨a, effect, outcome, subject, hen⟩⟩ :=
    h.entry_persists (hs.coherent it hit) he
  · exact ⟨e', he', rfl, hcm⟩
  · refine ⟨e', he', hsame.key_eq, ?_, ?_⟩
    · rw [hen.entry_eq]
      exact fun hno => by cases hno
    · -- otherwise the report would contradict the success on file
      by_contra hres
      rw [Bool.not_eq_false, hen.entry_eq] at hres
      simp only [EffectLedgerEntry.isResolvedUncommitted, outcomeEntry, Bool.and_eq_true,
        beq_iff_eq, some.injEq] at hres
      obtain ⟨hfl, hcls⟩ := hres
      have hend := hen.ending hfl
      obtain ⟨st, hst⟩ := ne_none_iff_exists'.mp hcm.known
      refine hcn a hen.input ⟨hgt a hen.input, hend.type, effect,
        hen.report.effect_eq, hcls, it, hit, ?_, hend.active, hend.target, e, he,
        hen.key_eq, hen.class_eq, st, hst, ?_⟩
      · rw [hen.report.own]
        rfl
      · rintro rfl
        have hunf := hcm.unfailed
        simp [EffectLedgerEntry.isResolvedUncommitted, hst, hen.class_eq, hcls] at hunf

theorem Accepted.committed_of_success {a : AdmittedEvent hash} (hs : S.Inv s)
    (h : Accepted S s (.event a) r) {o : EffectOutcomeEvidence}
    (ho : a.event.effectOutcome = some o) (hsc : o.outcomeState ≠ .failed) :
    ∃ it ∈ r.state.issues, ∃ e ∈ it.effectLedger,
      e.idempotencyKey = o.effectIdempotencyKey ∧ e.Committed := by
  obtain ⟨ht, plan, effect, sb, hr⟩ := a.report_of_success ho hsc
  obtain ⟨it, hit, u, ps, -, hh, hmem⟩ := h.exists_handled hr.issue_eq
  obtain ⟨effect', o', sb', hrep, hl⟩ := hh.recorded ht
  obtain rfl := Option.some.inj (hrep.outcome_eq.symm.trans ho)
  have hop : (outcomeEntry effect' o' it.effectLedger).isResolvedUncommitted = false := by
    simp [EffectLedgerEntry.isResolvedUncommitted, outcomeEntry, hsc]
  have hk : (outcomeEntry effect' o' it.effectLedger).outcomeState ≠ none := some_ne_none _
  refine ⟨_, hmem, outcomeEntry effect' o' it.effectLedger, ?_, hrep.key_eq.symm, hk, hop⟩
  refine mem_authorizedAll ?_ ?_ hop
  · rw [hl]
    exact strictKeys_recordLedger (hs.coherent it hit).strict
  · rw [hl]
    exact mem_recordLedger.mpr (.inr rfl)

namespace RunSetup

/-- **Without contradicting reports, a committed effect stays an obligation.**  In
every run whose failure reports never contradict a success on file, every effect
with an accepted success is among the obligations of every later state. -/
theorem committed_effects_stay_obligations {h : List (RunStep hash)} {s : DeliveryRunState}
    (hrun : (reducer hash).Run S.AdmitsConsistent S.initial h s) :
    ∀ a ∈ acceptedEvents h, ∀ outcome, a.event.effectOutcome = some outcome →
      outcome.outcomeState ≠ .failed →
        ∃ obligations, outstandingEffectObligations s = .ok obligations ∧
          outcome.effectIdempotencyKey ∈
            obligations.map OutstandingEffectObligation.effectIdempotencyKey := by
  have hcm : ∀ a ∈ acceptedEvents h, ∀ outcome, a.event.effectOutcome = some outcome →
      outcome.outcomeState ≠ .failed → ∃ it ∈ s.issues, ∃ e ∈ it.effectLedger,
        e.idempotencyKey = outcome.effectIdempotencyKey ∧ e.Committed := by
    refine (run_induct (P := fun h s => ∀ a ∈ acceptedEvents h, ∀ outcome,
      a.event.effectOutcome = some outcome → outcome.outcomeState ≠ .failed →
        ∃ it ∈ s.issues, ∃ e ∈ it.effectLedger,
          e.idempotencyKey = outcome.effectIdempotencyKey ∧ e.Committed)
      (fun _ _ _ hg => hg.1) ?_ ?_ ?_ hrun).2
    · intro a ha
      simp [acceptedEvents] at ha
    · intro h s i reason _ ih
      rw [acceptedEvents_refused]
      exact ih
    · intro h s i r _ hs ih hadm hacc a ha outcome hoc hsc
      rw [acceptedEvents_accepted hacc.unrefused, mem_append] at ha
      rcases ha with ha | ha
      · obtain ⟨it, hit, e, he, hkey, hcm⟩ := ih a ha outcome hoc hsc
        obtain ⟨f, g, hiss, -, hmv⟩ := hacc.moves
        obtain ⟨e', he', hkey', hcm'⟩ := (hmv it hit).committed hs hit hacc.event_gate hadm.2 he hcm
        refine ⟨f it, ?_, e', he', hkey'.trans hkey, hcm'⟩
        rw [hiss]
        exact List.mem_map_of_mem hit
      · cases i with
        | command c => cases ha
        | event b =>
          obtain rfl := mem_singleton.mp ha
          exact hacc.committed_of_success hs hoc hsc
  intro a ha outcome hoc hsc
  have hrc : S.Reaches h s := hrun.mono fun _ _ _ hg => hg.1
  refine ⟨_, hrc.outstandingEffectObligations_eq, ?_⟩
  obtain ⟨it, hit, e, he, hkey, hcm⟩ := hcm a ha outcome hoc hsc
  have hmem : e ∈ s.unreconciledEffects :=
    mem_flatMap.mpr ⟨it, hit, mem_filter.mpr ⟨he, by simp [hcm.unfailed]⟩⟩
  have hkeys : e.idempotencyKey ∈ (obligationRecords s).map EffectLedgerEntry.idempotencyKey := by
    rw [obligationRecords, map_key_dictBy, mem_sortedSet]
    exact List.mem_map_of_mem hmem
  rw [List.map_map, ← hkey]
  exact hkeys

/-- A reported claim is an obligation. -/
theorem committed_effects_stay_of_claimedRun :
    ∃ x, Demo.claimedRun = .ok x ∧ ∃ a ∈ acceptedEvents x.history, ∃ outcome,
      a.event.effectOutcome = some outcome ∧ outcome.outcomeState = .claimed ∧
        ∃ obligations, outstandingEffectObligations x.state = .ok obligations ∧
          outcome.effectIdempotencyKey ∈
            obligations.map OutstandingEffectObligation.effectIdempotencyKey := by
  obtain ⟨x, hx, hq, a, ha, outcome, ho, hcl⟩ : ∃ x, Demo.claimedRun = .ok x ∧
      (∀ st ∈ x.history, st.input.reportsFailure = false) ∧ ∃ a ∈ acceptedEvents x.history,
        ∃ outcome ∈ a.event.effectOutcome, outcome.outcomeState = .claimed := by decide +kernel
  have hs : outcome.outcomeState ≠ .failed := by simp [hcl]
  exact ⟨x, hx, a, ha, outcome, ho, hcl,
    committed_effects_stay_obligations (x.reached.reachesOrdered.reaches.consistent hq) a ha
      outcome ho hs⟩

/-- A contradicting failure report takes a committed claim off the obligations. -/
theorem committed_effect_is_forgotten :
    ∃ h s, Demo.setup.ReachesLogged h s ∧ ∃ a ∈ acceptedEvents h, ∃ outcome,
      a.event.effectOutcome = some outcome ∧ outcome.outcomeState = .claimed ∧
        ∃ obligations, outstandingEffectObligations s = .ok obligations ∧
          outcome.effectIdempotencyKey ∉
            obligations.map OutstandingEffectObligation.effectIdempotencyKey := by
  obtain ⟨x, -, a, ha, outcome, ho, hcl, hf⟩ :
      ∃ x, Demo.contradictedRun = .ok x ∧ ∃ a ∈ acceptedEvents x.history,
        ∃ outcome ∈ a.event.effectOutcome, outcome.outcomeState = .claimed ∧
          ∃ obligations, outstandingEffectObligations x.state = .ok obligations ∧
            outcome.effectIdempotencyKey ∉
              obligations.map OutstandingEffectObligation.effectIdempotencyKey := by
    decide +kernel
  exact ⟨x.history, x.state, x.reached, a, ha, outcome, ho, hcl, hf⟩

end RunSetup

end AgenticPkm.Builderops
