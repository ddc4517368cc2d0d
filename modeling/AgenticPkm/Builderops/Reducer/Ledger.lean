import AgenticPkm.Builderops.Reducer.Lifecycle

/-!
# What the writers of effect ledgers do

A ledger is written in two ways: a proposal is authorised, or an outcome is
recorded.  This file restates both as operations on a ledger, says what each can
change, and shows that `recordAuthorizations` authorises, for each Issue, exactly
the proposals for that Issue.
-/

namespace AgenticPkm.Builderops

open List

variable {hash : Json → String}

/-! ### The identity of a proposal -/

/-- The identity of a proposal; what it is when the derivation raises is
irrelevant. -/
def identityOf (hash : Json → String) (s : DeliveryRunState) (p : EffectProposal) :
    EffectIdentity :=
  match proposalEffectIdentity hash s p with
  | .ok identity => identity
  | .error _ => default

/-- A known-defect proposal names its defect. -/
def EffectProposal.Derivable (p : EffectProposal) : Prop :=
  p.effectClass = .recordKnownDefect →
    p.knownDefectRegistryRef.isSome = true ∧ p.knownDefectFindingHash.isSome = true

variable {s : DeliveryRunState} {p : EffectProposal} {identity : EffectIdentity}
  {effect : ReducerEffect} {outcome : EffectOutcomeEvidence} {ledger : List EffectLedgerEntry}
  {e : EffectLedgerEntry} {ps : List EffectProposal} {issues issues' : List IssueRunState}

theorem eq_identityOf (h : proposalEffectIdentity hash s p = .ok identity) :
    identity = identityOf hash s p := by
  simp [identityOf, h]

theorem proposalEffectIdentity_eq (hp : p.Derivable) :
    proposalEffectIdentity hash s p = .ok (identityOf hash s p) := by
  have hkeys : ∃ keys, p.outcomeKeys s = .ok keys := by
    unfold EffectProposal.outcomeKeys deliveryEffectExpectedOutcomeKeys
    cases hcls : p.effectClass with
    | recordKnownDefect =>
      obtain ⟨href, hh⟩ := hp hcls
      obtain ⟨r, hr⟩ := Option.isSome_iff_exists.mp href
      obtain ⟨f, hf⟩ := Option.isSome_iff_exists.mp hh
      rw [hr, hf]
      exact ⟨_, rfl⟩
    | claimIssue | launchWorker | awaitCi | requestReview => exact ⟨_, rfl⟩
    | mergePullRequest | closeIssue | recordDeliveryReceipt => exact ⟨_, rfl⟩
  obtain ⟨keys, hkeys⟩ := hkeys
  have hok : ∃ identity, proposalEffectIdentity hash s p = .ok identity := by
    unfold proposalEffectIdentity
    rw [hkeys]
    exact ⟨_, rfl⟩
  obtain ⟨identity, hi⟩ := hok
  rw [hi, ← eq_identityOf hi]

structure EffectIdentity.Derived (hash : Json → String) (s : DeliveryRunState)
    (p : EffectProposal) (identity : EffectIdentity) : Prop where
  outcomeKeys_eq : p.outcomeKeys s = .ok identity.outcomeKeys
  inputHash_eq : identity.inputHash = hash (p.semanticInput s identity.outcomeKeys)
  idempotencyKey_eq : identity.idempotencyKey = deliveryEffectIdempotencyKey identity.inputHash

theorem derived_identityOf (hp : p.Derivable) : (identityOf hash s p).Derived hash s p := by
  have h := @proposalEffectIdentity_eq hash s p hp
  simp only [proposalEffectIdentity, bind_eq_ok_iff, pure_eq_ok_iff] at h
  obtain ⟨keys, hkeys, h⟩ := h
  rw [← h]
  exact ⟨hkeys, rfl, rfl⟩

variable {s' : DeliveryRunState} {it : IssueRunState}

theorem proposalEffectIdentity_congr (hr : s'.runId = s.runId) (hp : s'.planRef = s.planRef)
    (hchk : s'.requiredCheckNames = s.requiredCheckNames) (p : EffectProposal) :
    proposalEffectIdentity hash s' p = proposalEffectIdentity hash s p := by
  simp only [proposalEffectIdentity, EffectProposal.outcomeKeys, EffectProposal.semanticInput,
    hr, hp, hchk]

/-! ### The two operations on a ledger -/

/-- File a proposal under its key, unless the key is already filed with an outcome
that is not a truthful failure. -/
def authorizeLedger (identity : EffectIdentity) (p : EffectProposal)
    (ledger : List EffectLedgerEntry) : List EffectLedgerEntry :=
  match ledgerEntry ledger identity.idempotencyKey with
  | none => upsertBy EffectLedgerEntry.idempotencyKey (identity.entry p) ledger
  | some existing =>
      if !existing.isResolvedUncommitted then ledger
      else upsertBy EffectLedgerEntry.idempotencyKey (identity.entry p) ledger

def outcomeEntry (effect : ReducerEffect) (outcome : EffectOutcomeEvidence)
    (ledger : List EffectLedgerEntry) : EffectLedgerEntry where
  effectClass := effect.effectClass
  idempotencyKey := effect.idempotencyKey
  outcomeKeys := outcome.outcomeKeys
  outcomeState := some outcome.outcomeState
  proposal := (ledgerEntry ledger effect.idempotencyKey).bind EffectLedgerEntry.proposal

def recordLedger (effect : ReducerEffect) (outcome : EffectOutcomeEvidence)
    (ledger : List EffectLedgerEntry) : List EffectLedgerEntry :=
  upsertBy EffectLedgerEntry.idempotencyKey (outcomeEntry effect outcome ledger) ledger

theorem committed_eq {a : AdmittedEvent hash} (heff : a.effect = some effect)
    (ho : a.event.effectOutcome = some outcome) :
    committed it a = recordLedger effect outcome it.effectLedger := by
  simp only [committed, heff, ho]
  rfl

/-- The two entries are the same authorisation, whatever outcomes they carry. -/
structure EffectLedgerEntry.SameAuthorization (e e' : EffectLedgerEntry) : Prop where
  class_eq : e'.effectClass = e.effectClass
  key_eq : e'.idempotencyKey = e.idempotencyKey
  proposal_eq : e'.proposal = e.proposal

theorem ledgerEntry_eq_some_iff (h : StrictKeys EffectLedgerEntry.idempotencyKey ledger)
    {key : String} : ledgerEntry ledger key = some e ↔ e ∈ ledger ∧ e.idempotencyKey = key :=
  h.distinctKeys.find?_eq_some_iff

theorem strictKeys_authorizeLedger (h : StrictKeys EffectLedgerEntry.idempotencyKey ledger) :
    StrictKeys EffectLedgerEntry.idempotencyKey (authorizeLedger identity p ledger) := by
  have hu : StrictKeys EffectLedgerEntry.idempotencyKey
      (upsertBy EffectLedgerEntry.idempotencyKey (identity.entry p) ledger) :=
    strictKeys_upsertBy h.distinctKeys
  unfold authorizeLedger
  split
  · exact hu
  · split
    · exact h
    · exact hu

theorem mem_of_mem_authorizeLedger (h : e ∈ authorizeLedger identity p ledger) :
    e ∈ ledger ∨ e = identity.entry p := by
  have hu : e ∈ upsertBy EffectLedgerEntry.idempotencyKey (identity.entry p) ledger →
      e ∈ ledger ∨ e = identity.entry p := by
    intro he
    rcases mem_upsertBy.mp he with ⟨he, -⟩ | he
    · exact .inl he
    · exact .inr he
  unfold authorizeLedger at h
  split at h
  · exact hu h
  · split at h
    · exact .inl h
    · exact hu h

theorem mem_authorizeLedger (hs : StrictKeys EffectLedgerEntry.idempotencyKey ledger)
    (he : e ∈ ledger) (ho : e.isResolvedUncommitted = false) :
    e ∈ authorizeLedger identity p ledger := by
  unfold authorizeLedger
  by_cases hk : e.idempotencyKey = identity.idempotencyKey
  · rw [(ledgerEntry_eq_some_iff hs).mpr ⟨he, hk⟩]
    simpa [ho] using he
  · have hu : e ∈ upsertBy EffectLedgerEntry.idempotencyKey (identity.entry p) ledger :=
      mem_upsertBy.mpr (.inl ⟨he, hk⟩)
    split
    · exact hu
    · split
      · exact he
      · exact hu

theorem exists_mem_authorizeLedger (i : EffectIdentity) (p : EffectProposal)
    (l : List EffectLedgerEntry) :
    ∃ e ∈ authorizeLedger i p l, e.idempotencyKey = i.idempotencyKey := by
  have hu : ∃ e ∈ upsertBy EffectLedgerEntry.idempotencyKey (i.entry p) l,
      e.idempotencyKey = i.idempotencyKey :=
    ⟨i.entry p, mem_upsertBy.mpr (.inr rfl), rfl⟩
  unfold authorizeLedger
  split
  · exact hu
  next ex hen =>
    split
    · exact ⟨ex, mem_of_find?_eq_some hen, by simpa using find?_some hen⟩
    · exact hu

theorem strictKeys_recordLedger (h : StrictKeys EffectLedgerEntry.idempotencyKey ledger) :
    StrictKeys EffectLedgerEntry.idempotencyKey (recordLedger effect outcome ledger) :=
  strictKeys_upsertBy h.distinctKeys

theorem sameAuthorization_outcomeEntry (hs : StrictKeys EffectLedgerEntry.idempotencyKey ledger)
    (he : e ∈ ledger) (hk : e.idempotencyKey = effect.idempotencyKey)
    (hcls : e.effectClass = effect.effectClass) :
    e.SameAuthorization (outcomeEntry effect outcome ledger) where
  class_eq := hcls.symm
  key_eq := hk.symm
  proposal_eq := by
    show (ledgerEntry ledger effect.idempotencyKey).bind EffectLedgerEntry.proposal = e.proposal
    rw [(ledgerEntry_eq_some_iff hs).mpr ⟨he, hk⟩, Option.bind_some]

theorem mem_recordLedger :
    e ∈ recordLedger effect outcome ledger ↔
      (e ∈ ledger ∧ e.idempotencyKey ≠ effect.idempotencyKey) ∨
        e = outcomeEntry effect outcome ledger :=
  mem_upsertBy

/-! ### One pass over the Issues -/

def IssueRunState.authorized (hash : Json → String) (s : DeliveryRunState)
    (p : EffectProposal) (it : IssueRunState) : IssueRunState :=
  { it with effectLedger := authorizeLedger (identityOf hash s p) p it.effectLedger }

def IssueRunState.authorizedAll (hash : Json → String) (s : DeliveryRunState)
    (ps : List EffectProposal) (it : IssueRunState) : IssueRunState :=
  ps.foldl (fun it p => it.authorized hash s p) it

@[simp] theorem authorizedAll_nil (s : DeliveryRunState) (it : IssueRunState) :
    it.authorizedAll hash s [] = it := rfl

theorem authorizedAll_eq (s : DeliveryRunState) (ps : List EffectProposal) (it : IssueRunState) :
    it.authorizedAll hash s ps =
      { it with effectLedger := (it.authorizedAll hash s ps).effectLedger } := by
  induction ps generalizing it with
  | nil => rfl
  | cons p ps ih => exact ih (it.authorized hash s p)

theorem authorizedAll_congr (hr : s'.runId = s.runId) (hp : s'.planRef = s.planRef)
    (hchk : s'.requiredCheckNames = s.requiredCheckNames) (ps : List EffectProposal)
    (it : IssueRunState) : it.authorizedAll hash s' ps = it.authorizedAll hash s ps := by
  simp only [IssueRunState.authorizedAll, IssueRunState.authorized, identityOf,
    proposalEffectIdentity_congr hr hp hchk]

theorem mem_authorizedAll (hs : StrictKeys EffectLedgerEntry.idempotencyKey it.effectLedger)
    (he : e ∈ it.effectLedger) (ho : e.isResolvedUncommitted = false) :
    e ∈ (it.authorizedAll hash s ps).effectLedger := by
  induction ps generalizing it with
  | nil => exact he
  | cons p ps ih =>
    have hm : e ∈ (it.authorized hash s p).effectLedger := mem_authorizeLedger hs he ho
    have hkeys : StrictKeys EffectLedgerEntry.idempotencyKey
        (it.authorized hash s p).effectLedger := strictKeys_authorizeLedger hs
    exact ih hkeys hm

theorem recordAuthorization_eq (hd : DistinctKeys IssueRunState.scopeKey issues)
    (h : recordAuthorization hash s issues p = .ok issues') :
    issues' = modifyBy IssueRunState.scopeKey p.issue.scopeKey
      (IssueRunState.authorized hash s p) issues := by
  unfold recordAuthorization at h
  cases hfn : issues.find? fun it => it.scopeKey = p.issue.scopeKey with
  | none =>
    simp only [hfn, pure_eq_ok_iff] at h
    rw [modifyBy_of_notMem, h]
    intro it hit
    simpa using find?_eq_none.mp hfn it hit
  | some it =>
    obtain ⟨hit, hkey⟩ := hd.find?_eq_some_iff.mp hfn
    simp only [hfn, bind_eq_ok_iff] at h
    obtain ⟨identity, hid, h⟩ := h
    rw [eq_identityOf hid] at h
    have hrp := hd.replaceBy_eq_modifyBy hit (IssueRunState.authorized hash s p) rfl
    -- an Issue whose ledger stays as it is has been replaced by itself
    have hsame : authorizeLedger (identityOf hash s p) p it.effectLedger = it.effectLedger →
        issues = modifyBy IssueRunState.scopeKey p.issue.scopeKey
          (IssueRunState.authorized hash s p) issues := by
      intro hlg
      have hsl : IssueRunState.authorized hash s p it = it := by
        simp [IssueRunState.authorized, hlg]
      rw [← hkey, ← hrp, hsl, replaceBy]
      conv_lhs => rw [← map_id issues]
      refine map_congr_left fun x hx => ?_
      by_cases hk : x.scopeKey = it.scopeKey
      · simp [hd.eq_of_key_eq hx hit hk]
      · simp [hk]
    cases hen : ledgerEntry it.effectLedger (identityOf hash s p).idempotencyKey with
    | none =>
      simp only [hen, pure_eq_ok_iff] at h
      rw [← h, ← hkey, ← hrp, replaceIssue, IssueRunState.authorized, authorizeLedger, hen]
    | some ex =>
      simp only [hen, pure_eq_ok_iff] at h
      by_cases hop : ex.isResolvedUncommitted
      · simp only [hop, Bool.not_true, Bool.false_eq_true, if_false] at h
        rw [← h, ← hkey, ← hrp, replaceIssue, IssueRunState.authorized, authorizeLedger, hen]
        simp [hop]
      · simp only [Bool.not_eq_true] at hop
        simp only [hop, Bool.not_false, if_true] at h
        rw [← h]
        refine hsame ?_
        simp [authorizeLedger, hen, hop]

theorem recordAuthorizations_foldl (hd : DistinctKeys IssueRunState.scopeKey issues)
    (h : recordAuthorizations hash s issues ps = .ok issues') :
    issues' = ps.foldl (fun acc p => modifyBy IssueRunState.scopeKey p.issue.scopeKey
      (IssueRunState.authorized hash s p) acc) issues := by
  induction ps generalizing issues with
  | nil =>
    simp only [recordAuthorizations, pure_eq_ok_iff] at h
    exact h.symm
  | cons p ps ih =>
    simp only [recordAuthorizations, bind_eq_ok_iff] at h
    obtain ⟨updated, hu, h⟩ := h
    have hr := recordAuthorization_eq hd hu
    have hd' : DistinctKeys IssueRunState.scopeKey updated := by
      refine hd.of_map_eq ?_
      rw [hr]
      exact map_key_modifyBy fun it hit => hit
    rw [foldl_cons, ← hr]
    exact ih hd' h

/-- **Authorisation is one pass over the Issues**: each Issue meets the proposals
for it. -/
theorem recordAuthorizations_eq {f : IssueRunState → IssueRunState}
    {g : IssueRunState → List EffectProposal} (hd : DistinctKeys IssueRunState.scopeKey issues)
    (hf : ∀ it ∈ issues, (f it).scopeKey = it.scopeKey)
    (hg : ∀ it ∈ issues, ∀ p ∈ g it, p.issue.scopeKey = it.scopeKey)
    (h : recordAuthorizations hash s (issues.map f) (issues.flatMap g) = .ok issues') :
    issues' = issues.map fun it => (f it).authorizedAll hash s (g it) := by
  have hkeys : (issues.map f).map IssueRunState.scopeKey = issues.map IssueRunState.scopeKey := by
    rw [map_map]
    exact map_congr_left hf
  have hd' : DistinctKeys IssueRunState.scopeKey (issues.map f) := by
    unfold DistinctKeys
    rw [hkeys]
    exact hd
  have hp := foldl_modifyBy IssueRunState.scopeKey
    (fun p : EffectProposal => p.issue.scopeKey) (IssueRunState.authorized hash s)
    (fun _ _ hk => hk) (issues.flatMap g) (issues.map f)
  rw [recordAuthorizations_foldl hd' h, hp, map_map]
  refine map_congr_left fun it hit => ?_
  have hm := hd.filter_flatMap (fun p : EffectProposal => p.issue.scopeKey) g hg hit
  simp only [Function.comp_apply, hf it hit, hm]
  rfl

theorem scopeKey_ite {u : IssueRunState} (hu : u.scopeKey = it.scopeKey) (x : IssueRunState) :
    (if x.scopeKey = it.scopeKey then u else x).scopeKey = x.scopeKey := by
  split
  · next hx => rw [hu, hx]
  · rfl

theorem scopeKey_of_mem_ite (hps : ∀ p ∈ ps, p.issue = it.issue) {x : IssueRunState}
    (hp : p ∈ if x.scopeKey = it.scopeKey then ps else []) : p.issue.scopeKey = x.scopeKey := by
  split at hp
  · next hx =>
    rw [hx, hps p hp]
    rfl
  · cases hp

theorem recordAuthorizations_total (hp : ∀ p ∈ ps, p.Derivable) (issues : List IssueRunState) :
    ∃ issues', recordAuthorizations hash s issues ps = .ok issues' := by
  induction ps generalizing issues with
  | nil => exact ⟨issues, rfl⟩
  | cons p ps ih =>
    have hr : ∃ updated, recordAuthorization hash s issues p = .ok updated := by
      unfold recordAuthorization
      split
      · exact ⟨issues, rfl⟩
      · rw [proposalEffectIdentity_eq (hp p mem_cons_self), ok_bind]
        split
        · exact ⟨_, rfl⟩
        · exact ⟨_, rfl⟩
    obtain ⟨updated, hu⟩ := hr
    obtain ⟨issues', hi'⟩ := ih (fun q hq => hp q (mem_cons_of_mem p hq)) updated
    exact ⟨issues', by rw [recordAuthorizations, hu, ok_bind, hi']⟩

end AgenticPkm.Builderops
