import AgenticPkm.Builderops.Compiler.Plans

/-!
# The exclusions of a compiled plan

`_compile_exclusions` carries the approved exclusions over and adds one for each requested Issue
that is neither planned nor excluded already.  Keys are compared casefolded, so an addition meets
an approved exclusion exactly when that exclusion names the Issue.

`validate_delivery_plan_evidence` asks for more than an initiation was asked for when it was
approved.  What it asks is `Admissible`; for an admissible initiation the exclusions of a compiled
plan leave out precisely the requested Issues that are not planned.
-/

namespace AgenticPkm.Builderops

open List Dict

/-- The exclusions of an initiation have keys of their own, whatever their case; those
that carry an Issue carry a requested one, and the others do not name any. -/
structure DeliveryInitiation.Admissible (casefold : Casefold) (d : DeliveryInitiation) :
    Prop where
  distinct : (d.exclusions.map fun x => casefold.fold x.scopeKey).Nodup
  typed : ∀ x ∈ d.exclusions, ∀ i, x.omittedIssue = some i → i ∈ d.requestedScope
  untyped : ∀ x ∈ d.exclusions, x.omittedIssue = none →
    ∀ i ∈ d.requestedScope, casefold.fold x.scopeKey ≠ i.scopeRef

theorem ScopeExclusion.scopeKey_eq_scopeRef {x : ScopeExclusion} (h : x.validate = .ok ())
    {i : IssueScope} (hi : x.omittedIssue = some i) : x.scopeKey = i.scopeRef := by
  simp only [validate, hi, bind_unit_eq_ok_iff, raiseIf_eq_ok_iff, bne_eq_false_iff_eq] at h
  exact h.2.2.2

namespace Compiler

variable {casefold : Casefold} {initiation : DeliveryInitiation} {included : List ScopeKey}
  {refusals : List PlanRefusal}

def approvedExclusions (casefold : Casefold) (initiation : DeliveryInitiation) :
    Dict String ScopeExclusion :=
  initiation.exclusions.foldl (fun d x => d.set (casefold.fold x.scopeKey) x) ∅

/-- The exclusion of one requested Issue, where it is called for. -/
def excludeOmitted (casefold : Casefold) (included : List ScopeKey) (refusals : List PlanRefusal)
    (d : Dict String ScopeExclusion) (issue : IssueScope) : Dict String ScopeExclusion :=
  if included.contains issue.scopeKey || d.keys.contains (casefold.fold issue.scopeRef) then d
  else d.set (casefold.fold issue.scopeRef) (omittedExclusion refusals issue)

def exclusionsByRef (casefold : Casefold) (initiation : DeliveryInitiation)
    (included : List ScopeKey) (refusals : List PlanRefusal) : Dict String ScopeExclusion :=
  initiation.requestedScope.foldl (excludeOmitted casefold included refusals)
    (approvedExclusions casefold initiation)

theorem compileExclusions_eq (f : List IssueScope) :
    compileExclusions casefold initiation f refusals =
      sortedBy ScopeExclusion.scopeKey (exclusionsByRef casefold initiation
        (f.map IssueScope.scopeKey) refusals).values :=
  rfl

/-! ### Adding the omitted Issues -/

theorem excludeOmitted_cases (d : Dict String ScopeExclusion) (i : IssueScope) :
    (excludeOmitted casefold included refusals d i = d ∧
      (i.scopeKey ∈ included ∨ ∃ x, d.get? (casefold.fold i.scopeRef) = some x)) ∨
    (i.scopeKey ∉ included ∧ d.get? (casefold.fold i.scopeRef) = none ∧
      excludeOmitted casefold included refusals d i =
        d.set (casefold.fold i.scopeRef) (omittedExclusion refusals i)) := by
  unfold excludeOmitted
  by_cases hs : (included.contains i.scopeKey || d.keys.contains (casefold.fold i.scopeRef))
  · refine .inl ⟨if_pos hs, ?_⟩
    rw [← Dict.mem_keys]
    simpa using hs
  · refine .inr ⟨?_, ?_, if_neg hs⟩
    · exact (by simpa using hs : _ ∧ _).1
    · rw [get?_eq_none_iff]
      exact (by simpa using hs : _ ∧ _).2

variable {s : List IssueScope} {k : String} {x : ScopeExclusion}
  {d : Dict String ScopeExclusion}

theorem get?_foldl_excludeOmitted (h : d.get? k = some x) :
    (s.foldl (excludeOmitted casefold included refusals) d).get? k = some x := by
  induction s generalizing d with
  | nil => exact h
  | cons issue s ih =>
    refine ih ?_
    rcases excludeOmitted_cases d issue with ⟨heq, -⟩ | ⟨-, hnew, heq⟩
    · rw [heq]
      exact h
    · rw [heq, get?_set_of_ne _ _ ?_]
      · exact h
      · rintro rfl
        rw [hnew] at h
        cases h

theorem mem_foldl_excludeOmitted
    (h : (s.foldl (excludeOmitted casefold included refusals) d).get? k = some x) :
    d.get? k = some x ∨ ∃ issue ∈ s, issue.scopeKey ∉ included ∧
      casefold.fold issue.scopeRef = k ∧ x = omittedExclusion refusals issue := by
  induction s generalizing d with
  | nil => exact .inl h
  | cons issue s ih =>
    rcases ih h with hstep | ⟨issue', hm, hr⟩
    · rcases excludeOmitted_cases d issue with ⟨heq, -⟩ | ⟨ho, -, heq⟩
      · rw [heq] at hstep
        exact .inl hstep
      · rw [heq, get?_set] at hstep
        by_cases hk : k = casefold.fold issue.scopeRef
        · rw [if_pos hk, Option.some.injEq] at hstep
          exact .inr ⟨issue, mem_cons_self, ho, hk.symm, hstep.symm⟩
        · rw [if_neg hk] at hstep
          exact .inl hstep
    · exact .inr ⟨issue', mem_cons_of_mem _ hm, hr⟩

theorem exists_foldl_excludeOmitted (d : Dict String ScopeExclusion) {i : IssueScope}
    (hi : i ∈ s) (ho : i.scopeKey ∉ included) :
    ∃ x, (s.foldl (excludeOmitted casefold included refusals) d).get?
      (casefold.fold i.scopeRef) = some x := by
  induction s generalizing d with
  | nil => cases hi
  | cons i' s ih =>
    rw [foldl_cons]
    rcases mem_cons.mp hi with rfl | hi
    · rcases excludeOmitted_cases d i with ⟨heq, hin | ⟨x, hx⟩⟩ | ⟨-, -, heq⟩
      · exact absurd hin ho
      · exact ⟨x, get?_foldl_excludeOmitted (by rw [heq]; exact hx)⟩
      · exact ⟨_, get?_foldl_excludeOmitted (by rw [heq]; exact get?_set_self _ _ _)⟩
    · exact ih _ hi

/-! ### The exclusions of a plan -/

theorem get?_approvedExclusions (hadmissible : initiation.Admissible casefold) :
    (approvedExclusions casefold initiation).get? k = some x ↔
      x ∈ initiation.exclusions ∧ casefold.fold x.scopeKey = k := by
  rw [approvedExclusions, get?_foldl_set hadmissible.distinct]
  simp

theorem fold_scopeKey_of_exclusionsByRef (hadmissible : initiation.Admissible casefold)
    {item : String × ScopeExclusion}
    (h : item ∈ (exclusionsByRef casefold initiation included refusals).items) :
    casefold.fold item.2.scopeKey = item.1 := by
  rcases mem_foldl_excludeOmitted (mem_items.mp h) with ho | ⟨issue, -, -, hk, hx⟩
  · exact ((get?_approvedExclusions hadmissible).mp ho).2
  · rw [hx]
    exact hk

section Compiled

variable {f : List IssueScope}

theorem nodup_fold_compileExclusions (hadmissible : initiation.Admissible casefold) :
    ((compileExclusions casefold initiation f refusals).map fun x =>
      casefold.fold x.scopeKey).Nodup := by
  rw [compileExclusions_eq, ((perm_sortedBy _ _).map _).nodup_iff, Dict.values, map_map]
  have hkeys : (exclusionsByRef casefold initiation (f.map IssueScope.scopeKey)
      refusals).items.map ((fun x => casefold.fold x.scopeKey) ∘ Prod.snd) =
      (exclusionsByRef casefold initiation (f.map IssueScope.scopeKey) refusals).keys :=
    map_congr_left fun item hi => fold_scopeKey_of_exclusionsByRef hadmissible hi
  rw [hkeys]
  exact Dict.nodup_keys _

variable {x : ScopeExclusion}

section

variable (hd : initiation.Valid) (hadmissible : initiation.Admissible casefold)
include hd hadmissible

/-- **The exclusions of a plan** are the approved ones, and one for each requested Issue
that is not planned and that no approved exclusion names. -/
theorem mem_compileExclusions :
    x ∈ compileExclusions casefold initiation f refusals ↔
      x ∈ initiation.exclusions ∨
      ∃ issue ∈ initiation.requestedScope, issue.scopeKey ∉ f.map IssueScope.scopeKey ∧
        (∀ y ∈ initiation.exclusions, casefold.fold y.scopeKey ≠ issue.scopeRef) ∧
        x = omittedExclusion refusals issue := by
  have hfl : ∀ issue ∈ initiation.requestedScope, casefold.fold issue.scopeRef = issue.scopeRef :=
    fun issue hiss => issue.fold_scopeRef casefold (hd.issue_valid issue hiss)
  rw [compileExclusions_eq, mem_sortedBy, mem_values]
  constructor
  · rintro ⟨k, hitem⟩
    rcases mem_foldl_excludeOmitted (mem_items.mp hitem) with
      hold | ⟨issue, hiss, hout, hkey, hx⟩
    · exact .inl ((get?_approvedExclusions hadmissible).mp hold).1
    · by_cases hnam : ∃ y ∈ initiation.exclusions, casefold.fold y.scopeKey = issue.scopeRef
      · -- an approved exclusion of that key would have stayed
        obtain ⟨y, hy, hyk⟩ := hnam
        have hap : (approvedExclusions casefold initiation).get? k = some y := by
          refine (get?_approvedExclusions hadmissible).mpr ⟨hy, ?_⟩
          rw [hyk, ← hkey, hfl issue hiss]
        have hxy : some x = some y :=
          (mem_items.mp hitem).symm.trans (get?_foldl_excludeOmitted hap)
        rw [Option.some.inj hxy]
        exact .inl hy
      · exact .inr ⟨issue, hiss, hout, fun y hy heq => hnam ⟨y, hy, heq⟩, hx⟩
  · rintro (hx | ⟨issue, hiss, hout, hfr, rfl⟩)
    · refine ⟨casefold.fold x.scopeKey, mem_items.mpr (get?_foldl_excludeOmitted ?_)⟩
      exact (get?_approvedExclusions hadmissible).mpr ⟨hx, rfl⟩
    · obtain ⟨x, hx⟩ : ∃ x, (exclusionsByRef casefold initiation
          (f.map IssueScope.scopeKey) refusals).get? (casefold.fold issue.scopeRef) =
          some x := exists_foldl_excludeOmitted _ hiss hout
      refine ⟨casefold.fold issue.scopeRef, mem_items.mpr ?_⟩
      rcases mem_foldl_excludeOmitted hx with hold | ⟨issue', hiss', -, hkey, hx'⟩
      · obtain ⟨hy, hyk⟩ := (get?_approvedExclusions hadmissible).mp hold
        rw [hfl issue hiss] at hyk
        exact absurd hyk (hfr x hy)
      · -- the key belongs to one Issue
        rw [hfl issue hiss, hfl issue' hiss'] at hkey
        have hsame : issue' = issue := hd.scope_distinct.eq_of_key_eq hiss' hiss
          (IssueScope.scopeKey_eq_of_scopeRef_eq hkey)
        rw [hsame] at hx'
        rw [hx'] at hx
        exact hx

theorem omitted_of_mem_compileExclusions (hk : ∀ i ∈ f, isExcluded initiation i.scopeKey = false)
    (hx : x ∈ compileExclusions casefold initiation f refusals) {i : IssueScope}
    (hi : x.omittedIssue = some i) :
    i ∈ initiation.requestedScope ∧ x.scopeKey = i.scopeRef ∧
      i.scopeKey ∉ f.map IssueScope.scopeKey := by
  rcases (mem_compileExclusions hd hadmissible).mp hx with
    hx | ⟨issue, hiss, ho, -, rfl⟩
  · refine ⟨hadmissible.typed x hx i hi,
      ScopeExclusion.scopeKey_eq_scopeRef (hd.exclusion_valid x hx) hi, ?_⟩
    -- a planned Issue is not named by an approved exclusion
    intro hp
    obtain ⟨j, hj, hkey⟩ := mem_map.mp hp
    have hec : isExcluded initiation j.scopeKey := by
      rw [isExcluded, any_eq_true]
      exact ⟨x, hx, by simp [hi, hkey]⟩
    rw [hk j hj] at hec
    cases hec
  · obtain rfl : issue = i := Option.some.inj hi
    exact ⟨hiss, rfl, ho⟩

/-- **The exclusions of a plan name the requested Issues that are not planned.** -/
theorem mem_issueExclusionRefs
    (hkp : ∀ i ∈ f, isExcluded initiation i.scopeKey = false) {ref : String} :
    ref ∈ issueExclusionRefs casefold
        (compileExclusions casefold initiation f refusals) ↔
      ∃ i ∈ initiation.requestedScope, i.scopeKey ∉ f.map IssueScope.scopeKey ∧
        i.scopeRef = ref := by
  simp only [issueExclusionRefs, mem_map, mem_filter, Option.isSome_iff_exists]
  constructor
  · rintro ⟨x, ⟨hx, i, hi⟩, rfl⟩
    obtain ⟨hiss, hkey, hout⟩ := omitted_of_mem_compileExclusions hd hadmissible hkp hx hi
    refine ⟨i, hiss, by simpa using hout, ?_⟩
    rw [hkey, i.fold_scopeRef casefold (hd.issue_valid i hiss)]
  · rintro ⟨i, hiss, hout, rfl⟩
    have hfl := i.fold_scopeRef casefold (hd.issue_valid i hiss)
    by_cases hnam : ∃ y ∈ initiation.exclusions, casefold.fold y.scopeKey = i.scopeRef
    · obtain ⟨y, hy, hyk⟩ := hnam
      refine ⟨y, ⟨(mem_compileExclusions hd hadmissible).mpr (.inl hy), ?_⟩, hyk⟩
      by_contra hun
      refine hadmissible.untyped y hy ?_ i hiss hyk
      cases hom : y.omittedIssue with
      | none => rfl
      | some j => exact absurd ⟨j, hom⟩ hun
    · refine ⟨omittedExclusion refusals i, ⟨?_, i, rfl⟩, hfl⟩
      exact (mem_compileExclusions hd hadmissible).mpr (.inr ⟨i, hiss, by simpa using hout,
        fun y hy heq => hnam ⟨y, hy, heq⟩, rfl⟩)

theorem exclusionEvidence_of_mem (hk : ∀ i ∈ f, isExcluded initiation i.scopeKey = false)
    (hx : x ∈ compileExclusions casefold initiation f refusals) :
    exclusionEvidence casefold initiation x = .ok () := by
  unfold exclusionEvidence
  cases ho : x.omittedIssue with
  | none =>
    -- only an approved exclusion carries no Issue
    rcases (mem_compileExclusions hd hadmissible).mp hx with ha | ⟨issue, -, -, -, rfl⟩
    · have hn := hadmissible.untyped x ha ho
      simp only [raiseIf_eq_ok_iff]
      rw [← Bool.not_eq_true, contains_iff_mem]
      rintro hmem
      obtain ⟨i, hi, heq⟩ := mem_map.mp hmem
      exact hn i hi heq.symm
    · cases ho
  | some i =>
    obtain ⟨hiss, hkey, -⟩ := omitted_of_mem_compileExclusions hd hadmissible hk hx ho
    have hmem : i.scopeRef ∈ initiation.requestedScope.map IssueScope.scopeRef :=
      mem_map_of_mem hiss
    have ha : initiation.approved i.scopeKey = some i := hd.approved_eq_some_iff.mpr ⟨hiss, rfl⟩
    have hnam : (!(initiation.requestedScope.map IssueScope.scopeRef).contains
        i.scopeRef) = false := by
      rw [contains_iff_mem.mpr hmem]
      rfl
    simp only [hkey, i.fold_scopeRef casefold (hd.issue_valid i hiss), ha, hnam,
      raiseIf_false, ok_bind, getOrRaise_some, bne_self_eq_false]

theorem validate_of_mem_compileExclusions
    (hx : x ∈ compileExclusions casefold initiation f refusals) : x.validate = .ok () := by
  rcases (mem_compileExclusions hd hadmissible).mp hx with hx | ⟨issue, hi, -, -, rfl⟩
  · exact hd.exclusion_valid x hx
  · have hk : issue.repository ++ "#" ++ toString issue.issueNumber ≠ "" := by
      intro hemp
      have hh := (String.append_eq_empty_iff.mp (String.append_eq_empty_iff.mp hemp).1).2
      exact absurd hh (by decide)
    have hr : exclusionReason refusals issue.scopeKey ≠ "" := append_ne_empty_of_left (by decide)
    simp only [ScopeExclusion.validate, omittedExclusion, IssueScope.scopeRef,
      bind_unit_eq_ok_iff, checkNonEmptyStr_eq_ok_iff, raiseIf_eq_ok_iff, bne_self_eq_false]
    exact ⟨hk, hr, hd.issue_valid issue hi, trivial⟩

end

end Compiled

end Compiler
end AgenticPkm.Builderops
