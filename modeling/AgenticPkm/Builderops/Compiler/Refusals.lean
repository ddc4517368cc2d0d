import AgenticPkm.Lib.Loops
import AgenticPkm.Lib.Search
import AgenticPkm.Builderops.Compiler.Facts

/-!
# The refusal map

The compiler collects its refusals in a dictionary keyed by the Issue's scope key, the code and
the detail.  Filing a refusal under a key that is there replaces the Issue and merges the related
Issues.  An Issue with a refusal of any code is out, and refusals spread along unsatisfied
dependencies until a pass over the facts files nothing new.

`PlanRefusal` has a validator, so the functions of the source may raise.  They never do: each is
shown to return what a plain function computes, and everything after is about those.
-/

namespace AgenticPkm.Builderops.Compiler

open List

structure PlanRefusal where
  code : RefusalCode
  issue : IssueScope
  detail : String
  relatedIssues : List IssueScope
  deriving DecidableEq, Repr, Inhabited

namespace PlanRefusal

def key (r : PlanRefusal) : RefusalKey := (r.issue.scopeKey, r.code, r.detail)

/-- Refusals are reported in the order of their keys, codes as texts. -/
def sortKey (r : PlanRefusal) : (String ×ₗ ℕ) ×ₗ String ×ₗ String :=
  toLex (r.issue.sortKey, toLex (r.code.text, r.detail))

def validate (r : PlanRefusal) : Except String Unit := do
  raiseIf (strip r.detail == "") "plan refusal detail must not be empty"
  requireSortedBy IssueScope.sortKey r.relatedIssues
    "plan refusal related issues must use canonical order"
  raiseIf (!decide (r.relatedIssues.map IssueScope.scopeKey).Nodup)
    "plan refusal related issues must not contain duplicates"

end PlanRefusal

abbrev RefusalMap := Dict RefusalKey PlanRefusal

def relatedOrder (i : IssueScope) : (String ×ₗ ℕ) ×ₗ String ×ₗ String :=
  toLex (i.sortKey, toLex (i.contractHash, i.authorityId))

/-- One related Issue a scope key: the first in the order above. -/
def mergeRelated (candidates : List IssueScope) : List IssueScope :=
  firstBy IssueScope.scopeKey (sortedBy relatedOrder candidates)

def filedRefusal (m : RefusalMap) (r : RefusalRequest) : PlanRefusal where
  code := r.code
  issue := r.issue
  detail := r.detail
  relatedIssues :=
    mergeRelated (((m.get? r.key).map PlanRefusal.relatedIssues).getD [] ++ r.relatedIssues)

def refuse (m : RefusalMap) (r : RefusalRequest) : Except String RefusalMap := do
  (filedRefusal m r).validate
  pure (m.set r.key (filedRefusal m r))

def refuseAll (m : RefusalMap) (requests : List RefusalRequest) : Except String RefusalMap :=
  requests.foldlM refuse m

/-- `_issue_has_refusal`. -/
def hasRefusal (m : RefusalMap) (k : ScopeKey) : Bool := m.keys.any fun key => key.1 = k

/-! ### Filing does not raise -/

def recordRefusal (m : RefusalMap) (r : RefusalRequest) : RefusalMap :=
  m.set r.key (filedRefusal m r)

def recordAll (m : RefusalMap) (requests : List RefusalRequest) : RefusalMap :=
  requests.foldl recordRefusal m

def RefusalRequest.Stated (r : RefusalRequest) : Prop := strip r.detail ≠ ""

instance (r : RefusalRequest) : Decidable r.Stated := inferInstanceAs (Decidable (_ ≠ _))

theorem sortKey_le_of_relatedOrder_le {i j : IssueScope} (h : relatedOrder i ≤ relatedOrder j) :
    i.sortKey ≤ j.sortKey := by
  rcases Prod.Lex.toLex_le_toLex.mp h with hlt | ⟨heq, -⟩
  · exact le_of_lt hlt
  · exact le_of_eq heq

variable {r : RefusalRequest} {rq : List RefusalRequest} {m : RefusalMap} {k : ScopeKey}

theorem filedRefusal_validate (m : RefusalMap) (hr : r.Stated) :
    (filedRefusal m r).validate = .ok () := by
  have hdet : (strip r.detail == "") = false := beq_eq_false_iff_ne.mpr hr
  have hs : ∀ l, (mergeRelated l).Pairwise fun i j => i.sortKey ≤ j.sortKey := by
    intro l
    refine List.Pairwise.sublist (firstBy_sublist _) ?_
    exact (pairwise_sortedBy relatedOrder l).imp sortKey_le_of_relatedOrder_le
  have hd : ∀ l, ((mergeRelated l).map IssueScope.scopeKey).Nodup := fun l => distinctKeys_firstBy _
  simp [PlanRefusal.validate, filedRefusal, hdet, hs, hd]

/-- **Filing a refusal does not raise.** -/
theorem refuse_eq (m : RefusalMap) (hr : r.Stated) : refuse m r = .ok (recordRefusal m r) := by
  rw [refuse, filedRefusal_validate m hr]
  rfl

theorem refuseAll_eq (m : RefusalMap) (h : ∀ r ∈ rq, r.Stated) :
    refuseAll m rq = .ok (recordAll m rq) :=
  foldlM_eq_ok (fun m r hr => refuse_eq m (h r hr)) m

/-! ### What is filed -/

theorem get?_recordRefusal (m : RefusalMap) (r : RefusalRequest) (key : RefusalKey) :
    (recordRefusal m r).get? key = if key = r.key then some (filedRefusal m r) else m.get? key :=
  Dict.get?_set m r.key key _

variable {key : RefusalKey}

theorem mem_keys_recordRefusal :
    key ∈ (recordRefusal m r).keys ↔ key ∈ m.keys ∨ r.key = key := by
  rw [Dict.mem_keys, Dict.mem_keys, get?_recordRefusal]
  by_cases hk : key = r.key
  · simp [hk]
  · simp [hk, Ne.symm hk]

/-- **The keys of the map are those of the requests.** -/
theorem mem_keys_recordAll :
    key ∈ (recordAll m rq).keys ↔ key ∈ m.keys ∨ ∃ r ∈ rq, r.key = key := by
  induction rq generalizing m with
  | nil => simp [recordAll]
  | cons r rq ih =>
    rw [recordAll, foldl_cons]
    have hr := ih (m := recordRefusal m r)
    rw [recordAll] at hr
    rw [hr, mem_keys_recordRefusal, or_assoc]
    simp

theorem get?_recordAll_of_ne (h : ∀ r ∈ rq, r.key ≠ key) :
    (recordAll m rq).get? key = m.get? key := by
  induction rq generalizing m with
  | nil => rfl
  | cons r rq ih =>
    refine (ih fun r' hr' => h r' (mem_cons_of_mem _ hr')).trans ?_
    rw [get?_recordRefusal, if_neg (Ne.symm (h r mem_cons_self))]

theorem hasRefusal_iff : hasRefusal m k ↔ ∃ key ∈ m.keys, key.1 = k := by
  simp [hasRefusal]

theorem hasRefusal_recordAll :
    hasRefusal (recordAll m rq) k ↔ hasRefusal m k ∨ ∃ r ∈ rq, r.issue.scopeKey = k := by
  simp only [hasRefusal_iff, mem_keys_recordAll]
  constructor
  · rintro ⟨key, hkey | ⟨r, hr, rfl⟩, hk⟩
    · exact .inl ⟨key, hkey, hk⟩
    · exact .inr ⟨r, hr, hk⟩
  · rintro (⟨key, hkey, hk⟩ | ⟨r, hr, hk⟩)
    · exact ⟨key, .inl hkey, hk⟩
    · exact ⟨r.key, .inr ⟨r, hr, rfl⟩, hk⟩

theorem hasRefusal_recordRefusal :
    hasRefusal (recordRefusal m r) k ↔ hasRefusal m k ∨ r.issue.scopeKey = k := by
  have h : hasRefusal (recordAll m [r]) k ↔
      hasRefusal m k ∨ ∃ r' ∈ [r], r'.issue.scopeKey = k := hasRefusal_recordAll
  simpa [recordAll] using h

/-! ### Spreading along dependencies -/

abbrev AcceptedFacts := Dict ScopeKey DeliveryIssuePlanningSnapshot

def inKeyOrder (facts : AcceptedFacts) : List (ScopeKey × DeliveryIssuePlanningSnapshot) :=
  sortedBy (fun item => (toLex item.1 : String ×ₗ ℕ)) facts.items

def unrefused (facts : AcceptedFacts) (m : RefusalMap) : AcceptedFacts :=
  facts.keep fun k => !hasRefusal m k

def blockedDependencies (initiation : DeliveryInitiation) (m : RefusalMap)
    (fact : DeliveryIssuePlanningSnapshot) : List IssueScope :=
  (fact.dependencies.filter fun d => !d.satisfied &&
    (initiation.approved d.issue.scopeKey).isSome && hasRefusal m d.issue.scopeKey).map
      DeliveryDependency.issue

def blockedRequest (fact : DeliveryIssuePlanningSnapshot) (blocked : List IssueScope) :
    RefusalRequest :=
  { issue := fact.issue, code := .dependencyBlocked,
    detail := "internal dependency was excluded or refused", relatedIssues := blocked }

/-- One fact in a pass of `_propagate_dependency_refusals`; the flag says whether
anything was filed. -/
def propagateStep (initiation : DeliveryInitiation) (state : RefusalMap × Bool)
    (item : ScopeKey × DeliveryIssuePlanningSnapshot) : Except String (RefusalMap × Bool) :=
  let blocked := blockedDependencies initiation state.1 item.2
  if hasRefusal state.1 item.1 || blocked.isEmpty then pure state
  else do
    let m ← refuse state.1 (blockedRequest item.2 blocked)
    pure (m, true)

/-- `_propagate_dependency_refusals`: every pass that files anything takes an Issue out,
so the number of facts bounds the passes. -/
def propagateDependencyRefusals (initiation : DeliveryInitiation) (facts : AcceptedFacts)
    (m : RefusalMap) : Except String RefusalMap :=
  settleM (fun m => (inKeyOrder facts).foldlM (propagateStep initiation) (m, false))
    (facts.items.length + 1) m

/-- What a step of a pass does. -/
def spreadStep (initiation : DeliveryInitiation) (state : RefusalMap × Bool)
    (item : ScopeKey × DeliveryIssuePlanningSnapshot) : RefusalMap × Bool :=
  let blocked := blockedDependencies initiation state.1 item.2
  if hasRefusal state.1 item.1 || blocked.isEmpty then state
  else (recordRefusal state.1 (blockedRequest item.2 blocked), true)

def spreadPass (initiation : DeliveryInitiation) (facts : AcceptedFacts) (m : RefusalMap) :
    RefusalMap × Bool :=
  (inKeyOrder facts).foldl (spreadStep initiation) (m, false)

def propagated (initiation : DeliveryInitiation) (facts : AcceptedFacts) (m : RefusalMap) :
    RefusalMap :=
  settle (spreadPass initiation facts) (facts.items.length + 1) m

theorem stated_blockedRequest (fact : DeliveryIssuePlanningSnapshot) (b : List IssueScope) :
    (blockedRequest fact b).Stated :=
  strip_ofList_ne_empty rfl

/-- **Spreading refusals does not raise.** -/
theorem propagateDependencyRefusals_eq (i : DeliveryInitiation) (f : AcceptedFacts) (m : RefusalMap)
    : propagateDependencyRefusals i f m = .ok (propagated i f m) := by
  refine settleM_eq_ok (fun m => ?_) _ m
  refine foldlM_eq_ok (fun state item _ => ?_) (m, false)
  unfold propagateStep spreadStep
  by_cases hs : (hasRefusal state.1 item.1 || (blockedDependencies i state.1 item.2).isEmpty)
  · simp only [hs, if_true]
    rfl
  · simp only [hs, refuse_eq state.1 (stated_blockedRequest _ _), ok_bind]
    rfl

section Spread

variable {init : DeliveryInitiation}

theorem spreadStep_cases (s : RefusalMap × Bool) (item : KeyedFact) :
    (spreadStep init s item = s ∧
      (hasRefusal s.1 item.1 = true ∨ blockedDependencies init s.1 item.2 = [])) ∨
    (hasRefusal s.1 item.1 = false ∧ blockedDependencies init s.1 item.2 ≠ [] ∧
      spreadStep init s item = (recordRefusal s.1
        (blockedRequest item.2 (blockedDependencies init s.1 item.2)), true)) := by
  unfold spreadStep
  by_cases hs : (hasRefusal s.1 item.1 || (blockedDependencies init s.1 item.2).isEmpty)
  · refine .inl ⟨by simp only [hs, if_true], ?_⟩
    simpa using hs
  · have hgo : hasRefusal s.1 item.1 = false ∧ blockedDependencies init s.1 item.2 ≠ [] := by
      simpa using hs
    exact .inr ⟨hgo.1, hgo.2, by simp only [hs]; rfl⟩

variable {st : RefusalMap × Bool} {it : List KeyedFact} {facts : AcceptedFacts} {item : KeyedFact}

/-- **What filing against an Issue without a refusal keeps, a pass keeps.** -/
theorem foldl_spreadStep_induct {P : RefusalMap × Bool → Prop} (h : P st)
    (hr : ∀ st, ∀ item ∈ it, P st → hasRefusal st.1 item.1 = false → ∀ dependencies,
      P (recordRefusal st.1 (blockedRequest item.2 dependencies), true)) :
    P (it.foldl (spreadStep init) st) := by
  refine foldlRecOn it _ h fun st h item hi => ?_
  rcases spreadStep_cases st item with ⟨heq, -⟩ | ⟨hf, -, heq⟩
  · rw [heq]
    exact h
  · rw [heq]
    exact hr st item hi h hf _

theorem mem_keys_foldl_spreadStep (h : key ∈ st.1.keys) :
    key ∈ (it.foldl (spreadStep init) st).1.keys :=
  foldl_spreadStep_induct (P := fun st => key ∈ st.1.keys) h
    fun _ _ _ h _ _ => mem_keys_recordRefusal.mpr (.inl h)

theorem hasRefusal_mono {m' : RefusalMap} (h : ∀ key ∈ m.keys, key ∈ m'.keys)
    (hk : hasRefusal m k) : hasRefusal m' k := by
  obtain ⟨key, hkey, rfl⟩ := hasRefusal_iff.mp hk
  exact hasRefusal_iff.mpr ⟨key, h key hkey, rfl⟩

theorem foldl_spreadStep_changed (h : st.2) : (it.foldl (spreadStep init) st).2 :=
  foldl_spreadStep_induct (P := fun st => st.2) h fun _ _ _ _ _ _ => rfl

theorem foldl_spreadStep_quiet (h : (it.foldl (spreadStep init) st).2 = false) :
    it.foldl (spreadStep init) st = st ∧
      ∀ item ∈ it, hasRefusal st.1 item.1 ∨ blockedDependencies init st.1 item.2 = [] := by
  induction it generalizing st with
  | nil => simp
  | cons item it ih =>
    rw [foldl_cons] at h ⊢
    rcases spreadStep_cases st item with ⟨heq, hs⟩ | ⟨-, -, heq⟩
    · rw [heq] at h ⊢
      obtain ⟨hsame, hr⟩ := ih h
      refine ⟨hsame, fun item' hi' => ?_⟩
      rcases mem_cons.mp hi' with rfl | hi'
      · exact hs
      · exact hr item' hi'
    · rw [foldl_spreadStep_changed (by rw [heq])] at h
      cases h

theorem foldl_spreadStep_takes (hk : ∀ item ∈ it, item.2.scopeKey = item.1)
    (h : (it.foldl (spreadStep init) (m, false)).2) :
    ∃ item ∈ it, hasRefusal m item.1 = false ∧
      hasRefusal (it.foldl (spreadStep init) (m, false)).1 item.1 := by
  induction it with
  | nil => cases h
  | cons item it ih =>
    rw [foldl_cons] at h ⊢
    rcases spreadStep_cases (m, false) item with ⟨heq, -⟩ | ⟨hf, -, heq⟩
    · rw [heq] at h ⊢
      obtain ⟨item', hi', ht⟩ := ih (fun item hi => hk item (mem_cons_of_mem _ hi)) h
      exact ⟨item', mem_cons_of_mem _ hi', ht⟩
    · refine ⟨item, mem_cons_self, hf, ?_⟩
      rw [heq]
      refine hasRefusal_mono (fun key hkey => mem_keys_foldl_spreadStep hkey) ?_
      exact hasRefusal_recordRefusal.mpr (.inr (hk item mem_cons_self))

def Keyed (facts : AcceptedFacts) : Prop := ∀ item ∈ facts.items, item.2.scopeKey = item.1

theorem Keyed.unrefused (h : Keyed facts) (m : RefusalMap) : Keyed (unrefused facts m) :=
  fun item hi => h item (mem_filter.mp hi).1

theorem mem_inKeyOrder : item ∈ inKeyOrder facts ↔ item ∈ facts.items := mem_sortedBy

theorem mem_keys_propagated (h : key ∈ m.keys) :
    key ∈ (propagated init facts m).keys := by
  have hp : ∀ m : RefusalMap, key ∈ m.keys → key ∈ (spreadPass init facts m).1.keys :=
    fun m hm => mem_keys_foldl_spreadStep hm
  exact settle_invariant hp _ h

theorem get?_propagated_of_ne (h : ∀ item ∈ facts.items,
    hasRefusal m item.1 = false → (blockedRequest item.2 []).key ≠ key) :
    (propagated init facts m).get? key = m.get? key := by
  let P (m' : RefusalMap) : Prop := m'.get? key = m.get? key ∧ ∀ k ∈ m.keys, k ∈ m'.keys
  have hp : ∀ m', P m' → P (spreadPass init facts m').1 := by
    intro m' hm'
    refine foldl_spreadStep_induct (P := fun st => P st.1) hm' ?_
    intro st item hi hs hf dependencies
    -- what has no refusal now had none at the start
    have hf' : hasRefusal m item.1 = false := by
      by_contra hr
      rw [hasRefusal_mono hs.2 (by simpa using hr)] at hf
      cases hf
    have hne := h item (mem_inKeyOrder.mp hi) hf'
    refine ⟨?_, fun k hk => mem_keys_recordRefusal.mpr (.inl (hs.2 k hk))⟩
    rw [get?_recordRefusal]
    exact (if_neg (Ne.symm hne)).trans hs.1
  have hP : P (propagated init facts m) := settle_invariant hp _ ⟨rfl, fun _ hk => hk⟩
  exact hP.1

def openCount (facts : AcceptedFacts) (m : RefusalMap) : ℕ :=
  (facts.items.filter fun item => !hasRefusal m item.1).length

theorem openCount_lt (hk : Keyed facts) (h : (spreadPass init facts m).2) :
    openCount facts (spreadPass init facts m).1 < openCount facts m := by
  obtain ⟨item, hi, hf, ht⟩ := foldl_spreadStep_takes
    (fun item hi => hk item (mem_inKeyOrder.mp hi)) h
  -- what is open after the pass is a proper part of what was open before
  have hp : (facts.items.filter fun item =>
      !hasRefusal (spreadPass init facts m).1 item.1) =
      (facts.items.filter fun item => !hasRefusal m item.1).filter fun item =>
        !hasRefusal (spreadPass init facts m).1 item.1 := by
    rw [filter_filter]
    refine filter_congr fun item _ => ?_
    by_cases hm : hasRefusal m item.1
    · have ha : hasRefusal (spreadPass init facts m).1 item.1 :=
        hasRefusal_mono (fun key hkey => mem_keys_foldl_spreadStep hkey) hm
      simp [hm, ha]
    · simp [hm]
  unfold openCount
  rw [hp, length_filter_lt_length_iff_exists]
  refine ⟨item, mem_filter.mpr ⟨mem_inKeyOrder.mp hi, by simp [hf]⟩, ?_⟩
  have ho : hasRefusal (spreadPass init facts m).1 item.1 := ht
  simp [ho]

/-- **After the loop, no Issue without a refusal waits for an approved Issue that has
one.** -/
theorem propagated_closed (hkey : Keyed facts) (m : RefusalMap)
    {fact : DeliveryIssuePlanningSnapshot} (hfc : (k, fact) ∈ facts.items)
    (hf : hasRefusal (propagated init facts m) k = false) {d : DeliveryDependency}
    (hd : d ∈ fact.dependencies) (huns : d.satisfied = false)
    (ha : (init.approved d.issue.scopeKey).isSome) :
    hasRefusal (propagated init facts m) d.issue.scopeKey = false := by
  have hb : openCount facts m < facts.items.length + 1 := Nat.lt_succ_of_le (length_filter_le _ _)
  have hs : (spreadPass init facts (propagated init facts m)).2 = false :=
    settle_stable (openCount facts) (fun m h => openCount_lt hkey h)
      (fun m h => congrArg Prod.fst (foldl_spreadStep_quiet h).1) hb
  obtain ⟨-, hq⟩ := foldl_spreadStep_quiet hs
  rcases hq (k, fact) (mem_inKeyOrder.mpr hfc) with href | hn
  · rw [href] at hf
    cases hf
  · rw [blockedDependencies, map_eq_nil_iff, filter_eq_nil_iff] at hn
    have := hn d hd
    simpa [huns, ha] using this

end Spread

/-! ### Cycles -/

def waitsFor (facts : AcceptedFacts) (candidates : List ScopeKey) (k : ScopeKey) :
    List ScopeKey :=
  match facts.get? k with
  | none => []
  | some fact =>
      (fact.dependencies.filter fun d =>
        !d.satisfied && candidates.contains d.issue.scopeKey).map fun d => d.issue.scopeKey

/-- `_dependency_cycle_keys`: the candidates a search along unsatisfied dependencies
comes back to, in key order.  The candidates are keys of the facts wherever it is
called. -/
def dependencyCycleKeys (facts : AcceptedFacts) (candidates : List ScopeKey) : List ScopeKey :=
  let next := waitsFor facts candidates
  let fuel := edgeCount next candidates + 2
  sortedBy (fun k => (toLex k : String ×ₗ ℕ))
    (candidates.filter fun start => comesBack next start fuel [start] [] == some true)

/-- **The cycle keys are the candidates on a cycle.** -/
theorem mem_dependencyCycleKeys {f : AcceptedFacts} {candidates : List ScopeKey}
    (hnod : candidates.Nodup) :
    k ∈ dependencyCycleKeys f candidates ↔ k ∈ candidates ∧
      Relation.TransGen (fun a b => b ∈ waitsFor f candidates a) k k := by
  have hn : ∀ a ∈ candidates, ∀ b ∈ waitsFor f candidates a, b ∈ candidates := by
    intro a _ b hb
    unfold waitsFor at hb
    cases hf : f.get? a with
    | none => simp [hf] at hb
    | some fact =>
      simp only [hf, mem_map, mem_filter, Bool.and_eq_true, contains_iff_mem] at hb
      obtain ⟨d, ⟨-, -, hm⟩, rfl⟩ := hb
      exact hm
  unfold dependencyCycleKeys
  rw [mem_sortedBy, mem_filter, beq_iff_eq]
  refine and_congr_right fun hk => ?_
  exact comesBack_eq_true_iff hnod hk hn (Nat.lt_succ_self _)

/-! ### Overlapping mutation paths -/

def mutationPaths (fact : DeliveryIssuePlanningSnapshot) : List String :=
  (fact.likelyMutationPaths.map normalizePath).filter fun path => path != ""

def pathsOverlap (left right : String) : Bool :=
  left != "" && right != "" &&
    (left == right || startsWith (right ++ "/") left || startsWith (left ++ "/") right)

def factsOverlap (left right : DeliveryIssuePlanningSnapshot) : Bool :=
  (mutationPaths left).any fun l => (mutationPaths right).any fun r => pathsOverlap l r

def overlapRequest (issue other : IssueScope) : RefusalRequest :=
  { issue := issue, code := .mutationOverlap,
    detail := "likely mutation path overlaps approved peer", relatedIssues := [other] }

def overlapRequests : List DeliveryIssuePlanningSnapshot → List RefusalRequest
  | [] => []
  | left :: rest =>
      (rest.filter (factsOverlap left)).flatMap (fun right =>
        [overlapRequest left.issue right.issue, overlapRequest right.issue left.issue]) ++
      overlapRequests rest

theorem of_mem_overlapRequests {l : List DeliveryIssuePlanningSnapshot}
    (h : r ∈ overlapRequests l) : ∃ f ∈ l, ∃ g ∈ l, r = overlapRequest f.issue g.issue := by
  induction l with
  | nil => cases h
  | cons left rest ih =>
    rcases mem_append.mp h with h | h
    · obtain ⟨right, hr, hq⟩ := mem_flatMap.mp h
      have hr := mem_cons_of_mem left (mem_filter.mp hr).1
      rcases mem_cons.mp hq with rfl | hq
      · exact ⟨left, mem_cons_self, right, hr, rfl⟩
      · exact ⟨right, hr, left, mem_cons_self, mem_singleton.mp hq⟩
    · obtain ⟨f, hf, g, hg, hq⟩ := ih h
      exact ⟨f, mem_cons_of_mem _ hf, g, mem_cons_of_mem _ hg, hq⟩

def refuseMutationOverlap (facts : AcceptedFacts) : List RefusalRequest :=
  overlapRequests (sortedBy (fun fact => fact.issue.sortKey) facts.values)

end AgenticPkm.Builderops.Compiler
