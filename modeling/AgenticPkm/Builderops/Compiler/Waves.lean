import AgenticPkm.Builderops.Compiler.Refusals

/-!
# Dependency waves

`_build_dependency_waves` lays the eligible Issues out in waves: round by round it takes the Issues
whose unsatisfied dependencies are completed, orders them by priority, and cuts them into waves of
at most `max_parallel` Issues.  A dependency on an Issue that is not eligible holds nothing back
here; that is the business of the refusals.  When no remaining Issue is ready, the ones on a cycle
are reported.
-/

namespace AgenticPkm.Builderops.Compiler

open Relation List Bool

/-- High priority goes first. -/
def priorityOrder : Priority → ℕ
  | .high => 0
  | .medium => 1
  | .low => 2

def readyKey (item : ScopeKey × DeliveryIssuePlanningSnapshot) : ℕ ×ₗ String ×ₗ ℕ :=
  toLex (priorityOrder item.2.priority, toLex item.1)

/-- Nothing holds an Issue back: each dependency is satisfied, completed or not among
the facts. -/
def isReady (facts : AcceptedFacts) (completed : List ScopeKey)
    (item : ScopeKey × DeliveryIssuePlanningSnapshot) : Bool :=
  item.2.dependencies.all fun d => d.satisfied || completed.contains d.issue.scopeKey ||
    !facts.keys.contains d.issue.scopeKey

/-- The rounds of ready Issues, and the Issues left when none is ready. -/
def readyRounds (facts : AcceptedFacts) :
    List (List (ScopeKey × DeliveryIssuePlanningSnapshot)) ×
      List (ScopeKey × DeliveryIssuePlanningSnapshot) :=
  rounds (isReady facts) Prod.fst facts.items.length [] facts.items

def waveChunks (maxParallel : ℕ) (rs : List (List (ScopeKey × DeliveryIssuePlanningSnapshot))) :
    List (List (ScopeKey × DeliveryIssuePlanningSnapshot)) :=
  rs.flatMap fun ready => chunksOf maxParallel ready.length (sortedBy readyKey ready)

def waveIssues (chunk : List (ScopeKey × DeliveryIssuePlanningSnapshot)) : List IssueScope :=
  sortedBy IssueScope.sortKey (chunk.map fun item => item.2.issue)

/-- Waves are numbered as they are appended. -/
def numberWaves : ℕ → List (List (ScopeKey × DeliveryIssuePlanningSnapshot)) →
    List DependencyWave
  | _, [] => []
  | index, chunk :: chunks =>
      { waveIndex := index, issues := waveIssues chunk } :: numberWaves (index + 1) chunks

/-- `_build_dependency_waves`: the waves, and the keys on a cycle if Issues are left. -/
def buildDependencyWaves (facts : AcceptedFacts) (maxParallel : ℕ) :
    Except String (List DependencyWave × List ScopeKey) := do
  let layout := readyRounds facts
  let waves := numberWaves 0 (waveChunks maxParallel layout.1)
  checkAll DependencyWave.validate waves
  pure (waves, dependencyCycleKeys facts (layout.2.map Prod.fst))

/-! ### The rounds -/

section Rounds

variable {fc : AcceptedFacts}

theorem perm_readyRounds (f : AcceptedFacts) :
    ((readyRounds f).1.flatten ++ (readyRounds f).2).Perm f.items :=
  rounds_perm _ _ _

theorem mem_waitsFor {candidates : List ScopeKey} {k k' : ScopeKey} :
    k' ∈ waitsFor fc candidates k ↔ ∃ fact, (k, fact) ∈ fc.items ∧
      ∃ d ∈ fact.dependencies, d.satisfied = false ∧ d.issue.scopeKey = k' ∧ k' ∈ candidates := by
  unfold waitsFor
  cases hf : fc.get? k with
  | none =>
    have hn : ∀ fact, (k, fact) ∉ fc.items := by
      intro fact hm
      rw [Dict.mem_items, hf] at hm
      cases hm
    simp [hn]
  | some fact =>
    have hm : ∀ fact', (k, fact') ∈ fc.items ↔ fact' = fact := by
      intro fact'
      rw [Dict.mem_items, hf, Option.some.injEq, eq_comm]
    simp only [hm, exists_eq_left, mem_map, mem_filter, and_eq_true,
      not_eq_true', contains_iff_mem]
    constructor
    · rintro ⟨d, ⟨hd, hs, hcn⟩, rfl⟩
      exact ⟨d, hd, hs, rfl, hcn⟩
    · rintro ⟨d, hd, hs, rfl, hcn⟩
      exact ⟨d, ⟨hd, hs, hcn⟩, rfl⟩

theorem exists_waitsFor_of_not_ready {completed : List ScopeKey}
    {item : KeyedFact} (hi : item ∈ fc.items)
    (h : isReady fc completed item = false) : ∃ k ∈ waitsFor fc fc.keys item.1, k ∉ completed := by
  obtain ⟨d, hd, hw⟩ := all_eq_false.mp h
  simp only [not_eq_true, or_eq_false_iff, not_eq_false'] at hw
  obtain ⟨⟨hu, ho⟩, hf⟩ := hw
  have ho : d.issue.scopeKey ∉ completed := by
    rw [← contains_iff_mem, ho]
    exact false_ne_true
  have hf := contains_iff_mem.mp hf
  exact ⟨d.issue.scopeKey, mem_waitsFor.mpr ⟨item.2, hi, d, hd, hu, rfl, hf⟩, ho⟩

/-- **On an acyclic graph every Issue gets into a round.** -/
theorem readyRounds_stuck_eq_nil (hac : ∀ k, ¬ TransGen (fun a b => b ∈ waitsFor fc fc.keys a) k k)
    : (readyRounds fc).2 = [] := by
  by_contra hne
  have hpm := perm_readyRounds fc
  have hmem : ∀ item ∈ (readyRounds fc).2, item ∈ fc.items :=
    fun item hitem => hpm.mem_iff.mp (mem_append_right _ hitem)
  -- what is left waits for something that is left, so it holds a cycle
  have hws : ∀ k ∈ (readyRounds fc).2.map Prod.fst,
      ∃ k' ∈ (readyRounds fc).2.map Prod.fst, k' ∈ waitsFor fc fc.keys k := by
    intro k hk
    obtain ⟨item, hitem, rfl⟩ := mem_map.mp hk
    have hnt : isReady fc ([] ++ (readyRounds fc).1.flatten.map Prod.fst) item =
        false := rounds_stuck (le_refl fc.items.length) item hitem
    obtain ⟨k', hwt, hop⟩ := exists_waitsFor_of_not_ready (hmem item hitem) hnt
    obtain ⟨_, _, _, _, _, _, hfc⟩ := mem_waitsFor.mp hwt
    obtain ⟨item', hitem', rfl⟩ := mem_map.mp hfc
    refine ⟨item'.1, ?_, hwt⟩
    rcases mem_append.mp (hpm.mem_iff.mpr hitem') with hdn | hlf
    · rw [nil_append] at hop
      exact absurd (mem_map_of_mem hdn) hop
    · exact mem_map_of_mem hlf
  obtain ⟨k, -, hcy⟩ := exists_cycle_of_forall_succ (by simpa using hne) hws
  exact hac k (hcy.lift id fun a b h => h.2.2)

end Rounds

/-! ### Cutting into waves -/

section Cutting

variable {maxParallel : ℕ} {rs rs' : List (List KeyedFact)}

theorem waveChunks_append :
    waveChunks maxParallel (rs ++ rs') = waveChunks maxParallel rs ++ waveChunks maxParallel rs' :=
  flatMap_append

theorem perm_flatten_waveChunks (hp : 0 < maxParallel)
    (rs : List (List KeyedFact)) :
    (waveChunks maxParallel rs).flatten.Perm rs.flatten := by
  induction rs with
  | nil => exact List.Perm.refl _
  | cons ready _ ih =>
    have hs := perm_sortedBy readyKey ready
    have hh : (chunksOf maxParallel ready.length (sortedBy readyKey ready)).flatten =
        sortedBy readyKey ready := flatten_chunksOf hp (by rw [hs.length_eq])
    rw [waveChunks, flatMap_cons, flatten_append, flatten_cons, hh]
    exact hs.append ih

variable {ch : List KeyedFact}

theorem ne_nil_of_mem_waveChunks (hp : 0 < maxParallel)
    (h : ch ∈ waveChunks maxParallel rs) : ch ≠ [] := by
  obtain ⟨_, -, hch⟩ := mem_flatMap.mp h
  exact (mem_chunksOf hp hch).1

theorem length_le_of_mem_waveChunks (hp : 0 < maxParallel)
    (h : ch ∈ waveChunks maxParallel rs) : ch.length ≤ maxParallel := by
  obtain ⟨_, -, hch⟩ := mem_flatMap.mp h
  exact (mem_chunksOf hp hch).2

theorem perm_waveIssues (c : List KeyedFact) :
    (waveIssues c).Perm (c.map fun item => item.2.issue) :=
  perm_sortedBy _ _

end Cutting

/-! ### Numbering -/

section Numbering

variable {ind : ℕ} {chunks chunks' : List (List KeyedFact)}

theorem numberWaves_append :
    numberWaves ind (chunks ++ chunks') =
      numberWaves ind chunks ++ numberWaves (ind + chunks.length) chunks' := by
  induction chunks generalizing ind with
  | nil => rfl
  | cons chunk chunks ih =>
    have hn : ind + (chunk :: chunks).length = ind + 1 + chunks.length := by
      rw [length_cons]
      omega
    rw [cons_append, numberWaves, ih, numberWaves, cons_append, hn]

theorem length_numberWaves : (numberWaves ind chunks).length = chunks.length := by
  induction chunks generalizing ind with
  | nil => rfl
  | cons _ _ ih => rw [numberWaves, length_cons, length_cons, ih]

theorem map_waveIndex_numberWaves :
    (numberWaves ind chunks).map DependencyWave.waveIndex = List.range' ind chunks.length := by
  induction chunks generalizing ind with
  | nil => rfl
  | cons _ _ ih => rw [numberWaves, map_cons, ih, length_cons, range'_succ]

theorem mem_numberWaves {w : DependencyWave} (h : w ∈ numberWaves ind chunks) :
    ind ≤ w.waveIndex ∧ w.waveIndex < ind + chunks.length ∧
      ∃ chunk ∈ chunks, w.issues = waveIssues chunk := by
  induction chunks generalizing ind with
  | nil => cases h
  | cons chunk _ ih =>
    rw [length_cons]
    rcases mem_cons.mp h with rfl | h
    · exact ⟨le_refl _, by simp only; omega, chunk, mem_cons_self, rfl⟩
    · obtain ⟨_, _, chunk', hm, hi⟩ := ih h
      exact ⟨by omega, by omega, chunk', mem_cons_of_mem _ hm, hi⟩

theorem exists_mem_numberWaves (i : ℕ) {item : KeyedFact}
    (h : item ∈ chunks.flatten) : ∃ w ∈ numberWaves i chunks, item.2.issue ∈ w.issues := by
  induction chunks generalizing i with
  | nil => cases h
  | cons chunk _ ih =>
    rw [flatten_cons] at h
    rcases mem_append.mp h with h | h
    · refine ⟨_, mem_cons_self, ?_⟩
      exact (perm_waveIssues chunk).mem_iff.mpr (mem_map.mpr ⟨item, h, rfl⟩)
    · obtain ⟨w, hw, hi⟩ := ih (i + 1) h
      exact ⟨w, mem_cons_of_mem _ hw, hi⟩

theorem perm_flatMap_numberWaves :
    ((numberWaves ind chunks).flatMap DependencyWave.issues).Perm
      (chunks.flatten.map fun item => item.2.issue) := by
  induction chunks generalizing ind with
  | nil => exact List.Perm.refl _
  | cons chunk _ ih =>
    rw [numberWaves, flatMap_cons, flatten_cons, map_append]
    exact (perm_waveIssues chunk).append ih

end Numbering

/-! ### The waves -/

section Waves

variable {facts : AcceptedFacts} {maxParallel : ℕ}

def dependencyWaves (facts : AcceptedFacts) (maxParallel : ℕ) : List DependencyWave :=
  numberWaves 0 (waveChunks maxParallel (readyRounds facts).1)

def issuesOf (facts : AcceptedFacts) : List IssueScope :=
  facts.values.map DeliveryIssuePlanningSnapshot.issue

theorem Keyed.map_scopeKey_issuesOf (hk : Keyed facts) :
    (issuesOf facts).map IssueScope.scopeKey = facts.keys := by
  unfold issuesOf Dict.values Dict.keys
  rw [List.map_map, List.map_map]
  refine List.map_congr_left fun item hi => ?_
  exact hk item hi

theorem Keyed.distinctKeys_issuesOf (hk : Keyed facts) :
    DistinctKeys IssueScope.scopeKey (issuesOf facts) := by
  unfold DistinctKeys
  rw [hk.map_scopeKey_issuesOf]
  exact facts.nodup_keys

/-- **When no Issue is left, the waves hold every Issue.** -/
theorem perm_flatMap_dependencyWaves (hp : 0 < maxParallel) (hs : (readyRounds facts).2 = []) :
    ((dependencyWaves facts maxParallel).flatMap DependencyWave.issues).Perm (issuesOf facts) := by
  have hr := perm_readyRounds facts
  rw [hs, append_nil] at hr
  have hch := perm_flatten_waveChunks hp (readyRounds facts).1
  have hi : issuesOf facts = facts.items.map fun item => item.2.issue := by
    unfold issuesOf Dict.values
    rw [List.map_map]
    rfl
  rw [hi]
  exact perm_flatMap_numberWaves.trans ((hch.trans hr).map _)

theorem chunk_sublist (hpar : 0 < maxParallel) {c : List KeyedFact}
    (h : c ∈ waveChunks maxParallel (readyRounds facts).1) :
    (∀ item ∈ c, item ∈ facts.items) ∧ (c.map Prod.fst).Nodup := by
  have hs : c.Sublist (waveChunks maxParallel (readyRounds facts).1).flatten :=
    sublist_flatten_of_mem h
  have hp := perm_flatten_waveChunks hpar (readyRounds facts).1
  have hr := perm_readyRounds facts
  constructor
  · intro item hi
    exact hr.mem_iff.mp (mem_append_left _ (hp.mem_iff.mp (hs.subset hi)))
  · have ha : (((readyRounds facts).1.flatten ++ (readyRounds facts).2).map Prod.fst).Nodup :=
      (hr.map Prod.fst).nodup_iff.mpr facts.distinct
    rw [map_append] at ha
    have hf := (hp.map Prod.fst).nodup_iff.mpr ha.of_append_left
    exact List.Nodup.sublist (hs.map Prod.fst) hf

theorem validate_of_mem_dependencyWaves (hkey : Keyed facts)
    (hval : ∀ item ∈ facts.items, item.2.issue.validate = .ok ()) (hpar : 0 < maxParallel)
    {w : DependencyWave} (hw : w ∈ dependencyWaves facts maxParallel) : w.validate = .ok () := by
  obtain ⟨-, -, chunk, hch, hiss⟩ := mem_numberWaves hw
  obtain ⟨hmem, hnod⟩ := chunk_sublist hpar hch
  have hpm := perm_waveIssues chunk
  have hkeys : (chunk.map fun item => item.2.issue).map IssueScope.scopeKey =
      chunk.map Prod.fst := by
    rw [List.map_map]
    exact map_congr_left fun item hitem => hkey item (hmem item hitem)
  simp only [DependencyWave.validate, bind_unit_eq_ok_iff, checkAll_eq_ok_iff, raiseIf_eq_ok_iff,
    requireUnique_eq_ok_iff, requireSortedBy_eq_ok_iff, hiss]
  refine ⟨fun issue hissue => ?_, ?_, ?_, pairwise_sortedBy _ _⟩
  · obtain ⟨item, hitem, rfl⟩ := mem_map.mp (hpm.mem_iff.mp hissue)
    exact hval item (hmem item hitem)
  · have hne := ne_nil_of_mem_waveChunks hpar hch
    have hlen : 0 < (waveIssues chunk).length := by
      rw [hpm.length_eq, length_map]
      exact length_pos_iff.mpr hne
    simpa using length_pos_iff.mp hlen
  · rw [(hpm.map IssueScope.scopeKey).nodup_iff, hkeys]
    exact hnod

/-- **Building waves does not raise.** -/
theorem buildDependencyWaves_eq (hk : Keyed facts)
    (hv : ∀ item ∈ facts.items, item.2.issue.validate = .ok ()) (hp : 0 < maxParallel) :
    buildDependencyWaves facts maxParallel = .ok (dependencyWaves facts maxParallel,
      dependencyCycleKeys facts ((readyRounds facts).2.map Prod.fst)) := by
  have hck : checkAll DependencyWave.validate (dependencyWaves facts maxParallel) = .ok () :=
    checkAll_eq_ok_iff.mpr fun w hw => validate_of_mem_dependencyWaves hk hv hp hw
  unfold dependencyWaves at hck
  rw [buildDependencyWaves, hck, ok_bind]
  rfl

/-- **An unsatisfied dependency among the facts is in a strictly earlier wave.** -/
theorem exists_earlier_wave (hpar : 0 < maxParallel) (hst : (readyRounds facts).2 = [])
    {item : KeyedFact} (hitem : item ∈ facts.items)
    {d : DeliveryDependency} (hd : d ∈ item.2.dependencies) (huns : d.satisfied = false)
    {dp : DeliveryIssuePlanningSnapshot} (hdep : (d.issue.scopeKey, dp) ∈ facts.items) :
    ∃ earlier ∈ dependencyWaves facts maxParallel, ∃ later ∈ dependencyWaves facts maxParallel,
      dp.issue ∈ earlier.issues ∧ item.2.issue ∈ later.issues ∧
        earlier.waveIndex < later.waveIndex := by
  have hrnd := perm_readyRounds facts
  rw [hst, append_nil] at hrnd
  obtain ⟨front, hfr, hmem⟩ := mem_flatten.mp (hrnd.mem_iff.mpr hitem)
  obtain ⟨b, after, hspl⟩ := append_of_mem hfr
  -- the dependency was completed in a round before that of the Issue
  have hrd : isReady facts ([] ++ b.flatten.map Prod.fst) item := rounds_ready _ hspl item hmem
  have hdn : d.issue.scopeKey ∈ b.flatten.map Prod.fst := by
    have hone := all_eq_true.mp hrd d hd
    have hfc : facts.keys.contains d.issue.scopeKey :=
      contains_iff_mem.mpr (mem_map.mpr ⟨_, hdep, rfl⟩)
    rw [huns, hfc, Bool.false_or, Bool.not_true, Bool.or_false, nil_append] at hone
    exact contains_iff_mem.mp hone
  obtain ⟨item', hitem', hkey⟩ := mem_map.mp hdn
  have hsame : item' = (d.issue.scopeKey, dp) := by
    have hfc' : item' ∈ facts.items := by
      refine hrnd.mem_iff.mp ?_
      rw [hspl, flatten_append]
      exact mem_append_left _ hitem'
    exact inj_on_of_nodup_map facts.distinct hfc' hdep hkey
  have hbef : item' ∈ (waveChunks maxParallel b).flatten :=
    (perm_flatten_waveChunks hpar b).mem_iff.mpr hitem'
  have haft : item ∈ (waveChunks maxParallel (front :: after)).flatten := by
    refine (perm_flatten_waveChunks hpar (front :: after)).mem_iff.mpr ?_
    rw [flatten_cons]
    exact mem_append_left _ hmem
  obtain ⟨earlier, hel, hiss'⟩ := exists_mem_numberWaves 0 hbef
  obtain ⟨later, hlat, hiss⟩ := exists_mem_numberWaves (0 + (waveChunks maxParallel b).length) haft
  obtain ⟨-, _, -⟩ := mem_numberWaves hel
  obtain ⟨_, -, -⟩ := mem_numberWaves hlat
  have hwav : dependencyWaves facts maxParallel =
      numberWaves 0 (waveChunks maxParallel b) ++
        numberWaves (0 + (waveChunks maxParallel b).length)
          (waveChunks maxParallel (front :: after)) := by
    rw [dependencyWaves, hspl, waveChunks_append, numberWaves_append]
  rw [hsame] at hiss'
  refine ⟨earlier, ?_, later, ?_, hiss', hiss, by omega⟩
  · rw [hwav]
    exact mem_append_left _ hel
  · rw [hwav]
    exact mem_append_right _ hlat

end Waves

end AgenticPkm.Builderops.Compiler
