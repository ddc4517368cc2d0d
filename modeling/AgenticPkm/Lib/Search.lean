import Mathlib.Tactic
import Mathlib.Data.Fintype.Card
import Mathlib.Logic.Relation

/-!
# Depth-first search for a way back

A graph is given by the successors of each node.  The search below keeps a stack of
nodes that are still to be visited and a list of those that have been, and asks one
question: does a walk from the start lead back to it?  It stops at the first edge into
the start.

The number of visits is bounded by a fuel argument.  Every node pushed on the stack is
an edge out of a node visited once, so the number of edges is fuel enough.
-/

namespace AgenticPkm

open Relation List

section Search

variable {κ : Type} [DecidableEq κ]

/-- Push nodes on the stack one by one; `none` when the start is met. -/
def scan (start : κ) : List κ → List κ → Option (List κ)
  | [], pending => some pending
  | k :: ks, pending => if k = start then none else scan start ks (k :: pending)

/-- The search from a stack, whose top is its head. -/
def comesBack (next : κ → List κ) (start : κ) : ℕ → List κ → List κ → Option Bool
  | 0, _, _ => none
  | _ + 1, [], _ => some false
  | fuel + 1, current :: pending, visited =>
      if current ∈ visited then comesBack next start fuel pending visited
      else
        match scan start (next current) pending with
        | none => some true
        | some pending => comesBack next start fuel pending (current :: visited)

variable {nodes pending visited : List κ} {ks : List κ} {current : κ}

theorem scan_eq_none_iff {s : κ} : scan s ks pending = none ↔ s ∈ ks := by
  induction ks generalizing pending with
  | nil => simp [scan]
  | cons k ks ih =>
    unfold scan
    by_cases hk : k = s
    · simp [hk]
    · rw [if_neg hk, ih, mem_cons]
      simp [Ne.symm hk]

theorem scan_eq_some {s : κ} {pending' : List κ} (h : scan s ks pending = some pending') :
    pending' = ks.reverse ++ pending := by
  induction ks generalizing pending with
  | nil => simpa [scan] using h.symm
  | cons k ks ih =>
    unfold scan at h
    by_cases hk : k = s
    · simp [hk] at h
    · rw [if_neg hk] at h
      rw [ih h]
      simp

/-- The number of edges out of the nodes of a list. -/
def edgeCount (next : κ → List κ) (nodes : List κ) : ℕ := (nodes.map fun k => (next k).length).sum

/-- The edges out of the nodes that are not visited yet. -/
def unseen (next : κ → List κ) (nodes visited : List κ) : ℕ :=
  edgeCount next (nodes.filter fun k => k ∉ visited)

theorem unseen_cons {next : κ → List κ} {k : κ} (hnod : nodes.Nodup) (hm : k ∈ nodes)
    (hnew : k ∉ visited) :
    unseen next nodes (k :: visited) + (next k).length = unseen next nodes visited := by
  induction nodes with
  | nil => simp at hm
  | cons n nodes ih =>
    obtain ⟨hn, hnd⟩ := nodup_cons.mp hnod
    unfold unseen edgeCount at ih ⊢
    by_cases hkn : n = k
    · -- the node itself: it is counted before and no longer after
      subst hkn
      have hr : (nodes.filter fun k => k ∉ n :: visited) = nodes.filter fun k => k ∉ visited := by
        refine filter_congr fun x hx => ?_
        have hne : x ≠ n := fun h => hn (h ▸ hx)
        simp [hne]
      rw [filter_cons_of_neg (by simp), filter_cons_of_pos (by simpa using hnew), hr,
        map_cons, sum_cons]
      omega
    · have hm' : k ∈ nodes := by
        rcases mem_cons.mp hm with h | h
        · exact absurd h.symm hkn
        · exact h
      have hr := ih hnd hm'
      by_cases hs : n ∈ visited
      · rw [filter_cons_of_neg (by simp [hs]), filter_cons_of_neg (by simp [hs])]
        exact hr
      · rw [filter_cons_of_pos (by simp [hkn, hs]),
          filter_cons_of_pos (by simp [hs]), map_cons, sum_cons, map_cons,
          sum_cons]
        omega

/-! ### What the search finds -/

variable {next : κ → List κ} {start : κ}

/-- The search's own bookkeeping: whatever it has seen is reached from the start, and
the successors of what it has visited are on the stack or visited, none of them the
start. -/
structure Searching (next : κ → List κ) (start : κ) (pending visited : List κ) :
    Prop where
  reached : ∀ k ∈ pending ++ visited, ReflTransGen (fun a b => b ∈ next a) start k
  covered : ∀ k ∈ visited, ∀ k' ∈ next k, k' ≠ start ∧ k' ∈ pending ++ visited
  started : start ∈ pending ++ visited

omit [DecidableEq κ] in
theorem Searching.skip (h : Searching next start (current :: pending) visited)
    (hs : current ∈ visited) : Searching next start pending visited := by
  have hkp : ∀ k ∈ current :: pending ++ visited, k ∈ pending ++ visited := by
    intro k hk
    rcases mem_cons.mp hk with rfl | hk
    · exact mem_append_right _ hs
    · exact hk
  refine ⟨fun k hk => h.reached k (mem_cons_of_mem _ hk), fun k hk k' hk' => ?_,
    hkp start h.started⟩
  obtain ⟨hne, hm⟩ := h.covered k hk k' hk'
  exact ⟨hne, hkp k' hm⟩

omit [DecidableEq κ] in
theorem Searching.visit (h : Searching next start (current :: pending) visited)
    (hend : start ∉ next current) :
    Searching next start ((next current).reverse ++ pending) (current :: visited) := by
  have hcur := h.reached current mem_cons_self
  have hkp : ∀ k ∈ current :: pending ++ visited,
      k ∈ (next current).reverse ++ pending ++ current :: visited := by
    intro k hk
    simp only [cons_append, mem_cons, mem_append] at hk ⊢
    tauto
  refine ⟨fun k hk => ?_, fun k hk k' hk' => ?_, hkp start h.started⟩
  · simp only [mem_append, mem_reverse, mem_cons] at hk
    rcases hk with (hk | hk) | rfl | hk
    · exact hcur.tail hk
    · exact h.reached k (by simp [hk])
    · exact hcur
    · exact h.reached k (by simp [hk])
  · rcases mem_cons.mp hk with rfl | hk
    · exact ⟨fun heq => hend (heq ▸ hk'), by simp [hk']⟩
    · obtain ⟨hne, hm⟩ := h.covered k hk k' hk'
      exact ⟨hne, hkp k' hm⟩

omit [DecidableEq κ] in
/-- When the stack is empty, the visited nodes are closed under successors and no
edge leads into the start. -/
theorem Searching.not_transGen (h : Searching next start [] visited) :
    ¬ TransGen (fun a b => b ∈ next a) start start := by
  intro hp
  have hi : ∀ k, ReflTransGen (fun a b => b ∈ next a) start k → k ∈ visited := by
    intro k hk
    induction hk with
    | refl => exact h.started
    | tail _ hstep ih => exact (h.covered _ ih _ hstep).2
  obtain ⟨k, hk, hstep⟩ := TransGen.tail'_iff.mp hp
  exact (h.covered k (hi k hk) start hstep).1 rfl

theorem comesBack_spec (hnod : nodes.Nodup) (hnx : ∀ k ∈ nodes, ∀ k' ∈ next k, k' ∈ nodes) :
    ∀ (fuel : ℕ) (pending visited : List κ), (∀ k ∈ pending, k ∈ nodes) →
      Searching next start pending visited →
      pending.length + unseen next nodes visited < fuel →
      ∃ b, comesBack next start fuel pending visited = some b ∧
        (b = true ↔ TransGen (fun a b => b ∈ next a) start start) := by
  intro fuel
  induction fuel with
  | zero => intro pending visited _ _ hfl; omega
  | succ fuel ih =>
    intro pending visited hpn h hfl
    cases pending with
    | nil => exact ⟨false, rfl, by simpa using h.not_transGen⟩
    | cons current pending =>
      have hcur : current ∈ nodes := hpn current mem_cons_self
      have hrs : ∀ k ∈ pending, k ∈ nodes := fun k hk => hpn k (mem_cons_of_mem _ hk)
      rw [length_cons] at hfl
      unfold comesBack
      by_cases hsn : current ∈ visited
      · rw [if_pos hsn]
        exact ih pending visited hrs (h.skip hsn) (by omega)
      · rw [if_neg hsn]
        cases hsc : scan start (next current) pending with
        | none =>
          have hed := scan_eq_none_iff.mp hsc
          have hrch := h.reached current mem_cons_self
          exact ⟨true, rfl, by simpa using TransGen.tail' hrch hed⟩
        | some pending' =>
          have hend : start ∉ next current := by
            intro hmem
            rw [scan_eq_none_iff.mpr hmem] at hsc
            cases hsc
          obtain rfl := scan_eq_some hsc
          refine ih _ _ ?_ (h.visit hend) ?_
          · intro k hk
            rcases mem_append.mp hk with hk | hk
            · exact hnx current hcur k (mem_reverse.mp hk)
            · exact hrs k hk
          · have hct : unseen next nodes (current :: visited) + (next current).length =
                unseen next nodes visited := unseen_cons hnod hcur hsn
            rw [length_append, length_reverse]
            omega

/-- **The search finds a way back exactly when there is one.** -/
theorem comesBack_eq_true_iff (hnod : nodes.Nodup) (hs : start ∈ nodes)
    (hn : ∀ k ∈ nodes, ∀ k' ∈ next k, k' ∈ nodes) {fuel : ℕ}
    (hf : edgeCount next nodes + 1 < fuel) :
    comesBack next start fuel [start] [] = some true ↔
      TransGen (fun a b => b ∈ next a) start start := by
  have hi : Searching next start [start] [] := by
    refine ⟨fun k hk => ?_, by simp, by simp⟩
    obtain rfl : k = start := by simpa using hk
    exact ReflTransGen.refl
  have hct : unseen next nodes [] = edgeCount next nodes := by
    simp [unseen]
  obtain ⟨b, hb, hiff⟩ := comesBack_spec hnod hn fuel [start] [] (by simpa using hs)
    hi (by rw [hct]; simpa [Nat.add_comm] using hf)
  rw [hb, ← hiff]
  simp

end Search

/-! ### Cycles -/

/-- **Where every node has a successor, some node lies on a cycle.** -/
theorem exists_cycle_of_forall_succ {κ : Type} {r : κ → κ → Prop} {n : List κ} (hne : n ≠ [])
    (h : ∀ k ∈ n, ∃ k' ∈ n, r k k') : ∃ k ∈ n, TransGen (fun a b => a ∈ n ∧ b ∈ n ∧ r a b) k k := by
  by_contra hn
  push Not at hn
  -- without a cycle "is reached from" is a strict order on a finite set, so it has a
  -- node that reaches nothing
  let within (a b : {k // k ∈ n}) : Prop := TransGen (fun a b => a ∈ n ∧ b ∈ n ∧ r a b) b.1 a.1
  have hfin : Finite {k // k ∈ n} := finite_toSet n
  have ht : IsTrans _ within := ⟨fun a b c hab hbc => hbc.trans hab⟩
  have hirr : Std.Irrefl within := ⟨fun a ha => hn a.1 a.2 ha⟩
  have hwf : WellFounded within := Finite.wellFounded_of_trans_of_irrefl within
  obtain ⟨k₀, hk₀⟩ := exists_mem_of_ne_nil n hne
  obtain ⟨m, -, hmin⟩ := hwf.has_min Set.univ ⟨⟨k₀, hk₀⟩, trivial⟩
  obtain ⟨k, hk, hstep⟩ := h m.1 m.2
  exact hmin ⟨k, hk⟩ trivial (TransGen.single ⟨m.2, hk, hstep⟩)

end AgenticPkm
