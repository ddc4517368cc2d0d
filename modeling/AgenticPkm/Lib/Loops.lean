import AgenticPkm.Lib.Checks

/-!
# Loops over lists

Three loops that recur in planning code, each with the rules a proof about it needs:
passes that are repeated until one of them changes nothing, rounds that take what has
become ready out of what remains, and the cutting of a list into chunks.

A `while` loop is bounded by a number of rounds.  What each loop's specification says
holds as soon as the bound is large enough, and then the bound is not what ended it.
-/

namespace AgenticPkm

open List

/-! ### Passes until nothing changes -/

section Settle

variable {σ τ : Type}

/-- Run a pass until it reports no change, at most `bound` times. -/
def settle (pass : σ → σ × Bool) : ℕ → σ → σ
  | 0, s => s
  | bound + 1, s => if (pass s).2 then settle pass bound (pass s).1 else (pass s).1

/-- The same for a pass that may raise. -/
def settleM (pass : σ → Except String (σ × Bool)) : ℕ → σ → Except String σ
  | 0, s => .ok s
  | bound + 1, s => do
      let (s', changed) ← pass s
      if changed then settleM pass bound s' else pure s'

/-- A loop whose passes do not raise is the loop of what they return. -/
theorem settleM_eq_ok {pass : σ → Except String (σ × Bool)} {pass' : σ → σ × Bool}
    (h : ∀ s, pass s = .ok (pass' s)) (b : ℕ) (s : σ) :
    settleM pass b s = .ok (settle pass' b s) := by
  induction b generalizing s with
  | zero => rfl
  | succ b ih =>
    unfold settleM settle
    rw [h s, ok_bind]
    by_cases hchg : (pass' s).2
    · simp only [hchg, if_true]
      exact ih _
    · simp only [hchg]
      rfl

variable {pass : σ → σ × Bool} {s : σ}

theorem settle_invariant {P : σ → Prop} (h : ∀ s, P s → P (pass s).1) (b : ℕ) (hs : P s) :
    P (settle pass b s) := by
  induction b generalizing s with
  | zero => exact hs
  | succ b ih =>
    unfold settle
    by_cases hchg : (pass s).2
    · rw [if_pos hchg]
      exact ih (h s hs)
    · rw [if_neg hchg]
      exact h s hs

/-- Two loops whose passes go hand in hand go hand in hand. -/
theorem settle_lockstep {pass' : τ → τ × Bool} {R : σ → τ → Prop}
    (h : ∀ s t, R s t → R (pass s).1 (pass' t).1 ∧ (pass s).2 = (pass' t).2) (b : ℕ) {t : τ}
    (hst : R s t) : R (settle pass b s) (settle pass' b t) := by
  induction b generalizing s t with
  | zero => exact hst
  | succ b ih =>
    obtain ⟨hn, hchg⟩ := h s t hst
    unfold settle
    rw [← hchg]
    by_cases ha : (pass s).2
    · rw [if_pos ha, if_pos ha]
      exact ih hn
    · rw [if_neg ha, if_neg ha]
      exact hn

/-- **The last pass changed nothing**, once the bound exceeds a measure that every
change lowers. -/
theorem settle_stable (μ : σ → ℕ) (hl : ∀ s, (pass s).2 → μ (pass s).1 < μ s)
    (hsame : ∀ s, (pass s).2 = false → (pass s).1 = s) {b : ℕ} (hb : μ s < b) :
    (pass (settle pass b s)).2 = false := by
  induction b generalizing s with
  | zero => omega
  | succ b ih =>
    unfold settle
    by_cases hchg : (pass s).2
    · rw [if_pos hchg]
      have := hl s hchg
      exact ih (by omega)
    · rw [if_neg hchg]
      have hf : (pass s).2 = false := by simpa using hchg
      rw [hsame s hf]
      exact hf

end Settle

/-! ### Rounds of what is ready -/

section Rounds

variable {α κ : Type}

/-- Take what is ready out of what remains, round by round, until nothing is. -/
def rounds (ready : List κ → α → Bool) (key : α → κ) :
    ℕ → List κ → List α → List (List α) × List α
  | 0, _, remaining => ([], remaining)
  | bound + 1, completed, remaining =>
      let front := remaining.filter (ready completed)
      if front.isEmpty then ([], remaining)
      else
        let rest := rounds ready key bound (completed ++ front.map key)
          (remaining.filter fun a => !ready completed a)
        (front :: rest.1, rest.2)

variable {ready : List κ → α → Bool} {key : α → κ} {completed : List κ} {remaining : List α}

theorem rounds_of_none (b : ℕ) (h : remaining.filter (ready completed) = []) :
    rounds ready key (b + 1) completed remaining = ([], remaining) := by
  simp [rounds, h]

theorem rounds_of_some (b : ℕ) (h : remaining.filter (ready completed) ≠ []) :
    rounds ready key (b + 1) completed remaining =
      (remaining.filter (ready completed) ::
        (rounds ready key b (completed ++ (remaining.filter (ready completed)).map key)
          (remaining.filter fun a => !ready completed a)).1,
        (rounds ready key b (completed ++ (remaining.filter (ready completed)).map key)
          (remaining.filter fun a => !ready completed a)).2) := by
  have hne : (remaining.filter (ready completed)).isEmpty = false := by simpa using h
  simp [rounds, hne]

theorem rounds_perm (b : ℕ) (c : List κ) (remaining : List α) :
    ((rounds ready key b c remaining).1.flatten ++
      (rounds ready key b c remaining).2).Perm remaining := by
  induction b generalizing c remaining with
  | zero => simp [rounds]
  | succ b ih =>
    by_cases hf : remaining.filter (ready c) = []
    · simp [rounds_of_none b hf]
    · rw [rounds_of_some b hf, flatten_cons, append_assoc]
      refine ((ih _ _).append_left _).trans ?_
      exact filter_append_perm (ready c) remaining

/-- **Every element of a round is ready once the rounds before it are completed.** -/
theorem rounds_ready (bn : ℕ) {b af : List (List α)} {f : List α}
    (h : (rounds ready key bn completed remaining).1 = b ++ f :: af) :
    ∀ a ∈ f, ready (completed ++ b.flatten.map key) a := by
  induction bn generalizing completed remaining b with
  | zero => simp [rounds] at h
  | succ bn ih =>
    by_cases hf : remaining.filter (ready completed) = []
    · simp [rounds_of_none bn hf] at h
    · rw [rounds_of_some bn hf] at h
      cases b with
      | nil =>
        obtain ⟨rfl, -⟩ := List.cons.inj h
        intro a ha
        simpa using (mem_filter.mp ha).2
      | cons first b =>
        obtain ⟨rfl, hr⟩ := List.cons.inj h
        intro a ha
        have := ih hr a ha
        simpa using this

/-- **Nothing of what is left is ready**, once the bound reaches the number of elements. -/
theorem rounds_stuck {b : ℕ} (hb : remaining.length ≤ b) :
    ∀ a ∈ (rounds ready key b completed remaining).2,
      ready (completed ++ (rounds ready key b completed remaining).1.flatten.map key) a =
        false := by
  induction b generalizing completed remaining with
  | zero =>
    obtain rfl : remaining = [] := length_eq_zero_iff.mp (by omega)
    simp [rounds]
  | succ b ih =>
    by_cases hf : remaining.filter (ready completed) = []
    · rw [rounds_of_none b hf]
      intro a ha
      have hn := filter_eq_nil_iff.mp hf a ha
      simpa using hn
    · rw [rounds_of_some b hf]
      -- a round that is not empty leaves fewer elements
      have hp := filter_append_perm (ready completed) remaining
      have hl := hp.length_eq
      have hpos := length_pos_iff.mpr hf
      rw [length_append] at hl
      intro a ha
      have := ih (by omega) a ha
      simpa using this

theorem rounds_map {β : Type} {ready : List κ → β → Bool} {key : β → κ} (f : α → β) (bound : ℕ)
    (completed : List κ) (remaining : List α) :
    rounds ready key bound completed (remaining.map f) =
      ((rounds (fun c a => ready c (f a)) (fun a => key (f a)) bound completed remaining).1.map
        (List.map f),
      (rounds (fun c a => ready c (f a)) (fun a => key (f a)) bound completed remaining).2.map
        f) := by
  induction bound generalizing completed remaining with
  | zero => rfl
  | succ bound ih =>
    have hf : (remaining.map f).filter (ready completed) =
        (remaining.filter fun a => ready completed (f a)).map f := filter_map
    have hr : ((remaining.map f).filter fun b => !ready completed b) =
        (remaining.filter fun a => !ready completed (f a)).map f := filter_map
    by_cases hn : (remaining.filter fun a => ready completed (f a)) = []
    · rw [rounds_of_none bound (by rw [hf, hn]; rfl), rounds_of_none bound hn]
      rfl
    · rw [rounds_of_some bound (by rw [hf]; simpa using hn), rounds_of_some bound hn,
        hf, hr, map_map, ih]
      rfl

end Rounds

/-! ### Chunks -/

section Chunks

variable {α : Type}

/-- The elements of a list, `n` at a time. -/
def chunksOf (n : ℕ) : ℕ → List α → List (List α)
  | 0, _ => []
  | _ + 1, [] => []
  | bound + 1, a :: l => (a :: l).take n :: chunksOf n bound ((a :: l).drop n)

variable {bound n : ℕ} {l : List α}

theorem flatten_chunksOf (hn : 0 < n) (hb : l.length ≤ bound) :
    (chunksOf n bound l).flatten = l := by
  induction bound generalizing l with
  | zero =>
    obtain rfl : l = [] := length_eq_zero_iff.mp (by omega)
    rfl
  | succ bound ih =>
    cases l with
    | nil => rfl
    | cons a l =>
      have hs : ((a :: l).drop n).length ≤ bound := by
        rw [length_drop]
        omega
      rw [chunksOf, flatten_cons, ih hs, take_append_drop]

theorem mem_chunksOf (hn : 0 < n) {c : List α} (h : c ∈ chunksOf n bound l) :
    c ≠ [] ∧ c.length ≤ n := by
  induction bound generalizing l with
  | zero => simp [chunksOf] at h
  | succ bound ih =>
    cases l with
    | nil => simp [chunksOf] at h
    | cons a l =>
      rcases mem_cons.mp h with rfl | h
      · refine ⟨?_, length_take_le n _⟩
        simp
        omega
      · exact ih h

theorem chunksOf_map {β : Type} (f : α → β) (n b : ℕ) (l : List α) :
    chunksOf n b (l.map f) = (chunksOf n b l).map (List.map f) := by
  induction b generalizing l with
  | zero => rfl
  | succ b ih =>
    cases l with
    | nil => rfl
    | cons a l =>
      rw [map_cons, chunksOf, chunksOf, map_cons, ← map_cons, ← map_take, ← map_drop, ih]

end Chunks

end AgenticPkm
