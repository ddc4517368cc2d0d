import Mathlib.Tactic

/-!
# Guarded runs and their histories

A reactive program is a state, a step function that answers an input with a
result, and the state the result carries.  A *run* feeds it inputs one after the
other; which inputs may come next is a guard, and the guard may look at
everything that happened so far.  The history of a run is the list of its steps,
oldest first, each with the state it started from.

The step function may fail, and a run is only extended by steps that return.
-/

namespace AgenticPkm

open List

/-- A step function over states, inputs and results. -/
structure Machine (σ ι ρ : Type) where
  /-- Answer one input, or fail. -/
  step : σ → ι → Except String ρ
  /-- The state a result leaves behind. -/
  next : ρ → σ

namespace Machine

variable {σ ι ρ : Type}

/-- One recorded step: the state before it, the input and the result. -/
structure Step (σ ι ρ : Type) where
  before : σ
  input : ι
  result : ρ

variable (M : Machine σ ι ρ) (guard : List (Step σ ι ρ) → σ → ι → Prop)

/-- `Run M guard s₀ h s`: the history `h` leads from `s₀` to `s`, every input
having passed the guard on the history and the state before it. -/
inductive Run (s₀ : σ) : List (Step σ ι ρ) → σ → Prop
  | start : Run s₀ [] s₀
  | step {h : List (Step σ ι ρ)} {s : σ} {i : ι} {r : ρ} (hrun : Run s₀ h s)
      (hguard : guard h s i) (hstep : M.step s i = .ok r) :
      Run s₀ (h ++ [⟨s, i, r⟩]) (M.next r)

variable {M guard} {s s₀ : σ} {h : List (Step σ ι ρ)}

/-- **The induction rule of runs.** -/
theorem Run.invariant (Inv : List (Step σ ι ρ) → σ → Prop) (hs : Inv [] s₀)
    (hp : ∀ h s i r, Run M guard s₀ h s → Inv h s → guard h s i → M.step s i = .ok r →
      Inv (h ++ [⟨s, i, r⟩]) (M.next r)) (hr : Run M guard s₀ h s) : Inv h s := by
  induction hr with
  | start => exact hs
  | step hr hg hstep ih => exact hp _ _ _ _ hr ih hg hstep

theorem Run.mono {g' : List (Step σ ι ρ) → σ → ι → Prop} (hle : ∀ h s i, g h s i → g' h s i)
    (hr : Run M g s₀ h s) : Run M g' s₀ h s := by
  induction hr with
  | start => exact .start
  | step hr hg hstep ih => exact .step ih (hle _ _ _ hg) hstep

/-- A run whose recorded steps all meet a condition is a run under that condition. -/
theorem Run.and_of_forall {Q : σ → ι → Prop} (hr : Run M guard s₀ h s)
    (hQ : ∀ st ∈ h, Q st.before st.input) : Run M (fun h s i => guard h s i ∧ Q s i) s₀ h s := by
  induction hr with
  | start => exact .start
  | step hr hg hstep ih =>
    have hl := hQ _ (mem_append_right _ mem_cons_self)
    exact .step (ih fun st hst => hQ st (mem_append_left _ hst)) ⟨hg, hl⟩ hstep

variable {post : List (Step σ ι ρ)} {s' : σ}

/-- The run that ends just before a recorded step of a history. -/
theorem Run.of_append {pre : List (Step σ ι ρ)} {st : Step σ ι ρ}
    (hr : Run M guard s₀ (pre ++ st :: post) s) :
    Run M guard s₀ pre st.before ∧ guard pre st.before st.input ∧
      M.step st.before st.input = .ok st.result := by
  generalize hh : pre ++ st :: post = h at hr
  induction hr generalizing post with
  | start => simp at hh
  | @step h s i r hr hg hstep ih =>
    -- the recorded step is either the last one or a step of the shorter history
    rcases eq_nil_or_concat post with rfl | ⟨post', last, rfl⟩
    · obtain ⟨rfl, rfl⟩ : pre = h ∧ st = ⟨s, i, r⟩ := by
        simpa using append_inj' hh rfl
      exact ⟨hr, hg, hstep⟩
    · have hh' : (pre ++ st :: post') ++ [last] = h ++ [⟨s, i, r⟩] := by
        simpa using hh
      exact ih (append_inj' hh' rfl).1

theorem Run.state_unique (hr : Run M guard s₀ h s) (hr' : Run M guard s₀ h s') : s = s' := by
  have hl : ∀ {s : σ}, Run M guard s₀ h s →
      s = (h.getLast?.map fun st => M.next st.result).getD s₀ := by
    intro s hs
    cases hs with
    | start => rfl
    | step => simp
  rw [hl hr, hl hr']

/-- **The induction rule of continued runs**: what holds at some point of a run and
survives one guarded step holds from then on. -/
theorem Run.continues (P : List (Step σ ι ρ) → σ → Prop) (hr : Run M guard s₀ h s) (hs : P [] s)
    (hp : ∀ post s i r, Run M guard s₀ (h ++ post) s → P post s → guard (h ++ post) s i →
      M.step s i = .ok r → P (post ++ [⟨s, i, r⟩]) (M.next r)) (hr' : Run M guard s₀ (h ++ post) s')
    : P post s' := by
  induction post using List.reverseRecOn generalizing s' with
  | nil =>
    rw [append_nil] at hr'
    rw [hr'.state_unique hr]
    exact hs
  | append_singleton post st ih =>
    obtain ⟨hb, hg, hstep⟩ : Run M guard s₀ (h ++ post) st.before ∧
        guard (h ++ post) st.before st.input ∧ M.step st.before st.input = .ok st.result := by
      have hspl : h ++ (post ++ [st]) = (h ++ post) ++ st :: [] := by simp
      rw [hspl] at hr'
      exact hr'.of_append
    have ha : Run M guard s₀ (h ++ (post ++ [st])) (M.next st.result) := by
      rw [← append_assoc]
      exact .step hb hg hstep
    rw [hr'.state_unique ha]
    exact hp post st.before st.input st.result hb (ih hb) hg hstep

end Machine

/-! ### Events in order -/

section Order

variable {α : Type}

/-- `InOrder Ps log`: the log holds entries of the given kinds, in the given order. -/
def InOrder (Ps : List (α → Prop)) (log : List α) : Prop :=
  ∃ entries, entries.Sublist log ∧ List.Forall₂ (fun P x => P x) Ps entries

theorem inOrder_nil (log : List α) : InOrder [] log := ⟨[], nil_sublist log, .nil⟩

variable {Ps : List (α → Prop)} {log : List α}

theorem InOrder.append (h : InOrder Ps log) (more : List α) : InOrder Ps (log ++ more) := by
  obtain ⟨e, hs, ha⟩ := h
  exact ⟨e, hs.trans (sublist_append_left log more), ha⟩

theorem InOrder.snoc (h : InOrder Ps log) {P : α → Prop} {x : α} (hx : P x) :
    InOrder (Ps ++ [P]) (log ++ [x]) := by
  obtain ⟨e, hs, ha⟩ := h
  exact ⟨e ++ [x], hs.append (List.Sublist.refl [x]), rel_append ha (.cons hx .nil)⟩

theorem InOrder.mono {Qs : List (α → Prop)} (h : InOrder Ps log)
    (hi : List.Forall₂ (fun P Q => ∀ x, P x → Q x) Ps Qs) : InOrder Qs log := by
  obtain ⟨e, hs, ha⟩ := h
  refine ⟨e, hs, ?_⟩
  clear hs
  induction hi generalizing e with
  | nil =>
    cases ha
    exact .nil
  | cons hPQ _ ih =>
    cases ha with
    | cons hx hr => exact .cons (hPQ _ hx) (ih _ hr)

end Order

end AgenticPkm
