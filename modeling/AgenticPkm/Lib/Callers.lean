import AgenticPkm.Lib.Journal
import Mathlib.Tactic

/-!
# Callers of a shared store

Any number of callers share a store.  A caller is at some point of the call it makes and goes
on by one step at a time, each of which acts on the store at once; between two steps of one
caller others may take theirs.  Calls that have ended stay, with what they were asked for.

What holds at a point of a call is shown the way rely and guarantee do it: every step keeps
within a relation of the store before and after, and that relation keeps what is known at a point
of a call.
-/

namespace AgenticPkm.Callers

open List

variable {σ ρ κ ε : Type}

/-- The store, and the calls made so far: what each was asked for, and where it is. -/
structure System (σ ρ κ : Type) where
  store : σ
  callers : List (ρ × κ) := []

/-- A new call, or one step of a call; a step may be given an input, such as the time. -/
inductive Move (ρ ε : Type)
  | call (request : ρ)
  | step (index : ℕ) (input : ε)

variable (start : ρ → κ) (step : ε → σ → κ → σ × κ)

def next (s : System σ ρ κ) : Move ρ ε → System σ ρ κ
  | .call request => { s with callers := s.callers ++ [(request, start request)] }
  | .step index input =>
      match s.callers[index]? with
      | none => s
      | some (request, point) =>
          { store := (step input s.store point).1
            callers := s.callers.set index (request, (step input s.store point).2) }

/-- The system after some moves. -/
def after (s : System σ ρ κ) (moves : List (Move ρ ε)) : System σ ρ κ :=
  Journal.after (next start step) s moves

@[simp] theorem after_nil (s : System σ ρ κ) : after start step s ([] : List (Move ρ ε)) = s := rfl

@[simp] theorem after_concat (s : System σ ρ κ) (m : List (Move ρ ε)) (move : Move ρ ε) :
    after start step s (m ++ [move]) = next start step (after start step s m) move :=
  Journal.after_concat ..

theorem after_append (s : System σ ρ κ) (m more : List (Move ρ ε)) :
    after start step s (m ++ more) = after start step (after start step s m) more :=
  Journal.after_append ..

variable {start step} {s : System σ ρ κ} {request : ρ} {point : κ} {i ind : ℕ} {input : ε}

theorem next_step_of_eq_none (h : s.callers[ind]? = none) :
    next start step s (.step ind input) = s := by
  simp only [next, h]

theorem store_next_step (h : s.callers[ind]? = some (request, point)) :
    (next start step s (.step ind input)).store = (step input s.store point).1 := by
  simp only [next, h]

theorem store_next (s : System σ ρ κ) (move : Move ρ ε) :
    (next start step s move).store = s.store ∨ ∃ ind input request point,
      move = .step ind input ∧ s.callers[ind]? = some (request, point) := by
  cases move with
  | call request => exact .inl rfl
  | step ind input =>
    cases hi : s.callers[ind]? with
    | none => exact .inl (by rw [next_step_of_eq_none hi])
    | some caller => exact .inr ⟨ind, input, _, _, rfl, hi⟩

theorem getElem?_next_step (h : s.callers[ind]? = some (request, point)) (i : ℕ) :
    (next start step s (.step ind input)).callers[i]? =
      if ind = i then some (request, (step input s.store point).2) else s.callers[i]? := by
  have hlt : ind < s.callers.length := (List.getElem?_eq_some_iff.1 h).1
  simp only [next, h, getElem?_set]
  by_cases hi : ind = i
  · subst hi
    rw [if_pos rfl, if_pos hlt, if_pos rfl]
  · rw [if_neg hi, if_neg hi]

/-- **Where a caller was before a move**: where it is, nowhere, or at the point before its step. -/
theorem caller_before {move : Move ρ ε} {c : ρ × κ}
    (h : (next start step s move).callers[i]? = some c) :
    (s.callers[i]? = some c ∧ ∀ input, move ≠ .step i input) ∨
      (∃ request, move = .call request ∧ c = (request, start request)) ∨
      ∃ input request point, move = .step i input ∧ s.callers[i]? = some (request, point) ∧
        c = (request, (step input s.store point).2) := by
  cases move with
  | call request =>
    simp only [next] at h
    rcases Nat.lt_or_ge i s.callers.length with hlt | hge
    · rw [getElem?_append_left hlt] at h
      exact .inl ⟨h, nofun⟩
    · rw [getElem?_append_right hge, getElem?_singleton] at h
      split at h
      · exact .inr (.inl ⟨request, rfl, (Option.some.inj h).symm⟩)
      · cases h
  | step ind input =>
    cases hi : s.callers[ind]? with
    | none =>
      rw [next_step_of_eq_none hi] at h
      refine .inl ⟨h, fun input' heq => ?_⟩
      cases heq
      cases hi.symm.trans h
    | some c =>
      rw [getElem?_next_step hi] at h
      split at h
      · next heq =>
        subst heq
        exact .inr (.inr ⟨input, _, _, rfl, hi, (Option.some.inj h).symm⟩)
      · next hne =>
        refine .inl ⟨h, fun input' heq => ?_⟩
        cases heq
        exact hne rfl

theorem caller_next (h : s.callers[i]? = some (request, point)) (move : Move ρ ε) :
    (next start step s move).callers[i]? = some (request, point) ∨
      ∃ input, move = .step i input ∧ (next start step s move).callers[i]? =
        some (request, (step input s.store point).2) := by
  cases move with
  | call request' =>
    left
    simp only [next]
    rw [List.getElem?_append_left (List.getElem?_eq_some_iff.1 h).1, h]
  | step ind input =>
    by_cases hi : ind = i
    · subst hi
      exact .inr ⟨input, rfl, by rw [getElem?_next_step h, if_pos rfl]⟩
    · left
      cases hind : s.callers[ind]? with
      | none => rw [next_step_of_eq_none hind, h]
      | some caller => rw [getElem?_next_step hind, if_neg hi, h]

/-- **The rules of rely and guarantee.**  `inv` holds of the store at all times, `rely` relates
the store before a step to the one after it, and `holds s i request point` is known when the
call at place `i` is at `point`. -/
structure Discipline (start : ρ → κ) (step : ε → σ → κ → σ × κ) (inv : σ → Prop)
    (rely : σ → σ → Prop) (holds : σ → ℕ → ρ → κ → Prop) : Prop where
  refl : ∀ s, rely s s
  trans : ∀ {s t u}, rely s t → rely t u → rely s u
  starts : ∀ s i request, inv s → holds s i request (start request)
  keeps : ∀ input s i request point, inv s → holds s i request point →
    inv (step input s point).1
  guarantees : ∀ input s i request point, inv s → holds s i request point →
    rely s (step input s point).1
  advances : ∀ input s i request point, inv s → holds s i request point →
    holds (step input s point).1 i request (step input s point).2
  stable : ∀ {s t i request point}, rely s t → holds s i request point → holds t i request point

namespace Discipline

variable {inv : σ → Prop} {rely : σ → σ → Prop} {holds : σ → ℕ → ρ → κ → Prop}

/-- All is as the rules say. -/
def Kept (inv : σ → Prop) (holds : σ → ℕ → ρ → κ → Prop) (s : System σ ρ κ) : Prop :=
  inv s.store ∧ ∀ i request point, s.callers[i]? = some (request, point) →
    holds s.store i request point

variable {s : System σ ρ κ}

theorem kept_next (h : Discipline start step inv rely holds) (hs : Kept inv holds s)
    (move : Move ρ ε) :
    Kept inv holds (next start step s move) ∧ rely s.store (next start step s move).store := by
  have hst : inv (next start step s move).store ∧ rely s.store (next start step s move).store := by
    rcases store_next s move with hsame | ⟨ind, input, request, point, rfl, hind⟩
    · rw [hsame]
      exact ⟨hs.1, h.refl _⟩
    · have hh := hs.2 ind request point hind
      rw [store_next_step hind]
      exact ⟨h.keeps _ _ _ _ _ hs.1 hh, h.guarantees _ _ _ _ _ hs.1 hh⟩
  refine ⟨⟨hst.1, fun i request point hi => ?_⟩, hst.2⟩
  rcases caller_before hi with ⟨hi, -⟩ | ⟨_, rfl, heq⟩ | ⟨_, _, _, rfl, ho, heq⟩
  · exact h.stable hst.2 (hs.2 i request point hi)
  · cases heq
    exact h.starts _ _ _ hs.1
  · cases heq
    rw [store_next_step ho]
    exact h.advances _ _ _ _ _ hs.1 (hs.2 _ _ _ ho)

/-- **What is known at the points of all calls holds in every run**, and the store at its end is
related to the one at its start. -/
theorem kept_after (h : Discipline start step inv rely holds) (hs : Kept inv holds s)
    (m : List (Move ρ ε)) :
    Kept inv holds (after start step s m) ∧ rely s.store (after start step s m).store := by
  induction m using List.reverseRecOn with
  | nil => exact ⟨hs, h.refl _⟩
  | append_singleton m move ih =>
    rw [after_concat]
    have hn := h.kept_next ih.1 move
    exact ⟨hn.1, h.trans ih.2 hn.2⟩

/-- No two calls hold the same value. -/
def Apart {τ : Type} (issued : κ → Option τ) (s : System σ ρ κ) : Prop :=
  ∀ (i j : ℕ) (caller caller' : ρ × κ) (v : τ), i ≠ j → s.callers[i]? = some caller →
    s.callers[j]? = some caller' → issued caller.2 = some v → issued caller'.2 ≠ some v

section Apart

variable {τ : Type} {is : κ → Option τ} {k : σ → τ → Prop}

/-- Callers stay apart if the one that moves takes up nothing that another holds. -/
theorem Apart.next (hap : Apart is s) (hst : ∀ request, is (start request) = none)
    {move : Move ρ ε} (hmv : ∀ {i j : ℕ} {input request point caller v}, i ≠ j →
      move = .step i input → s.callers[i]? = some (request, point) → s.callers[j]? = some caller →
        is (step input s.store point).2 = some v → is caller.2 ≠ some v) :
    Apart is (next start step s move) := by
  intro i j caller caller' v hij hi hj hv hv'
  -- a new caller holds nothing
  rcases caller_before hi with ⟨hi, -⟩ | ⟨_, -, rfl⟩ | ⟨_, _, _, hmo, hold, rfl⟩
  · rcases caller_before hj with ⟨hj, -⟩ | ⟨_, -, rfl⟩ | ⟨_, _, _, hmo, hold, rfl⟩
    · exact hap i j caller caller' v hij hi hj hv hv'
    · cases (hst _).symm.trans hv'
    · exact hmv hij.symm hmo hold hi hv' hv
  · cases (hst _).symm.trans hv
  · rcases caller_before hj with ⟨hj, -⟩ | ⟨_, -, rfl⟩ | ⟨_, _, _, hmo', -⟩
    · exact hmv hij hmo hold hj hv hv'
    · cases (hst _).symm.trans hv'
    · cases hmo.symm.trans hmo'
      exact hij rfl

variable (hst : ∀ request, is (start request) = none)
  (hkn : ∀ s i request point v, holds s i request point → is point = some v → k s v)
  (hfr : ∀ {input s point v}, is (step input s point).2 = some v → is point = some v ∨ ¬k s v)
include hst hkn hfr

theorem apart_next (hs : Kept inv holds s) (hap : Apart is s) (move : Move ρ ε) :
    Apart is (next start step s move) := by
  -- what the caller that moves holds now, no other caller held before
  refine hap.next hst fun {i j _ _ _ caller v} hij _ hi hj hv hv' => ?_
  rcases hfr hv with hold | hnew
  · exact hap i j _ caller v hij hi hj hold hv'
  · exact hnew (hkn _ _ _ _ _ (hs.2 j caller.1 caller.2 hj) hv')

/-- **Values that the store does not know when they are issued are issued to one call each.** -/
theorem apart_after (h : Discipline start step inv rely holds) (hs : Kept inv holds s)
    (ha : Apart is s) (m : List (Move ρ ε)) : Apart is (after start step s m) := by
  induction m using List.reverseRecOn with
  | nil => exact ha
  | append_singleton m move ih =>
    rw [after_concat]
    exact apart_next hst hkn hfr (h.kept_after hs m).1 ih move

end Apart

/-- **Points that cannot be reached any more were reached before.**  `shut` is a property of the
store that lasts and under which no step arrives at one of the points. -/
theorem reached_before (h : Discipline start step inv rely holds) {shut : σ → Prop} (rc : κ → Prop)
    (hl : ∀ {s t}, rely s t → shut s → shut t) (hst : ∀ r, ¬rc (start r))
    (hsh : ∀ {input s i r point}, inv s → holds s i r point → shut s →
      rc (step input s point).2 → rc point) (hs : Kept inv holds s) (hsr : shut s.store)
    (m : List (Move ρ ε)) {i : ℕ} {r : ρ} {point : κ}
    (hi : (after start step s m).callers[i]? = some (r, point)) (hrch : rc point) :
    ∃ point', s.callers[i]? = some (r, point') ∧ rc point' := by
  induction m using List.reverseRecOn generalizing point with
  | nil => exact ⟨point, hi, hrch⟩
  | append_singleton m move ih =>
    obtain ⟨hk, hr⟩ := h.kept_after hs m
    rw [after_concat] at hi
    rcases caller_before hi with ⟨hi, -⟩ | ⟨_, -, heq⟩ | ⟨_, _, _, -, ho, heq⟩
    · exact ih hi hrch
    · cases heq
      exact absurd hrch (hst _)
    · cases heq
      exact ih ho (hsh hk.1 (hk.2 _ _ _ ho) (hl hr hsr) hrch)

end Discipline

/-- A call stays where it is as long as none of its steps takes it further. -/
theorem stays_after {m : List (Move ρ ε)} (h : s.callers[i]? = some (request, point))
    (hf : ∀ input, .step i input ∈ m → ∀ s, (step input s point).2 = point) :
    (after start step s m).callers[i]? = some (request, point) := by
  induction m using List.reverseRecOn with
  | nil => exact h
  | append_singleton m move ih =>
    rw [after_concat]
    have hs := ih fun input hin => hf input (mem_append_left _ hin)
    rcases caller_next hs move with hsame | ⟨input, rfl, hm⟩
    · exact hsame
    · rwa [hf input mem_concat_self] at hm

theorem request_next (s : System σ ρ κ) (move : Move ρ ε)
    (h : s.callers[i]? = some (request, point)) :
    ∃ point', (next start step s move).callers[i]? = some (request, point') := by
  rcases caller_next h move with hsame | ⟨input, -, hm⟩
  · exact ⟨point, hsame⟩
  · exact ⟨_, hm⟩

end AgenticPkm.Callers
