import AgenticPkm.Lib.Callers

/-!
# Callers that hold fences

A point of a call may lie inside a fence.  A step that would enter a fence waits while another
caller is inside it: it leaves the system as it is and can be tried again later.  So no two callers
are ever inside one fence, and what is known at a point inside a fence has to stand only what
the callers outside of it do.
-/

namespace AgenticPkm.Fences

open Callers (System Move)

variable {σ ρ κ ε φ : Type} [DecidableEq φ]

/-- Whether a caller other than the one at `index` is inside a fence. -/
def heldByOther (fence : κ → Option φ) (callers : List (ρ × κ)) (index : ℕ) (f : φ) : Bool :=
  (callers.eraseIdx index).any fun caller => fence caller.2 == some f

variable (start : ρ → κ) (step : ε → σ → κ → σ × κ) (fence : κ → Option φ)

/-- Whether a move is a step into a fence that another caller is inside of. -/
def waits (s : System σ ρ κ) : Move ρ ε → Bool
  | .call _ => false
  | .step index input =>
      match s.callers[index]? with
      | none => false
      | some (_, point) =>
          match fence (step input s.store point).2 with
          | none => false
          | some f => fence point != some f && heldByOther fence s.callers index f

def next (s : System σ ρ κ) (move : Move ρ ε) : System σ ρ κ :=
  if waits step fence s move then s else Callers.next start step s move

/-- The system after some moves. -/
def after (s : System σ ρ κ) (moves : List (Move ρ ε)) : System σ ρ κ :=
  Journal.after (next start step fence) s moves

theorem after_append (s : System σ ρ κ) (m more : List (Move ρ ε)) :
    after start step fence s (m ++ more) =
      after start step fence (after start step fence s m) more :=
  Journal.after_append ..

/-- Every step of a run is given an input that suits the store it finds. -/
def FairFrom (fair : ε → σ → Prop) : System σ ρ κ → List (Move ρ ε) → Prop
  | _, [] => True
  | s, .call request :: moves => FairFrom fair (next start step fence s (.call request)) moves
  | s, .step index input :: moves =>
      fair input s.store ∧ FairFrom fair (next start step fence s (.step index input)) moves

instance decidableFairFrom (fair : ε → σ → Prop) [∀ input s, Decidable (fair input s)] :
    (s : System σ ρ κ) → (moves : List (Move ρ ε)) →
      Decidable (FairFrom start step fence fair s moves)
  | _, [] => .isTrue trivial
  | s, .call request :: moves =>
      decidableFairFrom fair (next start step fence s (.call request)) moves
  | s, .step index input :: moves =>
      have := decidableFairFrom fair (next start step fence s (.step index input)) moves
      inferInstanceAs (Decidable (fair input s.store ∧ _))

variable {start step fence}

/-- What a move needs of its input. -/
def FairMove (fair : ε → σ → Prop) (s : σ) : Move ρ ε → Prop
  | .call _ => True
  | .step _ input => fair input s

variable {s : System σ ρ κ}

theorem fairFrom_cons {fair : ε → σ → Prop} {move : Move ρ ε} {moves : List (Move ρ ε)} :
    FairFrom start step fence fair s (move :: moves) ↔
      FairMove fair s.store move ∧
        FairFrom start step fence fair (next start step fence s move) moves := by
  cases move with
  | call request => exact (and_iff_right trivial).symm
  | step index input => exact Iff.rfl

theorem FairFrom.append {fair : ε → σ → Prop} {m more : List (Move ρ ε)}
    (h : FairFrom start step fence fair s (m ++ more)) :
    FairFrom start step fence fair s m ∧
      FairFrom start step fence fair (after start step fence s m) more := by
  induction m generalizing s with
  | nil => exact ⟨trivial, h⟩
  | cons move m ih =>
    rw [List.cons_append, fairFrom_cons] at h
    obtain ⟨hmov, hm⟩ := ih h.2
    exact ⟨fairFrom_cons.mpr ⟨h.1, hmov⟩, hm⟩

/-! ### Exclusion -/

/-- No two callers are inside one fence. -/
def Exclusive (fence : κ → Option φ) (callers : List (ρ × κ)) : Prop :=
  ∀ i j : ℕ, i ≠ j → ∀ caller caller' : ρ × κ, callers[i]? = some caller →
    callers[j]? = some caller' → ∀ f, fence caller.2 = some f → fence caller'.2 ≠ some f

variable {index : ℕ} {f : φ}

theorem heldByOther_of_getElem? {cs : List (ρ × κ)} {j : ℕ} (hne : j ≠ index) {cl : ρ × κ}
    (hj : cs[j]? = some cl) (hf : fence cl.2 = some f) : heldByOther fence cs index f := by
  have hm : cl ∈ cs.eraseIdx index := List.mem_eraseIdx_iff_getElem?.mpr ⟨j, hne, hj⟩
  exact List.any_eq_true.mpr ⟨cl, hm, by rw [hf, beq_self_eq_true]⟩

/-- A step that does not wait goes to a point whose fence no other caller is inside of, or stays
inside the fence it was in. -/
theorem fence_of_not_waits {ip : ε} {r : ρ} {p : κ} (hi : s.callers[index]? = some (r, p))
    (hw : waits step fence s (.step index ip) = false) (hf : fence (step ip s.store p).2 = some f) :
    fence p = some f ∨
      ∀ j : ℕ, j ≠ index → ∀ caller : ρ × κ, s.callers[j]? = some caller →
        fence caller.2 ≠ some f := by
  simp only [waits, hi, hf, Bool.and_eq_false_iff, bne_eq_false_iff_eq] at hw
  rcases hw with hsame | hfr
  · exact .inl hsame
  · refine .inr fun j hne caller hj hh => ?_
    rw [heldByOther_of_getElem? hne hj hh] at hfr
    cases hfr

/-- **No two callers are inside one fence**, after any move. -/
theorem exclusive_next (hs : ∀ request, fence (start request) = none)
    (h : Exclusive fence s.callers) (move : Move ρ ε) :
    Exclusive fence (next start step fence s move).callers := by
  unfold next
  split
  · exact h
  next hw =>
  rw [Bool.not_eq_true] at hw
  have hap : Callers.Discipline.Apart fence s := fun i j _ _ f hne hi hj => h i j hne _ _ hi hj f
  -- the caller that moved shares its fence with none of the others
  have hn : Callers.Discipline.Apart fence (Callers.next start step s move) := by
    refine hap.next hs fun {i j _ _ _ caller f} hne hm hi hj hf => ?_
    subst hm
    rcases fence_of_not_waits hi hw hf with hsame | hfr
    · exact h i j hne _ caller hi hj f hsame
    · exact hfr j hne.symm caller hj
  exact fun i j hne _ _ hi hj f => hn i j _ _ f hne hi hj

/-! ### Rely and guarantee -/

/-- **The rules of rely and guarantee, with fences.**  `inv` holds of the store at all times and
`rely` relates the store before a step to the one after it.  `guarded f` relates the two as well
when the caller that takes the step is outside of the fence `f`.  `holds s request point` is known
at `point` of a call; it may count on `guarded f` when the point is inside `f`. -/
structure Discipline (start : ρ → κ) (step : ε → σ → κ → σ × κ) (fence : κ → Option φ)
    (fair : ε → σ → Prop) (inv : σ → Prop) (rely : σ → σ → Prop) (guarded : φ → σ → σ → Prop)
    (holds : σ → ρ → κ → Prop) : Prop where
  refl : ∀ s, rely s s
  trans : ∀ {s t u}, rely s t → rely t u → rely s u
  outside : ∀ request, fence (start request) = none
  starts : ∀ s request, inv s → holds s request (start request)
  keeps : ∀ {input s request point}, fair input s → inv s → holds s request point →
    inv (step input s point).1
  guarantees : ∀ {input s request point}, fair input s → inv s → holds s request point →
    rely s (step input s point).1
  leaves : ∀ {input s request point}, fair input s → inv s → holds s request point →
    ∀ f, fence point ≠ some f → fence (step input s point).2 ≠ some f →
      guarded f s (step input s point).1
  advances : ∀ {input s request point}, fair input s → inv s → holds s request point →
    holds (step input s point).1 request (step input s point).2
  stable : ∀ {s t request point}, rely s t → (∀ f, fence point = some f → guarded f s t) →
    holds s request point → holds t request point

/-- All is as the rules say. -/
structure Kept (fence : κ → Option φ) (inv : σ → Prop) (holds : σ → ρ → κ → Prop)
    (s : System σ ρ κ) : Prop where
  inv : inv s.store
  holds : ∀ (i : ℕ) (request : ρ) (point : κ), s.callers[i]? = some (request, point) →
    holds s.store request point
  exclusive : Exclusive fence s.callers

namespace Discipline

variable {fair : ε → σ → Prop} {inv : σ → Prop} {rely : σ → σ → Prop} {guarded : φ → σ → σ → Prop}
  {holds : σ → ρ → κ → Prop} {s : System σ ρ κ} {m : List (Move ρ ε)}

section

variable (h : Discipline start step fence fair inv rely guarded holds)
include h

theorem kept_next
    (hs : Kept fence inv holds s) {move : Move ρ ε} (hfr : FairMove fair s.store move) :
    Kept fence inv holds (next start step fence s move) ∧
      rely s.store (next start step fence s move).store := by
  have hec : Exclusive fence (next start step fence s move).callers :=
    exclusive_next h.outside hs.exclusive move
  unfold next at hec ⊢
  split at hec
  · next hwt =>
    rw [if_pos hwt]
    exact ⟨hs, h.refl _⟩
  next hwt =>
  rw [if_neg hwt]
  rw [Bool.not_eq_true] at hwt
  have hst : inv (Callers.next start step s move).store ∧
      rely s.store (Callers.next start step s move).store := by
    rcases Callers.store_next s move with hsame | ⟨index, input, request, p, rfl, hind⟩
    · rw [hsame]
      exact ⟨hs.inv, h.refl _⟩
    · have hhd := hs.holds index request p hind
      rw [Callers.store_next_step hind]
      exact ⟨h.keeps hfr hs.inv hhd, h.guarantees hfr hs.inv hhd⟩
  refine ⟨⟨hst.1, fun i request p hi => ?_, hec⟩, hst.2⟩
  rcases Callers.caller_before hi with ⟨hbef, hoth⟩ | ⟨_, rfl, heq⟩ | ⟨_, _, _, rfl, hold, heq⟩
  · rcases Callers.store_next s move with hsame | ⟨index, input, _, p', rfl, hind⟩
    · rw [hsame]
      exact hs.holds i request p hbef
    · have hne : index ≠ i := fun heq => hoth input (by rw [heq])
      refine h.stable hst.2 (fun f hf => ?_) (hs.holds i request p hbef)
      -- a caller inside a fence: the one that moved was outside of it and still is
      rw [Callers.store_next_step hind]
      refine h.leaves hfr hs.inv (hs.holds _ _ _ hind) f (fun hmov => ?_) fun hmv => ?_
      · exact hs.exclusive index i hne _ _ hind hbef f hmov hf
      · rcases fence_of_not_waits hind hwt hmv with hmov | hfree
        · exact hs.exclusive index i hne _ _ hind hbef f hmov hf
        · exact hfree i hne.symm _ hbef hf
  · cases heq
    exact h.starts _ _ hs.inv
  · cases heq
    rw [Callers.store_next_step hold]
    exact h.advances hfr hs.inv (hs.holds _ _ _ hold)

/-- **What is known at the points of all calls holds in every run**, and the store at its end is
related to the one at its start. -/
theorem kept_after (hs : Kept fence inv holds s) (hf : FairFrom start step fence fair s m) :
    Kept fence inv holds (after start step fence s m) ∧
      rely s.store (after start step fence s m).store := by
  induction m generalizing s with
  | nil => exact ⟨hs, h.refl _⟩
  | cons move m ih =>
    have hm := fairFrom_cons.mp hf
    obtain ⟨hk, hr⟩ := h.kept_next hs hm.1
    obtain ⟨hk', hr'⟩ := ih hk hm.2
    exact ⟨hk', h.trans hr hr'⟩

variable {i : ℕ} {r : ρ}

/-- **What one caller knows and no other takes away, it knows later as well.** -/
theorem tracked (k : σ → κ → Prop)
    (hstep : ∀ {input s point}, k s point → k (step input s point).1 (step input s point).2)
    (hst : ∀ {s t point}, rely s t → k s point → k t point) (hs : Kept fence inv holds s)
    {point : κ} (hi : s.callers[i]? = some (r, point)) (hk : k s.store point)
    (hf : FairFrom start step fence fair s m) :
    ∃ point', (after start step fence s m).callers[i]? = some (r, point') ∧
      k (after start step fence s m).store point' := by
  induction m generalizing s point with
  | nil => exact ⟨point, hi, hk⟩
  | cons move m ih =>
    have hm := fairFrom_cons.mp hf
    obtain ⟨hkp, hr⟩ := h.kept_next hs hm.1
    obtain ⟨point', hi', hk'⟩ : ∃ point', (next start step fence s move).callers[i]? =
        some (r, point') ∧ k (next start step fence s move).store point' := by
      by_cases hw : waits step fence s move
      · rw [next, if_pos hw]
        exact ⟨point, hi, hk⟩
      · rw [next, if_neg hw] at hr ⊢
        rcases Callers.caller_next hi move with hsame | ⟨input, rfl, hmov⟩
        · exact ⟨point, hsame, hst hr hk⟩
        · refine ⟨_, hmov, ?_⟩
          rw [Callers.store_next_step hi]
          exact hstep hk
    exact ih hkp hi' hk' hm.2

/-- **A caller at a point that no step leads to any more** was there all the time. -/
theorem stayed {goal : κ} (hst : ∀ r, start r ≠ goal) (hs : Kept fence inv holds s)
    (hstep : ∀ {input t r point}, rely s.store t → holds t r point →
      (step input t point).2 = goal → point = goal) (hfr : FairFrom start step fence fair s m)
    (hi : (after start step fence s m).callers[i]? = some (r, goal)) :
    s.callers[i]? = some (r, goal) := by
  induction m generalizing s with
  | nil => exact hi
  | cons move m ih =>
    have hmv := fairFrom_cons.mp hfr
    obtain ⟨hkp, hrl⟩ := h.kept_next hs hmv.1
    have hnx := ih hkp (fun hrl' => hstep (h.trans hrl hrl')) hmv.2 hi
    by_cases hwt : waits step fence s move
    · rwa [next, if_pos hwt] at hnx
    rw [next, if_neg hwt] at hnx
    rcases Callers.caller_before hnx with ⟨hsame, -⟩ | ⟨_, -, heq⟩ | ⟨_, _, _, -, hold, heq⟩
    · exact hsame
    · exact absurd (Prod.mk.inj heq).2.symm (hst _)
    · obtain ⟨rfl, hgl⟩ := Prod.mk.inj heq
      rw [hold, hstep (h.refl _) (hs.holds _ _ _ hold) hgl.symm]

end

end Discipline

end AgenticPkm.Fences
