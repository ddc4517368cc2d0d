import Mathlib.Tactic

/-!
# Checked computations

Validation code is a sequence of guards, each raising a message when its
condition holds, followed by a value.  Here such code is an `Except String`
computation, and this file collects the few lemmas that turn "the computation
returned" into the list of guards that did not fire.
-/

namespace AgenticPkm

/-- The guard `if condition: raise msg`. -/
def raiseIf (condition : Bool) (msg : String) : Except String Unit :=
  if condition then .error msg else .ok ()

/-- The guard `if condition: raise error`, for errors of any type. -/
def raiseWhen {ε : Type} (condition : Bool) (error : ε) : Except ε Unit :=
  if condition then .error error else .ok ()

/-- An optional value that must be present, with errors of any type. -/
def orRaise {ε α : Type} (value : Option α) (error : ε) : Except ε α :=
  match value with
  | some a => .ok a
  | none => .error error

/-- The value of an optional field, or the error raised when it is absent. -/
def getOrRaise {α : Type} (value : Option α) (msg : String) : Except String α :=
  match value with
  | some a => .ok a
  | none => .error msg

@[simp] theorem raiseIf_false (msg : String) : raiseIf false msg = .ok () := rfl

@[simp] theorem raiseIf_true (msg : String) : raiseIf true msg = .error msg := rfl

variable {c : Bool} {msg : String} {u : Unit}

@[simp] theorem raiseIf_eq_ok_iff : raiseIf c msg = .ok u ↔ c = false := by
  cases c <;> simp

variable {α β ε : Type} {a : α} {l : List α} {e : ε} {o : Option α} {b : β}

@[simp] theorem raiseWhen_eq_ok_iff : raiseWhen c e = .ok u ↔ c = false := by
  cases c <;> simp [raiseWhen]

@[simp] theorem orRaise_eq_ok_iff : orRaise o e = .ok a ↔ o = some a := by
  cases o <;> simp [orRaise]

@[simp] theorem getOrRaise_some (a : α) (msg : String) : getOrRaise (some a) msg = .ok a := rfl

@[simp] theorem getOrRaise_eq_ok_iff : getOrRaise o msg = .ok a ↔ o = some a := by
  cases o <;> simp [getOrRaise]

@[simp] theorem ok_bind (a : α) (f : α → Except ε β) : (Except.ok a >>= f) = f a := rfl

@[simp] theorem error_bind (e : ε) (f : α → Except ε β) : (Except.error e >>= f) = .error e := rfl

/-- A sequence of two checked computations returns exactly when both do. -/
@[simp] theorem bind_eq_ok_iff {x : Except ε α} {f : α → Except ε β} :
    (x >>= f) = .ok b ↔ ∃ a, x = .ok a ∧ f a = .ok b := by
  cases x with
  | error e => simp
  | ok a => simp

/-- The same for a first part that only checks. -/
@[simp high] theorem bind_unit_eq_ok_iff {x : Except ε Unit} {f : Unit → Except ε β} :
    (x >>= f) = .ok b ↔ x = .ok () ∧ f () = .ok b := by
  cases x with
  | error e => simp
  | ok u => simp

@[simp] theorem exists_unit_iff {p : Unit → Prop} : (∃ u, p u) ↔ p () :=
  ⟨fun ⟨(), h⟩ => h, fun h => ⟨(), h⟩⟩

@[simp] theorem pure_eq_ok_iff {b : α} : (pure a : Except ε α) = .ok b ↔ a = b := by
  simp [pure, Except.pure]

/-- Whether a computation returns a value with a property can be found by running it. -/
instance decidableExistsOk {ε α : Type} (x : Except ε α) (P : α → Prop) [DecidablePred P] :
    Decidable (∃ a, x = .ok a ∧ P a) :=
  match x with
  | .error _ => .isFalse (by simp)
  | .ok a => decidable_of_iff (P a) (by simp)

/-- The same for a property of whatever a computation returns. -/
instance decidableForallOk {ε α : Type} (x : Except ε α) (P : α → Prop) [DecidablePred P] :
    Decidable (∀ a, x = .ok a → P a) :=
  match x with
  | .error _ => .isTrue (by simp)
  | .ok a => decidable_of_iff (P a) (by simp)

/-- Run a check over the elements of a list, stopping at the first error. -/
def checkAll {α : Type} (check : α → Except String Unit) : List α → Except String Unit
  | [] => .ok ()
  | a :: l => do
      check a
      checkAll check l

@[simp] theorem checkAll_eq_ok_iff {ch : α → Except String Unit} :
    checkAll ch l = .ok () ↔ ∀ a ∈ l, ch a = .ok () := by
  induction l with
  | nil => simp [checkAll]
  | cons a l ih => simp [checkAll, ih]

/-- The values a checked computation returns on the elements of a list. -/
def collectAll {α β : Type} (f : α → Except String β) : List α → Except String (List β)
  | [] => .ok []
  | a :: l => do
      let b ← f a
      let bs ← collectAll f l
      pure (b :: bs)

@[simp] theorem collectAll_eq_ok_iff {f : α → Except String β} {bs : List β} :
    collectAll f l = .ok bs ↔ List.Forall₂ (fun a b => f a = .ok b) l bs := by
  induction l generalizing bs with
  | nil =>
    rw [List.forall₂_nil_left_iff]
    simp [collectAll, eq_comm]
  | cons a l ih =>
    rw [List.forall₂_cons_left_iff]
    simp only [collectAll, bind_eq_ok_iff, ih, pure_eq_ok_iff]
    constructor
    · rintro ⟨b, hb, bs', hbs', rfl⟩
      exact ⟨b, bs', hb, hbs', rfl⟩
    · rintro ⟨b, bs', hb, hbs', rfl⟩
      exact ⟨b, hb, bs', hbs', rfl⟩

theorem exists_collectAll {f : α → Except String β} (h : ∀ a ∈ l, ∃ b, f a = .ok b) :
    ∃ bs, collectAll f l = .ok bs := by
  induction l with
  | nil => exact ⟨[], rfl⟩
  | cons a l ih =>
    obtain ⟨b, hb⟩ := h a List.mem_cons_self
    obtain ⟨bs, hbs⟩ := ih fun a ha => h a (List.mem_cons_of_mem _ ha)
    exact ⟨b :: bs, by rw [collectAll, hb, hbs]; rfl⟩

/-- **A loop whose steps do not raise is a plain fold.** -/
theorem foldlM_eq_ok {σ : Type} {step : σ → α → Except ε σ} {step' : σ → α → σ}
    (h : ∀ s, ∀ a ∈ l, step s a = .ok (step' s a)) (s : σ) :
    l.foldlM step s = .ok (l.foldl step' s) := by
  induction l generalizing s with
  | nil => rfl
  | cons a l ih =>
    rw [List.foldlM_cons, h s a List.mem_cons_self, ok_bind, List.foldl_cons]
    exact ih (fun s b hb => h s b (List.mem_cons_of_mem a hb)) _

/-- The check of a field that may be absent. -/
def checkOption {α : Type} (check : α → Except String Unit) : Option α → Except String Unit
  | none => .ok ()
  | some a => check a

@[simp] theorem checkOption_none (ch : α → Except String Unit) : checkOption ch none = .ok () := rfl

@[simp] theorem checkOption_some (ch : α → Except String Unit) (a : α) :
    checkOption ch (some a) = ch a := rfl

end AgenticPkm
