import AgenticPkm.Heimdal.ObservationLog
import AgenticPkm.Lib.Loops

/-!
# The prefix of a batch that is acknowledged

A batch of observations is materialised in units, each of one row or of a folded chain.  The
cursor may pass the rows below a boundary if every unit with a row below it is durable and lies
below it as a whole.  The boundary starts at the first row of a blocked unit, and units that
straddle it lower it until none does.

* `durablePrefix_exact` — **that is the greatest safe boundary**.
-/

namespace AgenticPkm.Heimdal.CandidateProjection

open List ObservationLog

variable {ε : Type}

/-- `_PlannedWrite`, with the rows it acknowledges. -/
structure PlannedWrite (ε : Type) where
  rows : List (ObservationRow ε)
  nonempty : rows.map Prod.fst ≠ []
  deriving DecidableEq

namespace PlannedWrite

def min (unit : PlannedWrite ε) : ℕ := (unit.rows.map Prod.fst).min unit.nonempty

def max (unit : PlannedWrite ε) : ℕ := (unit.rows.map Prod.fst).max unit.nonempty

def isDurable (durable : Dict ℕ Bool) (unit : PlannedWrite ε) : Bool :=
  unit.rows.all fun row => (durable.get? row.1).getD false

end PlannedWrite

section Model

variable (planned : List (PlannedWrite ε)) (durable : Dict ℕ Bool)

/-- `unit_of`: the last unit with the sequence. -/
def unitOf (sequence : ℕ) : Option (PlannedWrite ε) :=
  planned.reverse.find? fun unit => unit.rows.any fun row => row.1 = sequence

/-- The first row of a blocked unit. -/
def firstBlocked : List (ObservationRow ε) → Except String (Option ℕ)
  | [] => .ok none
  | row :: rows => do
      let unit ← getOrRaise (unitOf planned row.1) "KeyError"
      if unit.isDurable durable then firstBlocked rows else pure (some row.1)

/-- A durable unit that straddles the boundary lowers it. -/
def lowerStep (st : ℕ × Bool) (unit : PlannedWrite ε) : ℕ × Bool :=
  if unit.isDurable durable ∧ unit.min < st.1 ∧ st.1 ≤ unit.max then (unit.min, true) else st

/-- A pass over the units. -/
def lowerPass (boundary : ℕ) : ℕ × Bool := planned.foldl (lowerStep durable) (boundary, false)

/-- The passes until nothing changes; every change lowers the boundary. -/
def lowered (boundary : ℕ) : ℕ := settle (lowerPass planned durable) (boundary + 1) boundary

/-- `_durable_prefix`. -/
def durablePrefix (rows : List (ObservationRow ε)) : Except String (List (ObservationRow ε)) := do
  if rows.isEmpty then
    return []
  let ordered := sortedBy Prod.fst rows
  match ← firstBlocked planned durable ordered with
  | none => pure ordered
  | some boundary => pure (ordered.filter fun row => row.1 < lowered planned durable boundary)

/-- Every unit with a row below the boundary is durable and lies below it. -/
def Safe (boundary : ℕ) : Prop :=
  ∀ unit ∈ planned, (∃ row ∈ unit.rows, row.1 < boundary) →
    unit.isDurable durable ∧ ∀ row ∈ unit.rows, row.1 < boundary

/-- The units have the rows of the batch, each in one unit. -/
structure Partition (rows : List (ObservationRow ε)) : Prop where
  covers : ∀ row, row ∈ rows ↔ ∃ unit ∈ planned, row ∈ unit.rows
  apart : ∀ unit ∈ planned, ∀ unit' ∈ planned, ∀ row ∈ unit.rows, row ∈ unit'.rows → unit = unit'

end Model

variable {planned : List (PlannedWrite ε)} {durable : Dict ℕ Bool} {unit : PlannedWrite ε}
  {rows l : List (ObservationRow ε)} {row : ObservationRow ε} {b : ℕ}

theorem PlannedWrite.min_mem (unit : PlannedWrite ε) : ∃ row ∈ unit.rows, row.1 = unit.min :=
  mem_map.mp (List.min_mem unit.nonempty)

theorem PlannedWrite.max_mem (unit : PlannedWrite ε) : ∃ row ∈ unit.rows, row.1 = unit.max :=
  mem_map.mp (List.max_mem unit.nonempty)

theorem PlannedWrite.min_le (unit : PlannedWrite ε) (h : row ∈ unit.rows) : unit.min ≤ row.1 :=
  List.min_le_of_mem (mem_map_of_mem h)

theorem PlannedWrite.le_max (unit : PlannedWrite ε) (h : row ∈ unit.rows) : row.1 ≤ unit.max :=
  List.le_max_of_mem (mem_map_of_mem h)

/-! ### The first blocked row -/

theorem unitOf_eq (hp : Partition planned rows) (hd : DistinctKeys Prod.fst rows)
    (hu : unit ∈ planned) (hr : row ∈ unit.rows) : unitOf planned row.1 = some unit := by
  cases h : unitOf planned row.1 with
  | none =>
    rw [unitOf, find?_eq_none] at h
    exact absurd (any_eq_true.mpr ⟨row, hr, decide_eq_true rfl⟩) (h unit (mem_reverse.mpr hu))
  | some unit' =>
    have hf := find?_some h
    obtain ⟨row', hr', hk⟩ := any_eq_true.mp hf
    have hu' := mem_reverse.mp (mem_of_find?_eq_some h)
    have heq := hd.eq_of_key_eq ((hp.covers row').mpr ⟨unit', hu', hr'⟩)
      ((hp.covers row).mpr ⟨unit, hu, hr⟩) (of_decide_eq_true hk)
    rw [hp.apart unit' hu' unit hu row' hr' (heq ▸ hr)]

/-- The row's unit is durable. -/
def Clear (planned : List (PlannedWrite ε)) (durable : Dict ℕ Bool) (row : ObservationRow ε) :
    Prop :=
  ∀ unit ∈ planned, row ∈ unit.rows → unit.isDurable durable

theorem firstBlocked_cases (durable : Dict ℕ Bool) (hp : Partition planned rows)
    (hd : DistinctKeys Prod.fst rows) (hl : ∀ row ∈ l, row ∈ rows)
    (hs : l.Pairwise fun r r' => r.1 ≤ r'.1) :
    (firstBlocked planned durable l = .ok none ∧ ∀ row ∈ l, Clear planned durable row) ∨
    ∃ row ∈ l, ¬Clear planned durable row ∧ firstBlocked planned durable l = .ok (some row.1) ∧
      ∀ r ∈ l, r.1 < row.1 → Clear planned durable r := by
  induction l with
  | nil => exact .inl ⟨rfl, nofun⟩
  | cons r l ih =>
    obtain ⟨unit, hu, hr⟩ := (hp.covers r).mp (hl r mem_cons_self)
    obtain ⟨hle, hs⟩ := pairwise_cons.mp hs
    simp only [firstBlocked, unitOf_eq hp hd hu hr, getOrRaise_some, ok_bind]
    cases hdu : unit.isDurable durable with
    | false =>
      refine .inr ⟨r, mem_cons_self, fun hc => ?_, rfl, fun r' hm hlt => ?_⟩
      · rw [hc unit hu hr] at hdu
        cases hdu
      · rcases mem_cons.mp hm with rfl | hm
        · omega
        · have := hle r' hm
          omega
    | true =>
      have hcl : Clear planned durable r := fun unit' hu' hr' =>
        hp.apart unit hu unit' hu' r hr hr' ▸ hdu
      rcases ih (fun row h => hl row (mem_cons_of_mem _ h)) hs with
        ⟨hn, ha⟩ | ⟨row, hm, hb, hf, ha⟩
      · exact .inl ⟨hn, forall_mem_cons.mpr ⟨hcl, ha⟩⟩
      · exact .inr ⟨row, mem_cons_of_mem _ hm, hb, hf, forall_mem_cons.mpr ⟨fun _ => hcl, ha⟩⟩

/-! ### Lowering the boundary -/

/-- A pass lowers the boundary to the start of a unit that straddled it, or finds none. -/
theorem lowerPass_cases (units : List (PlannedWrite ε)) (st : ℕ × Bool) :
    let st' := units.foldl (lowerStep durable) st
    (st' = st ∧ ∀ unit ∈ units, unit.isDurable durable → unit.min < st.1 → unit.max < st.1) ∨
    (st'.2 = true ∧ st'.1 < st.1) := by
  induction units generalizing st with
  | nil => exact .inl ⟨rfl, nofun⟩
  | cons unit units ih =>
    simp only [foldl_cons]
    by_cases h : unit.isDurable durable ∧ unit.min < st.1 ∧ st.1 ≤ unit.max
    · rw [lowerStep, if_pos h]
      rcases ih (unit.min, true) with ⟨heq, -⟩ | ⟨hc, hlt⟩
      · rw [heq]
        exact .inr ⟨rfl, h.2.1⟩
      · exact .inr ⟨hc, hlt.trans h.2.1⟩
    · rw [lowerStep, if_neg h]
      refine (ih st).imp_left fun ⟨heq, ha⟩ => ⟨heq, forall_mem_cons.mpr ⟨fun hdu hlt => ?_, ha⟩⟩
      exact not_le.mp fun hle => h ⟨hdu, hlt, hle⟩

/-- What stands of a boundary when a unit that straddles it lowers it. -/
theorem lowered_invariant {P : ℕ → Prop} (h : ∀ b, P b → ∀ unit ∈ planned,
      unit.isDurable durable → unit.min < b → b ≤ unit.max → P unit.min) (hb : P b) :
    P (lowered planned durable b) := by
  refine settle_invariant (fun b hb => ?_) _ hb
  refine foldlRecOn planned _ (motive := fun st : ℕ × Bool => P st.1) hb fun st hst unit hu => ?_
  unfold lowerStep
  split
  · next hc => exact h _ hst unit hu hc.1 hc.2.1 hc.2.2
  · exact hst

theorem lowered_stable (b : ℕ) :
    (lowerPass planned durable (lowered planned durable b)).2 = false := by
  refine settle_stable id (fun b hc => ?_) (fun b hc => ?_) (Nat.lt_succ_self b)
  · rcases lowerPass_cases planned (b, false) with ⟨heq, -⟩ | ⟨-, hlt⟩
    · rw [lowerPass, heq] at hc
      cases hc
    · exact hlt
  · rcases lowerPass_cases planned (b, false) with ⟨heq, -⟩ | ⟨hc', -⟩
    · rw [lowerPass, heq]
    · rw [lowerPass, hc'] at hc
      cases hc

/-- Where the boundary may end up, from the first blocked row on. -/
structure Lowering (planned : List (PlannedWrite ε)) (durable : Dict ℕ Bool)
    (rows : List (ObservationRow ε)) (b : ℕ) : Prop where
  ofRow : ∃ row ∈ rows, row.1 = b
  greatest : ∀ b', Safe planned durable b' → b' ≤ b
  clear : ∀ row ∈ rows, row.1 < b → Clear planned durable row

theorem Lowering.lowered (hp : Partition planned rows) (h : Lowering planned durable rows b) :
    Lowering planned durable rows (lowered planned durable b) := by
  refine lowered_invariant (fun b hb unit hu _ hlt hle => ?_) h
  obtain ⟨row, hr, hmin⟩ := unit.min_mem
  refine ⟨⟨row, (hp.covers row).mpr ⟨unit, hu, hr⟩, hmin⟩, fun b' hs => ?_,
    fun r hr hrb => hb.clear r hr (hrb.trans hlt)⟩
  -- a safe boundary above the start of the unit is above all of it
  obtain ⟨row', hr', hmax⟩ := unit.max_mem
  have hb' := hb.greatest b' hs
  have habove := fun hlt' => (hs unit hu ⟨row, hr, hlt'⟩).2 row' hr'
  omega

theorem Lowering.safe (hp : Partition planned rows) (h : Lowering planned durable rows b)
    (hst : (lowerPass planned durable b).2 = false) : Safe planned durable b := by
  rintro unit hu ⟨row, hr, hlt⟩
  have hdu := h.clear row ((hp.covers row).mpr ⟨unit, hu, hr⟩) hlt unit hu hr
  refine ⟨hdu, fun row' hr' => ?_⟩
  rcases lowerPass_cases planned (b, false) with ⟨-, ha⟩ | ⟨hc, -⟩
  · exact (unit.le_max hr').trans_lt (ha unit hu hdu ((unit.min_le hr).trans_lt hlt))
  · rw [lowerPass, hc] at hst
    cases hst

/-! ### The prefix -/

theorem lt_advanceCursor_iff (b : ℕ) {position : ℕ} (hpos : ∀ row ∈ rows, position ≤ row.1)
    (hr : row ∈ rows) :
    row.1 < advanceCursorForConsumer position
      ((sortedBy Prod.fst rows).filter fun row => row.1 < b) ↔ row.1 < b := by
  have hle := hpos row hr
  unfold advanceCursorForConsumer
  split
  · next h =>
    have hn := max?_eq_none_iff.mp h
    simp only [map_eq_nil_iff, filter_eq_nil_iff, mem_sortedBy, decide_eq_true_eq] at hn
    have := hn row hr
    omega
  · next n h =>
    obtain ⟨hn, hmax⟩ := max?_eq_some_iff.mp h
    simp only [mem_map, mem_filter, mem_sortedBy, decide_eq_true_eq, forall_exists_index,
      and_imp] at hn hmax
    obtain ⟨r, ⟨-, hrb⟩, rfl⟩ := hn
    have := hmax row.1 row hr
    omega

theorem durablePrefix_eq {o : Option ℕ}
    (h : firstBlocked planned durable (sortedBy Prod.fst rows) = .ok o) :
    durablePrefix planned durable rows = .ok (o.elim (sortedBy Prod.fst rows) fun b =>
      (sortedBy Prod.fst rows).filter fun row => row.1 < lowered planned durable b) := by
  cases rows with
  | nil =>
    cases h
    rfl
  | cons => cases o <;> simp [durablePrefix, h, ok_bind]

/-- **The prefix ends at the greatest safe boundary.**  The loop comes to its end, every safe
boundary has its rows in the prefix, and the cursor passes these rows and no other. -/
theorem durablePrefix_exact (planned : List (PlannedWrite ε)) (durable : Dict ℕ Bool)
    (rows : List (ObservationRow ε)) (hd : DistinctKeys Prod.fst rows)
    (hp : Partition planned rows) :
    (∀ b, (lowerPass planned durable (lowered planned durable b)).2 = false) ∧
    ∃ b, ((∃ row ∈ rows, row.1 = b) ∨ ∀ row ∈ rows, row.1 < b) ∧ Safe planned durable b ∧
      (∀ b', Safe planned durable b' → ∀ row ∈ rows, row.1 < b' → row.1 < b) ∧
      ∃ acknowledged, durablePrefix planned durable rows = .ok acknowledged ∧
        acknowledged = (sortedBy Prod.fst rows).filter (fun row => row.1 < b) ∧
        ∀ position, (∀ row ∈ rows, position ≤ row.1) → ∀ row ∈ rows,
          (row.1 < advanceCursorForConsumer position acknowledged ↔ row.1 < b) := by
  refine ⟨lowered_stable, ?_⟩
  have hin : ∀ row ∈ sortedBy Prod.fst rows, row ∈ rows := fun row => mem_sortedBy.mp
  rcases firstBlocked_cases durable hp hd hin (pairwise_sortedBy Prod.fst rows) with
    ⟨hf, ha⟩ | ⟨row, hr, hb, hf, ha⟩
  · -- nothing is blocked: a boundary past the end is safe
    obtain ⟨b, hb⟩ : ∃ b, ∀ row ∈ rows, row.1 < b :=
      ⟨(rows.map Prod.fst).foldl Nat.max 0 + 1, fun row hr =>
        Nat.lt_succ_of_le (le_foldl_max (.inr (mem_map_of_mem hr)))⟩
    refine ⟨b, .inr hb, ?_, fun _ _ row hr _ => hb row hr, _, ?_, rfl,
      fun _ hpos _ hr => lt_advanceCursor_iff b hpos hr⟩
    · rintro unit hu ⟨row, hr, -⟩
      have hrows := fun row hr => (hp.covers row).mpr ⟨unit, hu, hr⟩
      exact ⟨ha row (mem_sortedBy.mpr (hrows row hr)) unit hu hr,
        fun row hr => hb row (hrows row hr)⟩
    · rw [durablePrefix_eq hf, filter_eq_self.mpr fun row hr =>
        decide_eq_true (hb row (hin row hr))]
      rfl
  · -- no safe boundary is above the first blocked row, and the passes keep that
    have hl : Lowering planned durable rows row.1 := by
      refine ⟨⟨row, hin row hr, rfl⟩, fun b' hs => ?_,
        fun r hr => ha r (mem_sortedBy.mpr hr)⟩
      refine not_lt.mp fun hlt => hb fun unit hu hru => ?_
      exact (hs unit hu ⟨row, hru, hlt⟩).1
    have hl' := hl.lowered hp
    exact ⟨_, .inl hl'.ofRow, hl'.safe hp (lowered_stable _), fun b' hs row _ hlt =>
      hlt.trans_le (hl'.greatest b' hs), _, durablePrefix_eq hf, rfl,
      fun _ hpos _ hr => lt_advanceCursor_iff _ hpos hr⟩

def interleaved : List (PlannedWrite Unit) :=
  [⟨[(1, ⟨"a", "", (), 0⟩), (3, ⟨"c", "", (), 0⟩)], by decide⟩,
    ⟨[(2, ⟨"b", "", (), 0⟩)], by decide⟩]

/-- With row 2 blocked the chain is not acknowledged either. -/
theorem durablePrefix_interleaved :
    ∃ b, durablePrefix interleaved ((Dict.set ∅ 1 true).set 3 true)
        (interleaved.flatMap PlannedWrite.rows) = .ok [] ∧
      Safe interleaved ((Dict.set ∅ 1 true).set 3 true) b := by
  obtain ⟨-, b, -, hs, -⟩ := durablePrefix_exact interleaved ((Dict.set ∅ 1 true).set 3 true)
    (interleaved.flatMap PlannedWrite.rows) (by unfold DistinctKeys; decide)
    ⟨fun _ => mem_flatMap, by decide⟩
  exact ⟨b, by decide +kernel, hs⟩

end AgenticPkm.Heimdal.CandidateProjection
