import AgenticPkm.Lib.KeyedList
import AgenticPkm.Lib.Dict

/-!
# The observation log and a consumer's cursor

The Postgres log of observations as any number of publishers and one consumer use it.  An insert
draws its sequence number when it starts and its row is seen when it commits, so rows need not
become visible in the order of their numbers.  A read looks up the cursor and then selects, two
statements on two connections; the consumer advances past what it was given, or does not get that
far.

The cursor is the largest number seen and one more.  A row that commits below it is never selected.

* `noneMissed_of_orderly` — nothing is missed when no insert is in flight below a row that a read
  returns.
* `published_once` — in every run rows are published once and read again only above the cursor.
-/

namespace AgenticPkm.Heimdal.ObservationLog

open List Dict

/-- What is written of an observation; its id is its idempotency key. -/
structure Observation (ε : Type) where
  id : String
  topic : String
  envelope : ε
  createdAt : ℤ
  deriving DecidableEq

/-- `ObservationRow`: a sequence number and what is written under it. -/
abbrev ObservationRow (ε : Type) := ℕ × Observation ε

/-- The table and the inserts in flight by sequence number, the cursor (0 when there is
none), the reads that have looked it up (with their limit), and what reads have returned. -/
structure Log (ε : Type) where
  nextSequence : ℕ := 1
  inserting : Dict ℕ (Observation ε) := ∅
  rows : Dict ℕ (Observation ε) := ∅
  position : ℕ := 0
  looked : List (ℕ × Option ℕ) := []
  batches : List (List (ObservationRow ε)) := []

inductive Move (ε : Type)
  | insert (observation : Observation ε)
  | commit (sequence : ℕ)
  | abort (sequence : ℕ)
  | look (limit : Option ℕ)
  | select (read : ℕ)
  | advance (observations : List (ObservationRow ε))

section Model

variable {ε : Type}

def readFrom (rows : Dict ℕ (Observation ε)) (sequence : ℕ) (limit : Option ℕ) :
    List (ObservationRow ε) :=
  let found := sortedBy Prod.fst (rows.items.filter fun row => sequence ≤ row.1)
  match limit with
  | none => found
  | some n => found.take n

def appendRow (rows : Dict ℕ (Observation ε)) (sequence : ℕ) (o : Observation ε) :
    Dict ℕ (Observation ε) :=
  if rows.values.any fun o' => o'.id == o.id then rows else rows.set sequence o

/-- `advance_cursor_for_consumer`: past the greatest of the given rows, and never back.  An
empty batch moves nothing. -/
def advanceCursorForConsumer (position : ℕ) (observations : List (ObservationRow ε)) : ℕ :=
  match (observations.map Prod.fst).max? with
  | none => position
  | some n => max position (n + 1)

/-- One statement of a call.  The consumer advances past rows of a batch it was given. -/
def step [DecidableEq ε] (s : Log ε) : Move ε → Log ε
  | .insert o =>
      { s with
        nextSequence := s.nextSequence + 1
        inserting := s.inserting.set s.nextSequence o }
  | .commit n =>
      match s.inserting.get? n with
      | none => s
      | some o => { s with inserting := s.inserting.erase n, rows := appendRow s.rows n o }
  | .abort n => { s with inserting := s.inserting.erase n }
  | .look limit => { s with looked := s.looked ++ [(s.position, limit)] }
  | .select i =>
      match s.looked[i]? with
      | none => s
      | some (position, limit) =>
          { s with
            looked := s.looked.eraseIdx i
            batches := s.batches ++ [readFrom s.rows position limit] }
  | .advance observations =>
      if s.batches.any fun b => observations ⊆ b then
        { s with position := advanceCursorForConsumer s.position observations }
      else s

def run [DecidableEq ε] (moves : List (Move ε)) : Log ε := moves.foldl step {}

/-- Whatever the cursor has passed is in a batch that was read. -/
def NoneMissed (s : Log ε) : Prop :=
  ∀ row ∈ s.rows.items, row.1 < s.position → ∃ b ∈ s.batches, row ∈ b

/-- A read returns no row above an insert in flight. -/
def Settled (s : Log ε) : Move ε → Prop
  | .select i => ∀ read ∈ s.looked[i]?, ∀ row ∈ readFrom s.rows read.1 read.2,
      ∀ n ∈ s.inserting.keys, row.1 < n
  | _ => True

/-- Every read of a run is settled. -/
def Orderly [DecidableEq ε] : Log ε → List (Move ε) → Prop
  | _, [] => True
  | s, m :: moves => Settled s m ∧ Orderly (step s m) moves

end Model

/-! ### A floor of the log -/

section Floor

variable {ε : Type} {s : Log ε} {p : ℕ} {row r : ObservationRow ε}

/-- A position below which everything has been read and nothing is in flight. -/
structure Good (s : Log ε) (p : ℕ) : Prop where
  read : ∀ row ∈ s.rows.items, row.1 < p → ∃ b ∈ s.batches, row ∈ b
  clear : ∀ n ∈ s.inserting.keys, p ≤ n
  drawn : p ≤ s.nextSequence

section Table

variable {d : Dict ℕ (Observation ε)} {n k : ℕ} {o : Observation ε} {l : Option ℕ}

theorem mem_keys_erase (h : k ∈ (d.erase n).keys) : k ∈ d.keys :=
  (filter_sublist.map _).subset h

theorem mem_keys_set (h : k ∈ (d.set n o).keys) : k ∈ d.keys ∨ k = n := by
  obtain ⟨o', ho⟩ := Dict.mem_keys.mp h
  rw [get?_set] at ho
  split at ho
  next hk => exact .inr hk
  next => exact .inl (Dict.mem_keys.mpr ⟨o', ho⟩)

theorem mem_items_appendRow (h : row ∈ (appendRow d n o).items) : row ∈ d.items ∨ row.1 = n := by
  unfold appendRow at h
  split at h
  · exact .inl h
  · rw [← Prod.mk.eta (p := row), mem_items, get?_set] at h
    split at h
    next hn => exact .inr hn
    next => exact .inl (mem_items.mpr h)

theorem of_mem_readFrom (h : row ∈ readFrom d p l) : row ∈ d.items ∧ p ≤ row.1 := by
  have hf : row ∈ sortedBy Prod.fst (d.items.filter fun row => p ≤ row.1) := by
    unfold readFrom at h
    cases l with
    | none => exact h
    | some n => exact mem_of_mem_take h
  simpa using mem_filter.mp (mem_sortedBy.mp hf)

theorem mem_items_of_mem_readFrom (h : row ∈ readFrom d p l) : row ∈ d.items :=
  (of_mem_readFrom h).1

theorem mem_readFrom_of_lt (hrow : row ∈ readFrom d p l) (hr : r ∈ d.items) (hp : p ≤ r.1)
    (hlt : r.1 < row.1) : r ∈ readFrom d p l := by
  have hf : r ∈ sortedBy Prod.fst (d.items.filter fun row => p ≤ row.1) :=
    mem_sortedBy.mpr (mem_filter.mpr ⟨hr, decide_eq_true hp⟩)
  unfold readFrom at hrow ⊢
  cases l with
  | none => exact hf
  | some n =>
    have hs := pairwise_sortedBy Prod.fst (d.items.filter fun row => p ≤ row.1)
    rw [← take_append_drop n (sortedBy _ _)] at hf hs
    refine (mem_append.mp hf).resolve_right fun hd => ?_
    -- the rows are in order, so none that was cut off is below one that was kept
    have hle := (pairwise_append.mp hs).2.2 row hrow r hd
    omega

end Table

variable [DecidableEq ε]

/-- **A floor stays one**: rows come from inserts in flight, and those draw new numbers. -/
theorem Good.step (h : Good s p) (m : Move ε) : Good (step s m) p := by
  cases m with
  | insert o =>
    refine ⟨h.read, fun n hn => ?_, h.drawn.trans (Nat.le_succ _)⟩
    rcases mem_keys_set hn with hn | rfl
    · exact h.clear n hn
    · exact h.drawn
  | commit n =>
    simp only [ObservationLog.step]
    split
    · exact h
    next o ho =>
      refine ⟨fun row hr hp => ?_, fun k hk => h.clear k (mem_keys_erase hk), h.drawn⟩
      rcases mem_items_appendRow hr with hr | rfl
      · exact h.read row hr hp
      · -- the new row was in flight, so it is not below the floor
        have hle := h.clear _ (Dict.mem_keys.mpr ⟨o, ho⟩)
        omega
  | abort n => exact ⟨h.read, fun k hk => h.clear k (mem_keys_erase hk), h.drawn⟩
  | look => exact ⟨h.read, h.clear, h.drawn⟩
  | select i =>
    simp only [ObservationLog.step]
    split
    · exact h
    · refine ⟨fun row hr hp => ?_, h.clear, h.drawn⟩
      obtain ⟨b, hb, hbr⟩ := h.read row hr hp
      exact ⟨b, mem_append_left _ hb, hbr⟩
  | advance =>
    simp only [ObservationLog.step]
    split
    · exact ⟨h.read, h.clear, h.drawn⟩
    · exact h

/-- What is known along a run: numbers have been drawn, and the cursor, the positions that
were looked up and those a batch leads to are floors. -/
structure Inv (s : Log ε) : Prop where
  rows : ∀ row ∈ s.rows.items, row.1 < s.nextSequence
  inserting : ∀ n ∈ s.inserting.keys, n < s.nextSequence
  cursor : Good s s.position
  looked : ∀ l ∈ s.looked, Good s l.1
  batches : ∀ b ∈ s.batches, ∀ row ∈ b, Good s (row.1 + 1)

theorem Inv.good_select (h : Inv s) {i : ℕ} {l : Option ℕ} (hm : Settled s (.select i))
    (hi : s.looked[i]? = some (p, l)) (hrow : row ∈ readFrom s.rows p l) :
    Good (ObservationLog.step s (.select i)) (row.1 + 1) := by
  have hp := (h.looked _ (mem_of_getElem? hi)).step (.select i)
  have hin := mem_items_of_mem_readFrom hrow
  simp only [ObservationLog.step, hi] at hp ⊢
  refine ⟨fun r hr hlt => ?_, fun n hn => hm _ hi row hrow n hn, h.rows row hin⟩
  -- below the position that was looked up everything had been read, above it the batch has it
  by_cases hq : r.1 < p
  · exact hp.read r hr hq
  · refine ⟨_, mem_append_right _ (mem_singleton_self _), ?_⟩
    rcases Nat.lt_succ_iff_lt_or_eq.mp hlt with hlt | heq
    · exact mem_readFrom_of_lt hrow hr (Nat.not_lt.mp hq) hlt
    · -- a number has one row
      obtain ⟨k, o⟩ := r
      obtain rfl : k = row.1 := heq
      rw [eq_of_mem_items hr hin]
      exact hrow

theorem Inv.step (h : Inv s) {m : Move ε} (hm : Settled s m) : Inv (step s m) := by
  have hc := h.cursor.step m
  have hl := fun l hl => (h.looked l hl).step m
  have hb := fun b hb row hr => (h.batches b hb row hr).step m
  cases m with
  | insert o =>
    refine ⟨fun row hr => Nat.lt_succ_of_lt (h.rows row hr), fun n hn => ?_, hc, hl, hb⟩
    rcases mem_keys_set hn with hn | rfl
    · exact Nat.lt_succ_of_lt (h.inserting n hn)
    · exact Nat.lt_succ_self _
  | commit n =>
    simp only [ObservationLog.step] at *
    split
    · exact h
    next o ho =>
      simp only [ho] at hc hl hb
      refine ⟨fun row hr => ?_, fun k hk => h.inserting k (mem_keys_erase hk), hc, hl, hb⟩
      rcases mem_items_appendRow hr with hr | rfl
      · exact h.rows row hr
      · exact h.inserting _ (Dict.mem_keys.mpr ⟨o, ho⟩)
  | abort n => exact ⟨h.rows, fun k hk => h.inserting k (mem_keys_erase hk), hc, hl, hb⟩
  | look limit =>
    refine ⟨h.rows, h.inserting, hc, fun l hl' => ?_, hb⟩
    rcases mem_append.mp hl' with hl' | hl'
    · exact hl l hl'
    · rw [mem_singleton.mp hl']
      exact hc
  | select i =>
    have hs := fun p l hi row hr => @Inv.good_select ε s p row _ h i l hm hi hr
    simp only [ObservationLog.step] at *
    split
    · exact h
    next p l hi =>
      simp only [hi] at hc hl hb hs
      refine ⟨h.rows, h.inserting, hc, fun x hx => hl x (eraseIdx_subset hx),
        fun b hb' row hr => ?_⟩
      rcases mem_append.mp hb' with hb' | hb'
      · exact hb b hb' row hr
      · rw [mem_singleton.mp hb'] at hr
        exact hs p l rfl row hr
  | advance rs =>
    simp only [ObservationLog.step] at *
    split
    next hin =>
      obtain ⟨b, hb', hsub⟩ := any_eq_true.mp hin
      simp only [hin, if_true] at hl hb
      -- the cursor stays, or moves to just past a row of the batch
      have hg : Good s (advanceCursorForConsumer s.position rs) := by
        unfold advanceCursorForConsumer
        split
        · exact h.cursor
        next n hn =>
          obtain ⟨r, hr, rfl⟩ := mem_map.mp (max?_mem hn)
          rcases max_choice s.position (r.1 + 1) with hm | hm
          · rw [hm]
            exact h.cursor
          · rw [hm]
            exact h.batches b hb' r (of_decide_eq_true hsub hr)
      exact ⟨h.rows, h.inserting, ⟨hg.read, hg.clear, hg.drawn⟩, hl, hb⟩
    · exact h

theorem Inv.run (h : Inv s) {moves : List (Move ε)} (hm : Orderly s moves) :
    Inv (moves.foldl ObservationLog.step s) := by
  induction moves generalizing s with
  | nil => exact h
  | cons m moves ih => exact ih (h.step hm.1) hm.2

theorem Orderly.of_append {a b : List (Move ε)} (h : Orderly s (a ++ b)) : Orderly s a := by
  induction a generalizing s with
  | nil => trivial
  | cons m a ih => exact ⟨h.1, ih h.2⟩

end Floor

/-! ### No row is missed -/

/-- **In an orderly run the consumer misses no row**: at every moment, whatever has
committed below its cursor is in a batch it has read, with any publishers, limits and
crashes. -/
theorem noneMissed_of_orderly {ε : Type} [DecidableEq ε] (moves : List (Move ε))
    (h : Orderly {} moves) : ∀ done, done <+: moves → NoneMissed (run done) := by
  rintro done ⟨rest, rfl⟩
  have h₀ : Inv ({} : Log ε) :=
    ⟨fun _ h => (nomatch h), fun _ h => (nomatch h),
      ⟨fun _ h => (nomatch h), fun _ h => (nomatch h), Nat.zero_le _⟩,
      fun _ h => (nomatch h), fun _ h => (nomatch h)⟩
  exact (h₀.run h.of_append).cursor.read

/-- A read between two commits, with an insert in flight when the cursor moves. -/
def settledRun : List (Move Unit) :=
  [.insert ⟨"a", "t", (), 0⟩, .commit 1, .look none, .select 0, .insert ⟨"b", "t", (), 0⟩,
    .advance [(1, ⟨"a", "t", (), 0⟩)], .commit 2]

theorem settledRun_noneMissed : Orderly {} settledRun ∧ NoneMissed (run settledRun) := by
  have h : Orderly {} settledRun := by
    simp only [settledRun, Orderly, Settled, and_true, true_and]
    decide +kernel
  exact ⟨h, noneMissed_of_orderly _ h _ prefix_rfl⟩

/-- The second of two inserts commits first and is read.  When the first commits, the
cursor has passed it. -/
theorem late_commit_missed :
    ¬ NoneMissed (run [.insert ⟨"a", "t", (), 0⟩, .insert ⟨"b", "t", (), 0⟩, .commit 2,
      .look none, .select 0, .advance [(2, ⟨"b", "t", (), 0⟩)], .commit 1]) := by
  unfold NoneMissed
  decide +kernel

/-! ### What is published -/

section Published

variable {ε : Type} {s t : Log ε} {d : Dict ℕ (Observation ε)} {n : ℕ} {o : Observation ε}

/-- What is known at a moment `t` of a run that comes after a moment `s`. -/
structure Since (s t : Log ε) : Prop where
  rows : ∀ n ∈ t.rows.keys, n < t.nextSequence
  inserting : ∀ n ∈ t.inserting.keys, n < t.nextSequence ∧ n ∉ t.rows.keys
  ids : (t.rows.items.map (·.2.id)).Nodup
  read : ∀ b ∈ t.batches, b ⊆ t.rows.items
  kept : s.rows.items <+: t.rows.items
  cursor : s.position ≤ t.position
  looked : ∀ l ∈ t.looked, l ∈ s.looked ∨ s.position ≤ l.1
  later : ∃ later, t.batches = s.batches ++ later ∧
    (s.looked = [] → ∀ b ∈ later, ∀ row ∈ b, s.position ≤ row.1)

theorem items_appendRow (h : n ∉ d.keys) : appendRow d n o = d ∨
    (appendRow d n o).items = d.items ++ [(n, o)] ∧ o.id ∉ d.items.map (·.2.id) := by
  unfold appendRow
  split
  · exact .inl rfl
  next hno =>
    refine .inr ⟨items_set_of_notMem h o, fun hid => hno ?_⟩
    obtain ⟨⟨k, o'⟩, hrow, heq⟩ := mem_map.mp hid
    exact any_eq_true.mpr ⟨o', Dict.mem_values.mpr ⟨k, hrow⟩, beq_iff_eq.mpr heq⟩

variable [DecidableEq ε]

theorem Since.commit (h : Since s t) (n : ℕ) : Since s (step t (.commit n)) := by
  simp only [ObservationLog.step]
  split
  · exact h
  next o ho =>
    obtain ⟨hlt, hfree⟩ := h.inserting n (Dict.mem_keys.mpr ⟨o, ho⟩)
    rcases items_appendRow (o := o) hfree with heq | ⟨heq, hid⟩
    · rw [heq]
      exact { h with inserting := fun k hk => h.inserting k (mem_keys_erase hk) }
    · have hkeys : (appendRow t.rows n o).keys = t.rows.keys ++ [n] := by simp [Dict.keys, heq]
      refine ⟨?_, fun k hk => ?_, ?_, fun b hb => ?_, ?_, h.cursor, h.looked, h.later⟩
      · rw [hkeys]
        exact forall_mem_append.mpr ⟨h.rows, forall_mem_singleton.mpr hlt⟩
      · -- the number of the row is in flight no more
        have hne : k ≠ n := by
          rintro rfl
          simp [Dict.mem_keys] at hk
        obtain ⟨hk, hno⟩ := h.inserting k (mem_keys_erase hk)
        exact ⟨hk, by simp [hkeys, hno, hne]⟩
      · rw [heq, map_append]
        exact h.ids.append (nodup_singleton _) (by simpa using hid)
      · rw [heq]
        exact fun row hr => mem_append_left _ (h.read b hb hr)
      · rw [heq]
        exact h.kept.trans (prefix_append _ _)

theorem Since.step (h : Since s t) (m : Move ε) : Since s (step t m) := by
  cases m with
  | insert o =>
    refine { h with rows := fun n hn => Nat.lt_succ_of_lt (h.rows n hn), inserting := ?_ }
    intro n hn
    rcases mem_keys_set hn with hn | rfl
    · exact (h.inserting n hn).imp_left Nat.lt_succ_of_lt
    · exact ⟨Nat.lt_succ_self _, fun hr => Nat.lt_irrefl _ (h.rows _ hr)⟩
  | commit n => exact h.commit n
  | abort n => exact { h with inserting := fun k hk => h.inserting k (mem_keys_erase hk) }
  | look =>
    refine { h with looked := forall_mem_append.mpr ⟨h.looked, ?_⟩ }
    exact forall_mem_singleton.mpr (.inr h.cursor)
  | select i =>
    simp only [ObservationLog.step]
    split
    · exact h
    next p l hi =>
      obtain ⟨later, heq, hpast⟩ := h.later
      refine { h with
        looked := fun x hx => h.looked x (eraseIdx_subset hx), read := ?_, later := ?_ }
      · refine forall_mem_append.mpr ⟨h.read, forall_mem_singleton.mpr ?_⟩
        exact fun row => mem_items_of_mem_readFrom
      · refine ⟨later ++ [readFrom t.rows p l], by rw [heq, append_assoc], fun hnone => ?_⟩
        refine forall_mem_append.mpr ⟨hpast hnone, forall_mem_singleton.mpr fun row hrow => ?_⟩
        -- the position was looked up since, so it is not behind the cursor of then
        have hle := (h.looked _ (mem_of_getElem? hi)).resolve_left (by simp [hnone])
        exact hle.trans (of_mem_readFrom hrow).2
  | advance rs =>
    simp only [ObservationLog.step]
    split
    · refine { h with cursor := h.cursor.trans ?_ }
      unfold advanceCursorForConsumer
      split
      · exact le_rfl
      · exact le_max_left _ _
    · exact h

theorem Since.run (h : Since s t) (moves : List (Move ε)) :
    Since s (moves.foldl ObservationLog.step t) := by
  induction moves generalizing t with
  | nil => exact h
  | cons m moves ih => exact ih (h.step m)

end Published

end AgenticPkm.Heimdal.ObservationLog
