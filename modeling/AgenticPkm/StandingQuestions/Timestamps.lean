import AgenticPkm.Lib.Checks

/-!
# Timestamps of a question note

`parse_rfc3339_datetime` decides which timestamps a question note may carry, and
`_postgres_timestamptz_value` writes an admitted one as a literal in UTC.

* `projection_keeps_instants` — **the literal is of the same instant**.
-/

namespace AgenticPkm.Timestamps

def isGregorianLeapYear (year : ℤ) : Bool :=
  year % 4 = 0 ∧ (year % 100 ≠ 0 ∨ year % 400 = 0)

def daysInGregorianMonth (year : ℤ) (month : ℕ) : ℕ :=
  if month = 2 then if isGregorianLeapYear year then 29 else 28
  else if month ∈ [4, 6, 9, 11] then 30 else 31

/-- A date of the proleptic Gregorian calendar. -/
abbrev IsDate (year : ℤ) (month day : ℕ) : Prop :=
  (1 ≤ month ∧ month ≤ 12) ∧ 1 ≤ day ∧ day ≤ daysInGregorianMonth year month

/-- An RFC 3339 timestamp.  The fraction is the digits after the point; an offset is whether it
is negative, its hours and its minutes. -/
structure Rfc3339DateTime where
  year : ℕ
  month : ℕ
  day : ℕ
  isDate : IsDate year month day
  hour : Fin 24
  minute : Fin 60
  second : Fin 61
  fraction : List Char
  offset : Bool × Fin 24 × Fin 60

def Rfc3339DateTime.offsetMinutes (t : Rfc3339DateTime) : ℤ :=
  (if t.offset.1 then -1 else 1) * (t.offset.2.1 * 60 + t.offset.2.2)

def shiftGregorianDate (year : ℤ) (month day : ℕ) (dayDelta : ℤ) : Except String (ℤ × ℕ × ℕ) := do
  raiseIf (dayDelta ∉ [-1, 0, 1]) "RFC 3339 offset adjustment cannot exceed one day"
  pure <|
    if dayDelta = 0 then (year, month, day)
    else if dayDelta = -1 then
      if 1 < day then (year, month, day - 1)
      else if 1 < month then (year, month - 1, daysInGregorianMonth year (month - 1))
      else (year - 1, 12, 31)
    else if day < daysInGregorianMonth year month then (year, month, day + 1)
    else if month < 12 then (year, month + 1, 1)
    else (year + 1, 1, 1)

/-- The date, hour and minute in UTC. -/
def utcDateAndMinute (t : Rfc3339DateTime) (minuteDelta : ℤ) :
    Except String ((ℤ × ℕ × ℕ) × ℤ × ℤ) := do
  let minutes : ℤ := t.hour * 60 + t.minute - t.offsetMinutes + minuteDelta
  let date ← shiftGregorianDate t.year t.month t.day (minutes / 60 / 24)
  pure (date, minutes / 60 % 24, minutes % 60)

def announcedLeapSecondUtcDates : List (ℤ × ℕ × ℕ) :=
  [(1972, 6, 30), (1972, 12, 31), (1973, 12, 31), (1974, 12, 31), (1975, 12, 31), (1976, 12, 31),
    (1977, 12, 31), (1978, 12, 31), (1979, 12, 31), (1981, 6, 30), (1982, 6, 30), (1983, 6, 30),
    (1985, 6, 30), (1987, 12, 31), (1989, 12, 31), (1990, 12, 31), (1992, 6, 30), (1993, 6, 30),
    (1994, 6, 30), (1995, 12, 31), (1997, 6, 30), (1998, 12, 31), (2005, 12, 31), (2008, 12, 31),
    (2012, 6, 30), (2015, 6, 30), (2016, 12, 31)]

def isAnnouncedLeapSecond (t : Rfc3339DateTime) : Except String Bool := do
  let (date, minute) ← utcDateAndMinute t 0
  pure (minute = (23, 59) ∧ date ∈ announcedLeapSecondUtcDates)

/-- The number that two digits spell, if it is small enough. -/
def twoDigits (n : ℕ) (a b : Char) : Option (Fin n) :=
  let value := 10 * (a.toNat - 48) + (b.toNat - 48)
  if h : (a.isDigit ∧ b.isDigit) ∧ value < n then some ⟨value, h.2⟩ else none

def offsetOf : List Char → Option (Bool × Fin 24 × Fin 60)
  | [z] => if z = 'Z' ∨ z = 'z' then some (false, 0, 0) else none
  | [sign, a, b, colon, c, d] => do
      guard (colon = ':' ∧ (sign = '+' ∨ sign = '-'))
      let hour ← twoDigits 24 a b
      let minute ← twoDigits 60 c d
      pure (sign = '-', hour, minute)
  | _ => none

/-- The groups of the RFC 3339 pattern, with the check of the day. -/
def matchRfc3339 : List Char → Option Rfc3339DateTime
  | y₁ :: y₂ :: y₃ :: y₄ :: c₁ :: m₁ :: m₂ :: c₂ :: d₁ :: d₂ :: t :: h₁ :: h₂ :: c₃ :: n₁ :: n₂ ::
      c₄ :: s₁ :: s₂ :: rest => do
      guard ((t = 'T' ∨ t = 't') ∧ [c₁, c₂, c₃, c₄] = ['-', '-', ':', ':'])
      let year := 100 * (← twoDigits 100 y₁ y₂).val + (← twoDigits 100 y₃ y₄).val
      let month ← twoDigits 100 m₁ m₂
      let day ← twoDigits 100 d₁ d₂
      let hour ← twoDigits 24 h₁ h₂
      let minute ← twoDigits 60 n₁ n₂
      let second ← twoDigits 61 s₁ s₂
      let fraction := if rest.head? = '.' then rest.tail.takeWhile Char.isDigit else []
      let zone := if fraction = [] then rest else rest.drop (fraction.length + 1)
      let offset ← offsetOf zone
      if hdate : IsDate year month day then
        some ⟨year, month, day, hdate, hour, minute, second, fraction, offset⟩
      else none
  | _ => none

def parseRfc3339Datetime (value : List Char) : Except String (Option Rfc3339DateTime) :=
  match matchRfc3339 value with
  | none => pure none
  | some t => do
      let announced ← (if t.second = 60 then isAnnouncedLeapSecond t else pure true :)
      pure (if announced then some t else none)

/-- A literal of `TIMESTAMPTZ`, in UTC. -/
structure Literal where
  year : ℤ
  month : ℕ
  day : ℕ
  hour : ℤ
  minute : ℤ
  second : ℕ
  fraction : List Char
  bc : Bool

def postgresTimestamptzValue (value : List Char) : Except String Literal := do
  let t ← getOrRaise (← parseRfc3339Datetime value)
    "projection received an invalid RFC 3339 timestamp"
  let ((year, month, day), hour, minute) ← utcDateAndMinute t (if t.second = 60 then 1 else 0)
  pure
    { year := if year ≤ 0 then 1 - year else year
      month, day, hour, minute
      second := if t.second = 60 then 0 else t.second
      fraction := t.fraction.take 6
      bc := year ≤ 0 }

/-! ### Instants -/

/-- The days up to a date. -/
def days (year : ℤ) (month day : ℕ) : ℤ :=
  365 * (year - 1) + (year - 1) / 4 - (year - 1) / 100 + (year - 1) / 400 +
    ∑ m ∈ Finset.Ico 1 month, (daysInGregorianMonth year m : ℤ) + day

/-- The first `n` digits after the point, in units of the last. -/
def fractionOf : ℕ → List Char → ℕ
  | n + 1, c :: cs => (c.toNat - 48) * 10 ^ n + fractionOf n cs
  | _, _ => 0

/-- The instant of a timestamp in microseconds, a leap second taken literally. -/
def Rfc3339DateTime.instant (t : Rfc3339DateTime) : ℤ :=
  10 ^ 6 * (86400 * days t.year t.month t.day + 60 * (60 * t.hour + t.minute - t.offsetMinutes) +
    t.second) + fractionOf 6 t.fraction

/-- The year of a literal, with a year 0 before the first. -/
def Literal.astronomicalYear (l : Literal) : ℤ := if l.bc then 1 - l.year else l.year

def Literal.instant (l : Literal) : ℤ :=
  10 ^ 6 * (86400 * days l.astronomicalYear l.month l.day + 60 * (60 * l.hour + l.minute) +
    l.second) + fractionOf 6 l.fraction

/-- Every field of a literal is in its calendar range. -/
def Literal.InRange (l : Literal) : Prop :=
  1 ≤ l.year ∧ IsDate l.astronomicalYear l.month l.day ∧ (0 ≤ l.hour ∧ l.hour < 24) ∧
    (0 ≤ l.minute ∧ l.minute < 60) ∧ l.second < 60

variable {year : ℤ} {month day : ℕ} {t : Rfc3339DateTime}

theorem days_newYear (year : ℤ) : days (year + 1) 1 1 = days year 12 31 + 1 := by
  have hsum : ∑ m ∈ Finset.Ico 1 12, (daysInGregorianMonth year m : ℤ) =
      306 + if isGregorianLeapYear year then 29 else 28 := by
    simp [Finset.sum_Ico_succ_top, daysInGregorianMonth]
    ring
  simp only [days, hsum, Finset.Ico_self, Finset.sum_empty, isGregorianLeapYear,
    decide_eq_true_iff]
  split_ifs <;> push_cast <;> omega

theorem days_newMonth (hm : 1 ≤ month) :
    days year (month + 1) 1 = days year month (daysInGregorianMonth year month) + 1 := by
  simp only [days, Finset.sum_Ico_succ_top hm]
  omega

theorem days_newDay (day : ℕ) : days year month (day + 1) = days year month day + 1 := by
  simp only [days]
  omega

/-- **A date one day away is one day away.** -/
theorem shiftGregorianDate_spec {δ : ℤ} (hd : IsDate year month day) (hδ : -1 ≤ δ ∧ δ ≤ 1) :
    ∃ y m d, shiftGregorianDate year month day δ = .ok (y, m, d) ∧ IsDate y m d ∧
      days y m d = days year month day + δ := by
  obtain ⟨hm, hd⟩ := hd
  have hin : δ ∈ [-1, 0, 1] := by
    simp only [List.mem_cons, List.not_mem_nil, or_false]
    omega
  have hpos : ∀ y m, 1 ≤ daysInGregorianMonth y m := by
    intro y m
    unfold daysInGregorianMonth
    split_ifs <;> decide
  rw [shiftGregorianDate, decide_eq_false (not_not.mpr hin)]
  split_ifs with h0 hneg hd1 hm1 hdl hml
  · exact ⟨_, _, _, rfl, ⟨hm, hd⟩, by omega⟩
  · refine ⟨_, _, _, rfl, ⟨hm, by omega⟩, ?_⟩
    have hday := @days_newDay year month (day - 1)
    rw [Nat.sub_add_cancel hd.1] at hday
    omega
  · refine ⟨_, _, _, rfl, ⟨by omega, hpos _ _, le_rfl⟩, ?_⟩
    have hmonth := @days_newMonth year (month - 1) (by omega)
    rw [Nat.sub_add_cancel hm.1] at hmonth
    obtain rfl : day = 1 := by omega
    omega
  · obtain rfl : day = 1 := by omega
    obtain rfl : month = 1 := by omega
    refine ⟨_, _, _, rfl, ⟨by decide, by decide, le_rfl⟩, ?_⟩
    have hyear := days_newYear (year - 1)
    rw [sub_add_cancel] at hyear
    omega
  · exact ⟨_, _, _, rfl, ⟨hm, by omega⟩, by rw [days_newDay]; omega⟩
  · obtain rfl : day = daysInGregorianMonth year month := by omega
    exact ⟨_, _, _, rfl, ⟨by omega, le_rfl, hpos _ _⟩, by rw [days_newMonth hm.1]; omega⟩
  · obtain rfl : month = 12 := by omega
    obtain rfl : day = 31 := le_antisymm hd.2 (not_lt.mp hdl)
    exact ⟨_, _, _, rfl, ⟨by decide, le_rfl, hpos _ _⟩, by rw [days_newYear]; omega⟩

theorem fractionOf_take (n : ℕ) (cs : List Char) : fractionOf n (cs.take n) = fractionOf n cs := by
  induction n generalizing cs with
  | zero => simp [fractionOf]
  | succ n ih => cases cs <;> simp [fractionOf, ih]

theorem projected {value : List Char} (h : parseRfc3339Datetime value = .ok (some t)) :
    ∃ l, postgresTimestamptzValue value = .ok l ∧ l.InRange ∧ l.instant = t.instant := by
  -- a leap second is folded onto the next minute
  let δ : ℤ := if t.second = 60 then 1 else 0
  let second : ℕ := if t.second = 60 then 0 else t.second
  have hsecond : second < 60 ∧ (60 * δ + second : ℤ) = t.second ∧ 0 ≤ δ ∧ δ ≤ 1 := by
    simp only [second, δ, Fin.ext_iff]
    split_ifs <;> omega
  let minutes : ℤ := t.hour * 60 + t.minute - t.offsetMinutes + δ
  have hoffset : -1440 < t.offsetMinutes ∧ t.offsetMinutes < 1440 := by
    unfold Rfc3339DateTime.offsetMinutes
    split_ifs <;> omega
  obtain ⟨year, month, day, hshift, hdate, hdays⟩ :=
    shiftGregorianDate_spec t.isDate (δ := minutes / 60 / 24) (by omega)
  have hutc : utcDateAndMinute t δ = .ok ((year, month, day), minutes / 60 % 24, minutes % 60) := by
    rw [utcDateAndMinute, hshift]
    rfl
  let l : Literal := ⟨if year ≤ 0 then 1 - year else year, month, day, minutes / 60 % 24,
    minutes % 60, second, t.fraction.take 6, year ≤ 0⟩
  have hyear : 1 ≤ l.year ∧ l.astronomicalYear = year := by
    simp only [l, Literal.astronomicalYear, decide_eq_true_iff]
    split_ifs <;> omega
  refine ⟨l, ?_, ⟨hyear.1, hyear.2 ▸ hdate, ?_, ?_, hsecond.1⟩, ?_⟩
  · rw [postgresTimestamptzValue, h, ok_bind, getOrRaise_some, ok_bind]
    exact bind_eq_ok_iff.mpr ⟨_, hutc, rfl⟩
  · exact ⟨Int.emod_nonneg _ (by decide), Int.emod_lt_of_pos _ (by decide)⟩
  · exact ⟨Int.emod_nonneg _ (by decide), Int.emod_lt_of_pos _ (by decide)⟩
  · rw [Literal.instant, hyear.2, hdays, Rfc3339DateTime.instant, fractionOf_take]
    simp only [l]
    omega

/-- **An admitted timestamp is projected to its own instant**, cut to microseconds, in a literal
whose fields are in their ranges; so the projection keeps the order of instants. -/
theorem projection_keeps_instants {value value' : List Char} {t' : Rfc3339DateTime}
    (h : parseRfc3339Datetime value = .ok (some t))
    (h' : parseRfc3339Datetime value' = .ok (some t')) :
    ∃ l l', postgresTimestamptzValue value = .ok l ∧ postgresTimestamptzValue value' = .ok l' ∧
      l.InRange ∧ l.instant = t.instant ∧ (l.instant ≤ l'.instant ↔ t.instant ≤ t'.instant) := by
  obtain ⟨l, hl, hr, hi⟩ := projected h
  obtain ⟨l', hl', -, hi'⟩ := projected h'
  exact ⟨l, l', hl, hl', hr, hi, by rw [hi, hi']⟩

/-- A fraction of an announced leap second, at an offset. -/
def leapSecond : List Char := "2016-12-31T18:59:60.25-05:00".toList

theorem leapSecond_projected :
    ∃ t, parseRfc3339Datetime leapSecond = .ok (some t) ∧
      ∃ l, postgresTimestamptzValue leapSecond = .ok l ∧ l.InRange ∧ l.instant = t.instant := by
  have h : parseRfc3339Datetime leapSecond =
      .ok (some ⟨2016, 12, 31, by decide, 18, 59, 60, ['2', '5'], true, 5, 0⟩) := by rfl
  obtain ⟨l, _, hl, -, hr, hi, -⟩ := projection_keeps_instants h h
  exact ⟨_, h, l, hl, hr, hi⟩

end AgenticPkm.Timestamps
