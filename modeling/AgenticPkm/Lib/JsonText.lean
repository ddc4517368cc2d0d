import AgenticPkm.Lib.Json

/-!
# Writing and reading JSON texts

JSON values as a program holds them, the text they are written as with the default layout
(members in their order, a blank after commas and colons, only the escapes that JSON
requires), and a reader of such texts that refuses an object with a repeated key.

A number is an integer or a float.  A `FloatFormat` says how floats are written and read, and that
reading what was written gives the float back.  The three words for numbers that are not finite are
not read; neither is an escape of one half of a surrogate pair.
-/

namespace AgenticPkm.JsonText

open List

/-! ### Numbers -/

/-- The text of a number: the digits before the point, the fraction with its point and the
exponent with its letter. -/
structure NumberText where
  negative : Bool
  whole : List Char
  frac : List Char := []
  exp : List Char := []
  deriving DecidableEq, Repr

namespace NumberText

def text (t : NumberText) : List Char :=
  (if t.negative then ['-'] else []) ++ (t.whole ++ (t.frac ++ t.exp))

/-- The grammar of JSON numbers. -/
structure Valid (t : NumberText) : Prop where
  whole : t.whole = ['0'] ∨ ∃ d ds, t.whole = d :: ds ∧ d.isDigit = true ∧ d ≠ '0' ∧
    ∀ c ∈ ds, c.isDigit = true
  frac : t.frac = [] ∨ ∃ ds, t.frac = '.' :: ds ∧ ds ≠ [] ∧ ∀ c ∈ ds, c.isDigit = true
  exp : t.exp = [] ∨ ∃ e sign ds, t.exp = e :: (sign ++ ds) ∧ (e = 'e' ∨ e = 'E') ∧
    (sign = [] ∨ sign = ['+'] ∨ sign = ['-']) ∧ ds ≠ [] ∧ ∀ c ∈ ds, c.isDigit = true

def isFloat (t : NumberText) : Bool := t.frac != [] || t.exp != []

end NumberText

/-- How finite floats are written and read, and what number each one is.  A text that is too
large for the format is not read. -/
structure FloatFormat (φ : Type) where
  repr : φ → NumberText
  read : NumberText → Option φ
  value : φ → ℚ
  valid_repr : ∀ x, (repr x).Valid
  isFloat_repr : ∀ x, (repr x).isFloat = true
  read_repr : ∀ x, read (repr x) = some x

/-- The text of an integer. -/
def intText (n : ℤ) : NumberText where
  negative := n < 0
  whole := Nat.toDigits 10 n.natAbs

/-- The integer of a text. -/
def readInt (t : NumberText) : ℤ :=
  let n : ℤ := Nat.ofDigitChars 10 t.whole 0
  if t.negative then -n else n

@[simp] theorem readInt_intText (n : ℤ) : readInt (intText n) = n := by
  simp only [readInt, intText, Nat.ofDigitChars_toDigits (by omega : 1 < 10) (le_refl 10),
    decide_eq_true_eq]
  split <;> omega

theorem toDigits_head (n : ℕ) : Nat.toDigits 10 n = ['0'] ∨
    ∃ d ds, Nat.toDigits 10 n = d :: ds ∧ d ≠ '0' := by
  induction n using Nat.strongRecOn with
  | ind n ih =>
    rcases Nat.lt_or_ge n 10 with hlt | hge
    · rw [Nat.toDigits_of_lt_base hlt]
      rcases Nat.eq_zero_or_pos n with rfl | hp
      · exact .inl rfl
      · refine .inr ⟨n.digitChar, [], rfl, ?_⟩
        interval_cases n <;> decide
    · rw [Nat.toDigits_of_base_le (by omega) hge]
      refine .inr ?_
      rcases ih (n / 10) (by omega) with hz | ⟨d, ds, hd, hne⟩
      · -- a quotient of zero would make the number small
        have hr := congrArg (Nat.ofDigitChars 10 · 0) hz
        simp only [Nat.ofDigitChars_toDigits (by omega : 1 < 10) (le_refl 10)] at hr
        have : Nat.ofDigitChars 10 ['0'] 0 = 0 := by decide
        omega
      · exact ⟨d, ds ++ [(n % 10).digitChar], by rw [hd, cons_append], hne⟩

theorem valid_intText (n : ℤ) : (intText n).Valid where
  whole := by
    have hdig : ∀ c ∈ Nat.toDigits 10 n.natAbs, c.isDigit := fun c hc =>
      Nat.isDigit_of_mem_toDigits (by omega) (by omega) hc
    rcases toDigits_head n.natAbs with hz | ⟨d, ds, hd, hne⟩
    · exact .inl hz
    · refine .inr ⟨d, ds, hd, hdig d ?_, hne, fun c hc => hdig c ?_⟩
      · rw [hd]
        exact mem_cons_self
      · rw [hd]
        exact mem_cons_of_mem _ hc
  frac := .inl rfl
  exp := .inl rfl

/-- The fraction at the front of a text, and the rest. -/
def scanFrac : List Char → List Char × List Char
  | '.' :: rest =>
      if rest.takeWhile Char.isDigit = [] then ([], '.' :: rest)
      else ('.' :: rest.takeWhile Char.isDigit, rest.dropWhile Char.isDigit)
  | cs => ([], cs)

/-- The sign of an exponent. -/
def scanSign : List Char → List Char × List Char
  | '+' :: rest => (['+'], rest)
  | '-' :: rest => (['-'], rest)
  | cs => ([], cs)

/-- The exponent at the front of a text, and the rest. -/
def scanExp : List Char → List Char × List Char
  | [] => ([], [])
  | e :: rest =>
      if (e = 'e' ∨ e = 'E') ∧ (scanSign rest).2.takeWhile Char.isDigit ≠ [] then
        (e :: ((scanSign rest).1 ++ (scanSign rest).2.takeWhile Char.isDigit),
          (scanSign rest).2.dropWhile Char.isDigit)
      else ([], e :: rest)

/-- The digits before the point: a zero, or digits that do not start with one. -/
def scanWhole : List Char → Option (List Char × List Char)
  | [] => none
  | c :: rest =>
      if c = '0' then some (['0'], rest)
      else if c.isDigit then some (c :: rest.takeWhile Char.isDigit, rest.dropWhile Char.isDigit)
      else none

/-- The number at the front of a text, and the rest. -/
def scanNumber (cs : List Char) : Option (NumberText × List Char) :=
  let unsigned := match cs with
    | '-' :: rest => (true, rest)
    | cs => (false, cs)
  (scanWhole unsigned.2).map fun (whole, rest) =>
    let (frac, rest) := scanFrac rest
    let (exp, rest) := scanExp rest
    (⟨unsigned.1, whole, frac, exp⟩, rest)

/-- What follows is not part of a number. -/
def Boundary (rest : List Char) : Prop :=
  ∀ c ∈ rest.head?, c.isDigit = false ∧ c ≠ '.' ∧ c ≠ 'e' ∧ c ≠ 'E'

variable {c : Char} {rest : List Char} {t : NumberText} {fuel : ℕ}

theorem boundary_cons (h : c.isDigit = false ∧ c ≠ '.' ∧ c ≠ 'e' ∧ c ≠ 'E') :
    Boundary (c :: rest) := by
  intro d hd
  cases hd
  exact h

theorem takeWhile_digits {ds : List Char} (hds : ∀ c ∈ ds, c.isDigit)
    (hr : ∀ c ∈ rest.head?, c.isDigit = false) :
    (ds ++ rest).takeWhile Char.isDigit = ds ∧ (ds ++ rest).dropWhile Char.isDigit = rest := by
  have hs : rest.takeWhile Char.isDigit = [] ∧ rest.dropWhile Char.isDigit = rest := by
    cases rest with
    | nil => exact ⟨rfl, rfl⟩
    | cons c rest =>
      have hc := hr c rfl
      simp [hc]
  rw [takeWhile_append_of_pos hds, dropWhile_append_of_pos hds, hs.1, hs.2, append_nil]
  exact ⟨rfl, rfl⟩

theorem scanExp_text (ht : t.Valid) (hrs : Boundary rest) :
    scanExp (t.exp ++ rest) = (t.exp, rest) := by
  rcases ht.exp with hnil | ⟨e, sign, ds, hexp, he, hsg, hne, hds⟩
  · rw [hnil, nil_append]
    cases rest with
    | nil => rfl
    | cons c rest =>
      obtain ⟨-, -, hc, hc'⟩ := hrs c rfl
      simp [scanExp, hc, hc']
  · rw [hexp, cons_append, append_assoc]
    have hsc : scanSign (sign ++ (ds ++ rest)) = (sign, ds ++ rest) := by
      rcases hsg with rfl | rfl | rfl
      · cases ds with
        | nil => exact absurd rfl hne
        | cons d ds =>
          have hd := hds d mem_cons_self
          rw [nil_append, cons_append]
          unfold scanSign
          split
          · next heq =>
            cases heq
            cases hd
          · next heq =>
            cases heq
            cases hd
          · rfl
      · rfl
      · rfl
    obtain ⟨htk, hdr⟩ := takeWhile_digits hds fun c hc => (hrs c hc).1
    simp [scanExp, hsc, htk, hdr, if_pos (And.intro he hne)]

theorem head?_exp (ht : t.Valid) (hr : Boundary rest) :
    ∀ c ∈ (t.exp ++ rest).head?, c.isDigit = false ∧ c ≠ '.' := by
  intro c hc
  rcases ht.exp with hn | ⟨e, sign, ds, hexp, he, -⟩
  · rw [hn, nil_append] at hc
    exact ⟨(hr c hc).1, (hr c hc).2.1⟩
  · rw [hexp] at hc
    cases hc
    rcases he with rfl | rfl <;> decide

theorem scanFrac_text (ht : t.Valid) (hr : Boundary rest) :
    scanFrac (t.frac ++ (t.exp ++ rest)) = (t.frac, t.exp ++ rest) := by
  have hh := head?_exp ht hr
  rcases ht.frac with hn | ⟨ds, hf, hne, hds⟩
  · rw [hn, nil_append]
    unfold scanFrac
    split
    · next rest' heq =>
      rw [heq] at hh
      exact absurd rfl (hh '.' rfl).2
    · rfl
  · obtain ⟨htk, hd⟩ := takeWhile_digits hds fun c hc => (hh c hc).1
    rw [hf, cons_append, scanFrac, htk, hd, if_neg hne]

theorem head?_frac (ht : t.Valid) (hr : Boundary rest) :
    ∀ c ∈ (t.frac ++ (t.exp ++ rest)).head?, c.isDigit = false := by
  intro c hc
  rcases ht.frac with hn | ⟨ds, hf, -⟩
  · rw [hn, nil_append] at hc
    exact (head?_exp ht hr c hc).1
  · rw [hf] at hc
    cases hc
    rfl

theorem scanWhole_text (ht : t.Valid) (hr : Boundary rest) :
    scanWhole (t.whole ++ (t.frac ++ (t.exp ++ rest))) =
      some (t.whole, t.frac ++ (t.exp ++ rest)) := by
  rcases ht.whole with hz | ⟨d, ds, hw, hd, hne, hds⟩
  · rw [hz]
    rfl
  · obtain ⟨htk, hdr⟩ := takeWhile_digits hds (head?_frac ht hr)
    rw [hw, cons_append, scanWhole, if_neg hne, if_pos hd, htk, hdr]

theorem whole_cases (ht : t.Valid) : ∃ d ds, t.whole = d :: ds ∧ d.isDigit := by
  rcases ht.whole with hz | ⟨d, ds, hw, hd, -⟩
  · exact ⟨'0', [], hz, rfl⟩
  · exact ⟨d, ds, hw, hd⟩

/-- **A number is scanned to its end.** -/
theorem scanNumber_text (ht : t.Valid) (hr : Boundary rest) :
    scanNumber (t.text ++ rest) = some (t, rest) := by
  have hs : t.text ++ rest =
      (if t.negative then ['-'] else []) ++ (t.whole ++ (t.frac ++ (t.exp ++ rest))) := by
    simp [NumberText.text]
  have hu : (match t.text ++ rest with
      | '-' :: rest => (true, rest)
      | cs => (false, cs)) = (t.negative, t.whole ++ (t.frac ++ (t.exp ++ rest))) := by
    rw [hs]
    cases t.negative with
    | true => rfl
    | false =>
      obtain ⟨d, ds, hw, hd⟩ := whole_cases ht
      simp only [Bool.false_eq_true, if_false, nil_append, hw, cons_append]
      split
      · next heq =>
        cases heq
        cases hd
      · rfl
  simp [scanNumber, hu, scanWhole_text ht hr, scanFrac_text ht hr, scanExp_text ht hr]

/-! ### Texts -/

/-- The value of a hexadecimal digit. -/
def hexValue (c : Char) : Option ℕ :=
  if c.isDigit then some (c.toNat - 48)
  else if 'a' ≤ c ∧ c ≤ 'f' then some (c.toNat - 87)
  else if 'A' ≤ c ∧ c ≤ 'F' then some (c.toNat - 55)
  else none

/-- The code unit of four hexadecimal digits. -/
def hexUnit (a b c d : Char) : Option ℕ := do
  let a ← hexValue a
  let b ← hexValue b
  let c ← hexValue c
  let d ← hexValue d
  pure (((a * 16 + b) * 16 + c) * 16 + d)

/-- The character of an escape of two characters. -/
def shortEscape : Char → Option Char
  | '"' => some '"'
  | '\\' => some '\\'
  | '/' => some '/'
  | 'b' => some '\x08'
  | 'f' => some '\x0c'
  | 'n' => some '\n'
  | 'r' => some '\r'
  | 't' => some '\t'
  | _ => none

/-- The characters up to the closing quote, and the rest. -/
def scanText : List Char → Option (List Char × List Char)
  | [] => none
  | c :: rest =>
      if c = '"' then some ([], rest)
      else if c = '\\' then
        match rest with
        | 'u' :: h₁ :: h₂ :: h₃ :: h₄ :: rest =>
            match hexUnit h₁ h₂ h₃ h₄ with
            | none => none
            | some high =>
                if 0xd800 ≤ high ∧ high < 0xdc00 then
                  -- the first half of a pair: the second half must follow
                  match rest with
                  | '\\' :: 'u' :: l₁ :: l₂ :: l₃ :: l₄ :: rest =>
                      match hexUnit l₁ l₂ l₃ l₄ with
                      | none => none
                      | some low =>
                          if 0xdc00 ≤ low ∧ low < 0xe000 then
                            (scanText rest).map fun (text, rest) =>
                              (Char.ofNat (0x10000 + (high - 0xd800) * 0x400 + (low - 0xdc00))
                                :: text, rest)
                          else none
                  | _ => none
                else if 0xdc00 ≤ high ∧ high < 0xe000 then none
                else (scanText rest).map fun (text, rest) => (Char.ofNat high :: text, rest)
        | e :: rest =>
            match shortEscape e with
            | none => none
            | some c => (scanText rest).map fun (text, rest) => (c :: text, rest)
        | [] => none
      else if c.toNat < 32 then none
      else (scanText rest).map fun (text, rest) => (c :: text, rest)
  termination_by structural cs => cs

/-- The text of a quoted string. -/
def quote (s : String) : List Char :=
  '"' :: (s.toList.flatMap (fun c => (Json.escapeChar c).toList) ++ ['"'])

@[simp] theorem scanText_quote (rest : List Char) : scanText ('"' :: rest) = some ([], rest) := by
  rw [scanText.eq_def]
  simp

theorem scanText_plain (hl : 32 ≤ c.toNat) (hq : c ≠ '"') (hs : c ≠ '\\') (rest : List Char) :
    scanText (c :: rest) = (scanText rest).map fun (text, rest) => (c :: text, rest) := by
  rw [scanText.eq_def]
  simp [hq, hs, Nat.not_lt.2 hl]

theorem scanText_short {e : Char} (h : shortEscape e = some c) (rest : List Char) :
    scanText ('\\' :: e :: rest) = (scanText rest).map fun (text, rest) => (c :: text, rest) := by
  have hu : e ≠ 'u' := by
    rintro rfl
    cases h
  rw [scanText.eq_def]
  simp [hu, h]

variable {d : Char} {s : String}

theorem scanText_unit {a b : Char} {n : ℕ} (h : hexUnit a b c d = some n) (hn : n < 0xd800)
    (rest : List Char) :
    scanText ('\\' :: 'u' :: a :: b :: c :: d :: rest) =
      (scanText rest).map fun (text, rest) => (Char.ofNat n :: text, rest) := by
  have hh : ¬ (0xd800 ≤ n ∧ n < 0xdc00) := by omega
  have hl : ¬ (0xdc00 ≤ n ∧ n < 0xe000) := by omega
  rw [scanText.eq_def]
  simp [h, hh, hl]

theorem escapeChar_plain (hl : 32 ≤ c.toNat) (hq : c ≠ '"') (hs : c ≠ '\\') :
    (Json.escapeChar c).toList = [c] := by
  have hq' : c.toNat ≠ 34 := fun h => hq (Char.toNat_inj.1 h)
  have hs' : c.toNat ≠ 92 := fun h => hs (Char.toNat_inj.1 h)
  unfold Json.escapeChar
  split <;> first | omega | skip
  rw [if_neg (by omega)]
  simp

theorem escapeChar_cases (c : Char) :
    (Json.escapeChar c).toList = [c] ∧ 32 ≤ c.toNat ∧ c ≠ '"' ∧ c ≠ '\\' ∨
    (∃ e, (Json.escapeChar c).toList = ['\\', e] ∧ shortEscape e = some c) ∨
    ∃ a b, (Json.escapeChar c).toList = ['\\', 'u', '0', '0', a, b] ∧
      hexUnit '0' '0' a b = some c.toNat ∧ c.toNat < 32 ∧ a ≠ '\n' ∧ b ≠ '\n' := by
  by_cases hl : c.toNat < 32
  · obtain ⟨n, hn⟩ : ∃ n, c.toNat = n := ⟨_, rfl⟩
    have hc : c = Char.ofNat n := by rw [← hn, Char.ofNat_toNat]
    rw [hn] at hl
    subst hc
    refine .inr ?_
    -- the control characters, one by one
    interval_cases n
    case «8» => exact .inl ⟨'b', by decide, by decide⟩
    case «9» => exact .inl ⟨'t', by decide, by decide⟩
    case «10» => exact .inl ⟨'n', by decide, by decide⟩
    case «12» => exact .inl ⟨'f', by decide, by decide⟩
    case «13» => exact .inl ⟨'r', by decide, by decide⟩
    all_goals exact .inr ⟨_, _, rfl, by decide⟩
  · by_cases hq : c = '"'
    · subst hq
      exact .inr (.inl ⟨'"', by decide, by decide⟩)
    · by_cases hs : c = '\\'
      · subst hs
        exact .inr (.inl ⟨'\\', by decide, by decide⟩)
      · have hge : 32 ≤ c.toNat := by omega
        exact .inl ⟨escapeChar_plain hge hq hs, hge, hq, hs⟩

theorem scanText_escapeChar (c : Char) (rest : List Char) :
    scanText ((Json.escapeChar c).toList ++ rest) =
      (scanText rest).map fun (text, rest) => (c :: text, rest) := by
  rcases escapeChar_cases c with ⟨h, hl, hq, hsl⟩ | ⟨e, h, he⟩ | ⟨a, b, h, hu, hl, -⟩
  · rw [h]
    exact scanText_plain hl hq hsl rest
  · rw [h]
    exact scanText_short he rest
  · rw [h]
    have hs := scanText_unit hu (by omega) rest
    rw [Char.ofNat_toNat] at hs
    exact hs

theorem scanText_escaped (cs rest : List Char) :
    scanText (cs.flatMap (fun c => (Json.escapeChar c).toList) ++ '"' :: rest) =
      some (cs, rest) := by
  induction cs with
  | nil => exact scanText_quote rest
  | cons c cs ih =>
    rw [flatMap_cons, append_assoc, scanText_escapeChar, ih]
    rfl

theorem newline_notMem_escapeChar (c : Char) : '\n' ∉ (Json.escapeChar c).toList := by
  rcases escapeChar_cases c with ⟨h, hl, -⟩ | ⟨e, h, he⟩ | ⟨a, b, h, -, -, ha, hb⟩
  · rw [h, mem_singleton]
    rintro rfl
    exact absurd hl (by decide)
  · rw [h]
    intro hm
    rcases mem_cons.1 hm with hbad | hm
    · exact absurd hbad (by decide)
    · rw [mem_singleton] at hm
      subst hm
      cases he
  · simp [h, ha.symm, hb.symm]

theorem newline_notMem_quote (s : String) : '\n' ∉ quote s := by
  simp only [quote, mem_cons, mem_append, mem_flatMap, not_mem_nil, or_false]
  rintro (h | ⟨c, -, hc⟩ | h)
  · exact absurd h (by decide)
  · exact newline_notMem_escapeChar c hc
  · exact absurd h (by decide)

/-! ### Values -/

/-- A value without parts. -/
inductive Scalar (φ : Type)
  | null
  | bool (b : Bool)
  | int (n : ℤ)
  | float (x : φ)
  | str (s : String)

/-- A JSON value; the members of an object keep their order. -/
inductive Value (φ : Type)
  | scalar (s : Scalar φ)
  | arr (items : List (Value φ))
  | obj (fields : List (String × Value φ))

variable {φ : Type} (F : FloatFormat φ)

def dumpScalar : Scalar φ → List Char
  | .null => ['n', 'u', 'l', 'l']
  | .bool true => ['t', 'r', 'u', 'e']
  | .bool false => ['f', 'a', 'l', 's', 'e']
  | .int n => (intText n).text
  | .float x => (F.repr x).text
  | .str s => quote s

mutual

/-- The text of a value. -/
def dump : Value φ → List Char
  | .scalar s => dumpScalar F s
  | .arr [] => ['[', ']']
  | .arr (item :: items) => '[' :: (dump item ++ (dumpItems items ++ [']']))
  | .obj [] => ['\x7b', '\x7d']
  | .obj ((key, value) :: fields) =>
      '\x7b' :: (quote key ++ (':' :: ' ' :: (dump value ++ (dumpFields fields ++ ['\x7d']))))

/-- The items after the first. -/
def dumpItems : List (Value φ) → List Char
  | [] => []
  | item :: items => ',' :: ' ' :: (dump item ++ dumpItems items)

/-- The members after the first. -/
def dumpFields : List (String × Value φ) → List Char
  | [] => []
  | (key, value) :: fields =>
      ',' :: ' ' :: (quote key ++ (':' :: ' ' :: (dump value ++ dumpFields fields)))

end

/-- The rest of a text after its leading blanks. -/
def skipBlanks (cs : List Char) : List Char :=
  cs.dropWhile fun c => c = ' ' || c = '\t' || c = '\n' || c = '\r'

/-- A number, an integer unless it has a fraction or an exponent. -/
def parseNumber (cs : List Char) : Option (Value φ × List Char) := do
  let (t, rest) ← scanNumber cs
  if t.isFloat then
    let x ← F.read t
    pure (.scalar (.float x), rest)
  else
    pure (.scalar (.int (readInt t)), rest)

mutual

/-- The value at the front of a text, and the rest. -/
def parseValue : ℕ → List Char → Option (Value φ × List Char)
  | 0, _ => none
  | _ + 1, '"' :: rest => (scanText rest).map fun (text, rest) =>
      (.scalar (.str (String.ofList text)), rest)
  | fuel + 1, '[' :: rest =>
      match skipBlanks rest with
      | ']' :: rest => some (.arr [], rest)
      | rest => (parseItems fuel rest).map fun (items, rest) => (.arr items, rest)
  | fuel + 1, '\x7b' :: rest =>
      match skipBlanks rest with
      | '\x7d' :: rest => some (.obj [], rest)
      | rest => (parseFields fuel rest).bind fun (fields, rest) =>
          -- a repeated key is refused
          if (fields.map Prod.fst).Nodup then some (.obj fields, rest) else none
  | _ + 1, 'n' :: 'u' :: 'l' :: 'l' :: rest => some (.scalar .null, rest)
  | _ + 1, 't' :: 'r' :: 'u' :: 'e' :: rest => some (.scalar (.bool true), rest)
  | _ + 1, 'f' :: 'a' :: 'l' :: 's' :: 'e' :: rest => some (.scalar (.bool false), rest)
  | _ + 1, cs => parseNumber F cs

/-- The items of an array up to its end. -/
def parseItems : ℕ → List Char → Option (List (Value φ) × List Char)
  | 0, _ => none
  | fuel + 1, cs =>
      (parseValue fuel cs).bind fun (item, rest) =>
        match skipBlanks rest with
        | ',' :: rest => (parseItems fuel (skipBlanks rest)).map fun (items, rest) =>
            (item :: items, rest)
        | ']' :: rest => some ([item], rest)
        | _ => none

/-- The members of an object up to its end. -/
def parseFields : ℕ → List Char → Option (List (String × Value φ) × List Char)
  | 0, _ => none
  | fuel + 1, '"' :: cs =>
      (scanText cs).bind fun (key, rest) =>
        match skipBlanks rest with
        | ':' :: rest =>
            (parseValue fuel (skipBlanks rest)).bind fun (value, rest) =>
              match skipBlanks rest with
              | ',' :: rest => (parseFields fuel (skipBlanks rest)).map fun (fields, rest) =>
                  ((String.ofList key, value) :: fields, rest)
              | '\x7d' :: rest => some ([(String.ofList key, value)], rest)
              | _ => none
        | _ => none
  | _ + 1, _ => none

end

/-- The value of a whole text. -/
def loads (cs : List Char) : Option (Value φ) :=
  (parseValue F (cs.length + 1) (skipBlanks cs)).bind fun (value, rest) =>
    if skipBlanks rest = [] then some value else none

mutual

/-- No object within the value repeats a key. -/
def Value.Distinct : Value φ → Prop
  | .scalar _ => True
  | .arr items => DistinctItems items
  | .obj fields => (fields.map Prod.fst).Nodup ∧ DistinctFields fields

def DistinctItems : List (Value φ) → Prop
  | [] => True
  | item :: items => item.Distinct ∧ DistinctItems items

def DistinctFields : List (String × Value φ) → Prop
  | [] => True
  | (_, value) :: fields => value.Distinct ∧ DistinctFields fields

end

/-! ### Reading what was written -/

mutual

/-- The number of calls that reading the value takes. -/
def Value.size : Value φ → ℕ
  | .scalar _ => 1
  | .arr items => 1 + sizeItems items
  | .obj fields => 1 + sizeFields fields

def sizeItems : List (Value φ) → ℕ
  | [] => 0
  | item :: items => 1 + item.size + sizeItems items

def sizeFields : List (String × Value φ) → ℕ
  | [] => 0
  | (_, value) :: fields => 1 + value.size + sizeFields fields

end

theorem Value.size_pos (v : Value φ) : 0 < v.size := by
  cases v <;> simp only [Value.size] <;> omega

/-- The characters a value starts with. -/
def Opens (c : Char) : Prop :=
  c = '"' ∨ c = '[' ∨ c = '\x7b' ∨ c = 'n' ∨ c = 't' ∨ c = 'f' ∨ c = '-' ∨ c.isDigit = true

theorem NumberText.Valid.opens (ht : t.Valid) :
    ∃ c cs, t.text = c :: cs ∧ (c = '-' ∨ c.isDigit) := by
  obtain ⟨d, ds, hw, hd⟩ := whole_cases ht
  cases hn : t.negative with
  | true => exact ⟨'-', t.whole ++ (t.frac ++ t.exp), by simp [NumberText.text, hn], .inl rfl⟩
  | false => exact ⟨d, ds ++ (t.frac ++ t.exp), by simp [NumberText.text, hn, hw], .inr hd⟩

theorem dump_opens (v : Value φ) : ∃ c cs, dump F v = c :: cs ∧ Opens c := by
  cases v with
  | scalar s =>
    simp only [dump]
    cases s with
    | null | str s => exact ⟨_, _, rfl, by simp [Opens]⟩
    | bool b => cases b <;> exact ⟨_, _, rfl, by simp [Opens]⟩
    | int n =>
      obtain ⟨c, cs, hc, ho⟩ := (valid_intText n).opens
      exact ⟨c, cs, hc, by rcases ho with h | h <;> simp [Opens, h]⟩
    | float x =>
      obtain ⟨c, cs, hc, ho⟩ := (F.valid_repr x).opens
      exact ⟨c, cs, hc, by rcases ho with h | h <;> simp [Opens, h]⟩
  | arr i => cases i <;> simp only [dump] <;> exact ⟨_, _, rfl, by simp [Opens]⟩
  | obj f => cases f <;> simp only [dump] <;> exact ⟨_, _, rfl, by simp [Opens]⟩

theorem Opens.ne (h : Opens c) (hd : ¬ Opens d) : c ≠ d := by
  rintro rfl
  exact hd h

theorem skipBlanks_of_opens (h : Opens c) (cs : List Char) : skipBlanks (c :: cs) = c :: cs := by
  have hb : ∀ d ∈ [' ', '\t', '\n', '\r'], c ≠ d := by
    intro d hd
    refine h.ne ?_
    simp only [mem_cons, not_mem_nil, or_false] at hd
    rcases hd with rfl | rfl | rfl | rfl <;> simp [Opens, Char.isDigit]
  simp only [mem_cons, not_mem_nil, or_false, forall_eq_or_imp, forall_eq] at hb
  simp [skipBlanks, hb.1, hb.2.1, hb.2.2.1, hb.2.2.2]

@[simp] theorem skipBlanks_nil : skipBlanks [] = [] := rfl

@[simp] theorem skipBlanks_blank (cs : List Char) : skipBlanks (' ' :: cs) = skipBlanks cs := rfl

@[simp] theorem skipBlanks_comma (cs : List Char) : skipBlanks (',' :: cs) = ',' :: cs := rfl

@[simp] theorem skipBlanks_colon (cs : List Char) : skipBlanks (':' :: cs) = ':' :: cs := rfl

@[simp] theorem skipBlanks_bracket (cs : List Char) : skipBlanks (']' :: cs) = ']' :: cs := rfl

@[simp] theorem skipBlanks_brace (cs : List Char) : skipBlanks ('\x7d' :: cs) = '\x7d' :: cs := rfl

@[simp] theorem skipBlanks_mark (cs : List Char) : skipBlanks ('"' :: cs) = '"' :: cs := rfl

@[simp] theorem skipBlanks_dump (v : Value φ) (rest : List Char) :
    skipBlanks (dump F v ++ rest) = dump F v ++ rest := by
  obtain ⟨c, cs, hc, ho⟩ := dump_opens F v
  rw [hc, cons_append, skipBlanks_of_opens ho]

theorem quote_append (s : String) (rest : List Char) :
    quote s ++ rest =
      '"' :: (s.toList.flatMap (fun c => (Json.escapeChar c).toList) ++ '"' :: rest) := by
  simp [quote]

theorem parseValue_number (ht : t.Valid) (fuel : ℕ) :
    parseValue F (fuel + 1) (t.text ++ rest) = parseNumber F (t.text ++ rest) := by
  obtain ⟨c, cs, hc, ho⟩ := ht.opens
  rw [hc, cons_append]
  have hne : ∀ d : Char, d ≠ '-' → d.isDigit = false → c ≠ d := by
    rintro d hd hdig rfl
    rcases ho with h | h
    · exact hd h
    · rw [hdig] at h
      cases h
  rw [parseValue.eq_def]
  split
  · next heq => cases heq
  · next heq => exact absurd (List.cons.inj heq).1 (hne '"' (by decide) rfl)
  · next heq => exact absurd (List.cons.inj heq).1 (hne '[' (by decide) rfl)
  · next heq => exact absurd (List.cons.inj heq).1 (hne '\x7b' (by decide) rfl)
  · next heq => exact absurd (List.cons.inj heq).1 (hne 'n' (by decide) rfl)
  · next heq => exact absurd (List.cons.inj heq).1 (hne 't' (by decide) rfl)
  · next heq => exact absurd (List.cons.inj heq).1 (hne 'f' (by decide) rfl)
  · rfl

theorem parseValue_scalar (s : Scalar φ) (fuel : ℕ) (hr : Boundary rest) :
    parseValue F (fuel + 1) (dumpScalar F s ++ rest) = some (.scalar s, rest) := by
  cases s with
  | null => rfl
  | bool b => cases b <;> rfl
  | int n =>
    simp only [dumpScalar]
    rw [parseValue_number F (valid_intText n), parseNumber, scanNumber_text (valid_intText n) hr]
    simp [NumberText.isFloat, show (intText n).frac = [] from rfl,
      show (intText n).exp = [] from rfl]
  | float x =>
    simp only [dumpScalar]
    rw [parseValue_number F (F.valid_repr x), parseNumber, scanNumber_text (F.valid_repr x) hr]
    simp [F.isFloat_repr, F.read_repr]
  | str s =>
    simp only [dumpScalar, quote_append]
    rw [parseValue, scanText_escaped]
    simp

/-- What reading with some fuel achieves. -/
structure Reads (fuel : ℕ) : Prop where
  value : ∀ v : Value φ, v.Distinct → v.size ≤ fuel → ∀ rest, Boundary rest →
    parseValue F fuel (dump F v ++ rest) = some (v, rest)
  items : ∀ (item : Value φ) (items : List (Value φ)), item.Distinct → DistinctItems items →
    sizeItems (item :: items) ≤ fuel → ∀ rest,
    parseItems F fuel (dump F item ++ (dumpItems F items ++ ']' :: rest)) =
      some (item :: items, rest)
  fields : ∀ (key : String) (value : Value φ) (fields : List (String × Value φ)),
    value.Distinct → DistinctFields fields → sizeFields ((key, value) :: fields) ≤ fuel → ∀ rest,
    parseFields F fuel (quote key ++
        (':' :: ' ' :: (dump F value ++ (dumpFields F fields ++ '\x7d' :: rest)))) =
      some ((key, value) :: fields, rest)

theorem boundary_dumpItems (i : List (Value φ)) (rest : List Char) :
    Boundary (dumpItems F i ++ ']' :: rest) := by
  cases i with
  | nil | cons =>
    simp only [dumpItems, List.nil_append, List.cons_append]
    exact boundary_cons (by decide)

theorem boundary_dumpFields (f : List (String × Value φ)) (rest : List Char) :
    Boundary (dumpFields F f ++ '\x7d' :: rest) := by
  cases f with
  | nil | cons =>
    simp only [dumpFields, nil_append, cons_append]
    exact boundary_cons (by decide)

variable {F}

theorem Reads.items_succ (h : Reads F fuel) (item : Value φ) (i : List (Value φ))
    (hitem : item.Distinct) (hi : DistinctItems i)
    (hf : sizeItems (item :: i) ≤ fuel + 1) (rest : List Char) :
    parseItems F (fuel + 1) (dump F item ++ (dumpItems F i ++ ']' :: rest)) =
      some (item :: i, rest) := by
  simp only [sizeItems] at hf
  rw [parseItems, h.value item hitem (by omega) _ (boundary_dumpItems F i rest), Option.bind_some]
  cases i with
  | nil => simp [dumpItems]
  | cons next i =>
    have hp := item.size_pos
    simp only [DistinctItems] at hi
    have ht := h.items next i hi.1 hi.2 (by omega) rest
    simp [dumpItems, ht]

theorem Reads.fields_succ (h : Reads F fuel) (key : String) (vl : Value φ)
    (f : List (String × Value φ)) (hv : vl.Distinct) (hfld : DistinctFields f)
    (hf : sizeFields ((key, vl) :: f) ≤ fuel + 1) (rest : List Char) :
    parseFields F (fuel + 1) (quote key ++
        (':' :: ' ' :: (dump F vl ++ (dumpFields F f ++ '\x7d' :: rest)))) =
      some ((key, vl) :: f, rest) := by
  simp only [sizeFields] at hf
  have hr := h.value vl hv (by omega) _ (boundary_dumpFields F f rest)
  rw [quote_append, parseFields, scanText_escaped, Option.bind_some]
  simp only [skipBlanks_colon, skipBlanks_blank, skipBlanks_dump, hr, Option.bind_some,
    String.ofList_toList]
  cases f with
  | nil => simp [dumpFields]
  | cons fl f =>
    obtain ⟨key', vl'⟩ := fl
    have hp := vl.size_pos
    simp only [DistinctFields] at hfld
    have ht := h.fields key' vl' f hfld.1 hfld.2 (by omega) rest
    simp only [dumpFields, cons_append, append_assoc, skipBlanks_comma, skipBlanks_blank]
    rw [show skipBlanks (quote key' ++ _) = quote key' ++ _ from by
      rw [quote_append, skipBlanks_mark]]
    rw [ht]
    rfl

theorem Reads.value_succ (h : Reads F fuel) (v : Value φ) (hv : v.Distinct)
    (hf : v.size ≤ fuel + 1) (rest : List Char) (hrs : Boundary rest) :
    parseValue F (fuel + 1) (dump F v ++ rest) = some (v, rest) := by
  cases v with
  | scalar s =>
    simp only [dump]
    exact parseValue_scalar F s fuel hrs
  | arr i =>
    cases i with
    | nil =>
      simp only [dump]
      rfl
    | cons item i =>
      simp only [Value.size] at hf
      simp only [Value.Distinct, DistinctItems] at hv
      have hr := h.items item i hv.1 hv.2 (by omega) rest
      obtain ⟨c, cs, hc, ho⟩ := dump_opens F item
      have hne : c ≠ ']' := ho.ne (by simp [Opens, Char.isDigit])
      simp only [dump, cons_append, append_assoc, nil_append, parseValue, skipBlanks_dump]
      rw [hc, cons_append] at hr ⊢
      split
      · next heq =>
        cases heq
        exact absurd rfl hne
      · rw [hr]
        rfl
  | obj f =>
    cases f with
    | nil =>
      simp only [dump]
      rfl
    | cons fl f =>
      obtain ⟨key, vl⟩ := fl
      simp only [Value.size] at hf
      simp only [Value.Distinct, DistinctFields] at hv
      have hr := h.fields key vl f hv.2.1 hv.2.2 (by omega) rest
      simp only [dump, cons_append, append_assoc, nil_append, parseValue]
      rw [quote_append] at hr ⊢
      rw [skipBlanks_mark]
      split
      · next heq => cases heq
      · rw [hr, Option.bind_some, if_pos hv.1]

variable (F)

/-- **With fuel for its size, a written value is read.** -/
theorem reads (fuel : ℕ) : Reads F fuel := by
  induction fuel with
  | zero =>
    refine ⟨fun v _ hf => ?_, fun item items _ _ hf => ?_, fun key v fields _ _ hf => ?_⟩
    · have := v.size_pos
      omega
    · simp only [sizeItems] at hf
      omega
    · simp only [sizeFields] at hf
      omega
  | succ fuel ih => exact ⟨ih.value_succ, ih.items_succ, ih.fields_succ⟩

theorem dumpScalar_length_pos (s : Scalar φ) : 0 < (dumpScalar F s).length := by
  obtain ⟨c, cs, hc, -⟩ := dump_opens F (.scalar s)
  simp only [dump] at hc
  rw [hc]
  exact Nat.succ_pos _

mutual

theorem Value.size_le_length : (v : Value φ) → v.size ≤ (dump F v).length
  | .scalar s => by
    have := dumpScalar_length_pos F s
    simp only [Value.size, dump]
    omega
  | .arr [] => by simp [Value.size, sizeItems, dump]
  | .arr (item :: items) => by
    have hitem := item.size_le_length
    have hi := sizeItems_le_length items
    simp only [Value.size, sizeItems, dump, length_cons, length_append, length_nil]
    omega
  | .obj [] => by simp [Value.size, sizeFields, dump]
  | .obj ((key, value) :: fields) => by
    have hv := value.size_le_length
    have hf := sizeFields_le_length fields
    simp only [Value.size, sizeFields, dump, length_cons, length_append, length_nil]
    omega

theorem sizeItems_le_length : (items : List (Value φ)) →
    sizeItems items ≤ (dumpItems F items).length
  | [] => by simp [sizeItems]
  | item :: items => by
    have hitem := item.size_le_length
    have hi := sizeItems_le_length items
    simp only [sizeItems, dumpItems, length_cons, length_append]
    omega

theorem sizeFields_le_length : (fields : List (String × Value φ)) →
    sizeFields fields ≤ (dumpFields F fields).length
  | [] => by simp [sizeFields]
  | (key, value) :: fields => by
    have hv := value.size_le_length
    have hf := sizeFields_le_length fields
    simp only [sizeFields, dumpFields, length_cons, length_append]
    omega

end

variable {v : Value φ}

/-- **What was written is read back.** -/
theorem loads_dump (hv : v.Distinct) : loads F (dump F v) = some v := by
  have hsz := v.size_le_length F
  have hr := (reads F ((dump F v).length + 1)).value v hv (by omega) [] (by simp [Boundary])
  have hs := skipBlanks_dump F v []
  rw [append_nil] at hr hs
  rw [loads, hs, hr]
  rfl

/-! ### One line a value -/

theorem NumberText.Valid.newline_notMem (ht : t.Valid) : '\n' ∉ t.text := by
  have hdig : ∀ ds : List Char, (∀ c ∈ ds, c.isDigit) → '\n' ∉ ds := fun ds h hmem =>
    absurd (h _ hmem) (by decide)
  simp only [NumberText.text, mem_append, not_or]
  refine ⟨?_, ?_, ?_, ?_⟩
  · cases t.negative <;> decide
  · rcases ht.whole with hz | ⟨d, ds, hw, hd, -, hds⟩
    · rw [hz]
      decide
    · rw [hw]
      refine hdig _ fun c hc => ?_
      rcases mem_cons.1 hc with rfl | hc
      · exact hd
      · exact hds c hc
  · rcases ht.frac with hnil | ⟨ds, hf, -, hds⟩
    · rw [hnil]
      exact not_mem_nil
    · rw [hf, mem_cons, not_or]
      exact ⟨by decide, hdig ds hds⟩
  · rcases ht.exp with hnil | ⟨e, sign, ds, hexp, he, hs, -, hds⟩
    · rw [hnil]
      exact not_mem_nil
    · rw [hexp, mem_cons, mem_append, not_or, not_or]
      refine ⟨?_, ?_, hdig ds hds⟩
      · rcases he with rfl | rfl <;> decide
      · rcases hs with rfl | rfl | rfl <;> decide

theorem newline_notMem_dumpScalar (s : Scalar φ) : '\n' ∉ dumpScalar F s := by
  cases s with
  | null => simp [dumpScalar]
  | bool b => cases b <;> simp [dumpScalar]
  | int n => exact (valid_intText n).newline_notMem
  | float x => exact (F.valid_repr x).newline_notMem
  | str s => exact newline_notMem_quote s

mutual

/-- **The text of a value is one line.** -/
theorem newline_notMem_dump : (v : Value φ) → '\n' ∉ dump F v
  | .scalar s => by
    simp only [dump]
    exact newline_notMem_dumpScalar F s
  | .arr [] => by simp [dump]
  | .arr (item :: items) => by
    have hitem := newline_notMem_dump item
    have hi := newline_notMem_dumpItems items
    simp [dump, hitem, hi]
  | .obj [] => by simp [dump]
  | .obj ((key, value) :: fields) => by
    have hk := newline_notMem_quote key
    have hv := newline_notMem_dump value
    have hf := newline_notMem_dumpFields fields
    simp [dump, hk, hv, hf]

theorem newline_notMem_dumpItems : (items : List (Value φ)) → '\n' ∉ dumpItems F items
  | [] => by simp [dumpItems]
  | item :: items => by
    have hitem := newline_notMem_dump item
    have hi := newline_notMem_dumpItems items
    simp [dumpItems, hitem, hi]

theorem newline_notMem_dumpFields : (fields : List (String × Value φ)) → '\n' ∉ dumpFields F fields
  | [] => by simp [dumpFields]
  | (key, value) :: fields => by
    have hk := newline_notMem_quote key
    have hv := newline_notMem_dump value
    have hf := newline_notMem_dumpFields fields
    simp [dumpFields, hk, hv, hf]

end

/-! ### Two equalities -/

mutual

/-- Equality of values, given one of scalars: arrays item by item, objects with the same keys in
any order. -/
def valueEq (eq : Scalar φ → Scalar φ → Bool) : Value φ → Value φ → Bool
  | .scalar a, .scalar b => eq a b
  | .arr as, .arr bs => itemsEq eq as bs
  | .obj fs, .obj gs => fs.length == gs.length && fieldsEq eq fs gs
  | _, _ => false

def itemsEq (eq : Scalar φ → Scalar φ → Bool) : List (Value φ) → List (Value φ) → Bool
  | [], [] => true
  | a :: as, b :: bs => valueEq eq a b && itemsEq eq as bs
  | _, _ => false

/-- Every member of the first object is in the second. -/
def fieldsEq (eq : Scalar φ → Scalar φ → Bool) :
    List (String × Value φ) → List (String × Value φ) → Bool
  | [], _ => true
  | (key, value) :: fs, gs =>
      (match gs.lookup key with
        | some value' => valueEq eq value value'
        | none => false) && fieldsEq eq fs gs

end

mutual

variable {eq eq' : Scalar φ → Scalar φ → Bool}

theorem valueEq_mono (h : ∀ a b, eq a b → eq' a b) :
    (v w : Value φ) → valueEq eq v w → valueEq eq' v w
  | .scalar a, .scalar b => by
    simp only [valueEq]
    exact h a b
  | .arr as, .arr bs => by
    simp only [valueEq]
    exact itemsEq_mono h as bs
  | .scalar _, .arr _ | .scalar _, .obj _ | .arr _, .scalar _ | .arr _, .obj _ | .obj _, .scalar _
  | .obj _, .arr _ => by simp [valueEq]
  | .obj fs, .obj gs => by
    simp only [valueEq, Bool.and_eq_true]
    exact fun hf => ⟨hf.1, fieldsEq_mono h fs gs hf.2⟩

theorem itemsEq_mono (h : ∀ a b, eq a b → eq' a b) :
    (as bs : List (Value φ)) → itemsEq eq as bs → itemsEq eq' as bs
  | [], [] | [], _ :: _ | _ :: _, [] => by simp [itemsEq]
  | a :: as, b :: bs => by
    simp only [itemsEq, Bool.and_eq_true]
    exact fun hi => ⟨valueEq_mono h a b hi.1, itemsEq_mono h as bs hi.2⟩

theorem fieldsEq_mono (h : ∀ a b, eq a b → eq' a b) :
    (fs gs : List (String × Value φ)) → fieldsEq eq fs gs → fieldsEq eq' fs gs
  | [], _ => by simp [fieldsEq]
  | (key, value) :: fs, gs => by
    simp only [fieldsEq, Bool.and_eq_true]
    rintro ⟨hv, hf⟩
    refine ⟨?_, fieldsEq_mono h fs gs hf⟩
    cases hg : gs.lookup key with
    | none => simp [hg] at hv
    | some value' =>
      simp only [hg] at hv ⊢
      exact valueEq_mono h value value' hv

end

def Scalar.number : Scalar φ → Option ℚ
  | .int n => some n
  | .float x => some (F.value x)
  | _ => none

/-- The number Python takes a scalar for: truth values are numbers as well. -/
def Scalar.pyNumber : Scalar φ → Option ℚ
  | .bool b => some (if b then 1 else 0)
  | s => s.number F

/-- Two scalars are the same JSON: numbers by what they are. -/
def jsonScalarEq : Scalar φ → Scalar φ → Bool
  | .null, .null => true
  | .bool a, .bool b => a == b
  | .str a, .str b => a == b
  | a, b => (a.number F).isSome && a.number F == b.number F

/-- Two scalars are equal to Python. -/
def pyScalarEq : Scalar φ → Scalar φ → Bool
  | .null, .null => true
  | .str a, .str b => a == b
  | a, b => (a.pyNumber F).isSome && a.pyNumber F == b.pyNumber F

/-- Equality of JSON values. -/
def jsonEq : Value φ → Value φ → Bool := valueEq (jsonScalarEq F)

/-- The `==` of Python on what JSON is read as. -/
def pyEq : Value φ → Value φ → Bool := valueEq (pyScalarEq F)

theorem pyScalarEq_of_jsonScalarEq (a b : Scalar φ) (h : jsonScalarEq F a b) :
    pyScalarEq F a b := by
  cases a <;> cases b <;>
    simp_all [jsonScalarEq, pyScalarEq, Scalar.number, Scalar.pyNumber]

theorem pyEq_of_jsonEq {w : Value φ} (h : jsonEq F v w) : pyEq F v w :=
  valueEq_mono (pyScalarEq_of_jsonScalarEq F) v w h

theorem pyEq_str_iff : pyEq F v (.scalar (.str s)) = true ↔ v = .scalar (.str s) := by
  rcases v with a | items | fields
  · cases a <;> simp [pyEq, valueEq, pyScalarEq, Scalar.pyNumber, Scalar.number]
  · simp [pyEq, valueEq]
  · simp [pyEq, valueEq]

theorem jsonEq_str_iff : jsonEq F v (.scalar (.str s)) = true ↔ v = .scalar (.str s) := by
  constructor
  · exact fun h => (pyEq_str_iff F).1 (pyEq_of_jsonEq F h)
  · rintro rfl
    simp [jsonEq, valueEq, jsonScalarEq]

/-! ### A format of floats -/

/-- Floats without a fraction, written with one digit after the point. -/
def wholeFloats : FloatFormat ℤ where
  repr n := { intText n with frac := ['.', '0'] }
  read t := if t.frac = ['.', '0'] ∧ t.exp = [] then some (readInt t) else none
  value n := n
  valid_repr n :=
    { whole := (valid_intText n).whole
      frac := .inr ⟨['0'], rfl, List.cons_ne_nil _ _, by simp⟩
      exp := .inl rfl }
  isFloat_repr _ := rfl
  read_repr n := by
    rw [if_pos ⟨rfl, rfl⟩]
    exact congrArg some (readInt_intText n)

end AgenticPkm.JsonText
