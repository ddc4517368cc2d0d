import Mathlib.Tactic
import Mathlib.Data.List.TakeWhile

/-!
# Texts as Python has them

`str.strip` takes the characters that `str.isspace` accepts from both ends of a text.
Their list is that of the Unicode database: the separators of class `Zs` and the
characters of bidirectional class `WS`, `B` or `S`.

`str.casefold` follows the Unicode folding table.  No table is written out here: a
`Casefold` is any function that leaves alone the ASCII texts without capitals, which is
all that is ever used of it.
-/

namespace AgenticPkm

open List

/-- The white space that `str.strip` removes. -/
def isSpace (c : Char) : Bool :=
  let n := c.toNat
  (0x09 ≤ n && n ≤ 0x0d) || (0x1c ≤ n && n ≤ 0x20) || n == 0x85 || n == 0xa0 || n == 0x1680 ||
    (0x2000 ≤ n && n ≤ 0x200a) || n == 0x2028 || n == 0x2029 || n == 0x202f || n == 0x205f ||
    n == 0x3000

/-- `str.strip`, on the characters of a text. -/
def stripChars (l : List Char) : List Char :=
  ((l.dropWhile isSpace).reverse.dropWhile isSpace).reverse

/-- `str.strip`. -/
def strip (text : String) : String := String.ofList (stripChars text.toList)

variable {l : List Char} {left text : String}

theorem stripChars_eq_nil_iff : stripChars l = [] ↔ ∀ c ∈ l, isSpace c := by
  rw [stripChars, reverse_eq_nil_iff, dropWhile_eq_nil_iff]
  constructor
  · intro h
    rw [← dropWhile_eq_nil_iff]
    by_contra hne
    have hh := head_dropWhile_not isSpace hne
    have hs := h _ (mem_reverse.mpr (head_mem hne))
    rw [hs] at hh
    cases hh
  · intro h c hc
    exact h c ((dropWhile_suffix _).subset (mem_reverse.mp hc))

/-- A text strips to something exactly when one of its characters is no white space. -/
theorem strip_ne_empty_iff : strip text ≠ "" ↔ ∃ c ∈ text.toList, isSpace c = false := by
  have hemp : strip text = "" ↔ stripChars text.toList = [] := by
    rw [strip, ← String.toList_inj, String.toList_ofList]
    rfl
  rw [ne_eq, hemp, stripChars_eq_nil_iff]
  simp

theorem strip_ofList_ne_empty (h : (l.any fun c => !isSpace c) = true) :
    strip (String.ofList l) ≠ "" := by
  rw [strip_ne_empty_iff, String.toList_ofList]
  simpa using h

theorem strip_append_ne_empty (r : String) (h : strip left ≠ "") : strip (left ++ r) ≠ "" := by
  rw [strip_ne_empty_iff] at h ⊢
  obtain ⟨c, hc, hs⟩ := h
  exact ⟨c, by rw [String.toList_append]; exact mem_append_left _ hc, hs⟩

/-! ### Parts of a text -/

theorem append_ne_empty_of_left {r : String} (h : left ≠ "") : left ++ r ≠ "" :=
  fun hemp => h (String.append_eq_empty_iff.mp hemp).1

theorem intercalate_ne_empty {s : String} (h : text ≠ "") (t : List String) :
    String.intercalate s (text :: t) ≠ "" := by
  cases t with
  | nil =>
    rw [String.intercalate_singleton]
    exact h
  | cons next rest =>
    rw [String.intercalate_cons_cons]
    exact append_ne_empty_of_left (append_ne_empty_of_left h)

/-- `text.startswith(lead)`. -/
def startsWith (lead text : String) : Bool := lead.toList.isPrefixOf text.toList

/-- The characters before the first occurrence of a separator. -/
def charsBefore (separator : List Char) : List Char → Option (List Char)
  | [] => if separator.isEmpty then some [] else none
  | c :: l =>
      if separator.isPrefixOf (c :: l) then some []
      else (charsBefore separator l).map (c :: ·)

/-- The head of `text.partition(separator)`, or nothing without the separator. -/
def textBefore (separator text : String) : Option String :=
  (charsBefore separator.toList text.toList).map String.ofList

/-- `text.removeprefix(lead)`. -/
def textAfter (lead text : String) : String :=
  if startsWith lead text then String.ofList (text.toList.drop lead.toList.length) else text

/-! ### Paths -/

/-- One component of a path, on top of the components that are kept so far, newest
first: the empty ones and the dots go, and two dots take back the one before. -/
def pushComponent (absolute : Bool) (kept : List (List Char)) (component : List Char) :
    List (List Char) :=
  if component.isEmpty || component == ['.'] then kept
  else if component != ['.', '.'] || (!absolute && kept.isEmpty) || kept.head? == some ['.', '.']
  then component :: kept
  else kept.tail

/-- `posixpath.normpath`, on the characters of a path.  Two leading slashes are kept, any
other number of them is one. -/
def normpathChars (path : List Char) : List Char :=
  let slashes :=
    if ['/', '/'].isPrefixOf path && !(['/', '/', '/'].isPrefixOf path) then 2
    else if ['/'].isPrefixOf path then 1 else 0
  let kept := (path.splitOn '/').foldl (pushComponent (slashes != 0)) []
  let normal := List.replicate slashes '/' ++ List.intercalate ['/'] kept.reverse
  if normal.isEmpty then ['.'] else normal

example : ["a//b/../c/", "//p/../../q", "", "a/../.."].map (fun p => normpathChars p.toList) =
    ["a/c", "//q", ".", ".."].map String.toList := by
  decide +kernel

/-! ### UUID spellings -/

/-- `text.replace(word, "")`, on the characters of a text; the number is what is left to drop
of the word that was met last. -/
def dropWord (word : List Char) : ℕ → List Char → List Char
  | _, [] => []
  | 0, c :: l =>
      if word.isPrefixOf (c :: l) then dropWord word (word.length - 1) l
      else c :: dropWord word 0 l
  | n + 1, _ :: l => dropWord word n l

/-- A hexadecimal digit in its lower-case spelling. -/
def isHexDigit (c : Char) : Bool := c.isDigit || ('a' ≤ c && c ≤ 'f')

/-- `str(UUID(text))`: the plain lower-case spelling of a UUID that may be written in capitals,
in braces, without hyphens or as a URN, and nothing for another text. -/
def canonicalUuid? (text : String) : Option String :=
  let isBrace (c : Char) : Bool := c == '\x7b' || c == '\x7d'
  let bare := dropWord "uuid:".toList 0 (dropWord "urn:".toList 0 text.toList)
  let inner := ((bare.dropWhile isBrace).reverse.dropWhile isBrace).reverse
  let hex := (inner.filter (· != '-')).map Char.toLower
  if hex.length == 32 && hex.all isHexDigit then
    some (String.ofList (hex.take 8 ++ '-' :: (hex.drop 8).take 4 ++ '-' :: (hex.drop 12).take 4 ++
      '-' :: (hex.drop 16).take 4 ++ '-' :: hex.drop 20))
  else none

example : canonicalUuid? "urn:uuid:0A3D9F7C-5E21-5B48-9C0E-4F2B6D8A1C37" =
    some "0a3d9f7c-5e21-5b48-9c0e-4f2b6d8a1c37" := by
  decide +kernel

/-! ### Casefolding -/

/-- A text of ASCII characters without capitals. -/
def isFolded (text : String) : Bool :=
  text.toList.all fun c => c.toNat < 128 && !(65 ≤ c.toNat && c.toNat ≤ 90)

/-- `str.casefold`: a folding of texts that leaves alone what is folded already. -/
structure Casefold where
  fold : String → String
  fold_of_isFolded : ∀ text, isFolded text = true → fold text = text

/-- The folding of the ASCII capitals alone. -/
def foldAscii (text : String) : String :=
  String.ofList (text.toList.map fun c =>
    if 65 ≤ c.toNat && c.toNat ≤ 90 then Char.ofNat (c.toNat + 32) else c)

/-- The folding of the ASCII capitals is a casefold. -/
def Casefold.ascii : Casefold where
  fold := foldAscii
  fold_of_isFolded := by
    intro text h
    have hsame : (text.toList.map fun c =>
        if 65 ≤ c.toNat && c.toNat ≤ 90 then Char.ofNat (c.toNat + 32) else c) = text.toList := by
      conv_rhs => rw [← List.map_id text.toList]
      refine List.map_congr_left fun c hc => ?_
      have hc := List.all_eq_true.mp h c hc
      simp only [Bool.and_eq_true, Bool.not_eq_true'] at hc
      rw [hc.2]
      rfl
    rw [foldAscii, hsame, String.ofList_toList]

end AgenticPkm
