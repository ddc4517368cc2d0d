import AgenticPkm.Lib.KeyedList
import Mathlib.Data.String.Basic

/-!
# JSON values and their canonical text

The JSON values a contract dumps to, and the one text they are written as: no
blanks, object keys in order, and only the escapes JSON requires.
-/

namespace AgenticPkm

/-- A JSON value. -/
inductive Json
  | null
  | bool (b : Bool)
  | num (n : ℕ)
  | str (s : String)
  | arr (items : List Json)
  | obj (fields : List (String × Json))

namespace Json

/-- The JSON value of a field that may be absent. -/
def ofOption {α : Type} (f : α → Json) : Option α → Json
  | none => .null
  | some a => f a

/-- A JSON array of texts. -/
def ofTexts (texts : List String) : Json := .arr (texts.map .str)

/-- A lower-case hexadecimal digit. -/
def hexDigit (n : ℕ) : Char :=
  if n < 10 then Char.ofNat (48 + n) else Char.ofNat (87 + n)

/-- One character inside a JSON text: quotes, backslashes and control characters
are escaped, everything else stands for itself. -/
def escapeChar (c : Char) : String :=
  match c.toNat with
  | 34 => "\\\""
  | 92 => "\\\\"
  | 8 => "\\b"
  | 9 => "\\t"
  | 10 => "\\n"
  | 12 => "\\f"
  | 13 => "\\r"
  | n =>
      if n < 32 then
        "\\u00" ++ String.ofList [hexDigit (n / 16), hexDigit (n % 16)]
      else
        String.singleton c

/-- A quoted JSON text. -/
def quote (s : String) : String :=
  "\"" ++ String.join (s.toList.map escapeChar) ++ "\""

/-- Texts separated by commas. -/
def commaSeparated (parts : List String) : String := String.intercalate "," parts

mutual

/-- The compact text of a JSON value, with the keys of every object in order. -/
def render : Json → String
  | .null => "null"
  | .bool b => if b then "true" else "false"
  | .num n => toString n
  | .str s => quote s
  | .arr items => "[" ++ commaSeparated (renderItems items) ++ "]"
  | .obj fields =>
      "\x7b" ++ commaSeparated ((sortedBy Prod.fst (renderFields fields)).map Prod.snd) ++ "\x7d"

/-- The texts of the items of an array. -/
def renderItems : List Json → List String
  | [] => []
  | item :: items => item.render :: renderItems items

/-- The fields of an object, each with its key. -/
def renderFields : List (String × Json) → List (String × String)
  | [] => []
  | (key, value) :: fields => (key, quote key ++ ":" ++ value.render) :: renderFields fields

end

end Json

end AgenticPkm
