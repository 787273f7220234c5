import FortranSemantics.Json.Basic
import FortranSemantics.Number.Decimal
import FortranSemantics.Text

/-!
# Writing JSON

Values are written without blanks. A number that is not finite and an unreadable part have no
written form and become null.
-/

namespace FortranSemantics.Json

/-- Numbers are written positionally from a hundred-thousandth up to ten to the sixteenth; of two
equally near shortest decimals the even one is taken. -/
def numberStyle : Number.DecimalStyle :=
  ⟨-5, 15, .toEven⟩

def hexDigit (value : Nat) : Char :=
  if value < 10 then Char.ofNat ('0'.toNat + value) else Char.ofNat ('a'.toNat + (value - 10))

/-- The written form of a character inside a string. -/
def escapeChar (char : Char) : List Char :=
  if char = '"' then ['\\', '"']
  else if char = '\\' then ['\\', '\\']
  else if char = '\n' then ['\\', 'n']
  else if char = '\r' then ['\\', 'r']
  else if char = '\t' then ['\\', 't']
  else if char = Char.ofNat 8 then ['\\', 'b']
  else if char = Char.ofNat 12 then ['\\', 'f']
  else if char.toNat < 32 then
    ['\\', 'u', '0', '0', hexDigit (char.toNat / 16), hexDigit (char.toNat % 16)]
  else [char]

def quote (value : String) : String :=
  String.ofList ('"' :: (value.toList.flatMap escapeChar ++ ['"']))

mutual

def toText : Json → String
  | .null | .unreadable => "null"
  | .bool value => if value then "true" else "false"
  | .integer value => toString value
  | .real value => if value.isFinite then Number.realText numberStyle value else "null"
  | .text value => quote value
  | .array items => "[" ++ Text.joined "," (itemTexts items) ++ "]"
  | .object entries => "\x7b" ++ Text.joined "," (entryTexts entries) ++ "\x7d"

def itemTexts : List Json → List String
  | [] => []
  | item :: rest => item.toText :: itemTexts rest

def entryTexts : List (String × Json) → List String
  | [] => []
  | entry :: rest => entryText entry :: entryTexts rest

def entryText : String × Json → String
  | (key, value) => quote key ++ ":" ++ value.toText

end

end FortranSemantics.Json
