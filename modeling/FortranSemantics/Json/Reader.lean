import FortranSemantics.Json.Basic

/-!
# Reading JSON

A reader takes a value from the front of the characters and returns what follows. What breaks the
grammar fails; what keeps it but has no value is read as unreadable. The work is bounded by the
number of characters: every step takes at least one of them.
-/

namespace FortranSemantics.Json

/-- Whether a character may stand between tokens. -/
def isSeparator (char : Char) : Bool :=
  char == ' ' || char == '\n' || char == '\t' || char == '\r'

variable (chars : List Char)

/-- The characters after leading separators. -/
def skip : List Char :=
  chars.dropWhile isSeparator

def hexValue? (char : Char) : Option Nat :=
  if '0' ≤ char && char ≤ '9' then some (char.toNat - '0'.toNat)
  else if 'a' ≤ char && char ≤ 'f' then some (char.toNat - 'a'.toNat + 10)
  else if 'A' ≤ char && char ≤ 'F' then some (char.toNat - 'A'.toNat + 10)
  else none

def hexUnit? (first second third fourth : Char) : Option Nat := do
  return ((← hexValue? first) * 16 + (← hexValue? second)) * 256
    + (← hexValue? third) * 16 + (← hexValue? fourth)

def shortEscape? : Char → Option Char
  | '"' => some '"'
  | '\\' => some '\\'
  | '/' => some '/'
  | 'b' => some (Char.ofNat 8)
  | 'f' => some (Char.ofNat 12)
  | 'n' => some '\n'
  | 'r' => some '\r'
  | 't' => some '\t'
  | _ => none

/-- The second half of a pair of surrogates, when it comes next. -/
def lowSurrogate? : List Char → Option (Nat × List Char)
  | '\\' :: 'u' :: first :: second :: third :: fourth :: rest => do
    let unit ← hexUnit? first second third fourth
    if 0xDC00 ≤ unit && unit < 0xE000 then some (unit, rest) else none
  | _ => none

/-- Reads the characters of a string up to its closing quote. Characters outside the basic plane are
escaped as a pair of surrogates; with a lone surrogate, the string is no text. -/
def readChars : Nat → Option (List Char) → List Char → Option (Option String × List Char)
  | 0, _, _ => none
  | _ + 1, read, '"' :: rest => some (read.map fun chars => String.ofList chars.reverse, rest)
  | fuel + 1, read, '\\' :: 'u' :: first :: second :: third :: fourth :: rest => do
    let unit ← hexUnit? first second third fourth
    if unit < 0xD800 || 0xE000 ≤ unit then readChars fuel (read.map (Char.ofNat unit :: ·)) rest
    else
      match if unit < 0xDC00 then lowSurrogate? rest else none with
      | some (low, rest) =>
        let code := 0x10000 + (unit - 0xD800) * 0x400 + (low - 0xDC00)
        readChars fuel (read.map (Char.ofNat code :: ·)) rest
      | none => readChars fuel none rest
  | fuel + 1, read, '\\' :: escape :: rest => do
    let char ← shortEscape? escape
    readChars fuel (read.map (char :: ·)) rest
  | fuel + 1, read, char :: rest =>
    if char.toNat < 32 || char == '\\' then none else readChars fuel (read.map (char :: ·)) rest
  | _ + 1, _, [] => none

/-- Reads a string after its opening quote. -/
def readString : Option (Option String × List Char) :=
  readChars (chars.length + 1) (some []) chars

/-- The largest significand that is read exactly. -/
def significandMax : Nat :=
  0xFFFFFFFFFFFFFFFF

/-- Extends a significand by digits as long as it stays within bounds; also how many were taken. -/
def absorb : Nat → List Char → Nat × Nat
  | significand, [] => (significand, 0)
  | significand, digit :: rest =>
    let extended := significand * 10 + (digit.toNat - '0'.toNat)
    if extended ≤ significandMax then
      let (result, taken) := absorb extended rest
      (result, taken + 1)
    else (significand, 0)

def powerOfTen (exponent : Nat) : Float :=
  Float.ofScientific 1 false exponent

/-- Divides by powers of ten in steps of at most 308. -/
def divideByTens : Nat → Float → Nat → Float
  | 0, value, _ => value
  | fuel + 1, value, exponent =>
    if exponent ≤ 308 then value / powerOfTen exponent
    else if value == 0.0 then value
    else divideByTens fuel (value / powerOfTen 308) (exponent - 308)

/-- A significand times a power of ten: both are rounded to doubles before they are combined.
Infinite when it is out of range. -/
def scaled (significand : Nat) (exponent : Int) : Float :=
  let value := Float.ofNat significand
  if exponent < 0 then
    let exponent := (-exponent).toNat
    divideByTens (min exponent 2000 + 1) value exponent
  else if exponent ≤ 308 then value * powerOfTen exponent.toNat
  else if significand = 0 then value
  else 1.0 / 0.0

def splitDigits : List Char × List Char :=
  (chars.takeWhile Char.isDigit, chars.dropWhile Char.isDigit)

/-- The whole part of a number: one zero, or digits that do not start with one. -/
def readWhole : Option (List Char × List Char) :=
  match chars with
  | '0' :: rest => if (splitDigits rest).1.isEmpty then some (['0'], rest) else none
  | _ =>
    let (digits, rest) := splitDigits chars
    if digits.isEmpty then none else some (digits, rest)

/-- The digits after a decimal point, when there is one. -/
def readFraction : Option (Option (List Char) × List Char) :=
  match chars with
  | '.' :: rest =>
    let (digits, rest) := splitDigits rest
    if digits.isEmpty then none else some (some digits, rest)
  | _ => some (none, chars)

/-- The sign and digits of an exponent, when there is one. -/
def readExponent : Option (Option (Bool × List Char) × List Char) :=
  let unsigned (negative : Bool) (chars : List Char) :
      Option (Option (Bool × List Char) × List Char) :=
    let (digits, rest) := splitDigits chars
    if digits.isEmpty then none else some (some (negative, digits), rest)
  match chars with
  | 'e' :: rest | 'E' :: rest =>
    match rest with
    | '-' :: rest => unsigned true rest
    | '+' :: rest => unsigned false rest
    | _ => unsigned false rest
  | _ => some (none, chars)

def digitsValue (digits : List Char) : Nat :=
  digits.foldl (fun value digit => value * 10 + (digit.toNat - '0'.toNat)) 0

/-- The value of a number from its parts. Whole numbers in the range of 64 bits are integers, all
others reals; minus zero is a real. One that no finite real is close to is unreadable. -/
def numberValue (negative : Bool) (whole : List Char) (fraction : Option (List Char))
    (exponent : Option (Bool × List Char)) : Json :=
  let (significand, taken) := absorb 0 whole
  let dropped := whole.length - taken
  let signed (value : Float) : Json :=
    if value.isFinite then .real (if negative then -value else value) else .unreadable
  match fraction, exponent with
  | none, none =>
    if 0 < dropped then signed (scaled significand dropped)
    else if !negative then .integer significand
    else
      if significand = 0 || 0x8000000000000000 < significand then signed (Float.ofNat significand)
    else .integer (-significand)
  | _, _ =>
    let (significand, places) := absorb significand (fraction.getD [])
    let point : Int := dropped - places
    match exponent with
    | none => signed (scaled significand point)
    | some (below, digits) =>
      let power := digitsValue digits
      if power < 0x80000000 then
        signed (scaled significand (if below then point - power else point + power))
      else if significand ≠ 0 && !below then signed (1.0 / 0.0)
      else signed 0.0

def readNumber : Option (Json × List Char) := do
  let (negative, chars) :=
    match chars with
    | '-' :: rest => (true, rest)
    | _ => (false, chars)
  let (whole, chars) ← readWhole chars
  let (fraction, chars) ← readFraction chars
  let (exponent, chars) ← readExponent chars
  return (numberValue negative whole fraction exponent, chars)

mutual

/-- Reads a value. Arrays and objects inside more than `depth` levels of others are unreadable. -/
def readValue : Nat → Nat → List Char → Option (Json × List Char)
  | 0, _, _ => none
  | fuel + 1, depth, chars =>
    match skip chars with
    | 'n' :: 'u' :: 'l' :: 'l' :: rest => some (.null, rest)
    | 't' :: 'r' :: 'u' :: 'e' :: rest => some (.bool true, rest)
    | 'f' :: 'a' :: 'l' :: 's' :: 'e' :: rest => some (.bool false, rest)
    | '"' :: rest => (readString rest).map fun (value, rest) => (value.elim .unreadable .text, rest)
    | '[' :: rest =>
      let items :=
        match skip rest with
        | ']' :: rest => some ([], rest)
        | rest => readItems fuel (depth - 1) [] rest
      items.map fun (items, rest) => (if depth = 0 then .unreadable else .array items, rest)
    | '\x7b' :: rest =>
      let entries :=
        match skip rest with
        | '\x7d' :: rest => some (some [], rest)
        | rest => readEntries fuel (depth - 1) (some []) rest
      entries.map fun (entries, rest) =>
        (if depth = 0 then .unreadable else entries.elim .unreadable .object, rest)
    | chars => readNumber chars

/-- Reads the items of an array, of which there is at least one more. -/
def readItems : Nat → Nat → List Json → List Char → Option (List Json × List Char)
  | 0, _, _, _ => none
  | fuel + 1, depth, items, chars =>
    match readValue fuel depth chars with
    | none => none
    | some (item, rest) =>
      match skip rest with
      | ',' :: rest => readItems fuel depth (item :: items) rest
      | ']' :: rest => some ((item :: items).reverse, rest)
      | _ => none

/-- Reads the entries of an object, of which there is at least one more; none are left when a key is
no text. -/
def readEntries : Nat → Nat → Option (List (String × Json)) → List Char →
    Option (Option (List (String × Json)) × List Char)
  | 0, _, _, _ => none
  | fuel + 1, depth, entries, chars =>
    match skip chars with
    | '"' :: rest =>
      match readString rest with
      | none => none
      | some (key, rest) =>
        match skip rest with
        | ':' :: rest =>
          match readValue fuel depth rest with
          | none => none
          | some (value, rest) =>
            let entries := do return (← key, value) :: (← entries)
            match skip rest with
            | ',' :: rest => readEntries fuel depth entries rest
            | '\x7d' :: rest => some (entries.map List.reverse, rest)
            | _ => none
        | _ => none
    | _ => none

end

/-- Reads a text that holds one value, with parts inside more than `depth` levels of others
unreadable. -/
def scan? (depth : Nat) (text : String) : Option Json := do
  let chars := text.toList
  let (value, rest) ← readValue (2 * chars.length + 2) depth chars
  if (skip rest).isEmpty then some value else none

/-- Reads a text that holds one value, all of it readable. -/
def parse? (depth : Nat) (text : String) : Option Json :=
  (scan? depth text).filter isReadable

end FortranSemantics.Json
