/-!
# Names and blanks

Fortran names are compared without regard to the case of their ASCII letters, so every name is
folded to lower case when it enters the analysis. Operator tokens and directives are trimmed of
blanks, and user operators of the dots around them.
-/

namespace FortranSemantics.Text

/-- The name with its ASCII letters in lower case. -/
def lowercase (name : String) : String :=
  String.ofList (name.toList.map Char.toLower)

/-- Whether a character is white space in the Unicode sense. -/
def isBlank (char : Char) : Bool :=
  let code := char.toNat
  (0x09 ≤ code && code ≤ 0x0D) || code == 0x20 || code == 0x85 || code == 0xA0 || code == 0x1680
    || (0x2000 ≤ code && code ≤ 0x200A) || code == 0x2028 || code == 0x2029 || code == 0x202F
    || code == 0x205F || code == 0x3000

/-- The characters left when those satisfying `drop` are removed from both ends. -/
def trimList (drop : Char → Bool) (chars : List Char) : List Char :=
  ((chars.dropWhile drop).reverse.dropWhile drop).reverse

/-- The text without the white space at its ends. -/
def trim (text : String) : String :=
  String.ofList (trimList isBlank text.toList)

/-- The text without the dots at its ends. -/
def trimDots (text : String) : String :=
  String.ofList (trimList (· == '.') text.toList)

/-- Whether the characters of `lead` are the first of `chars`; the rest when they are. -/
def afterLead? : List Char → List Char → Option (List Char)
  | [], chars => some chars
  | _ :: _, [] => none
  | expected :: lead, char :: chars => if expected = char then afterLead? lead chars else none

/-- The part of the text between an opening and a closing text, when it has both. -/
def between? (opening closing text : String) : Option String := do
  let rest ← afterLead? opening.toList text.toList
  let inner ← afterLead? closing.toList.reverse rest.reverse
  return String.ofList inner.reverse

/-- The parts before and after the last occurrence of a character. -/
def splitLast? (separator : Char) (text : String) : Option (String × String) :=
  let reversed := text.toList.reverse
  match reversed.dropWhile (· != separator) with
  | [] => none
  | _ :: before =>
    some (String.ofList before.reverse,
      String.ofList (reversed.takeWhile (· != separator)).reverse)

/-- The texts joined with a separator between neighbours. -/
def joined (separator : String) (parts : List String) : String :=
  String.intercalate separator parts

end FortranSemantics.Text
