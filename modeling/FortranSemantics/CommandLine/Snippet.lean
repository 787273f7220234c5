import FortranSemantics.Span
import FortranSemantics.Text.Columns

/-!
# Source snippets

A finding with a known source text is shown with the line it is about, underlined.
-/

namespace FortranSemantics.CommandLine

/-- A line of a source text. -/
structure SourceLine where
  /-- Counted from 1. -/
  number : Nat
  /-- The number of bytes before the line. -/
  offset : Nat
  /-- The characters of the line without its end. -/
  chars : List Char

namespace SourceLine

def linesFrom (number offset : Nat) : List String → List SourceLine
  | [] => []
  | line :: rest =>
    { number, offset, chars := line.toList }
      :: linesFrom (number + 1) (offset + line.utf8ByteSize + 1) rest

def linesOf (source : String) : List SourceLine :=
  linesFrom 1 0 (source.splitOn "\n")

/-- The line that holds a byte, which is the last line for bytes after the end. -/
def containing (source : String) (byte : Nat) : SourceLine :=
  let before := (linesOf source).takeWhile fun line => line.offset ≤ byte
  before.getLast?.getD { number := 1, offset := 0, chars := [] }

/-- The column of a byte, counted in characters from 1. -/
def column (line : SourceLine) (byte : Nat) : Nat :=
  go 0 (byte - line.offset) line.chars + 1
where
  /-- Counts the characters that end within the given number of bytes. -/
  go (count bytes : Nat) : List Char → Nat
    | [] => count
    | char :: rest =>
      if char.utf8Size ≤ bytes then go (count + 1) (bytes - char.utf8Size) rest else count

/-- The line as it is shown: carriage returns at its end are left out. -/
def shown (line : SourceLine) : List Char :=
  (line.chars.reverse.dropWhile fun char => char == '\r' || char == '\x00').reverse

end SourceLine

def tabWidth : Nat := 4

/-- The number of columns of a character at a column. -/
def charWidth (char : Char) (column : Nat) : Nat :=
  if char = '\t' then tabWidth - column % tabWidth else Text.columns char

/-- The text of a line with tabs as blanks. -/
def expandTabs (column : Nat) : List Char → List Char
  | [] => []
  | char :: rest =>
    let width := charWidth char column
    (if char = '\t' then List.replicate width ' ' else [char]) ++ expandTabs (column + width) rest

/-- The marks under the bytes from `start` to `stop` of a line; a place after the end of the line
can be marked too. -/
def underline (start stop column byte : Nat) : List Char → List Char
  | [] => if start ≤ byte ∧ byte < stop then ['^'] else if byte < stop then [' '] else []
  | char :: rest =>
    let width := charWidth char column
    let next := byte + char.utf8Size
    let mark :=
      if start < next ∧ byte < stop then List.replicate width '^'
      else if byte < stop then List.replicate width ' '
      else []
    mark ++ underline start stop (column + width) next rest

/-- A heading with the line that a span starts in, the span underlined. -/
def snippet (heading file source : String) (span : Span) : String :=
  let line := SourceLine.containing source span.start
  let number := toString line.number
  let margin := String.ofList (List.replicate number.length ' ')
  let start := span.start - line.offset
  let stop := max (span.stop - line.offset) (start + 1)
  let column := toString (line.column span.start)
  let place := file ++ ":" ++ number ++ ":" ++ column
  let text := String.ofList (expandTabs 0 line.shown)
  let marks := String.ofList (underline start stop 0 0 line.shown)
  heading ++ "\n" ++ margin ++ " ┌─ " ++ place ++ "\n" ++ margin ++ " │\n"
    ++ number ++ " │ " ++ text ++ "\n" ++ margin ++ " │ " ++ marks ++ "\n\n"

end FortranSemantics.CommandLine
