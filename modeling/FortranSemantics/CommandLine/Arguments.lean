import FortranSemantics.Settings

/-!
# Command line arguments

Options come first, then a command, then the options and the input of the command. A word after an
option that takes values belongs to it; an option that takes any number of values takes every word
up to the next option.
-/

namespace FortranSemantics.CommandLine

/-- How many values an option takes. -/
inductive Arity where
  | flag
  | single
  | many
deriving DecidableEq, Repr

/-- An option of a command. -/
structure OptionSpec where
  long : String
  short : Option Char
  arity : Arity
  /-- Whether it may be given without a value, which leaves its default in place. -/
  hasDefault : Bool := false
deriving DecidableEq, Repr

/-- What was read of a command's words. -/
structure Words where
  /-- The options met, each as often as it was given. -/
  given : List String := []
  /-- The values of options, in order. -/
  values : List (String × String) := []
  /-- Words that belong to no option. -/
  positionals : List String := []
  /-- The option whose value the next word may be. -/
  awaiting : Option OptionSpec := none
  /-- Whether options have ended. -/
  trailing : Bool := false

namespace Words

variable (words : Words)

def addValue (spec : OptionSpec) (value : String) : Words :=
  { words with
    values := words.values ++ [(spec.long, value)]
    awaiting := if spec.arity = .many then some spec else none }

/-- Adds an option, with the value that was attached to it. A value after an equals sign ends the
values of the option. -/
def addOption (spec : OptionSpec) (attached : Option String) (afterEquals : Bool) : Words :=
  let words := { words with given := words.given ++ [spec.long], awaiting := none }
  match spec.arity, attached with
  | .flag, _ => words
  | _, none => { words with awaiting := some spec }
  | _, some value =>
    let words := words.addValue spec value
    if afterEquals then { words with awaiting := none } else words

/-- Reads an option by its long name. A flag ignores a value. -/
def readLong (specs : List OptionSpec) (words : Words) (text : List Char) : Option Words := do
  let text := text.dropWhile (· == '-')
  let name := String.ofList (text.takeWhile (· != '='))
  let spec ← specs.find? fun spec => spec.long == name
  match text.dropWhile (· != '=') with
  | [] => return words.addOption spec none false
  | rest => return words.addOption spec (some (String.ofList (rest.dropWhile (· == '=')))) true

/-- Reads options by their letters; what follows the letter of one that takes values is its value.
-/
def readShort (specs : List OptionSpec) (words : Words) : List Char → Option Words
  | [] => some words
  | letter :: rest => do
    let spec ← specs.find? fun spec => spec.short == some letter
    match spec.arity, rest with
    | .flag, rest => readShort specs (words.addOption spec none false) rest
    | _, [] => return words.addOption spec none false
    | _, '=' :: value =>
      return words.addOption spec (some (String.ofList (value.dropWhile (· == '=')))) true
    | _, value => return words.addOption spec (some (String.ofList value)) false

/-- Whether a word is an option and not a value; a lone dash is a value. -/
def isOption (word : List Char) : Bool :=
  match word with
  | '-' :: _ :: _ => true
  | _ => false

/-- Reads words up to the first that is one of the given commands; gives the command with the words
after it. -/
def read (specs : List OptionSpec) (commands : List String) (words : Words) :
    List String → Option (Words × Option (String × List String))
  | [] => some (words, none)
  | word :: rest =>
    let chars := word.toList
    if words.trailing then
      read specs commands { words with positionals := words.positionals ++ [word] } rest
    else if word == "--" then read specs commands { words with trailing := true } rest
    else if isOption chars then
      let next :=
        match chars with
        | '-' :: '-' :: _ => readLong specs words chars
        | _ => readShort specs words (chars.drop 1)
      match next with
      | none => none
      | some words => read specs commands words rest
    else
      match words.awaiting with
      | some spec => read specs commands (words.addValue spec word) rest
      | none =>
        if commands.contains word then some (words, some (word, rest))
        else read specs commands { words with positionals := words.positionals ++ [word] } rest

def valuesOf (name : String) : List String :=
  (words.values.filter (·.1 == name)).map (·.2)

def has (name : String) : Bool :=
  words.given.contains name

/-- Whether every option was given as often as it may be, with a value when it needs one. -/
def isValid (specs : List OptionSpec) (words : Words) : Bool :=
  specs.all fun spec =>
    (spec.arity == .many || words.given.count spec.long ≤ 1)
      && (spec.arity == .flag || spec.hasDefault || !words.has spec.long
        || !(words.valuesOf spec.long).isEmpty)

end Words

/-- What a command does with its input. -/
inductive Command where
  /-- Report problems. -/
  | check
  /-- Print the analysed program, after an audit when asked for. -/
  | print (audit : Bool)
  /-- Write an image of every module into a directory. -/
  | emitModules (directory : String)
deriving DecidableEq, Repr

/-- A complete command line. -/
structure Invocation where
  wall : Bool
  werror : Bool
  /-- Where module images are looked for. -/
  includes : List String
  policy : OverloadPolicy
  lowerArrays : Bool
  implicitTyping : Bool
  /-- The source text that the tree was made from. -/
  source : Option String
  quiet : Bool
  command : Command
  input : String

def mainOptions : List OptionSpec :=
  [{ long := "Wall", short := none, arity := .flag },
    { long := "Werror", short := none, arity := .flag },
    { long := "include", short := some 'I', arity := .many },
    { long := "overload-policy", short := none, arity := .single, hasDefault := true },
    { long := "no-lower", short := none, arity := .flag },
    { long := "implicit-typing", short := none, arity := .flag },
    { long := "source", short := none, arity := .single },
    { long := "quiet", short := some 'q', arity := .flag }]

def commandOptions : String → List OptionSpec
  | "asr" => [{ long := "verify", short := none, arity := .flag }]
  | "emit-mod" => [{ long := "out", short := some 'o', arity := .single, hasDefault := true }]
  | _ => []

/-- The command with the given name and options. -/
def commandOf (name : String) (words : Words) : Command :=
  match name with
  | "asr" => .print (words.has "verify")
  | "emit-mod" => .emitModules ((words.valuesOf "out").headD ".")
  | _ => .check

def policyOf? (words : Words) : Option OverloadPolicy :=
  match words.valuesOf "overload-policy" with
  | [] => some .firstMatch
  | name :: _ => OverloadPolicy.ofName? name

/-- The command line that some words make, if they make one. -/
def Invocation.ofArgs? (args : List String) : Option Invocation := do
  let (options, command) ← Words.read mainOptions ["check", "asr", "emit-mod"] {} args
  let (name, rest) ← command
  let specs := commandOptions name
  let (words, _) ← Words.read specs [] {} rest
  guard (options.isValid mainOptions && options.positionals.isEmpty && words.isValid specs)
  let policy ← policyOf? options
  match words.positionals with
  | [input] =>
    return {
      wall := options.has "Wall", werror := options.has "Werror",
      includes := options.valuesOf "include", policy, lowerArrays := !options.has "no-lower",
      implicitTyping := options.has "implicit-typing",
      source := (options.valuesOf "source").head?, quiet := options.has "quiet",
      command := commandOf name words, input }
  | _ => none

end FortranSemantics.CommandLine
