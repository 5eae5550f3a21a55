/-
Options of the command line.

Arguments are first told apart: options, words that look like options but are
none, plain values, and the mark `--` after which all are values. A long option
may be cut to any beginning that only it has; a letter may carry its value, or
further letters if it takes none. Then they are taken from left to right; the
first value that no option takes is the path.
-/
import Reaching.Files.Path
import Reaching.Slice
import Reaching.Text.Integer

namespace Reaching.CommandLine

/-- What an analysis from the command line is asked for. -/
structure Options where
  path : Path
  function : Option String := none
  config : Option Path := none
  defaultRules : Bool := true
  seeds : List Int := []
  direction : Direction := .backward
  respectIgnore : Bool := true
  isVerbose : Bool := false
  deriving DecidableEq, Repr

/-- What the arguments ask for. -/
inductive Request where
  | help
  | misuse
  | analyze (options : Options)
  deriving DecidableEq, Repr

/-! ## Switches -/

/-- The options there are. -/
inductive Switch where
  | help
  | function
  | config
  | noDefaultRules
  | slice
  | forward
  | noIgnore
  | verbose
  deriving DecidableEq, Repr

/-- How many values an option takes. -/
inductive Arity where
  | none
  | one
  | some
  deriving DecidableEq, Repr

namespace Switch

def all : List Switch :=
  [.help, .function, .config, .noDefaultRules, .slice, .forward, .noIgnore, .verbose]

def letter? : Switch → Option Char
  | .help => some 'h'
  | .function => some 'f'
  | .config => some 'c'
  | .slice => some 's'
  | .verbose => some 'v'
  | .noDefaultRules => none
  | .forward => none
  | .noIgnore => none

def longName : Switch → String
  | .help => "--help"
  | .function => "--function"
  | .config => "--config"
  | .noDefaultRules => "--no-default-rules"
  | .slice => "--slice"
  | .forward => "--forward"
  | .noIgnore => "--no-ignore"
  | .verbose => "--verbose"

def arity : Switch → Arity
  | .function => .one
  | .config => .one
  | .slice => .some
  | _ => .none

/-- The option with a letter. -/
def ofLetter? (c : Char) : Option Switch := all.find? fun s => s.letter? = some c

/-- The option with a long name. -/
def ofLongName? (text : List Char) : Option Switch := all.find? fun s => s.longName.toList = text

/-- The options with long names that begin with a text. -/
def startingWith (text : List Char) : List Switch :=
  all.filter fun s => text.isPrefixOf s.longName.toList

end Switch

/-! ## Telling arguments apart -/

/-- An argument by its looks. An option may carry a value, and further letters
may follow one that is given by its letter. -/
inductive Word where
  | value (text : String)
  | option (switch : Switch) (isLetter : Bool) (attached : Option String)
  | unknown
  | separator
  deriving DecidableEq, Repr

namespace Word

/-- The text in front of the first `=`, and the text after it. -/
def splitAtEquals (cs : List Char) : List Char × Option String :=
  match cs.dropWhile (· ≠ '=') with
  | [] => (cs, none)
  | _ :: after => (cs.takeWhile (· ≠ '='), some (String.ofList after))

/-- Whether a text is a negative number: digits, with a point in front of the
last ones or none. A line feed may follow. -/
def isNegativeNumber : List Char → Bool
  | '-' :: cs =>
    let cs := if cs.getLast? = some '\n' then cs.dropLast else cs
    let rest := cs.dropWhile Text.isDecimalDigit
    match rest with
    | [] => !cs.isEmpty
    | '.' :: digits => !digits.isEmpty && digits.all Text.isDecimalDigit
    | _ => false
  | _ => false

/-- A word that begins like an option and is none: a negative number and a word
with a space in it are values. -/
def other (text : String) : Word :=
  if isNegativeNumber text.toList || text.toList.contains ' ' then .value text else .unknown

/-- A word that begins with two hyphens; none if it is the beginning of several
options. -/
def ofLong? (text : String) : Option Word :=
  let (name, attached) := splitAtEquals text.toList
  match Switch.ofLongName? name with
  | some s => some (.option s false attached)
  | none =>
    match Switch.startingWith name with
    | [] => some (other text)
    | [s] => some (.option s false attached)
    | _ => none

/-- A word that begins with one hyphen and a letter. A letter is followed by its
value or by further letters; a `=` right after it is left out. -/
def ofShort (text : String) (letter : Char) (rest : List Char) : Word :=
  match Switch.ofLetter? letter with
  | none => other text
  | some s =>
    match rest with
    | [] => .option s true none
    | '=' :: given => .option s true (some (String.ofList given))
    | _ => .option s true (some (String.ofList rest))

/-- An argument by its looks; none if it is the beginning of several options. -/
def of? (text : String) : Option Word :=
  match text.toList with
  | '-' :: '-' :: _ => ofLong? text
  | '-' :: letter :: rest => some (ofShort text letter rest)
  | _ => some (.value text)

/-- All arguments by their looks. -/
def ofArguments? : List String → Option (List Word)
  | [] => some []
  | argument :: rest =>
    if argument = "--" then some (.separator :: rest.map .value)
    else do
      let word ← of? argument
      let more ← ofArguments? rest
      some (word :: more)

def isValue : Word → Bool
  | .value _ => true
  | _ => false

def text : Word → String
  | .value text => text
  | _ => ""

end Word

/-! ## Taking arguments -/

/-- Why taking arguments stopped. -/
inductive Stop where
  | help
  | misuse
  deriving DecidableEq, Repr

/-- What was taken so far. Values that nothing takes are superfluous. -/
structure Taken where
  options : Options := { path := {} }
  hasPath : Bool := false
  isSuperfluous : Bool := false

namespace Taken

/-- Applies an option with its values. -/
def apply (t : Taken) (switch : Switch) (values : List String) : Except Stop Taken :=
  let o := t.options
  match switch with
  | .help => .error .help
  | .function => .ok { t with options := { o with function := some (values.headD "[]") } }
  | .config => .ok { t with options := { o with config := values.head?.map Path.ofText } }
  | .noDefaultRules => .ok { t with options := { o with defaultRules := false } }
  | .slice =>
    match values.mapM Text.integer? with
    | some seeds => .ok { t with options := { o with seeds := seeds } }
    | none => .error .misuse
  | .forward => .ok { t with options := { o with direction := .forward } }
  | .noIgnore => .ok { t with options := { o with respectIgnore := false } }
  | .verbose => .ok { t with options := { o with isVerbose := true } }

/-- Applies options from left to right. -/
def applyAll (t : Taken) (list : List (Switch × List String)) : Except Stop Taken :=
  list.foldlM (fun t (switch, values) => t.apply switch values) t

/-- Takes the path, or a superfluous value. -/
def value (t : Taken) (text : String) : Taken :=
  if t.hasPath then { t with isSuperfluous := true }
  else { t with options := { t.options with path := .ofText text }, hasPath := true }

end Taken

/-- The values that are attached to an option: a lone `--` counts as none. -/
def attachedValues (text : String) : List String := if text = "--" then [] else [text]

/-- The letters that follow an option which takes no value: the options without
values among them, then the option for the last letter with what is left. -/
def letters : Switch → List Char → Option (List Switch × Switch × Option String)
  | switch, [] => some ([], switch, some "")
  | switch, c :: rest =>
    match switch.arity with
    | .none => do
      let next ← Switch.ofLetter? c
      if rest.isEmpty then some ([switch], next, none)
      else
        let (before, last, attached) ← letters next rest
        some (switch :: before, last, attached)
    | _ => some ([], switch, some (String.ofList (c :: rest)))

/-- The values that an option takes from the words after it, with the words that
are left; none if there are too few. -/
def valuesAfter (arity : Arity) (words : List Word) :
    Option (List String × { after : List Word // after.length ≤ words.length }) :=
  match arity, words with
  | .none, words => some ([], ⟨words, Nat.le_refl _⟩)
  | .one, .value text :: rest => some ([text], ⟨rest, Nat.le_succ _⟩)
  | .some, .value text :: rest =>
    some (text :: (rest.takeWhile Word.isValue).map Word.text,
      ⟨rest.dropWhile Word.isValue,
        Nat.le_succ_of_le (List.dropWhile_sublist Word.isValue).length_le⟩)
  | _, _ => none

/-- The options that one word stands for, the last of them with what is attached
to it. -/
def chain? (switch : Switch) (isLetter : Bool) (attached : Option String) :
    Option (List Switch × Switch × Option String) :=
  match attached with
  | none => some ([], switch, none)
  | some text => if isLetter then letters switch text.toList else some ([], switch, some text)

/-- Takes one option with its values from the words after it. -/
def takeOption (t : Taken) (switch : Switch) (isLetter : Bool) (attached : Option String)
    (words : List Word) : Except Stop (Taken × { after : List Word // after.length ≤ words.length }) :=
  match chain? switch isLetter attached with
  | none => .error .misuse
  | some (before, last, some text) =>
    if last.arity = .none then .error .misuse
    else do
      let t ← t.applyAll (before.map (·, []) ++ [(last, attachedValues text)])
      .ok (t, ⟨words, Nat.le_refl _⟩)
  | some (before, last, none) =>
    match valuesAfter last.arity words with
    | none => .error .misuse
    | some (values, after) => do
      let t ← t.applyAll (before.map (·, []) ++ [(last, values)])
      .ok (t, after)

/-- Takes words from left to right. The mark `--` belongs to the path if it
stands next to it, and is superfluous elsewhere. -/
def take (t : Taken) : List Word → Except Stop Taken
  | [] => .ok t
  | .unknown :: rest => take { t with isSuperfluous := true } rest
  | .option switch isLetter attached :: rest => do
    let (t, ⟨after, _⟩) ← takeOption t switch isLetter attached rest
    take t after
  | .value text :: .separator :: rest =>
    if t.hasPath then take { t with isSuperfluous := true } rest
    else take (t.value text) rest
  | .value text :: rest => take (t.value text) rest
  | .separator :: rest => take (if t.hasPath then { t with isSuperfluous := true } else t) rest
termination_by words => words.length
decreasing_by all_goals (simp only [List.length_cons]; omega)

/-- What some arguments ask for. -/
def Request.ofArguments (arguments : List String) : Request :=
  match Word.ofArguments? arguments with
  | none => .misuse
  | some words =>
    match take {} words with
    | .error .help => .help
    | .error .misuse => .misuse
    | .ok t => if t.hasPath && !t.isSuperfluous then .analyze t.options else .misuse

/-- How the command is used. -/
def usageText : String :=
  "usage: defuse [-h] [-f FUNCTION] [-c CONFIG] [--no-default-rules]\n"
    ++ "              [-s LINE [LINE ...]] [--forward] [--no-ignore] [-v]\n"
    ++ "              path\n"

/-- What help tells. -/
def helpText : String :=
  usageText
    ++ "\n"
    ++ "Compute static def-use dataflow edges for Python code.\n"
    ++ "\n"
    ++ "positional arguments:\n"
    ++ "  path                  Python file or project directory\n"
    ++ "\n"
    ++ "options:\n"
    ++ "  -h, --help            show this help message and exit\n"
    ++ "  -f FUNCTION, --function FUNCTION\n"
    ++ "                        Analyze only this function's body (default: module-\n"
    ++ "                        level code)\n"
    ++ "  -c CONFIG, --config CONFIG\n"
    ++ "                        JSON file with mutation rules (functionConfigs)\n"
    ++ "  --no-default-rules    Don't assume built-in container methods like append\n"
    ++ "                        mutate their receiver\n"
    ++ "  -s LINE [LINE ...], --slice LINE [LINE ...]\n"
    ++ "                        Also report the slice seeded at these lines\n"
    ++ "  --forward             Compute forward instead of backward slices\n"
    ++ "  --no-ignore           Analyze every .py file in a directory, ignoring\n"
    ++ "                        .defuseignore/.gitignore\n"
    ++ "  -v, --verbose         Debug logging\n"

end Reaching.CommandLine
