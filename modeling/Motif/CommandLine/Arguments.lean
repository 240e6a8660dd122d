import Motif.Search

/-!
# Command-line arguments

Options come first. The first argument that is not an option, or all that follows `--`, is the
searched sequence.

* `Arguments`: what the options and the sequence amount to.
* `Invocation`: what the command is asked to do.
* `UsageError`: the reasons to refuse arguments, and `UsageError.text` their wording.
* `Invocation.ofArguments`: reads arguments.
-/

namespace Motif.CommandLine

/-- The name and the version of the command. -/
def versionText : String := "seqex 0.1.0"

/-- How to use the command. -/
def helpText : String := "\n".intercalate [
  versionText,
  "",
  "Search a token sequence with seqex patterns.",
  "",
  "Usage:",
  "  seqex [OPTIONS] -p <pattern> [-p <pattern>...] [--] <word/TAG...>",
  "",
  "Input items are whitespace separated; the part after the last `/` becomes",
  "the `tag` attribute. Without input arguments the sequence is read from stdin.",
  "",
  "Options:",
  "  -p, --pattern <pattern>    Pattern to search for. Repeat to run several",
  "                             patterns and keep the best non-overlapping matches.",
  "  --all                      Report overlapping matches (one per start position).",
  "  --max-steps <n>            Abort a search after <n> machine steps.",
  "  --color                    Force ANSI color output.",
  "  --no-color                 Disable ANSI color output.",
  "  -h, --help                 Show this help message.",
  "  -V, --version              Print version information.",
  "",
  "Examples:",
  "  seqex -p '(?$adj [tag:JJ]+) [tag:NN]' the/DT quick/JJ brown/JJ fox/NN",
  "  RUST_LOG=seqex=trace seqex -p '\"fox\"' -- the fox",
  "",
  "Exit codes:",
  "  0  Success.",
  "  1  Invalid pattern or failed search.",
  "  2  Invalid arguments or missing input.",
  ""]

/-- What the options and the sequence amount to. -/
structure Arguments where
  /-- The patterns, in order. -/
  patterns : List String := []
  /-- The sequence, if it was given. -/
  input : Option String := none
  /-- How to search. -/
  options : Options := {}
  /-- Whether to use colours. -/
  color : Bool

/-- What the command is asked to do. -/
inductive Invocation where
  | help
  | version
  | search (a : Arguments)

/-- The reasons to refuse arguments. -/
inductive UsageError where
  /-- An option stands at the end without its value. -/
  | missingValue (option : String)
  | invalidSteps (value : String)
  | unknownOption (arg : String)
  | noPattern
  | noInput
  | unreadableInput (reason : String)
deriving DecidableEq

/-- The wording of an error. -/
def UsageError.text : UsageError → String
  | missingValue option => "error: " ++ option ++ " expects a value"
  | invalidSteps value =>
    "error: invalid --max-steps '" ++ value ++ "' (expected a positive integer)"
  | unknownOption arg => "error: unknown option '" ++ arg ++ "'"
  | noPattern => "error: at least one --pattern is required\n\n" ++ helpText
  | noInput => "error: no input provided\n\n" ++ helpText
  | unreadableInput reason => "error: failed to read stdin: " ++ reason

/-- Drops a text from the start of another one as often as it stands there. -/
def dropRepeated (start : List Char) (cs : List Char) : List Char :=
  if _ : start ≠ [] ∧ start.isPrefixOf cs then dropRepeated start (cs.drop start.length) else cs
termination_by cs.length
decreasing_by
  rename_i h
  have hs := List.length_pos_iff.2 h.1
  have hc := (List.isPrefixOf_iff_prefix.1 h.2).length_le
  simp only [List.length_drop]
  omega

/-- The value of an argument that begins with an option and an equals sign. -/
def inlineValue? (option arg : String) : Option String :=
  let start := option.toList ++ ['=']
  if start.isPrefixOf arg.toList then some (String.ofList (dropRepeated start arg.toList)) else none

namespace Arguments

variable (a : Arguments)

/-- One more pattern. -/
def addPattern (source : String) : Arguments := { a with patterns := a.patterns ++ [source] }

/-- Sets the limit on steps. -/
def setSteps (value : String) : Except UsageError Arguments :=
  match unsignedOfText? value with
  | some n => .ok { a with options := { a.options with maxSteps := some n } }
  | none => .error (.invalidSteps value)

/-- The sequence, made of the remaining arguments. -/
def setInput (rest : List String) : Arguments := { a with input := some (" ".intercalate rest) }

/-- An argument with its value after an equals sign, or the start of the sequence. -/
inductive Single where
  | pattern (source : String)
  | steps (value : String)
  | unknown
  | positional

/-- What an argument is that is none of the plain options. -/
def single (arg : String) : Single :=
  match inlineValue? "--pattern" arg, inlineValue? "--max-steps" arg with
  | some v, _ => .pattern v
  | none, some v => .steps v
  | none, none => if ['-'].isPrefixOf arg.toList then .unknown else .positional

/-- Reads the remaining arguments. -/
def read (a : Arguments) : List String → Except UsageError Invocation
  | [] => .ok (.search a)
  | "-h" :: _ | "--help" :: _ => .ok .help
  | "-V" :: _ | "--version" :: _ => .ok .version
  | "--color" :: rest => read { a with color := true } rest
  | "--no-color" :: rest => read { a with color := false } rest
  | "--all" :: rest => read { a with options := { a.options with findType := .everyStart } } rest
  | ["-p"] => .error (.missingValue "-p")
  | ["--pattern"] => .error (.missingValue "--pattern")
  | "-p" :: v :: rest | "--pattern" :: v :: rest => read (a.addPattern v) rest
  | ["--max-steps"] => .error (.missingValue "--max-steps")
  | "--max-steps" :: v :: rest => do read (← a.setSteps v) rest
  | "--" :: rest => .ok (.search (a.setInput rest))
  | arg :: rest =>
    match single arg with
    | .pattern v => read (a.addPattern v) rest
    | .steps v => do read (← a.setSteps v) rest
    | .unknown => .error (.unknownOption arg)
    | .positional => .ok (.search (a.setInput (arg :: rest)))

/-- A text without any item. -/
def blank (s : String) : Bool := s.toList.all isBlank

/-- The sequence has to be read from elsewhere. -/
def wantsInput : Bool := a.input.all blank

/-- The searched text; `fallback` is what was read from elsewhere. -/
def text (fallback : String) : String := if a.wantsInput then fallback else a.input.getD ""

end Arguments

/-- What some arguments ask for. There must be a pattern. -/
def Invocation.ofArguments (color : Bool) (args : List String) : Except UsageError Invocation := do
  match ← Arguments.read { color } args with
  | .search a => if a.patterns.isEmpty then .error .noPattern else .ok (.search a)
  | i => .ok i

end Motif.CommandLine
