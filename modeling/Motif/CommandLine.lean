import Motif.CommandLine.Arguments
import Motif.CommandLine.Report
import Motif.Compile

/-!
# The command

The command compiles its patterns, searches the sequence and reports what it found. One pattern is
reported with all its matches; of several patterns, the best matches that do not overlap are
selected.

* `Output`: what the command writes, and its exit code.
* `Findings`, `Answered`: what there is to report.
* `Invocation.answer`: what the command does.
* `respond`: the whole command, apart from reading the sequence.
-/

namespace Motif.CommandLine

/-- What the command writes, and its exit code. -/
structure Output where
  /-- Zero after a success, one after a failed search, two for unusable arguments. -/
  code : Nat := 0
  /-- The standard output. -/
  stdout : String := ""
  /-- The standard error output. -/
  stderr : String := ""
deriving DecidableEq

namespace Output

/-- Text, one item a line. -/
def lines (ls : List String) : String := String.join (ls.map (· ++ "\n"))

/-- The output for unusable arguments. -/
def ofUsageError (e : UsageError) : Output := { code := 2, stderr := lines [e.text] }

/-- The output of a search that failed, after what it had written by then. -/
def ofFailure (written : List String) (reason : String) : Output :=
  { code := 1, stdout := lines written, stderr := lines ["error: " ++ reason] }

end Output

/-- What there is to report. -/
inductive Findings where
  /-- One pattern, its matches and the counts. -/
  | single (pattern : Pattern) (found : List Match) (metrics : Metrics)
  /-- Several patterns. -/
  | several (patterns : List Pattern) (run : EnsembleRun)

namespace Findings

/-- The lines of the report. -/
def report (p : Palette) (time : String) : Findings → List String
  | single pattern found metrics => p.finds pattern.source found ++ p.metrics metrics time
  | several patterns run => p.ensemble patterns run time

end Findings

/-- What the command answers, but for the time that it took. -/
inductive Answered where
  /-- An output that does not tell the time. -/
  | final (o : Output)
  /-- A header and what there is to report. -/
  | report (palette : Palette) (header : List String) (f : Findings)

/-- The output, once the time is known. -/
def Answered.output (time : String) : Answered → Output
  | final o => o
  | report palette header f =>
    { stdout := Output.lines (header ++ f.report palette time ++ [""]) }

namespace Arguments

variable (a : Arguments)

/-- Compiles the patterns. An error is reported with the pattern it is in. -/
def compilePatterns : List String → Except String (List Pattern)
  | [] => .ok []
  | source :: more => do
    let p ← (compile {} source).mapError fun e => "pattern `" ++ source ++ "`: " ++ e.text
    return p :: (← compilePatterns more)

/-- Searches for compiled patterns. -/
def findings (patterns : List Pattern) (elements : Array Element) : Except MatchError Findings :=
  match patterns with
  | [pattern] =>
    let f := Search.findAll { pattern, elements, options := a.options }
    match f.error with
    | some e => .error e
    | none => .ok (.single pattern f.found f.search.metrics)
  | patterns =>
    let e : Ensemble := {
      registrations := patterns.zipIdx.map fun (p, i) => ⟨p, i⟩
      options := a.options }
    (e.run .standard elements).1.map (.several patterns)

/-- Compiles, searches and gathers what there is to report. -/
def search (text : String) : Answered :=
  let palette : Palette := ⟨a.color⟩
  let tokens := tokensOfText text
  match compilePatterns a.patterns with
  | .error e => .final (.ofFailure [] e)
  | .ok patterns =>
    let header := palette.header tokens
    match a.findings patterns (tokens.map Token.toElement).toArray with
    | .error e => .final (.ofFailure header e.text)
    | .ok f => .report palette header f

end Arguments

namespace Invocation

/-- The sequence has to be read from elsewhere. -/
def wantsInput : Invocation → Bool
  | search a => a.wantsInput
  | help | version => false

/-- The answer to an invocation. `input` is the sequence read from elsewhere. -/
def answer (input : String) : Invocation → Answered
  | help => .final { stdout := Output.lines [helpText] }
  | version => .final { stdout := Output.lines [versionText] }
  | search a =>
    let text := a.text input
    if Arguments.blank text then .final (.ofUsageError .noInput) else a.search text

end Invocation

/-- The output of the command for its arguments; `input` is the sequence read from elsewhere, and
`time` the text for how long the search took. -/
def respond (color : Bool) (args : List String) (input time : String) : Output :=
  match Invocation.ofArguments color args with
  | .error e => .ofUsageError e
  | .ok i => (i.answer input).output time

end Motif.CommandLine
