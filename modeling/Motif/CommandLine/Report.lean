import Motif.Ensemble

/-!
# Reports

The report of a search is a list of lines: the sequence, the matches with their groups, and the
counts. With colours, parts of a line stand between escape sequences.

* `Style`, `Palette`: colours, and whether they are used.
* `Palette.header`: the searched sequence.
* `Palette.finds`, `Palette.metrics`: the matches and the counts of one pattern.
* `Palette.ensemble`: the matches and the counts of several patterns.
-/

namespace Motif.CommandLine

/-- The appearance of a part of a line. -/
inductive Style where
  | dim | bold | green | yellow | blue | cyan | gray
deriving DecidableEq

/-- The number of a style in an escape sequence. -/
def Style.code : Style → String
  | dim => "2"
  | bold => "1"
  | green => "32"
  | yellow => "33"
  | blue => "34"
  | cyan => "36"
  | gray => "90"

/-- An escape sequence. -/
def escape (code : String) : String := "\x1b[" ++ code ++ "m"

/-- Whether styles are used. -/
structure Palette where
  /-- Styles are used. -/
  enabled : Bool

namespace Palette

variable (p : Palette)

/-- A text in a style. -/
def paint (style : Style) (s : String) : String :=
  if p.enabled then escape style.code ++ s ++ escape "0" else s

/-- A number in a style. -/
def count (style : Style) (n : Nat) : String := p.paint style (toString n)

/-- A heading, after an empty line. -/
def heading (title : String) : List String :=
  ["", p.paint .gray ("━━━ " ++ title ++ " ━━━")]

/-- The two ends of a span. -/
def range (s : Span) : String := toString s.start ++ ".." ++ toString s.stop

/-- The parts of a line of counts. -/
def columns (parts : List String) : String := "  " ++ "  │  ".intercalate parts

/-- The searched sequence. -/
def header (ts : List Token) : List String :=
  let title := "⚙  Searching " ++ toString ts.length ++ " elements"
  let item (t : Token) : String :=
    t.text ++ ((t.attr "tag").map fun v => p.paint .dim ("/" ++ v.display)).getD ""
  ["", p.paint .bold (p.paint .cyan title), "  " ++ " ".intercalate (ts.map item)]

/-- A match, with its groups and payloads. -/
def oneMatch (number : Nat) (m : Match) : List String :=
  let groups := (List.range' 1 (m.groupCount - 1)).filterMap fun g =>
    (m.spans[g]?.join).map fun s =>
      let name := ((m.names.nameOf? g).map (" $" ++ ·)).getD ""
      "      " ++ p.paint .blue ("group " ++ toString g ++ name) ++ " " ++
        p.paint .dim (range s) ++ " " ++ m.textOf s
  let payloads := m.payloads.map fun (i, v) =>
    "      " ++ p.paint .cyan ("node " ++ toString i) ++ " " ++ p.paint .dim v.display
  ("  " ++ p.paint .gray ("[" ++ toString number ++ "]") ++ " " ++
      p.paint .bold (p.paint .green m.text) ++ " " ++ p.paint .dim "│" ++ " " ++
      p.paint .yellow ("span " ++ range m.span)) ::
    groups ++ payloads

/-- Matches with their numbers. -/
def numbered (ms : List Match) : List String := ms.zipIdx.flatMap fun (m, i) => p.oneMatch i m

/-- The matches of a pattern. -/
def finds (source : String) (ms : List Match) : List String :=
  p.heading "Matches" ++ ["  " ++ p.paint .dim "pattern:" ++ " " ++ p.paint .blue source] ++
    if ms.isEmpty then [p.paint .dim "  No matches"] else p.numbered ms

/-- The counts of a search, and how long it took. -/
def metrics (m : Metrics) (time : String) : List String :=
  p.heading "Metrics" ++ [columns [
    "Steps: " ++ p.count .yellow m.steps,
    "Backtracks: " ++ p.count .yellow m.backtracks,
    "Starts: " ++ p.count .dim m.attempts,
    "Matches: " ++ p.count .green m.found,
    "Time: " ++ p.paint .cyan time]]

/-- The matches and the counts of several patterns, and how long it took. -/
def ensemble (patterns : List Pattern) (r : EnsembleRun) (time : String) : List String :=
  let sources := patterns.zipIdx.map fun (q, i) =>
    "  " ++ p.paint .gray ("#" ++ toString i) ++ " " ++ p.paint .blue q.source ++ " " ++
      p.paint .dim ("score " ++ q.score.toText)
  let candidates := r.candidates.map fun m =>
    "  " ++ p.paint .yellow (range m.span) ++ " " ++ p.paint .blue ("#" ++ toString m.pattern) ++
      " " ++ p.paint .dim m.text
  let orElse (ls : List String) (none : String) : List String :=
    if ls.isEmpty then [p.paint .dim none] else ls
  let m := r.metrics
  p.heading "Patterns" ++ sources ++
    p.heading "Candidates" ++ orElse candidates "  No candidates" ++
    p.heading "Selected" ++ orElse (p.numbered r.selected) "  Nothing selected" ++
    p.heading "Metrics" ++ [
      columns [
        "Patterns: " ++ p.count .green m.active ++ "/" ++ toString m.total ++ " active",
        "Candidates: " ++ p.count .yellow m.candidates,
        "Duplicates: " ++ p.count .dim m.duplicates,
        "Total: " ++ p.paint .cyan time],
      columns [
        "Steps: " ++ p.count .yellow m.search.steps,
        "Backtracks: " ++ p.count .yellow m.search.backtracks,
        "Search: " ++ p.paint .dim time]]

end Palette

end Motif.CommandLine
