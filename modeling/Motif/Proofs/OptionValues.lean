import Motif.CommandLine.Arguments
import Mathlib.Tactic.Common

/-!
# Values of options

An option has its value in the next argument, or in its own one behind an equals sign. Both are read
as the same, unless the value begins as the argument does, with the option and an equals sign: then
that is no part of the value behind the equals sign, however often it stands there.

* `Arguments.give`: what an option and a value do.
* `Arguments.read_separate`, `Arguments.read_inline`: the two spellings.
* `Arguments.Complete`: arguments behind which the next one is read as an option.
* **`spellings_agree`**: both spellings ask for the same, or are refused for the same reason.
* `spellings_differ`: values that begin as the argument does.
-/

namespace Motif.CommandLine

/-! ## Repeated starts -/

theorem dropRepeated_of_not_prefix {start cs : List Char} (h : ¬ start <+: cs) :
    dropRepeated start cs = cs := by
  rw [dropRepeated, dif_neg]
  exact fun hstart => h (List.isPrefixOf_iff_prefix.1 hstart.2)

theorem dropRepeated_append {start : List Char} (hstart : start ≠ []) (cs : List Char) :
    dropRepeated start (start ++ cs) = dropRepeated start cs := by
  rw [dropRepeated, dif_pos ⟨hstart, List.isPrefixOf_iff_prefix.2 (List.prefix_append _ _)⟩,
    List.drop_left]

namespace Arguments

variable (a : Arguments) {arg option : String} {pre : List String}

/-! ## Reading one option -/

/-- The arguments that are read as they stand. -/
def plain : List String :=
  ["-h", "--help", "-V", "--version", "--color", "--no-color", "--all", "-p", "--pattern",
    "--max-steps", "--"]

/-- The options that have two spellings. -/
def named : List String := ["--pattern", "--max-steps"]

/-- What an option and its value do. -/
def give (option value : String) : Except UsageError Arguments :=
  if option = "--max-steps" then a.setSteps value else .ok (a.addPattern value)

/-- The start of an argument that holds an option and its value. -/
def start (option : String) : List Char := option.toList ++ ['=']

theorem start_ne_nil (option : String) : start option ≠ [] :=
  List.append_ne_nil_of_right_ne_nil _ (List.cons_ne_nil _ _)

theorem toList_inline (option value : String) :
    (option ++ "=" ++ value).toList = start option ++ value.toList := by
  rw [String.toList_append, String.toList_append]
  rfl

theorem read_separate (h : option ∈ "-p" :: named) (value : String) (rest : List String) :
    a.read (option :: value :: rest) = a.give option value >>= (·.read rest) := by
  simp only [named, List.mem_cons, List.not_mem_nil, or_false] at h
  obtain rfl | rfl | rfl := h <;> rfl

theorem read_of_not_plain (h : arg ∉ plain) (rest : List String) :
    a.read (arg :: rest) = match single arg with
      | .pattern value => (a.addPattern value).read rest
      | .steps value => a.setSteps value >>= (·.read rest)
      | .unknown => .error (.unknownOption arg)
      | .positional => .ok (.search (a.setInput (arg :: rest))) := by
  rw [read.eq_def]
  split
  case h_16 heq =>
    obtain ⟨rfl, rfl⟩ := List.cons.inj heq
    rfl
  all_goals
    next heq => cases heq <;> exact absurd (by decide) h

theorem inline_not_mem_plain (option value : String) : option ++ "=" ++ value ∉ plain := by
  have hplain : ∀ arg ∈ plain, '=' ∉ arg.toList := by decide
  refine fun h => hplain _ h ?_
  rw [toList_inline, start]
  simp

theorem read_inline (h : option ∈ named) (value : String) (rest : List String) :
    a.read ((option ++ "=" ++ value) :: rest) =
      a.give option (String.ofList (dropRepeated (start option) value.toList)) >>=
        (·.read rest) := by
  have hinline : inlineValue? option (option ++ "=" ++ value) =
      some (String.ofList (dropRepeated (start option) value.toList)) := by
    rw [inlineValue?, toList_inline]
    show (if (start option).isPrefixOf _ = true then _ else _) = _
    rw [if_pos (List.isPrefixOf_iff_prefix.2 (List.prefix_append _ _))]
    exact congrArg (some ∘ String.ofList) (dropRepeated_append (start_ne_nil option) _)
  rw [read_of_not_plain a (inline_not_mem_plain option value), single]
  simp only [named, List.mem_cons, List.not_mem_nil, or_false] at h
  obtain rfl | rfl := h
  · rw [hinline]
    rfl
  · have hpattern : inlineValue? "--pattern" ("--max-steps" ++ "=" ++ value) = none := by
      rw [inlineValue?, toList_inline]
      exact if_neg Bool.false_ne_true
    rw [hinline, hpattern]
    rfl

/-! ## Reading several options -/

/-- Options that are complete: the argument behind them is read as the next option. -/
inductive Complete : List String → Prop
  | nil : Complete []
  | flag {arg : String} {pre : List String} (h : arg ∈ ["--color", "--no-color", "--all"])
    (hpre : Complete pre) : Complete (arg :: pre)
  | separate {option : String} {pre : List String} (h : option ∈ "-p" :: named) (value : String)
    (hpre : Complete pre) : Complete (option :: value :: pre)
  | inline {option : String} {pre : List String} (h : option ∈ named) (value : String)
    (hpre : Complete pre) : Complete ((option ++ "=" ++ value) :: pre)

theorem Complete.exists_read (h : Complete pre) (a : Arguments) :
    ∃ x : Except UsageError Arguments, ∀ rest, a.read (pre ++ rest) = x >>= (·.read rest) := by
  -- what an option and its value do comes in front of what the other options do
  have hgive (y : Except UsageError Arguments) (pre : List String)
      (ih : ∀ a : Arguments, ∃ x : Except UsageError Arguments,
        ∀ rest, a.read (pre ++ rest) = x >>= (·.read rest)) :
      ∃ x : Except UsageError Arguments,
        ∀ rest, y >>= (·.read (pre ++ rest)) = x >>= (·.read rest) := by
    cases y with
    | error e => exact ⟨.error e, fun _ => rfl⟩
    | ok b => exact ih b
  induction h generalizing a with
  | nil => exact ⟨.ok a, fun _ => rfl⟩
  | flag h _ ih =>
    simp only [List.mem_cons, List.not_mem_nil, or_false] at h
    obtain rfl | rfl | rfl := h <;> exact ih _
  | separate h value _ ih =>
    simpa only [List.cons_append, read_separate _ h] using hgive _ _ ih
  | inline h value _ ih =>
    simpa only [List.cons_append, read_inline _ h] using hgive _ _ ih

end Arguments

open Arguments

/-! ## Both spellings -/

/-- **Both spellings of an option ask for the same**, or are refused alike, if the value does not
begin with the option and an equals sign. -/
theorem spellings_agree {pre : List String} (hpre : Complete pre) {option : String}
    (hoption : option ∈ named) (color : Bool) (value : String) (rest : List String) :
    (¬ start option <+: value.toList →
      Invocation.ofArguments color (pre ++ (option ++ "=" ++ value) :: rest) =
        Invocation.ofArguments color (pre ++ option :: value :: rest)) ∧
    Invocation.ofArguments color (pre ++ (option ++ "=" ++ (option ++ "=" ++ value)) :: rest) =
      Invocation.ofArguments color (pre ++ (option ++ "=" ++ value) :: rest) := by
  obtain ⟨x, hx⟩ := hpre.exists_read { color }
  constructor
  · intro hvalue
    simp only [Invocation.ofArguments, hx, read_inline _ hoption,
      read_separate _ (List.mem_cons_of_mem _ hoption), dropRepeated_of_not_prefix hvalue,
      String.ofList_toList]
  · simp only [Invocation.ofArguments, hx, read_inline _ hoption, toList_inline,
      dropRepeated_append (start_ne_nil option)]

/-- Values that look like options, also the value in question. -/
theorem spellings_agree_of_options :
    let pre := ["--all", "-p", "--", "--max-steps", "7"]
    let rest := ["--no-color", "a", "--all"]
    Complete pre ∧ "--pattern" ∈ named ∧ ¬ start "--pattern" <+: "--help".toList ∧
      Invocation.ofArguments true (pre ++ "--pattern" :: "--help" :: rest) = .ok (.search {
        patterns := ["--", "--help"]
        input := some "a --all"
        options := { findType := .everyStart, maxSteps := some 7 }
        color := false }) ∧
      Invocation.ofArguments true (pre ++ ("--pattern" ++ "=" ++ "--help") :: rest) =
        Invocation.ofArguments true (pre ++ "--pattern" :: "--help" :: rest) := by
  intro pre rest
  have hpre : Complete pre :=
    .flag (by decide) (.separate (by decide) "--" (.separate (by decide) "7" .nil))
  have hvalue : ¬ start "--pattern" <+: "--help".toList := by decide
  exact ⟨hpre, by decide, hvalue, rfl,
    (spellings_agree hpre (by decide) true "--help" rest).1 hvalue⟩

/-- A value that begins with its option and an equals sign loses them behind an equals sign. -/
theorem spellings_differ :
    Invocation.ofArguments false ["--pattern" ++ "=" ++ "--pattern=[]", "a"] =
        .ok (.search { patterns := ["[]"], input := some "a", color := false }) ∧
      Invocation.ofArguments false ["--pattern", "--pattern=[]", "a"] =
        .ok (.search { patterns := ["--pattern=[]"], input := some "a", color := false }) ∧
      Invocation.ofArguments false ["-p", "[]", "--max-steps" ++ "=" ++ "--max-steps=5", "a"] =
        .ok (.search {
          patterns := ["[]"]
          input := some "a"
          options := { maxSteps := some 5 }
          color := false }) ∧
      Invocation.ofArguments false ["-p", "[]", "--max-steps", "--max-steps=5", "a"] =
        .error (.invalidSteps "--max-steps=5") := by
  have hpattern :
      String.ofList (dropRepeated (start "--pattern") "--pattern=[]".toList) = "[]" := by
    decide +kernel
  have hsteps :
      String.ofList (dropRepeated (start "--max-steps") "--max-steps=5".toList) = "5" := by
    decide +kernel
  refine ⟨?_, rfl, ?_, rfl⟩
  · rw [Invocation.ofArguments, read_inline _ (by decide), hpattern]
    rfl
  · rw [Invocation.ofArguments, read_separate _ (by decide)]
    show ((Arguments.addPattern _ _).read _ >>= _) = _
    rw [read_inline _ (by decide), hsteps]
    rfl

end Motif.CommandLine
