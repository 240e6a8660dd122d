import Motif.Machine.Run
import Mathlib.Tactic.Common

/-!
# Attempts

An attempt at a position is a run of the machine. Without a limit it ends, after a number of steps
that depends on nothing but the configuration it begins with, and it reports the first path of the
pattern that decides. A limit may cut it off, but it does not change what it reports.

* `Task.after`: a run, step by step.
* `Task.Yields.exists_after`, `Task.Yields.run`, `Task.yields_of_run`: how a run ends, said step by
  step, of a run without a limit, and of a run with one.
* **`Pattern.trial_of_attempt`**, **`Pattern.attempt_finds_first_path`**: what attempts report.
* `Pattern.stop_of_attempt`: where a match ends.
-/

namespace Motif

/-! ## Runs -/

namespace Task

variable (t : Task)

/-- Where a run has come to after so many steps. Once it has ended it stays so. -/
def after : Nat → Config → Progress
  | 0, c => .running c
  | n + 1, c =>
    match (t.step c).progress with
    | .running c' => after n c'
    | .finished o => .finished o

variable {t} {c c' : Config} {o : Outcome}

theorem after_succ_of_running (h : (t.step c).progress = .running c') (n : Nat) :
    t.after (n + 1) c = t.after n c' := by
  rw [after, h]

theorem after_succ_of_finished (h : (t.step c).progress = .finished o) (n : Nat) :
    t.after (n + 1) c = .finished o := by
  rw [after, h]

theorem Yields.exists_after (h : t.Yields c o) :
    ∃ n, t.after n c = .finished o ∧ ∀ m < n, ∃ c', t.after m c = .running c' := by
  induction h with
  | finish h =>
    refine ⟨1, after_succ_of_finished h 0, fun m hm => ?_⟩
    obtain rfl : m = 0 := by omega
    exact ⟨_, rfl⟩
  | proceed h _ ih =>
    obtain ⟨n, hn, hlt⟩ := ih
    refine ⟨n + 1, by rw [after_succ_of_running h, hn], fun m hm => ?_⟩
    cases m with
    | zero => exact ⟨_, rfl⟩
    | succ m =>
      rw [after_succ_of_running h]
      exact hlt m (by omega)

variable {limit : Option Nat} {a : Account}

theorem run_of_limit (hl : limit.any (· < a.steps + 1) = true) (c : { c : Config // t.Halts c }) :
    t.run limit a c = ⟨none, { a with steps := a.steps + 1 }, c.1.buffers⟩ := by
  rw [run, if_pos hl]

theorem run_of_running (hl : ¬ limit.any (· < a.steps + 1) = true)
    {c : { c : Config // t.Halts c }} (h : (t.step c.1).progress = .running c') :
    t.run limit a c = t.run limit (a.add (t.step c.1)) ⟨c', c.2.next h⟩ := by
  rw [run, if_neg hl]
  dsimp only
  split
  · next c'' h'' =>
    obtain rfl : c' = c'' := by rw [h] at h''; cases h''; rfl
    rfl
  · next o h'' => rw [h] at h''; cases h''

theorem run_of_finished (hl : ¬ limit.any (· < a.steps + 1) = true)
    {c : { c : Config // t.Halts c }} (h : (t.step c.1).progress = .finished o) :
    t.run limit a c = ⟨some o, a.add (t.step c.1), (t.step c.1).left⟩ := by
  rw [run, if_neg hl]
  dsimp only
  split
  · next c'' h'' => rw [h] at h''; cases h''
  · next o' h'' => rw [h] at h''; cases h''; rfl

theorem Yields.run (h : t.Yields c o) {n : Nat} (hn : t.after n c = .finished o)
    (hlt : ∀ m < n, ∃ c', t.after m c = .running c') (hc : t.Halts c) :
    (t.run none a ⟨c, hc⟩).outcome = some o ∧
      (t.run none a ⟨c, hc⟩).account.steps = a.steps + n := by
  have hl (a : Account) : ¬ (none : Option Nat).any (· < a.steps + 1) = true := Bool.false_ne_true
  induction h generalizing a n with
  | finish h =>
    have hn : n = 1 := by
      match n with
      | 0 => cases hn
      | 1 => rfl
      | n + 2 =>
        obtain ⟨c', hc'⟩ := hlt 1 (by omega)
        rw [after_succ_of_finished h] at hc'
        cases hc'
    rw [run_of_finished (hl a) h, hn]
    exact ⟨rfl, rfl⟩
  | @proceed c c' o h h' ih =>
    match n with
    | 0 => cases hn
    | n + 1 =>
      rw [after_succ_of_running h] at hn
      rw [run_of_running (hl a) h]
      have hlt' : ∀ m < n, ∃ c'', t.after m c' = .running c'' := fun m hm => by
        rw [← after_succ_of_running h]
        exact hlt (m + 1) (by omega)
      have := ih (a := a.add (t.step c)) hn hlt' (hc.next h)
      refine ⟨this.1, this.2.trans ?_⟩
      rw [Account.add]
      dsimp only
      omega

/-- **A limit does not change what a run reports.** -/
theorem yields_of_run {c : { c : Config // t.Halts c }} (h : (t.run limit a c).outcome = some o) :
    t.Yields c.1 o := by
  obtain ⟨c, hc⟩ := c
  induction hc generalizing a with
  | intro c hc ih =>
    by_cases hl : limit.any (· < a.steps + 1) = true
    · rw [run_of_limit hl] at h
      cases h
    · cases hp : (t.step c).progress with
      | running c' =>
        rw [run_of_running hl hp] at h
        exact .proceed hp (ih c' hp h)
      | finished o' =>
        rw [run_of_finished hl hp] at h
        cases h
        exact .finish hp

end Task

theorem Trial.exists_of_error_mem_ofNode {elements : Array Element} {p : NodePattern} {q : Path}
    {err : PredicateError} (h : .error err ∈ Trial.ofNode elements p q) :
    ∃ x, elements[q.pos]? = some x ∧ (p.test x).verdict = .error err := by
  unfold Trial.ofNode at h
  split at h
  · cases h
  · next x hx =>
    split at h
    · next ht =>
      cases List.mem_singleton.1 h
      exact ⟨x, hx, ht⟩
    · cases h
    · cases List.mem_singleton.1 h
    · cases List.mem_singleton.1 h

/-! ## Attempts -/

namespace Pattern

variable (p : Pattern) (elements : Array Element) (render : List Element → String)
  (stop : Option Nat) (start : Nat)

/-- The paths of the pattern from a position on. -/
def pathsFrom : List Trial := p.root.paths elements render true (Path.entry p.groupCount start)

theorem finds_entry : (p.task elements render stop).Finds (p.entry start)
    ((p.pathsFrom elements render start).find? (Trial.decides stop)) := by
  rw [entry_eq]
  exact Task.finds_lower (t := p.task elements render stop) p.program_eq rfl ⟨rfl, rfl, rfl⟩ rfl
    (by simp [Store.initial, p.program_eq, Program.lower])

variable {p elements render stop start} {limit : Option Nat} {a : Account}

/-- **What an attempt reports, with or without a limit, is the first path that decides.** -/
theorem trial_of_attempt {o : Outcome}
    (h : (p.attempt elements render stop limit a start).outcome = some o) :
    o.trial? = (p.pathsFrom elements render start).find? (Trial.decides stop) := by
  obtain ⟨o', ho', hr⟩ := p.finds_entry elements render stop start
  rw [← hr, (Task.yields_of_run h).unique ho']

theorem mem_pathsFrom_of_attempt {stop' : Nat} {s : Store}
    (h : (p.attempt elements render stop limit a start).outcome = some (.accepted stop' s)) :
    .ok ⟨stop', s.slots, s.trail⟩ ∈ p.pathsFrom elements render start :=
  List.mem_of_find?_eq_some (trial_of_attempt h).symm

theorem error_mem_of_attempt {e : PredicateError}
    (h : (p.attempt elements render stop limit a start).outcome = some (.failed e)) :
    .error e ∈ p.pathsFrom elements render start :=
  List.mem_of_find?_eq_some (trial_of_attempt h).symm

/-- **A match never ends to the left of its start, nor outside of the sequence.** -/
theorem stop_of_attempt {stop' : Nat} {s : Store}
    (h : (p.attempt elements render stop limit a start).outcome = some (.accepted stop' s)) :
    start ≤ stop' ∧ (start ≤ elements.size → stop' ≤ elements.size) := by
  have h := p.root.ahead_of_mem_paths true (mem_pathsFrom_of_attempt h)
  change stop' = start ∨ start < stop' ∧ stop' ≤ elements.size at h
  omega

variable (p elements render stop start)

theorem exists_outcome : ∃ o, ∀ a,
    (p.attempt elements render stop none a start).outcome = some o := by
  obtain ⟨o, ho, -⟩ := p.finds_entry elements render stop start
  obtain ⟨n, hn, hlt⟩ := ho.exists_after
  exact ⟨o, fun _ => (ho.run hn hlt _).1⟩

variable {p elements render stop start} in
/-- Without a limit, an attempt is accepted if the first path that decides is not a failure. -/
theorem exists_accepted_of_first {q : Path}
    (h : (p.pathsFrom elements render start).find? (Trial.decides stop) = some (.ok q)) :
    ∃ store, (p.attempt elements render stop none a start).outcome =
      some (.accepted q.pos store) := by
  obtain ⟨o, ho⟩ := p.exists_outcome elements render stop start
  have htrial := (trial_of_attempt (ho a)).trans h
  cases o with
  | accepted stop' store =>
    cases htrial
    exact ⟨store, ho a⟩
  | rejected => cases htrial
  | failed e => cases htrial

/-- **Without a limit an attempt ends with the first path that decides**: a match, or the failure of
a function. -/
theorem attempt_finds_first_path :
    (p.attempt elements render stop none a start).outcome.map Outcome.trial? =
      some ((p.root.paths elements render true (Path.entry p.groupCount start)).find?
        (Trial.decides stop)) := by
  obtain ⟨o, ho⟩ := p.exists_outcome elements render stop start
  rw [ho, Option.map_some, trial_of_attempt (ho a)]
  rfl

end Pattern

end Motif
