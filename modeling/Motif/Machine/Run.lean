import Motif.Machine.Exploration
import Motif.Pattern

/-!
# Runs of the machine

A run goes on until it is accepted, rejected or failed. It recurses on the steps themselves, since
only finitely many of them follow each other. What it costs is added to an account, and it may be
cut off when that account is overdrawn.

* `Account`: what searching has cost so far.
* `Task.run`: the run from a configuration that halts.
* `Pattern.task`, `Pattern.entry`, `Pattern.attempt`: the run of a pattern from a position.
* `Pattern.entry_eq`, `Pattern.attempt_eq`: what an earlier run left behind does not matter.
-/

namespace Motif

/-- What searching has cost so far. -/
structure Account where
  /-- The number of executed instructions. -/
  steps : Nat := 0
  /-- The number of choices taken from the stack. -/
  backtracks : Nat := 0
  /-- The calls of functions. -/
  calls : Array Call := #[]

/-- The costs of a step. -/
def Account.add (a : Account) (st : Step) : Account where
  steps := a.steps + 1
  backtracks := a.backtracks + st.backtracks
  calls := a.calls.appendList st.calls

/-- How a run ended, and what searching has cost by then. -/
structure Ran where
  /-- The outcome; there is none if the limit on the number of steps was exceeded. -/
  outcome : Option Outcome
  /-- The account after the run. -/
  account : Account
  /-- What the run leaves behind. -/
  buffers : Buffers

namespace Task

variable (t : Task)

instance : WellFoundedRelation { c : Config // t.Halts c } := Acc.wfRel

/-- Runs the program. The step that exceeds the limit is counted, but not executed. -/
def run (limit : Option Nat) (a : Account) (c : { c : Config // t.Halts c }) : Ran :=
  if limit.any (· < a.steps + 1) then
    ⟨none, { a with steps := a.steps + 1 }, c.1.buffers⟩
  else
    let st := t.step c.1
    match h : st.progress with
    | .running c' => run limit (a.add st) ⟨c', c.2.next h⟩
    | .finished o => ⟨some o, a.add st, st.left⟩
termination_by c
decreasing_by exact h

end Task

namespace Pattern

variable (p : Pattern) (elements : Array Element) (render : List Element → String)

/-- The task of matching a pattern, possibly with a required end. -/
def task (stop : Option Nat) : Task := { program := p.program, elements, render, stop }

/-- The beginning of a run at a position, in buffers that are cleared for it. -/
def entry (start : Nat) (b : Buffers := {}) : Config :=
  let b := b.reset p.groupCount p.program.registers
  ⟨0, start, b.store, b.stack⟩

/-- **A run begins in the same way, whatever is in the buffers.** -/
theorem entry_eq (start : Nat) (b : Buffers) :
    p.entry start b = ⟨0, start, .initial p.groupCount p.program.registers, []⟩ := by
  simp only [entry, Buffers.reset, Store.reset_eq_initial]

theorem halts_entry (stop : Option Nat) (start : Nat) (b : Buffers) :
    (p.task elements render stop).Halts (p.entry start b) := by
  rw [entry_eq]
  exact Task.halts_lower p.program_eq _ _ (by simp [Store.initial, p.program_eq, Program.lower])

/-- Matches a pattern from a position on. -/
def attempt (stop limit : Option Nat) (a : Account) (start : Nat) (b : Buffers := {}) : Ran :=
  (p.task elements render stop).run limit a
    ⟨p.entry start b, p.halts_entry elements render stop start b⟩

variable {p elements render} in
/-- **An attempt does not depend on what is in the buffers.** -/
theorem attempt_eq (stop limit : Option Nat) (a : Account) (start : Nat) (b : Buffers) :
    p.attempt elements render stop limit a start b =
      p.attempt elements render stop limit a start := by
  unfold attempt
  congr 2
  rw [entry_eq, entry_eq]

end Pattern

end Motif
