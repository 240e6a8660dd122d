import Motif.Machine.Layout
import Mathlib.Logic.Function.Iterate

/-!
# What a step does with choices

An instruction goes on, ends the run or fails. After a failure the machine takes one choice after
the other from the stack, until one of them has something to offer, and goes on there. In either
case it goes on with one more choice at most, which is pushed before anything else happens.

* `Config.back`: goes back to the latest choice.
* `Config.Grows`: what an instruction or a choice may do to the store and to the stack.
* `Task.Acts`, **`Task.acts_step`**: what a step may do.
* `Task.resumed`, **`Task.grows_step`**: where a step goes on, and what it does there.
-/

namespace Motif

namespace Config

/-- Takes the latest choice from the stack, and restores the position and the store of its time. -/
def back (c : Config) : Config :=
  match c.stack with
  | [] => c
  | ch :: stack =>
    { c with pos := ch.pos, store := c.store.rollback ch.undoLength ch.trailLength, stack }

theorem back_of_stack {c : Config} {ch : Choice} {stack : List Choice} (h : c.stack = ch :: stack) :
    c.back =
      { c with pos := ch.pos, store := c.store.rollback ch.undoLength ch.trailLength, stack } := by
  rw [back, h]

theorem pc_back (c : Config) : c.back.pc = c.pc := by
  unfold back
  split <;> rfl

theorem pc_iterate_back (k : Nat) (c : Config) : (back^[k] c).pc = c.pc := by
  induction k generalizing c with
  | zero => rfl
  | succ k ih => rw [Function.iterate_succ_apply, ih, pc_back]

theorem length_stack_back (c : Config) : c.back.stack.length = c.stack.length - 1 := by
  unfold back
  split
  · next h => rw [h]; rfl
  · next h => rw [h]; rfl

theorem length_stack_iterate_back (k : Nat) (c : Config) :
    (back^[k] c).stack.length = c.stack.length - k := by
  induction k generalizing c with
  | zero => rfl
  | succ k ih =>
    rw [Function.iterate_succ_apply, ih, length_stack_back]
    omega

/-- Going on from `c`: all changes of the store can be taken back, and one choice at most is pushed,
before the store is changed. -/
structure Grows (c c' : Config) : Prop where
  prior : c.store.Prior c'.store
  stack : c'.stack = c.stack ∨ ∃ r, c'.stack = (c.push r).stack

namespace Grows

variable {c c' : Config}

theorem of_stack (hs : c.store.Prior c'.store) (h : c'.stack = c.stack) : c.Grows c' := ⟨hs, .inl h⟩

theorem of_push {r : Resume} (hs : c.store.Prior c'.store) (h : c'.stack = (c.push r).stack) :
    c.Grows c' := ⟨hs, .inr ⟨r, h⟩⟩

theorem length_le (h : c.Grows c') : c'.stack.length ≤ c.stack.length + 1 := by
  obtain h | ⟨r, h⟩ := h.stack
  · rw [h]
    exact Nat.le_succ _
  · rw [h]
    exact Nat.le_refl _

theorem takeSpan (c : Config) (min : Nat) (greedy : Bool) (len : Nat) :
    c.Grows (c.takeSpan min greedy len) := by
  unfold Config.takeSpan
  split
  · split
    · exact of_push (.refl _) rfl
    · exact of_stack (.refl _) rfl
  · exact of_push (.refl _) rfl

theorem iteration (c : Config) (reg min : Nat) (max : Option Nat) (greedy : Bool) (exit : Nat) :
    c.Grows (Task.iteration c reg min max greedy exit) := by
  unfold Task.iteration
  dsimp only
  split
  · exact of_stack (.setCounter _ _ _) rfl
  · split
    · exact of_stack (.refl _) rfl
    · split
      · exact of_push (r := .goto exit) (.setCounter _ _ _) rfl
      · exact of_push (r := .iterate c.pc reg) (.refl _) rfl

theorem offer {t : Task} {r : Resume} {go : Config → Config} (h : t.offer? c.pos r = some go) :
    c.Grows (go c) := by
  cases r with
  | goto pc =>
    cases h
    exact of_stack (.refl _) rfl
  | iterate head reg =>
    cases h
    exact of_stack (.setCounter _ _ _) rfl
  | retry pc len =>
    rw [Task.offer?] at h
    split at h
    · next min max text greedy hi =>
      obtain ⟨l, -, rfl⟩ := Option.map_eq_some_iff.1 h
      have hgrows := takeSpan { c with pc } min greedy l
      exact ⟨hgrows.prior, hgrows.stack⟩
    · cases h

end Grows

end Config

namespace Task

variable (t : Task)

/-- What a step from `c` may do: it goes on, it ends the run otherwise than by a failure of the
instruction, or the instruction fails. -/
inductive Acts (c : Config) (st : Step) : Prop where
  | goesOn {c' : Config} (h : st.progress = .running c') (hb : st.backtracks = 0) (hg : c.Grows c')
  | ends {o : Outcome} (h : st.progress = .finished o) (hb : st.backtracks = 0) (ho : o ≠ .rejected)
  | fails (h : st.progress = (t.fail c).progress) (hb : st.backtracks = (t.fail c).backtracks)

/-- Where a step has come to when it has taken all the choices that it takes from the stack. -/
def resumed (c : Config) : Config := Config.back^[(t.step c).backtracks] c

variable {t} {c c' : Config}

/-! ## Going back -/

/-- Going back, the machine takes some choices, and goes on where the last of them was pushed. -/
theorem grows_backtrack (h : (t.backtrack c.store c.stack).progress = .running c') :
    let k := (t.backtrack c.store c.stack).backtracks
    0 < k ∧ k ≤ c.stack.length ∧ (Config.back^[k] c).Grows c' := by
  obtain ⟨pc, pos, s, stack⟩ := c
  induction stack generalizing pos s with
  | nil => cases h
  | cons ch stack ih =>
    simp only [backtrack] at h ⊢
    split at h
    · next go ho =>
      cases h
      have hgrows := Config.Grows.offer ho
        (c := ⟨0, ch.pos, s.rollback ch.undoLength ch.trailLength, stack⟩)
      exact ⟨Nat.one_pos, Nat.le_add_left 1 _, hgrows.prior, hgrows.stack⟩
    · obtain ⟨-, hle, hgrows⟩ := ih _ _ h
      exact ⟨Nat.succ_pos _, Nat.succ_le_succ hle, hgrows⟩

theorem backtrack_finished {o : Outcome}
    (h : (t.backtrack c.store c.stack).progress = .finished o) :
    o = .rejected ∧ (t.backtrack c.store c.stack).backtracks = c.stack.length := by
  obtain ⟨pc, pos, s, stack⟩ := c
  induction stack generalizing pos s with
  | nil =>
    cases h
    exact ⟨rfl, rfl⟩
  | cons ch stack ih =>
    simp only [backtrack] at h ⊢
    split at h
    · cases h
    · obtain ⟨ho, hlen⟩ := ih ch.pos _ h
      exact ⟨ho, congrArg (· + 1) hlen⟩

/-! ## Instructions -/

theorem Acts.fail : t.Acts c (t.fail c) := .fails rfl rfl

theorem acts_proceed {d : Option Config} (h : ∀ c', d = some c' → c.Grows c') :
    t.Acts c (t.proceed c d) := by
  cases d with
  | none => exact .fail
  | some c' => exact .goesOn rfl rfl (h c' rfl)

theorem acts_testNode (p : NodePattern) : t.Acts c (t.testNode c p) := by
  unfold testNode
  split
  · exact .fail
  · dsimp only
    split
    · exact .ends rfl rfl nofun
    · exact .fails rfl rfl
    · exact .goesOn rfl rfl (.of_stack (.refl _) rfl)
    · exact .goesOn rfl rfl (.of_stack (.note _ _) rfl)

theorem acts_execute (i : Instruction) : t.Acts c (t.execute c i) := by
  cases i with
  | node p => exact acts_testNode p
  | split primary alternate =>
    exact .goesOn rfl rfl (.of_push (r := .goto alternate) (.refl _) rfl)
  | jump target => exact .goesOn rfl rfl (.of_stack (.refl _) rfl)
  | openGroup id =>
    exact .goesOn rfl rfl (.of_stack ((Store.Prior.setSlot _ _ _).trans (.setSlot _ _ _)) rfl)
  | closeGroup id => exact .goesOn rfl rfl (.of_stack (.setSlot _ _ _) rfl)
  | backref id =>
    refine acts_proceed fun c' hc' => ?_
    obtain ⟨len, -, rfl⟩ := Option.map_eq_some_iff.1 hc'
    exact .of_stack (.refl _) rfl
  | enter reg => exact .goesOn rfl rfl (.of_stack (.setCounter _ _ _) rfl)
  | loop reg min max greedy exit => exact .goesOn rfl rfl (.iteration c reg min max greedy exit)
  | next reg min head =>
    simp only [execute, endIteration]
    split
    · exact .fail
    · exact .goesOn rfl rfl (.of_stack (.setCounter _ _ _) rfl)
  | multi min max text greedy =>
    refine acts_proceed fun c' hc' => ?_
    obtain ⟨len, -, rfl⟩ := Option.map_eq_some_iff.1 hc'
    exact .takeSpan c min greedy len
  | mark action target => exact .goesOn rfl rfl (.of_stack (.note _ _) rfl)
  | assert a =>
    refine acts_proceed fun c' hc' => ?_
    split at hc'
    · cases hc'
      exact .of_stack (.refl _) rfl
    · cases hc'
  | accept =>
    simp only [execute]
    split
    · exact .ends rfl rfl nofun
    · exact .fail

variable (t c) in
/-- **What a step may do.** -/
theorem acts_step : t.Acts c (t.step c) := by
  unfold step
  split
  · exact acts_execute _
  · exact .fail

/-! ## Where a step goes on -/

/-- **A step goes on with one more choice at most**, in the configuration to which it has gone
back. -/
theorem grows_step (h : (t.step c).progress = .running c') :
    (t.step c).backtracks ≤ c.stack.length ∧ (t.resumed c).Grows c' := by
  rw [resumed]
  cases t.acts_step c with
  | goesOn hrun hb hg =>
    rw [h] at hrun
    cases hrun
    rw [hb]
    exact ⟨Nat.zero_le _, hg⟩
  | ends hend =>
    rw [h] at hend
    cases hend
  | fails hfail hb =>
    rw [hb]
    exact (grows_backtrack (hfail ▸ h)).2

theorem backtracks_of_finished {o : Outcome} (h : (t.step c).progress = .finished o) :
    (t.step c).backtracks = 0 ∨ (t.step c).backtracks = c.stack.length := by
  cases t.acts_step c with
  | goesOn hrun => exact .inl ‹_›
  | ends hend => exact .inl ‹_›
  | fails hfail hb =>
    rw [hb]
    exact .inr (backtrack_finished (hfail ▸ h)).2

theorem failed_of_backtracks (h : (t.step c).progress = .finished .rejected ∨
    0 < (t.step c).backtracks) : (t.step c).progress = (t.fail c).progress ∧
      (t.step c).backtracks = (t.fail c).backtracks := by
  cases t.acts_step c with
  | goesOn hrun hb =>
    rw [hrun, hb] at h
    obtain h | h := h <;> cases h
  | ends hend hb ho =>
    rw [hend, hb] at h
    obtain h | h := h
    · cases h
      exact absurd rfl ho
    · cases h
  | fails hfail hb => exact ⟨hfail, hb⟩

end Task

end Motif
