import Motif.Proofs.Choices
import Motif.Proofs.InRange

/-!
# Going back restores the machine

A choice keeps the lengths that the undo log and the trail had when it was pushed, and nothing else
of the store. That is enough: as long as a choice is open, whatever is done to the store can be
taken back down to these lengths, and what was there when the choice was pushed comes out again,
however many choices have been pushed and taken in between.

* `Config.Pushed`: the configurations in which the open choices were pushed, and their stores.
* `Task.Recorded`: a run, with a record of these configurations.
* **`Task.Recorded.pushed`**: the record is right at every step.
* `Config.Restorable`: what the lengths that the choices keep are good for.
* `Task.Recorded.exists_backtrack`: how a run takes up a choice again, whatever it has done since.
* **`Pattern.choices_restore`**: at every moment of every run all choices can be gone back to.
-/

namespace Motif

/-! ## Where choices were pushed -/

/-- Above the stack of `c₀`, the choices were pushed in the given configurations, the latest one
first, with stores that are earlier ones of `s`. -/
inductive Config.Pushed (c₀ : Config) : Store → List Choice → List Config → Prop where
  | start {s : Store} (hs : c₀.store.Prior s) : Pushed c₀ s c₀.stack []
  | push {s : Store} {m : Config} {ms : List Config} (r : Resume) (hs : m.store.Prior s)
    (rest : Pushed c₀ m.store m.stack ms) : Pushed c₀ s (m.push r).stack (m :: ms)

namespace Config.Pushed

variable {c₀ c m : Config} {s s' : Store} {stack : List Choice} {ms : List Config}

theorem mono (h : Pushed c₀ s stack ms) (hs : s.Prior s') : Pushed c₀ s' stack ms := by
  cases h with
  | start h => exact .start (h.trans hs)
  | push r h rest => exact .push r (h.trans hs) rest

theorem length_eq (h : Pushed c₀ s stack ms) : stack.length = ms.length + c₀.stack.length := by
  induction h with
  | start => exact (Nat.zero_add _).symm
  | push r _ _ ih =>
    rw [List.length_cons, Nat.add_right_comm, ← ih]
    rfl

theorem back (h : Pushed c₀ c.store c.stack (m :: ms)) :
    c.back = { m with pc := c.pc } ∧ Pushed c₀ m.store m.stack ms := by
  obtain ⟨pc, pos, s, stack⟩ := c
  cases h with
  | push r hs rest =>
    refine ⟨?_, rest⟩
    rw [back_of_stack rfl]
    simp only [Config.choice, hs.rollback_self]

theorem iterate_back {k : Nat} (h : Pushed c₀ c.store c.stack ms) (hk : k ≤ ms.length) :
    Pushed c₀ (Config.back^[k] c).store (Config.back^[k] c).stack (ms.drop k) := by
  induction k generalizing c ms with
  | zero => exact h
  | succ k ih =>
    match ms with
    | m :: ms =>
      obtain ⟨hback, hrest⟩ := h.back
      rw [Function.iterate_succ_apply, hback]
      exact ih (c := { m with pc := c.pc }) hrest (Nat.le_of_succ_le_succ hk)

/-- What grows along the run is as large at each choice as it is at the ones below, or larger. -/
theorem pairwise_ge (h : Pushed c₀ s stack ms) (h₀ : c₀.stack = []) {f : Store → Nat}
    {g : Choice → Nat} (hf : ∀ s s' : Store, s.Prior s' → f s ≤ f s')
    (hg : ∀ m r, g (Config.choice m r) = f m.store) :
    (f s :: stack.map g).Pairwise (· ≥ ·) := by
  induction h with
  | start =>
    rw [h₀]
    exact List.pairwise_singleton _ _
  | @push s m ms r hs _ ih =>
    have hle := hf _ _ hs
    change (f s :: g (m.choice r) :: m.stack.map g).Pairwise (· ≥ ·)
    rw [hg, List.pairwise_cons]
    refine ⟨fun n hn => ?_, ih⟩
    obtain rfl | hn := List.mem_cons.1 hn
    · exact hle
    · exact Nat.le_trans (List.rel_of_pairwise_cons ih hn) hle

/-- A rollback to the lengths that a choice keeps gives the store in which it was pushed. -/
theorem rollback (h : Pushed c₀ s stack ms) (h₀ : c₀.stack = []) (hs : s.Prior s') :
    List.Forall₂ (fun ch m => ch = m.choice ch.resume ∧
      s'.rollback ch.undoLength ch.trailLength = m.store) stack ms := by
  induction h with
  | start =>
    rw [h₀]
    exact .nil
  | push r hm _ ih =>
    have hm := hm.trans hs
    exact .cons ⟨rfl, hm.rollback_self⟩ (ih hm)

end Config.Pushed

/-! ## Runs with a record -/

namespace Task

variable (t : Task)

/-- The run from `c₀` comes to a configuration, whose open choices it has pushed in the given ones,
the latest one first. -/
inductive Recorded (c₀ : Config) : Config → List Config → Prop where
  | start : Recorded c₀ c₀ []
  /-- The step leaves no choice. -/
  | keep {c c' : Config} {ms : List Config} (h : Recorded c₀ c ms) (hs : t.GoesOn c c')
    (hk : (t.step c).backtracks ≤ ms.length) (hstack : c'.stack = (t.resumed c).stack) :
    Recorded c₀ c' (ms.drop (t.step c).backtracks)
  /-- The step leaves a choice. -/
  | push {c c' : Config} {ms : List Config} {r : Resume} (h : Recorded c₀ c ms)
    (hs : t.GoesOn c c') (hk : (t.step c).backtracks ≤ ms.length)
    (hstack : c'.stack = ((t.resumed c).push r).stack) :
    Recorded c₀ c' (t.resumed c :: ms.drop (t.step c).backtracks)

variable {t} {c₀ c : Config} {ms : List Config}

namespace Recorded

/-- **The record of a run is right at every step.** -/
theorem pushed (h : t.Recorded c₀ c ms) : Config.Pushed c₀ c.store c.stack ms := by
  induction h with
  | start => exact .start (.refl _)
  | keep _ hs hk hstack ih =>
    rw [hstack]
    exact (ih.iterate_back hk).mono (grows_step hs).2.prior
  | push _ hs hk hstack ih =>
    rw [hstack]
    exact .push _ (grows_step hs).2.prior (ih.iterate_back hk)

theorem length_eq (h : t.Recorded c₀ c ms) : c.stack.length = ms.length + c₀.stack.length :=
  h.pushed.length_eq

theorem exists_of_goesOn (h₀ : c₀.stack = []) (h : Relation.ReflTransGen t.GoesOn c₀ c) :
    ∃ ms, t.Recorded c₀ c ms := by
  induction h with
  | refl => exact ⟨[], .start⟩
  | @tail c c' _ hs ih =>
    obtain ⟨ms, hms⟩ := ih
    obtain ⟨hk, hgrows⟩ := grows_step hs
    have hk : (t.step c).backtracks ≤ ms.length := by
      rwa [hms.length_eq, h₀] at hk
    obtain hstack | ⟨r, hstack⟩ := hgrows.stack
    · exact ⟨_, .keep hms hs hk hstack⟩
    · exact ⟨_, .push hms hs hk hstack⟩

end Recorded

/-- Where the choices that were pushed since `c₀` have nothing to offer, going back is going back to
the choices of `c₀`, from a later store. -/
theorem exists_backtrack_of_pushed {s : Store} {stack : List Choice}
    (h : Config.Pushed c₀ s stack ms)
    (hb : (t.backtrack s stack).progress = .finished .rejected ∨
      ms.length < (t.backtrack s stack).backtracks) :
    ∃ s', c₀.store.Prior s' ∧
      (t.backtrack s stack).progress = (t.backtrack s' c₀.stack).progress ∧
      (t.backtrack s stack).backtracks = ms.length + (t.backtrack s' c₀.stack).backtracks := by
  induction h with
  | @start s hs => exact ⟨s, hs, rfl, (Nat.zero_add _).symm⟩
  | @push s m ms r hs rest ih =>
    simp only [Config.push, Config.choice, backtrack, hs.rollback_self] at hb ⊢
    split at hb
    · obtain hb | hb := hb
      · cases hb
      · exact absurd hb (Nat.not_lt.2 (Nat.le_add_left 1 _))
    · obtain ⟨s', hs', hprogress, hcount⟩ := ih (hb.imp_right Nat.lt_of_succ_lt_succ)
      exact ⟨s', hs', hprogress, (congrArg (· + 1) hcount).trans (Nat.add_right_comm _ _ _)⟩

/-- **A run that comes back to a choice goes on as it would have gone on at once**, and is rejected
only without choices. -/
theorem Recorded.exists_backtrack (h : t.Recorded c₀ c ms)
    (hb : (t.step c).progress = .finished .rejected ∨ ms.length < (t.step c).backtracks) :
    ∃ s', c₀.store.Prior s' ∧ (t.step c).progress = (t.backtrack s' c₀.stack).progress ∧
      (t.step c).backtracks = ms.length + (t.backtrack s' c₀.stack).backtracks := by
  obtain ⟨hprogress, hcount⟩ :=
    failed_of_backtracks (hb.imp_right fun hb => Nat.lt_of_le_of_lt (Nat.zero_le _) hb)
  rw [hprogress, hcount] at hb ⊢
  exact exists_backtrack_of_pushed h.pushed hb

end Task

/-! ## All choices can be gone back to -/

/-- The choices that are open in a configuration were pushed in the given ones, and keep the lengths
to which the store can be rolled back. -/
structure Config.Restorable (c : Config) (ms : List Config) : Prop where
  undo : (c.store.undo.size :: c.stack.map Choice.undoLength).Pairwise (· ≥ ·)
  trail : (c.store.trail.size :: c.stack.map Choice.trailLength).Pairwise (· ≥ ·)
  choices : List.Forall₂ (fun ch m => ch = m.choice ch.resume ∧
    c.store.rollback ch.undoLength ch.trailLength = m.store) c.stack ms

theorem Config.Pushed.restorable {c₀ c : Config} {ms : List Config}
    (h : Pushed c₀ c.store c.stack ms) (h₀ : c₀.stack = []) : c.Restorable ms where
  undo := h.pairwise_ge h₀ (fun _ _ hs => hs.undo_le) fun _ _ => rfl
  trail := h.pairwise_ge h₀ (fun _ _ hs => hs.trail_le) fun _ _ => rfl
  choices := h.rollback h₀ (.refl _)

namespace Pattern

/-- **Going back restores the machine exactly**, to the configurations in which the open choices
were pushed. -/
theorem choices_restore (p : Pattern) (elements : Array Element)
    (render : List Element → String) (stop : Option Nat) (start : Nat) (b : Buffers) :
    let t := p.task elements render stop
    let c₀ := p.entry start b
    (∀ c, Relation.ReflTransGen t.GoesOn c₀ c → ∃ ms, t.Recorded c₀ c ms) ∧
    ∀ c ms, t.Recorded c₀ c ms →
      ms.length = c.stack.length ∧
      (∀ k ≤ c.stack.length, (Config.back^[k] c).Restorable (ms.drop k)) ∧
      ∀ k m, ms[k]? = some m → Config.back^[k + 1] c = { m with pc := c.pc } := by
  have h₀ : (p.entry start b).stack = [] := by rw [entry_eq]
  intro t c₀
  refine ⟨fun c => Task.Recorded.exists_of_goesOn h₀, fun c ms hms => ?_⟩
  have hlen : ms.length = c.stack.length := by
    rw [hms.length_eq, h₀]
    rfl
  refine ⟨hlen, fun k hk => ?_, fun k m hm => ?_⟩
  · exact (hms.pushed.iterate_back (hlen ▸ hk)).restorable h₀
  · obtain ⟨hk, rfl⟩ := List.getElem?_eq_some_iff.1 hm
    have h := hms.pushed.iterate_back (Nat.le_of_lt hk)
    rw [List.drop_eq_getElem_cons hk] at h
    rw [Function.iterate_succ_apply', h.back.1, Config.pc_iterate_back]

/-- A repetition in a group has failed in its second iteration and come back to the second of two
choices. -/
theorem choices_restore_of_iteration :
    let word : Expr := .node (.attr .text (.equality "a" false))
    let root : Expr := .sequence [.group (.iterate word 0 none true) (some 1) none, .backref 1]
    let p : Pattern := .build "" root [] 2
    let elements : Array Element := #[⟨"a", fun _ => none⟩, ⟨"a", fun _ => none⟩]
    let t := p.task elements joinTexts none
    ∃ c m, t.Recorded (p.entry 1) c [m] ∧ c.stack.length = 1 ∧ c.pos = 2 ∧
      c.store.counter 0 = ⟨1, 1⟩ ∧ m.store.counter 0 = ⟨0, 1⟩ ∧ c.Restorable [m] ∧
      c.back = { m with pc := c.pc } := by
  intro word root p elements t
  let s₁ := ((Store.initial 2 1).setSlot 2 (some 1)).setSlot 3 none
  let s₂ := s₁.setCounter 0 ⟨0, 1⟩
  let s₃ := s₂.beginIteration 0 1
  let s₄ := s₃.setCounter 0 ⟨1, 1⟩
  let first : Config := ⟨2, 1, s₂, []⟩
  let second : Config := ⟨2, 2, s₄, [first.choice (.goto 5)]⟩
  have h₁ : t.Recorded (p.entry 1) ⟨1, 1, s₁, []⟩ [] := .keep .start rfl (Nat.le_refl 0) rfl
  have h₂ : t.Recorded (p.entry 1) first [] := .keep h₁ rfl (Nat.le_refl 0) rfl
  have h₃ : t.Recorded (p.entry 1) ⟨3, 1, s₃, second.stack⟩ [first] :=
    .push (r := .goto 5) h₂ rfl (Nat.le_refl 0) rfl
  have h₄ : t.Recorded (p.entry 1) ⟨4, 2, s₃, second.stack⟩ [first] :=
    .keep h₃ rfl (Nat.zero_le 1) rfl
  have h₅ : t.Recorded (p.entry 1) second [first] := .keep h₄ rfl (Nat.zero_le 1) rfl
  have h₆ : t.Recorded (p.entry 1)
      ⟨3, 2, s₄.beginIteration 0 2, (second.push (.goto 5)).stack⟩ [second, first] :=
    .push (r := .goto 5) h₅ rfl (Nat.zero_le 1) rfl
  have h₇ : t.Recorded (p.entry 1) ⟨5, 2, s₄, second.stack⟩ [first] :=
    .keep h₆ rfl (Nat.le_succ 1) rfl
  obtain ⟨-, hrestorable, hback⟩ :=
    (choices_restore p elements joinTexts none 1 {}).2 ⟨5, 2, s₄, second.stack⟩ [first] h₇
  exact ⟨_, first, h₇, rfl, rfl, rfl, rfl, hrestorable 0 (Nat.zero_le _), hback 0 first rfl⟩

end Pattern

end Motif
