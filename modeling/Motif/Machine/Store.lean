import Motif.Value

/-!
# The store of the machine

While it searches, the machine keeps where groups begin and end, how often repetitions have run,
and what is to happen if the match is accepted. Every change of a slot or a counter is noted in an
undo log, so that an earlier store can be restored; notes for acceptance form a trail that is only
ever extended and cut.

* `Store`: slots, counters, undo log and trail.
* `Store.reset`: clears a store for another run; `Store.reset_eq_initial`: nothing of it is left.
* `Store.setSlot`, `Store.setCounter`, `Store.note`: the changes.
* `Store.rollback`: restores an earlier store.
* `Store.rollback_setSlot`, `Store.rollback_setCounter`, `Store.rollback_note`: a rollback past a
  change does not see it.
* `Store.Prior`: a store from which another one was reached, and to which it can be rolled back.
* `Store.Framed`: a store that was reached without touching some of the registers.
-/

namespace Motif

/-- The state of a repetition. -/
structure Counter where
  /-- The number of complete iterations. -/
  count : Nat
  /-- Where the current iteration began. -/
  start : Nat
deriving DecidableEq, Inhabited

/-- How to take one change back. -/
inductive Undo where
  | slot (index : Nat) (old : Option Nat)
  | counter (reg : Nat) (old : Counter)
deriving DecidableEq

/-- What an accepted match will report. -/
inductive Note where
  /-- The payload of the element at a position. -/
  | payload (index : Nat) (value : Value)
  /-- An action on a group. -/
  | fire (action : String) (target : Nat)
deriving DecidableEq

/-- The store of the machine. -/
structure Store where
  /-- Beginning and end of group `g`, at `2 * g` and `2 * g + 1`. -/
  slots : Array (Option Nat)
  /-- The states of repetitions. -/
  counters : Array Counter
  /-- How to take the changes back, the last one first. -/
  undo : Array Undo := #[]
  /-- What an accepted match will report, in order. -/
  trail : Array Note := #[]

namespace Store

/-- An empty store for so many groups and registers. -/
def initial (groups registers : Nat) : Store where
  slots := Array.replicate (2 * groups) none
  counters := Array.replicate registers ⟨0, 0⟩

/-- So many times one entry, in the place of what an array held. -/
def refill {α : Type} (xs : Array α) (n : Nat) (x : α) : Array α :=
  xs.shrink 0 ++ Array.replicate n x

variable (s : Store)

/-- Clears a store, whatever it holds, for so many groups and registers. -/
def reset (groups registers : Nat) : Store where
  slots := refill s.slots (2 * groups) none
  counters := refill s.counters registers ⟨0, 0⟩
  undo := s.undo.shrink 0
  trail := s.trail.shrink 0

theorem reset_eq_initial (groups registers : Nat) :
    s.reset groups registers = initial groups registers := by
  simp [reset, refill, initial]

/-- The content of a slot. -/
def slot (index : Nat) : Option Nat := s.slots[index]?.getD none

/-- The state of a repetition. -/
def counter (reg : Nat) : Counter := s.counters[reg]?.getD ⟨0, 0⟩

/-- Changes a slot. -/
def setSlot (index : Nat) (value : Option Nat) : Store :=
  let old := s.slot index
  { s with slots := s.slots.setIfInBounds index value, undo := s.undo.push (.slot index old) }

/-- Changes the state of a repetition. -/
def setCounter (reg : Nat) (value : Counter) : Store :=
  let old := s.counter reg
  { s with counters := s.counters.setIfInBounds reg value,
           undo := s.undo.push (.counter reg old) }

/-- Begins an iteration at a position. -/
def beginIteration (reg pos : Nat) : Store :=
  let count := (s.counter reg).count
  s.setCounter reg ⟨count, pos⟩

/-- Adds a note. -/
def note (n : Note) : Store := { s with trail := s.trail.push n }

/-- Takes the last change back. -/
def undoLast : Store :=
  match s.undo.back? with
  | none => s
  | some (.slot index old) =>
    { s with slots := s.slots.setIfInBounds index old, undo := s.undo.pop }
  | some (.counter reg old) =>
    { s with counters := s.counters.setIfInBounds reg old, undo := s.undo.pop }

/-- Takes the last `k` changes back. -/
def unwind : Nat → Store → Store
  | 0, s => s
  | k + 1, s => unwind k s.undoLast

/-- Restores the store that had an undo log and a trail of the given lengths. -/
def rollback (undoLength trailLength : Nat) : Store :=
  let r := unwind (s.undo.size - undoLength) s
  { r with trail := r.trail.shrink trailLength }

/-! ## What a rollback restores -/

section

variable {s : Store}

@[simp] theorem size_undo_setSlot {i v} : (s.setSlot i v).undo.size = s.undo.size + 1 := by
  simp [setSlot]

@[simp] theorem size_undo_setCounter {r v} : (s.setCounter r v).undo.size = s.undo.size + 1 := by
  simp [setCounter]

@[simp] theorem undo_note {n} : (s.note n).undo = s.undo := rfl

@[simp] theorem trail_setSlot {i v} : (s.setSlot i v).trail = s.trail := rfl

@[simp] theorem trail_setCounter {r v} : (s.setCounter r v).trail = s.trail := rfl

@[simp] theorem size_trail_note {n} : (s.note n).trail.size = s.trail.size + 1 := by simp [note]

@[simp] theorem counters_setSlot {i v} : (s.setSlot i v).counters = s.counters := rfl

@[simp] theorem counters_note {n} : (s.note n).counters = s.counters := rfl

@[simp] theorem size_counters_setCounter {r v} :
    (s.setCounter r v).counters.size = s.counters.size := by simp [setCounter]

theorem counter_setCounter_self {r v} (h : r < s.counters.size) :
    (s.setCounter r v).counter r = v := by
  simp [counter, setCounter, h]

theorem counter_setCounter_of_ne {r r' v} (h : r ≠ r') :
    (s.setCounter r v).counter r' = s.counter r' := by
  simp [counter, setCounter, h]

theorem setIfInBounds_getD {α : Type} (xs : Array α) (i : Nat) (d : α) :
    xs.setIfInBounds i (xs[i]?.getD d) = xs := by
  apply Array.ext_getElem?
  intro j
  rw [Array.getElem?_setIfInBounds]
  by_cases h : i = j
  · subst h
    by_cases hi : i < xs.size <;> simp [hi]
  · simp [h]

theorem undoLast_setSlot {i v} : (s.setSlot i v).undoLast = s := by
  simp [undoLast, setSlot, slot, setIfInBounds_getD]

theorem undoLast_setCounter {r v} : (s.setCounter r v).undoLast = s := by
  simp [undoLast, setCounter, counter, setIfInBounds_getD]

theorem rollback_setSlot {i v u t} (h : u ≤ s.undo.size) :
    (s.setSlot i v).rollback u t = s.rollback u t := by
  have : s.undo.size + 1 - u = s.undo.size - u + 1 := by omega
  simp [rollback, this, unwind, undoLast_setSlot]

theorem rollback_setCounter {r v u t} (h : u ≤ s.undo.size) :
    (s.setCounter r v).rollback u t = s.rollback u t := by
  have : s.undo.size + 1 - u = s.undo.size - u + 1 := by omega
  simp [rollback, this, unwind, undoLast_setCounter]

theorem trail_unwind (k : Nat) : (unwind k s).trail = s.trail := by
  induction k generalizing s with
  | zero => rfl
  | succ k ih =>
    have : s.undoLast.trail = s.trail := by simp only [undoLast]; split <;> rfl
    rw [unwind, ih, this]

theorem unwind_note {n : Note} (k : Nat) :
    unwind k (s.note n) = { unwind k s with trail := s.trail.push n } := by
  induction k generalizing s with
  | zero => rfl
  | succ k ih =>
    have : (s.note n).undoLast = s.undoLast.note n := by
      simp only [undoLast, undo_note]; split <;> rfl
    have ht : s.undoLast.trail = s.trail := by simp only [undoLast]; split <;> rfl
    simp [unwind, this, ih, ht]

theorem rollback_note {n u t} (h : t ≤ s.trail.size) :
    (s.note n).rollback u t = s.rollback u t := by
  have : (s.trail.push n).extract 0 t = s.trail.extract 0 t := by
    have h : t ≤ s.trail.toList.length := by simpa using h
    apply Array.ext'
    simp [List.take_append_of_le_length h]
  simp only [rollback, undo_note, unwind_note]
  simp [trail_unwind, this]

@[simp] theorem rollback_self : s.rollback s.undo.size s.trail.size = s := by
  simp [rollback, unwind]

end

end Store

/-! ## Earlier stores -/

/-- `s` is an earlier store of the run that led to `s'`: both give the same when rolled back to the
time of `s` or before. -/
structure Store.Prior (s s' : Store) : Prop where
  undo_le : s.undo.size ≤ s'.undo.size
  trail_le : s.trail.size ≤ s'.trail.size
  rollback_eq : ∀ u ≤ s.undo.size, ∀ k ≤ s.trail.size, s'.rollback u k = s.rollback u k

namespace Store.Prior

theorem refl (s : Store) : s.Prior s := ⟨Nat.le_refl _, Nat.le_refl _, fun _ _ _ _ => rfl⟩

theorem trans {s s' s'' : Store} (h : s.Prior s') (h' : s'.Prior s'') : s.Prior s'' :=
  ⟨Nat.le_trans h.undo_le h'.undo_le, Nat.le_trans h.trail_le h'.trail_le, fun u hu k hk => by
    rw [h'.rollback_eq u (Nat.le_trans hu h.undo_le) k (Nat.le_trans hk h.trail_le),
      h.rollback_eq u hu k hk]⟩

theorem setSlot (s : Store) (i : Nat) (v : Option Nat) : s.Prior (s.setSlot i v) :=
  ⟨by simp, by simp, fun _ hu _ _ => rollback_setSlot hu⟩

theorem setCounter (s : Store) (r : Nat) (v : Counter) : s.Prior (s.setCounter r v) :=
  ⟨by simp, by simp, fun _ hu _ _ => rollback_setCounter hu⟩

theorem note (s : Store) (n : Note) : s.Prior (s.note n) :=
  ⟨by simp, by simp, fun _ _ _ hk => rollback_note hk⟩

theorem rollback_self {s s' : Store} (h : s.Prior s') :
    s'.rollback s.undo.size s.trail.size = s := by
  rw [h.rollback_eq _ (Nat.le_refl _) _ (Nat.le_refl _), Store.rollback_self]

end Store.Prior

/-- `s'` was reached from `s` without touching the registers below `r`. -/
structure Store.Framed (r : Nat) (s s' : Store) : Prop where
  prior : s.Prior s'
  size_eq : s'.counters.size = s.counters.size
  counter_eq : ∀ q < r, s'.counter q = s.counter q

namespace Store.Framed

theorem refl (r : Nat) (s : Store) : Framed r s s := ⟨.refl s, rfl, fun _ _ => rfl⟩

theorem trans {r : Nat} {s s' s'' : Store} (h : Framed r s s') (h' : Framed r s' s'') :
    Framed r s s'' :=
  ⟨h.prior.trans h'.prior, h'.size_eq.trans h.size_eq, fun q hq =>
    (h'.counter_eq q hq).trans (h.counter_eq q hq)⟩

theorem mono {r r' : Nat} {s s' : Store} (h : Framed r s s') (hr : r' ≤ r) : Framed r' s s' :=
  ⟨h.prior, h.size_eq, fun q hq => h.counter_eq q (Nat.lt_of_lt_of_le hq hr)⟩

theorem setSlot (r : Nat) (s : Store) (i : Nat) (v : Option Nat) : Framed r s (s.setSlot i v) :=
  ⟨.setSlot s i v, rfl, fun _ _ => rfl⟩

theorem note (r : Nat) (s : Store) (n : Note) : Framed r s (s.note n) :=
  ⟨.note s n, rfl, fun _ _ => rfl⟩

theorem setCounter (r : Nat) (s : Store) (v : Counter) : Framed r s (s.setCounter r v) :=
  ⟨.setCounter s r v, by simp, fun _ hq => counter_setCounter_of_ne (Nat.ne_of_gt hq)⟩

theorem beginIteration (r : Nat) (s : Store) (pos : Nat) : Framed r s (s.beginIteration r pos) :=
  setCounter r s _

end Store.Framed

end Motif
