import Mathlib.Data.Nat.Bitwise
import Mathlib.Logic.Function.Iterate
import Motif.Regex

/-!
# What regular expressions match

The meaning of a regular expression is a relation between positions of a text, by recursion on the
expression. It is stated without sets of positions, and the matcher decides it.

* `Regex.Iterated`: a relation followed a number of times.
* `Regex.Tree.Leads`: a match that starts at one position can end at another one.
* `Regex.Tree.follows_advance`: sets of positions are moved along this relation.
* **`Regex.Tree.occursIn_iff`**: an expression occurs in a text if it leads from some position of
  the text to some other one.
* `Regex.Tree.leads_between_anchors`: between anchors for the start and the end of the text an
  expression matches the whole text.
-/

namespace Motif.Regex

open Unicode (CodeSet)

/-- A relation between positions is followed `k` times. -/
def Iterated (R : Nat → Nat → Prop) : Nat → Nat → Nat → Prop
  | 0, i, j => i = j
  | k + 1, i, j => ∃ m, R i m ∧ Iterated R k m j

/-- The character before a position of a text that comes after the character `first`. -/
def before? (first : Option Char) (cs : List Char) : Nat → Option Char
  | 0 => first
  | i + 1 => cs[i]?

namespace Tree

mutual

/-- A match that starts at position `i` of the text can end at position `j`. A maximum below the
minimum counts as the minimum. -/
def Leads (cs : List Char) : Syntax → Nat → Nat → Prop
  | step s, i, j => j = i + 1 ∧ ∃ c, cs[i]? = some c ∧ s.contains c.toNat
  | look l, i, j => j = i ∧ i ≤ cs.length ∧ l.holds (before? none cs i) cs[i]?
  | seq ts, i, j => LeadsThrough cs ts i j
  | alt ts, i, j => LeadsAny cs ts i j
  | iterate t min max _, i, j =>
    ∃ k, min ≤ k ∧ (∀ m ∈ max, k ≤ Nat.max min m) ∧ Iterated (t.Leads cs) k i j
  | capture t, i, j => t.Leads cs i j

/-- Matches of several expressions, one after the other. -/
def LeadsThrough (cs : List Char) : List Syntax → Nat → Nat → Prop
  | [], i, j => i = j
  | t :: ts, i, j => ∃ m, t.Leads cs i m ∧ LeadsThrough cs ts m j

/-- A match of one of several expressions. -/
def LeadsAny (cs : List Char) : List Syntax → Nat → Nat → Prop
  | [], _, _ => False
  | t :: ts, i, j => t.Leads cs i j ∨ LeadsAny cs ts i j

end

end Tree

/-! ## Following relations -/

section Iterated

variable {R : Nat → Nat → Prop} {k l i j : Nat}

theorem Iterated.append (h : Iterated R k i j) {m : Nat} (h' : Iterated R l j m) :
    Iterated R (k + l) i m := by
  induction k generalizing i with
  | zero =>
    cases h
    rwa [Nat.zero_add]
  | succ k ih =>
    obtain ⟨p, hp, h⟩ := h
    rw [Nat.succ_add]
    exact ⟨p, hp, ih h⟩

theorem Iterated.exists_of_add (h : Iterated R (k + l) i j) :
    ∃ m, Iterated R k i m ∧ Iterated R l m j := by
  induction k generalizing i with
  | zero => exact ⟨i, rfl, by rwa [Nat.zero_add] at h⟩
  | succ k ih =>
    rw [Nat.succ_add] at h
    obtain ⟨p, hp, h⟩ := h
    obtain ⟨m, hm, h⟩ := ih h
    exact ⟨m, ⟨p, hp, hm⟩, h⟩

theorem Iterated.le (hR : ∀ i j, R i j → i ≤ j) (h : Iterated R k i j) : i ≤ j := by
  induction k generalizing i with
  | zero => exact Nat.le_of_eq h
  | succ k ih =>
    obtain ⟨m, hm, h⟩ := h
    exact Nat.le_trans (hR i m hm) (ih h)

theorem Iterated.keeps (P : Nat → Prop) (hR : ∀ i j, R i j → P i → P j) (h : Iterated R k i j)
    (hi : P i) : P j := by
  induction k generalizing i with
  | zero => exact h ▸ hi
  | succ k ih =>
    obtain ⟨m, hm, h⟩ := h
    exact ih h (hR i m hm hi)

theorem Iterated.shorten (hR : ∀ i j, R i j → i ≤ j) (h : Iterated R k i j) :
    ∃ l ≤ k, l ≤ j - i ∧ Iterated R l i j := by
  induction k generalizing i with
  | zero => exact ⟨0, le_refl _, Nat.zero_le _, h⟩
  | succ k ih =>
    obtain ⟨m, hm, h⟩ := h
    obtain ⟨l, hl, hlt, h'⟩ := ih h
    have hle := Iterated.le hR h
    rcases Nat.eq_or_lt_of_le (hR i m hm) with rfl | hlt'
    · exact ⟨l, Nat.le_succ_of_le hl, hlt, h'⟩
    · exact ⟨l + 1, Nat.succ_le_succ hl, by omega, m, hm, h'⟩

end Iterated

/-! ## Matches lead forward within the text -/

namespace Tree

variable {cs : List Char}

mutual

theorem Leads.le (t : Syntax) {i j : Nat} (h : t.Leads cs i j) : i ≤ j := by
  match t with
  | .step s => exact h.1 ▸ Nat.le_succ i
  | .look l => exact Nat.le_of_eq h.1.symm
  | .seq ts => exact LeadsThrough.le ts h
  | .alt ts => exact LeadsAny.le ts h
  | .iterate t min max _ =>
    obtain ⟨k, -, -, h⟩ := h
    exact h.le fun _ _ => Leads.le t
  | .capture t => exact Leads.le t h

theorem LeadsThrough.le (ts : List Syntax) {i j : Nat} (h : LeadsThrough cs ts i j) : i ≤ j := by
  match ts with
  | [] => exact Nat.le_of_eq h
  | t :: ts =>
    obtain ⟨m, hm, h⟩ := h
    exact Nat.le_trans (Leads.le t hm) (LeadsThrough.le ts h)

theorem LeadsAny.le (ts : List Syntax) {i j : Nat} (h : LeadsAny cs ts i j) : i ≤ j := by
  match ts with
  | [] => exact h.elim
  | t :: ts => exact h.elim (Leads.le t) (LeadsAny.le ts)

end

mutual

theorem Leads.le_bound (t : Syntax) {i j b : Nat} (h : t.Leads cs i j) (hb : cs.length ≤ b)
    (hi : i ≤ b) : j ≤ b := by
  match t with
  | .step s =>
    obtain ⟨rfl, c, hc, -⟩ := h
    exact Nat.le_trans (List.getElem?_eq_some_iff.1 hc).1 hb
  | .look l => exact h.1 ▸ hi
  | .seq ts => exact LeadsThrough.le_bound ts h hb hi
  | .alt ts => exact LeadsAny.le_bound ts h hb hi
  | .iterate t min max _ =>
    obtain ⟨k, -, -, h⟩ := h
    exact h.keeps (· ≤ b) (fun _ _ h => Leads.le_bound t h hb) hi
  | .capture t => exact Leads.le_bound t h hb hi

theorem LeadsThrough.le_bound (ts : List Syntax) {i j b : Nat} (h : LeadsThrough cs ts i j)
    (hb : cs.length ≤ b) (hi : i ≤ b) : j ≤ b := by
  match ts with
  | [] => exact h ▸ hi
  | t :: ts =>
    obtain ⟨m, hm, h⟩ := h
    exact LeadsThrough.le_bound ts h hb (Leads.le_bound t hm hb hi)

theorem LeadsAny.le_bound (ts : List Syntax) {i j b : Nat} (h : LeadsAny cs ts i j)
    (hb : cs.length ≤ b) (hi : i ≤ b) : j ≤ b := by
  match ts with
  | [] => exact h.elim
  | t :: ts =>
    rcases h with h | h
    · exact Leads.le_bound t h hb hi
    · exact LeadsAny.le_bound ts h hb hi

end

end Tree

/-! ## Sets of positions -/

theorem testBit_ite_shiftLeft (q : Bool) (a i : Nat) :
    (if q then 1 <<< a else 0 : Nat).testBit i ↔ q ∧ a = i := by
  cases q with
  | false => simp
  | true => rw [if_pos rfl, Nat.one_shiftLeft, Nat.testBit_two_pow, decide_eq_true_iff]; simp

theorem testBit_positionsBefore (p : Char → Bool) (a i : Nat) (cs : List Char) :
    (positionsBefore p a cs).testBit i ↔ ∃ d, i = a + d ∧ ∃ c, cs[d]? = some c ∧ p c := by
  induction cs generalizing a with
  | nil => simp [positionsBefore]
  | cons c cs ih =>
    rw [positionsBefore, Nat.testBit_or, Bool.or_eq_true, testBit_ite_shiftLeft, ih]
    constructor
    · rintro (⟨hp, rfl⟩ | ⟨d, rfl, h⟩)
      · exact ⟨0, rfl, c, rfl, hp⟩
      · exact ⟨d + 1, by omega, h⟩
    · rintro ⟨d, rfl, c', hc, hp⟩
      cases d with
      | zero =>
        cases hc
        exact .inl ⟨hp, rfl⟩
      | succ d => exact .inr ⟨d, by omega, c', hc, hp⟩

theorem testBit_positionsWhere (l : Look) (a i : Nat) (first : Option Char) (cs : List Char) :
    (positionsWhere l a first cs).testBit i ↔
      ∃ d, i = a + d ∧ d ≤ cs.length ∧ l.holds (before? first cs d) cs[d]? := by
  induction cs generalizing a first with
  | nil =>
    rw [positionsWhere, testBit_ite_shiftLeft]
    constructor
    · rintro ⟨hl, rfl⟩
      exact ⟨0, rfl, le_refl _, hl⟩
    · rintro ⟨d, rfl, hd, hl⟩
      cases Nat.le_zero.1 hd
      exact ⟨hl, rfl⟩
  | cons c cs ih =>
    rw [positionsWhere, Nat.testBit_or, Bool.or_eq_true, testBit_ite_shiftLeft, ih]
    have hshift (d : Nat) : before? (some c) cs d = before? first (c :: cs) (d + 1) := by
      cases d <;> rfl
    constructor
    · rintro (⟨hl, rfl⟩ | ⟨d, rfl, hd, hl⟩)
      · exact ⟨0, rfl, Nat.zero_le _, hl⟩
      · rw [hshift] at hl
        exact ⟨d + 1, by omega, Nat.succ_le_succ hd, hl⟩
    · rintro ⟨d, rfl, hd, hl⟩
      cases d with
      | zero => exact .inl ⟨hl, rfl⟩
      | succ d =>
        rw [← hshift] at hl
        exact .inr ⟨d, by omega, Nat.le_of_succ_le_succ hd, hl⟩

theorem Positions.repeated_eq_iterate (f : Positions → Positions) (k : Nat) (s : Positions) :
    Positions.repeated f k s = f^[k] s := by
  induction k generalizing s with
  | zero => rfl
  | succ k ih =>
    rw [repeated, Function.iterate_succ_apply]
    split
    · next h =>
      rw [eq_of_beq h, Function.iterate_fixed (eq_of_beq h)]
    · exact ih (f s)

theorem testBit_upTo (n i : Nat) : (Positions.upTo n).testBit i ↔ i ≤ n := by
  rw [Positions.upTo, Nat.pow_eq, Nat.testBit_two_pow_sub_one, decide_eq_true_iff,
    Nat.lt_succ_iff]

/-- A function of sets of positions follows a relation. -/
def Follows (f : Positions → Positions) (R : Nat → Nat → Prop) : Prop :=
  ∀ s j, (f s).testBit j ↔ ∃ i, s.testBit i ∧ R i j

theorem Follows.iterate {f : Positions → Positions} {R : Nat → Nat → Prop} (h : Follows f R)
    (k : Nat) : Follows f^[k] (Iterated R k) := by
  intro s j
  induction k generalizing s with
  | zero => simp [Iterated]
  | succ k ih =>
    rw [Function.iterate_succ_apply, ih]
    constructor
    · rintro ⟨m, hm, hj⟩
      obtain ⟨i, hi, him⟩ := (h s m).1 hm
      exact ⟨i, hi, m, him, hj⟩
    · rintro ⟨i, hi, m, him, hj⟩
      exact ⟨m, (h s m).2 ⟨i, hi, him⟩, hj⟩

/-! ## Sets of positions follow expressions -/

/-- The positions of a text before characters of a set. -/
def stepPositions (cs : List Char) (k : CodeSet) : Positions :=
  positionsBefore (k.contains ·.toNat) 0 cs

/-- The positions of a text where a condition holds. -/
def lookPositions (cs : List Char) (l : Look) : Positions := positionsWhere l 0 none cs

theorem testBit_stepPositions (cs : List Char) (k : CodeSet) (i : Nat) :
    (stepPositions cs k).testBit i ↔ ∃ c, cs[i]? = some c ∧ k.contains c.toNat := by
  rw [stepPositions, testBit_positionsBefore]
  simp

theorem testBit_lookPositions (cs : List Char) (l : Look) (i : Nat) :
    (lookPositions cs l).testBit i ↔ i ≤ cs.length ∧ l.holds (before? none cs i) cs[i]? := by
  rw [lookPositions, testBit_positionsWhere]
  simp

theorem follows_repeated {f : Positions → Positions} {R : Nat → Nat → Prop} (h : Follows f R)
    (k : Nat) : Follows (Positions.repeated f k) (Iterated R k) := by
  intro s j
  rw [Positions.repeated_eq_iterate]
  exact h.iterate k s j

theorem iterated_or_eq {R : Nat → Nat → Prop} {k i j : Nat} :
    Iterated (fun i j => i = j ∨ R i j) k i j ↔ ∃ l ≤ k, Iterated R l i j := by
  induction k generalizing i with
  | zero =>
    constructor
    · exact fun h => ⟨0, le_refl _, h⟩
    · rintro ⟨l, hl, h⟩
      rwa [Nat.le_zero.1 hl] at h
  | succ k ih =>
    constructor
    · rintro ⟨m, rfl | hm, h⟩
      · obtain ⟨l, hl, h⟩ := ih.1 h
        exact ⟨l, Nat.le_succ_of_le hl, h⟩
      · obtain ⟨l, hl, h⟩ := ih.1 h
        exact ⟨l + 1, Nat.succ_le_succ hl, m, hm, h⟩
    · rintro ⟨l, hl, h⟩
      cases l with
      | zero => exact ⟨i, .inl rfl, ih.2 ⟨0, Nat.zero_le _, h⟩⟩
      | succ l =>
        obtain ⟨m, hm, h⟩ := h
        exact ⟨m, .inr hm, ih.2 ⟨l, Nat.le_of_succ_le_succ hl, h⟩⟩

theorem follows_more {f : Positions → Positions} {R : Nat → Nat → Prop} (h : Follows f R)
    (k : Nat) : Follows (Positions.repeated (fun s => s ||| f s) k)
      fun i j => ∃ l ≤ k, Iterated R l i j := by
  have hor : Follows (fun s => s ||| f s) fun i j => i = j ∨ R i j := by
    intro s j
    rw [Nat.testBit_or, Bool.or_eq_true, h]
    constructor
    · rintro (hj | ⟨i, hi, hij⟩)
      · exact ⟨j, hj, .inl rfl⟩
      · exact ⟨i, hi, .inr hij⟩
    · rintro ⟨i, hi, rfl | hij⟩
      · exact .inl hi
      · exact .inr ⟨i, hi, hij⟩
  intro s j
  simp only [follows_repeated hor k s j, iterated_or_eq]

namespace Tree

variable (cs : List Char)

/-- The rounds of `advance` are enough: a match moves at most over the whole text, and iterations
that do not move can be left out. -/
theorem exists_rounds_iff {t : Syntax} {min : Nat} {max : Option Nat} {i j : Nat} :
    (∃ m, Iterated (t.Leads cs) min i m ∧
      ∃ l ≤ (max.map (· - min)).getD (cs.length + 1), Iterated (t.Leads cs) l m j) ↔
    ∃ k, min ≤ k ∧ (∀ m ∈ max, k ≤ Nat.max min m) ∧ Iterated (t.Leads cs) k i j := by
  constructor
  · rintro ⟨m, hm, l, hl, h⟩
    refine ⟨min + l, Nat.le_add_right _ _, fun M hM => ?_, hm.append h⟩
    cases hM
    change min + l ≤ Max.max min M
    simp only [Option.map_some, Option.getD_some] at hl
    omega
  · rintro ⟨k, hmin, hmax, h⟩
    obtain ⟨l, rfl⟩ := Nat.exists_eq_add_of_le hmin
    obtain ⟨m, hm, h⟩ := h.exists_of_add
    refine ⟨m, hm, ?_⟩
    cases max with
    | some M =>
      have hle : min + l ≤ Max.max min M := hmax M rfl
      refine ⟨l, ?_, h⟩
      simp only [Option.map_some, Option.getD_some]
      omega
    | none =>
      obtain ⟨l', -, hl', h'⟩ := h.shorten fun _ _ => Leads.le t
      refine ⟨l', ?_, h'⟩
      have hj : j ≤ Max.max m cs.length := h.keeps (· ≤ Max.max m cs.length)
        (fun _ _ h => Leads.le_bound t h (Nat.le_max_right _ _)) (Nat.le_max_left _ _)
      simp only [Option.map_none, Option.getD_none]
      omega

mutual

/-- **Sets of positions are moved along the meaning of an expression.** -/
theorem follows_advance (t : Syntax) :
    Follows ((t.map (stepPositions cs) (lookPositions cs)).advance cs.length) (t.Leads cs) := by
  match t with
  | .step k =>
    intro s j
    simp only [map, advance, Nat.testBit_shiftLeft, Nat.testBit_and, Bool.and_eq_true,
      decide_eq_true_iff, testBit_stepPositions, Leads]
    constructor
    · rintro ⟨hj, hs, hc⟩
      exact ⟨j - 1, hs, by omega, hc⟩
    · rintro ⟨i, hs, rfl, hc⟩
      exact ⟨Nat.le_add_left 1 i, hs, hc⟩
  | .look l =>
    intro s j
    simp only [map, advance, Nat.testBit_and, Bool.and_eq_true, testBit_lookPositions, Leads]
    constructor
    · rintro ⟨hs, hl⟩
      exact ⟨j, hs, rfl, hl⟩
    · rintro ⟨i, hs, rfl, hl⟩
      exact ⟨hs, hl⟩
  | .seq ts => exact follows_advanceThrough ts
  | .alt ts => exact follows_advanceAny ts
  | .iterate t min max greedy =>
    intro s j
    have h := follows_advance t
    simp only [map, advance, Leads, ← exists_rounds_iff]
    rw [follows_more h]
    constructor
    · rintro ⟨m, hm, hj⟩
      obtain ⟨i, hi, him⟩ := (follows_repeated h min s m).1 hm
      exact ⟨i, hi, m, him, hj⟩
    · rintro ⟨i, hi, m, him, hj⟩
      exact ⟨m, (follows_repeated h min s m).2 ⟨i, hi, him⟩, hj⟩
  | .capture t => exact follows_advance t

theorem follows_advanceThrough (ts : List Syntax) :
    Follows (advanceThrough cs.length (mapAll (stepPositions cs) (lookPositions cs) ts))
      (LeadsThrough cs ts) := by
  intro s j
  match ts with
  | [] => simp [mapAll, advanceThrough, LeadsThrough]
  | t :: ts =>
    rw [mapAll, advanceThrough, follows_advanceThrough ts]
    constructor
    · rintro ⟨m, hm, hj⟩
      obtain ⟨i, hi, him⟩ := (follows_advance t s m).1 hm
      exact ⟨i, hi, m, him, hj⟩
    · rintro ⟨i, hi, m, him, hj⟩
      exact ⟨m, (follows_advance t s m).2 ⟨i, hi, him⟩, hj⟩

theorem follows_advanceAny (ts : List Syntax) :
    Follows (advanceAny cs.length (mapAll (stepPositions cs) (lookPositions cs) ts))
      (LeadsAny cs ts) := by
  intro s j
  match ts with
  | [] => simp [mapAll, advanceAny, LeadsAny]
  | t :: ts =>
    rw [mapAll, advanceAny, Nat.testBit_or, Bool.or_eq_true, follows_advance t,
      follows_advanceAny ts]
    constructor
    · rintro (⟨i, hi, h⟩ | ⟨i, hi, h⟩)
      · exact ⟨i, hi, .inl h⟩
      · exact ⟨i, hi, .inr h⟩
    · rintro ⟨i, hi, h | h⟩
      · exact .inl ⟨i, hi, h⟩
      · exact .inr ⟨i, hi, h⟩

end

/-- **An expression occurs in a text if it leads from a position of the text to another one.** -/
theorem occursIn_iff (r : Syntax) : r.occursIn cs ↔ ∃ i ≤ cs.length, ∃ j, r.Leads cs i j := by
  have hfollows (j : Nat) := follows_advance cs r (Positions.upTo cs.length) j
  simp only [testBit_upTo] at hfollows
  have hne : r.occursIn cs ↔ ((r.map (stepPositions cs) (lookPositions cs)).advance cs.length
      (Positions.upTo cs.length)) ≠ 0 := bne_iff_ne
  rw [hne]
  constructor
  · intro h
    obtain ⟨j, hj⟩ := Nat.exists_testBit_of_ne_zero h
    obtain ⟨i, hi, hij⟩ := (hfollows j).1 hj
    exact ⟨i, hi, j, hij⟩
  · rintro ⟨i, hi, j, hij⟩ h
    have hj := (hfollows j).2 ⟨i, hi, hij⟩
    rw [h, Nat.zero_testBit] at hj
    cases hj

theorem leads_textStart {i j : Nat} : Leads cs (.look .textStart) i j ↔ i = 0 ∧ j = 0 := by
  cases i with
  | zero => simp [Leads, Look.holds, before?]
  | succ i =>
    simp only [Leads, Look.holds, before?]
    constructor
    · rintro ⟨-, hi, hnone⟩
      rw [List.getElem?_eq_getElem hi] at hnone
      cases hnone
    · rintro ⟨h, -⟩
      cases h

theorem leads_textEnd {i j : Nat} :
    Leads cs (.look .textEnd) i j ↔ i = cs.length ∧ j = cs.length := by
  simp only [Leads, Look.holds, Option.isNone_iff_eq_none, List.getElem?_eq_none_iff]
  omega

/-- Between anchors for the start and the end of a text an expression matches the whole text. -/
theorem leads_between_anchors {r : Syntax} {i j : Nat} :
    Leads cs (.seq [.look .textStart, r, .look .textEnd]) i j ↔
      i = 0 ∧ j = cs.length ∧ r.Leads cs 0 j := by
  constructor
  · rintro ⟨k, hstart, l, hr, m, hend, rfl⟩
    obtain ⟨rfl, rfl⟩ := (leads_textStart cs).1 hstart
    obtain ⟨rfl, rfl⟩ := (leads_textEnd cs).1 hend
    exact ⟨rfl, rfl, hr⟩
  · rintro ⟨rfl, rfl, hr⟩
    exact ⟨0, (leads_textStart cs).2 ⟨rfl, rfl⟩, cs.length, hr, cs.length,
      (leads_textEnd cs).2 ⟨rfl, rfl⟩, rfl⟩

end Tree

end Motif.Regex
