import Motif.Node
import Mathlib.Data.List.Basic

/-!
# Negations on leaves

A negation moves through a connective to its parts, which makes the other connective of it, and two
negations cancel. The parts are asked in the same order, and the same part decides: a conjunction
ends with the first rejection, and the disjunction of the negations with the first acceptance. So
the answer stays, or the failure that comes before it, and so do the calls of functions. Payloads
are no part of that, since a negation drops them.

* `Told`, `NodePattern.told`: whether an element is accepted, and the calls on the way.
* `Told.untilAnswer`: asks one after the other until an answer decides;
  `Told.opposite_untilAnswer` is De Morgan's law.
* `NodePattern.Pushes`: negations are moved towards the leaves, anywhere in a pattern.
* `NodePattern.normalForm`: all negations on leaves.
* **`NodePattern.pushing_keeps_answers`**: the answers and the calls stay.
-/

namespace Motif

/-! ## Answers -/

/-- What a test tells: an answer or a failure, and the calls on the way. -/
structure Told where
  /-- The element is accepted, or a function failed. -/
  answer : Except PredicateError Bool
  /-- The calls of functions, in order. -/
  calls : List Call

namespace Told

variable (t : Told) {f : Bool → Told}

/-- An answer without calls. -/
def pure (b : Bool) : Told := ⟨.ok b, []⟩

/-- Goes on behind an answer; a failure stays. -/
def andThen (f : Bool → Told) : Told :=
  match t.answer with
  | .error e => ⟨.error e, t.calls⟩
  | .ok b => ⟨(f b).answer, t.calls ++ (f b).calls⟩

/-- The other answer. -/
def opposite : Told := t.andThen fun b => pure !b

/-- Asks one after the other, until an answer decides or there is a failure. -/
def untilAnswer (decisive : Bool) : List Told → Told
  | [] => pure !decisive
  | t :: ts => t.andThen fun b => if b = decisive then pure b else untilAnswer decisive ts

theorem opposite_andThen : (t.andThen f).opposite = t.andThen fun b => (f b).opposite := by
  obtain ⟨answer, calls⟩ := t
  cases answer with
  | error e => rfl
  | ok b =>
    rw [andThen, andThen]
    dsimp only
    cases hf : (f b).answer <;> simp [opposite, andThen, pure, hf]

theorem andThen_opposite : t.opposite.andThen f = t.andThen fun b => f !b := by
  obtain ⟨answer, calls⟩ := t
  cases answer with
  | error e => rfl
  | ok b => simp [opposite, andThen, pure]

@[simp] theorem opposite_opposite : t.opposite.opposite = t := by
  obtain ⟨answer, calls⟩ := t
  cases answer <;> simp [opposite, andThen, pure]

/-- **De Morgan's law**: the opposite answers are asked for in the same order, until the opposite of
what decided. -/
theorem opposite_untilAnswer (decisive : Bool) (ts : List Told) :
    (untilAnswer decisive ts).opposite = untilAnswer (!decisive) (ts.map opposite) := by
  induction ts with
  | nil => rfl
  | cons t ts ih =>
    rw [List.map_cons, untilAnswer, untilAnswer, opposite_andThen, andThen_opposite]
    congr 1
    funext b
    by_cases hb : b = decisive
    · rw [if_pos hb, if_pos (congrArg not hb)]
      rfl
    · rw [if_neg hb, if_neg (hb ∘ Bool.not_inj), ih]

end Told

/-- What an outcome tells, apart from payloads. -/
def Tested.told (t : Tested) : Told := ⟨t.verdict.map Verdict.isAccept, t.calls⟩

theorem Tested.told_bind {t : Tested} {f : Verdict → Tested} {g : Bool → Told}
    (h : ∀ v, (f v).told = g v.isAccept) : (t.bind f).told = t.told.andThen g := by
  obtain ⟨verdict, calls⟩ := t
  cases verdict with
  | error e => rfl
  | ok v =>
    show (⟨(f v).told.answer, calls ++ (f v).told.calls⟩ : Told) = _
    rw [h]
    rfl

namespace NodePattern

variable {p q : NodePattern} {ps : List NodePattern} {e : Element}

/-- What the test of an element tells. -/
def told (p : NodePattern) (e : Element) : Told := (p.test e).told

theorem told_eq_iff : q.told e = p.told e ↔
    q.accepts e = p.accepts e ∧ (q.test e).calls = (p.test e).calls :=
  Told.mk.injEq .. ▸ Iff.rfl

theorem told_negation : (negation p).told e = (p.told e).opposite := by
  rw [told, test]
  exact Tested.told_bind fun v => by cases v <;> rfl

theorem told_testAll (ps : List NodePattern) (payload : Option Value) (e : Element) :
    (testAll ps payload e).told = .untilAnswer false (ps.map (told · e)) := by
  induction ps generalizing payload with
  | nil => cases payload <;> rfl
  | cons p ps ih =>
    rw [testAll]
    refine Tested.told_bind fun v => ?_
    cases v with
    | reject => rfl
    | accept => exact ih payload
    | acceptWith value => exact ih (payload.or (some value))

theorem told_testSome (ps : List NodePattern) (e : Element) :
    (testSome ps e).told = .untilAnswer true (ps.map (told · e)) := by
  induction ps with
  | nil => rfl
  | cons p ps ih =>
    rw [testSome]
    refine Tested.told_bind fun v => ?_
    cases v with
    | reject => exact ih
    | accept => rfl
    | acceptWith value => rfl

theorem told_conjunction :
    (conjunction ps).told e = .untilAnswer false (ps.map (told · e)) := by
  rw [told, test, told_testAll]

theorem told_disjunction :
    (disjunction ps).told e = .untilAnswer true (ps.map (told · e)) := by
  rw [told, test, told_testSome]

/-! ## Moving negations -/

/-- Negations are moved towards the leaves, one after the other and anywhere in a pattern. -/
inductive Pushes : NodePattern → NodePattern → Prop
  | refl (p : NodePattern) : Pushes p p
  | trans {p q r : NodePattern} (h : Pushes p q) (h' : Pushes q r) : Pushes p r
  | throughConjunction (ps : List NodePattern) :
    Pushes (negation (conjunction ps)) (disjunction (ps.map negation))
  | throughDisjunction (ps : List NodePattern) :
    Pushes (negation (disjunction ps)) (conjunction (ps.map negation))
  | cancel (p : NodePattern) : Pushes (negation (negation p)) p
  | underNegation {p q : NodePattern} (h : Pushes p q) : Pushes (negation p) (negation q)
  | inConjunction (before after : List NodePattern) {p q : NodePattern} (h : Pushes p q) :
    Pushes (conjunction (before ++ p :: after)) (conjunction (before ++ q :: after))
  | inDisjunction (before after : List NodePattern) {p q : NodePattern} (h : Pushes p q) :
    Pushes (disjunction (before ++ p :: after)) (disjunction (before ++ q :: after))

theorem Pushes.told_eq (h : Pushes p q) (e : Element) : q.told e = p.told e := by
  have hopposite (ps : List NodePattern) :
      (ps.map negation).map (told · e) = (ps.map (told · e)).map Told.opposite := by
    simp only [List.map_map]
    exact List.map_congr_left fun p _ => told_negation
  induction h with
  | refl => rfl
  | trans _ _ ih ih' => exact ih'.trans ih
  | throughConjunction ps =>
    rw [told_disjunction, told_negation, told_conjunction, Told.opposite_untilAnswer, hopposite]
    rfl
  | throughDisjunction ps =>
    rw [told_conjunction, told_negation, told_disjunction, Told.opposite_untilAnswer, hopposite]
    rfl
  | cancel p => rw [told_negation, told_negation, Told.opposite_opposite]
  | underNegation _ ih => rw [told_negation, told_negation, ih]
  | inConjunction before after _ ih =>
    simp only [told_conjunction, List.map_append, List.map_cons, ih]
  | inDisjunction before after _ ih =>
    simp only [told_disjunction, List.map_append, List.map_cons, ih]

theorem Pushes.parts {connective : List NodePattern → NodePattern}
    (hpart : ∀ (before after : List NodePattern) {p q : NodePattern}, Pushes p q →
      Pushes (connective (before ++ p :: after)) (connective (before ++ q :: after)))
    {qs : List NodePattern} (h : List.Forall₂ Pushes ps qs) :
    Pushes (connective ps) (connective qs) := by
  -- `before` are the parts in front of those that are left to move
  have hparts (before : List NodePattern) :
      Pushes (connective (before ++ ps)) (connective (before ++ qs)) := by
    induction h generalizing before with
    | nil => exact .refl _
    | @cons p q ps qs hp _ ih =>
      refine (hpart before ps hp).trans ?_
      simpa using ih (before ++ [q])
  exact hparts []

/-! ## Normal forms -/

/-- A pattern without parts. -/
def isLeaf : NodePattern → Bool
  | any | attr .. | presence .. | custom _ => true
  | negation _ | conjunction _ | disjunction _ => false

mutual

/-- Negations stand on leaves only. -/
def isNormal : NodePattern → Bool
  | negation p => p.isLeaf
  | conjunction ps | disjunction ps => allNormal ps
  | any | attr .. | presence .. | custom _ => true

/-- So they do in all parts. -/
def allNormal : List NodePattern → Bool
  | [] => true
  | p :: ps => p.isNormal && allNormal ps

end

/-- A pattern or its negation. -/
def signed (negated : Bool) (p : NodePattern) : NodePattern := if negated then negation p else p

mutual

/-- A pattern, or its negation, with all negations on leaves. -/
def pushed (negated : Bool) : NodePattern → NodePattern
  | negation p => p.pushed !negated
  | conjunction ps =>
    if negated then disjunction (pushedAll true ps) else conjunction (pushedAll false ps)
  | disjunction ps =>
    if negated then conjunction (pushedAll true ps) else disjunction (pushedAll false ps)
  | p => signed negated p

/-- The parts of a connective, or their negations. -/
def pushedAll (negated : Bool) : List NodePattern → List NodePattern
  | [] => []
  | p :: ps => p.pushed negated :: pushedAll negated ps

end

/-- The pattern with all negations on leaves. -/
def normalForm (p : NodePattern) : NodePattern := p.pushed false

mutual

theorem pushes_pushed (negated : Bool) (p : NodePattern) :
    Pushes (signed negated p) (p.pushed negated) := by
  match p, negated with
  | negation p, true => exact (Pushes.cancel p).trans (pushes_pushed false p)
  | negation p, false => exact pushes_pushed true p
  | conjunction ps, true =>
    exact (Pushes.throughConjunction ps).trans (.parts .inDisjunction (pushes_pushedAll true ps))
  | conjunction ps, false =>
    have h := pushes_pushedAll false ps
    rw [show signed false = id from rfl, List.map_id] at h
    exact .parts .inConjunction h
  | disjunction ps, true =>
    exact (Pushes.throughDisjunction ps).trans (.parts .inConjunction (pushes_pushedAll true ps))
  | disjunction ps, false =>
    have h := pushes_pushedAll false ps
    rw [show signed false = id from rfl, List.map_id] at h
    exact .parts .inDisjunction h
  | any, negated | attr .., negated | presence .., negated | custom _, negated => exact .refl _

theorem pushes_pushedAll (negated : Bool) (ps : List NodePattern) :
    List.Forall₂ Pushes (ps.map (signed negated)) (pushedAll negated ps) := by
  match ps with
  | [] => exact .nil
  | p :: ps => exact .cons (pushes_pushed negated p) (pushes_pushedAll negated ps)

end

mutual

theorem isNormal_pushed (negated : Bool) (p : NodePattern) :
    (p.pushed negated).isNormal = true := by
  match p, negated with
  | negation p, negated => exact isNormal_pushed _ p
  | conjunction ps, true | disjunction ps, true => exact allNormal_pushedAll true ps
  | conjunction ps, false | disjunction ps, false => exact allNormal_pushedAll false ps
  | any, true | attr .., true | presence .., true | custom _, true => rfl
  | any, false | attr .., false | presence .., false | custom _, false => rfl

theorem allNormal_pushedAll (negated : Bool) (ps : List NodePattern) :
    allNormal (pushedAll negated ps) = true := by
  match ps with
  | [] => rfl
  | p :: ps =>
    exact Bool.and_eq_true_iff.2 ⟨isNormal_pushed negated p, allNormal_pushedAll negated ps⟩

end

/-! ## Tests -/

/-- **Negations can be moved to the leaves**, all of them or some: the same functions are called,
and the outcome stays. -/
theorem pushing_keeps_answers (p : NodePattern) (e : Element) :
    Pushes p p.normalForm ∧ p.normalForm.isNormal = true ∧
      ∀ q, Pushes p q →
        q.accepts e = p.accepts e ∧ (q.test e).calls = (p.test e).calls :=
  ⟨pushes_pushed false p, isNormal_pushed false p, fun _ h => told_eq_iff.1 (h.told_eq e)⟩

/-- A negation in front of a conjunction with two more negations in it, and a function that fails
before the last one is asked. -/
theorem pushing_keeps_answers_of_failure :
    let yes : NodePattern := .custom ⟨"yes", fun _ => .ok (.acceptWith .nil), false⟩
    let no : NodePattern := .custom ⟨"no", fun _ => .ok .reject, false⟩
    let fails : NodePattern := .custom ⟨"fails", fun _ => .error ⟨"fails", "broken"⟩, false⟩
    let p := negation (conjunction [yes, negation (negation (disjunction [no, fails, yes]))])
    let q := disjunction [negation yes, conjunction [negation no, negation fails, negation yes]]
    let e : Element := ⟨"a", fun _ => none⟩
    p.normalForm = q ∧ q.accepts e = .error ⟨"fails", "broken"⟩ ∧
      (q.test e).calls.map (·.function.name) = ["yes", "no", "fails"] ∧ Pushes p q ∧
      q.accepts e = p.accepts e ∧ (q.test e).calls = (p.test e).calls := by
  intro yes no fails p q e
  have hq : p.normalForm = q := rfl
  obtain ⟨hpushes, -, h⟩ := pushing_keeps_answers p e
  rw [hq] at hpushes
  exact ⟨hq, rfl, rfl, hpushes, h q hpushes⟩

end NodePattern

end Motif
