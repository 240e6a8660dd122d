import Motif.Expr
import Motif.Machine.Store
import Motif.Span

/-!
# Paths through an expression

What an expression means: the ways in which a sequence can be read along it, in the order of
preference. Nothing is lowered here and nothing is taken back; a path is a value, and the paths of
an expression are those of its parts put one behind the other.

* `Path`, `Trial`: how far a path has come, and a path that a function of the caller may cut off.
* `Trial.onward`: goes on from every path of a list.
* `Trial.iterations`: the paths through a repetition; `Trial.iterations_eq` says them in terms of
  one more iteration, and `Trial.iterations_induction` is the induction along them.
* `Expr.paths`: the paths through an expression, the preferred ones first.
* `Trial.decides`: a path that may end a match, or a failure.
* `Path.Ahead`, `Expr.ahead_of_mem_paths`: a path never moves to the left, nor out of the sequence.
-/

namespace Motif

/-- How far a path through an expression has come. -/
structure Path where
  /-- The position of the next element. -/
  pos : Nat
  /-- Beginning and end of group `g`, at `2 * g` and `2 * g + 1`. -/
  slots : Array (Option Nat)
  /-- What a match along the path will report, in order. -/
  notes : Array Note := #[]
deriving DecidableEq

namespace Path

/-- A path at its beginning, with so many groups. -/
def entry (groups start : Nat) : Path :=
  { pos := start, slots := Array.replicate (2 * groups) none }

variable (q : Path)

/-- Goes on behind `k` elements. -/
def advance (k : Nat) : Path := { q with pos := q.pos + k }

/-- Adds a note. -/
def note (n : Note) : Path := { q with notes := q.notes.push n }

/-- A group begins; what it captured before is forgotten. -/
def openGroup (id : Nat) : Path :=
  { q with slots :=
      (q.slots.setIfInBounds (2 * id) (some q.pos)).setIfInBounds (2 * id + 1) none }

/-- A group ends. -/
def closeGroup (id : Nat) : Path :=
  { q with slots := q.slots.setIfInBounds (2 * id + 1) (some q.pos) }

/-- What a group captured, if it has begun and ended. -/
def captured? (id : Nat) : Option Span :=
  match q.slots[2 * id]?.getD none, q.slots[2 * id + 1]?.getD none with
  | some b, some e => if b ≤ e then some ⟨b, e⟩ else none
  | _, _ => none

end Path

/-- A path, or the failure of a function of the caller on the way. -/
abbrev Trial := Except PredicateError Path

namespace Trial

/-- Goes on from every path of a list. A failure stays where it is. -/
def onward (ts : List Trial) (f : Path → List Trial) : List Trial :=
  ts.flatMap fun
    | .error e => [.error e]
    | .ok q => f q

/-- A failure, or a path that ends where the match has to end. -/
def decides (stop : Option Nat) : Trial → Bool
  | .error _ => true
  | .ok q => stop.all (· == q.pos)

variable (elements : Array Element) (render : List Element → String)

/-- The texts of the elements in a span. -/
def texts (s : Span) : List String := (elements.extract s.start s.stop).toList.map Element.text

/-- One element that satisfies a predicate. -/
def ofNode (p : NodePattern) (q : Path) : List Trial :=
  match elements[q.pos]? with
  | none => []
  | some e =>
    match (p.test e).verdict with
    | .error err => [.error err]
    | .ok .reject => []
    | .ok .accept => [.ok (q.advance 1)]
    | .ok (.acceptWith v) => [.ok ((q.note (.payload q.pos v)).advance 1)]

/-- Elements with the texts of those that a group captured. -/
def ofBackref (id : Nat) (q : Path) : List Trial :=
  match q.captured? id with
  | none => []
  | some s =>
    if q.pos + s.length ≤ elements.size ∧
        texts elements s = texts elements ⟨q.pos, q.pos + s.length⟩
    then [.ok (q.advance s.length)] else []

/-- The lengths of a run of elements whose joined text matches, the shortest first. -/
def spanLengths (min : Nat) (max : Option Nat) (text : Regex) (pos : Nat) : List Nat :=
  (List.range (elements.size - pos + 1)).filter fun len =>
    min ≤ len && max.all (len ≤ ·) &&
      text.matchesIn (render (elements.extract pos (pos + len)).toList)

/-- A run of elements, the longest first if `greedy`, else the shortest. -/
def ofMulti (min : Nat) (max : Option Nat) (text : Regex) (greedy : Bool) (q : Path) :
    List Trial :=
  let lengths := spanLengths elements render min max text q.pos
  (if greedy then lengths.reverse else lengths).map fun len => .ok (q.advance len)

/-- An assertion about the position. -/
def ofAnchor (a : Anchor) (q : Path) : List Trial :=
  let holds := match a with
    | .start => q.pos == 0
    | .stop => q.pos == elements.size
  if holds then [.ok q] else []

/-- The ways to go on with a repetition after `count` iterations. Beyond the minimum an iteration
that consumes nothing is a dead end. -/
def iterations (body : Path → List Trial) (min : Nat) (max : Option Nat) (greedy : Bool)
    (count : Nat) (q : Path) : List Trial :=
  let more := onward (body q) fun r =>
    if _h : count < min ∨ q.pos < r.pos ∧ r.pos ≤ elements.size then
      iterations body min max greedy (count + 1) r
    else []
  if count < min then more
  else if max = some count then [.ok q]
  else if greedy then more ++ [.ok q]
  else .ok q :: more
termination_by (min - count, elements.size - q.pos)
decreasing_by
  by_cases hc : count < min
  · exact .left _ _ (by omega)
  · have : min - (count + 1) = min - count := by omega
    rw [this]
    exact .right _ (by omega)

end Trial

namespace Expr

/-- The preference that a repetition hands down to its body. One that is exactly its body leaves
the preference as it is. -/
def bodyPreference (min : Nat) (max : Option Nat) (own greedy : Bool) : Bool :=
  if min = 1 ∧ max = some 1 then greedy else own && greedy

variable (elements : Array Element) (render : List Element → String)

mutual

/-- The paths through an expression, the preferred ones first; `greedy` is the preference of the
enclosing repetitions. -/
def paths (greedy : Bool) : Expr → Path → List Trial
  | node p, q => Trial.ofNode elements p q
  | sequence es, q => pathsOfAll greedy es q
  | choice [], q => [.ok q]
  | choice (e :: es), q => pathsOfSome greedy (e :: es) q
  | iterate e min max own, q =>
    if max = some 0 then [.ok q]
    else
      Trial.iterations elements (fun r => e.paths (bodyPreference min max own greedy) r)
        min max own 0 q
  | group e none _, q => e.paths greedy q
  | group e (some id) _, q =>
    Trial.onward (e.paths greedy (q.openGroup id)) fun r => [.ok (r.closeGroup id)]
  | backref id, q => Trial.ofBackref elements id q
  | multi min max text own, q => Trial.ofMulti elements render min max text (own && greedy) q
  | action e name target, q =>
    Trial.onward (e.paths greedy q) fun r => [.ok (r.note (.fire name target))]
  | anchor a, q => Trial.ofAnchor elements a q

/-- The paths through several expressions in a row. -/
def pathsOfAll (greedy : Bool) : List Expr → Path → List Trial
  | [], q => [.ok q]
  | e :: es, q => Trial.onward (e.paths greedy q) fun r => pathsOfAll greedy es r

/-- The paths through one of several expressions, those of earlier ones first. -/
def pathsOfSome (greedy : Bool) : List Expr → Path → List Trial
  | [], _ => []
  | e :: es, q => e.paths greedy q ++ pathsOfSome greedy es q

end

end Expr

/-! ## Paths among the trials -/

namespace Trial

theorem ok_mem_onward {ts : List Trial} {f : Path → List Trial} {r : Path} :
    .ok r ∈ onward ts f ↔ ∃ q, .ok q ∈ ts ∧ .ok r ∈ f q := by
  unfold onward
  rw [List.mem_flatMap]
  constructor
  · rintro ⟨_ | q, hq, hr⟩
    · cases List.mem_singleton.1 hr
    · exact ⟨q, hq, hr⟩
  · rintro ⟨q, hq, hr⟩
    exact ⟨.ok q, hq, hr⟩

theorem onward_ok (ts : List Trial) : (onward ts fun q => [.ok q]) = ts := by
  induction ts with
  | nil => rfl
  | cons t ts ih =>
    have : onward (t :: ts) (fun q => [.ok q]) = t :: onward ts (fun q => [.ok q]) := by
      cases t <;> rfl
    rw [this, ih]

variable (elements : Array Element)

/-- One more iteration, if it may count, and what comes behind it. -/
def iteration (body : Path → List Trial) (min count : Nat) (rest : Path → List Trial) (q : Path) :
    List Trial :=
  onward (body q) fun r =>
    if count < min ∨ q.pos < r.pos ∧ r.pos ≤ elements.size then rest r else []

variable {elements} {body : Path → List Trial} {min : Nat} {max : Option Nat} {greedy : Bool}
  {count : Nat} {q s : Path}

theorem iterations_eq :
    iterations elements body min max greedy count q =
      let more := iteration elements body min count
        (iterations elements body min max greedy (count + 1)) q
      if count < min then more
      else if max = some count then [.ok q]
      else if greedy then more ++ [.ok q]
      else .ok q :: more := by
  rw [iterations]
  simp only [iteration, dite_eq_ite]

theorem iterations_induction (elements : Array Element) (min : Nat) {motive : Nat → Path → Prop}
    (step : ∀ count q, (∀ r, count < min ∨ q.pos < r.pos ∧ r.pos ≤ elements.size →
      motive (count + 1) r) → motive count q) (count : Nat) (q : Path) : motive count q :=
  step count q fun r _ => iterations_induction elements min step (count + 1) r
termination_by (min - count, elements.size - q.pos)
decreasing_by
  by_cases hc : count < min
  · exact .left _ _ (by omega)
  · have : min - (count + 1) = min - count := by omega
    rw [this]
    exact .right _ (by omega)

theorem iterations_once : iterations elements body 1 (some 1) greedy 0 q = body q := by
  have hrest (r : Path) : iterations elements body 1 (some 1) greedy 1 r = [.ok r] := by
    rw [iterations_eq]
    simp
  rw [iterations_eq]
  simp only [Nat.zero_lt_one, if_true, iteration, true_or, Nat.zero_add, hrest]
  exact onward_ok (body q)

theorem ok_mem_iteration {rest : Path → List Trial} :
    .ok s ∈ iteration elements body min count rest q ↔
      ∃ r, .ok r ∈ body q ∧ (count < min ∨ q.pos < r.pos ∧ r.pos ≤ elements.size) ∧
        .ok s ∈ rest r := by
  rw [iteration, ok_mem_onward]
  refine exists_congr fun r => and_congr Iff.rfl ?_
  by_cases hr : count < min ∨ q.pos < r.pos ∧ r.pos ≤ elements.size
  · rw [if_pos hr]; simp only [hr, true_and]
  · rw [if_neg hr]; simp only [hr, false_and, List.not_mem_nil]

theorem ok_mem_iterations :
    .ok s ∈ iterations elements body min max greedy count q ↔
      ¬ count < min ∧ s = q ∨
      (count < min ∨ max ≠ some count) ∧
        .ok s ∈ iteration elements body min count
          (iterations elements body min max greedy (count + 1)) q := by
  rw [iterations_eq]
  by_cases hc : count < min
  · simp [hc]
  · by_cases hm : max = some count
    · simp [hc, hm]
    · cases greedy <;> simp [hc, hm, or_comm]

end Trial

/-! ## Paths move to the right -/

/-- The position stays, or moves to the right within the sequence. -/
def Path.Ahead (elements : Array Element) (q r : Path) : Prop :=
  r.pos = q.pos ∨ q.pos < r.pos ∧ r.pos ≤ elements.size

section Ahead

variable {elements : Array Element} {render : List Element → String}

theorem Path.Ahead.refl (q : Path) : q.Ahead elements q := .inl rfl

theorem Path.Ahead.trans {q r s : Path} (h : q.Ahead elements r) (h' : r.Ahead elements s) :
    q.Ahead elements s := by
  unfold Path.Ahead at *
  omega

namespace Trial

theorem ahead_ofNode {p : NodePattern} {q r : Path} (h : .ok r ∈ ofNode elements p q) :
    q.Ahead elements r := by
  unfold ofNode at h
  split at h
  · cases h
  · next e he =>
    have hlt : q.pos < elements.size := (Array.getElem?_eq_some_iff.1 he).1
    split at h <;> simp at h
    · subst h; exact .inr ⟨Nat.lt_succ_self _, hlt⟩
    · subst h; exact .inr ⟨Nat.lt_succ_self _, hlt⟩

theorem ahead_ofBackref {id : Nat} {q r : Path} (h : .ok r ∈ ofBackref elements id q) :
    q.Ahead elements r := by
  unfold ofBackref at h
  split at h
  · cases h
  · split at h
    · next hs =>
      simp at h
      subst h
      unfold Path.Ahead Path.advance
      dsimp only
      omega
    · cases h

theorem mem_spanLengths {min : Nat} {max : Option Nat} {text : Regex} {pos len : Nat} :
    len ∈ spanLengths elements render min max text pos ↔
      len ≤ elements.size - pos ∧ min ≤ len ∧ max.all (len ≤ ·) = true ∧
        text.matchesIn (render (elements.extract pos (pos + len)).toList) = true := by
  simp only [spanLengths, List.mem_filter, List.mem_range, Nat.lt_succ_iff, Bool.and_eq_true,
    decide_eq_true_eq, and_assoc]

theorem ahead_ofMulti {min : Nat} {max : Option Nat} {text : Regex} {greedy : Bool} {q r : Path}
    (h : .ok r ∈ ofMulti elements render min max text greedy q) : q.Ahead elements r := by
  have hlen : ∃ len ∈ spanLengths elements render min max text q.pos, q.advance len = r := by
    cases greedy <;> simpa [ofMulti] using h
  obtain ⟨len, hmem, rfl⟩ := hlen
  have := (mem_spanLengths.1 hmem).1
  unfold Path.Ahead Path.advance
  dsimp only
  omega

theorem ahead_ofAnchor {a : Anchor} {q r : Path} (h : .ok r ∈ ofAnchor elements a q) :
    q.Ahead elements r := by
  have hr : r = q := by cases a <;> simp [ofAnchor] at h <;> exact h.2
  rw [hr]
  exact .refl _

theorem ahead_iterations {body : Path → List Trial} {min : Nat} {max : Option Nat} {greedy : Bool}
    (hbody : ∀ q r, .ok r ∈ body q → q.Ahead elements r) {count : Nat} {q s : Path}
    (h : .ok s ∈ iterations elements body min max greedy count q) : q.Ahead elements s := by
  induction count, q using iterations_induction elements min with
  | step count q ih =>
    rw [ok_mem_iterations] at h
    rcases h with ⟨_, rfl⟩ | ⟨_, h⟩
    · exact .refl _
    · obtain ⟨r, hr, hgo, hs⟩ := ok_mem_iteration.1 h
      exact (hbody q r hr).trans (ih r hgo hs)

end Trial

namespace Expr

mutual

/-- **A path through an expression never moves to the left, nor out of the sequence.** -/
theorem ahead_of_mem_paths (greedy : Bool) (e : Expr) {q r : Path}
    (h : .ok r ∈ e.paths elements render greedy q) : q.Ahead elements r := by
  match e with
  | node p => exact Trial.ahead_ofNode h
  | sequence es => exact ahead_of_mem_pathsOfAll greedy es h
  | choice [] =>
    cases List.mem_singleton.1 h
    exact .refl _
  | choice (e :: es) => exact ahead_of_mem_pathsOfSome greedy (e :: es) h
  | iterate e min max own =>
    rw [paths] at h
    split at h
    · cases List.mem_singleton.1 h
      exact .refl _
    · exact Trial.ahead_iterations (fun _ _ => ahead_of_mem_paths _ e) h
  | group e none _ => exact ahead_of_mem_paths greedy e h
  | group e (some id) _ =>
    obtain ⟨r', hr', hr⟩ := Trial.ok_mem_onward.1 h
    cases List.mem_singleton.1 hr
    have := ahead_of_mem_paths greedy e hr'
    exact this
  | backref id => exact Trial.ahead_ofBackref h
  | multi min max text own => exact Trial.ahead_ofMulti h
  | action e name target =>
    obtain ⟨r', hr', hr⟩ := Trial.ok_mem_onward.1 h
    cases List.mem_singleton.1 hr
    have := ahead_of_mem_paths greedy e hr'
    exact this
  | anchor a => exact Trial.ahead_ofAnchor h

theorem ahead_of_mem_pathsOfAll (greedy : Bool) (es : List Expr) {q r : Path}
    (h : .ok r ∈ pathsOfAll elements render greedy es q) : q.Ahead elements r := by
  match es with
  | [] =>
    cases List.mem_singleton.1 h
    exact .refl _
  | e :: es =>
    obtain ⟨r', hr', hr⟩ := Trial.ok_mem_onward.1 h
    exact (ahead_of_mem_paths greedy e hr').trans (ahead_of_mem_pathsOfAll greedy es hr)

theorem ahead_of_mem_pathsOfSome (greedy : Bool) (es : List Expr) {q r : Path}
    (h : .ok r ∈ pathsOfSome elements render greedy es q) : q.Ahead elements r := by
  match es with
  | [] => cases h
  | e :: es =>
    rcases List.mem_append.1 h with h | h
    · exact ahead_of_mem_paths greedy e h
    · exact ahead_of_mem_pathsOfSome greedy es h

end

end Expr

end Ahead

end Motif
