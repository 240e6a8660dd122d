import Motif.Proofs.Unrolling

/-!
# Patterns that can be empty

The analysis that tells whether a pattern can be empty looks at the tree alone. It is right of every
tree whose choices have alternatives: what it says cannot be empty consumes an element on each of
its paths, whatever the machine is asked to do. Of a choice without alternatives it says that it
cannot be empty, although the code of such a choice is empty and lets every path through.

* `Expr.filled`: the same expression with the empty sequence in the place of empty choices.
* `Expr.paths_filled`: it has the same paths.
* **`Pattern.canBeEmpty_of_attempt`**: what has matched nothing can be empty, says the analysis.
* `Pattern.canBeEmpty_of_empty_choice`: it does not say so of an empty choice.
-/

namespace Motif

namespace Expr

mutual

/-- The same expression, in which each choice without alternatives is the empty sequence. -/
def filled : Expr → Expr
  | node p => node p
  | sequence es => sequence (filledAll es)
  | choice [] => sequence []
  | choice (e :: es) => choice (filledAll (e :: es))
  | iterate e min max greedy => iterate e.filled min max greedy
  | group e id name => group e.filled id name
  | backref id => backref id
  | multi min max text greedy => multi min max text greedy
  | action e name target => action e.filled name target
  | anchor a => anchor a

/-- The same expressions, without empty choices. -/
def filledAll : List Expr → List Expr
  | [] => []
  | e :: es => e.filled :: filledAll es

end

mutual

theorem paths_filled (elements : Array Element) (render : List Element → String) (greedy : Bool)
    (e : Expr) (q : Path) :
    e.filled.paths elements render greedy q = e.paths elements render greedy q := by
  match e with
  | node p | choice [] | backref id | multi .. | anchor a => rfl
  | sequence es => exact pathsOfAll_filledAll elements render greedy es q
  | choice (e :: es) => exact pathsOfSome_filledAll elements render greedy (e :: es) q
  | iterate e min max own =>
    rw [filled, paths, paths, funext (paths_filled elements render _ e)]
  | group e none name => exact paths_filled elements render greedy e q
  | group e (some id) name => rw [filled, paths, paths, paths_filled elements render greedy e]
  | action e name target => rw [filled, paths, paths, paths_filled elements render greedy e]

theorem pathsOfAll_filledAll (elements : Array Element) (render : List Element → String)
    (greedy : Bool) (es : List Expr) (q : Path) :
    pathsOfAll elements render greedy (filledAll es) q =
      pathsOfAll elements render greedy es q := by
  match es with
  | [] => rfl
  | e :: es =>
    rw [filledAll, pathsOfAll, pathsOfAll, paths_filled elements render greedy e,
      funext (pathsOfAll_filledAll elements render greedy es)]

theorem pathsOfSome_filledAll (elements : Array Element) (render : List Element → String)
    (greedy : Bool) (es : List Expr) (q : Path) :
    pathsOfSome elements render greedy (filledAll es) q =
      pathsOfSome elements render greedy es q := by
  match es with
  | [] => rfl
  | e :: es =>
    rw [filledAll, pathsOfSome, pathsOfSome, paths_filled elements render greedy e,
      pathsOfSome_filledAll elements render greedy es q]

end

mutual

theorem choicesFilled_filled (e : Expr) : e.filled.choicesFilled = true := by
  match e with
  | node _ | choice [] | backref _ | multi .. | anchor _ => rfl
  | sequence es => exact allChoicesFilled_filledAll es
  | choice (e :: es) => exact allChoicesFilled_filledAll (e :: es)
  | iterate e _ _ _ | group e _ _ | action e _ _ => exact choicesFilled_filled e

theorem allChoicesFilled_filledAll (es : List Expr) : allChoicesFilled (filledAll es) = true := by
  match es with
  | [] => rfl
  | e :: es =>
    rw [filledAll, allChoicesFilled, choicesFilled_filled e, allChoicesFilled_filledAll es,
      Bool.and_self]

end

mutual

theorem boundsOrdered_filled (e : Expr) : e.filled.boundsOrdered = e.boundsOrdered := by
  match e with
  | node _ | choice [] | backref _ | multi .. | anchor _ => rfl
  | sequence es => exact allBoundsOrdered_filledAll es
  | choice (e :: es) => exact allBoundsOrdered_filledAll (e :: es)
  | iterate e _ _ _ => rw [filled, boundsOrdered, boundsOrdered, boundsOrdered_filled e]
  | group e _ _ | action e _ _ => exact boundsOrdered_filled e

theorem allBoundsOrdered_filledAll (es : List Expr) :
    allBoundsOrdered (filledAll es) = allBoundsOrdered es := by
  match es with
  | [] => rfl
  | e :: es =>
    rw [filledAll, allBoundsOrdered, allBoundsOrdered, boundsOrdered_filled e,
      allBoundsOrdered_filledAll es]

end

mutual

theorem filled_of_choicesFilled (e : Expr) (h : e.choicesFilled = true) : e.filled = e := by
  match e with
  | node _ | backref _ | multi .. | anchor _ => rfl
  | sequence es => exact congrArg sequence (filledAll_of_allChoicesFilled es h)
  | choice [] => cases h
  | choice (e :: es) => exact congrArg choice (filledAll_of_allChoicesFilled (e :: es) h)
  | iterate e _ _ _ | group e _ _ | action e _ _ => rw [filled, filled_of_choicesFilled e h]

theorem filledAll_of_allChoicesFilled (es : List Expr) (h : allChoicesFilled es = true) :
    filledAll es = es := by
  match es with
  | [] => rfl
  | e :: es =>
    rw [allChoicesFilled, Bool.and_eq_true] at h
    rw [filledAll, filled_of_choicesFilled e h.1, filledAll_of_allChoicesFilled es h.2]

end

end Expr

namespace Pattern

variable {source : String} {root : Expr} {p : Pattern}

/-- Where a path consumes nothing, the analysis says that the tree without empty choices can be
empty. -/
theorem canBeEmpty_filled_of_mem_pathsFrom (hp : ofExpr source root = .ok p)
    (hb : root.boundsOrdered = true) {elements : Array Element} {render : List Element → String}
    {start : Nat} {q : Path} (hq : .ok q ∈ p.pathsFrom elements render start)
    (hpos : q.pos = start) : root.filled.canBeEmpty = true := by
  by_contra hno
  obtain ⟨rfl, -⟩ := eq_of_ofExpr hp
  rw [pathsFrom, ← Expr.paths_filled] at hq
  have hlt : start < q.pos := root.filled.consumes_of_mem_paths true
    (root.boundsOrdered_filled.trans hb) root.choicesFilled_filled (by simpa using hno) hq
  omega

/-- **What has matched nothing can be empty, says the analysis**, once choices without alternatives
are written as empty sequences. -/
theorem canBeEmpty_of_attempt (hp : ofExpr source root = .ok p) (hb : root.boundsOrdered = true)
    {elements : Array Element} {render : List Element → String} {stop limit : Option Nat}
    {a : Account} {start : Nat} {b : Buffers} {store : Store}
    (h : (p.attempt elements render stop limit a start b).outcome =
      some (.accepted start store)) :
    root.filled.canBeEmpty = true ∧ (root.choicesFilled = true → root.canBeEmpty = true) := by
  rw [attempt_eq] at h
  have hfilled := canBeEmpty_filled_of_mem_pathsFrom hp hb (mem_pathsFrom_of_attempt h) rfl
  exact ⟨hfilled, fun hc => root.filled_of_choicesFilled hc ▸ hfilled⟩

/-- A group with any number of elements and a reference to it, where the match has to end at once. -/
theorem canBeEmpty_of_attempt_of_reference :
    let root : Expr := .sequence [.choice [.group (.iterate (.node .any) 0 none true) (some 1) none],
      .backref 1]
    let elements : Array Element := #[⟨"a", fun _ => none⟩, ⟨"b", fun _ => none⟩]
    ∃ p store, ofExpr "" root = .ok p ∧ root.boundsOrdered = true ∧
      (p.attempt elements joinTexts (some 1) none {} 1).outcome = some (.accepted 1 store) ∧
      root.filled.canBeEmpty = true ∧ root.canBeEmpty = true := by
  intro root elements
  let p : Pattern := .build "" root [] 2
  have hp : ofExpr "" root = .ok p := rfl
  have hb : root.boundsOrdered = true := rfl
  have hfirst : (p.pathsFrom elements joinTexts 1).find? (Trial.decides (some 1)) =
      some (.ok ⟨1, #[none, none, some 1, some 1], #[]⟩) := by cbv
  obtain ⟨store, h⟩ := exists_accepted_of_first hfirst
  have hempty := canBeEmpty_of_attempt hp hb h
  exact ⟨p, store, hp, hb, h, hempty.1, hempty.2 rfl⟩

/-- Of a choice without alternatives the analysis says that it cannot be empty. -/
theorem canBeEmpty_of_empty_choice :
    let root : Expr := .choice []
    ∃ p, ofExpr "" root = .ok p ∧ root.boundsOrdered = true ∧
      (p.attempt #[] joinTexts (some 0) none {} 0).outcome =
        some (.accepted 0 (.initial 1 0)) ∧ root.canBeEmpty = false := by
  intro root
  exact ⟨_, rfl, rfl, by cbv, rfl⟩

end Pattern

end Motif
