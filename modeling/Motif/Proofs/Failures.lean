import Motif.Proofs.Attempt

/-!
# Failures of functions

Only functions of the caller fail. A failure that is met on the way through an expression is that
of a function in one of its predicates, asked about an element of the sequence.

* `NodePattern.functions`, `Expr.functions`: the functions that a predicate or a pattern may call.
* `NodePattern.exists_function_of_error`: a predicate fails because a function does.
* `Trial.error_mem_onward`, `Trial.exists_of_error_mem_iterations`: where failures come from.
* `Expr.FailsFrom`: a function fails on an element at a position or behind it.
* **`Expr.failsFrom_of_error`**: a failure on the way is that of a function.
-/

namespace Motif

/-! ## Predicates -/

theorem Tested.bind_eq_error {t : Tested} {f : Verdict → Tested} {err : PredicateError}
    (h : (t.bind f).verdict = .error err) :
    t.verdict = .error err ∨ ∃ v, (f v).verdict = .error err := by
  unfold bind at h
  split at h
  · next e he => exact .inl (he.trans h)
  · next v _ => exact .inr ⟨v, h⟩

namespace NodePattern

mutual

/-- The functions that a predicate may call. -/
def functions : NodePattern → List NodeFunction
  | any | attr .. | presence .. => []
  | negation p => p.functions
  | conjunction ps | disjunction ps => functionsOfAll ps
  | custom f => [f]

/-- The functions that several predicates may call. -/
def functionsOfAll : List NodePattern → List NodeFunction
  | [] => []
  | p :: ps => p.functions ++ functionsOfAll ps

end

variable {x : Element} {err : PredicateError}

mutual

theorem exists_function_of_error (p : NodePattern) (h : (p.test x).verdict = .error err) :
    ∃ f ∈ p.functions, f.eval x = .error err := by
  match p with
  | any | attr .. | presence .. => cases h
  | negation p =>
    obtain h | ⟨v, h⟩ := Tested.bind_eq_error h
    · exact exists_function_of_error p h
    · cases h
  | conjunction ps => exact exists_function_of_testAll_error ps none h
  | disjunction ps => exact exists_function_of_testSome_error ps h
  | custom f => exact ⟨f, List.mem_singleton_self f, h⟩

theorem exists_function_of_testAll_error (ps : List NodePattern) (payload : Option Value)
    (h : (testAll ps payload x).verdict = .error err) :
    ∃ f ∈ functionsOfAll ps, f.eval x = .error err := by
  match ps with
  | [] => cases h
  | p :: ps =>
    obtain h | ⟨v, h⟩ := Tested.bind_eq_error h
    · obtain ⟨f, hf, he⟩ := exists_function_of_error p h
      exact ⟨f, List.mem_append_left _ hf, he⟩
    · have rest (payload : Option Value) (h : (testAll ps payload x).verdict = .error err) :
          ∃ f ∈ functionsOfAll (p :: ps), f.eval x = .error err := by
        obtain ⟨f, hf, he⟩ := exists_function_of_testAll_error ps payload h
        exact ⟨f, List.mem_append_right _ hf, he⟩
      cases v with
      | reject => cases h
      | accept => exact rest _ h
      | acceptWith v => exact rest _ h

theorem exists_function_of_testSome_error (ps : List NodePattern)
    (h : (testSome ps x).verdict = .error err) :
    ∃ f ∈ functionsOfAll ps, f.eval x = .error err := by
  match ps with
  | [] => cases h
  | p :: ps =>
    obtain h | ⟨v, h⟩ := Tested.bind_eq_error h
    · obtain ⟨f, hf, he⟩ := exists_function_of_error p h
      exact ⟨f, List.mem_append_left _ hf, he⟩
    · split at h
      · cases h
      · obtain ⟨f, hf, he⟩ := exists_function_of_testSome_error ps h
        exact ⟨f, List.mem_append_right _ hf, he⟩

end

end NodePattern

/-! ## Failures on the way through an expression -/

namespace Expr

mutual

/-- The functions that a pattern may call. -/
def functions : Expr → List NodeFunction
  | node p => p.functions
  | sequence es | choice es => functionsOfAll es
  | iterate e _ _ _ | group e _ _ | action e _ _ => e.functions
  | backref _ | multi .. | anchor _ => []

/-- The functions that several patterns may call. -/
def functionsOfAll : List Expr → List NodeFunction
  | [] => []
  | e :: es => e.functions ++ functionsOfAll es

end

end Expr

namespace Trial

variable {err : PredicateError}

theorem error_mem_onward {ts : List Trial} {f : Path → List Trial} :
    .error err ∈ onward ts f ↔ .error err ∈ ts ∨ ∃ q, .ok q ∈ ts ∧ .error err ∈ f q := by
  unfold onward
  rw [List.mem_flatMap]
  constructor
  · rintro ⟨_ | q, hq, hr⟩
    · cases List.mem_singleton.1 hr
      exact .inl hq
    · exact .inr ⟨q, hq, hr⟩
  · rintro (h | ⟨q, hq, hr⟩)
    · exact ⟨_, h, List.mem_singleton_self _⟩
    · exact ⟨.ok q, hq, hr⟩

theorem exists_of_error_mem_iterations {elements : Array Element} {body : Path → List Trial}
    {min : Nat} {max : Option Nat} {greedy : Bool} {count : Nat} {q : Path}
    (hahead : ∀ q r, .ok r ∈ body q → q.Ahead elements r)
    (h : .error err ∈ iterations elements body min max greedy count q) :
    ∃ r, q.Ahead elements r ∧ .error err ∈ body r := by
  induction count, q using iterations_induction elements min with
  | step count q ih =>
    have hmore : .error err ∈ iteration elements body min count
        (iterations elements body min max greedy (count + 1)) q := by
      rw [iterations_eq] at h
      dsimp only at h
      split_ifs at h
      · exact h
      · cases List.mem_singleton.1 h
      · simpa using h
      · simpa using h
    obtain h | ⟨r, hr, h⟩ := error_mem_onward.1 hmore
    · exact ⟨q, .refl q, h⟩
    · split at h
      · next hgo =>
        obtain ⟨r', hr', h⟩ := ih r hgo h
        exact ⟨r', (hahead q r hr).trans hr', h⟩
      · cases h

end Trial

namespace Expr

variable {elements : Array Element} {render : List Element → String} {err : PredicateError}

/-- One of some functions fails on an element at a position or behind it. -/
def FailsFrom (elements : Array Element) (fs : List NodeFunction) (pos : Nat)
    (err : PredicateError) : Prop :=
  ∃ f ∈ fs, ∃ (i : Nat) (x : Element), pos ≤ i ∧ elements[i]? = some x ∧ f.eval x = .error err

theorem FailsFrom.mono {fs fs' : List NodeFunction} {q r : Path}
    (h : FailsFrom elements fs r.pos err) (hfs : fs ⊆ fs') (hr : q.Ahead elements r) :
    FailsFrom elements fs' q.pos err := by
  obtain ⟨f, hf, i, x, hi, hx, he⟩ := h
  unfold Path.Ahead at hr
  exact ⟨f, hfs hf, i, x, by omega, hx, he⟩

mutual

/-- **A failure on the way through an expression is that of a function**, on an element from the
position on. -/
theorem failsFrom_of_error (greedy : Bool) (e : Expr) {q : Path}
    (h : .error err ∈ e.paths elements render greedy q) :
    FailsFrom elements e.functions q.pos err := by
  match e with
  | node p =>
    obtain ⟨x, hx, ht⟩ := Trial.exists_of_error_mem_ofNode h
    obtain ⟨f, hf, he⟩ := p.exists_function_of_error ht
    exact ⟨f, hf, q.pos, x, Nat.le_refl _, hx, he⟩
  | sequence es => exact failsFrom_of_error_ofAll greedy es h
  | choice [] => cases List.mem_singleton.1 h
  | choice (e :: es) => exact failsFrom_of_error_ofSome greedy (e :: es) h
  | iterate e min max own =>
    rw [paths] at h
    split at h
    · cases List.mem_singleton.1 h
    · obtain ⟨r, hr, h⟩ :=
        Trial.exists_of_error_mem_iterations (fun _ _ => ahead_of_mem_paths _ e) h
      exact (failsFrom_of_error _ e h).mono (fun _ => id) hr
  | group e none _ => exact failsFrom_of_error greedy e h
  | group e (some id) _ | action e _ _ =>
    obtain h | ⟨r, -, h⟩ := Trial.error_mem_onward.1 h
    · have := failsFrom_of_error greedy e h
      exact this
    · cases List.mem_singleton.1 h
  | backref id =>
    exfalso
    change _ ∈ Trial.ofBackref elements id q at h
    unfold Trial.ofBackref at h
    split at h
    · cases h
    · split at h
      · cases List.mem_singleton.1 h
      · cases h
  | multi min max text own =>
    obtain ⟨_, -, h⟩ := List.mem_map.1 h
    cases h
  | anchor a =>
    change _ ∈ Trial.ofAnchor elements a q at h
    cases a <;> simp [Trial.ofAnchor] at h

theorem failsFrom_of_error_ofAll (greedy : Bool) (es : List Expr) {q : Path}
    (h : .error err ∈ pathsOfAll elements render greedy es q) :
    FailsFrom elements (functionsOfAll es) q.pos err := by
  match es with
  | [] => cases List.mem_singleton.1 h
  | e :: es =>
    obtain h | ⟨r, hr, h⟩ := Trial.error_mem_onward.1 h
    · exact (failsFrom_of_error greedy e h).mono (List.subset_append_left _ _) (.refl q)
    · exact (failsFrom_of_error_ofAll greedy es h).mono (List.subset_append_right _ _)
        (ahead_of_mem_paths greedy e hr)

theorem failsFrom_of_error_ofSome (greedy : Bool) (es : List Expr) {q : Path}
    (h : .error err ∈ pathsOfSome elements render greedy es q) :
    FailsFrom elements (functionsOfAll es) q.pos err := by
  match es with
  | [] => cases h
  | e :: es =>
    obtain h | h := List.mem_append.1 h
    · exact (failsFrom_of_error greedy e h).mono (List.subset_append_left _ _) (.refl q)
    · exact (failsFrom_of_error_ofSome greedy es h).mono (List.subset_append_right _ _) (.refl q)

end

end Expr

end Motif
