import Motif.Proofs.Operations

/-!
# Trigger words are mandatory

Whatever a pattern with trigger words matches contains one of them. The words of a sequence come
from a part that consumes something, those of alternatives from all of them, and those of a
repetition from an iteration that has to be made. The last is why the bounds must be in order: a
repetition that allows no iteration is left out, even if it requires some.

* `Expr.boundsOrdered`: no repetition requires more iterations than it allows.
* `NodePattern.text_mem_of_test`: an accepted element has one of the words as its text.
* **`Expr.triggered_of_mem_paths`**: every path covers an element with one of the words.
-/

namespace Motif

/-! ## Elements -/

namespace NodePattern

theorem verdict_bind (t : Tested) (f : Verdict → Tested) :
    (t.bind f).verdict = t.verdict.bind fun v => (f v).verdict := by
  unfold Tested.bind
  cases t.verdict <;> rfl

theorem unionTriggers?_cons {p : NodePattern} {ps : List NodePattern} {ws : List String} :
    unionTriggers? (p :: ps) = some ws ↔
      ∃ us, p.triggerWords? = some us ∧ ∃ vs, unionTriggers? ps = some vs ∧ us ++ vs = ws := by
  rw [unionTriggers?]
  simp only [Option.bind_eq_bind, Option.bind_eq_some_iff, Option.pure_def, Option.some.injEq]

variable {x : Element}

mutual

/-- **An accepted element has one of the trigger words as its text.** -/
theorem text_mem_of_test (p : NodePattern) {ws : List String} {v : Verdict}
    (hw : p.triggerWords? = some ws) (h : (p.test x).verdict = .ok v) (hv : v.isAccept = true) :
    x.text ∈ ws := by
  match p with
  | any | negation _ | presence .. | custom _ => cases hw
  | attr .text (.equals value false) =>
    cases hw
    change Except.ok (Verdict.ofBool (x.text == value)) = .ok v at h
    cases h
    by_cases hx : x.text = value
    · exact List.mem_singleton.2 hx
    · rw [beq_eq_false_iff_ne.2 hx] at hv
      cases hv
  | attr .text (.equals _ true) | attr .text (.regex _) | attr .text (.compare ..)
  | attr (.named _) _ => cases hw
  | conjunction ps => exact text_mem_of_testAll ps hw h hv
  | disjunction [] => cases hw
  | disjunction (p :: ps) => exact text_mem_of_testSome (p :: ps) hw h hv

theorem text_mem_of_testAll (ps : List NodePattern) {ws : List String} {payload : Option Value}
    {v : Verdict} (hw : firstTriggers? ps = some ws)
    (h : (testAll ps payload x).verdict = .ok v) (hv : v.isAccept = true) : x.text ∈ ws := by
  match ps with
  | [] => cases hw
  | p :: ps =>
    rw [testAll, verdict_bind] at h
    obtain ⟨u, hu, hrest⟩ : ∃ u, (p.test x).verdict = .ok u ∧ u.isAccept = true ∧
        ∃ payload', (testAll ps payload' x).verdict = .ok v := by
      cases ht : (p.test x).verdict with
      | error e => rw [ht] at h; cases h
      | ok u =>
        rw [ht] at h
        cases u with
        | reject => cases h; cases hv
        | accept => exact ⟨_, rfl, rfl, _, h⟩
        | acceptWith _ => exact ⟨_, rfl, rfl, _, h⟩
    obtain ⟨hacc, payload', h'⟩ := hrest
    rw [firstTriggers?, Option.or_eq_some_iff] at hw
    obtain hw | ⟨_, hw⟩ := hw
    · exact text_mem_of_test p hw hu hacc
    · exact text_mem_of_testAll ps hw h' hv

theorem text_mem_of_testSome (ps : List NodePattern) {ws : List String} {v : Verdict}
    (hw : unionTriggers? ps = some ws) (h : (testSome ps x).verdict = .ok v)
    (hv : v.isAccept = true) : x.text ∈ ws := by
  match ps with
  | [] => cases h; cases hv
  | p :: ps =>
    obtain ⟨us, hus, vs, hvs, rfl⟩ := unionTriggers?_cons.1 hw
    rw [testSome, verdict_bind] at h
    cases ht : (p.test x).verdict with
    | error e => rw [ht] at h; cases h
    | ok u =>
      rw [ht] at h
      by_cases hu : u.isAccept = true
      · exact List.mem_append_left _ (text_mem_of_test p hus ht hu)
      · rw [Except.bind, if_neg hu] at h
        exact List.mem_append_right _ (text_mem_of_testSome ps hvs h hv)

end

end NodePattern

/-! ## Expressions -/

namespace Expr

mutual

/-- No repetition requires more iterations than it allows. -/
def boundsOrdered : Expr → Bool
  | node _ | backref _ | multi .. | anchor _ => true
  | sequence es | choice es => allBoundsOrdered es
  | iterate e min max _ => max.all (min ≤ ·) && e.boundsOrdered
  | group e _ _ | action e _ _ => e.boundsOrdered

/-- In no expression a repetition requires more iterations than it allows. -/
def allBoundsOrdered : List Expr → Bool
  | [] => true
  | e :: es => e.boundsOrdered && allBoundsOrdered es

end

theorem unionTriggers?_cons {e : Expr} {es : List Expr} {ws : List String} :
    unionTriggers? (e :: es) = some ws ↔
      ∃ us, e.triggerWords? = some us ∧ ∃ vs, unionTriggers? es = some vs ∧ us ++ vs = ws := by
  rw [unionTriggers?]
  simp only [Option.bind_eq_bind, Option.bind_eq_some_iff, Option.pure_def, Option.some.injEq]

end Expr

/-- One of the elements from `p` up to `q` has one of the words as its text. -/
def Triggered (elements : Array Element) (ws : List String) (p q : Nat) : Prop :=
  ∃ i x, p ≤ i ∧ i < q ∧ elements[i]? = some x ∧ x.text ∈ ws

section Paths

variable {elements : Array Element} {render : List Element → String} {ws : List String}

theorem Triggered.mono {p q p' q' : Nat} {ws' : List String} (h : Triggered elements ws p q)
    (hp : p' ≤ p) (hq : q ≤ q') (hws : ws ⊆ ws') : Triggered elements ws' p' q' := by
  obtain ⟨i, x, hpi, hiq, hx, hw⟩ := h
  exact ⟨i, x, Nat.le_trans hp hpi, Nat.lt_of_lt_of_le hiq hq, hx, hws hw⟩

theorem Path.Ahead.le {q r : Path} (h : q.Ahead elements r) : q.pos ≤ r.pos := by
  obtain h | h := h <;> omega

theorem Trial.triggered_of_mem_ofNode {p : NodePattern} {q r : Path}
    (hw : p.triggerWords? = some ws) (h : .ok r ∈ Trial.ofNode elements p q) :
    Triggered elements ws q.pos r.pos := by
  unfold Trial.ofNode at h
  split at h
  · cases h
  · next x hx =>
    have mem {v : Verdict} (ht : (p.test x).verdict = .ok v) (hv : v.isAccept = true) :
        Triggered elements ws q.pos (q.pos + 1) :=
      ⟨q.pos, x, Nat.le_refl _, Nat.lt_succ_self _, hx, p.text_mem_of_test hw ht hv⟩
    split at h
    · cases List.mem_singleton.1 h
    · cases h
    · next ht =>
      cases List.mem_singleton.1 h
      exact mem ht rfl
    · next ht =>
      cases List.mem_singleton.1 h
      exact mem ht rfl

theorem Trial.triggered_of_mem_iterations {body : Path → List Trial} {min : Nat} {max : Option Nat}
    {greedy : Bool} {q s : Path} (hmin : 0 < min)
    (hahead : ∀ q r, .ok r ∈ body q → q.Ahead elements r)
    (hbody : ∀ q r, .ok r ∈ body q → Triggered elements ws q.pos r.pos)
    (h : .ok s ∈ Trial.iterations elements body min max greedy 0 q) :
    Triggered elements ws q.pos s.pos := by
  obtain ⟨hc, -⟩ | ⟨-, h⟩ := Trial.ok_mem_iterations.1 h
  · exact absurd hmin hc
  · obtain ⟨r, hr, -, hs⟩ := Trial.ok_mem_iteration.1 h
    exact (hbody q r hr).mono (Nat.le_refl _) (Trial.ahead_iterations hahead hs).le fun _ => id

namespace Expr

mutual

/-- **Every path through an expression covers an element with one of its trigger words.** -/
theorem triggered_of_mem_paths (greedy : Bool) (e : Expr) {ws : List String} {q r : Path}
    (hb : e.boundsOrdered = true) (hw : e.triggerWords? = some ws)
    (h : .ok r ∈ e.paths elements render greedy q) : Triggered elements ws q.pos r.pos := by
  match e with
  | node p => exact Trial.triggered_of_mem_ofNode hw h
  | backref _ | multi .. | anchor _ | choice [] => cases hw
  | sequence es => exact triggered_of_mem_pathsOfAll greedy es hb hw h
  | choice (e :: es) => exact triggered_of_mem_pathsOfSome greedy (e :: es) hb hw h
  | iterate e min max own =>
    rw [boundsOrdered, Bool.and_eq_true] at hb
    rw [triggerWords?] at hw
    rw [paths] at h
    by_cases hmin : 0 < min
    · rw [if_pos hmin] at hw
      -- with ordered bounds a repetition that requires an iteration is not left out
      have hmax : max ≠ some 0 := by
        rintro rfl
        have := hb.1
        simp only [Option.all_some, decide_eq_true_eq] at this
        omega
      rw [if_neg hmax] at h
      exact Trial.triggered_of_mem_iterations hmin (fun _ _ => e.ahead_of_mem_paths _)
        (fun _ _ => triggered_of_mem_paths _ e hb.2 hw) h
    · rw [if_neg hmin] at hw
      cases hw
  | group e none _ => exact triggered_of_mem_paths greedy e hb hw h
  | group e (some id) _ =>
    obtain ⟨r', hr', hr⟩ := Trial.ok_mem_onward.1 h
    cases List.mem_singleton.1 hr
    have := triggered_of_mem_paths greedy e hb hw hr'
    exact this
  | action e name target =>
    obtain ⟨r', hr', hr⟩ := Trial.ok_mem_onward.1 h
    cases List.mem_singleton.1 hr
    have := triggered_of_mem_paths greedy e hb hw hr'
    exact this

theorem triggered_of_mem_pathsOfAll (greedy : Bool) (es : List Expr) {ws : List String}
    {q r : Path} (hb : allBoundsOrdered es = true) (hw : firstTriggers? es = some ws)
    (h : .ok r ∈ pathsOfAll elements render greedy es q) : Triggered elements ws q.pos r.pos := by
  match es with
  | [] => cases hw
  | e :: es =>
    rw [allBoundsOrdered, Bool.and_eq_true] at hb
    obtain ⟨r', hr', hr⟩ := Trial.ok_mem_onward.1 h
    have hrest (hw : firstTriggers? es = some ws) : Triggered elements ws q.pos r.pos :=
      (triggered_of_mem_pathsOfAll greedy es hb.2 hw hr).mono (e.ahead_of_mem_paths greedy hr').le
        (Nat.le_refl _) fun _ => id
    rw [firstTriggers?] at hw
    split at hw
    · exact hrest hw
    · obtain hw | ⟨_, hw⟩ := Option.or_eq_some_iff.1 hw
      · exact (triggered_of_mem_paths greedy e hb.1 hw hr').mono (Nat.le_refl _)
          (ahead_of_mem_pathsOfAll greedy es hr).le fun _ => id
      · exact hrest hw

theorem triggered_of_mem_pathsOfSome (greedy : Bool) (es : List Expr) {ws : List String}
    {q r : Path} (hb : allBoundsOrdered es = true) (hw : unionTriggers? es = some ws)
    (h : .ok r ∈ pathsOfSome elements render greedy es q) : Triggered elements ws q.pos r.pos := by
  match es with
  | [] => cases h
  | e :: es =>
    rw [allBoundsOrdered, Bool.and_eq_true] at hb
    obtain ⟨us, hus, vs, hvs, rfl⟩ := unionTriggers?_cons.1 hw
    obtain h | h := List.mem_append.1 h
    · exact (triggered_of_mem_paths greedy e hb.1 hus h).mono (Nat.le_refl _) (Nat.le_refl _)
        (List.subset_append_left _ _)
    · exact (triggered_of_mem_pathsOfSome greedy es hb.2 hvs h).mono (Nat.le_refl _)
        (Nat.le_refl _) (List.subset_append_right _ _)

end

end Expr

end Paths

end Motif
