import Motif.Session
import Motif.Proofs.Taking

/-!
# What operations come down to

Whatever a search is asked, it tries positions, moves its cursor and tries positions again. The
relation `Search.Tries` says it once, so that what is kept when positions are tried is kept by all
operations, and by all sessions.

* `Search.Level`: searches that have found and counted as much.
* `Search.Tries`: a search tries positions several times, with the answers, and becomes another.
* `Search.Tries.exists_of_mem`: the answers, one by one.
* `Search.Finds.Comes`: what is told comes from such answers.
* **`Search.comes_perform`**, `Search.comes_of_mem_session`: what an operation tells does, and what
  is told in a session.
-/

namespace Motif

namespace Search

variable {s s' s'' : Search}

/-- Searches for one pattern in one sequence that have found and counted as much. -/
structure Level (s s' : Search) : Prop where
  pattern_eq : s.pattern = s'.pattern
  elements_eq : s.elements = s'.elements
  produced_eq : s.produced = s'.produced
  metrics_eq : s.metrics = s'.metrics

theorem Level.refl (s : Search) : s.Level s := ⟨rfl, rfl, rfl, rfl⟩

/-- A search tries positions several times, answers and becomes another. Between two attempts the
cursor may move, and the way of searching may change. -/
inductive Tries : Search → List Answer → Search → Prop where
  | nil (s : Search) : Tries s [] s
  | move {s s' s'' : Search} {as : List Answer} (h : s.Level s') (rest : Tries s' as s'') :
    Tries s as s''
  | attempt {s s' : Search} {as : List Answer} (stop : Option Nat) {ps : List Nat}
    (hps : ∀ p ∈ ps, p ≤ s.length) (rest : Tries (s.attempts stop ps).search as s') :
    Tries s (s.attempts stop ps :: as) s'

namespace Tries

variable {as as' : List Answer}

theorem append (h : s.Tries as s') (h' : s'.Tries as' s'') : s.Tries (as ++ as') s'' := by
  induction h with
  | nil => exact h'
  | move h _ ih => exact .move h (ih h')
  | attempt stop hps _ ih => exact .attempt stop hps (ih h')

theorem keeps (h : s.Tries as s') : s'.pattern = s.pattern ∧ s'.elements = s.elements := by
  induction h with
  | nil => exact ⟨rfl, rfl⟩
  | move h _ ih => exact ⟨ih.1.trans h.pattern_eq.symm, ih.2.trans h.elements_eq.symm⟩
  | @attempt s _ _ stop ps _ _ ih =>
    have ha := s.alike_attempts stop ps
    exact ⟨ih.1.trans ha.pattern_eq, ih.2.trans ha.elements_eq⟩

theorem exists_of_mem (h : s.Tries as s') {a : Answer} (ha : a ∈ as) :
    ∃ (s₁ : Search) (stop : Option Nat) (ps : List Nat), s₁.pattern = s.pattern ∧
      s₁.elements = s.elements ∧ (∀ p ∈ ps, p ≤ s₁.length) ∧ a = s₁.attempts stop ps := by
  induction h with
  | nil => cases ha
  | move h _ ih =>
    obtain ⟨s₁, stop, ps, hp, he, hps, rfl⟩ := ih ha
    exact ⟨s₁, stop, ps, hp.trans h.pattern_eq.symm, he.trans h.elements_eq.symm, hps, rfl⟩
  | @attempt s _ _ stop ps hps _ ih =>
    obtain rfl | ha := List.mem_cons.1 ha
    · exact ⟨s, stop, ps, rfl, rfl, hps, rfl⟩
    · obtain ⟨s₁, stop', ps', hp, he, hps', rfl⟩ := ih ha
      have hs := s.alike_attempts stop ps
      exact ⟨s₁, stop', ps', hp.trans hs.pattern_eq, he.trans hs.elements_eq, hps', rfl⟩

end Tries

/-- What is told comes from trying positions. -/
def Finds.Comes (s : Search) (f : Finds) : Prop :=
  ∃ as, s.Tries as f.search ∧ f.found = as.flatMap Answer.found ∧
    f.events = as.flatMap Answer.events

namespace Finds.Comes

variable {f : Finds}

theorem silent (h : s.Level s') (e : Option MatchError) :
    Comes s { error := e, search := s' } := ⟨[], .move h (.nil s'), rfl, rfl⟩

theorem move (h : s.Level s') (hf : f.Comes s') : f.Comes s := by
  obtain ⟨as, ht, hfound, hevents⟩ := hf
  exact ⟨as, .move h ht, hfound, hevents⟩

end Finds.Comes

theorem comes_attempts (s : Search) (stop : Option Nat) {ps : List Nat}
    (hps : ∀ p ∈ ps, p ≤ s.length) : (Finds.ofAnswer (s.attempts stop ps)).Comes s :=
  ⟨_, .attempt stop hps (.nil _), (List.append_nil _).symm, (List.append_nil _).symm⟩

theorem comes_find (s : Search) : (Finds.ofAnswer s.find).Comes s := by
  by_cases hx : s.exhausted = true
  · rw [find_of_exhausted hx]
    exact .silent (.refl s) _
  · have hx : s.exhausted = false := by simpa using hx
    have hps : ∀ p ∈ List.range' s.cursor (s.length + 1 - s.cursor), p ≤ s.length := by
      intro p hp
      rw [List.mem_range'_1] at hp
      omega
    -- The positions from the cursor on are tried. After that only the cursor moves.
    refine ⟨[s.attempts none (List.range' s.cursor (s.length + 1 - s.cursor))],
      .attempt none hps (.move ?_ (.nil _)), ?_, ?_⟩
    · rw [Finds.ofAnswer, find_search hx]
      dsimp only
      split <;> exact ⟨rfl, rfl, rfl, rfl⟩
    · rw [Finds.ofAnswer, Answer.found, find_result hx]
      exact (List.append_nil _).symm
    · rw [Finds.ofAnswer, find_events hx]
      exact (List.append_nil _).symm

theorem comes_take (k : Nat) (s : Search) : (take k s).Comes s := by
  -- The answers of the first search come before those of the others. A search that ends the
  -- taking has answers as well, with what was called, but no match.
  induction k generalizing s with
  | zero => exact .silent (.refl s) _
  | succ k ih =>
    obtain ⟨as, ht, hfound, hevents⟩ := s.comes_find
    cases hr : s.find.result with
    | error e =>
      rw [take_succ_of_error hr]
      refine ⟨as, ht, ?_, hevents⟩
      rw [← hfound, Finds.ofAnswer, Answer.found, hr]
    | ok x =>
      obtain _ | m := x
      · rw [take_succ_of_none hr]
        refine ⟨as, ht, ?_, hevents⟩
        rw [← hfound, Finds.ofAnswer, Answer.found, hr]
        rfl
      · obtain ⟨as', ht', hfound', hevents'⟩ := ih s.find.search
        rw [take_succ_of_some hr]
        refine ⟨as ++ as', ht.append ht', ?_, ?_⟩
        · rw [List.flatMap_append, ← hfound, ← hfound', Finds.ofAnswer, Answer.found, hr]
          rfl
        · rw [List.flatMap_append, ← hevents, ← hevents']
          rfl

/-- **What an operation tells comes from trying positions.** -/
theorem comes_perform (s : Search) (op : Operation) : (s.perform op).Comes s := by
  have hat (pos : Nat) : s.Level { s with cursor := pos, exhausted := false } :=
    ⟨rfl, rfl, rfl, rfl⟩
  cases op with
  | find => exact s.comes_find
  | findFrom pos =>
    simp only [perform, findFrom]
    split
    · exact .silent (.refl s) _
    · exact .move (hat pos) (comes_find _)
  | matchWhole => exact s.comes_attempts _ (by simp)
  | matchAt pos =>
    simp only [perform, matchAt]
    split
    · exact .silent (.refl s) _
    · exact s.comes_attempts _ (by simp; omega)
  | findAll bound => cases bound <;> exact .move (hat 0) (comes_take _ _)
  | reset => exact .silent (hat 0) none
  | setOptions options =>
    have h : s.Level { s with options } := ⟨rfl, rfl, rfl, rfl⟩
    exact .silent h none
  | setRender render =>
    have h : s.Level { s with render } := ⟨rfl, rfl, rfl, rfl⟩
    exact .silent h none

theorem comes_of_mem_session {ops : List Operation} {f : Finds} (hf : f ∈ s.session ops) :
    ∃ s' : Search, s'.pattern = s.pattern ∧ s'.elements = s.elements ∧ f.Comes s' := by
  induction ops generalizing s with
  | nil => cases hf
  | cons op ops ih =>
    have h := s.comes_perform op
    obtain rfl | hf := List.mem_cons.1 hf
    · exact ⟨s, rfl, rfl, h⟩
    · obtain ⟨as, ht, -, -⟩ := h
      obtain ⟨s', hp, he, hs'⟩ := ih hf
      exact ⟨s', hp.trans ht.keeps.1, he.trans ht.keeps.2, hs'⟩

end Search

end Motif
