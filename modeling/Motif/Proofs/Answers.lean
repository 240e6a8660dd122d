import Motif.Proofs.Operations

/-!
# Answers in terms of paths

What an operation answers at a position is told by the first path that may end there, or by the
failure in front of it.

* `Search.report`: the match along a path.
* **`Search.attempts_singleton`**: the answer at one position, without a limit.
* `Search.exists_first_of_attempts`: a match is the first one at its start, with or without a limit.
* `Search.exists_first_of_find`, `Search.find_of_findFrom`, `Search.attempts_of_matchAt`: so it is
  in all operations.
-/

namespace Motif

namespace Search

variable (s : Search)

/-- The match along a path from a position on. -/
def report (start : Nat) (q : Path) : Match where
  elements := s.elements
  spans := some ⟨start, q.pos⟩ :: (List.range' 1 (s.pattern.groupCount - 1)).map q.captured?
  names := s.pattern.names
  payloads := Note.payloads q.notes.toList
  render := s.render
  score := s.pattern.score
  order := s.produced

@[simp] theorem span_report (start : Nat) (q : Path) : (s.report start q).span = ⟨start, q.pos⟩ :=
  rfl

theorem result_eq_report (start stop : Nat) (store : Store) :
    s.result ⟨start, stop⟩ store = s.report start ⟨stop, store.slots, store.trail⟩ := rfl

variable {s} {stop : Option Nat}

/-- **Without a limit the first path that may end tells the answer at a position.** -/
theorem attempts_singleton (hs : s.options.maxSteps = none) (p : Nat) :
    (s.attempts stop [p]).result =
      match (s.pattern.pathsFrom s.elements s.render p).find? (Trial.decides stop) with
      | none => .ok none
      | some (.ok q) => .ok (some (s.report p q))
      | some (.error e) => .error (.predicate e) := by
  obtain ⟨o, ho⟩ := s.pattern.exists_outcome s.elements s.render stop p
  rw [← Pattern.trial_of_attempt (ho {}), attempts_result, tryAll_cons, hs]
  simp only [ho]
  cases o <;> rfl

theorem exists_first_of_tryAll {n : Nat} {a : Account} {b : Buffers} {ps : List Nat} {span : Span}
    {store : Store} (h : (s.tryAll stop n a b ps).result = .ok (some (span, store))) :
    span.start ∈ ps ∧
      (s.pattern.pathsFrom s.elements s.render span.start).find? (Trial.decides stop) =
        some (.ok ⟨span.stop, store.slots, store.trail⟩) := by
  induction ps generalizing n a b with
  | nil => cases h
  | cons p ps ih =>
    rw [tryAll_cons] at h
    dsimp only at h
    split at h
    · next ho =>
      cases h
      exact ⟨List.mem_cons_self, (Pattern.trial_of_attempt ho).symm⟩
    · exact ⟨List.mem_cons_of_mem _ (ih h).1, (ih h).2⟩
    · cases h
    · cases h

/-- **A match is that of the first path that may end**, with or without a limit. -/
theorem exists_first_of_attempts {ps : List Nat} {m : Match}
    (h : (s.attempts stop ps).result = .ok (some m)) :
    ∃ p ∈ ps, ∃ q, m = s.report p q ∧
      (s.pattern.pathsFrom s.elements s.render p).find? (Trial.decides stop) = some (.ok q) := by
  rw [attempts_result] at h
  cases hr : (s.tryAll stop 0 {} s.buffers ps).result with
  | error e => rw [hr] at h; cases h
  | ok x =>
    obtain _ | ⟨span, store⟩ := x
    · rw [hr] at h; cases h
    · rw [hr] at h
      cases h
      have := exists_first_of_tryAll hr
      exact ⟨span.start, this.1, _, s.result_eq_report _ _ store, this.2⟩

theorem exists_first_of_find {m : Match} (h : s.find.result = .ok (some m)) :
    ∃ p ≤ s.length, ∃ q, m = s.report p q ∧
      (s.pattern.pathsFrom s.elements s.render p).find? (Trial.decides none) = some (.ok q) := by
  rw [find_result (exhausted_of_find h)] at h
  obtain ⟨p, hp, hq⟩ := exists_first_of_attempts h
  rw [List.mem_range'_1] at hp
  exact ⟨p, by omega, hq⟩

theorem find_of_findFrom {m : Match} {p : Nat} (h : (s.findFrom p).result = .ok (some m)) :
    ({ s with cursor := p, exhausted := false } : Search).find.result = .ok (some m) := by
  by_cases hp : s.length < p
  · rw [findFrom, if_pos hp] at h
    cases h
  · rwa [findFrom, if_neg hp] at h

theorem attempts_of_matchAt {m : Match} {p : Nat} (h : (s.matchAt p).result = .ok (some m)) :
    p ≤ s.length ∧ (s.attempts none [p]).result = .ok (some m) := by
  by_cases hp : s.length < p
  · rw [matchAt, if_pos hp] at h
    cases h
  · exact ⟨by omega, by rwa [matchAt, if_neg hp] at h⟩

end Search

end Motif
