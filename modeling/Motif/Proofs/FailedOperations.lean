import Motif.Proofs.Actions
import Motif.Proofs.Histories
import Motif.Proofs.Limits

/-!
# Failed operations

An operation that fails ends in the middle of a run. What the run did is counted, but the search is
where it was, and no action has fired: the same question with a larger limit has the answer that it
would have had at once.

* `Metrics.Grown`: counts that were added to, without a match.
* `Search.Undisturbed`: a search that is where it was, with nothing but its costs counted.
* `Search.undisturbed_attempts`, `Search.undisturbed_find`: where positions are tried in vain, and
  where there is no next match.
* `Search.Alike.attempts_eq`, `Search.Abreast.find_eq`: searches with equal numbers of matches
  answer the same.
* **`Search.undisturbed_of_error`**: what failed operations leave, and what is found after them.
-/

namespace Motif

/-- Counts that may have been added to, but for the number of matches. -/
structure Metrics.Grown (a b : Metrics) : Prop where
  steps : a.steps ≤ b.steps
  backtracks : a.backtracks ≤ b.backtracks
  attempts : a.attempts ≤ b.attempts
  found_eq : b.found = a.found

theorem Metrics.Grown.refl (a : Metrics) : a.Grown a :=
  ⟨Nat.le_refl _, Nat.le_refl _, Nat.le_refl _, rfl⟩

theorem Metrics.Grown.of_add (a : Metrics) (steps backtracks attempts : Nat) :
    a.Grown (a.add ⟨steps, backtracks, attempts, 0⟩) :=
  ⟨Nat.le_add_right _ _, Nat.le_add_right _ _, Nat.le_add_right _ _, rfl⟩

namespace Search

/-- An answer that leaves the search where it was. Costs may have been counted, and buffers are kept
for the next run; no action fires. -/
structure Undisturbed (s : Search) (a : Answer) : Prop where
  search_eq : a.search = { s with metrics := a.search.metrics, buffers := a.search.buffers }
  metrics : s.metrics.Grown a.search.metrics
  fired : a.events.filterMap Event.fired? = []

variable {s s' : Search} {a : Answer} {e : MatchError}

theorem Undisturbed.of_eq (h : a = ⟨.error e, s, []⟩) : s.Undisturbed a := by
  subst h
  exact ⟨rfl, .refl _, rfl⟩

namespace Undisturbed

variable (h : s.Undisturbed a)

include h

theorem produced_eq : a.search.produced = s.produced := by rw [h.search_eq]

theorem abreast (limit : Option Nat) : (a.search.limited limit).Abreast (s.limited limit) := by
  rw [h.search_eq]
  exact ⟨⟨rfl, rfl, rfl, rfl⟩, rfl, rfl⟩

end Undisturbed

/-! ## Answers that fail -/

/-- **Where trying positions fails, nothing but its costs has changed.** -/
theorem undisturbed_attempts {stop : Option Nat} {ps : List Nat}
    (h : (s.attempts stop ps).result = .error e) : s.Undisturbed (s.attempts stop ps) := by
  have ht : (s.tryAll stop 0 {} s.buffers ps).result = .error e := by
    rw [attempts_result] at h
    cases hr : (s.tryAll stop 0 {} s.buffers ps).result with
    | error e' =>
      rw [hr] at h
      cases h
      rfl
    | ok x =>
      rw [hr] at h
      cases h
  have hfired : (s.attempts stop ps).events.filterMap Event.fired? = [] := by
    rw [fired_attempts, ht]
  rw [attempts_of_error ht] at hfired ⊢
  exact ⟨rfl, .of_add _ _ _ _, hfired⟩

/-- A question for the next match that fails leaves the cursor and the mark of exhaustion alone. -/
theorem undisturbed_find (h : s.find.result = .error e) : s.Undisturbed s.find := by
  by_cases hx : s.exhausted = true
  · exact .of_eq (find_of_exhausted hx)
  · have hx : s.exhausted = false := by simpa using hx
    rw [find_result hx] at h
    have hfind : s.find = s.attempts none (List.range' s.cursor (s.length + 1 - s.cursor)) := by
      rw [find, if_neg (by rw [hx]; exact Bool.false_ne_true), settle, h]
    rw [hfind]
    exact undisturbed_attempts h

theorem undisturbed_matchAt {pos : Nat} (h : (s.matchAt pos).result = .error e) :
    s.Undisturbed (s.matchAt pos) := by
  by_cases hpos : s.length < pos
  · exact .of_eq (if_pos hpos)
  · rw [matchAt, if_neg hpos] at h ⊢
    exact undisturbed_attempts h

/-! ## Asking again -/

theorem Alike.attempts_eq (h : s.Alike s') (hproduced : s.produced = s'.produced)
    (stop : Option Nat) (ps : List Nat) :
    (s.attempts stop ps).result = (s'.attempts stop ps).result ∧
      (s.attempts stop ps).events = (s'.attempts stop ps).events := by
  obtain ⟨hr, -, ha⟩ := h.tryAll_eq stop 0 {} s.buffers s'.buffers ps
  have hresult : s.result = s'.result := by
    funext span store
    rw [h.result_eq, hproduced]
    rfl
  constructor
  · rw [attempts_result, attempts_result, hr, hresult]
  · rw [attempts_events, attempts_events, hr, ha, hresult]

/-- **Abreast, searches that have found as many matches have the same next match**, under the same
number, and tell the same. -/
theorem Abreast.find_eq (h : s.Abreast s') (hproduced : s.produced = s'.produced) :
    s.find.result = s'.find.result ∧ s.find.events = s'.find.events := by
  by_cases hx : s.exhausted = true
  · rw [find_of_exhausted hx, find_of_exhausted (h.exhausted_eq ▸ hx)]
    exact ⟨rfl, rfl⟩
  · have hx : s.exhausted = false := by simpa using hx
    have hx' : s'.exhausted = false := h.exhausted_eq ▸ hx
    rw [find_result hx, find_result hx', find_events hx, find_events hx', h.cursor_eq,
      h.length_eq]
    exact h.toAlike.attempts_eq hproduced _ _

/-- Behind an answer that leaves the search where it was, the next question is answered as in its
place, whatever its limit. -/
theorem Undisturbed.find_eq (h : s.Undisturbed a) (limit : Option Nat) :
    (a.search.limited limit).find.result = (s.limited limit).find.result ∧
      (a.search.limited limit).find.events = (s.limited limit).find.events :=
  (h.abreast limit).find_eq h.produced_eq

/-- **Failed operations leave the search where it was**, but for the costs: the next question has
the answer that it would have had at first. -/
theorem undisturbed_of_error (s : Search) :
    (∀ e, s.find.result = .error e → s.Undisturbed s.find) ∧
    (∀ e, s.matchWhole.result = .error e → s.Undisturbed s.matchWhole) ∧
    (∀ pos e, (s.matchAt pos).result = .error e → s.Undisturbed (s.matchAt pos)) ∧
    (∀ pos, s.length < pos →
      (s.findFrom pos).result = .error (.positionOutOfRange pos s.length) ∧
        s.Undisturbed (s.findFrom pos)) ∧
    ∀ a, s.Undisturbed a → ∀ limit,
      (a.search.limited limit).find.result = (s.limited limit).find.result ∧
        (a.search.limited limit).find.events = (s.limited limit).find.events := by
  refine ⟨fun e => undisturbed_find, fun e => undisturbed_attempts, fun pos e =>
    undisturbed_matchAt, fun pos hpos => ?_, fun a h => h.find_eq⟩
  have h : s.findFrom pos = ⟨.error (.positionOutOfRange pos s.length), s, []⟩ := if_pos hpos
  exact ⟨congrArg Answer.result h, .of_eq h⟩

/-- The next match is beyond the limit, and a function fails at the last position. -/
theorem undisturbed_of_error_of_limit :
    let f : NodeFunction :=
      ⟨"f", fun e => if e.text = "!" then .error ⟨"f", "bad"⟩ else
        .ok (if e.text = "a" then .accept else .reject), false⟩
    let s : Search := {
      pattern := .build "" (.action (.node (.custom f)) "seen" 0) [] 1
      options := { maxSteps := some 4 }
      cursor := 1
      produced := 1
      elements := #[⟨"a", fun _ => none⟩, ⟨"b", fun _ => none⟩, ⟨"b", fun _ => none⟩,
        ⟨"a", fun _ => none⟩, ⟨"!", fun _ => none⟩] }
    (s.find.result = .error (.stepLimit 4) ∧ s.Undisturbed s.find) ∧
      ((s.matchAt 4).result = .error (.predicate ⟨"f", "bad"⟩) ∧ s.Undisturbed (s.matchAt 4)) ∧
      (s.length < 6 ∧ s.Undisturbed (s.findFrom 6)) ∧
      (s.find.search.limited none).find.result = (s.limited none).find.result ∧
      (s.limited none).find.result.map (Option.map fun m => (m.span, m.order)) =
        .ok (some (⟨3, 4⟩, 1)) := by
  intro f s
  have hlimit : s.find.result = .error (.stepLimit 4) := by cbv
  have hfails : (s.matchAt 4).result = .error (.predicate ⟨"f", "bad"⟩) := by cbv
  obtain ⟨hfind, -, hat, hfrom, hagain⟩ := undisturbed_of_error s
  exact ⟨⟨hlimit, hfind _ hlimit⟩, ⟨hfails, hat 4 _ hfails⟩,
    ⟨by decide, (hfrom 6 (by decide)).2⟩, (hagain _ (hfind _ hlimit) none).1, by cbv⟩

end Search

end Motif
