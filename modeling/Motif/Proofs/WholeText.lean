import Motif.Proofs.Engines
import Motif.Path
import Motif.Grammar.ElementTest

/-!
# Tests of whole texts

A regular expression in a pattern is to match whole texts. Its source is put into a group between
anchors as it stands. An engine reads the group like the source by itself, but for a closing
parenthesis of the source that stands outside its own groups: this one closes the group.

* **`Scope.regex_tests_whole_text`**: the tests of a source without such a parenthesis hold of the
  texts that it matches from the first to the last character.
* **`Scope.regex_test_breaks_out`**: the others are accepted, too, but test for something else.
-/

namespace Motif.Scope

open Regex.Engine (standardLaws)

variable (s : Scope)

theorem test_eq_some_of_regex {source : String} {offset : Nat} {x : Regex}
    (h : s.regex source offset = .ok x) :
    s.env.engine.test? (Regex.anchored source) s.env.caseless = some x.matchesIn := by
  have hx : s.env.regex? source = some x := by
    rw [Scope.regex] at h
    split at h
    · next hr =>
      cases h
      exact hr
    · cases h
  obtain ⟨f, hf, rfl⟩ := Option.map_eq_some_iff.1 hx
  exact hf

/-- **A regular expression tests whole texts**, whatever the engine, if none of its parentheses
closes the group around it. -/
theorem regex_tests_whole_text (l : s.env.engine.Laws) {source : String} {offset : Nat} {x : Regex}
    (h : s.regex source offset = .ok x) (hstop : ¬ l.Stops s.env.caseless source.toList) :
    ∃ t, l.read s.env.caseless source.toList = some (t, []) ∧
      (∀ v, (AttrTest.regex x).holds v ↔ ∃ text ∈ v.bind Value.text?, l.MatchesAll t text) ∧
      ∀ elements render min max pos len,
        len ∈ Trial.spanLengths elements render min max x pos ↔
          len ≤ elements.size - pos ∧ min ≤ len ∧ max.all (len ≤ ·) ∧
            l.MatchesAll t (render (elements.extract pos (pos + len)).toList) := by
  obtain ⟨t, ht, hmatches⟩ :=
    (l.stops_or_exists_of_anchored (s.test_eq_some_of_regex h)).resolve_left hstop
  refine ⟨t, ht, fun v => ?_, fun elements render min max pos len => ?_⟩
  · simp only [AttrTest.holds, Option.any_eq_true, hmatches]
    exact Iff.rfl
  · rw [Trial.mem_spanLengths, hmatches]

/-- An alternative must match as a whole, whatever stands around it. -/
theorem regex_tests_whole_text_of_alternatives :
    let s : Scope := { env := {}, source := "/a|b/" }
    ∃ x t, s.regex "a|b" 0 = .ok x ∧ ¬ standardLaws.Stops false "a|b".toList ∧
      standardLaws.read false "a|b".toList = some (t, []) ∧
      standardLaws.MatchesAll t "b" ∧ ¬ standardLaws.MatchesAll t "ab" := by
  intro s
  have hread : (s.env.regex? "a|b").any fun x => x.matchesIn "b" && !x.matchesIn "ab" := by
    decide +kernel
  obtain ⟨x, hx, hmatches⟩ := Option.any_eq_true .. |>.1 hread
  have hregex : s.regex "a|b" 0 = .ok x := by rw [Scope.regex, hx]
  have hstop : ¬ standardLaws.Stops false "a|b".toList := by
    rintro ⟨t, rest, h⟩
    have hrest : (standardLaws.read false "a|b".toList).map (·.2) = some [] := by decide +kernel
    rw [h] at hrest
    cases hrest
  obtain ⟨t, ht, hnode, -⟩ := s.regex_tests_whole_text standardLaws hregex hstop
  simp only [Bool.and_eq_true, Bool.not_eq_true'] at hmatches
  refine ⟨x, t, hregex, hstop, ht, ?_, fun hall => ?_⟩
  · obtain ⟨text, htext, hall⟩ := (hnode (some (.text "b"))).1 hmatches.1
    cases htext
    exact hall
  · have hholds : x.matchesIn "ab" = true := (hnode (some (.text "ab"))).2 ⟨"ab", rfl, hall⟩
    rw [hmatches.2] at hholds
    cases hholds

/-- **A closing parenthesis may break out of the anchors**: the test holds of a text whose first
character alone fits. -/
theorem regex_test_breaks_out :
    let s : Scope := { env := {}, source := "/a)|(?:b/" }
    s.env.engine.test? "a)|(?:b" false = none ∧ standardLaws.Stops false "a)|(?:b".toList ∧
      ∃ x, s.regex "a)|(?:b" 0 = .ok x ∧ (AttrTest.regex x).holds (some (.text "ax")) := by
  intro s
  have hstop : standardLaws.Stops false "a)|(?:b".toList := by
    have hrest : (standardLaws.read false "a)|(?:b".toList).map (·.2) = some ")|(?:b".toList := by
      decide +kernel
    obtain ⟨⟨t, rest⟩, h, hr⟩ := Option.map_eq_some_iff.1 hrest
    exact ⟨t, "|(?:b".toList, by rw [h, show rest = _ from hr]; rfl⟩
  have hread : (s.env.regex? "a)|(?:b").any fun x =>
      (AttrTest.regex x).holds (some (.text "ax")) := by
    decide +kernel
  obtain ⟨x, hx, hholds⟩ := Option.any_eq_true .. |>.1 hread
  exact ⟨hstop.test_eq_none, hstop, x, by rw [Scope.regex, hx], hholds⟩

end Motif.Scope
