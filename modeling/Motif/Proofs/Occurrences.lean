import Motif.Proofs.Reports
import Motif.Proofs.Triggers

/-!
# Trigger words occur in matches

Where trigger words can be read off a tree there are some, and whatever its pattern matches covers
an element with one of them: it does not only stand somewhere in the sequence, but within the match.

* `NodePattern.triggerWords_ne_nil`, **`Expr.triggerWords_ne_nil`**: there are some words.
* `Pattern.triggered_of_mem_pathsFrom`, `Search.triggered_of_mem_session`: paths and matches.
* **`Pattern.trigger_words_occur`**: words, attempts and matches.
-/

namespace Motif

/-! ## There are some words -/

namespace NodePattern

mutual

/-- Where trigger words can be read off a node pattern, there are some. -/
theorem triggerWords_ne_nil (p : NodePattern) {ws : List String}
    (hw : p.triggerWords? = some ws) : ws ≠ [] := by
  match p with
  | any | negation _ | presence .. | custom _ | disjunction [] => cases hw
  | attr .text (.equals value false) =>
    cases hw
    exact List.cons_ne_nil value []
  | attr .text (.equals _ true) | attr .text (.regex _) | attr .text (.compare ..)
  | attr (.named _) _ => cases hw
  | conjunction ps => exact firstTriggers_ne_nil ps hw
  | disjunction (p :: ps) =>
    obtain ⟨us, hus, vs, -, rfl⟩ := unionTriggers?_cons.1 hw
    exact List.append_ne_nil_of_left_ne_nil (triggerWords_ne_nil p hus) vs

theorem firstTriggers_ne_nil (ps : List NodePattern) {ws : List String}
    (hw : firstTriggers? ps = some ws) : ws ≠ [] := by
  match ps with
  | [] => cases hw
  | p :: ps =>
    rw [firstTriggers?, Option.or_eq_some_iff] at hw
    obtain hw | ⟨_, hw⟩ := hw
    · exact triggerWords_ne_nil p hw
    · exact firstTriggers_ne_nil ps hw

end

end NodePattern

namespace Expr

mutual

/-- **Where trigger words can be read off an expression, there are some.** -/
theorem triggerWords_ne_nil (e : Expr) {ws : List String} (hw : e.triggerWords? = some ws) :
    ws ≠ [] := by
  match e with
  | node p => exact p.triggerWords_ne_nil hw
  | backref _ | multi .. | anchor _ | choice [] => cases hw
  | sequence es => exact firstTriggers_ne_nil es hw
  | choice (e :: es) =>
    obtain ⟨us, hus, vs, -, rfl⟩ := unionTriggers?_cons.1 hw
    exact List.append_ne_nil_of_left_ne_nil (triggerWords_ne_nil e hus) vs
  | iterate e min _ _ =>
    rw [triggerWords?] at hw
    split at hw
    · exact triggerWords_ne_nil e hw
    · cases hw
  | group e _ _ | action e _ _ => exact triggerWords_ne_nil e hw

theorem firstTriggers_ne_nil (es : List Expr) {ws : List String}
    (hw : firstTriggers? es = some ws) : ws ≠ [] := by
  match es with
  | [] => cases hw
  | e :: es =>
    rw [firstTriggers?] at hw
    split at hw
    · exact firstTriggers_ne_nil es hw
    · obtain hw | ⟨_, hw⟩ := Option.or_eq_some_iff.1 hw
      · exact triggerWords_ne_nil e hw
      · exact firstTriggers_ne_nil es hw

end

end Expr

/-! ## Matches contain one of them -/

section Matches

variable {p : Pattern} {ws : List String} (hb : p.root.boundsOrdered = true)
  (hw : p.root.triggerWords? = some ws)

include hb hw

theorem Pattern.triggered_of_mem_pathsFrom {elements : Array Element}
    {render : List Element → String} {start : Nat} {q : Path}
    (hq : .ok q ∈ p.pathsFrom elements render start) : Triggered elements ws start q.pos :=
  p.root.triggered_of_mem_paths true hb hw hq

theorem Search.triggered_of_mem_session {s : Search} (hs : s.pattern = p) {ops : List Operation}
    {f : Finds} (hf : f ∈ s.session ops) {m : Match} (hm : f.Reports m) :
    Triggered s.elements ws m.span.start m.span.stop := by
  obtain ⟨s', start, q, -, rfl, hq⟩ := exists_report_of_mem_session hf hm
  rw [hs] at hq
  exact Pattern.triggered_of_mem_pathsFrom hb hw hq

/-- **Trigger words occur in every match**, if no repetition of the tree requires more iterations
than it allows. -/
theorem Pattern.trigger_words_occur :
    ws ≠ [] ∧
    (∀ elements render stop limit a start b stop' store,
      (p.attempt elements render stop limit a start b).outcome = some (.accepted stop' store) →
        ∃ i x, start ≤ i ∧ i < stop' ∧ elements[i]? = some x ∧ x.text ∈ ws) ∧
    ∀ s : Search, s.pattern = p → ∀ ops, ∀ f ∈ s.session ops, ∀ m, f.Reports m →
      ∃ i x, m.span.start ≤ i ∧ i < m.span.stop ∧ s.elements[i]? = some x ∧ x.text ∈ ws := by
  refine ⟨p.root.triggerWords_ne_nil hw, ?_, ?_⟩
  · intro elements render stop limit a start b stop' store h
    rw [attempt_eq] at h
    exact triggered_of_mem_pathsFrom hb hw (mem_pathsFrom_of_attempt h)
  · intro s hs ops f hf m hm
    exact Search.triggered_of_mem_session hb hw hs hf hm

end Matches

/-- Words of two alternatives, from a conjunction and from a disjunction, of which only the last
element is one. -/
theorem Pattern.trigger_words_occur_of_alternatives :
    let word (w : String) : NodePattern := .attr .text (.equality w false)
    let root : Expr := .sequence [.iterate (.node .any) 0 none true,
      .iterate (.choice [.node (.conjunction [.any, word "a"]),
        .group (.node (.disjunction [word "b", word "c"])) (some 1) none]) 1 (some 2) true]
    let s : Search := {
      pattern := .build "" root [] 2
      elements := #[⟨"x", fun _ => none⟩, ⟨"c", fun _ => none⟩] }
    root.boundsOrdered = true ∧ root.triggerWords? = some ["a", "b", "c"] ∧
      (s.session [.matchWhole]).map (·.found.map (·.span)) = [[⟨0, 2⟩]] ∧
      ∀ f ∈ s.session [.matchWhole], ∀ m, f.Reports m →
        ∃ i x, m.span.start ≤ i ∧ i < m.span.stop ∧ s.elements[i]? = some x ∧
          x.text ∈ ["a", "b", "c"] := by
  intro word root s
  have hb : root.boundsOrdered = true := rfl
  have hw : root.triggerWords? = some ["a", "b", "c"] := rfl
  exact ⟨hb, hw, by cbv, (Pattern.trigger_words_occur (p := s.pattern) hb hw).2.2 s rfl _⟩

end Motif
