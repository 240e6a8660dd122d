import Motif.Proofs.Selection

/-!
# Conflicts between spans

Spans that share a position overlap. For spans with positions the reverse holds as well. But an empty
span overlaps every span that it lies strictly inside of, although there is no position that both
have, and a selection drops one of them.

* `Span.Covers`, `Span.Meets`: the positions of a span, and spans that share one.
* `Span.Splits`: an empty span strictly inside of another one.
* **`Span.overlaps_iff`**: what it means for two spans to overlap.
* **`selectDisjoint_drops_conflicts`**: what a selection drops shares a position with what it keeps,
  or one of the two splits the other.
* `selectDisjoint_drops_empty`: a candidate that is dropped without sharing a position.
-/

namespace Motif

namespace Span

/-- A position of the span. -/
def Covers (s : Span) (i : Nat) : Prop := s.start ≤ i ∧ i < s.stop

/-- Two spans share a position. -/
def Meets (s t : Span) : Prop := ∃ i, s.Covers i ∧ t.Covers i

/-- An empty span that lies strictly inside of another one. -/
def Splits (s t : Span) : Prop := s.start = s.stop ∧ t.start < s.start ∧ s.stop < t.stop

variable {s t : Span}

/-- **Spans overlap if they share a position, or if one of them is empty and strictly inside of the
other.** -/
theorem overlaps_iff (hs : s.start ≤ s.stop) (ht : t.start ≤ t.stop) :
    s.overlaps t = true ↔ s.Meets t ∨ s.Splits t ∨ t.Splits s := by
  simp only [overlaps, Bool.and_eq_true, decide_eq_true_eq]
  constructor
  · rintro ⟨hst, hts⟩
    by_cases hi : max s.start t.start < s.stop ∧ max s.start t.start < t.stop
    · exact .inl ⟨max s.start t.start, ⟨by omega, by omega⟩, by omega, by omega⟩
    · right
      unfold Splits
      omega
  · rintro (⟨i, hs, ht⟩ | h | h)
    · exact ⟨Nat.lt_of_le_of_lt hs.1 ht.2, Nat.lt_of_le_of_lt ht.1 hs.2⟩
    · unfold Splits at h
      omega
    · unfold Splits at h
      omega

end Span

variable {α : Type}

/-- **What a selection drops is in conflict with what it keeps**, by a shared position or by an
empty span inside of the other. -/
theorem selectDisjoint_drops_conflicts (span : α → Span) (cmp : α → α → Ordering)
    [Std.TransCmp cmp] (xs : List α) (hxs : ∀ x ∈ xs, (span x).start ≤ (span x).stop) :
    let selected := selectDisjoint span cmp xs
    ∃ dropped, (selected ++ dropped).Perm xs ∧
      (∀ x ∈ dropped, ∃ k ∈ selected, (cmp k x).isLE ∧ ((span k).Meets (span x) ∨
        (span k).Splits (span x) ∨ (span x).Splits (span k))) ∧
      ((∀ x ∈ xs, ∀ y ∈ xs, ¬ (span x).Splits (span y)) →
        ∀ x ∈ dropped, ∃ k ∈ selected, (cmp k x).isLE ∧ (span k).Meets (span x)) := by
  intro selected
  obtain ⟨dropped, hperm, hdropped⟩ := exists_dropped span cmp xs
  have hselected {k : α} (hk : k ∈ selected) : k ∈ xs :=
    hperm.mem_iff.1 (List.mem_append_left _ hk)
  have hrest {x : α} (hx : x ∈ dropped) : x ∈ xs := hperm.mem_iff.1 (List.mem_append_right _ hx)
  have hconflict (x : α) (hx : x ∈ dropped) : ∃ k ∈ selected, (cmp k x).isLE ∧
      ((span k).Meets (span x) ∨ (span k).Splits (span x) ∨ (span x).Splits (span k)) := by
    obtain ⟨k, hk, hoverlaps, hle⟩ := hdropped x hx
    have hk' := hxs k (hselected hk)
    have hx' := hxs x (hrest hx)
    exact ⟨k, hk, hle, (Span.overlaps_iff hk' hx').1 hoverlaps⟩
  refine ⟨dropped, hperm, hconflict, fun hno x hx => ?_⟩
  obtain ⟨k, hk, hle, hmeets | hsplits | hsplits⟩ := hconflict x hx
  · exact ⟨k, hk, hle, hmeets⟩
  · exact absurd hsplits (hno k (hselected hk) x (hrest hx))
  · exact absurd hsplits (hno x (hrest hx) k (hselected hk))

/-- The longest candidates first: one of them drops two others, each of which shares a position with
it. Empty ones at its ends and elsewhere stay. -/
theorem selectDisjoint_drops_conflicts_by_length :
    let cmp := Criterion.length.compare
    let xs : List Candidate := [⟨.zero, ⟨0, 0⟩, 0⟩, ⟨.zero, ⟨0, 2⟩, 1⟩, ⟨.zero, ⟨1, 5⟩, 2⟩,
      ⟨.zero, ⟨5, 5⟩, 3⟩, ⟨.zero, ⟨4, 7⟩, 4⟩, ⟨.zero, ⟨1, 1⟩, 5⟩]
    let selected := selectDisjoint Candidate.span cmp xs
    (∀ x ∈ xs, x.span.start ≤ x.span.stop) ∧ selected.map (·.order) = [0, 5, 2, 3] ∧
      ∃ dropped, (selected ++ dropped).Perm xs ∧
        ∀ x ∈ dropped, ∃ k ∈ selected, (cmp k x).isLE ∧ (k.span.Meets x.span ∨
          k.span.Splits x.span ∨ x.span.Splits k.span) := by
  intro cmp xs selected
  have hxs : ∀ x ∈ xs, x.span.start ≤ x.span.stop := by decide
  have hselected : (selectDisjoint Candidate.span cmp xs).map (·.order) = [0, 5, 2, 3] := by cbv
  obtain ⟨dropped, hperm, hdropped, -⟩ := selectDisjoint_drops_conflicts Candidate.span cmp xs hxs
  exact ⟨hxs, hselected, dropped, hperm, hdropped⟩

/-- **A candidate that is dropped without sharing a position.** It is empty and lies inside of the
candidate that is kept. -/
theorem selectDisjoint_drops_empty :
    let cmp := Criterion.standard.compare
    let whole : Candidate := ⟨.zero, ⟨0, 5⟩, 0⟩
    let inside : Candidate := ⟨.zero, ⟨3, 3⟩, 1⟩
    let selected := selectDisjoint Candidate.span cmp [whole, inside]
    (∀ x ∈ [whole, inside], x.span.start ≤ x.span.stop) ∧ selected = [whole] ∧
      ¬ ∃ k ∈ selected, (cmp k inside).isLE ∧ k.span.Meets inside.span := by
  intro cmp whole inside selected
  have hselected : selectDisjoint Candidate.span cmp [whole, inside] = [whole] := by cbv
  refine ⟨by decide, hselected, ?_⟩
  rintro ⟨k, -, -, i, -, hle, hlt⟩
  exact Nat.lt_irrefl 3 (Nat.lt_of_le_of_lt hle hlt)

end Motif
