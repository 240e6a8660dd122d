import Motif.Proofs.Selection
import Mathlib

/-!
# Precedence among candidates

Every criterion puts candidates into an order in which none is left out, and so does every chain of
them. By the standard criterion no two different candidates are equal, since it looks at all that a
ranking sees. So the best disjoint items depend on which items there are, and not on the order in
which they are listed.

* `Binary64.totalKey_inj`, `Binary64.totalCompare_eq_eq`: the total order tells all data apart.
* `Criterion.transCmp`, `Chain.transCmp`: criteria and chains are total preorders.
* `Criterion.standard_eq_chain`, `Criterion.standard_compare_eq_eq`: the standard criterion.
* `sortBy_eq_of_perm`, `selectDisjoint_eq_of_perm`: where no two items are equal, sorting and
  selecting ignore the order of the items.
* **`chains_rank_consistently`**: all of this at once.
-/

namespace Motif

/-! ## Scores -/

namespace Binary64

theorem totalKey_eq (x : Binary64) :
    x.totalKey =
      if signMagnitude ≤ x.bits.toNat then (signMagnitude : Int) - 1 - x.bits.toNat
      else x.bits.toNat := by
  have hx := x.bits.toNat_lt
  unfold totalKey isNegative magnitude
  simp only [decide_eq_true_eq]
  split <;> simp only [signMagnitude] at * <;> omega

/-- **Data with the same place in the total order are the same**, bit by bit. -/
theorem totalKey_inj {x y : Binary64} : x.totalKey = y.totalKey ↔ x = y := by
  refine ⟨fun h => ?_, congrArg totalKey⟩
  have hbits : x.bits.toNat = y.bits.toNat := by
    have hx := x.bits.toNat_lt
    have hy := y.bits.toNat_lt
    rw [totalKey_eq, totalKey_eq] at h
    simp only [signMagnitude] at h
    omega
  cases x
  cases y
  exact congrArg mk (UInt64.toNat_inj.1 hbits)

theorem totalCompare_eq_eq {x y : Binary64} : x.totalCompare y = .eq ↔ x = y := by
  rw [totalCompare, Std.LawfulEqOrd.compare_eq_iff_eq, totalKey_inj]

end Binary64

theorem Span.compare_eq_eq {s t : Span} : s.compare t = .eq ↔ s = t := by
  cases s
  cases t
  simp only [Span.compare, Ordering.then_eq_eq, Nat.compare_eq_eq, Span.mk.injEq]

/-! ## Criteria and chains -/

theorem transCmp_view {α β : Type} (view : α → β) (cmp : β → β → Ordering) [Std.TransCmp cmp] :
    Std.TransCmp fun a b => cmp (view a) (view b) where
  eq_swap := Std.OrientedCmp.eq_swap
  isLE_trans := Std.TransCmp.isLE_trans

namespace Criterion

/-- **Every criterion is a total preorder.** -/
instance transCmp (c : Criterion) : Std.TransCmp c.compare := by
  have hscore : Std.TransCmp score.compare :=
    inferInstanceAs (Std.TransCmp fun a b => compareOn (fun c : Candidate => c.score.totalKey) b a)
  have horder : Std.TransCmp order.compare :=
    inferInstanceAs (Std.TransCmp (compareOn Candidate.order))
  have hoffset : Std.TransCmp offset.compare := transCmp_compare_span Candidate.span
  cases c with
  | score => exact hscore
  | length => exact transCmp_length
  | order => exact horder
  | offset => exact hoffset
  | standard =>
    exact inferInstanceAs (Std.TransCmp (compareLex score.compare (compareLex length.compare
      (compareLex order.compare offset.compare))))

theorem standard_eq_chain (a b : Candidate) :
    standard.compare a b = Chain.standard.compare a b := by
  simp only [compare, Chain.standard, Chain.compare, Ordering.then_eq]

/-- **By the standard criterion no two candidates are equal.** -/
theorem standard_compare_eq_eq {a b : Candidate} : standard.compare a b = .eq ↔ a = b := by
  constructor
  · intro h
    simp only [compare, Ordering.then_eq_eq, Binary64.totalCompare_eq_eq, Nat.compare_eq_eq,
      Span.compare_eq_eq] at h
    obtain ⟨hscore, -, horder, hspan⟩ := h
    cases a
    cases b
    simp_all
  · rintro rfl
    exact Std.ReflCmp.compare_self

end Criterion

/-- **Every chain is a total preorder**: each criterion refines the order by those before it. -/
instance Chain.transCmp (chain : Chain) : Std.TransCmp chain.compare := by
  induction chain with
  | nil => exact { eq_swap := rfl, isLE_trans := fun _ _ => rfl }
  | cons c cs ih => exact inferInstanceAs (Std.TransCmp (compareLex c.compare (compare cs)))

/-! ## Orders in which items are listed -/

section Permutations

variable {α : Type} {cmp : α → α → Ordering} [Std.TransCmp cmp] {xs ys : List α}

/-- **Sorting ignores the order of the items** if no two of them are equal. -/
theorem sortBy_eq_of_perm (h : ys.Perm xs) (hties : ∀ a ∈ xs, ∀ b ∈ xs, cmp a b = .eq → a = b) :
    sortBy cmp ys = sortBy cmp xs := by
  have hperm : (sortBy cmp ys).Perm (sortBy cmp xs) :=
    ((sortBy_perm cmp ys).trans h).trans (sortBy_perm cmp xs).symm
  have hmem {a : α} (ha : a ∈ sortBy cmp xs) : a ∈ xs := (sortBy_perm cmp xs).mem_iff.1 ha
  refine hperm.eq_of_pairwise (fun a b ha hb hab hba => ?_) (sorted_sortBy cmp ys)
    (sorted_sortBy cmp xs)
  exact hties a (hmem (hperm.mem_iff.1 ha)) b (hmem hb) (Std.OrientedCmp.isLE_antisymm hab hba)

theorem selectDisjoint_eq_of_perm (span : α → Span) (h : ys.Perm xs)
    (hties : ∀ a ∈ xs, ∀ b ∈ xs, cmp a b = .eq → a = b) :
    selectDisjoint span cmp ys = selectDisjoint span cmp xs := by
  rw [selectDisjoint, selectDisjoint, sortBy_eq_of_perm h hties]

end Permutations

/-- **Chains rank consistently**, whatever the bits of the scores: selections do not depend on the
order of the items. -/
theorem chains_rank_consistently :
    (∀ (chain : Chain) (a b c : Candidate),
      chain.compare b a = (chain.compare a b).swap ∧
      ((chain.compare a b).isLE → (chain.compare b c).isLE → (chain.compare a c).isLE)) ∧
    (∀ a b : Candidate, Criterion.standard.compare a b = Chain.standard.compare a b) ∧
    ∀ (α : Type) (view : α → Candidate) (xs ys : List α),
      (xs.map fun x => (view x).order).Nodup → ys.Perm xs →
      let cmp (a b : α) : Ordering := Criterion.standard.compare (view a) (view b)
      selectDisjoint (fun x => (view x).span) cmp ys =
        selectDisjoint (fun x => (view x).span) cmp xs := by
  refine ⟨fun chain a b c => ⟨Std.OrientedCmp.eq_swap, Std.TransCmp.isLE_trans⟩,
    Criterion.standard_eq_chain, ?_⟩
  intro α view xs ys hnodup hperm cmp
  have : Std.TransCmp cmp := transCmp_view view Criterion.standard.compare
  refine selectDisjoint_eq_of_perm _ hperm fun a ha b hb hab => ?_
  -- Items that are equal have the same order, and no two items of the list have.
  have hview : view a = view b := Criterion.standard_compare_eq_eq.1 hab
  exact List.inj_on_of_nodup_map hnodup ha hb (congrArg Candidate.order hview)

/-- Both zeros and both NaNs: the positive NaN is better than all numbers, the negative one worse,
and the positive zero better than the negative one. -/
theorem chains_rank_consistently_of_nan :
    let xs : List Candidate := [⟨.nan true, ⟨0, 9⟩, 0⟩, ⟨.ofMagnitude true 0, ⟨0, 2⟩, 1⟩,
      ⟨.zero, ⟨1, 3⟩, 2⟩, ⟨.nan false, ⟨3, 4⟩, 3⟩, ⟨.zero, ⟨1, 3⟩, 4⟩, ⟨.zero, ⟨4, 7⟩, 5⟩]
    let select := selectDisjoint Candidate.span Criterion.standard.compare
    (xs.map fun x => x.order).Nodup ∧ xs.reverse.Perm xs ∧
      (select xs).map (·.order) = [2, 3, 5] ∧ select xs.reverse = select xs := by
  intro xs select
  have hnodup : (xs.map fun x => x.order).Nodup := by decide
  have hperm : xs.reverse.Perm xs := List.reverse_perm xs
  have horder : (selectDisjoint Candidate.span Criterion.standard.compare xs).map (·.order) =
      [2, 3, 5] := by cbv
  exact ⟨hnodup, hperm, horder,
    chains_rank_consistently.2.2 Candidate id xs xs.reverse hnodup hperm⟩

end Motif
