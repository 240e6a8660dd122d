import Motif.Ranking
import Mathlib.Data.List.Permutation

/-!
# Selecting disjoint items

Items are sorted, the better ones first, and then kept one after the other unless they overlap what
was kept before. The comparison may be any total preorder: equal items keep their order.

* `StablySorted`: the sorted list, with equal items in their order.
* `filter_sortBy`, `stablySorted_sortBy`, `eq_of_ties_eq`: sorting is stable, and this determines
  the sorted list.
* `KeepsGreedily`, `picked`: which items are kept.
* `exists_keepsGreedily`: they are those that the loop keeps.
* `exists_dropped`: what is not selected overlaps something that is, and that is not worse.
* **`selectDisjoint_greedy`**: what is selected.
-/

namespace Motif

variable {α : Type}

/-! ## Stable sorting -/

section Sorting

variable (cmp : α → α → Ordering)

/-- The items that are equal to one by a comparison. -/
def ties (a : α) (xs : List α) : List α := xs.filter fun x => cmp a x == .eq

/-- The items of `xs` in the order of a comparison, those that are equal in the order of `xs`. -/
structure StablySorted (xs ys : List α) : Prop where
  perm : ys.Perm xs
  sorted : ys.Pairwise fun a b => (cmp a b).isLE
  stable : ∀ a, ties cmp a ys = ties cmp a xs

theorem sortBy_perm (xs : List α) : (sortBy cmp xs).Perm xs := List.mergeSort_perm _ _

variable [Std.TransCmp cmp]

theorem isLE_or_isLE (a b : α) : ((cmp a b).isLE || (cmp b a).isLE) = true := by
  have : cmp b a = (cmp a b).swap := Std.OrientedCmp.eq_swap
  rw [this]
  cases cmp a b <;> rfl

theorem sorted_sortBy (xs : List α) : (sortBy cmp xs).Pairwise fun a b => (cmp a b).isLE :=
  List.pairwise_mergeSort (fun _ _ _ => Std.TransCmp.isLE_trans) (isLE_or_isLE cmp) xs

/-- **Sorting leaves items alone that are in order already**, whatever is between them. -/
theorem filter_sortBy {xs : List α} {p : α → Bool}
    (h : (xs.filter p).Pairwise fun a b => (cmp a b).isLE) :
    (sortBy cmp xs).filter p = xs.filter p := by
  have hsub : (xs.filter p).Sublist (sortBy cmp xs) :=
    List.sublist_mergeSort (fun _ _ _ => Std.TransCmp.isLE_trans) (isLE_or_isLE cmp) h
      List.filter_sublist
  have := hsub.filter p
  rw [List.filter_filter] at this
  simp only [Bool.and_self] at this
  exact (this.eq_of_length ((sortBy_perm cmp xs).filter p).length_eq.symm).symm

theorem stablySorted_sortBy (xs : List α) : StablySorted cmp xs (sortBy cmp xs) := by
  refine ⟨sortBy_perm cmp xs, sorted_sortBy cmp xs, fun a => filter_sortBy cmp ?_⟩
  refine List.pairwise_of_forall_mem_list fun x hx y hy => ?_
  have hx : cmp a x = .eq := by simpa using (List.mem_filter.1 hx).2
  have hy : cmp a y = .eq := by simpa using (List.mem_filter.1 hy).2
  rw [← Std.TransCmp.congr_left hx, hy]
  rfl

theorem mem_ties_self {a : α} {xs : List α} : a ∈ ties cmp a xs ↔ a ∈ xs := by
  simp [ties, Std.ReflCmp.compare_self]

theorem mem_iff_of_ties_eq {xs ys : List α} (h : ∀ a, ties cmp a xs = ties cmp a ys) (a : α) :
    a ∈ xs ↔ a ∈ ys := by
  rw [← mem_ties_self cmp, h, mem_ties_self cmp]

theorem isLE_head {a x : α} {xs : List α}
    (h : (x :: xs).Pairwise fun a b => (cmp a b).isLE) (ha : a ∈ x :: xs) : (cmp x a).isLE := by
  obtain rfl | ha := List.mem_cons.1 ha
  · exact Std.ReflCmp.isLE_rfl
  · exact List.rel_of_pairwise_cons h ha

/-- **Sorted lists are the same if their equal items are.** -/
theorem eq_of_ties_eq {xs ys : List α} (hxs : xs.Pairwise fun a b => (cmp a b).isLE)
    (hys : ys.Pairwise fun a b => (cmp a b).isLE) (h : ∀ a, ties cmp a xs = ties cmp a ys) :
    xs = ys := by
  have hmem := mem_iff_of_ties_eq cmp h
  induction xs generalizing ys with
  | nil => exact (List.eq_nil_iff_forall_not_mem.2 fun y hy => nomatch (hmem y).2 hy).symm
  | cons x xs ih =>
    cases ys with
    | nil => cases (hmem x).1 List.mem_cons_self
    | cons y ys =>
      -- The first items are not worse than each other, so both are the first one of their ties.
      have hxy : cmp x y = .eq := Std.OrientedCmp.isLE_antisymm
        (isLE_head cmp hxs ((hmem y).2 List.mem_cons_self))
        (isLE_head cmp hys ((hmem x).1 List.mem_cons_self))
      obtain rfl : x = y := by
        have := h x
        simp only [ties, List.filter_cons, hxy, Std.ReflCmp.compare_self, beq_self_eq_true,
          if_true, List.cons.injEq] at this
        exact this.1
      have htail (a : α) : ties cmp a xs = ties cmp a ys := by
        have := h a
        simp only [ties, List.filter_cons] at this ⊢
        split at this
        · exact (List.cons.inj this).2
        · exact this
      rw [ih hxs.of_cons hys.of_cons htail (mem_iff_of_ties_eq cmp htail)]

end Sorting

theorem Span.isLE_compare_iff {s t : Span} :
    (s.compare t).isLE ↔ s.start < t.start ∨ s.start = t.start ∧ s.stop ≤ t.stop := by
  simp only [Span.compare, Ordering.isLE_then_iff_or, Nat.compare_eq_lt, Nat.compare_eq_eq,
    Nat.isLE_compare]

/-- Spans are compared by a total preorder, through whatever they belong to. -/
instance transCmp_compare_span (span : α → Span) :
    Std.TransCmp fun a b => (span a).compare (span b) :=
  inferInstanceAs (Std.TransCmp
    (compareLex (compareOn fun a => (span a).start) (compareOn fun a => (span a).stop)))

/-! ## Keeping disjoint items -/

section Keeping

variable (span : α → Span)

/-- An item is kept if and only if it overlaps none that is kept before it. -/
def KeepsGreedily (xs : List α) (keep : Nat → Bool) : Prop :=
  ∀ i (hi : i < xs.length), keep i = true ↔
    ∀ j (hj : j < i), keep j = true → (span xs[j]).overlaps (span xs[i]) = false

/-- The items at some positions. -/
def picked (xs : List α) (keep : Nat → Bool) : List α :=
  (xs.zipIdx.filter fun x => keep x.2).map Prod.fst

theorem mem_picked {xs : List α} {keep : Nat → Bool} {a : α} :
    a ∈ picked xs keep ↔ ∃ i, ∃ hi : i < xs.length, keep i = true ∧ xs[i] = a := by
  simp only [picked, List.mem_map, List.mem_filter, Prod.exists, exists_and_right, exists_eq_right,
    List.mem_zipIdx_iff_getElem?, List.getElem?_eq_some_iff]
  exact ⟨fun ⟨i, ⟨hi, ha⟩, hk⟩ => ⟨i, hi, hk, ha⟩, fun ⟨i, hi, hk, ha⟩ => ⟨i, ⟨hi, ha⟩, hk⟩⟩

theorem picked_concat (xs : List α) (x : α) (keep : Nat → Bool) :
    picked (xs ++ [x]) keep = picked xs keep ++ if keep xs.length then [x] else [] := by
  simp only [picked, List.zipIdx_append, List.filter_append, List.map_append, Nat.zero_add,
    List.zipIdx_singleton]
  cases h : keep xs.length <;> simp [h]

theorem picked_congr {xs : List α} {keep keep' : Nat → Bool}
    (h : ∀ i < xs.length, keep i = keep' i) : picked xs keep = picked xs keep' := by
  unfold picked
  rw [List.filter_congr fun x hx => h x.2 (by simpa using List.snd_lt_of_mem_zipIdx hx)]

theorem picked_sublist (xs : List α) (keep : Nat → Bool) : (picked xs keep).Sublist xs := by
  have := (List.filter_sublist (p := fun x : α × Nat => keep x.2) (l := xs.zipIdx)).map Prod.fst
  rwa [List.zipIdx_map_fst] at this

theorem picked_append_perm (xs : List α) (keep : Nat → Bool) :
    (picked xs keep ++ picked xs fun i => !keep i).Perm xs := by
  have := (List.filter_append_perm (fun x : α × Nat => keep x.2) xs.zipIdx).map Prod.fst
  rwa [List.map_append, List.zipIdx_map_fst] at this

theorem keepDisjoint_concat (kept xs : List α) (x : α) :
    keepDisjoint span kept (xs ++ [x]) =
      let kept := keepDisjoint span kept xs
      if kept.all fun k => !(span k).overlaps (span x) then kept ++ [x] else kept := by
  induction xs generalizing kept with
  | nil => rfl
  | cons y xs ih => exact ih _

/-- **The loop keeps items greedily.** -/
theorem exists_keepsGreedily (xs : List α) :
    ∃ keep, KeepsGreedily span xs keep ∧ keepDisjoint span [] xs = picked xs keep := by
  induction xs using List.reverseRecOn with
  | nil => exact ⟨fun _ => false, fun i hi => absurd hi (Nat.not_lt_zero i), rfl⟩
  | append_singleton xs x ih =>
    obtain ⟨keep, hkeep, hpicked⟩ := ih
    let last := (picked xs keep).all fun k => !(span k).overlaps (span x)
    let keep' (i : Nat) : Bool := if i = xs.length then last else keep i
    have hbelow (i : Nat) (hi : i < xs.length) : keep' i = keep i := if_neg (by omega)
    have hlast : keep' xs.length = last := if_pos rfl
    refine ⟨keep', fun i hi => ?_, ?_⟩
    · rw [List.length_append, List.length_singleton] at hi
      obtain hi | rfl : i < xs.length ∨ i = xs.length := by omega
      · rw [hbelow i hi, hkeep i hi]
        refine forall₂_congr fun j hj => ?_
        rw [hbelow j (by omega), List.getElem_append_left, List.getElem_append_left]
      · have hx : (xs ++ [x])[xs.length] = x := by simp
        simp only [hlast, last, List.all_eq_true, mem_picked, Bool.not_eq_true', hx]
        constructor
        · intro h j hj hk
          rw [hbelow j hj] at hk
          rw [List.getElem_append_left hj]
          exact h _ ⟨j, hj, hk, rfl⟩
        · rintro h _ ⟨j, hj, hk, rfl⟩
          have := h j hj (by rwa [hbelow j hj])
          rwa [List.getElem_append_left hj] at this
    · rw [keepDisjoint_concat, hpicked, picked_concat, picked_congr hbelow, hlast]
      dsimp only
      split <;> simp_all [last]

variable {span}

theorem pairwise_keepDisjoint {kept xs : List α}
    (h : kept.Pairwise fun a b => (span a).overlaps (span b) = false) :
    (keepDisjoint span kept xs).Pairwise fun a b => (span a).overlaps (span b) = false := by
  induction xs generalizing kept with
  | nil => exact h
  | cons x xs ih =>
    rw [keepDisjoint]
    split
    · next hall =>
      refine ih (List.pairwise_append.2 ⟨h, List.pairwise_singleton _ _, fun a ha b hb => ?_⟩)
      obtain rfl := List.mem_singleton.1 hb
      simpa using List.all_eq_true.1 hall a ha
    · exact ih h

theorem keepDisjoint_of_pairwise {kept xs : List α}
    (h : (kept ++ xs).Pairwise fun a b => (span a).overlaps (span b) = false) :
    keepDisjoint span kept xs = kept ++ xs := by
  induction xs generalizing kept with
  | nil => rw [keepDisjoint, List.append_nil]
  | cons x xs ih =>
    have hall : (kept.all fun k => !(span k).overlaps (span x)) = true :=
      List.all_eq_true.2 fun k hk => by
        simp [(List.pairwise_append.1 h).2.2 k hk x List.mem_cons_self]
    rw [List.append_cons] at h
    rw [keepDisjoint, if_pos hall, ih h, ← List.append_cons]

end Keeping

/-! ## The selection -/

section Selection

theorem Span.overlaps_comm (s t : Span) : s.overlaps t = t.overlaps s := Bool.and_comm _ _

variable {span : α → Span} {cmp : α → α → Ordering}

theorem pairwise_of_perm_selectDisjoint {xs ys : List α}
    (h : ys.Perm (selectDisjoint span cmp xs)) :
    ys.Pairwise fun a b => (span a).overlaps (span b) = false :=
  (h.trans (sortBy_perm _ _)).symm.pairwise (pairwise_keepDisjoint .nil)
    fun hab => (Span.overlaps_comm _ _).trans hab

variable [Std.TransCmp cmp]

theorem sorted_keepDisjoint (xs : List α) :
    (keepDisjoint span [] (sortBy cmp xs)).Pairwise fun a b => (cmp a b).isLE := by
  obtain ⟨keep, -, hpicked⟩ := exists_keepsGreedily span (sortBy cmp xs)
  rw [hpicked]
  exact (sorted_sortBy cmp xs).sublist (picked_sublist _ _)

/-- **Selecting again selects the same.** Items with the same span keep their order, since the
comparison has put them into it before. -/
theorem selectDisjoint_selectDisjoint (xs : List α) :
    selectDisjoint span cmp (selectDisjoint span cmp xs) = selectDisjoint span cmp xs := by
  let offset (a b : α) : Ordering := (span a).compare (span b)
  let selected := selectDisjoint span cmp xs
  have hselected : StablySorted offset (keepDisjoint span [] (sortBy cmp xs)) selected :=
    stablySorted_sortBy offset _
  have hkept : keepDisjoint span [] (sortBy cmp selected) = sortBy cmp selected :=
    keepDisjoint_of_pairwise (pairwise_of_perm_selectDisjoint (sortBy_perm cmp selected))
  have hagain : StablySorted offset (sortBy cmp selected) (selectDisjoint span cmp selected) := by
    rw [selectDisjoint, hkept]
    exact stablySorted_sortBy offset _
  refine eq_of_ties_eq offset hagain.sorted hselected.sorted fun a => ?_
  rw [hagain.stable]
  -- Items with the span of `a` are in the order of the comparison, so sorting by it keeps them.
  refine filter_sortBy cmp (p := fun x => offset a x == .eq) ?_
  change (ties offset a selected).Pairwise _
  rw [hselected.stable]
  exact (sorted_keepDisjoint xs).sublist List.filter_sublist

variable (span cmp) in
/-- **What is not selected overlaps a selected item that is not worse.** -/
theorem exists_dropped (xs : List α) :
    ∃ dropped, (selectDisjoint span cmp xs ++ dropped).Perm xs ∧
      ∀ x ∈ dropped, ∃ k ∈ selectDisjoint span cmp xs,
        (span k).overlaps (span x) = true ∧ (cmp k x).isLE := by
  let sorted := sortBy cmp xs
  obtain ⟨keep, hkeep, hpicked⟩ := exists_keepsGreedily span sorted
  have hselected : (selectDisjoint span cmp xs).Perm (picked sorted keep) :=
    hpicked ▸ sortBy_perm _ _
  refine ⟨picked sorted fun i => !keep i,
    ((hselected.append_right _).trans (picked_append_perm _ _)).trans (sortBy_perm cmp xs), ?_⟩
  intro x hx
  obtain ⟨i, hi, hdropped, rfl⟩ := mem_picked.1 hx
  obtain ⟨j, hj, hkept, hoverlaps⟩ : ∃ j, ∃ hj : j < i, keep j = true ∧
      (span sorted[j]).overlaps (span sorted[i]) = true := by
    by_contra hno
    have : keep i = true := (hkeep i hi).2 fun j hj hk =>
      Bool.eq_false_iff.2 fun ho => hno ⟨j, hj, hk, ho⟩
    rw [this] at hdropped
    cases hdropped
  refine ⟨sorted[j], hselected.mem_iff.2 (mem_picked.2 ⟨j, by omega, hkept, rfl⟩), hoverlaps, ?_⟩
  exact List.pairwise_iff_getElem.1 (sorted_sortBy cmp xs) j i _ _ hj

end Selection

/-- **What is selected is the greedy choice**: an item is kept if and only if it overlaps none that
is kept before it. -/
theorem selectDisjoint_greedy (span : α → Span) (cmp : α → α → Ordering) [Std.TransCmp cmp]
    (xs : List α) :
    let sorted := sortBy cmp xs
    let selected := selectDisjoint span cmp xs
    StablySorted cmp xs sorted ∧
    (∃ keep, KeepsGreedily span sorted keep ∧
      StablySorted (fun a b => (span a).compare (span b)) (picked sorted keep) selected) ∧
    (∃ dropped, (selected ++ dropped).Perm xs ∧ ∀ x ∈ dropped, ∃ k ∈ selected,
      (span k).overlaps (span x) = true ∧ (cmp k x).isLE) ∧
    (selected.Pairwise fun a b => (span a).start < (span b).start ∨
      (span a).start = (span b).start ∧ (span a).stop ≤ (span b).stop) ∧
    (selected.Pairwise fun a b => (span a).overlaps (span b) = false) ∧
    selectDisjoint span cmp selected = selected := by
  intro sorted selected
  obtain ⟨keep, hkeep, hpicked⟩ := exists_keepsGreedily span sorted
  have hsorted : StablySorted cmp xs sorted := stablySorted_sortBy cmp xs
  have hselected : StablySorted (fun a b => (span a).compare (span b)) (picked sorted keep)
      selected := hpicked ▸ stablySorted_sortBy _ _
  exact ⟨hsorted, ⟨keep, hkeep, hselected⟩, exists_dropped span cmp xs,
    hselected.sorted.imp fun h => Span.isLE_compare_iff.1 h,
    pairwise_of_perm_selectDisjoint (.refl _), selectDisjoint_selectDisjoint xs⟩

/-- Longer candidates are better. -/
instance transCmp_length : Std.TransCmp Criterion.length.compare :=
  inferInstanceAs (Std.TransCmp fun a b => compareOn (fun c : Candidate => c.span.length) b a)

/-- The longest candidate drops three others. It overlaps the empty one inside of it, but not those
at its end, which keep their order. -/
theorem selectDisjoint_greedy_by_length :
    let cmp := Criterion.length.compare
    let xs : List Candidate := [⟨.zero, ⟨5, 5⟩, 0⟩, ⟨.zero, ⟨0, 2⟩, 1⟩, ⟨.zero, ⟨1, 5⟩, 2⟩,
      ⟨.zero, ⟨3, 3⟩, 3⟩, ⟨.zero, ⟨5, 5⟩, 4⟩, ⟨.zero, ⟨4, 7⟩, 5⟩]
    let selected := selectDisjoint Candidate.span cmp xs
    selected.map (·.order) = [2, 0, 4] ∧
      StablySorted cmp xs (sortBy cmp xs) ∧
      (∃ dropped, (selected ++ dropped).Perm xs ∧ ∀ x ∈ dropped, ∃ k ∈ selected,
        k.span.overlaps x.span = true ∧ (cmp k x).isLE) ∧
      selectDisjoint Candidate.span cmp selected = selected := by
  intro cmp xs selected
  have h := selectDisjoint_greedy Candidate.span Criterion.length.compare xs
  have horder : (selectDisjoint Candidate.span cmp xs).map (·.order) = [2, 0, 4] := by cbv
  exact ⟨horder, h.1, h.2.2.1, h.2.2.2.2.2⟩

end Motif
