import Motif.Proofs.Collection
import Motif.Proofs.Histories
import Motif.Proofs.Selection

/-!
# One pattern searched for alone

A pattern can be searched for by itself or as the only one of an ensemble. If matches are looked for
behind each other, both ways find the same: nothing is left to select from, since the matches of one
search do not overlap and come in the order of their spans.

* `Match.numberedFrom_of_order`: numbering matches that are numbered so already.
* `sortBy_eq_of_increasing`: sorting by spans whose starts increase, whatever the order they come
  in.
* `selectDisjoint_of_increasing`: a selection that drops and moves nothing.
* `Search.order_findAll`, `Search.overlaps_findAll`: the matches of one search.
* **`Ensemble.run_alone`**: both ways of searching for one pattern.
-/

namespace Motif

theorem Match.numberedFrom_of_order {k : Nat} {ms : List Match}
    (h : ms.map (·.order) = List.range' k ms.length) : numberedFrom k ms = ms := by
  induction ms generalizing k with
  | nil => rfl
  | cons m ms ih =>
    rw [List.map_cons, List.length_cons, List.range'_succ, List.cons.injEq] at h
    obtain ⟨rfl, h⟩ := h
    rw [numberedFrom_cons, ih h]
    rfl

/-! ## Selections that drop nothing -/

section Increasing

variable {α : Type} {span : α → Span} {xs ys : List α}

theorem sortBy_eq_of_increasing (h : xs.Pairwise fun a b => (span a).start < (span b).start)
    (hperm : ys.Perm xs) : sortBy (fun a b => (span a).compare (span b)) ys = xs := by
  have hsorted : xs.Pairwise fun a b => ((span a).compare (span b)).isLE :=
    h.imp fun hlt => Span.isLE_compare_iff.2 (.inl hlt)
  refine ((sortBy_perm _ ys).trans hperm).eq_of_pairwise (fun a b ha hb hab hba => ?_)
    (sorted_sortBy _ ys) hsorted
  -- Neither starts before the other, so they are the same item of `xs`.
  rw [Span.isLE_compare_iff] at hab hba
  have hstart : (span a).start = (span b).start := by omega
  have ha : a ∈ xs := hperm.mem_iff.1 ((sortBy_perm _ ys).mem_iff.1 ha)
  obtain ⟨i, hi, rfl⟩ := List.getElem_of_mem ha
  obtain ⟨j, hj, rfl⟩ := List.getElem_of_mem hb
  obtain hlt | rfl | hlt := Nat.lt_trichotomy i j
  · have := List.pairwise_iff_getElem.1 h i j hi hj hlt
    omega
  · rfl
  · have := List.pairwise_iff_getElem.1 h j i hj hi hlt
    omega

/-- **A selection from items that lie one behind the other** is all of them, as they are listed. The
comparison plays no part. -/
theorem selectDisjoint_of_increasing (cmp : α → α → Ordering)
    (h : xs.Pairwise fun a b => (span a).start < (span b).start)
    (hdisjoint : xs.Pairwise fun a b => (span a).overlaps (span b) = false) :
    selectDisjoint span cmp xs = xs := by
  have hsort : (sortBy cmp xs).Pairwise fun a b => (span a).overlaps (span b) = false :=
    (sortBy_perm cmp xs).symm.pairwise hdisjoint fun hab => (Span.overlaps_comm _ _).trans hab
  rw [selectDisjoint, keepDisjoint_of_pairwise hsort]
  exact sortBy_eq_of_increasing h (sortBy_perm cmp xs)

end Increasing

/-! ## Matches of one search -/

namespace Search

variable (s : Search)

theorem order_findAll :
    s.findAll.found.map (·.order) = List.range' s.produced s.findAll.found.length := by
  obtain ⟨as, ht, hfound, -⟩ := comes_take (s.length + 2) s.reset
  rw [findAll, hfound]
  exact ht.order.1

theorem pattern_of_mem_findAll {s : Search} {m : Match} (hm : m ∈ s.findAll.found) :
    m.pattern = 0 := by
  obtain ⟨s', -, -, hr⟩ := exists_of_mem_take hm
  obtain ⟨store, hm, -⟩ := exists_of_find hr
  rw [hm]
  rfl

theorem overlaps_findAll (ht : s.options.findType = .disjoint) :
    s.findAll.found.Pairwise fun a b => a.span.overlaps b.span = false := by
  refine (pairwise_take _ _).imp_of_mem fun {a b} ha _ hle => ?_
  have hbehind := Match.behind_bounds (m := a) (bounds_of_mem_take ha).2.1
  rw [s.alike_reset.cursorAfter_eq, cursorAfter_disjoint ht] at hle
  have : ¬ b.span.start < a.span.stop := by omega
  simp [Span.overlaps, this]

end Search

/-! ## An ensemble of one -/

namespace Ensemble

variable (chain : Chain) (elements : Array Element)

theorem run_of_collect {e : Ensemble} {h : Harvest} (hcollect : (e.collect elements).1 = .ok h) :
    ∃ run, (e.run chain elements).1 = .ok run ∧ run.candidates = h.candidates ∧
      run.selected = selectDisjoint Match.span
        (fun a b => chain.compare a.candidate b.candidate) h.candidates ∧
      run.metrics.duplicates = h.duplicates := by
  rw [run]
  dsimp only
  rw [hcollect]
  exact ⟨_, rfl, rfl, rfl, rfl⟩

variable (r : Registration) (options : Options)

/-- **A pattern that is searched for alone** in an ensemble is found as in a search of its own,
whatever the ranking. -/
theorem run_alone (hb : r.pattern.root.boundsOrdered = true)
    (ht : options.findType = .disjoint) :
    let direct : Search := { pattern := r.pattern, elements, options }
    let e : Ensemble := { registrations := [r], options }
    direct.findAll.error = none →
      (∃ run, (e.run chain elements).1 = .ok run ∧
        run.candidates = direct.findAll.found ∧ run.selected = direct.findAll.found ∧
        run.metrics.duplicates = 0) ∧
      (e.active elements = [] → direct.findAll.found = []) := by
  intro direct e herr
  have hco : e.Coherent := by
    intro r₁ h₁ r₂ h₂ _
    rw [List.mem_singleton.1 h₁, List.mem_singleton.1 h₂]
  have hknows : e.Knows elements [] {} := by
    intro k
    simp only [List.not_mem_nil, false_and, exists_false]
  have hactive : e.active elements = [(r, 0)].filter (asks elements) := e.active_eq elements
  obtain ⟨h, hcollect, hcand, hdup, -⟩ := exists_collectFrom hco
    (fun r' hr' => List.mem_singleton.1 hr' ▸ hb) (fun r' hr' => List.mem_singleton.1 hr' ▸ herr)
    hknows rfl rfl
  -- The only registration repeats none, and its matches have their numbers already.
  have hmatches : e.matchesOf elements (r, 0) = direct.findAll.found := by
    refine (List.map_congr_left fun m hm => ?_).trans (List.map_id _)
    have : m.pattern = 0 := Search.pattern_of_mem_findAll hm
    rw [id_eq, ← this]
  have hfound : h.candidates = direct.findAll.found := by
    refine hcand.trans ((List.nil_append _).trans ?_)
    change Match.numberedFrom 0 (e.matchesOf elements (r, 0) ++ []) = _
    rw [List.append_nil, hmatches]
    exact Match.numberedFrom_of_order direct.order_findAll
  have hnodup : h.duplicates = 0 := by
    refine hdup.trans ?_
    cases ha : asks elements (r, 0) <;> simp [ha, repeats]
  have hcollect : (e.collect elements).1 = .ok h := by
    rw [collect, hactive]
    exact hcollect
  constructor
  · obtain ⟨run, hrun, hcandidates, hselected, hduplicates⟩ :=
      run_of_collect chain elements hcollect
    refine ⟨run, hrun, hcandidates.trans hfound, ?_, hduplicates.trans hnodup⟩
    rw [hselected, hfound]
    exact selectDisjoint_of_increasing _ (Search.pairwise_start_take _ _)
      (direct.overlaps_findAll ht)
  · intro hnone
    rw [hactive, List.filter_eq_nil_iff] at hnone
    exact found_eq_nil (e := e) hb (hnone _ List.mem_cons_self)

/-- A word or nothing: one match of a word, and an empty one where that ends. -/
theorem run_alone_of_word_or_nothing :
    let root : Expr := .choice [.node (.attr .text (.equals "a" false)), .sequence []]
    let r : Registration := ⟨.build "" root [] 1, 7⟩
    let options : Options := {}
    let elements : Array Element := #[⟨"b", fun _ => none⟩, ⟨"a", fun _ => none⟩]
    let direct : Search := { pattern := r.pattern, elements, options }
    let e : Ensemble := { registrations := [r], options }
    r.pattern.root.boundsOrdered = true ∧ options.findType = .disjoint ∧
      direct.findAll.error = none ∧
      direct.findAll.found.map Match.span = [⟨0, 0⟩, ⟨1, 2⟩, ⟨2, 2⟩] ∧
      ∃ run, (e.run [.length] elements).1 = .ok run ∧
        run.candidates = direct.findAll.found ∧ run.selected = direct.findAll.found := by
  intro root r options elements direct e
  have herr : direct.findAll.error = none := by
    refine Search.findAll_error_eq_none rfl fun p _ err hmem => ?_
    obtain hmem | hmem := List.mem_append.1 hmem
    · obtain ⟨_, _, ht⟩ := Trial.exists_of_error_mem_ofNode hmem
      cases ht
    · cases List.mem_singleton.1 hmem
  have hspans : direct.findAll.found.map Match.span = [⟨0, 0⟩, ⟨1, 2⟩, ⟨2, 2⟩] := by cbv
  obtain ⟨run, hrun, hcandidates, hselected, -⟩ :=
    (run_alone [.length] elements r options rfl rfl herr).1
  exact ⟨rfl, rfl, herr, hspans, run, hrun, hcandidates, hselected⟩

end Ensemble

end Motif
