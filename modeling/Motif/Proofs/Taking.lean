import Motif.Proofs.Operations

/-!
# Taking matches one after the other

What is taken from a search, with or without a limit.

* `Match.numberedFrom`: matches under consecutive numbers.
* `Search.exists_of_mem_take`: every match was found at or behind the cursor.
* **`Search.pairwise_take`**: each match starts where the cursor was left by those before it.
* `Search.length_take`, `Search.findAll_eq_take`: there are no more matches than positions.
* `Search.found_take`: matches are counted.
-/

namespace Motif

namespace Match

/-- Matches under consecutive numbers. -/
def numberedFrom (k : Nat) (ms : List Match) : List Match :=
  (ms.zipIdx k).map fun (m, i) => m.numbered i

theorem numberedFrom_cons (k : Nat) (m : Match) (ms : List Match) :
    numberedFrom k (m :: ms) = m.numbered k :: numberedFrom (k + 1) ms := by
  rw [numberedFrom, List.zipIdx_cons]
  rfl

theorem numberedFrom_append (k : Nat) (ms ns : List Match) :
    numberedFrom k (ms ++ ns) = numberedFrom k ms ++ numberedFrom (k + ms.length) ns := by
  rw [numberedFrom, List.zipIdx_append, List.map_append]
  rfl

@[simp] theorem length_numberedFrom (k : Nat) (ms : List Match) :
    (numberedFrom k ms).length = ms.length := by
  rw [numberedFrom, List.length_map, List.length_zipIdx]

end Match

namespace Search

variable {s : Search} {m : Match} {k : Nat}

theorem take_succ_of_none (hr : s.find.result = .ok none) :
    take (k + 1) s = { search := s.find.search, events := s.find.events } := by
  rw [take]
  simp only [hr]

theorem take_succ_of_some (hr : s.find.result = .ok (some m)) :
    take (k + 1) s =
      let rest := take k s.find.search
      { rest with found := m :: rest.found, events := s.find.events ++ rest.events } := by
  rw [take]
  simp only [hr]

theorem take_succ_of_error {e : MatchError} (hr : s.find.result = .error e) :
    take (k + 1) s = { error := some e, search := s.find.search, events := s.find.events } := by
  rw [take]
  simp only [hr]

theorem take_succ_of_stop (h : ∀ m, s.find.result ≠ .ok (some m)) (k : Nat) :
    take (k + 1) s = take 1 s ∧ (take 1 s).found = [] := by
  cases hr : s.find.result with
  | error e => rw [take_succ_of_error hr, take_succ_of_error (k := 0) hr]; exact ⟨rfl, rfl⟩
  | ok x =>
    obtain _ | m := x
    · rw [take_succ_of_none hr, take_succ_of_none (k := 0) hr]
      exact ⟨rfl, rfl⟩
    · exact absurd hr (h m)

theorem alike_take (k : Nat) (s : Search) : (take k s).search.Alike s := by
  induction k generalizing s with
  | zero => exact .refl s
  | succ k ih =>
    cases hr : s.find.result with
    | error e => rw [take_succ_of_error hr]; exact s.alike_find
    | ok x =>
      obtain _ | m := x
      · rw [take_succ_of_none hr]
        exact s.alike_find
      · rw [take_succ_of_some hr]
        exact (ih _).trans s.alike_find

theorem exists_of_mem_take (hm : m ∈ (take k s).found) :
    ∃ s' : Search, s'.Alike s ∧ s.cursor ≤ s'.cursor ∧ s'.find.result = .ok (some m) := by
  induction k generalizing s with
  | zero => cases hm
  | succ k ih =>
    by_cases h : ∃ m', s.find.result = .ok (some m')
    · obtain ⟨m', hr⟩ := h
      rw [take_succ_of_some hr] at hm
      obtain rfl | hm := List.mem_cons.1 hm
      · exact ⟨s, .refl s, Nat.le_refl _, hr⟩
      · obtain ⟨s', ha, hc, hr'⟩ := ih hm
        obtain ⟨ha', -, hc', -⟩ := find_search_of_some hr
        obtain ⟨_, _, hstart, hle, _⟩ := exists_of_find hr
        have := s.cursorAfter_bounds hle
        exact ⟨s', ha.trans ha', by omega, hr'⟩
    · rw [not_exists] at h
      rw [(take_succ_of_stop h k).1, (take_succ_of_stop h k).2] at hm
      cases hm

theorem bounds_of_mem_take (hm : m ∈ (take k s).found) :
    s.cursor ≤ m.span.start ∧ m.span.start ≤ m.span.stop ∧ m.span.stop ≤ s.length := by
  obtain ⟨s', ha, hc, hr⟩ := exists_of_mem_take hm
  obtain ⟨_, _, hstart, hle, hlen, _⟩ := exists_of_find hr
  rw [ha.length_eq] at hlen
  exact ⟨Nat.le_trans hc hstart, hle, hlen⟩

/-- **Each match starts where the cursor was left by those before it**, or behind that. -/
theorem pairwise_take (k : Nat) (s : Search) :
    (take k s).found.Pairwise fun a b => s.cursorAfter a ≤ b.span.start := by
  induction k generalizing s with
  | zero => exact .nil
  | succ k ih =>
    by_cases h : ∃ m, s.find.result = .ok (some m)
    · obtain ⟨m, hr⟩ := h
      obtain ⟨ha, -, hc, -⟩ := find_search_of_some hr
      rw [take_succ_of_some hr]
      refine .cons (fun m' hm' => hc ▸ (bounds_of_mem_take hm').1) ((ih _).imp fun hle => ?_)
      rwa [← ha.cursorAfter_eq]
    · rw [not_exists] at h
      rw [(take_succ_of_stop h k).1, (take_succ_of_stop h k).2]
      exact .nil

theorem pairwise_start_take (k : Nat) (s : Search) :
    (take k s).found.Pairwise fun a b => a.span.start < b.span.start :=
  (pairwise_take k s).imp_of_mem fun ha _ hle =>
    Nat.lt_of_lt_of_le (s.cursorAfter_bounds (bounds_of_mem_take ha).2.1).1 hle

theorem length_take (hc : s.cursor ≤ s.length + 1) :
    (take k s).found.length + s.cursor ≤ s.length + 1 := by
  induction k generalizing s with
  | zero => rwa [take, List.length_nil, Nat.zero_add]
  | succ k ih =>
    by_cases h : ∃ m, s.find.result = .ok (some m)
    · obtain ⟨m, hr⟩ := h
      obtain ⟨ha, -, hc', -⟩ := find_search_of_some hr
      obtain ⟨_, _, hstart, hle, hlen, _⟩ := exists_of_find hr
      have hcur := s.cursorAfter_bounds hle
      have := ih (s := s.find.search) (by rw [ha.length_eq]; omega)
      rw [ha.length_eq] at this
      rw [take_succ_of_some hr]
      dsimp only
      rw [List.length_cons]
      omega
    · rw [not_exists] at h
      rwa [(take_succ_of_stop h k).1, (take_succ_of_stop h k).2, List.length_nil, Nat.zero_add]

theorem take_add (h : (take k s).found.length < k) (j : Nat) : take (k + j) s = take k s := by
  induction k generalizing s with
  | zero => cases h
  | succ k ih =>
    rw [Nat.succ_add]
    by_cases hr : ∃ m, s.find.result = .ok (some m)
    · obtain ⟨m, hr⟩ := hr
      rw [take_succ_of_some hr] at h ⊢
      rw [take_succ_of_some hr, ih (Nat.lt_of_succ_lt_succ h)]
    · rw [not_exists] at hr
      rw [(take_succ_of_stop hr _).1, (take_succ_of_stop hr k).1]

theorem length_findAll (s : Search) : s.findAll.found.length ≤ s.length + 1 :=
  length_take (s := s.reset) (Nat.zero_le _)

/-- **Asking for more matches than there are positions gives nothing more.** -/
theorem findAll_eq_take (s : Search) (k : Nat) : take (s.length + 2 + k) s.reset = s.findAll :=
  take_add (Nat.lt_succ_of_le s.length_findAll) k

theorem found_take (herr : (take k s).error = none) :
    (take k s).search.metrics.found = s.metrics.found + (take k s).found.length := by
  induction k generalizing s with
  | zero => rfl
  | succ k ih =>
    cases hr : s.find.result with
    | error e => rw [take_succ_of_error hr] at herr; cases herr
    | ok x =>
      obtain _ | m := x
      · rw [take_succ_of_none hr]
        exact (find_search_of_none hr).2.2.2
      · rw [take_succ_of_some hr] at herr ⊢
        have hf := (find_search_of_some hr).2.2.2.2
        have := ih herr
        dsimp only at this ⊢
        rw [List.length_cons]
        omega

theorem found_findAll (herr : s.findAll.error = none) :
    s.findAll.search.metrics.found = s.metrics.found + s.findAll.found.length := found_take herr

end Search

end Motif
