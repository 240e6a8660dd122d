import Motif.Proofs.Taking
import Mathlib.Order.Basic
import Mathlib.Data.Nat.Find

/-!
# All matches as a scan

Asking for one match after the other is a scan: it takes the least position at which there is a
match, and goes on behind it. Where exactly it goes on is all in which the ways to search differ.

* `Search.Scan`: scans, said with matches at given positions only.
* `Search.find_of_silent`, `Search.find_of_hit`: one step of a scan.
* `Search.scan_or_error`: a scan is what taking matches gives, unless a function fails.
* `Search.Scan.unique`, `Search.Scan.eq_filterMap`: what scans report.
* **`Search.findAll_scans`**: all matches are those of a scan.
-/

namespace Motif

namespace Search

variable (s : Search)

/-- There is no match at any position from `c` up to `p`. -/
def Silent (c p : Nat) : Prop := ∀ q, c ≤ q → q < p → (s.matchAt q).result = .ok none

/-- A scan from a position on: the match at the least position that has one, and then the scan from
where `next` says. -/
inductive Scan (next : Match → Nat) : Nat → List Match → Prop where
  | done {c : Nat} (h : s.Silent c (s.length + 1)) : Scan next c []
  | hit {c p : Nat} {m : Match} {ms : List Match} (hc : c ≤ p) (hp : p ≤ s.length)
    (h : s.Silent c p) (hm : (s.matchAt p).result = .ok (some m)) (rest : Scan next (next m) ms) :
    Scan next c (m :: ms)

variable {s} {next : Match → Nat} {c p : Nat} {m : Match} {ms : List Match}

theorem starts_split {n : Nat} (hc : c ≤ p) (hp : p ≤ n) : List.range' c (n + 1 - c) =
    List.range' c (p - c) ++ p :: List.range' (p + 1) (n - p) := by
  have h := List.range'_append_1 (s := c) (m := p - c) (n := n - p + 1)
  rw [Nat.add_sub_cancel' hc, List.range'_succ] at h
  rw [h]
  congr 1
  omega

/-! ## Matches at a position -/

theorem span_of_matchAt (hm : (s.matchAt p).result = .ok (some m)) :
    p ≤ s.length ∧ m.span.start = p ∧ p ≤ m.span.stop ∧ m.span.stop ≤ s.length := by
  by_cases hp : p ≤ s.length
  · rw [matchAt_of_le hp] at hm
    obtain ⟨_, _, hstart, hle, hlen, _⟩ := exists_of_attempts hm
    obtain rfl := List.mem_singleton.1 hstart
    exact ⟨hp, rfl, hle, hlen hp⟩
  · rw [matchAt, if_pos (by omega)] at hm
    cases hm

theorem cursorAfter_of_matchAt (hm : (s.matchAt p).result = .ok (some m)) :
    p < s.cursorAfter m ∧ s.cursorAfter m ≤ s.length + 1 := by
  obtain ⟨_, hstart, hle, hlen⟩ := span_of_matchAt hm
  have := s.cursorAfter_bounds (m := m) (by omega)
  omega

theorem silent_or_hit (s : Search) (c : Nat) : s.Silent c (s.length + 1) ∨
    ∃ p, c ≤ p ∧ p ≤ s.length ∧ s.Silent c p ∧ (s.matchAt p).result ≠ .ok none := by
  by_cases h : ∃ p, c ≤ p ∧ p ≤ s.length ∧ (s.matchAt p).result ≠ .ok none
  · classical
    obtain ⟨hc, hp, hr⟩ := Nat.find_spec h
    refine .inr ⟨_, hc, hp, fun q hq hlt => ?_, hr⟩
    by_contra hne
    exact Nat.find_min h hlt ⟨hq, by omega, hne⟩
  · refine .inl fun q hq hlt => ?_
    by_contra hne
    exact h ⟨q, hq, by omega, hne⟩

theorem Alike.matchAt_result_eq {s' : Search} (h : s.Alike s') (p : Nat) :
    (s.matchAt p).result = (s'.matchAt p).result.map (Option.map (·.numbered s.produced)) := by
  have hlen := h.length_eq
  by_cases hp : p ≤ s.length
  · rw [matchAt_of_le hp, matchAt_of_le (hlen ▸ hp)]
    exact h.attempts_result_eq
  · rw [matchAt, matchAt, if_pos (by omega), if_pos (by omega), hlen]
    rfl

theorem Alike.silent {s' : Search} (h : s.Alike s') (hs : s'.Silent c p) : s.Silent c p := by
  intro q hq hlt
  rw [h.matchAt_result_eq, hs q hq hlt]
  rfl

/-! ## One step of a scan -/

section Step

variable (h : s.exhausted = false) (hs : s.options.maxSteps = none)

include hs

theorem attempts_append_of_silent {ps : List Nat} {k : Nat} (hk : c + k ≤ s.length + 1)
    (hsil : s.Silent c (c + k)) :
    (s.attempts none (List.range' c k ++ ps)).result = (s.attempts none ps).result := by
  induction k generalizing c with
  | zero => rfl
  | succ k ih =>
    rw [List.range'_succ, List.cons_append, attempts_result_cons hs,
      ← matchAt_of_le (by omega), hsil c (Nat.le_refl c) (by omega)]
    exact ih (by omega) fun q hq hlt => hsil q (by omega) (by omega)

include h

variable {s₀ : Search} (ha : s.Alike s₀)

include ha

theorem find_of_silent (hsil : s₀.Silent s.cursor (s₀.length + 1)) : s.find.result = .ok none := by
  rw [← ha.length_eq] at hsil
  rw [find_result h, ← List.append_nil (List.range' _ _)]
  by_cases hc : s.cursor ≤ s.length + 1
  · rw [attempts_append_of_silent hs (by omega)
      (by rw [Nat.add_sub_cancel' hc]; exact ha.silent hsil)]
    rfl
  · rw [Nat.sub_eq_zero_of_le (by omega)]
    rfl

theorem find_of_hit (hc : s.cursor ≤ p) (hp : p ≤ s₀.length) (hsil : s₀.Silent s.cursor p)
    (hr : (s₀.matchAt p).result ≠ .ok none) :
    s.find.result = (s₀.matchAt p).result.map (Option.map (·.numbered s.produced)) := by
  rw [← ha.length_eq] at hp
  rw [← ha.matchAt_result_eq, find_result h, starts_split hc hp,
    attempts_append_of_silent hs (by omega)
      (by rw [Nat.add_sub_cancel' hc]; exact ha.silent hsil),
    attempts_result_cons hs, ← matchAt_of_le hp]
  split
  · next hn =>
    rw [ha.matchAt_result_eq] at hn
    cases hx : (s₀.matchAt p).result with
    | error e => rw [hx] at hn; cases hn
    | ok x =>
      obtain _ | m := x
      · exact absurd hx hr
      · rw [hx] at hn; cases hn
  · rfl

end Step

/-! ## Runs of scans -/

/-- **Taking matches gives the matches of a scan**, unless there is a failure at a position; then it
is reported. -/
theorem scan_or_error {s₀ : Search} (ha : s.Alike s₀) (h : s.exhausted = false)
    (hs : s.options.maxSteps = none) (hc : s.cursor ≤ s.length + 1) {k : Nat}
    (hk : s.length + 2 - s.cursor ≤ k) :
    (∃ ms, s₀.Scan s₀.cursorAfter s.cursor ms ∧
      (take k s).found = Match.numberedFrom s.produced ms ∧ (take k s).error = none) ∨
    ∃ p e, p ≤ s₀.length ∧ (s₀.matchAt p).result = .error e ∧ (take k s).error = some e := by
  induction k generalizing s with
  | zero => omega
  | succ k ih =>
    obtain hsil | ⟨p, hcp, hp, hsil, hr⟩ := s₀.silent_or_hit s.cursor
    · rw [take_succ_of_none (find_of_silent h hs ha hsil)]
      exact .inl ⟨[], .done hsil, rfl, rfl⟩
    · have hf := find_of_hit h hs ha hcp hp hsil hr
      cases hx : (s₀.matchAt p).result with
      | error e =>
        rw [hx] at hf
        exact .inr ⟨p, e, hp, hx, by rw [take_succ_of_error hf]⟩
      | ok x =>
        obtain _ | m := x
        · exact absurd hx hr
        · rw [hx] at hf
          obtain ⟨ha', h', hc', hn, -⟩ := find_search_of_some hf
          have hc' : s.find.search.cursor = s₀.cursorAfter m := hc'.trans (ha.cursorAfter_eq _)
          have hlen := (ha'.trans ha).length_eq
          have hlen' := ha.length_eq
          have hcur := cursorAfter_of_matchAt hx
          rw [take_succ_of_some hf]
          obtain ⟨ms, hms, hfound, herr⟩ | ⟨q, e, hq, he, herr⟩ :=
            ih (ha'.trans ha) h' (ha'.options_eq ▸ hs) (by omega) (by omega)
          · refine .inl ⟨m :: ms, .hit hcp hp hsil hx (hc' ▸ hms), ?_, herr⟩
            rw [Match.numberedFrom_cons, ← hn, ← hfound]
          · exact .inr ⟨q, e, hq, he, herr⟩

/-! ## What scans report -/

namespace Scan

theorem unique {ms' : List Match} (h : s.Scan next c ms) (h' : s.Scan next c ms') : ms = ms' := by
  induction h generalizing ms' with
  | done hsil =>
    cases h' with
    | done _ => rfl
    | hit hc hp _ hm _ =>
      rw [hsil _ hc (by omega)] at hm
      cases hm
  | @hit c p m ms hc hp hsil hm _ ih =>
    cases h' with
    | done hsil' =>
      rw [hsil' _ hc (by omega)] at hm
      cases hm
    | @hit _ p' m' ms' hc' hp' hsil' hm' h' =>
      obtain hlt | rfl | hlt := Nat.lt_trichotomy p p'
      · rw [hsil' p hc hlt] at hm
        cases hm
      · rw [hm] at hm'
        cases hm'
        rw [ih h']
      · rw [hsil p' hc' hlt] at hm'
        cases hm'

theorem eq_filterMap (h : s.Scan (fun m => m.span.start + 1) c ms) :
    ms = (List.range' c (s.length + 1 - c)).filterMap fun p =>
      (s.matchAt p).result.toOption.join := by
  have silent {c k : Nat} (h : s.Silent c (c + k)) :
      ((List.range' c k).filterMap fun p => (s.matchAt p).result.toOption.join) = [] := by
    refine List.filterMap_eq_nil_iff.2 fun p hp => ?_
    rw [List.mem_range'_1] at hp
    rw [h p hp.1 hp.2]
    rfl
  induction h with
  | @done c h =>
    refine (silent fun q hq hlt => h q hq ?_).symm
    omega
  | @hit c p m ms hc hp h hm _ ih =>
    have hstart := (span_of_matchAt hm).2.1
    rw [starts_split hc hp, List.filterMap_append, silent (by rwa [Nat.add_sub_cancel' hc]),
      List.nil_append, List.filterMap_cons_some (b := m) (by rw [hm]; rfl)]
    rw [hstart, Nat.add_sub_add_right] at ih
    exact congrArg (m :: ·) ih

end Scan

/-! ## All matches -/

theorem alike_reset (s : Search) : s.reset.Alike s := ⟨rfl, rfl, rfl, rfl⟩

/-- All matches are those of a scan from the start on, unless there is a failure at a position. -/
theorem findAll_scan_or_error (hs : s.options.maxSteps = none) :
    (∃ ms, s.Scan s.cursorAfter 0 ms ∧
      s.findAll.found = Match.numberedFrom s.produced ms ∧ s.findAll.error = none) ∨
    ∃ p e, p ≤ s.length ∧ (s.matchAt p).result = .error e ∧ s.findAll.error = some e :=
  scan_or_error (k := s.length + 2) s.alike_reset rfl hs (Nat.zero_le _) (Nat.sub_le _ _)

/-- **A search in which no function fails finds all matches.** -/
theorem findAll_error_eq_none (hs : s.options.maxSteps = none)
    (h : ∀ p ≤ s.length, ∀ err, .error err ∉ s.pattern.pathsFrom s.elements s.render p) :
    s.findAll.error = none := by
  obtain ⟨_, _, _, herr⟩ | ⟨p, e, hp, he, _⟩ := findAll_scan_or_error hs
  · exact herr
  · rw [matchAt_of_le hp] at he
    obtain ⟨q, hq, err, _, hmem⟩ := exists_error_of_attempts hs he
    obtain rfl := List.mem_singleton.1 hq
    exact absurd hmem (h q hp err)

/-- **All matches are those of a scan**, of every position that has one or behind each match, with
increasing starts. -/
theorem findAll_scans (hs : s.options.maxSteps = none) :
    ((∀ p ≤ s.length, ∀ e, (s.matchAt p).result ≠ .error e) → s.findAll.error = none) ∧
    (s.findAll.error = none →
      (s.options.findType = .everyStart → s.findAll.found =
        Match.numberedFrom s.produced ((List.range (s.length + 1)).filterMap fun p =>
          (s.matchAt p).result.toOption.join)) ∧
      (s.options.findType = .disjoint →
        (∃! ms, s.Scan Match.behind 0 ms) ∧
        (∀ ms, s.Scan Match.behind 0 ms → s.findAll.found = Match.numberedFrom s.produced ms) ∧
        s.findAll.found.Pairwise fun a b => a.span.stop ≤ b.span.start) ∧
      (s.findAll.found.Pairwise fun a b => a.span.start < b.span.start) ∧
      s.findAll.found.length ≤ s.length + 1 ∧
      ∀ k, take (s.length + 2 + k) s.reset = s.findAll) := by
  obtain ⟨ms, hms, hfound, herr⟩ | ⟨p, e, hp, he, herr⟩ := findAll_scan_or_error hs
  · refine ⟨fun _ => herr, fun _ => ⟨fun ht => ?_, fun ht => ⟨?_, fun ms' hms' => ?_, ?_⟩,
      pairwise_start_take _ _, s.length_findAll, s.findAll_eq_take⟩⟩
    · rw [cursorAfter_everyStart ht] at hms
      rw [hfound, List.range_eq_range']
      exact congrArg _ hms.eq_filterMap
    · rw [cursorAfter_disjoint ht] at hms
      exact ⟨ms, hms, fun ms' h => h.unique hms⟩
    · rw [cursorAfter_disjoint ht] at hms
      rw [hfound, hms'.unique hms]
    · refine (pairwise_take _ _).imp_of_mem fun {a b} hmem _ hle => ?_
      have hbehind := Match.behind_bounds (m := a) (bounds_of_mem_take hmem).2.1
      rw [s.alike_reset.cursorAfter_eq, cursorAfter_disjoint ht] at hle
      omega
  · refine ⟨fun h => absurd he (h p hp e), fun h => ?_⟩
    rw [herr] at h
    cases h

/-- One element or nothing, in a sequence of two: the last match is empty, and behind the end. -/
theorem findAll_scans_of_one_or_nothing :
    let root : Expr := .choice [.node .any, .sequence []]
    let s : Search := {
      pattern := .build "" root [] 1
      elements := #[⟨"a", fun _ => none⟩, ⟨"b", fun _ => none⟩] }
    s.options.maxSteps = none ∧ s.findAll.error = none ∧ s.options.findType = .disjoint ∧
      (∃! ms, s.Scan Match.behind 0 ms) ∧ s.findAll.found.length ≤ 3 ∧
      s.findAll.found.Pairwise fun a b => a.span.stop ≤ b.span.start := by
  intro root s
  have herr : s.findAll.error = none := by
    refine findAll_error_eq_none rfl fun p _ err hmem => ?_
    obtain hmem | hmem := List.mem_append.1 hmem
    · obtain ⟨_, _, ht⟩ := Trial.exists_of_error_mem_ofNode hmem
      cases ht
    · cases List.mem_singleton.1 hmem
  have h := (findAll_scans (s := s) rfl).2 herr
  exact ⟨rfl, herr, rfl, (h.2.1 rfl).1, h.2.2.2.1, (h.2.1 rfl).2.2⟩

end Search

end Motif
