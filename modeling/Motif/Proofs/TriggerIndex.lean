import Motif.TriggerIndex
import Mathlib.Data.List.Sort

/-!
# What the trigger index selects

The index selects exactly the patterns that have no trigger words or one that is among the texts,
each once and in increasing order. So it does not matter in which order its words are kept.

* `TriggerIndex.Posted`: a pattern is posted under a word.
* `TriggerIndex.pairwise_active`, `TriggerIndex.mem_active`: the selected patterns.
* **`TriggerIndex.active_of_perm`**: the order of the words does not matter.
* **`TriggerIndex.mem_active_ofTriggers`**: the selection, said without the index.
-/

namespace Motif.TriggerIndex

/-- A pattern is posted under a word. -/
def Posted (ps : List (String × List Nat)) (word : String) (id : Nat) : Prop :=
  ∃ ids, (word, ids) ∈ ps ∧ id ∈ ids

/-- Trigger words ask for a search: there are none, or one of them is among the texts. -/
def asked (texts : List String) : Option (List String) → Bool
  | none | some [] => true
  | some words => words.any texts.contains

/-! ## Selections are sorted -/

theorem mem_squeeze {i : Nat} (is : List Nat) : i ∈ squeeze is ↔ i ∈ is := by
  fun_induction squeeze is with
  | case1 j is ih => rw [ih]; simp only [List.mem_cons, or_self_left]
  | case2 j k is h ih => rw [List.mem_cons, ih, List.mem_cons (l := k :: is)]
  | case3 is _ => rfl

theorem pairwise_squeeze (is : List Nat) (h : is.Pairwise (· ≤ ·)) :
    (squeeze is).Pairwise (· < ·) := by
  fun_induction squeeze is with
  | case1 j is ih => exact ih h.of_cons
  | case2 j k is hne ih =>
    refine .cons (fun i hi => ?_) (ih h.of_cons)
    have hjk : j ≤ k := List.rel_of_pairwise_cons h List.mem_cons_self
    rw [mem_squeeze] at hi
    obtain rfl | hi := List.mem_cons.1 hi
    · omega
    · have : k ≤ i := List.rel_of_pairwise_cons h.of_cons hi
      omega
  | case3 is hshort =>
    match is with
    | [] => exact .nil
    | [j] => exact List.pairwise_singleton _ _
    | j :: k :: is => exact absurd rfl (hshort j k is)

variable (ix : TriggerIndex) (texts : List String)

theorem pairwise_active : (ix.active texts).Pairwise (· < ·) := by
  refine pairwise_squeeze _ ?_
  have trans (i j k : Nat) : decide (i ≤ j) = true → decide (j ≤ k) = true →
      decide (i ≤ k) = true := by
    simp only [decide_eq_true_eq]
    exact Nat.le_trans
  have total (i j : Nat) : (decide (i ≤ j) || decide (j ≤ i)) = true := by
    simp only [Bool.or_eq_true, decide_eq_true_eq]
    exact Nat.le_total i j
  simpa only [decide_eq_true_eq] using List.pairwise_mergeSort trans total _

variable {ix texts}

theorem mem_active {id : Nat} : id ∈ ix.active texts ↔
    id ∈ ix.alwaysOn ∨ ∃ w ∈ texts, Posted ix.postings w id := by
  rw [active, mem_squeeze, List.mem_mergeSort, List.mem_append, List.mem_flatMap]
  refine or_congr Iff.rfl ⟨?_, ?_⟩
  · rintro ⟨⟨w, ids⟩, hmem, hid⟩
    dsimp only at hid
    by_cases hw : texts.contains w = true
    · rw [if_pos hw] at hid
      exact ⟨w, by simpa using hw, ids, hmem, hid⟩
    · rw [if_neg hw] at hid
      cases hid
  · rintro ⟨w, hw, ids, hmem, hid⟩
    refine ⟨(w, ids), hmem, ?_⟩
    dsimp only
    rw [if_pos (by simpa using hw)]
    exact hid

/-- **The order of the words in the index does not matter.** -/
theorem active_of_perm {ps : List (String × List Nat)} (h : ps.Perm ix.postings) :
    ({ ix with postings := ps } : TriggerIndex).active texts = ix.active texts := by
  refine (pairwise_active _ _).eq_of_mem_iff (pairwise_active _ _) fun id => ?_
  simp only [mem_active, Posted, h.mem_iff]

/-! ## The index of some patterns -/

theorem posted_post {ps : List (String × List Nat)} {id : Nat} {word w : String} {i : Nat} :
    Posted (post id word ps) w i ↔ Posted ps w i ∨ w = word ∧ i = id := by
  induction ps with
  | nil => simp [post, Posted]
  | cons p ps ih =>
    obtain ⟨v, ids⟩ := p
    have hcons (ids : List Nat) (ps : List (String × List Nat)) :
        Posted ((v, ids) :: ps) w i ↔ w = v ∧ i ∈ ids ∨ Posted ps w i := by
      simp only [Posted, List.mem_cons, Prod.mk.injEq, or_and_right, exists_or, and_assoc,
        exists_and_left, exists_eq_left]
    rw [post]
    by_cases hv : v = word
    · subst hv
      have hids : i ∈ (if ids.getLast? = some id then ids else ids ++ [id]) ↔ i ∈ ids ∨ i = id := by
        by_cases hl : ids.getLast? = some id
        · rw [if_pos hl]
          refine ⟨.inl, ?_⟩
          rintro (h | rfl)
          · exact h
          · exact List.mem_of_getLast? hl
        · rw [if_neg hl, List.mem_append, List.mem_singleton]
      rw [if_pos rfl, hcons, hcons, hids]
      tauto
    · rw [if_neg hv, hcons, hcons, ih, or_assoc]

theorem posted_foldl {ws : List String} {ps : List (String × List Nat)} {id i : Nat} {w : String} :
    Posted (ws.foldl (fun ps w => post id w ps) ps) w i ↔ Posted ps w i ∨ w ∈ ws ∧ i = id := by
  induction ws generalizing ps with
  | nil => simp
  | cons v ws ih =>
    rw [List.foldl_cons, ih, posted_post, List.mem_cons]
    tauto

theorem mem_active_add {id i : Nat} {ws : Option (List String)} :
    i ∈ (ix.add id ws).active texts ↔ i ∈ ix.active texts ∨ i = id ∧ asked texts ws = true := by
  have hfree : i ∈ ({ ix with alwaysOn := ix.alwaysOn ++ [id] } : TriggerIndex).active texts ↔
      i ∈ ix.active texts ∨ i = id ∧ true = true := by
    simp only [mem_active, List.mem_append, List.mem_singleton, and_true]
    exact or_right_comm
  obtain _ | _ | ⟨w, ws⟩ := ws
  · exact hfree
  · exact hfree
  · rw [mem_active, mem_active]
    change _ ∨
      (∃ v ∈ texts, Posted ((w :: ws).foldl (fun ps w => post id w ps) ix.postings) v i) ↔ _
    simp only [posted_foldl, asked, List.any_eq_true, List.contains_iff_mem]
    constructor
    · rintro (h | ⟨v, hv, h | ⟨hw, rfl⟩⟩)
      · exact .inl (.inl h)
      · exact .inl (.inr ⟨v, hv, h⟩)
      · exact .inr ⟨rfl, v, hw, hv⟩
    · rintro ((h | ⟨v, hv, h⟩) | ⟨rfl, v, hw, hv⟩)
      · exact .inl h
      · exact .inr ⟨v, hv, .inl h⟩
      · exact .inr ⟨v, hv, .inr ⟨hw, rfl⟩⟩

/-- **The selection, said without the index.** -/
theorem mem_active_ofTriggers {triggers : List (Option (List String))} {id : Nat} :
    id ∈ (ofTriggers triggers).active texts ↔
      ∃ ws, triggers[id]? = some ws ∧ asked texts ws = true := by
  have hfold (ps : List (Option (List String) × Nat)) (ix : TriggerIndex) :
      id ∈ (ps.foldl (fun ix p => ix.add p.2 p.1) ix).active texts ↔
        id ∈ ix.active texts ∨ ∃ ws, (ws, id) ∈ ps ∧ asked texts ws = true := by
    induction ps generalizing ix with
    | nil => simp
    | cons p ps ih =>
      obtain ⟨ws, i⟩ := p
      rw [List.foldl_cons, ih, mem_active_add]
      simp only [List.mem_cons, Prod.mk.injEq]
      grind
  have hempty : id ∉ ({} : TriggerIndex).active texts := by
    rw [mem_active]
    rintro (h | ⟨w, -, ids, h, -⟩) <;> cases h
  rw [ofTriggers]
  refine (hfold triggers.zipIdx {}).trans ?_
  simp only [hempty, false_or, List.mk_mem_zipIdx_iff_getElem?]

end Motif.TriggerIndex
