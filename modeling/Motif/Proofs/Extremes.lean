import Mathlib.Order.Bounds.Defs
import Motif.Proofs.Greed
import Motif.Proofs.Unrolling

/-!
# How far a repetition goes

A repetition of single elements takes as many of them as possible if it is greedy, else as few as
possible, but always so that the rest of the pattern matches behind them. The machine only ever
tries one more element, or gives the last one back; that this ends with the extreme number is shown
by induction along the repetition.

* `Extreme`: the greatest or the least of some numbers.
* `Path.under`, `Expr.paths_under`: what a path has noted before does not matter to what follows.
* `Trial.Takes`, `Trial.exists_takes_iff`: a path takes so many elements.
* `Trial.counts`: how many elements a repetition may take if something is to follow.
* `Trial.HeadExtreme`: the first of some trials comes after an extreme number of elements.
* `Trial.headExtreme_repeated`: that of a repetition, with the rest behind it, does.
* `Search.Allows`: a repetition may take so many elements, and the rest matches behind them.
* **`Search.repetition_is_extreme`**: how many elements a repetition takes in front of a pattern.
-/

namespace Motif

/-! ## Extremes -/

/-- The greatest of some numbers if `greedy`, else the least. -/
def Extreme (greedy : Bool) (S : Set Nat) (k : Nat) : Prop :=
  if greedy then IsGreatest S k else IsLeast S k

namespace Extreme

variable {greedy : Bool} {S : Set Nat} {k : Nat}

theorem mem (h : Extreme greedy S k) : k ∈ S := by
  unfold Extreme at h
  split at h <;> exact h.1

theorem zero (h : 0 ∈ S) (hmore : greedy = true → ∀ k, k + 1 ∉ S) : Extreme greedy S 0 := by
  cases greedy with
  | true =>
    refine ⟨h, fun n hn => ?_⟩
    cases n with
    | zero => exact Nat.le_refl 0
    | succ n => exact absurd hn (hmore rfl n)
  | false => exact ⟨h, fun _ _ => Nat.zero_le _⟩

theorem succ (h : Extreme greedy {k | k + 1 ∈ S} k) (hnone : greedy = false → 0 ∉ S) :
    Extreme greedy S (k + 1) := by
  cases greedy with
  | true =>
    obtain ⟨hk, hle⟩ := h
    refine ⟨hk, fun n hn => ?_⟩
    cases n with
    | zero => exact Nat.zero_le _
    | succ n => exact Nat.succ_le_succ (hle hn)
  | false =>
    obtain ⟨hk, hle⟩ := h
    refine ⟨hk, fun n hn => ?_⟩
    cases n with
    | zero => exact absurd hn (hnone rfl)
    | succ n => exact Nat.succ_le_succ (hle hn)

end Extreme

/-! ## Earlier notes -/

/-- The same path behind notes that were taken before. -/
def Path.under (ns : Array Note) (q : Path) : Path := { q with notes := ns ++ q.notes }

theorem Path.under_note (ns : Array Note) (q : Path) (n : Note) :
    (q.under ns).note n = (q.note n).under ns := by
  rw [under, note, ← Array.append_push]
  rfl

namespace Trial

variable {ts : List Trial} {f g : Path → List Trial} {h : Path → Path}

theorem onward_assoc : onward (onward ts f) g = onward ts fun q => onward (f q) g := by
  unfold onward
  rw [List.flatMap_assoc]
  refine List.flatMap_congr fun t _ => ?_
  cases t with
  | error e => rfl
  | ok q => rfl

/-- If going on does not tell changed paths from others, it goes on from the changed ones alike. -/
theorem onward_map (hf : ∀ q, .ok q ∈ ts → f (h q) = (g q).map (Except.map h)) :
    onward (ts.map (Except.map h)) f = (onward ts g).map (Except.map h) := by
  unfold onward
  rw [List.flatMap_map, List.map_flatMap]
  refine List.flatMap_congr fun t ht => ?_
  cases t with
  | error e => rfl
  | ok q => exact hf q ht

end Trial

section Paths

variable {elements : Array Element} {render : List Element → String} (ns : Array Note)

namespace Trial

theorem ofNode_under (p : NodePattern) (q : Path) :
    ofNode elements p (q.under ns) = (ofNode elements p q).map (Except.map (Path.under ns)) := by
  have hpos : (q.under ns).pos = q.pos := rfl
  unfold ofNode
  rw [hpos]
  cases elements[q.pos]? with
  | none => rfl
  | some x =>
    dsimp only
    cases (p.test x).verdict with
    | error err => rfl
    | ok v =>
      cases v with
      | reject | accept => rfl
      | acceptWith v =>
        dsimp only
        rw [Path.under_note]
        rfl

theorem guard_under (P : Prop) [Decidable P] (q : Path) :
    (if P then [.ok (q.under ns)] else []) =
      (if P then [(.ok q : Trial)] else []).map (Except.map (Path.under ns)) := by
  split <;> rfl

theorem ofBackref_under (id : Nat) (q : Path) :
    ofBackref elements id (q.under ns) =
      (ofBackref elements id q).map (Except.map (Path.under ns)) := by
  have hcaptured : (q.under ns).captured? id = q.captured? id := rfl
  unfold ofBackref
  rw [hcaptured]
  cases q.captured? id with
  | none => rfl
  | some s =>
    exact guard_under ns _ (q.advance s.length)

theorem iterations_under {body : Path → List Trial} {min : Nat} {max : Option Nat} {greedy : Bool}
    (hbody : ∀ q, body (q.under ns) = (body q).map (Except.map (Path.under ns))) (count : Nat)
    (q : Path) : iterations elements body min max greedy count (q.under ns) =
      (iterations elements body min max greedy count q).map (Except.map (Path.under ns)) := by
  induction count, q using iterations_induction elements min with
  | step count q ih =>
    have hmore : iteration elements body min count
          (iterations elements body min max greedy (count + 1)) (q.under ns) =
        (iteration elements body min count
          (iterations elements body min max greedy (count + 1)) q).map
            (Except.map (Path.under ns)) := by
      rw [iteration, hbody]
      refine onward_map fun r _ => ?_
      change (if count < min ∨ q.pos < r.pos ∧ r.pos ≤ elements.size then _ else _) = _
      by_cases hr : count < min ∨ q.pos < r.pos ∧ r.pos ≤ elements.size
      · rw [if_pos hr, if_pos hr]
        exact ih r hr
      · rw [if_neg hr, if_neg hr]
        rfl
    rw [iterations_eq, iterations_eq, hmore]
    dsimp only
    split_ifs
    · rfl
    · rfl
    · rw [List.map_append]
      rfl
    · rfl

end Trial

namespace Expr

mutual

/-- **What was noted before does not matter.** The paths from behind notes are the paths without
them, behind the notes. -/
theorem paths_under (greedy : Bool) (e : Expr) (q : Path) :
    e.paths elements render greedy (q.under ns) =
      (e.paths elements render greedy q).map (Except.map (Path.under ns)) := by
  match e with
  | node p => exact Trial.ofNode_under ns p q
  | sequence es => exact pathsOfAll_under greedy es q
  | choice [] => rfl
  | choice (e :: es) => exact pathsOfSome_under greedy (e :: es) q
  | iterate e min max own =>
    rw [paths, paths]
    split
    · rfl
    · exact Trial.iterations_under ns (fun r => paths_under _ e r) 0 q
  | group e none _ => exact paths_under greedy e q
  | group e (some id) _ =>
    rw [paths, paths]
    have := paths_under greedy e (q.openGroup id)
    change Trial.onward (e.paths elements render greedy ((q.openGroup id).under ns)) _ = _
    rw [this]
    exact Trial.onward_map fun _ _ => rfl
  | backref id => exact Trial.ofBackref_under ns id q
  | multi min max text own =>
    have hmap (lens : List Nat) : (lens.map fun len => Except.ok ((q.under ns).advance len)) =
        (lens.map fun len => (Except.ok (q.advance len) : Trial)).map
          (Except.map (Path.under ns)) := by
      rw [List.map_map]
      rfl
    exact hmap _
  | action e name target =>
    rw [paths, paths, paths_under greedy e q]
    refine Trial.onward_map fun r _ => ?_
    rw [Path.under_note]
    rfl
  | anchor a =>
    exact Trial.guard_under ns _ q

theorem pathsOfAll_under (greedy : Bool) (es : List Expr) (q : Path) :
    pathsOfAll elements render greedy es (q.under ns) =
      (pathsOfAll elements render greedy es q).map (Except.map (Path.under ns)) := by
  match es with
  | [] => rfl
  | e :: es =>
    rw [pathsOfAll, pathsOfAll, paths_under greedy e q]
    exact Trial.onward_map fun r _ => pathsOfAll_under greedy es r

theorem pathsOfSome_under (greedy : Bool) (es : List Expr) (q : Path) :
    pathsOfSome elements render greedy es (q.under ns) =
      (pathsOfSome elements render greedy es q).map (Except.map (Path.under ns)) := by
  match es with
  | [] => rfl
  | e :: es =>
    rw [pathsOfSome, pathsOfSome, paths_under greedy e q, pathsOfSome_under greedy es q,
      List.map_append]

end

end Expr

end Paths

/-! ## Repetitions of single elements -/

namespace Trial

variable {elements : Array Element} {p : NodePattern} {q r s : Path} {k : Nat}

theorem ofNode_cases (elements : Array Element) (p : NodePattern) (q : Path) :
    ofNode elements p q = [] ∨ (∃ err, ofNode elements p q = [.error err]) ∨
      ∃ r, ofNode elements p q = [.ok r] := by
  unfold ofNode
  split
  · exact .inl rfl
  · split
    · exact .inr (.inl ⟨_, rfl⟩)
    · exact .inl rfl
    · exact .inr (.inr ⟨_, rfl⟩)
    · exact .inr (.inr ⟨_, rfl⟩)

theorem exists_ofNode_iff : (∃ r, ofNode elements p q = [.ok r]) ↔
    ∃ x, elements[q.pos]? = some x ∧ p.accepts x = .ok true := by
  unfold ofNode NodePattern.accepts
  cases elements[q.pos]? with
  | none => simp
  | some x => cases hv : (p.test x).verdict with
    | error err => simp [hv, Except.map]
    | ok v => cases v <;> simp [hv, Except.map, Verdict.isAccept]

theorem pos_slots_of_ofNode (h : ofNode elements p q = [.ok r]) :
    r.pos = q.pos + 1 ∧ r.slots = q.slots := by
  unfold ofNode at h
  split at h
  · cases h
  · split at h <;> cases h <;> exact ⟨rfl, rfl⟩

theorem consumes_ofNode (elements : Array Element) (p : NodePattern) :
    Consumes elements (ofNode elements p) := fun q r h => by
  obtain h' | ⟨err, h'⟩ | ⟨r', h'⟩ := ofNode_cases elements p q
  · rw [h'] at h
    cases h
  · rw [h'] at h
    cases List.mem_singleton.1 h
  · rw [h'] at h
    cases List.mem_singleton.1 h
    obtain ⟨x, hx, -⟩ := exists_ofNode_iff.1 ⟨r, h'⟩
    have := (Array.getElem?_eq_some_iff.1 hx).1
    have := (pos_slots_of_ofNode h').1
    omega

variable (elements p) in
/-- A path goes on behind so many elements, each of which satisfies a predicate. -/
inductive Takes : Nat → Path → Path → Prop where
  | nil (q : Path) : Takes 0 q q
  | cons {k : Nat} {q r s : Path} (h : ofNode elements p q = [.ok r]) (rest : Takes k r s) :
    Takes (k + 1) q s

theorem Takes.pos_slots (h : Takes elements p k q r) : r.pos = q.pos + k ∧ r.slots = q.slots := by
  induction h with
  | nil q => exact ⟨rfl, rfl⟩
  | cons h _ ih =>
    have := pos_slots_of_ofNode h
    exact ⟨by omega, ih.2.trans this.2⟩

theorem exists_takes_iff : (∃ r, Takes elements p k q r) ↔
    ∀ j < k, ∃ x, elements[q.pos + j]? = some x ∧ p.accepts x = .ok true := by
  induction k generalizing q with
  | zero => exact ⟨fun _ j hj => absurd hj (Nat.not_lt_zero j), fun _ => ⟨q, .nil q⟩⟩
  | succ k ih =>
    constructor
    · rintro ⟨s, hs⟩ j hj
      cases hs with
      | @cons _ _ r _ h rest =>
        cases j with
        | zero => exact exists_ofNode_iff.1 ⟨r, h⟩
        | succ j =>
          have := ih.1 ⟨s, rest⟩ j (by omega)
          rwa [(pos_slots_of_ofNode h).1, Nat.add_assoc, Nat.add_comm 1] at this
    · intro h
      obtain ⟨r, hr⟩ := exists_ofNode_iff.2 (h 0 (by omega))
      obtain ⟨s, hs⟩ := (ih (q := r)).2 fun j hj => by
        rw [(pos_slots_of_ofNode hr).1, Nat.add_assoc, Nat.add_comm 1]
        exact h (j + 1) (by omega)
      exact ⟨s, .cons hr hs⟩

/-! ### What the first path takes -/

/-- The first of some trials is a path reached with the extreme of some numbers, or there is no
number. -/
structure HeadExtreme (greedy : Bool) (S : Set Nat) (Reaches : Nat → Path → Prop)
    (ts : List Trial) : Prop where
  /-- The number with which the first path is reached. -/
  of_head : ∀ s, ts.head? = some (.ok s) → ∃ k, Reaches k s ∧ Extreme greedy S k
  /-- What it means that there is no trial. -/
  of_nil : ts = [] → S = ∅

namespace HeadExtreme

variable {greedy : Bool} {S : Set Nat} {Reaches : Nat → Path → Prop} {ts us : List Trial}

theorem more (hmore : HeadExtreme greedy {k | k + 1 ∈ S} (fun k => Reaches (k + 1)) ts)
    (hzero : 0 ∉ S) : HeadExtreme greedy S Reaches ts where
  of_head s hs := by
    obtain ⟨k, hr, hk⟩ := hmore.of_head s hs
    exact ⟨k + 1, hr, hk.succ fun _ => hzero⟩
  of_nil hnone := Set.eq_empty_of_forall_notMem fun
    | 0 => hzero
    | k + 1 => Set.eq_empty_iff_forall_notMem.1 (hmore.of_nil hnone) k

variable (hzero : 0 ∈ S ↔ ∃ s, ts.head? = some (.ok s))
  (hreach : ∀ s, ts.head? = some (.ok s) → Reaches 0 s)

include hzero hreach

theorem stay (hnone : ∀ k, k + 1 ∉ S) : HeadExtreme greedy S Reaches ts where
  of_head s hs := ⟨0, hreach s hs, .zero (hzero.2 ⟨s, hs⟩) fun _ => hnone⟩
  of_nil hts := Set.eq_empty_of_forall_notMem fun
    | 0 => fun h => by
      obtain ⟨s, hs⟩ := hzero.1 h
      rw [hts] at hs
      cases hs
    | k + 1 => hnone k

/-- Trials that are reached with nothing, and those that are reached with more, in the order of
preference. -/
theorem either (hmore : HeadExtreme greedy {k | k + 1 ∈ S} (fun k => Reaches (k + 1)) us) :
    HeadExtreme greedy S Reaches (if greedy then us ++ ts else ts ++ us) := by
  have hnone (hus : us = []) (k : Nat) : k + 1 ∉ S :=
    Set.eq_empty_iff_forall_notMem.1 (hmore.of_nil hus) k
  have hstay (hts : ts = []) : 0 ∉ S := fun h => by
    obtain ⟨s, hs⟩ := hzero.1 h
    rw [hts] at hs
    cases hs
  cases greedy with
  | true =>
    -- what is reached with nothing comes first only if there is nothing else
    cases us with
    | nil => exact stay hzero hreach (hnone rfl)
    | cons u us =>
      refine ⟨fun s hs => ?_, nofun⟩
      obtain ⟨k, hr, hk⟩ := hmore.of_head s hs
      exact ⟨k + 1, hr, hk.succ nofun⟩
  | false =>
    cases ts with
    | nil => exact more hmore (hstay rfl)
    | cons t ts => exact ⟨fun s hs => ⟨0, hreach s hs, .zero (hzero.2 ⟨s, hs⟩) nofun⟩, nofun⟩

end HeadExtreme

section First

variable (elements p) (min : Nat) (max : Option Nat) (rest : Path → List Trial)

/-- How many elements a repetition may take after `count` of them, if what comes first of the rest
is to be a path. -/
def counts (count : Nat) (q : Path) : Set Nat :=
  {k | min ≤ count + k ∧ max.all (count + k ≤ ·) = true ∧
    ∃ r s, Takes elements p k q r ∧ (rest r).head? = some (.ok s)}

/-- A path after so many elements, and the first that comes of the rest behind them. -/
def Arrives (q : Path) (k : Nat) (s : Path) : Prop :=
  ∃ r, Takes elements p k q r ∧ (rest r).head? = some (.ok s)

/-- What comes of a repetition of single elements, after `count` of them, and of the rest behind
it. -/
def repeated (greedy : Bool) (count : Nat) (q : Path) : List Trial :=
  onward (iterations elements (ofNode elements p) min max greedy count q) rest

variable {elements p min max rest} {greedy : Bool} {count : Nat}

theorem zero_mem_counts (hcount : max.all (count ≤ ·) = true) (hmin : min ≤ count) :
    0 ∈ counts elements p min max rest count q ↔ ∃ s, (rest q).head? = some (.ok s) := by
  constructor
  · rintro ⟨-, -, r, s, hr, hs⟩
    cases hr
    exact ⟨s, hs⟩
  · rintro ⟨s, hs⟩
    exact ⟨hmin, hcount, q, s, .nil q, hs⟩

theorem succ_mem_counts : k + 1 ∈ counts elements p min max rest count q ↔
    ∃ r, ofNode elements p q = [.ok r] ∧ k ∈ counts elements p min max rest (count + 1) r := by
  have hadd : count + (k + 1) = count + 1 + k := by omega
  unfold counts
  rw [Set.mem_ofPred_eq, hadd]
  constructor
  · rintro ⟨hmin, hmax, r, s, hr, hs⟩
    cases hr with
    | cons h hr => exact ⟨_, h, hmin, hmax, _, s, hr, hs⟩
  · rintro ⟨r', h, hmin, hmax, r, s, hr, hs⟩
    exact ⟨hmin, hmax, r, s, .cons h hr, hs⟩

theorem repeated_eq : repeated elements p min max rest greedy count q =
    let more := onward (ofNode elements p q) (repeated elements p min max rest greedy (count + 1))
    if count < min then more
    else if max = some count then rest q
    else if greedy then more ++ rest q
    else rest q ++ more := by
  have hmore : onward (onward (ofNode elements p q)
        (iterations elements (ofNode elements p) min max greedy (count + 1))) rest =
      onward (ofNode elements p q) (repeated elements p min max rest greedy (count + 1)) :=
    onward_assoc
  have hrest : onward [.ok q] rest = rest q := List.append_nil _
  rw [repeated, iterations_eq, (consumes_ofNode elements p).iteration_eq]
  dsimp only
  rw [← hmore]
  split_ifs
  · rfl
  · exact hrest
  · rw [← hrest]
    exact List.flatMap_append
  · rw [← hrest]
    exact (List.flatMap_append : List.flatMap _ ([Except.ok q] ++ _) = _)

theorem headExtreme_onward {f : Path → List Trial}
    (ih : ∀ r, ofNode elements p q = [.ok r] → HeadExtreme greedy
      (counts elements p min max rest (count + 1) r) (Arrives elements p rest r) (f r)) :
    HeadExtreme greedy {k | k + 1 ∈ counts elements p min max rest count q}
      (fun k => Arrives elements p rest q (k + 1)) (onward (ofNode elements p q) f) := by
  obtain h | ⟨err, h⟩ | ⟨r, h⟩ := ofNode_cases elements p q
  · rw [h]
    refine ⟨nofun, fun _ => Set.eq_empty_of_forall_notMem fun k hk => ?_⟩
    obtain ⟨r, hr, -⟩ := succ_mem_counts.1 hk
    rw [h] at hr
    cases hr
  · rw [h]
    exact ⟨nofun, nofun⟩
  · have hf : onward [.ok r] f = f r := List.append_nil _
    have hcounts : {k | k + 1 ∈ counts elements p min max rest count q} =
        counts elements p min max rest (count + 1) r := by
      ext k
      refine succ_mem_counts.trans ⟨?_, fun hk => ⟨r, h, hk⟩⟩
      rintro ⟨r', hr', hk⟩
      rw [h] at hr'
      cases hr'
      exact hk
    rw [hcounts, h, hf]
    refine ⟨fun s hs => ?_, (ih r h).of_nil⟩
    obtain ⟨k, ⟨r', hr', hs⟩, hk⟩ := (ih r h).of_head s hs
    exact ⟨k, ⟨r', .cons h hr', hs⟩, hk⟩

/-- **The first path through a repetition of single elements takes as many of them as possible, or
as few**, if it gets through the rest. -/
theorem headExtreme_repeated (hmin : max.all (min ≤ ·) = true) (count : Nat) (q : Path)
    (hcount : max.all (count ≤ ·) = true) :
    HeadExtreme greedy (counts elements p min max rest count q) (Arrives elements p rest q)
      (repeated elements p min max rest greedy count q) := by
  have hall {n : Nat} : max.all (n ≤ ·) = true ↔ ∀ m, max = some m → n ≤ m := by
    cases max <;> simp
  induction count, q using iterations_induction elements min with
  | step count q ih =>
    have more (hmax : max ≠ some count) : HeadExtreme greedy
        {k | k + 1 ∈ counts elements p min max rest count q}
        (fun k => Arrives elements p rest q (k + 1))
        (onward (ofNode elements p q) (repeated elements p min max rest greedy (count + 1))) := by
      refine headExtreme_onward fun r hr => ih r (.inr ?_) (hall.2 fun m hm => ?_)
      · exact consumes_ofNode elements p q r (hr ▸ List.mem_singleton_self _)
      · exact Nat.lt_of_le_of_ne (hall.1 hcount m hm) fun h => hmax (h ▸ hm)
    have arrives (s : Path) (hs : (rest q).head? = some (.ok s)) : Arrives elements p rest q 0 s :=
      ⟨q, .nil q, hs⟩
    rw [repeated_eq]
    dsimp only
    by_cases hc : count < min
    · -- below the minimum there has to be one more
      have hmax : max ≠ some count := fun hm => by
        have := hall.1 hmin count hm
        omega
      rw [if_pos hc]
      refine (more hmax).more fun h => ?_
      have := h.1
      omega
    · have stay : 0 ∈ counts elements p min max rest count q ↔
          ∃ s, (rest q).head? = some (.ok s) := zero_mem_counts hcount (Nat.le_of_not_lt hc)
      rw [if_neg hc]
      by_cases hm : max = some count
      · -- at the maximum there is no more
        rw [if_pos hm]
        refine .stay stay arrives fun k h => ?_
        have := hall.1 h.2.1 count hm
        omega
      · rw [if_neg hm]
        exact .either stay arrives (more hm)

end First

end Trial

/-! ## A repetition in front of a pattern -/

theorem Trial.find?_decides_none (ts : List Trial) : ts.find? (decides none) = ts.head? := by
  cases ts with
  | nil => rfl
  | cons t ts =>
    have ht : decides none t = true := by cases t <;> rfl
    rw [List.find?_cons_of_pos ht, List.head?_cons]

namespace Pattern

variable {p : NodePattern} {min : Nat} {max : Option Nat} {greedy : Bool} {whole rest : Pattern}

/-- A repetition of single elements has no groups and no references, so an expression with one in
front of it makes a pattern as well. -/
theorem exists_repetition {source : String} {e : Expr} (hrest : ofExpr source e = .ok rest)
    (p : NodePattern) (min : Nat) (max : Option Nat) (greedy : Bool) (source' : String) :
    ∃ whole, ofExpr source' (.sequence [.iterate (.node p) min max greedy, e]) = .ok whole ∧
      whole.root = .sequence [.iterate (.node p) min max greedy, rest.root] ∧
      whole.groupCount = rest.groupCount := by
  obtain ⟨rfl, hrefs⟩ := eq_of_ofExpr hrest
  have hgroups : (Expr.sequence [.iterate (.node p) min max greedy, e]).groups = e.groups :=
    List.append_nil _
  have hbackrefs : (Expr.sequence [.iterate (.node p) min max greedy, e]).backrefs = e.backrefs :=
    List.append_nil _
  exact ⟨_, ofExpr_eq_ok (hbackrefs ▸ hgroups ▸ hrefs), rfl, congrArg groupBound hgroups⟩

theorem pathsFrom_repetition (hmin : max.all (min ≤ ·) = true)
    (hroot : whole.root = .sequence [.iterate (.node p) min max greedy, rest.root])
    (hcount : whole.groupCount = rest.groupCount) (elements : Array Element)
    (render : List Element → String) (start : Nat) :
    whole.pathsFrom elements render start =
      Trial.repeated elements p min max (rest.root.paths elements render true) greedy 0
        (Path.entry rest.groupCount start) := by
  have hiterate (q : Path) : (Expr.iterate (.node p) min max greedy).paths elements render true q =
      Trial.iterations elements (Trial.ofNode elements p) min max greedy 0 q := by
    by_cases hm : max = some 0
    · have hmin : min = 0 := by simpa [hm] using hmin
      rw [Expr.paths, if_pos hm, Trial.iterations_eq, hmin, hm]
      rfl
    · rw [Expr.paths, if_neg hm]
      rfl
  simp only [pathsFrom, hroot, hcount, Expr.paths.eq_2, Expr.pathsOfAll, Trial.onward_ok]
  rw [hiterate]
  rfl

end Pattern

namespace Search

variable {s : Search}

/-- Without a limit, there is a match at a position exactly if the first trial is a path. -/
theorem matchAt_eq_some_iff (hs : s.options.maxSteps = none) {pos : Nat} (hpos : pos ≤ s.length)
    {m : Match} : (s.matchAt pos).result = .ok (some m) ↔
      ∃ q, (s.pattern.pathsFrom s.elements s.render pos).head? = some (.ok q) ∧
        m = s.report pos q := by
  rw [matchAt_of_le hpos, attempts_singleton hs, Trial.find?_decides_none]
  cases (s.pattern.pathsFrom s.elements s.render pos).head? with
  | none => simp
  | some t => cases t <;> simp [eq_comm]

/-- A repetition of `min` to `max` elements may take `k` of them: they satisfy the predicate, and
there is a match behind them. -/
def Allows (s : Search) (p : NodePattern) (min : Nat) (max : Option Nat) (start k : Nat) : Prop :=
  min ≤ k ∧ max.all (k ≤ ·) = true ∧
    (∀ j < k, ∃ x, s.elements[start + j]? = some x ∧ p.accepts x = .ok true) ∧
    ∃ m, (s.matchAt (start + k)).result = .ok (some m)

section Behind

variable {p : NodePattern} {start k : Nat} {r : Path}

theorem add_le_length_of_takes
    (hr : Trial.Takes s.elements p k (Path.entry s.pattern.groupCount start) r)
    (hstart : start ≤ s.length) : start + k ≤ s.length := by
  cases k with
  | zero => exact hstart
  | succ k =>
    obtain ⟨x, hx, -⟩ := Trial.exists_takes_iff.1 ⟨r, hr⟩ k (Nat.lt_succ_self k)
    exact (Array.getElem?_eq_some_iff.1 hx).1

/-- Behind elements that a repetition has taken a pattern has the paths that it has at its own
position. -/
theorem paths_of_takes
    (hr : Trial.Takes s.elements p k (Path.entry s.pattern.groupCount start) r) :
    s.pattern.root.paths s.elements s.render true r =
      (s.pattern.pathsFrom s.elements s.render (start + k)).map
        (Except.map (Path.under r.notes)) := by
  have hentry : r = (Path.entry s.pattern.groupCount (start + k)).under r.notes := by
    obtain ⟨pos, slots, notes⟩ := r
    obtain ⟨rfl, rfl⟩ := hr.pos_slots
    simp only [Path.under, Path.entry, Array.append_empty]
  rw [Pattern.pathsFrom, ← Expr.paths_under, ← hentry]

variable {min : Nat} {max : Option Nat}

theorem mem_counts_iff (hs : s.options.maxSteps = none) (hstart : start ≤ s.length) :
    k ∈ Trial.counts s.elements p min max (s.pattern.root.paths s.elements s.render true) 0
        (Path.entry s.pattern.groupCount start) ↔ s.Allows p min max start k := by
  unfold Trial.counts Allows
  rw [Set.mem_ofPred_eq, Nat.zero_add]
  refine and_congr_right fun _ => and_congr_right fun _ => ?_
  constructor
  · rintro ⟨r, q, hr, hq⟩
    rw [paths_of_takes hr, List.head?_map, Option.map_eq_some_iff] at hq
    obtain ⟨t, ht, hq⟩ := hq
    cases t with
    | error err => cases hq
    | ok q' =>
      exact ⟨Trial.exists_takes_iff.1 ⟨r, hr⟩, _,
        (matchAt_eq_some_iff hs (add_le_length_of_takes hr hstart)).2 ⟨q', ht, rfl⟩⟩
  · rintro ⟨htakes, m, hm⟩
    obtain ⟨r, hr⟩ := (Trial.exists_takes_iff
      (q := Path.entry s.pattern.groupCount start)).2 htakes
    obtain ⟨q', hq', -⟩ := (matchAt_eq_some_iff hs (add_le_length_of_takes hr hstart)).1 hm
    refine ⟨r, q'.under r.notes, hr, ?_⟩
    rw [paths_of_takes hr, List.head?_map, hq']
    rfl

end Behind

/-! ### The match of both -/

section Both

variable {p : NodePattern} {min : Nat} {max : Option Nat} {greedy : Bool} {whole rest : Pattern}
  (hmin : max.all (min ≤ ·) = true)
  (hroot : whole.root = .sequence [.iterate (.node p) min max greedy, rest.root])
  (hcount : whole.groupCount = rest.groupCount) (hs : s.options.maxSteps = none) {start : Nat}

include hmin hroot hcount

theorem headExtreme_pathsFrom (elements : Array Element) (render : List Element → String)
    (start : Nat) :
    Trial.HeadExtreme greedy
      (Trial.counts elements p min max (rest.root.paths elements render true) 0
        (Path.entry rest.groupCount start))
      (Trial.Arrives elements p (rest.root.paths elements render true)
        (Path.entry rest.groupCount start))
      (whole.pathsFrom elements render start) := by
  rw [Pattern.pathsFrom_repetition hmin hroot hcount]
  exact Trial.headExtreme_repeated hmin 0 _ (by cases max <;> simp)

include hs

theorem exists_extreme_of_matchAt {m : Match}
    (hm : (({ s with pattern := whole } : Search).matchAt start).result = .ok (some m)) :
    let behind : Search := { s with pattern := rest }
    ∃ k m', Extreme greedy {k | behind.Allows p min max start k} k ∧
      (behind.matchAt (start + k)).result = .ok (some m') ∧
      m.span = ⟨start, m'.span.stop⟩ ∧ m.spans.tail = m'.spans.tail := by
  intro behind
  let s' : Search := { s with pattern := whole }
  have hstart : start ≤ s'.length := (attempts_of_matchAt hm).1
  have hb : behind.options.maxSteps = none := hs
  obtain ⟨q, hq, rfl⟩ := (s'.matchAt_eq_some_iff hs hstart).1 hm
  obtain ⟨k, ⟨r, hr, hq'⟩, hk⟩ :=
    (headExtreme_pathsFrom hmin hroot hcount _ _ start).of_head q hq
  rw [behind.paths_of_takes hr, List.head?_map, Option.map_eq_some_iff] at hq'
  obtain ⟨t, ht, htq⟩ := hq'
  cases t with
  | error err => cases htq
  | ok q' =>
    cases htq
    have hle := behind.add_le_length_of_takes hr hstart
    have hallows : Trial.counts s.elements p min max _ 0 (Path.entry rest.groupCount start) =
        {k | behind.Allows p min max start k} := Set.ext fun _ => behind.mem_counts_iff hb hstart
    refine ⟨k, behind.report (start + k) q', hallows ▸ hk,
      (behind.matchAt_eq_some_iff hb hle).2 ⟨q', ht, rfl⟩, rfl, ?_⟩
    rw [report, report, hcount]
    rfl

/-- Where the repetition may take some number of elements there is a match, unless the operation
fails. -/
theorem exists_match_of_allows {k : Nat}
    (hk : ({ s with pattern := rest } : Search).Allows p min max start k)
    (hno : ¬ (({ s with pattern := whole } : Search).matchAt start).Fails) :
    ∃ m, (({ s with pattern := whole } : Search).matchAt start).result = .ok (some m) := by
  let s' : Search := { s with pattern := whole }
  let behind : Search := { s with pattern := rest }
  obtain ⟨m, hm⟩ := hk.2.2.2
  have hstart : start ≤ s'.length := by
    have := (attempts_of_matchAt hm).1
    change start + k ≤ s'.length at this
    omega
  cases h : (whole.pathsFrom s.elements s.render start).head? with
  | none =>
    have hk := (behind.mem_counts_iff hs hstart).2 hk
    have hempty := (headExtreme_pathsFrom hmin hroot hcount _ _ start).of_nil
      (List.head?_eq_none_iff.1 h)
    exact absurd hk (hempty ▸ Set.notMem_empty k)
  | some t =>
    cases t with
    | error err =>
      refine absurd ⟨err, ?_⟩ hno
      rw [matchAt_of_le hstart, attempts_singleton (s := s') hs, Trial.find?_decides_none, h]
    | ok q => exact ⟨_, (s'.matchAt_eq_some_iff hs hstart).2 ⟨q, h, rfl⟩⟩

end Both

/-- Without a limit, an operation at a position does not fail where no function of the pattern fails
from the position on. -/
theorem not_fails_matchAt (hs : s.options.maxSteps = none) {start : Nat}
    (hf : ∀ f ∈ s.pattern.root.functions, ∀ (i : Nat) (x : Element), start ≤ i →
      s.elements[i]? = some x → ∃ v, f.eval x = .ok v) : ¬ (s.matchAt start).Fails := by
  rintro ⟨err, he⟩
  by_cases hstart : start ≤ s.length
  · rw [matchAt_of_le hstart] at he
    obtain ⟨pos, hpos, err, -, herr⟩ := exists_error_of_attempts hs he
    obtain rfl := List.mem_singleton.1 hpos
    obtain ⟨f, hmem, i, x, hi, hx, he⟩ := Expr.failsFrom_of_error true _ herr
    obtain ⟨v, hv⟩ := hf f hmem i x hi hx
    rw [hv] at he
    cases he
  · rw [matchAt, if_pos (by omega)] at he
    cases he

/-- **A repetition takes as many elements as possible, or as few, but so that the rest matches.** -/
theorem repetition_is_extreme {source : String} {e : Expr} {rest : Pattern}
    (hrest : Pattern.ofExpr source e = .ok rest) (p : NodePattern) {min : Nat} {max : Option Nat}
    (hmin : max.all (min ≤ ·) = true) (greedy : Bool) (source' : String) :
    ∃ whole, Pattern.ofExpr source' (.sequence [.iterate (.node p) min max greedy, e]) = .ok whole ∧
      ∀ s : Search, s.options.maxSteps = none → ∀ start,
        let a := ({ s with pattern := whole } : Search).matchAt start
        let behind : Search := { s with pattern := rest }
        ((∀ f ∈ p.functions ++ e.functions, ∀ (i : Nat) (x : Element), start ≤ i →
          s.elements[i]? = some x → ∃ v, f.eval x = .ok v) → ¬ a.Fails) ∧
        (¬ a.Fails →
          ((∃ m, a.result = .ok (some m)) ↔ ∃ k, behind.Allows p min max start k) ∧
          ∀ m, a.result = .ok (some m) → ∃ k m',
            Extreme greedy {k | behind.Allows p min max start k} k ∧
            (behind.matchAt (start + k)).result = .ok (some m') ∧
            m.span = ⟨start, m'.span.stop⟩ ∧ m.spans.tail = m'.spans.tail) := by
  obtain ⟨whole, hwhole, hroot, hcount⟩ :=
    Pattern.exists_repetition hrest p min max greedy source'
  refine ⟨whole, hwhole, fun s hs start => ⟨fun hf => ?_, fun hno => ⟨⟨fun ⟨m, hm⟩ => ?_,
    fun ⟨k, hk⟩ => ?_⟩, fun m => exists_extreme_of_matchAt hmin hroot hcount hs⟩⟩⟩
  · refine not_fails_matchAt (s := { s with pattern := whole }) hs fun f hmem => hf f ?_
    obtain ⟨rfl, -⟩ := Pattern.eq_of_ofExpr hrest
    have hfunctions : whole.root.functions = p.functions ++ e.functions := by
      rw [hroot]
      exact congrArg (p.functions ++ ·) (List.append_nil e.functions)
    rwa [← hfunctions]
  · obtain ⟨k, m', hk, -⟩ := exists_extreme_of_matchAt hmin hroot hcount hs hm
    exact ⟨k, hk.mem⟩
  · exact exists_match_of_allows hmin hroot hcount hs hk hno

/-- Of the three elements that the repetition takes first it gives back two. -/
theorem repetition_is_extreme_of_retreat :
    let f : NodeFunction := ⟨"f", fun x => .ok (.acceptWith (.text x.text)), false⟩
    let word (text : String) : Element := ⟨text, fun _ => none⟩
    let e : Expr := .sequence [.group (.node .any) (some 1) none,
      .node (.attr .text (.equals "a" false))]
    let s : Search := {
      pattern := .build "" e [] 2, elements := #[word "a", word "b", word "a", word "b"] }
    ∃ whole, Pattern.ofExpr "" e = .ok s.pattern ∧ (some 3).all (1 ≤ ·) = true ∧
      s.options.maxSteps = none ∧
      Pattern.ofExpr "" (.sequence [.iterate (.node (.custom f)) 1 (some 3) true, e]) = .ok whole ∧
      let a := ({ s with pattern := whole } : Search).matchAt 0
      (∀ g ∈ [f] ++ e.functions, ∀ (i : Nat) (x : Element), 0 ≤ i → s.elements[i]? = some x →
        ∃ v, g.eval x = .ok v) ∧ ¬ a.Fails ∧
      ∃ m, a.result = .ok (some m) ∧ m.spans = [some ⟨0, 3⟩, some ⟨1, 2⟩] ∧
        ∃ k m', Extreme true {k | s.Allows (.custom f) 1 (some 3) 0 k} k ∧
          (s.matchAt (0 + k)).result = .ok (some m') ∧ m.span = ⟨0, m'.span.stop⟩ ∧
          m.spans.tail = m'.spans.tail := by
  intro f word e s
  have hrest : Pattern.ofExpr "" e = .ok s.pattern := rfl
  have hmin : (some 3).all (1 ≤ ·) = true := rfl
  obtain ⟨whole, hwhole, h⟩ := repetition_is_extreme hrest (.custom f) hmin true ""
  have hf : ∀ g ∈ [f] ++ e.functions, ∀ (i : Nat) (x : Element), 0 ≤ i →
      s.elements[i]? = some x → ∃ v, g.eval x = .ok v := by
    intro g hg i x _ _
    cases List.mem_singleton.1 hg
    exact ⟨.acceptWith (.text x.text), rfl⟩
  have hno := (h s rfl 0).1 hf
  have hspans : (({ s with pattern := whole } : Search).matchAt 0).result.map
      (Option.map (·.spans)) = .ok (some [some ⟨0, 3⟩, some ⟨1, 2⟩]) := by
    obtain rfl := Except.ok.inj hwhole
    cbv
  refine ⟨whole, hrest, hmin, rfl, hwhole, hf, hno, ?_⟩
  cases hr : (({ s with pattern := whole } : Search).matchAt 0).result with
  | error err => rw [hr] at hspans; cases hspans
  | ok x =>
    rw [hr] at hspans
    obtain _ | m := x
    · cases hspans
    · exact ⟨m, rfl, Option.some.inj (Except.ok.inj hspans), ((h s rfl 0).2 hno).2 m hr⟩

end Search

end Motif
