import Motif.Proofs.Answers
import Motif.Proofs.Moves
import Mathlib

/-!
# Matches in a slice

A pattern without anchors cannot tell a slice of a sequence from the whole sequence, as long as it
stays inside. Its paths through the slice are those through the sequence that do not leave the
slice, in the same order and moved to the left. The first path through the sequence that may end
is the match, and since it ends where the slice does, it is the first one in the slice, too.

* `Expr.anchorFree`: there are no anchors.
* `Path.shift`: a path of a slice, as seen in the sequence.
* `Trial.Cut`: what is left of trials in a slice.
* `Trial.Cut.onward`: going on from what is left.
* **`Expr.cut_paths`**: the paths through a slice are what is left of the paths.
* **`Search.matchWhole_slice`**: a match is found again in its own slice.
-/

namespace Motif

/-! ## Expressions without anchors -/

namespace Expr

mutual

/-- There are no anchors. -/
def anchorFree : Expr → Bool
  | node _ | backref _ | multi .. => true
  | sequence es | choice es => allAnchorFree es
  | iterate e _ _ _ | group e _ _ | action e _ _ => e.anchorFree
  | anchor _ => false

/-- There are no anchors in any expression. -/
def allAnchorFree : List Expr → Bool
  | [] => true
  | e :: es => e.anchorFree && allAnchorFree es

end

end Expr

/-! ## Moving to the right -/

/-- A span of a slice that starts at `d`, as seen in the sequence. -/
def Span.shift (d : Nat) (s : Span) : Span := ⟨s.start + d, s.stop + d⟩

@[simp] theorem Span.length_shift (d : Nat) (s : Span) : (s.shift d).length = s.length := by
  unfold length shift
  dsimp only
  omega

namespace Note

/-- A note in a slice that starts at `d`, as seen in the sequence. -/
def shift (d : Nat) : Note → Note
  | payload index value => payload (index + d) value
  | fire action target => fire action target

theorem payloads_shift (d : Nat) (ns : List Note) :
    payloads (ns.map (shift d)) = (payloads ns).map fun x => (x.1 + d, x.2) := by
  induction ns with
  | nil => rfl
  | cons n ns ih =>
    cases n with
    | payload index value => exact congrArg ((index + d, value) :: ·) ih
    | fire => exact ih

theorem actions_shift (d : Nat) (ns : List Note) : actions (ns.map (shift d)) = actions ns := by
  induction ns with
  | nil => rfl
  | cons n ns ih =>
    cases n with
    | payload => exact ih
    | fire action target => exact congrArg ((action, target) :: ·) ih

end Note

namespace Path

/-- A path in a slice that starts at `d`, as seen in the sequence. -/
def shift (d : Nat) (q : Path) : Path where
  pos := q.pos + d
  slots := q.slots.map (Option.map (· + d))
  notes := q.notes.map (Note.shift d)

variable (d : Nat) (q : Path)

theorem shift_entry (groups : Nat) : (entry groups 0).shift d = entry groups d := by
  simp [shift, entry]

theorem shift_advance (k : Nat) : (q.advance k).shift d = (q.shift d).advance k := by
  simp only [shift, advance, Nat.add_right_comm]

theorem shift_note (n : Note) : (q.note n).shift d = (q.shift d).note (n.shift d) := by
  simp only [shift, note, Array.map_push]

theorem shift_openGroup (id : Nat) : (q.openGroup id).shift d = (q.shift d).openGroup id := by
  simp only [shift, openGroup, Array.map_setIfInBounds, Option.map_some, Option.map_none]

theorem shift_closeGroup (id : Nat) : (q.closeGroup id).shift d = (q.shift d).closeGroup id := by
  simp only [shift, closeGroup, Array.map_setIfInBounds, Option.map_some]

theorem captured_shift (id : Nat) :
    (q.shift d).captured? id = (q.captured? id).map (Span.shift d) := by
  have slot (i : Nat) : ((q.shift d).slots[i]?.getD none) =
      (q.slots[i]?.getD none).map (· + d) := by
    rw [shift, Array.getElem?_map]
    cases q.slots[i]? <;> rfl
  unfold captured?
  rw [slot, slot]
  cases q.slots[2 * id]?.getD none with
  | none => rfl
  | some b =>
    cases q.slots[2 * id + 1]?.getD none with
    | none => rfl
    | some e =>
      by_cases h : b ≤ e
      · simp [h, Span.shift]
      · simp [h]

/-- The path ends inside a slice of so many elements, and so does what it has captured. -/
structure Inside (n : Nat) (q : Path) : Prop where
  pos_le : q.pos ≤ n
  within : q.Within 0

end Path

/-! ## What is left of trials in a slice -/

namespace Trial

/-- Behind the end of a slice there may be anything: failures, and paths that have left it. -/
def Beyond (stop : Nat) : Trial → Prop
  | .error _ => True
  | .ok q => stop < q.pos

/-- What is left of trials in a slice from `d` to `stop`: trials beyond the slice are dropped, all
others are kept, in the same order. -/
inductive Cut (d stop : Nat) : List Trial → List Trial → Prop where
  | nil : Cut d stop [] []
  | keep {ts us : List Trial} (q : Path) (h : Cut d stop ts us) :
    Cut d stop (.ok (q.shift d) :: ts) (.ok q :: us)
  | fail {ts us : List Trial} (err : PredicateError) (h : Cut d stop ts us) :
    Cut d stop (.error err :: ts) (.error err :: us)
  | drop {t : Trial} {ts us : List Trial} (ht : t.Beyond stop) (h : Cut d stop ts us) :
    Cut d stop (t :: ts) us

namespace Cut

variable {d stop : Nat} {ts us ts' us' : List Trial} {f g : Path → List Trial}

theorem single (q : Path) : Cut d stop [.ok (q.shift d)] [.ok q] := .keep q .nil

theorem append (h : Cut d stop ts us) (h' : Cut d stop ts' us') :
    Cut d stop (ts ++ ts') (us ++ us') := by
  induction h with
  | nil => exact h'
  | keep q _ ih => exact .keep q ih
  | fail err _ ih => exact .fail err ih
  | drop ht _ ih => exact .drop ht ih

theorem of_beyond (h : ∀ t ∈ ts, t.Beyond stop) : Cut d stop ts [] := by
  induction ts with
  | nil => exact .nil
  | cons t ts ih =>
    exact .drop (h t List.mem_cons_self) (ih fun t ht => h t (List.mem_cons_of_mem _ ht))

/-- **Going on from what is left** leaves the same as going on from all trials, if what has left
the slice does not come back. -/
theorem onward (h : Cut d stop ts us)
    (hkeep : ∀ q, .ok q ∈ us → Cut d stop (f (q.shift d)) (g q))
    (hdrop : ∀ q, stop < q.pos → ∀ t ∈ f q, t.Beyond stop) :
    Cut d stop (Trial.onward ts f) (Trial.onward us g) := by
  induction h with
  | nil => exact .nil
  | keep q _ ih =>
    exact (hkeep q List.mem_cons_self).append (ih fun r hr => hkeep r (List.mem_cons_of_mem _ hr))
  | fail err _ ih => exact .fail err (ih fun r hr => hkeep r (List.mem_cons_of_mem _ hr))
  | @drop t ts us ht _ ih =>
    cases t with
    | error err => exact .drop ht (ih hkeep)
    | ok q => exact (of_beyond (hdrop q ht)).append (ih hkeep)

end Cut

theorem beyond_of_ahead {elements : Array Element} {stop : Nat} {q : Path} {ts : List Trial}
    (h : ∀ r, .ok r ∈ ts → q.Ahead elements r) (hq : stop < q.pos) : ∀ t ∈ ts, t.Beyond stop := by
  intro t ht
  cases t with
  | error err => trivial
  | ok r =>
    have := h r ht
    unfold Path.Ahead at this
    change stop < r.pos
    omega

end Trial

/-! ## Paths through a slice -/

theorem Trial.pos_of_mem_ofNode {elements : Array Element} {p : NodePattern} {q r : Path}
    (h : .ok r ∈ ofNode elements p q) : r.pos = q.pos + 1 := by
  unfold ofNode at h
  split at h
  · cases h
  · split at h
    · cases List.mem_singleton.1 h
    · cases h
    · cases List.mem_singleton.1 h
      rfl
    · cases List.mem_singleton.1 h
      rfl

section Slice

variable {elements : Array Element} {render : List Element → String} {d stop : Nat}
  (hd : d ≤ stop) (hstop : stop ≤ elements.size)

include hd hstop

theorem size_slice : (elements.extract d stop).size = stop - d := by
  rw [Array.size_extract]
  omega

namespace Trial

theorem cut_ofNode (p : NodePattern) (q : Path) : Cut d stop (ofNode elements p (q.shift d))
    (ofNode (elements.extract d stop) p q) := by
  have hsize := size_slice hd hstop
  by_cases hlt : q.pos < stop - d
  · have helem : (elements.extract d stop)[q.pos]? = elements[(q.shift d).pos]? := by
      rw [Array.getElem?_extract, if_pos (by omega), Nat.add_comm]
      rfl
    unfold ofNode
    rw [helem]
    cases elements[(q.shift d).pos]? with
    | none => exact .nil
    | some e =>
      dsimp only
      cases (p.test e).verdict with
      | error err => exact .fail err .nil
      | ok v =>
        cases v with
        | reject => exact .nil
        | accept => exact q.shift_advance d 1 ▸ .single (q.advance 1)
        | acceptWith v =>
          have hshift : ((q.note (.payload q.pos v)).advance 1).shift d =
              ((q.shift d).note (.payload (q.shift d).pos v)).advance 1 := by
            rw [Path.shift_advance, Path.shift_note]
            rfl
          have h : Cut d stop _ _ := .single ((q.note (.payload q.pos v)).advance 1)
          rwa [hshift] at h
  · -- at the end of the slice there is no element, and one behind it at most in the sequence
    have hnone : ofNode (elements.extract d stop) p q = [] := by
      unfold ofNode
      rw [Array.getElem?_eq_none (by omega)]
    rw [hnone]
    refine .of_beyond fun t ht => ?_
    cases t with
    | error err => trivial
    | ok r =>
      have := pos_of_mem_ofNode ht
      change r.pos = q.pos + d + 1 at this
      change stop < r.pos
      omega

omit hstop in
theorem texts_slice {t : Span} (ht : t.stop ≤ stop - d) :
    texts (elements.extract d stop) t = texts elements (t.shift d) := by
  have hstops : min (d + t.stop) stop = t.stop + d := by omega
  rw [texts, texts, Array.extract_extract, hstops, Nat.add_comm d]
  rfl

variable (render) in
theorem exists_spanLengths_slice (min : Nat) (max : Option Nat) (text : Regex) {pos : Nat}
    (hpos : pos ≤ stop - d) : ∃ longer, spanLengths elements render min max text (pos + d) =
      spanLengths (elements.extract d stop) render min max text pos ++ longer ∧
      ∀ len ∈ longer, stop < pos + d + len := by
  have hsize := size_slice hd hstop
  have hsplit : elements.size - (pos + d) + 1 = (stop - d - pos + 1) + (elements.size - stop) := by
    omega
  unfold spanLengths
  rw [hsplit, List.range_add, List.filter_append, hsize]
  refine ⟨_, congrArg (· ++ _) (List.filter_congr fun len hlen => ?_), fun len hlen => ?_⟩
  · have hstops : Min.min (d + (pos + len)) stop = pos + d + len := by
      have := List.mem_range.1 hlen
      omega
    rw [Array.extract_extract, hstops, Nat.add_comm d]
  · obtain ⟨k, -, rfl⟩ := List.mem_map.1 (List.mem_filter.1 hlen).1
    omega

variable {q : Path} (hq : q.Inside (stop - d))

include hq

theorem cut_ofBackref (id : Nat) : Cut d stop (ofBackref elements id (q.shift d))
    (ofBackref (elements.extract d stop) id q) := by
  have hsize := size_slice hd hstop
  unfold ofBackref
  rw [Path.captured_shift]
  cases hs : q.captured? id with
  | none => exact .nil
  | some s =>
    have hstart := hq.within.captured hs
    have hpos := hq.pos_le
    have hmoved : (q.shift d).pos = q.pos + d := rfl
    dsimp only [Option.map_some]
    rw [Span.length_shift]
    by_cases hlen : q.pos + s.length ≤ stop - d
    · have hhere : texts elements ⟨(q.shift d).pos, (q.shift d).pos + s.length⟩ =
          texts (elements.extract d stop) ⟨q.pos, q.pos + s.length⟩ := by
        rw [texts_slice hd hlen, hmoved, Nat.add_right_comm]
        rfl
      rw [hhere, ← texts_slice hd (t := s) (by omega)]
      by_cases hsame : texts (elements.extract d stop) s =
          texts (elements.extract d stop) ⟨q.pos, q.pos + s.length⟩
      · rw [if_pos ⟨by omega, hsame⟩, if_pos ⟨by omega, hsame⟩]
        exact q.shift_advance d s.length ▸ .single (q.advance s.length)
      · rw [if_neg fun h => hsame h.2, if_neg fun h => hsame h.2]
        exact .nil
    · have hout : ¬ (q.pos + s.length ≤ (elements.extract d stop).size ∧
          texts (elements.extract d stop) s =
            texts (elements.extract d stop) ⟨q.pos, q.pos + s.length⟩) := fun h => by
        have := h.1
        omega
      rw [if_neg hout]
      refine .of_beyond fun t ht => ?_
      split at ht
      · cases List.mem_singleton.1 ht
        change stop < q.pos + d + s.length
        omega
      · cases ht

theorem cut_ofMulti (min : Nat) (max : Option Nat) (text : Regex) (greedy : Bool) :
    Cut d stop (ofMulti elements render min max text greedy (q.shift d))
      (ofMulti (elements.extract d stop) render min max text greedy q) := by
  obtain ⟨longer, hlengths, hlonger⟩ :=
    exists_spanLengths_slice render hd hstop min max text hq.pos_le
  have hkeep (l : List Nat) : Cut d stop (l.map fun len => .ok ((q.shift d).advance len))
      (l.map fun len => .ok (q.advance len)) := by
    induction l with
    | nil => exact .nil
    | cons len l ih =>
      rw [List.map_cons, List.map_cons, ← q.shift_advance]
      exact .keep (q.advance len) ih
  have hdrop (l : List Nat) (hl : ∀ len ∈ l, stop < q.pos + d + len) :
      Cut d stop (l.map fun len => .ok ((q.shift d).advance len)) [] := by
    refine .of_beyond fun t ht => ?_
    obtain ⟨len, hlen, rfl⟩ := List.mem_map.1 ht
    exact hl len hlen
  unfold ofMulti
  rw [show (q.shift d).pos = q.pos + d from rfl, hlengths]
  cases greedy with
  | true =>
    have h := (hdrop longer.reverse fun len h => hlonger len (List.mem_reverse.1 h)).append
      (hkeep (spanLengths (elements.extract d stop) render min max text q.pos).reverse)
    simpa using h
  | false =>
    have h := (hkeep (spanLengths (elements.extract d stop) render min max text q.pos)).append
      (hdrop longer hlonger)
    simpa using h

end Trial

theorem Path.Inside.of_mem_paths {greedy : Bool} {e : Expr} {q r : Path}
    (hq : q.Inside (stop - d))
    (hr : .ok r ∈ e.paths (elements.extract d stop) render greedy q) : r.Inside (stop - d) where
  pos_le := by
    have h := e.ahead_of_mem_paths greedy hr
    unfold Path.Ahead at h
    rw [size_slice hd hstop] at h
    have := hq.pos_le
    omega
  within := Expr.within_of_mem_paths hr hq.within

/-- What is left of the paths through a repetition are the paths through the repetition of what is
left of its body. -/
theorem Trial.cut_iterations {body body' : Path → List Trial} {min : Nat} {max : Option Nat}
    {greedy : Bool} (hbody : ∀ q, q.Inside (stop - d) → Cut d stop (body (q.shift d)) (body' q))
    (hinside : ∀ q r, q.Inside (stop - d) → .ok r ∈ body' q → r.Inside (stop - d))
    (hahead : ∀ q r, .ok r ∈ body q → q.Ahead elements r) {count : Nat} {q : Path}
    (hq : q.Inside (stop - d)) :
    Cut d stop (iterations elements body min max greedy count (q.shift d))
      (iterations (elements.extract d stop) body' min max greedy count q) := by
  induction count, q using iterations_induction (elements.extract d stop) min with
  | step count q ih =>
    have hsize := size_slice hd hstop
    have hmore : Cut d stop
        (iteration elements body min count
          (iterations elements body min max greedy (count + 1)) (q.shift d))
        (iteration (elements.extract d stop) body' min count
          (iterations (elements.extract d stop) body' min max greedy (count + 1)) q) := by
      refine (hbody q hq).onward (fun r hr => ?_) (fun r hr => ?_)
      · have hr := hinside q r hq hr
        have hgo : (count < min ∨ (q.shift d).pos < (r.shift d).pos ∧
              (r.shift d).pos ≤ elements.size) ↔
            (count < min ∨ q.pos < r.pos ∧ r.pos ≤ (elements.extract d stop).size) := by
          have := hr.pos_le
          change (count < min ∨ q.pos + d < r.pos + d ∧ r.pos + d ≤ elements.size) ↔ _
          omega
        by_cases h : count < min ∨ q.pos < r.pos ∧ r.pos ≤ (elements.extract d stop).size
        · rw [if_pos (hgo.2 h), if_pos h]
          exact ih r h hr
        · rw [if_neg fun h' => h (hgo.1 h'), if_neg h]
          exact .nil
      · split
        · exact beyond_of_ahead (fun _ => ahead_iterations hahead) hr
        · exact fun t ht => by cases ht
    rw [iterations_eq, iterations_eq]
    dsimp only
    by_cases hc : count < min
    · rw [if_pos hc, if_pos hc]
      exact hmore
    · rw [if_neg hc, if_neg hc]
      by_cases hm : max = some count
      · rw [if_pos hm, if_pos hm]
        exact .single q
      · rw [if_neg hm, if_neg hm]
        cases greedy with
        | true => exact hmore.append (.single q)
        | false => exact .keep q hmore

namespace Expr

omit hd hstop in
mutual

/-- **The paths through a slice are what is left of the paths through the sequence.** -/
theorem cut_paths (hd : d ≤ stop) (hstop : stop ≤ elements.size) (greedy : Bool) (e : Expr)
    (he : e.anchorFree = true) {q : Path} (hq : q.Inside (stop - d)) :
    Trial.Cut d stop (e.paths elements render greedy (q.shift d))
      (e.paths (elements.extract d stop) render greedy q) := by
  match e with
  | node p => exact Trial.cut_ofNode hd hstop p q
  | sequence es => exact cut_pathsOfAll hd hstop greedy es he hq
  | choice [] => exact .single q
  | choice (e :: es) => exact cut_pathsOfSome hd hstop greedy (e :: es) he hq
  | iterate e min max own =>
    rw [paths, paths]
    by_cases hm : max = some 0
    · rw [if_pos hm, if_pos hm]
      exact .single q
    · rw [if_neg hm, if_neg hm]
      exact Trial.cut_iterations hd hstop (fun r hr => cut_paths hd hstop _ e he hr)
        (fun _ _ hr => hr.of_mem_paths hd hstop) (fun _ _ => ahead_of_mem_paths _ e) hq
  | group e none _ => exact cut_paths hd hstop greedy e he hq
  | group e (some id) _ =>
    have hbody := cut_paths hd hstop greedy e he (q := q.openGroup id)
      ⟨hq.pos_le, hq.within.openGroup id⟩
    rw [Path.shift_openGroup] at hbody
    refine hbody.onward (fun r _ => ?_) fun r hr t ht => ?_
    · exact Path.shift_closeGroup d r id ▸ .single (r.closeGroup id)
    · cases List.mem_singleton.1 ht
      exact hr
  | backref id => exact Trial.cut_ofBackref hd hstop hq id
  | multi min max text own => exact Trial.cut_ofMulti hd hstop hq min max text _
  | action e name target =>
    refine (cut_paths hd hstop greedy e he hq).onward (fun r _ => ?_) fun r hr t ht => ?_
    · have h : Trial.Cut d stop _ _ := .single (r.note (.fire name target))
      rwa [Path.shift_note] at h
    · cases List.mem_singleton.1 ht
      exact hr
  | anchor a => cases he

theorem cut_pathsOfAll (hd : d ≤ stop) (hstop : stop ≤ elements.size) (greedy : Bool)
    (es : List Expr) (he : allAnchorFree es = true) {q : Path} (hq : q.Inside (stop - d)) :
    Trial.Cut d stop (pathsOfAll elements render greedy es (q.shift d))
      (pathsOfAll (elements.extract d stop) render greedy es q) := by
  match es with
  | [] => exact .single q
  | e :: es =>
    rw [allAnchorFree, Bool.and_eq_true] at he
    exact (cut_paths hd hstop greedy e he.1 hq).onward
      (fun r hr => cut_pathsOfAll hd hstop greedy es he.2 (hq.of_mem_paths hd hstop hr))
      fun r hr => Trial.beyond_of_ahead (fun _ => ahead_of_mem_pathsOfAll greedy es) hr

theorem cut_pathsOfSome (hd : d ≤ stop) (hstop : stop ≤ elements.size) (greedy : Bool)
    (es : List Expr) (he : allAnchorFree es = true) {q : Path} (hq : q.Inside (stop - d)) :
    Trial.Cut d stop (pathsOfSome elements render greedy es (q.shift d))
      (pathsOfSome (elements.extract d stop) render greedy es q) := by
  match es with
  | [] => exact .nil
  | e :: es =>
    rw [allAnchorFree, Bool.and_eq_true] at he
    exact (cut_paths hd hstop greedy e he.1 hq).append (cut_pathsOfSome hd hstop greedy es he.2 hq)

end

end Expr

end Slice

/-! ## Matches -/

theorem Trial.Cut.exists_of_cons_ok {d stop : Nat} {q : Path} {ts us : List Trial}
    (h : Cut d stop (.ok q :: ts) us) (hq : q.pos ≤ stop) :
    ∃ r us', q = r.shift d ∧ us = .ok r :: us' := by
  cases h with
  | keep r h => exact ⟨r, _, rfl, rfl⟩
  | drop ht h => exact absurd ht (Nat.not_lt.2 hq)

namespace Search

variable {s s' : Search} {m : Match}

theorem exists_cons_of_first {ts : List Trial} {q : Path}
    (h : ts.find? (Trial.decides none) = some (.ok q)) : ∃ us, ts = .ok q :: us := by
  match ts with
  | [] => cases h
  | t :: ts =>
    have ht : Trial.decides none t = true := by cases t <;> rfl
    rw [List.find?_cons_of_pos ht] at h
    exact ⟨ts, by rw [Option.some.inj h]⟩

theorem exists_head_of_found (hm : s.find.result = .ok (some m) ∨
      (∃ p, (s.findFrom p).result = .ok (some m)) ∨ ∃ p, (s.matchAt p).result = .ok (some m)) :
    ∃ p q ts, p ≤ s.length ∧ m = s.report p q ∧
      s.pattern.pathsFrom s.elements s.render p = .ok q :: ts := by
  have hfirst : ∃ p ≤ s.length, ∃ q, m = s.report p q ∧
      (s.pattern.pathsFrom s.elements s.render p).find? (Trial.decides none) = some (.ok q) := by
    obtain h | ⟨p, h⟩ | ⟨p, h⟩ := hm
    · exact exists_first_of_find h
    · exact exists_first_of_find (s := { s with cursor := p, exhausted := false })
        (find_of_findFrom h)
    · have h := attempts_of_matchAt h
      obtain ⟨p', hp', hq⟩ := exists_first_of_attempts h.2
      exact ⟨p', List.mem_singleton.1 hp' ▸ h.1, hq⟩
  obtain ⟨p, hp, q, hm, hq⟩ := hfirst
  obtain ⟨ts, hts⟩ := exists_cons_of_first hq
  exact ⟨p, q, ts, hp, hm, hts⟩

theorem spans_report_shift (d : Nat) (r : Path) (hp : s'.pattern = s.pattern) :
    (s.report d (r.shift d)).spans =
      (s'.report 0 r).spans.map (Option.map (Span.shift d)) := by
  simp only [report, List.map_cons, List.map_map, hp, Option.map_some, Span.shift, Nat.zero_add]
  refine congrArg (_ :: ·) (List.map_congr_left fun id _ => ?_)
  exact r.captured_shift d id

theorem payloads_report_shift (d : Nat) (r : Path) : (s.report d (r.shift d)).payloads =
    (s'.report 0 r).payloads.map fun x => (x.1 + d, x.2) := by
  rw [report, Path.shift, Array.toList_map]
  exact Note.payloads_shift d r.notes.toList

/-- **A match is found again in its own slice**, if the pattern has no anchors. -/
theorem matchWhole_slice (hfree : s.pattern.root.anchorFree = true)
    (hm : s.find.result = .ok (some m) ∨ (∃ p, (s.findFrom p).result = .ok (some m)) ∨
      ∃ p, (s.matchAt p).result = .ok (some m))
    (hpattern : s'.pattern = s.pattern)
    (helements : s'.elements = s.elements.extract m.span.start m.span.stop)
    (hrender : s'.render = s.render) (hs' : s'.options.maxSteps = none) :
    ∃ m', s'.matchWhole.result = .ok (some m') ∧
      m.spans = m'.spans.map (Option.map (Span.shift m.span.start)) ∧
      m.payloads = m'.payloads.map fun x => (x.1 + m.span.start, x.2) := by
  obtain ⟨d, q, ts, hd, rfl, hts⟩ := exists_head_of_found hm
  rw [span_report] at helements ⊢
  dsimp only at helements ⊢
  have hmem : .ok q ∈ s.pattern.pathsFrom s.elements s.render d := hts ▸ List.mem_cons_self
  have hahead : q.pos = d ∨ d < q.pos ∧ q.pos ≤ s.length :=
    s.pattern.root.ahead_of_mem_paths true hmem
  have hle : d ≤ q.pos := by omega
  have hstop : q.pos ≤ s.elements.size := by
    change q.pos ≤ s.length
    omega
  have hcut : Trial.Cut d q.pos (s.pattern.pathsFrom s.elements s.render d)
      (s.pattern.pathsFrom (s.elements.extract d q.pos) s.render 0) := by
    rw [Pattern.pathsFrom, Pattern.pathsFrom, ← Path.shift_entry]
    exact Expr.cut_paths hle hstop true s.pattern.root hfree
      ⟨Nat.zero_le _, Path.within_entry _ _⟩
  rw [hts] at hcut
  obtain ⟨r, us, rfl, hus⟩ := hcut.exists_of_cons_ok (Nat.le_refl _)
  have hlen : s'.length = r.pos := by
    rw [length, helements, size_slice hle hstop]
    exact Nat.add_sub_cancel _ _
  have hfirst : (s'.pattern.pathsFrom s'.elements s'.render 0).find?
      (Trial.decides (some s'.length)) = some (.ok r) := by
    rw [hpattern, helements, hrender, hus]
    exact List.find?_cons_of_pos (by rw [hlen]; exact beq_self_eq_true _)
  refine ⟨s'.report 0 r, ?_, spans_report_shift d r hpattern, payloads_report_shift d r⟩
  rw [matchWhole, attempts_singleton hs', hfirst]

/-- Two elements with payloads, behind one that does not match. -/
theorem matchWhole_slice_of_payloads :
    let f : NodeFunction :=
      ⟨"f", fun e => .ok (if e.text = "a" then .reject else .acceptWith (.text e.text)), false⟩
    let root : Expr := .group (.iterate (.node (.custom f)) 1 none true) (some 1) none
    let s : Search := {
      pattern := .build "" root [] 2
      elements := #[⟨"a", fun _ => none⟩, ⟨"b", fun _ => none⟩, ⟨"c", fun _ => none⟩] }
    root.anchorFree = true ∧ s.options.maxSteps = none ∧
      ∃ m m', s.find.result = .ok (some m) ∧ m.span = ⟨1, 3⟩ ∧
        ({ s with elements := s.elements.extract m.span.start m.span.stop } :
          Search).matchWhole.result = .ok (some m') ∧
        m.spans = m'.spans.map (Option.map (Span.shift m.span.start)) ∧
        m.payloads = m'.payloads.map fun x => (x.1 + m.span.start, x.2) := by
  intro f root s
  have hspan : s.find.result.map (Option.map (·.span)) = .ok (some ⟨1, 3⟩) := by cbv
  refine ⟨rfl, rfl, ?_⟩
  cases h : s.find.result with
  | error e => rw [h] at hspan; cases hspan
  | ok x =>
    obtain _ | m := x
    · rw [h] at hspan
      cases hspan
    · rw [h] at hspan
      let s' : Search := { s with elements := s.elements.extract m.span.start m.span.stop }
      have helements : s'.elements = s.elements.extract m.span.start m.span.stop := rfl
      have hpattern : s'.pattern = s.pattern := rfl
      obtain ⟨m', hm', hspans, hpayloads⟩ :=
        matchWhole_slice rfl (.inl h) hpattern helements rfl rfl
      exact ⟨m, m', rfl, Option.some.inj (Except.ok.inj hspan), hm', hspans, hpayloads⟩

end Search

end Motif
