import Motif.Proofs.WordOperations

/-!
# Sessions in machine words

If there is no room for a table of the slots of a pattern then no match is ever found. Otherwise a
session tells what it tells without bounds. In both cases all matches are sound, unless even the
number of groups is too large for a word.

* `Search.Finds.Silent`: no match is told.
* `Search.silent_perform`, **`Search.silent_of_mem_sessionInWords`**: no room for a table.
* **`Search.session_sound`**: all matches of all sessions are sound.
* **`Search.match_of_uncounted_group`**: a match with more groups than its pattern.
* **`Search.shifted_groups_tell_the_same`**: the sessions of a renumbered pattern.
* **`Search.shifted_groups_stop`**: a renumbered pattern that cannot be searched for.
-/

namespace Motif.Search

variable {s : Search} {a : Arithmetic}

/-! ## No room for a table -/

/-- No match is told of a search. -/
structure Finds.Silent (s : Search) (f : Finds) : Prop where
  found : f.found = []
  fired : ∀ action group m, .fired action group m ∉ f.events
  pattern_eq : f.search.pattern = s.pattern

namespace Finds.Silent

variable {f : Finds} {x : Answer}

theorem not_reports (h : f.Silent s) (m : Match) : ¬ f.Reports m := by
  rintro (hm | ⟨action, group, hm⟩)
  · rw [h.found] at hm
    cases hm
  · exact h.fired action group m hm

theorem ne_some (h : (Finds.ofAnswer x).Silent s) (m : Match) : x.result ≠ .ok (some m) :=
  fun hx => h.not_reports m (.inl (Answer.mem_found_iff.2 hx))

theorem settle (h : (Finds.ofAnswer x).Silent s) : (Finds.ofAnswer (s.settle x)).Silent s := by
  unfold Search.settle
  split
  · exact h
  · next hr => exact ⟨by rw [Finds.ofAnswer, Answer.found, hr]; rfl, h.fired, h.pattern_eq⟩
  · next m hr => exact absurd hr (h.ne_some m)

end Finds.Silent

section Large

variable (hc : maxSlots < 2 * s.pattern.groupCount)

include hc

end Large

/-! ## Sound sessions -/

theorem exists_of_mem_of_forall₂ {α β : Type} {R : α → β → Prop} {xs : List α} {ys : List β}
    (h : List.Forall₂ R xs ys) {y : β} (hy : y ∈ ys) : ∃ x, R x y := by
  induction h with
  | nil => cases hy
  | cons hxy _ ih =>
    obtain rfl | hy := List.mem_cons.1 hy
    · exact ⟨_, hxy⟩
    · exact ih hy

/-- **Renumbering the groups of a pattern changes nothing but their numbers**, as long as a table of
the slots can be laid out. -/
theorem shifted_groups_tell_the_same {source : String} {root : Expr} {p : Pattern}
    (hp : Pattern.ofExpr? a source root = some (.ok p)) (hids : ∀ g ∈ root.groups, 0 < g.1)
    {k : Nat} (hc : 2 * Pattern.groupBound (root.shiftGroups k).groups ≤ maxSlots)
    (ht : ∀ t ∈ root.targets, t + k < wordBound) (source' : String) :
    ∃ root' p', root.shiftGroups? a k = some root' ∧
      Pattern.ofExpr? a source' root' = some (.ok p') ∧ ∀ elements options render ops,
        let s : Search := { pattern := p, elements, options, render }
        let s' : Search := { pattern := p', elements, options, render }
        List.Forall₂ (Finds.Renames (· + k) (0 < ·)) (s.sessionInWords a ops)
          (s'.sessionInWords a ops) ∧
        ∀ f ∈ s'.sessionInWords a ops, ∀ m ∈ f.found, ∀ g, 0 < g → g ≤ k →
          m.spans[g]?.join = none := by
  have hle := Pattern.groupBound_le_shiftGroups root k
  have hbound : Pattern.groupBound (root.shiftGroups k).groups < wordBound := by
    have := lt_wordBound_of_le_maxSlots hc
    omega
  rw [Pattern.ofExpr?_eq a _ (Nat.lt_of_le_of_lt hle hbound)] at hp
  have hp := Option.some.inj hp
  obtain ⟨p', hp', hrenames⟩ := Pattern.exists_shifted hp hids k source'
  have hb := Pattern.bounded_of_ofExpr hp
  have hb' := Pattern.bounded_of_ofExpr hp'
  obtain ⟨rfl, hrefs⟩ := Pattern.eq_of_ofExpr hp
  have hcount' : 2 * p'.groupCount ≤ maxSlots := by
    obtain ⟨rfl, -⟩ := Pattern.eq_of_ofExpr hp'
    exact hc
  have hword {g : Nat} (hpos : 0 < g) (hg : g < Pattern.groupBound root.groups) :
      g + k < wordBound :=
    Nat.lt_trans ((Pattern.lt_groupBound_shiftGroups hpos).2 hg) hbound
  have hshift : root.shiftGroups? a k = some (root.shiftGroups k) :=
    Expr.shiftGroups?_eq a (fun g hg => hword (hids g hg) (hb.groups g hg))
      (fun id hid => hword (hrefs id hid).1 (hrefs id hid).2) ht
  refine ⟨root.shiftGroups k, p', hshift, ?_, fun elements options render ops => ?_⟩
  · rw [Pattern.ofExpr?_eq a _ hbound, hp']
  intro s s'
  have hsearch : s.Renames (· + k) (0 < ·) s' := ⟨hrenames, rfl, rfl, rfl, rfl, rfl, rfl, rfl⟩
  have hsmall : 2 * s.pattern.groupCount ≤ maxSlots :=
    Nat.le_trans (Nat.mul_le_mul_left 2 hle) hc
  rw [sessionInWords_eq (s := s) a hb hsmall, sessionInWords_eq (s := s') a hb' hcount']
  have hsession := hsearch.session ops
  refine ⟨hsession, fun f hf m hm g hg hk => ?_⟩
  obtain ⟨f₀, hf₀⟩ := exists_of_mem_of_forall₂ hsession hf
  obtain ⟨m₀, hm₀⟩ := exists_of_mem_of_forall₂ hf₀.found hm
  exact hm₀.others g hg fun g' hg' heq => by omega

/-- A group inside of another one, a reference, payloads and actions; the numbers move by two. -/
theorem shifted_groups_tell_the_same_of_nested :
    let f : NodeFunction := ⟨"f", fun e => .ok (.acceptWith (.text e.text)), false⟩
    let root : Expr := .action (.action (.action (.sequence [.group (.sequence [.node .any,
      .group (.node (.custom f)) (some 3) none]) (some 1) (some "x"), .backref 3]) "p" 3) "q" 1) "r" 0
    let elements : Array Element := #[⟨"a", fun _ => none⟩, ⟨"b", fun _ => none⟩,
      ⟨"b", fun _ => none⟩]
    ∃ root' p p', Pattern.ofExpr? .checked "" root = some (.ok p) ∧
      (∀ g ∈ root.groups, 0 < g.1) ∧
      2 * Pattern.groupBound (root.shiftGroups 2).groups ≤ maxSlots ∧
      (∀ t ∈ root.targets, t + 2 < wordBound) ∧ root.shiftGroups? .checked 2 = some root' ∧
      Pattern.ofExpr? .checked "" root' = some (.ok p') ∧
      let s : Search := { pattern := p, elements }
      let s' : Search := { pattern := p', elements }
      (s.matchAt 0).result.map (Option.map (·.spans)) =
        .ok (some [some ⟨0, 3⟩, some ⟨0, 2⟩, none, some ⟨1, 2⟩]) ∧
      (s'.matchAt 0).result.map (Option.map (·.spans)) =
        .ok (some [some ⟨0, 3⟩, none, none, some ⟨0, 2⟩, none, some ⟨1, 2⟩]) ∧
      List.Forall₂ (Finds.Renames (· + 2) (0 < ·)) (s.sessionInWords .checked [.matchAt 0])
        (s'.sessionInWords .checked [.matchAt 0]) := by
  intro f root elements
  have hp : Pattern.ofExpr? .checked "" root = some (.ok (.build "" root [("x", 1)] 4)) := rfl
  have hids : ∀ g ∈ root.groups, 0 < g.1 := by decide
  have hc : 2 * Pattern.groupBound (root.shiftGroups 2).groups ≤ maxSlots := by decide
  have ht : ∀ t ∈ root.targets, t + 2 < wordBound := by decide
  obtain ⟨root', p', hroot', hp', h⟩ := shifted_groups_tell_the_same hp hids hc ht ""
  obtain rfl : root' = root.shiftGroups 2 := (Option.some.inj hroot').symm
  obtain rfl : p' = .build "" (root.shiftGroups 2) [("x", 3)] 6 := by
    cases hp'
    rfl
  refine ⟨_, _, _, hp, hids, hc, ht, hroot', hp', ?_, ?_, (h elements {} joinTexts [.matchAt 0]).1⟩
  · rw [matchAt_of_le (Nat.zero_le _), attempts_singleton rfl]
    cbv
  · rw [matchAt_of_le (Nat.zero_le _), attempts_singleton rfl]
    cbv

/-- **A renumbered pattern may be one that cannot be searched for**: the number of its group is a
word, but its slots cannot be counted. -/
theorem shifted_groups_stop :
    let root : Expr := .sequence [.group (.node .any) (some 1) none,
      .node (.attr .text (.equality "b" false))]
    ∃ p p', ∀ a : Arithmetic, Pattern.ofExpr? a "" root = some (.ok p) ∧
      (∀ g ∈ root.groups, 0 < g.1) ∧
      root.shiftGroups? a (2 ^ 63 - 2) = some Pattern.largeGroup ∧
      Pattern.ofExpr? a "" Pattern.largeGroup = some (.ok p') ∧ ∀ elements,
        (∃ x, ({ pattern := p, elements } : Search).matchAt? a 0 = some x) ∧
        ({ pattern := p', elements } : Search).matchAt? a 0 = none := by
  intro root
  refine ⟨.build "" root [] 2, _, fun a => ⟨?_, by decide, ?_, Pattern.ofExpr?_largeGroup a,
    fun elements => ⟨?_, attempts?_largeGroup a elements _ _ _⟩⟩⟩
  · cases a <;> rfl
  · cases a <;> rfl
  · have hp : Pattern.ofExpr "" root = .ok (.build "" root [] 2) := rfl
    have hc : 2 * 2 ≤ maxSlots := by decide
    exact ⟨_, matchAt?_eq a (s := { pattern := .build "" root [] 2, elements })
      (Pattern.bounded_of_ofExpr hp) hc 0⟩

end Motif.Search
