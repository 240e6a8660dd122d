import Motif.Proofs.Declarations
import Motif.Proofs.Targets

/-!
# Groups that share a name

Alternatives may give their groups the same name. A path goes through one of several alternatives
and does not enter the groups of the others; along a sequence no name recurs. So at most one of
the groups that share a name is captured, unless a repetition comes back to them.

* `Expr.Repeats`: a name is declared under a repetition.
* `Path.CapturesNone`, `Path.CapturesOne`: what a path captured of the groups that share a name.
* **`Expr.capturesOne_of_mem_paths`**: a path through an expression captures at most one.
* **`Search.named_captures_unambiguous`**: in a match a name stands for one span, in whatever order
  its groups are looked through.
-/

namespace Motif

namespace Expr

/-! ## Names under repetitions -/

/-- A name is declared under a repetition. -/
def Repeats (e : Expr) (name : String) : Prop :=
  ∃ a c min max greedy, e.partAt a = some (iterate c min max greedy) ∧ c.Declares name

variable {e : Expr} {es : List Expr} {name : String}

theorem repeats_iff : e.Repeats name ↔
    (∃ c min max greedy, e = iterate c min max greedy ∧ c.Declares name) ∨
      ∃ c ∈ e.children, c.Repeats name := by
  constructor
  · rintro ⟨_ | ⟨i, a⟩, c, min, max, greedy, hpart, hname⟩
    · rw [partAt, Option.some.injEq] at hpart
      exact .inl ⟨c, min, max, greedy, hpart, hname⟩
    · rw [partAt, Option.bind_eq_some_iff] at hpart
      obtain ⟨d, hd, hpart⟩ := hpart
      exact .inr ⟨d, List.mem_of_getElem? hd, a, c, min, max, greedy, hpart, hname⟩
  · rintro (⟨c, min, max, greedy, rfl, hname⟩ | ⟨d, hd, a, c, min, max, greedy, hpart, hname⟩)
    · exact ⟨[], c, min, max, greedy, rfl, hname⟩
    · obtain ⟨i, hi⟩ := List.getElem?_of_mem hd
      refine ⟨i :: a, c, min, max, greedy, ?_, hname⟩
      rw [partAt, hi]
      exact hpart

theorem not_repeats_of_children_eq_nil (hc : e.children = []) : ¬ e.Repeats name := by
  rw [repeats_iff, hc]
  rintro (⟨c, min, max, greedy, rfl, -⟩ | ⟨c, hc, -⟩)
  · cases hc
  · cases hc

theorem not_repeats_of_mem_children {c : Expr} (h : ¬ e.Repeats name) (hc : c ∈ e.children) :
    ¬ c.Repeats name := fun hname => h (repeats_iff.2 (.inr ⟨c, hc, hname⟩))

mutual

theorem declares_of_mem_groups {id : Nat} (e : Expr) (h : (id, some name) ∈ e.groups) :
    e.Declares name := by
  match e with
  | node _ | backref _ | multi .. | anchor _ => cases h
  | sequence es => exact declares_sequence.2 (declares_of_mem_groupsOfAll es h)
  | choice es => exact declares_choice.2 (declares_of_mem_groupsOfAll es h)
  | iterate c _ _ _ | action c _ _ =>
    exact (declares_of_children_eq_singleton rfl).2 (.inr (declares_of_mem_groups c h))
  | group c g name' =>
    refine (declares_of_children_eq_singleton rfl).2 ?_
    obtain h | h := List.mem_append.1 h
    · obtain ⟨g', -, heq⟩ := List.mem_map.1 h
      cases heq
      exact .inl rfl
    · exact .inr (declares_of_mem_groups c h)

theorem declares_of_mem_groupsOfAll {id : Nat} (es : List Expr)
    (h : (id, some name) ∈ groupsOfAll es) : ∃ c ∈ es, c.Declares name := by
  match es with
  | [] => cases h
  | e :: es =>
    obtain h | h := List.mem_append.1 h
    · exact ⟨e, List.mem_cons_self, declares_of_mem_groups e h⟩
    · obtain ⟨c, hc, hname⟩ := declares_of_mem_groupsOfAll es h
      exact ⟨c, List.mem_cons_of_mem e hc, hname⟩

end

end Expr

/-! ## Captures of groups that share a name -/

namespace Path

/-- None of the groups of a name has captured anything. -/
def CapturesNone (q : Path) (gs : List (Nat × Option String)) (name : String) : Prop :=
  ∀ id, (id, some name) ∈ gs → q.captured? id = none

/-- At most one of the groups of a name has captured something. -/
def CapturesOne (q : Path) (gs : List (Nat × Option String)) (name : String) : Prop :=
  ∀ i j, (i, some name) ∈ gs → (j, some name) ∈ gs → q.captured? i ≠ none → q.captured? j ≠ none →
    i = j

variable {q r : Path} {gs gs' : List (Nat × Option String)} {name : String}

theorem capturesNone_entry (groups start : Nat) : (entry groups start).CapturesNone gs name := by
  intro id _
  have hslot (i : Nat) : (entry groups start).slots[i]?.getD none = none := by
    rw [entry, Array.getElem?_replicate]
    split <;> rfl
  rw [captured?, hslot]

theorem CapturesNone.one (h : q.CapturesNone gs name) : q.CapturesOne gs name :=
  fun i _ hi _ hne => absurd (h i hi) hne

theorem CapturesNone.mono (h : q.CapturesNone gs name) (hgs : gs' ⊆ gs) :
    q.CapturesNone gs' name := fun id hid => h id (hgs hid)

theorem CapturesNone.congr (h : q.CapturesNone gs name)
    (hqr : ∀ id ∈ gs.map (·.1), r.captured? id = q.captured? id) : r.CapturesNone gs name :=
  fun id hid => (hqr id (List.mem_map_of_mem hid)).trans (h id hid)

theorem CapturesOne.congr (h : q.CapturesOne gs name)
    (hqr : ∀ id ∈ gs.map (·.1), r.captured? id = q.captured? id) : r.CapturesOne gs name := by
  intro i j hi hj hi' hj'
  rw [hqr i (List.mem_map_of_mem hi)] at hi'
  rw [hqr j (List.mem_map_of_mem hj)] at hj'
  exact h i j hi hj hi' hj'

theorem CapturesOne.append_right (h : q.CapturesOne gs name) (h' : q.CapturesNone gs' name) :
    q.CapturesOne (gs ++ gs') name := by
  intro i j hi hj hi' hj'
  have hleft {id : Nat} (hid : (id, some name) ∈ gs ++ gs') (hne : q.captured? id ≠ none) :
      (id, some name) ∈ gs :=
    (List.mem_append.1 hid).resolve_right fun hid => hne (h' id hid)
  exact h i j (hleft hi hi') (hleft hj hj') hi' hj'

theorem CapturesOne.append_left (h : q.CapturesOne gs' name) (h' : q.CapturesNone gs name) :
    q.CapturesOne (gs ++ gs') name := by
  intro i j hi hj hi' hj'
  have hright {id : Nat} (hid : (id, some name) ∈ gs ++ gs') (hne : q.captured? id ≠ none) :
      (id, some name) ∈ gs' :=
    (List.mem_append.1 hid).resolve_left fun hid => hne (h' id hid)
  exact h i j (hright hi hi') (hright hj hj') hi' hj'

end Path

namespace Expr

variable {elements : Array Element} {render : List Element → String} {name : String}

theorem capturesNone_of_not_declares {e : Expr} {q : Path} (h : ¬ e.Declares name) :
    q.CapturesNone e.groups name := fun _ hid => absurd (declares_of_mem_groups e hid) h

mutual

/-- **A path captures at most one of the groups that share a name**, if the name does not recur and
is not declared under a repetition. -/
theorem capturesOne_of_mem_paths (greedy : Bool) (e : Expr) {q r : Path}
    (hr : .ok r ∈ e.paths elements render greedy q) (hids : (e.groups.map (·.1)).Nodup)
    (hrecurs : ¬ e.Recurs name) (hloop : ¬ e.Repeats name) (hq : q.CapturesNone e.groups name) :
    r.CapturesOne e.groups name := by
  match e with
  | node _ | backref _ | multi .. | anchor _ => exact fun _ _ hi => nomatch hi
  | sequence es =>
    rw [recurs_sequence, not_or, not_not] at hrecurs
    exact capturesOne_of_mem_pathsOfAll greedy es hr hids
      (fun c hc hname => hrecurs.1 ⟨c, hc, hname⟩)
      (fun c hc => not_repeats_of_mem_children hloop hc) hrecurs.2 hq
  | choice [] => exact fun _ _ hi => nomatch hi
  | choice (e :: es) =>
    rw [recurs_choice] at hrecurs
    exact capturesOne_of_mem_pathsOfSome greedy (e :: es) hr hids
      (fun c hc hname => hrecurs ⟨c, hc, hname⟩)
      (fun c hc => not_repeats_of_mem_children hloop hc) hq
  | iterate c min max own =>
    have hname : ¬ c.Declares name := fun hname =>
      hloop (repeats_iff.2 (.inl ⟨c, min, max, own, rfl, hname⟩))
    exact (capturesNone_of_not_declares hname).one
  | group c none name' =>
    rw [recurs_of_children_eq_singleton rfl, not_or] at hrecurs
    exact capturesOne_of_mem_paths greedy c hr hids hrecurs.1
      (not_repeats_of_mem_children hloop List.mem_cons_self) hq
  | group c (some id) name' =>
    rw [recurs_of_children_eq_singleton rfl, not_or] at hrecurs
    obtain ⟨r', hr', hr⟩ := Trial.ok_mem_onward.1 hr
    cases List.mem_singleton.1 hr
    obtain ⟨hid, hids⟩ := List.nodup_cons.1 hids
    -- the groups inside are not the one that is opened and closed
    have hne {i : Nat} (hi : i ∈ c.groups.map (·.1)) : i ≠ id := ne_of_mem_of_not_mem hi hid
    by_cases hname : name' = some name
    · have hinner := fun hc => hrecurs.2 ⟨hname, hc⟩
      have hone {i : Nat} (hi : (i, some name) ∈ (id, name') :: c.groups) : i = id := by
        obtain hi | hi := List.mem_cons.1 hi
        · exact (Prod.mk.inj hi).1
        · exact absurd (declares_of_mem_groups c hi) hinner
      exact fun i j hi hj _ _ => (hone hi).trans (hone hj).symm
    · have hinner : r'.CapturesOne c.groups name := by
        refine capturesOne_of_mem_paths greedy c hr' hids hrecurs.1
          (not_repeats_of_mem_children hloop List.mem_cons_self) ?_
        exact (hq.mono (List.subset_append_right _ _)).congr fun i hi =>
          Path.captured_openGroup_of_ne (hne hi)
      have hclosed : (r'.closeGroup id).CapturesOne c.groups name :=
        hinner.congr fun i hi => Path.captured_closeGroup_of_ne (hne hi)
      have hown : (r'.closeGroup id).CapturesNone [(id, name')] name := by
        intro i hi
        cases List.mem_singleton.1 hi
        exact absurd rfl hname
      exact hclosed.append_left hown
  | action c _ _ =>
    obtain ⟨r', hr', hr⟩ := Trial.ok_mem_onward.1 hr
    cases List.mem_singleton.1 hr
    rw [recurs_of_children_eq_singleton rfl, not_or] at hrecurs
    have hone : r'.CapturesOne c.groups name := capturesOne_of_mem_paths greedy c hr' hids hrecurs.1
      (not_repeats_of_mem_children hloop List.mem_cons_self) hq
    exact hone

theorem capturesOne_of_mem_pathsOfAll (greedy : Bool) (es : List Expr) {q r : Path}
    (hr : .ok r ∈ pathsOfAll elements render greedy es q)
    (hids : ((groupsOfAll es).map (·.1)).Nodup) (hrecurs : ∀ c ∈ es, ¬ c.Recurs name)
    (hloop : ∀ c ∈ es, ¬ c.Repeats name) (hseparate : Separate name es)
    (hq : q.CapturesNone (groupsOfAll es) name) : r.CapturesOne (groupsOfAll es) name := by
  match es with
  | [] => exact fun _ _ hi => nomatch hi
  | e :: es =>
    obtain ⟨r', hr', hr⟩ := Trial.ok_mem_onward.1 hr
    rw [groupsOfAll, List.map_append, List.nodup_append'] at hids
    obtain ⟨hhead, htail, hdisjoint⟩ := hids
    obtain ⟨hfirst, hseparate⟩ := List.pairwise_cons.1 hseparate
    have hr'none : r'.CapturesNone (groupsOfAll es) name :=
      (hq.mono (List.subset_append_right _ _)).congr fun i hi =>
        captured_of_mem_paths hr' fun hi' => hdisjoint hi' hi
    by_cases hname : e.Declares name
    · -- what follows neither declares the name nor enters the groups of the first expression
      have hone := capturesOne_of_mem_paths greedy e hr' hhead (hrecurs e List.mem_cons_self)
        (hloop e List.mem_cons_self) (hq.mono (List.subset_append_left _ _))
      refine (hone.congr fun i hi => ?_).append_right fun i hi => ?_
      · exact Path.captured_of_moves (moves_of_mem_pathsOfAll greedy es hr) fun hi' =>
          hdisjoint hi hi'
      · obtain ⟨c, hc, hname'⟩ := declares_of_mem_groupsOfAll es hi
        exact absurd ⟨hname, hname'⟩ (hfirst c hc)
    · have hone := capturesOne_of_mem_pathsOfAll greedy es hr htail
        (fun c hc => hrecurs c (List.mem_cons_of_mem e hc))
        (fun c hc => hloop c (List.mem_cons_of_mem e hc)) hseparate hr'none
      exact hone.append_left (capturesNone_of_not_declares hname)

theorem capturesOne_of_mem_pathsOfSome (greedy : Bool) (es : List Expr) {q r : Path}
    (hr : .ok r ∈ pathsOfSome elements render greedy es q)
    (hids : ((groupsOfAll es).map (·.1)).Nodup) (hrecurs : ∀ c ∈ es, ¬ c.Recurs name)
    (hloop : ∀ c ∈ es, ¬ c.Repeats name) (hq : q.CapturesNone (groupsOfAll es) name) :
    r.CapturesOne (groupsOfAll es) name := by
  match es with
  | [] => cases hr
  | e :: es =>
    rw [groupsOfAll, List.map_append, List.nodup_append'] at hids
    obtain ⟨hhead, htail, hdisjoint⟩ := hids
    have hleft : q.CapturesNone e.groups name := hq.mono (List.subset_append_left _ _)
    have hright : q.CapturesNone (groupsOfAll es) name := hq.mono (List.subset_append_right _ _)
    obtain hr | hr := List.mem_append.1 hr
    · have hone := capturesOne_of_mem_paths greedy e hr hhead (hrecurs e List.mem_cons_self)
        (hloop e List.mem_cons_self) hleft
      exact hone.append_right (hright.congr fun i hi =>
        captured_of_mem_paths hr fun hi' => hdisjoint hi' hi)
    · have hone := capturesOne_of_mem_pathsOfSome greedy es hr htail
        (fun c hc => hrecurs c (List.mem_cons_of_mem e hc))
        (fun c hc => hloop c (List.mem_cons_of_mem e hc)) hright
      exact hone.append_left (hleft.congr fun i hi =>
        Path.captured_of_moves (moves_of_mem_pathsOfSome greedy es hr) fun hi' => hdisjoint hi hi')

end

end Expr

/-! ## Patterns -/

namespace Pattern

variable {p : Pattern} {name : String}

/-- **No name recurs in a compiled pattern.** -/
theorem Compiled.not_recurs (h : p.Compiled) (name : String) : ¬ p.root.Recurs name := by
  induction h with
  | withScore _ _ ih => exact ih
  | compileAll _ h _ =>
    obtain ⟨r, -, hv, -, -, hroot⟩ := exists_sources_of_compileAll h
    have hbody := (Numbering.validate_eq_ok_iff (Numbering.backrefs_of_validate hv)).1 hv name
    obtain ⟨-, hroot⟩ | ⟨c, target, -, -, hroot⟩ := hroot
    · rwa [hroot]
    · rw [hroot, Expr.recurs_of_children_eq_singleton rfl]
      rintro (h | ⟨h, -⟩)
      · exact hbody h
      · cases h

/-- **A path through a compiled pattern captures at most one of the groups of a name** that is not
declared under a repetition. -/
theorem Compiled.capturesOne (h : p.Compiled) (hloop : ¬ p.root.Repeats name)
    {elements : Array Element} {render : List Element → String} {start : Nat} {q : Path}
    (hq : .ok q ∈ p.pathsFrom elements render start) : q.CapturesOne p.root.groups name := by
  refine Expr.capturesOne_of_mem_paths true p.root hq ?_ (h.not_recurs name) hloop
    (Path.capturesNone_entry _ _)
  rw [h.numbered.groups]
  exact List.nodup_range'

theorem mem_ids_namedGroups {gs : List (Nat × Option String)} {id : Nat} :
    id ∈ (namedGroups gs).ids name ↔ (id, some name) ∈ gs := by
  simp only [GroupNames.ids, namedGroups, List.mem_map, List.mem_filter, List.mem_filterMap]
  constructor
  · rintro ⟨b, ⟨⟨g, hg, hb⟩, hname⟩, rfl⟩
    obtain ⟨name', hname', rfl⟩ := Option.map_eq_some_iff.1 hb
    obtain rfl : name' = name := by simpa using hname
    rwa [← hname']
  · intro h
    exact ⟨(name, id), ⟨⟨_, h, rfl⟩, by simp⟩, rfl⟩

end Pattern

theorem Match.TakesPart.spans_ne_none {m : Match} {id : Nat} (h : m.TakesPart id) :
    m.spans[id]?.join ≠ none := by
  obtain ⟨t, ht⟩ := h
  rw [groupSpan] at ht
  split at ht
  · next hs =>
    cases ht
    rw [hs]
    exact Option.some_ne_none t
  · cases ht

theorem findSome_eq_of_perm {α β : Type} {f : α → Option β} {l l' : List α} (h : l'.Perm l)
    (hone : ∀ a ∈ l, ∀ b ∈ l, f a ≠ none → f b ≠ none → a = b) :
    l'.findSome? f = l.findSome? f := by
  cases hl : l.findSome? f with
  | none =>
    rw [List.findSome?_eq_none_iff] at hl ⊢
    exact fun a ha => hl a (h.mem_iff.1 ha)
  | some x =>
    obtain ⟨a, ha, hx⟩ := List.exists_of_findSome?_eq_some hl
    cases hl' : l'.findSome? f with
    | none =>
      have := List.findSome?_eq_none_iff.1 hl' a (h.mem_iff.2 ha)
      rw [this] at hx
      cases hx
    | some y =>
      obtain ⟨b, hb, hy⟩ := List.exists_of_findSome?_eq_some hl'
      obtain rfl := hone a ha b (h.mem_iff.1 hb) (by simp [hx]) (by simp [hy])
      rw [← hx, ← hy]

namespace Search

variable {s : Search}

theorem spans_report {start id : Nat} {q : Path} (h₁ : 1 ≤ id) (h₂ : id < s.pattern.groupCount) :
    (s.report start q).spans[id]? = some (q.captured? id) := by
  obtain ⟨k, rfl⟩ := Nat.exists_eq_add_of_le' h₁
  rw [report, List.getElem?_cons_succ, List.getElem?_map, List.getElem?_range' (by omega)]
  simp [Nat.add_comm]

/-- **In every match at most one of the groups of a name took part**, if none of them is under a
repetition. -/
theorem named_captures_unambiguous (hp : s.pattern.Compiled) {name : String}
    (hloop : ¬ s.pattern.root.Repeats name) (ops : List Operation) :
    ∀ f ∈ s.session ops, ∀ m, f.Reports m →
      (∀ i ∈ m.names.ids name, ∀ j ∈ m.names.ids name, m.TakesPart i → m.TakesPart j → i = j) ∧
      ∀ names : GroupNames, names.Perm m.names →
        { m with names }.varSpan name = m.varSpan name := by
  intro f hf m hm
  obtain ⟨s', start, q, hpattern, rfl, hq⟩ := exists_report_of_mem_session hf hm
  have hone := hp.capturesOne hloop hq
  have hnames : (s'.report start q).names = s.pattern.names := hpattern ▸ rfl
  have hmem {id : Nat} (h : id ∈ s.pattern.names.ids name) :
      (id, some name) ∈ s.pattern.root.groups := by
    rwa [hp.numbered.names, Pattern.mem_ids_namedGroups] at h
  -- a group of the name has the span that it captured
  have hspan {id : Nat} (h : id ∈ s.pattern.names.ids name) :
      (s'.report start q).spans[id]? = some (q.captured? id) := by
    have hid := List.mem_map_of_mem (f := (·.1)) (hmem h)
    rw [hp.numbered.groups, List.mem_range'_1] at hid
    exact spans_report hid.1 (hpattern ▸ hp.numbered.lt_of_mem_ids h)
  have hsame (i : Nat) (hi : i ∈ s.pattern.names.ids name) (j : Nat)
      (hj : j ∈ s.pattern.names.ids name) (hi' : (s'.report start q).spans[i]?.join ≠ none)
      (hj' : (s'.report start q).spans[j]?.join ≠ none) : i = j := by
    rw [hspan hi] at hi'
    rw [hspan hj] at hj'
    exact hone i j (hmem hi) (hmem hj) hi' hj'
  refine ⟨fun i hi j hj hi' hj' => ?_, fun names hperm => ?_⟩
  · exact hsame i (hnames ▸ hi) j (hnames ▸ hj) hi'.spans_ne_none hj'.spans_ne_none
  · rw [Match.varSpan, Match.varSpan, hnames]
    exact findSome_eq_of_perm (((hnames ▸ hperm).filter _).map _) hsame

/-- The first alternative enters its group and is given up, so only the second one takes part. -/
theorem named_captures_unambiguous_of_abandoned :
    let source := "(?$x \"a\")\"b\"|(?$x \"a\")"
    let a : Expr := .node (.attr .text (.equality "a" false))
    let b : Expr := .node (.attr .text (.equality "b" false))
    let root : Expr := .choice [.sequence [.group a (some 1) (some "x"), b],
      .group a (some 2) (some "x")]
    let s : Search := {
      pattern := .build source root [("x", 1), ("x", 2)] 3
      elements := #[⟨"a", fun _ => none⟩] }
    s.pattern.Compiled ∧ ¬ root.Repeats "x" ∧
    (s.session [.find]).map (fun f => f.found.map fun m =>
        (m.groupSpan (.index 1), m.groupSpan (.index 2), m.varSpan "x")) =
      [[(.ok none, .ok (some ⟨0, 1⟩), some ⟨0, 1⟩)]] ∧
    ∀ f ∈ s.session [.find], ∀ m, f.Reports m →
      (∀ i ∈ m.names.ids "x", ∀ j ∈ m.names.ids "x", m.TakesPart i → m.TakesPart j → i = j) ∧
      ∀ names : GroupNames, names.Perm m.names →
        { m with names }.varSpan "x" = m.varSpan "x" := by
  intro source a b root s
  have hcompiled : s.pattern.Compiled := by
    have hls : lexemes source = .ok [⟨.namedGroup "x", 0⟩, ⟨.str "a", 5⟩, ⟨.rparen, 8⟩,
        ⟨.str "b", 9⟩, ⟨.pipe, 12⟩, ⟨.namedGroup "x", 13⟩, ⟨.str "a", 18⟩, ⟨.rparen, 21⟩,
        ⟨.eof, 22⟩] := by decide +kernel
    have h : compileAll {} [source] = .ok s.pattern := by
      simp only [compileAll, readSources, hls]
      cbv
    exact .compileAll (fun _ _ h => by cases h) h
  have hleaf (p : NodePattern) : ¬ (Expr.node p).Repeats "x" :=
    Expr.not_repeats_of_children_eq_nil rfl
  have hgroup (id : Nat) : ¬ (Expr.group a (some id) (some "x")).Repeats "x" := by
    rw [Expr.repeats_iff]
    simp [Expr.children, a, hleaf]
  have hsequence : ¬ (Expr.sequence [.group a (some 1) (some "x"), b]).Repeats "x" := by
    rw [Expr.repeats_iff]
    simp [Expr.children, b, hleaf, hgroup]
  have hloop : ¬ root.Repeats "x" := by
    rw [Expr.repeats_iff]
    simp [Expr.children, root, hgroup, hsequence]
  exact ⟨hcompiled, hloop, by cbv, named_captures_unambiguous hcompiled hloop _⟩

end Search

end Motif
