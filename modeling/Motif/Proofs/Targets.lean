import Motif.Proofs.Actions

/-!
# Actions on named groups

An action clause may name the group that its action is fired on. The name is looked up once, when
the pattern is compiled, and stands for its first group. A match looks a name up among the groups
that took part. Where a name stands for groups in several alternatives, the two may differ.

* `Match.TakesPart`: a group took part in a match.
* `Match.groupSpan_eq_varSpan_iff`: when the first group of a name has the span of the name.
* `Numbering.ids_of_target`: what a name in a clause is resolved to.
* **`Search.named_target_acts`**: what an action that names its group is given.
* `Search.named_target_misses_alternative`: another alternative took part.
-/

namespace Motif

/-! ## Groups of a name -/

namespace Match

variable {m : Match} {name : String} {g : Nat} {ids : List Nat}

/-- A group took part in a match. -/
def TakesPart (m : Match) (id : Nat) : Prop := ∃ t, m.groupSpan (.index id) = .ok (some t)

theorem groupSpan_of_lt {id : Nat} (h : id < m.groupCount) :
    m.groupSpan (.index id) = .ok m.spans[id]?.join := by
  rw [groupSpan, List.getElem?_eq_getElem h]
  rfl

theorem takesPart_iff {id : Nat} (h : id < m.groupCount) :
    m.TakesPart id ↔ m.spans[id]?.join ≠ none := by
  rw [TakesPart, groupSpan_of_lt h, Option.ne_none_iff_exists']
  simp only [Except.ok.injEq]

/-- **The first group of a name has the span of the name** if it took part, or if none of the other
groups did. -/
theorem groupSpan_eq_varSpan_iff (hids : m.names.ids name = g :: ids)
    (hlt : ∀ id ∈ m.names.ids name, id < m.groupCount) :
    m.groupSpan (.index g) = .ok (m.varSpan name) ↔
      m.TakesPart g ∨ ∀ id ∈ ids, ¬ m.TakesPart id := by
  rw [hids] at hlt
  have hg : g < m.groupCount := hlt g List.mem_cons_self
  have hothers : (∀ id ∈ ids, ¬ m.TakesPart id) ↔
      ids.findSome? (fun id => m.spans[id]?.join) = none := by
    rw [List.findSome?_eq_none_iff]
    refine forall₂_congr fun id hid => ?_
    rw [takesPart_iff (hlt id (List.mem_cons_of_mem g hid)), not_not]
  rw [groupSpan_of_lt hg, takesPart_iff hg, hothers, varSpan, hids, List.findSome?_cons,
    Except.ok.injEq]
  cases m.spans[g]?.join with
  | none => simp [eq_comm]
  | some t => simp

end Match

theorem Numbering.ids_of_target {st : Numbering} {c : ActionClause} {name : String} {g : Nat}
    (hname : c.target = .name name) (h : st.target c = .ok g) :
    ∃ ids, st.names.ids name = g :: ids := by
  rw [target, hname] at h
  dsimp only at h
  split at h
  · next g' ids hids =>
    refine ⟨ids, ?_⟩
    obtain ⟨_, hpure, h⟩ := exists_of_bind_eq_ok h
    cases hpure
    split at h
    · cases h
    · cases h
      exact hids
  · cases h

theorem Pattern.Numbered.lt_of_mem_ids {p : Pattern} (hp : p.Numbered) {name : String} {id : Nat}
    (h : id ∈ p.names.ids name) : id < p.groupCount := by
  rw [GroupNames.ids, hp.names] at h
  obtain ⟨⟨name', id⟩, hb, rfl⟩ := List.mem_map.1 h
  obtain ⟨⟨id, name?⟩, hgroup, hname⟩ := List.mem_filterMap.1 (List.mem_of_mem_filter hb)
  obtain ⟨name', -, heq⟩ := Option.map_eq_some_iff.1 hname
  cases heq
  have hmem : id ∈ p.root.groups.map (·.1) := List.mem_map_of_mem hgroup
  rw [hp.groups, List.mem_range'_1] at hmem
  have := hp.groupCount_pos
  omega

namespace Search

variable {s : Search}

theorem names_of_mem_session {ops : List Operation} {f : Finds} (hf : f ∈ s.session ops)
    {m : Match} (hm : m ∈ f.found) : m.names = s.pattern.names := by
  obtain ⟨s', start, q, hpattern, rfl, -⟩ := exists_report_of_mem_session hf (.inl hm)
  rw [← hpattern]
  rfl

/-- **An action that names its group is given the first group of that name**, which may not have the
span of the name. -/
theorem named_target_acts {env : Environment} {sources : List String} {p : Pattern}
    (henv : ∀ name q, env.pattern? name = some (.compiled q) → q.Compiled)
    (h : compileAll env sources = .ok p) {r : Sources} (hr : readSources env {} sources = .ok r)
    {c : ActionClause} (hc : r.clause = some c) {name : String} (hname : c.target = .name name)
    (score : Binary64) (hs : s.pattern = p.withScore score) (ops : List Operation) :
    ∃ g ids, p.names.ids name = g :: ids ∧ ∀ f ∈ s.session ops,
      f.fired = f.found.map (fun m => (c.action, g, m)) ∧
      ∀ m ∈ f.found, (∃ t, m.groupSpan (.index g) = .ok t) ∧
        (m.groupSpan (.index g) = .ok (m.varSpan name) ↔
          m.TakesPart g ∨ ∀ id ∈ ids, ¬ m.TakesPart id) := by
  have hp := Pattern.numbered_of_compileAll (fun name q hq => (henv name q hq).numbered) h
  obtain ⟨r', hr', -, hnames, -⟩ := exists_sources_of_compileAll h
  obtain ⟨r'', hr'', hclause⟩ := exists_clause_of_compileAll henv h
  obtain rfl : r = r' := by simpa [hr] using hr'
  obtain rfl : r = r'' := by simpa [hr] using hr''
  obtain ⟨hnone, -⟩ | ⟨c', g, hc', htarget, haction⟩ := hclause
  · rw [hnone] at hc
    cases hc
  · obtain rfl : c' = c := by simpa [hc'] using hc
    obtain ⟨ids, hids⟩ := Numbering.ids_of_target hname htarget
    rw [← hnames] at hids
    refine ⟨g, ids, hids, fun f hf => ⟨?_, fun m hm => ?_⟩⟩
    · have honce := firesOnce_of_mem_session (hs ▸ hp.body) hf
      rw [Finds.FiresOnce, hs] at honce
      rw [honce]
      change f.found.flatMap (·.firings p.trailingAction?) = _
      rw [haction]
      exact List.map_eq_flatMap.symm
    · have hsound := sound_of_mem_session (hs ▸ hp.groupCount_pos) hf (.inl hm)
      have hmnames : m.names = p.names := by
        rw [names_of_mem_session hf hm, hs]
        rfl
      have hlt : ∀ id ∈ m.names.ids name, id < m.groupCount := by
        intro id hid
        rw [hsound.groupCount_eq, hs]
        exact hp.lt_of_mem_ids (hmnames ▸ hid)
      have hg : g < m.groupCount := hlt g (by rw [hmnames, hids]; exact List.mem_cons_self)
      exact ⟨⟨_, Match.groupSpan_of_lt hg⟩,
        Match.groupSpan_eq_varSpan_iff (by rw [hmnames, hids]) hlt⟩

end Search

/-- Two alternatives with one name, which the action clause names. -/
def Pattern.eitherMarked : Pattern :=
  .build "(?$x \"a\") | (?$x \"b\") => mark($x)"
    (.action (.choice [.group (.node (.attr .text (.equality "a" false))) (some 1) (some "x"),
      .group (.node (.attr .text (.equality "b" false))) (some 2) (some "x")]) "mark" 1)
    [("x", 1), ("x", 2)] 3

theorem lexemes_eitherMarked :
    lexemes "(?$x \"a\") | (?$x \"b\") => mark($x)" = .ok [⟨.namedGroup "x", 0⟩, ⟨.str "a", 5⟩,
      ⟨.rparen, 8⟩, ⟨.pipe, 10⟩, ⟨.namedGroup "x", 12⟩, ⟨.str "b", 17⟩, ⟨.rparen, 20⟩, ⟨.arrow, 22⟩,
      ⟨.ident "mark", 25⟩, ⟨.lparen, 29⟩, ⟨.var "x", 30⟩, ⟨.rparen, 32⟩, ⟨.eof, 33⟩] := by
  decide +kernel

theorem compileAll_eitherMarked : compileAll { actions := ["mark"] }
    ["(?$x \"a\") | (?$x \"b\") => mark($x)"] = .ok .eitherMarked := by
  simp only [compileAll, readSources, lexemes_eitherMarked]
  cbv

namespace Search

/-- Of two matches, the first one has its group in the second alternative. -/
theorem named_target_acts_of_alternatives :
    let s : Search := {
      pattern := .eitherMarked
      elements := #[⟨"b", fun _ => none⟩, ⟨"a", fun _ => none⟩] }
    (s.session [.find, .find]).map (fun f => f.found.map fun m =>
        (m.groupSpan (.index 1), m.varSpan "x")) =
      [[(.ok none, some ⟨0, 1⟩)], [(.ok (some ⟨1, 2⟩), some ⟨1, 2⟩)]] ∧
    ∃ g ids, Pattern.eitherMarked.names.ids "x" = g :: ids ∧ ∀ f ∈ s.session [.find, .find],
      f.fired = f.found.map (fun m => ("mark", g, m)) ∧
      ∀ m ∈ f.found, (∃ t, m.groupSpan (.index g) = .ok t) ∧
        (m.groupSpan (.index g) = .ok (m.varSpan "x") ↔
          m.TakesPart g ∨ ∀ id ∈ ids, ¬ m.TakesPart id) := by
  intro s
  have hclause : (readSources { actions := ["mark"] } {}
      ["(?$x \"a\") | (?$x \"b\") => mark($x)"]).map (·.clause) =
        .ok (some { action := "mark", target := .name "x", offset := 25 }) := by
    simp only [readSources, lexemes_eitherMarked]
    cbv
  obtain ⟨r, hr, -⟩ := exists_sources_of_compileAll compileAll_eitherMarked
  rw [hr] at hclause
  have hclause : r.clause = _ := Except.ok.inj hclause
  exact ⟨by cbv, named_target_acts (fun _ _ h => by cases h) compileAll_eitherMarked hr hclause rfl
    .zero rfl _⟩

/-- **An action that names its group may miss it**: the group of the first alternative did not take
part, the second one did. -/
theorem named_target_misses_alternative :
    compileAll { actions := ["mark"] } ["(?$x \"a\") | (?$x \"b\") => mark($x)"] =
      .ok .eitherMarked ∧
    let s : Search := { pattern := .eitherMarked, elements := #[⟨"b", fun _ => none⟩] }
    (Finds.ofAnswer s.find).fired.map (fun (action, g, m) =>
        (action, g, m.groupSpan (.index g), m.varSpan "x")) =
      [("mark", 1, .ok none, some ⟨0, 1⟩)] :=
  ⟨compileAll_eitherMarked, by cbv⟩

end Search

end Motif
