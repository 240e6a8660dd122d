import Motif.Proofs.Reports

/-!
# Actions

Actions are noted along a path and fire once the path is a match. A pattern that comes from texts
has one action at most, at its end: patterns that are copied into it leave theirs behind. So each
match fires this action once, and nothing else fires.

* `Path.actions_eq_of_moves`: moves through a tree without actions note none.
* **`Pattern.actions_of_mem_pathsFrom`**: a path through a pattern notes its trailing action.
* `Search.Finds.fired`, `Search.Finds.FiresOnce`: what fires, and that one action does for each
  match.
* `Search.firesOnce_of_comes`, `Search.firesOnce_of_mem_session`: it does in one operation, and in
  all operations of a session.
* `exists_clause_of_compileAll`: the trailing action is that of the clause.
* **`Search.actions_fire_once`**: what fires in the sessions of a compiled pattern.
-/

open Relation (ReflTransGen)

namespace Motif

/-! ## Actions along paths -/

namespace Note

@[simp] theorem actions_push_payload (notes : Array Note) (i : Nat) (v : Value) :
    actions (notes.push (.payload i v)).toList = actions notes.toList := by
  simp [actions]

@[simp] theorem actions_push_fire (notes : Array Note) (action : String) (target : Nat) :
    actions (notes.push (.fire action target)).toList =
      actions notes.toList ++ [(action, target)] := by
  simp [actions]

end Note

theorem Path.actions_eq_of_moves {gs : List Nat} {q r : Path}
    (h : ReflTransGen (Path.Move gs []) q r) :
    Note.actions r.notes.toList = Note.actions q.notes.toList := by
  induction h with
  | refl => rfl
  | tail _ hm ih =>
    rw [← ih]
    cases hm with
    | advance | openGroup | closeGroup => rfl
    | attach v => exact Note.actions_push_payload _ _ _
    | fire action h => cases h

namespace Pattern

variable {p : Pattern} {elements : Array Element} {render : List Element → String} {start : Nat}
  {q : Path}

theorem root_cases (p : Pattern) :
    p.root = p.body ∧ p.trailingAction? = none ∨
      ∃ action target, p.root = .action p.body action target ∧
        p.trailingAction? = some (action, target) := by
  unfold body trailingAction?
  split
  · next h => exact .inr ⟨_, _, h, rfl⟩
  · next h => exact .inl ⟨rfl, rfl⟩

/-- **A path through a pattern notes its trailing action**, and no other. -/
theorem actions_of_mem_pathsFrom (hp : p.body.targets = [])
    (h : .ok q ∈ p.pathsFrom elements render start) :
    Note.actions q.notes.toList = p.trailingAction?.toList := by
  have hbody {r : Path}
      (hr : .ok r ∈ p.body.paths elements render true (Path.entry p.groupCount start)) :
      Note.actions r.notes.toList = [] :=
    Path.actions_eq_of_moves (hp ▸ p.body.moves_of_mem_paths true hr)
  rw [pathsFrom] at h
  obtain ⟨hroot, haction⟩ | ⟨action, target, hroot, haction⟩ := p.root_cases
  · rw [hroot] at h
    rw [haction, hbody h]
    rfl
  · rw [hroot, Expr.paths] at h
    obtain ⟨r, hr, hq⟩ := Trial.ok_mem_onward.1 h
    cases List.mem_singleton.1 hq
    rw [haction, Path.note, Note.actions_push_fire, hbody hr]
    rfl

end Pattern

/-! ## Actions that fire -/

/-- What fires for a match, if there is an action. -/
def Match.firings (m : Match) (action? : Option (String × Nat)) : List (String × Nat × Match) :=
  action?.toList.map fun (action, group) => (action, group, m)

/-- The action that fires, with its group and its match. -/
def Event.fired? : Event → Option (String × Nat × Match)
  | called _ => none
  | fired action group m => some (action, group, m)

namespace Search

/-- The actions that fire, in order, each with its group and its match. -/
def Finds.fired (f : Finds) : List (String × Nat × Match) := f.events.filterMap Event.fired?

/-- An action fires once for each match, in the order of the matches, and nothing else fires. -/
def Finds.FiresOnce (f : Finds) (action? : Option (String × Nat)) : Prop :=
  f.fired = f.found.flatMap (·.firings action?)

variable {s : Search}

theorem fired_attempts (stop : Option Nat) (ps : List Nat) :
    (s.attempts stop ps).events.filterMap Event.fired? =
      match (s.tryAll stop 0 {} s.buffers ps).result with
      | .ok (some (span, store)) => (Note.actions store.trail.toList).map fun (action, group) =>
          (action, group, s.result span store)
      | _ => [] := by
  have hcalls (calls : List Call) : (calls.map Event.called).filterMap Event.fired? = [] := by
    rw [List.filterMap_map]
    exact List.filterMap_eq_nil_iff.2 fun _ _ => rfl
  rw [attempts_events, List.filterMap_append, hcalls, List.nil_append]
  obtain e | _ | ⟨span, store⟩ := (s.tryAll stop 0 {} s.buffers ps).result
  · rfl
  · rfl
  · dsimp only
    rw [List.filterMap_map]
    exact congrFun List.filterMap_eq_map' _

section Once

variable (hp : s.pattern.body.targets = [])

include hp

theorem firesOnce_attempts (stop : Option Nat) (ps : List Nat) :
    (Finds.ofAnswer (s.attempts stop ps)).FiresOnce s.pattern.trailingAction? := by
  rw [Finds.FiresOnce, Finds.fired, Finds.ofAnswer, Answer.found, attempts_result, fired_attempts]
  cases hr : (s.tryAll stop 0 {} s.buffers ps).result with
  | error e => rfl
  | ok x =>
    obtain _ | ⟨span, store⟩ := x
    · rfl
    · have := Pattern.actions_of_mem_pathsFrom hp (mem_pathsFrom_of_tryAll hr).2.2.2
      dsimp only at this
      simp [Except.map, Match.firings, this]

/-- **In one operation the trailing action fires once for each match.** -/
theorem firesOnce_of_comes {f : Finds} (hf : f.Comes s) :
    f.FiresOnce s.pattern.trailingAction? := by
  obtain ⟨as, ht, hfound, hevents⟩ := hf
  rw [Finds.FiresOnce, Finds.fired, hfound, hevents, List.filterMap_flatMap, List.flatMap_assoc]
  refine List.flatMap_congr fun a ha => ?_
  obtain ⟨s', stop, ps, hpattern, -, -, rfl⟩ := ht.exists_of_mem ha
  exact hpattern ▸ firesOnce_attempts (hpattern ▸ hp) stop ps

theorem firesOnce_of_mem_session {ops : List Operation} {f : Finds} (hf : f ∈ s.session ops) :
    f.FiresOnce s.pattern.trailingAction? := by
  obtain ⟨s', hpattern, -, hf⟩ := comes_of_mem_session hf
  exact hpattern ▸ firesOnce_of_comes (hpattern ▸ hp) hf

end Once

end Search

/-! ## Actions of compiled patterns -/

/-- The trailing action of a pattern is that of the clause at the end of its texts. -/
theorem exists_clause_of_compileAll {env : Environment} {sources : List String} {p : Pattern}
    (henv : ∀ name q, env.pattern? name = some (.compiled q) → q.Compiled)
    (h : compileAll env sources = .ok p) :
    ∃ r, readSources env {} sources = .ok r ∧
      (r.clause = none ∧ p.trailingAction? = none ∨
        ∃ c target, r.clause = some c ∧ r.numbering.target c = .ok target ∧
          p.trailingAction? = some (c.action, target)) := by
  obtain ⟨r, hr, -, -, -, hroot⟩ := exists_sources_of_compileAll h
  refine ⟨r, hr, ?_⟩
  obtain ⟨hc, hroot⟩ | ⟨c, target, hc, ht, hroot⟩ := hroot
  · have htargets : p.root.targets = [] := by
      rw [hroot, Expr.targets_ofItems]
      exact ((reads_of_readSources hr (.nil {})).covers (fun name q hq => (henv name q hq).numbered)
        (Nat.le_refl 1)).targets
    refine .inl ⟨hc, Option.eq_none_iff_forall_ne_some.2 fun ⟨action, target⟩ ha => ?_⟩
    have := Pattern.mem_targets_of_trailingAction ha
    rw [htargets] at this
    cases this
  · exact .inr ⟨c, target, hc, ht, by rw [Pattern.trailingAction?, hroot]⟩

/-- **The action of a compiled pattern fires once for each match**, in their order, on the group
that its clause names. -/
theorem Search.actions_fire_once {env : Environment} {sources : List String} {p : Pattern}
    (henv : ∀ name q, env.pattern? name = some (.compiled q) → q.Compiled)
    (h : compileAll env sources = .ok p) (score : Binary64) (s : Search)
    (hs : s.pattern = p.withScore score) (ops : List Operation) :
    ∃ r, readSources env {} sources = .ok r ∧
      (∀ c, r.clause = some c → ∃ target, r.numbering.target c = .ok target ∧
        ∀ f ∈ s.session ops, f.fired = f.found.map fun m => (c.action, target, m)) ∧
      (r.clause = none → ∀ f ∈ s.session ops, f.fired = []) := by
  have hp := Pattern.numbered_of_compileAll (fun name q hq => (henv name q hq).numbered) h
  have honce {f : Finds} (hf : f ∈ s.session ops) : f.FiresOnce p.trailingAction? := by
    have := firesOnce_of_mem_session (hs ▸ hp.body) hf
    rwa [hs] at this
  obtain ⟨r, hr, ⟨hc, ha⟩ | ⟨c, target, hc, ht, ha⟩⟩ := exists_clause_of_compileAll henv h
  · refine ⟨r, hr, fun c hc' => ?_, fun _ f hf => ?_⟩
    · rw [hc] at hc'
      cases hc'
    · rw [honce hf, ha]
      exact List.flatMap_eq_nil_iff.2 fun _ _ => rfl
  · refine ⟨r, hr, fun c' hc' => ?_, fun hc' => ?_⟩
    · rw [hc] at hc'
      cases hc'
      refine ⟨target, ht, fun f hf => ?_⟩
      rw [honce hf, ha]
      exact List.map_eq_flatMap.symm
    · rw [hc] at hc'
      cases hc'

/-- A group around a word, with an action of its own. -/
def Pattern.marked : Pattern :=
  .build "(\"a\") => mark"
    (.action (.group (.node (.attr .text (.equality "a" false))) (some 1) none) "mark" 0) [] 2

theorem Pattern.compiled_marked : Pattern.marked.Compiled := by
  have hls : lexemes "(\"a\") => mark" = .ok [⟨.lparen, 0⟩, ⟨.str "a", 1⟩, ⟨.rparen, 4⟩,
      ⟨.arrow, 6⟩, ⟨.ident "mark", 9⟩, ⟨.eof, 13⟩] := by
    decide +kernel
  have h : Motif.compileAll { actions := ["mark"] } ["(\"a\") => mark"] = .ok marked := by
    simp only [Motif.compileAll, readSources, hls]
    cbv
  exact .compileAll (fun _ _ h => by cases h) h

/-- An environment in which a variable stands for a pattern with an action. -/
def Environment.withMarked : Environment :=
  { patterns := [("word", .compiled .marked)], actions := ["close"] }

theorem Environment.compiled_of_withMarked {name : String} {q : Pattern}
    (h : withMarked.pattern? name = some (.compiled q)) : q.Compiled := by
  rw [pattern?, withMarked, List.lookup_cons] at h
  split at h
  · cases h
    exact Pattern.compiled_marked
  · cases h

/-- The action of the whole pattern fires on the group of the copied one, whose own action is gone.
-/
theorem Search.actions_fire_once_of_copied :
    ∃ p, compileAll .withMarked ["$word", "\"b\" => close(1)"] = .ok p ∧
      let s : Search := {
        pattern := p
        elements := #[⟨"a", fun _ => none⟩, ⟨"b", fun _ => none⟩, ⟨"a", fun _ => none⟩] }
      let ops : List Operation := [.matchAt 1, .find, .matchWhole, .findAll none]
      (s.session ops).map (fun f => f.fired.map fun x => (x.1, x.2.1, x.2.2.span)) =
          [[], [("close", 1, ⟨0, 2⟩)], [], [("close", 1, ⟨0, 2⟩)]] ∧
        ∃ r, readSources .withMarked {} ["$word", "\"b\" => close(1)"] = .ok r ∧
          (∀ c, r.clause = some c → ∃ target, r.numbering.target c = .ok target ∧
            ∀ f ∈ s.session ops, f.fired = f.found.map fun m => (c.action, target, m)) ∧
          (r.clause = none → ∀ f ∈ s.session ops, f.fired = []) := by
  have h₁ : lexemes "$word" = .ok [⟨.var "word", 0⟩, ⟨.eof, 5⟩] := by decide +kernel
  have h₂ : lexemes "\"b\" => close(1)" = .ok [⟨.str "b", 0⟩, ⟨.arrow, 4⟩, ⟨.ident "close", 7⟩,
      ⟨.lparen, 12⟩, ⟨.number "1", 13⟩, ⟨.rparen, 14⟩, ⟨.eof, 15⟩] := by
    decide +kernel
  let p : Pattern := .build "$word \"b\" => close(1)"
    (.action (.sequence [.group (.node (.attr .text (.equality "a" false))) (some 1) none,
      .node (.attr .text (.equality "b" false))]) "close" 1) [] 2
  have h : compileAll .withMarked ["$word", "\"b\" => close(1)"] = .ok p := by
    simp only [compileAll, readSources, h₁, h₂]
    cbv
  exact ⟨p, h, by cbv, actions_fire_once (fun _ _ => Environment.compiled_of_withMarked) h .zero _
    rfl _⟩

end Motif
