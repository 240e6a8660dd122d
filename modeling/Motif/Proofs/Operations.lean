import Motif.Proofs.Attempt
import Motif.Search

/-!
# Operations of a search

An operation tries start positions. What it answers depends on the pattern, on the sequence and on
the options, and without a limit it is told by each position alone.

* `Search.Alike`: searches for one pattern in one sequence, wherever their cursors are.
* `Search.attempts_result_cons`: the first position that has an answer decides.
* `Search.exists_of_attempts`: a match comes from a path of the pattern.
* `Search.exists_error_of_attempts`: without a limit, a failure comes from a path as well.
* `Search.find_search_of_some`, `Search.find_search_of_none`: the search after an operation.
* `Search.exists_of_find`, `Search.cursorAfter_bounds`: where the next match is, and the one after.
* **`Search.operations_end`**: without a limit every operation comes to an end of its own.
-/

namespace Motif

namespace Match

/-- A match under another number. -/
def numbered (m : Match) (k : Nat) : Match := { m with order := k }

/-- Behind the match: at its end, and one position further if the match is empty. -/
def behind (m : Match) : Nat := if m.span.isEmpty then m.span.stop + 1 else m.span.stop

theorem behind_bounds {m : Match} (h : m.span.start ≤ m.span.stop) :
    m.span.start < m.behind ∧ m.span.stop ≤ m.behind ∧ m.behind ≤ m.span.stop + 1 := by
  unfold behind Span.isEmpty
  by_cases he : m.span.start = m.span.stop
  · simp only [he, beq_self_eq_true, if_true]
    omega
  · simp only [beq_eq_false_iff_ne.2 he, Bool.false_eq_true, if_false]
    omega

end Match

namespace Search

theorem tryAll_cons (s : Search) (stop : Option Nat) (n : Nat) (a : Account) (b : Buffers)
    (p : Nat) (ps : List Nat) :
    s.tryAll stop n a b (p :: ps) =
      let r := s.pattern.attempt s.elements s.render stop s.options.maxSteps a p
      match r.outcome with
      | some (.accepted stop' store) =>
        ⟨.ok (some (⟨p, stop'⟩, store)), n + 1, r.account, r.buffers⟩
      | some .rejected => s.tryAll stop (n + 1) r.account r.buffers ps
      | some (.failed e) => ⟨.error (.predicate e), n + 1, r.account, r.buffers⟩
      | none => ⟨.error (.stepLimit (s.options.maxSteps.getD 0)), n + 1, r.account, r.buffers⟩ := by
  rw [← Pattern.attempt_eq stop s.options.maxSteps a p b]
  rfl

/-- Searches for one pattern in one sequence with the same options. -/
structure Alike (s s' : Search) : Prop where
  pattern_eq : s.pattern = s'.pattern
  elements_eq : s.elements = s'.elements
  options_eq : s.options = s'.options
  render_eq : s.render = s'.render

namespace Alike

variable {s s' s'' : Search}

theorem refl (s : Search) : s.Alike s := ⟨rfl, rfl, rfl, rfl⟩

theorem trans (h : s.Alike s') (h' : s'.Alike s'') : s.Alike s'' :=
  ⟨h.1.trans h'.1, h.2.trans h'.2, h.3.trans h'.3, h.4.trans h'.4⟩

theorem length_eq (h : s.Alike s') : s.length = s'.length := by rw [length, length, h.elements_eq]

theorem cursorAfter_eq (h : s.Alike s') (m : Match) : s.cursorAfter m = s'.cursorAfter m := by
  rw [cursorAfter, cursorAfter, h.options_eq]

theorem result_eq (h : s.Alike s') (span : Span) (store : Store) :
    s.result span store = (s'.result span store).numbered s.produced := by
  simp only [result, Match.numbered, h.pattern_eq, h.elements_eq, h.render_eq]

theorem tryAll_eq (h : s.Alike s') (stop : Option Nat) (n : Nat) (a : Account) (b b' : Buffers)
    (ps : List Nat) :
    (s.tryAll stop n a b ps).result = (s'.tryAll stop n a b' ps).result ∧
      (s.tryAll stop n a b ps).attempts = (s'.tryAll stop n a b' ps).attempts ∧
      (s.tryAll stop n a b ps).account = (s'.tryAll stop n a b' ps).account := by
  induction ps generalizing n a b b' with
  | nil => exact ⟨rfl, rfl, rfl⟩
  | cons p ps ih =>
    rw [tryAll_cons, tryAll_cons, h.pattern_eq, h.elements_eq, h.options_eq, h.render_eq]
    dsimp only
    split
    · exact ⟨rfl, rfl, rfl⟩
    · exact ih _ _ _ _
    · exact ⟨rfl, rfl, rfl⟩
    · exact ⟨rfl, rfl, rfl⟩

end Alike

variable (s : Search)

/-! ## Trying positions -/

section Trying

variable {s} {stop : Option Nat} {n : Nat} {a : Account} {b : Buffers} {p : Nat} {ps : List Nat}

theorem mem_pathsFrom_of_tryAll {span : Span} {store : Store}
    (h : (s.tryAll stop n a b ps).result = .ok (some (span, store))) :
    span.start ∈ ps ∧ span.start ≤ span.stop ∧ (span.start ≤ s.length → span.stop ≤ s.length) ∧
      .ok ⟨span.stop, store.slots, store.trail⟩ ∈
        s.pattern.pathsFrom s.elements s.render span.start := by
  induction ps generalizing n a b with
  | nil => cases h
  | cons p ps ih =>
    rw [tryAll_cons] at h
    dsimp only at h
    split at h
    · next ho =>
      cases h
      have := Pattern.stop_of_attempt ho
      exact ⟨List.mem_cons_self, this.1, this.2, Pattern.mem_pathsFrom_of_attempt ho⟩
    · exact ⟨List.mem_cons_of_mem _ (ih h).1, (ih h).2⟩
    · cases h
    · cases h

variable (hs : s.options.maxSteps = none)

include hs

theorem tryAll_result : (s.tryAll stop n a b ps).result = (s.tryAll stop 0 {} {} ps).result := by
  induction ps generalizing n a b with
  | nil => rfl
  | cons p ps ih =>
    obtain ⟨o, ho⟩ := s.pattern.exists_outcome s.elements s.render stop p
    rw [tryAll_cons, tryAll_cons, hs]
    simp only [ho]
    cases o with
    | accepted => rfl
    | rejected => exact ih.trans ih.symm
    | failed => rfl

theorem tryAll_result_cons :
    (s.tryAll stop 0 {} b (p :: ps)).result =
      match (s.tryAll stop 0 {} b [p]).result with
      | .ok none => (s.tryAll stop 0 {} b ps).result
      | r => r := by
  obtain ⟨o, ho⟩ := s.pattern.exists_outcome s.elements s.render stop p
  rw [tryAll_cons, tryAll_cons, hs]
  simp only [ho]
  cases o with
  | accepted => rfl
  | rejected => exact (tryAll_result hs).trans (tryAll_result hs).symm
  | failed => rfl

theorem exists_error_of_tryAll {e : MatchError} (h : (s.tryAll stop n a b ps).result = .error e) :
    ∃ p ∈ ps, ∃ err, e = .predicate err ∧
      .error err ∈ s.pattern.pathsFrom s.elements s.render p := by
  induction ps generalizing n a b with
  | nil => cases h
  | cons p ps ih =>
    obtain ⟨o, ho⟩ := s.pattern.exists_outcome s.elements s.render stop p
    rw [tryAll_cons, hs] at h
    simp only [ho] at h
    cases o with
    | accepted => cases h
    | rejected =>
      obtain ⟨q, hq, hr⟩ := ih h
      exact ⟨q, List.mem_cons_of_mem _ hq, hr⟩
    | failed err =>
      cases h
      exact ⟨p, List.mem_cons_self, err, rfl, Pattern.error_mem_of_attempt (ho {})⟩

end Trying

/-! ## Answers -/

section Answers

variable (stop : Option Nat) (ps : List Nat)

theorem conclude_result (t : Tried) :
    (s.conclude t).result = t.result.map (Option.map fun x => s.result x.1 x.2) := by
  unfold conclude
  dsimp only
  split
  · next e h => rw [h]; rfl
  · next h => rw [h]; rfl
  · next span store h => rw [h]; rfl

theorem conclude_events (t : Tried) :
    (s.conclude t).events = t.account.calls.toList.map Event.called ++
      match t.result with
      | .ok (some (span, store)) => (Note.actions store.trail.toList).map fun (action, group) =>
          Event.fired action group (s.result span store)
      | _ => [] := by
  unfold conclude
  dsimp only
  split
  · next e h => rw [h, List.append_nil]
  · next h => rw [h, List.append_nil]
  · next span store h => rw [h]; rfl

theorem alike_conclude (t : Tried) : (s.conclude t).search.Alike s := by
  unfold conclude
  dsimp only
  split <;> exact ⟨rfl, rfl, rfl, rfl⟩

theorem attempts_result : (s.attempts stop ps).result =
    (s.tryAll stop 0 {} s.buffers ps).result.map (Option.map fun x => s.result x.1 x.2) :=
  s.conclude_result _

theorem attempts_events : (s.attempts stop ps).events =
    (s.tryAll stop 0 {} s.buffers ps).account.calls.toList.map Event.called ++
      match (s.tryAll stop 0 {} s.buffers ps).result with
      | .ok (some (span, store)) => (Note.actions store.trail.toList).map fun (action, group) =>
          Event.fired action group (s.result span store)
      | _ => [] :=
  s.conclude_events _

theorem alike_attempts : (s.attempts stop ps).search.Alike s := s.alike_conclude _

variable {s stop ps} {m : Match}

theorem attempts_search_of_none (h : (s.attempts stop ps).result = .ok none) :
    (s.attempts stop ps).search.produced = s.produced ∧
      (s.attempts stop ps).search.metrics.found = s.metrics.found := by
  unfold attempts conclude at h ⊢
  dsimp only at h ⊢
  split at h
  · cases h
  · exact ⟨rfl, rfl⟩
  · cases h

theorem attempts_search_of_some (h : (s.attempts stop ps).result = .ok (some m)) :
    (s.attempts stop ps).search.produced = s.produced + 1 ∧
      (s.attempts stop ps).search.metrics.found = s.metrics.found + 1 ∧
      (s.attempts stop ps).search.exhausted = s.exhausted := by
  unfold attempts conclude at h ⊢
  dsimp only at h ⊢
  split at h
  · cases h
  · cases h
  · exact ⟨rfl, rfl, rfl⟩

@[simp] theorem span_result (span : Span) (store : Store) : (s.result span store).span = span := rfl

/-- **A match comes from a path of the pattern**, which starts at one of the positions. -/
theorem exists_of_attempts (h : (s.attempts stop ps).result = .ok (some m)) :
    ∃ store, m = s.result m.span store ∧ m.span.start ∈ ps ∧ m.span.start ≤ m.span.stop ∧
      (m.span.start ≤ s.length → m.span.stop ≤ s.length) ∧
      .ok ⟨m.span.stop, store.slots, store.trail⟩ ∈
        s.pattern.pathsFrom s.elements s.render m.span.start := by
  rw [attempts_result] at h
  cases hr : (s.tryAll stop 0 {} s.buffers ps).result with
  | error e => rw [hr] at h; cases h
  | ok x =>
    obtain _ | ⟨span, store⟩ := x
    · rw [hr] at h; cases h
    · rw [hr] at h
      cases h
      exact ⟨store, rfl, mem_pathsFrom_of_tryAll hr⟩

theorem Alike.attempts_result_eq {s' : Search} (h : s.Alike s') :
    (s.attempts stop ps).result =
      (s'.attempts stop ps).result.map (Option.map (·.numbered s.produced)) := by
  rw [attempts_result, attempts_result, (h.tryAll_eq stop 0 {} s.buffers s'.buffers ps).1]
  cases (s'.tryAll stop 0 {} s'.buffers ps).result with
  | error e => rfl
  | ok x =>
    obtain _ | x := x
    · rfl
    · exact congrArg (fun m => Except.ok (some m)) (h.result_eq x.1 x.2)

variable {p : Nat} (hs : s.options.maxSteps = none)

include hs

/-- **The first position that has an answer decides.** -/
theorem attempts_result_cons :
    (s.attempts stop (p :: ps)).result =
      match (s.attempts stop [p]).result with
      | .ok none => (s.attempts stop ps).result
      | r => r := by
  simp only [attempts_result]
  rw [tryAll_result_cons hs]
  generalize (s.tryAll stop 0 {} s.buffers [p]).result = r
  obtain e | _ | x := r <;> rfl

/-- **Without a limit a failure is that of a function of the caller**, on a path from one of the
positions on. -/
theorem exists_error_of_attempts {e : MatchError} (h : (s.attempts stop ps).result = .error e) :
    ∃ p ∈ ps, ∃ err, e = .predicate err ∧
      .error err ∈ s.pattern.pathsFrom s.elements s.render p := by
  rw [attempts_result] at h
  cases hr : (s.tryAll stop 0 {} s.buffers ps).result with
  | error e' =>
    rw [hr] at h
    cases h
    exact exists_error_of_tryAll hs hr
  | ok x => rw [hr] at h; cases h

end Answers

/-! ## Finding the next match -/

section Find

variable {s} {m : Match}

theorem find_of_exhausted (h : s.exhausted = true) : s.find = ⟨.error .exhausted, s, []⟩ := by
  rw [find, if_pos h]

theorem find_result (h : s.exhausted = false) :
    s.find.result = (s.attempts none (List.range' s.cursor (s.length + 1 - s.cursor))).result := by
  unfold find settle
  rw [if_neg (by rw [h]; exact Bool.false_ne_true)]
  dsimp only
  split
  · rfl
  · next hr => rw [hr]
  · next m hr => rw [hr]

theorem find_events (h : s.exhausted = false) :
    s.find.events = (s.attempts none (List.range' s.cursor (s.length + 1 - s.cursor))).events := by
  unfold find settle
  rw [if_neg (by rw [h]; exact Bool.false_ne_true)]
  dsimp only
  split <;> rfl

theorem find_search (h : s.exhausted = false) :
    s.find.search =
      let a := s.attempts none (List.range' s.cursor (s.length + 1 - s.cursor))
      match a.result with
      | .error _ => a.search
      | .ok none => { a.search with exhausted := true }
      | .ok (some m) => { a.search with cursor := s.cursorAfter m } := by
  unfold find settle
  rw [if_neg (by rw [h]; exact Bool.false_ne_true)]
  generalize s.attempts none (List.range' s.cursor (s.length + 1 - s.cursor)) = a
  obtain ⟨e | _ | m, _, _⟩ := a <;> rfl

theorem alike_find (s : Search) : s.find.search.Alike s := by
  by_cases hx : s.exhausted = true
  · rw [find_of_exhausted hx]
    exact .refl s
  · have h := s.alike_attempts none (List.range' s.cursor (s.length + 1 - s.cursor))
    rw [find_search (by simpa using hx)]
    dsimp only
    split <;> exact ⟨h.1, h.2, h.3, h.4⟩

theorem exhausted_of_find {x : Option Match} (hr : s.find.result = .ok x) :
    s.exhausted = false := by
  by_contra hx
  rw [find_of_exhausted (by simpa using hx)] at hr
  cases hr

theorem find_search_of_none (hr : s.find.result = .ok none) :
    s.find.search.Alike s ∧ s.find.search.exhausted = true ∧
      s.find.search.produced = s.produced ∧ s.find.search.metrics.found = s.metrics.found := by
  have h := exhausted_of_find hr
  rw [find_result h] at hr
  have hm := attempts_search_of_none hr
  have ha := s.alike_attempts none (List.range' s.cursor (s.length + 1 - s.cursor))
  rw [find_search h]
  dsimp only
  rw [hr]
  exact ⟨⟨ha.1, ha.2, ha.3, ha.4⟩, rfl, hm⟩

theorem find_search_of_some (hr : s.find.result = .ok (some m)) :
    s.find.search.Alike s ∧ s.find.search.exhausted = false ∧
      s.find.search.cursor = s.cursorAfter m ∧ s.find.search.produced = s.produced + 1 ∧
      s.find.search.metrics.found = s.metrics.found + 1 := by
  have h := exhausted_of_find hr
  rw [find_result h] at hr
  have hm := attempts_search_of_some hr
  have ha := s.alike_attempts none (List.range' s.cursor (s.length + 1 - s.cursor))
  rw [find_search h]
  dsimp only
  rw [hr]
  exact ⟨⟨ha.1, ha.2, ha.3, ha.4⟩, hm.2.2.trans h, rfl, hm.1, hm.2.1⟩

/-- **The next match** is found at or behind the cursor, with or without a limit. -/
theorem exists_of_find (hr : s.find.result = .ok (some m)) : ∃ store, m = s.result m.span store ∧
    s.cursor ≤ m.span.start ∧ m.span.start ≤ m.span.stop ∧ m.span.stop ≤ s.length ∧
    .ok ⟨m.span.stop, store.slots, store.trail⟩ ∈
      s.pattern.pathsFrom s.elements s.render m.span.start := by
  rw [find_result (exhausted_of_find hr)] at hr
  obtain ⟨store, hm, hstart, hle, hlen, hpath⟩ := exists_of_attempts hr
  rw [List.mem_range'_1] at hstart
  exact ⟨store, hm, hstart.1, hle, hlen (by omega), hpath⟩

theorem cursorAfter_disjoint (h : s.options.findType = .disjoint) :
    s.cursorAfter = Match.behind := by
  funext m
  simp only [cursorAfter, h]
  rfl

theorem cursorAfter_everyStart (h : s.options.findType = .everyStart) :
    s.cursorAfter = fun m => m.span.start + 1 := by
  funext m
  simp only [cursorAfter, h]

theorem cursorAfter_bounds (s : Search) (h : m.span.start ≤ m.span.stop) :
    m.span.start < s.cursorAfter m ∧ s.cursorAfter m ≤ m.span.stop + 1 := by
  cases ht : s.options.findType with
  | disjoint =>
    rw [cursorAfter_disjoint ht]
    exact ⟨(Match.behind_bounds h).1, (Match.behind_bounds h).2.2⟩
  | everyStart =>
    rw [cursorAfter_everyStart ht]
    dsimp only
    omega

theorem matchAt_of_le {p : Nat} (h : p ≤ s.length) : s.matchAt p = s.attempts none [p] := by
  rw [matchAt, if_neg (by omega)]

section Failures

variable (hs : s.options.maxSteps = none) {p : Nat} {e : MatchError}

include hs

theorem error_of_attempts {stop : Option Nat} {ps : List Nat}
    (h : (s.attempts stop ps).result = .error e) : ∃ err, e = .predicate err := by
  obtain ⟨_, _, err, he, _⟩ := exists_error_of_attempts hs h
  exact ⟨err, he⟩

theorem error_of_find (h : s.find.result = .error e) :
    e = .exhausted ∨ ∃ err, e = .predicate err := by
  by_cases hx : s.exhausted = true
  · rw [find_of_exhausted hx] at h
    cases h
    exact .inl rfl
  · rw [find_result (by simpa using hx)] at h
    exact .inr (error_of_attempts hs h)

theorem error_of_findFrom (h : (s.findFrom p).result = .error e) :
    e = .positionOutOfRange p s.length ∨ e = .exhausted ∨ ∃ err, e = .predicate err := by
  by_cases hp : s.length < p
  · rw [findFrom, if_pos hp] at h
    cases h
    exact .inl rfl
  · rw [findFrom, if_neg hp] at h
    exact .inr (error_of_find (s := { s with cursor := p, exhausted := false }) hs h)

theorem error_of_matchAt (h : (s.matchAt p).result = .error e) :
    e = .positionOutOfRange p s.length ∨ ∃ err, e = .predicate err := by
  by_cases hp : s.length < p
  · rw [matchAt, if_pos hp] at h
    cases h
    exact .inl rfl
  · rw [matchAt_of_le (by omega)] at h
    exact .inr (error_of_attempts hs h)

end Failures

end Find

/-! ## Operations end -/

/-- **Runs end after finitely many steps, and without a limit no operation is cut off**, whatever
the pattern. -/
theorem operations_end :
    (∀ stop start, ∃ n o,
      let t := s.pattern.task s.elements s.render stop
      let c := s.pattern.entry start
      t.after n c = .finished o ∧ (∀ m < n, ∃ c', t.after m c = .running c') ∧
        ∀ a, let r := s.pattern.attempt s.elements s.render stop none a start
          r.outcome = some o ∧ r.account.steps = a.steps + n) ∧
    (s.options.maxSteps = none → ∀ limit pos,
      s.find.result ≠ .error (.stepLimit limit) ∧
        (s.findFrom pos).result ≠ .error (.stepLimit limit) ∧
        s.matchWhole.result ≠ .error (.stepLimit limit) ∧
        (s.matchAt pos).result ≠ .error (.stepLimit limit)) := by
  constructor
  · intro stop start
    obtain ⟨o, ho, -⟩ := s.pattern.finds_entry s.elements s.render stop start
    obtain ⟨n, hn, hlt⟩ := ho.exists_after
    exact ⟨n, o, hn, hlt, fun a => ho.run hn hlt _⟩
  · intro hs limit pos
    refine ⟨fun h => ?_, fun h => ?_, fun h => ?_, fun h => ?_⟩
    · obtain h | ⟨_, h⟩ := error_of_find hs h <;> cases h
    · obtain h | h | ⟨_, h⟩ := error_of_findFrom hs h <;> cases h
    · obtain ⟨_, h⟩ := error_of_attempts hs h
      cases h
    · obtain h | ⟨_, h⟩ := error_of_matchAt hs h <;> cases h

end Search

end Motif
