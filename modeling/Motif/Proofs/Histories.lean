import Motif.Proofs.Reports

/-!
# Histories

What was asked of a search before, what it answered and what its runs left in the buffers does not
show in later answers, except for the place of the cursor and for the numbers of the matches.

* `Search.Told`, `Search.Finds.told`: what an operation tells, but for the numbers of matches.
* `Search.after`: a search after a history of operations.
* `Search.Abreast`: alike searches in one place.
* `Search.Alike.told_attempts`, `Search.Alike.told_perform`: alike searches tell the same.
* `Search.Abreast.perform`, `Search.Abreast.after`: searches that are abreast stay so, after one
  operation and after a history.
* `Search.abreast_perform_of_looksAside`: a look aside leaves a search where it is.
* `Search.Tries.order`, `Search.order_session`: the numbers of the matches.
* **`Search.histories_do_not_show`**: what a history leaves.
-/

namespace Motif

/-- What the caller is told, with any match under another number. -/
def Event.numbered (k : Nat) : Event → Event
  | called call => .called call
  | fired action group m => .fired action group (m.numbered k)

/-- An operation that asks for matches, or to search from the start again. The others change the
way of searching. -/
def Operation.asks : Operation → Bool
  | setOptions _ | setRender _ => false
  | _ => true

/-- An operation that asks for a match without moving the cursor. -/
def Operation.looksAside : Operation → Bool
  | matchWhole | matchAt _ => true
  | _ => false

namespace Search

/-- What an operation tells its caller. -/
structure Told where
  /-- The matches. -/
  found : List Match
  /-- The failure that ended it. -/
  error : Option MatchError
  /-- The calls of functions, and the actions that fire. -/
  events : List Event

/-- What an operation tells its caller, with all matches under the number 0. -/
def Finds.told (f : Finds) : Told :=
  ⟨f.found.map (·.numbered 0), f.error, f.events.map (·.numbered 0)⟩

/-- A search after operations. -/
def after (s : Search) (ops : List Operation) : Search :=
  ops.foldl (fun s op => (s.perform op).search) s

/-- Alike searches in one place: they look for the next match from the same position on. -/
structure Abreast (s s' : Search) : Prop extends s.Alike s' where
  cursor_eq : s.cursor = s'.cursor
  exhausted_eq : s.exhausted = s'.exhausted

variable {s s' s'' : Search}

@[simp] theorem after_nil (s : Search) : s.after [] = s := rfl

@[simp] theorem after_cons (s : Search) (op : Operation) (ops : List Operation) :
    s.after (op :: ops) = (s.perform op).search.after ops := rfl

namespace Alike

theorem symm (h : s.Alike s') : s'.Alike s := ⟨h.1.symm, h.2.symm, h.3.symm, h.4.symm⟩

variable (h : s.Alike s')

include h

/-- **Alike searches tell the same of positions that they try.** -/
theorem told_attempts (stop : Option Nat) (ps : List Nat) :
    (Finds.ofAnswer (s.attempts stop ps)).told = (Finds.ofAnswer (s'.attempts stop ps)).told := by
  obtain ⟨hr, -, ha⟩ := h.tryAll_eq stop 0 {} s.buffers s'.buffers ps
  simp only [Finds.told, Finds.ofAnswer, Answer.found, Answer.error?, attempts_result,
    attempts_events, hr, ha]
  obtain e | _ | ⟨span, store⟩ := (s'.tryAll stop 0 {} s'.buffers ps).result
  · rfl
  · rfl
  · simp only [Except.map, Option.map, h.result_eq, List.map_append, List.map_map]
    rfl

end Alike

namespace Abreast

theorem refl (s : Search) : s.Abreast s := ⟨.refl s, rfl, rfl⟩

theorem symm (h : s.Abreast s') : s'.Abreast s :=
  ⟨h.toAlike.symm, h.cursor_eq.symm, h.exhausted_eq.symm⟩

theorem trans (h : s.Abreast s') (h' : s'.Abreast s'') : s.Abreast s'' :=
  ⟨h.toAlike.trans h'.toAlike, h.cursor_eq.trans h'.cursor_eq,
    h.exhausted_eq.trans h'.exhausted_eq⟩

end Abreast

/-! ## One operation -/

theorem abreast_attempts (s : Search) (stop : Option Nat) (ps : List Nat) :
    (s.attempts stop ps).search.Abreast s := by
  unfold attempts conclude
  dsimp only
  split <;> exact ⟨⟨rfl, rfl, rfl, rfl⟩, rfl, rfl⟩

theorem told_find (h : s.exhausted = false) :
    (Finds.ofAnswer s.find).told =
      (Finds.ofAnswer (s.attempts none (List.range' s.cursor (s.length + 1 - s.cursor)))).told := by
  simp only [Finds.told, Finds.ofAnswer, Answer.found, Answer.error?, find_result h, find_events h]

theorem find_place (s : Search) :
    s.find.search.cursor =
        (match s.find.result with
        | .ok (some m) => s.cursorAfter m
        | _ => s.cursor) ∧
      s.find.search.exhausted =
        match s.find.result with
        | .ok m => m.isNone
        | .error _ => s.exhausted := by
  by_cases hx : s.exhausted = true
  · rw [find_of_exhausted hx]
    exact ⟨rfl, rfl⟩
  · have hx : s.exhausted = false := by simpa using hx
    have h := s.abreast_attempts none (List.range' s.cursor (s.length + 1 - s.cursor))
    rw [find_search hx, find_result hx]
    dsimp only
    obtain e | _ | m := (s.attempts none (List.range' s.cursor (s.length + 1 - s.cursor))).result
    · exact ⟨h.cursor_eq, h.exhausted_eq⟩
    · exact ⟨h.cursor_eq, rfl⟩
    · exact ⟨rfl, h.exhausted_eq.trans hx⟩

namespace Abreast

variable (h : s.Abreast s')

include h

theorem find_result_eq :
    s.find.result = s'.find.result.map (Option.map (·.numbered s.produced)) := by
  by_cases hx : s.exhausted = true
  · rw [find_of_exhausted hx, find_of_exhausted (h.exhausted_eq ▸ hx)]
    rfl
  · have hx : s.exhausted = false := by simpa using hx
    rw [find_result hx, find_result (h.exhausted_eq ▸ hx), h.cursor_eq, h.length_eq]
    exact h.attempts_result_eq

/-- **Abreast, the next match is the same, and one stays abreast behind it.** -/
theorem find : (Finds.ofAnswer s.find).told = (Finds.ofAnswer s'.find).told ∧
    s.find.search.Abreast s'.find.search := by
  refine ⟨?_, (s.alike_find.trans h.toAlike).trans s'.alike_find.symm, ?_, ?_⟩
  · by_cases hx : s.exhausted = true
    · rw [find_of_exhausted hx, find_of_exhausted (h.exhausted_eq ▸ hx)]
      rfl
    · have hx : s.exhausted = false := by simpa using hx
      rw [told_find hx, told_find (h.exhausted_eq ▸ hx), h.cursor_eq, h.length_eq]
      exact h.told_attempts _ _
  · rw [s.find_place.1, s'.find_place.1, h.find_result_eq]
    obtain e | _ | m := s'.find.result
    · exact h.cursor_eq
    · exact h.cursor_eq
    · exact h.cursorAfter_eq _
  · rw [s.find_place.2, s'.find_place.2, h.find_result_eq]
    obtain e | _ | m := s'.find.result
    · exact h.exhausted_eq
    · rfl
    · rfl

theorem take (k : Nat) : (take k s).told = (take k s').told ∧
    (Search.take k s).search.Abreast (Search.take k s').search := by
  induction k generalizing s s' with
  | zero => exact ⟨rfl, h⟩
  | succ k ih =>
    obtain ⟨htold, hafter⟩ := h.find
    have hevents := congrArg Told.events htold
    have hr' := h.find_result_eq
    cases hr : s'.find.result with
    | error e =>
      rw [hr] at hr'
      rw [take_succ_of_error hr, take_succ_of_error hr']
      exact ⟨congrArg (Told.mk [] (some e)) hevents, hafter⟩
    | ok x =>
      rw [hr] at hr'
      obtain _ | m := x
      · rw [take_succ_of_none hr, take_succ_of_none hr']
        exact ⟨congrArg (Told.mk [] none) hevents, hafter⟩
      · obtain ⟨hrest, hend⟩ := ih hafter
        rw [take_succ_of_some hr, take_succ_of_some hr']
        refine ⟨?_, hend⟩
        simp only [Finds.told, Told.mk.injEq, List.map_cons, List.map_append] at hrest ⊢
        exact ⟨congrArg _ hrest.1, hrest.2.1, congrArg₂ _ hevents hrest.2.2⟩

end Abreast

theorem Alike.abreast_at (h : s.Alike s') (pos : Nat) :
    Abreast { s with cursor := pos, exhausted := false }
      { s' with cursor := pos, exhausted := false } :=
  ⟨⟨h.1, h.2, h.3, h.4⟩, rfl, rfl⟩

/-- **Alike searches tell the same**, unless they are asked for the next match. -/
theorem Alike.told_perform (h : s.Alike s') {op : Operation} (hop : op ≠ .find) :
    (s.perform op).told = (s'.perform op).told := by
  cases op with
  | find => exact absurd rfl hop
  | findFrom pos =>
    simp only [perform, findFrom, h.length_eq]
    split
    · rfl
    · exact (h.abreast_at pos).find.1
  | matchWhole =>
    simp only [perform, matchWhole, h.length_eq]
    exact h.told_attempts _ _
  | matchAt pos =>
    simp only [perform, matchAt, h.length_eq]
    split
    · rfl
    · exact h.told_attempts _ _
  | findAll bound =>
    cases bound with
    | none =>
      simp only [perform, findAll, h.length_eq]
      exact ((h.abreast_at 0).take _).1
    | some k =>
      simp only [perform, findFirst, h.length_eq]
      exact ((h.abreast_at 0).take _).1
  | reset | setOptions | setRender => rfl

/-- **Searches that are abreast tell the same and stay abreast**, whatever they are asked. -/
theorem Abreast.perform (h : s.Abreast s') (op : Operation) :
    (s.perform op).told = (s'.perform op).told ∧
      (s.perform op).search.Abreast (s'.perform op).search := by
  refine ⟨?_, ?_⟩
  · by_cases hop : op = .find
    · exact hop ▸ h.find.1
    · exact h.told_perform hop
  · have hat := h.abreast_at
    cases op with
    | find => exact h.find.2
    | findFrom pos =>
      simp only [Search.perform, findFrom, h.length_eq]
      split
      · exact h
      · exact (hat pos).find.2
    | matchWhole =>
      exact ((s.abreast_attempts _ _).trans h).trans (s'.abreast_attempts _ _).symm
    | matchAt pos =>
      simp only [Search.perform, matchAt, h.length_eq]
      split
      · exact h
      · exact ((s.abreast_attempts _ _).trans h).trans (s'.abreast_attempts _ _).symm
    | findAll bound =>
      cases bound with
      | none =>
        simp only [Search.perform, findAll, h.length_eq]
        exact ((hat 0).take _).2
      | some k =>
        simp only [Search.perform, findFirst, h.length_eq]
        exact ((hat 0).take _).2
    | reset => exact hat 0
    | setOptions options => exact ⟨⟨h.1.1, h.1.2, rfl, h.1.4⟩, h.2, h.3⟩
    | setRender render => exact ⟨⟨h.1.1, h.1.2, h.1.3, rfl⟩, h.2, h.3⟩

/-- **A look aside leaves the search where it is.** -/
theorem abreast_perform_of_looksAside {op : Operation} (hop : op.looksAside = true) :
    (s.perform op).search.Abreast s := by
  cases op with
  | matchWhole => exact s.abreast_attempts _ _
  | matchAt pos =>
    change (s.matchAt pos).search.Abreast s
    rw [matchAt]
    split
    · exact .refl s
    · exact s.abreast_attempts _ _
  | _ => cases hop

theorem alike_perform {op : Operation} (hop : op.asks = true) : (s.perform op).search.Alike s := by
  cases op with
  | find => exact s.alike_find
  | findFrom pos =>
    change (s.findFrom pos).search.Alike s
    rw [findFrom]
    split
    · exact .refl s
    · have h := alike_find { s with cursor := pos, exhausted := false }
      exact ⟨h.1, h.2, h.3, h.4⟩
  | matchWhole | matchAt => exact (abreast_perform_of_looksAside rfl).toAlike
  | findAll bound =>
    have h (k : Nat) := alike_take k s.reset
    cases bound <;> exact ⟨(h _).1, (h _).2, (h _).3, (h _).4⟩
  | reset => exact ⟨rfl, rfl, rfl, rfl⟩
  | setOptions | setRender => cases hop

/-! ## The numbers of matches -/

theorem order_attempts (s : Search) (stop : Option Nat) (ps : List Nat) :
    (s.attempts stop ps).found.map (·.order) =
        List.range' s.produced (s.attempts stop ps).found.length ∧
      (s.attempts stop ps).search.produced = s.produced + (s.attempts stop ps).found.length := by
  unfold attempts conclude
  dsimp only
  split <;> exact ⟨rfl, rfl⟩

/-- Matches that are found when positions are tried have consecutive numbers, and the search goes
on behind them. -/
theorem Tries.order {as : List Answer} (h : s.Tries as s') :
    (as.flatMap (·.found)).map (·.order) = List.range' s.produced (as.flatMap (·.found)).length ∧
      s'.produced = s.produced + (as.flatMap (·.found)).length := by
  induction h with
  | nil => exact ⟨rfl, rfl⟩
  | move h _ ih => rwa [h.produced_eq]
  | @attempt s s' as stop ps _ _ ih =>
    obtain ⟨horder, hproduced⟩ := s.order_attempts stop ps
    rw [hproduced] at ih
    rw [List.flatMap_cons, List.map_append, List.length_append, horder, ih.1, ih.2,
      List.range'_append_1]
    exact ⟨rfl, Nat.add_assoc _ _ _⟩

/-- **The matches of a session are numbered in the order in which they are found.** -/
theorem order_session (s : Search) (ops : List Operation) :
    ((s.session ops).flatMap (·.found)).map (·.order) =
      List.range' s.produced ((s.session ops).flatMap (·.found)).length := by
  induction ops generalizing s with
  | nil => rfl
  | cons op ops ih =>
    obtain ⟨as, ht, hfound, -⟩ := s.comes_perform op
    rw [session, List.flatMap_cons, hfound, List.map_append, List.length_append, ht.order.1, ih,
      ht.order.2, List.range'_append_1]

/-! ## Histories -/

theorem alike_after {ops : List Operation} (hops : ∀ op ∈ ops, op.asks = true) :
    (s.after ops).Alike s := by
  induction ops generalizing s with
  | nil => exact .refl s
  | cons op ops ih =>
    obtain ⟨hop, hops⟩ := List.forall_mem_cons.1 hops
    exact (ih hops).trans (alike_perform hop)

theorem Abreast.after (h : s.Abreast s') (ops : List Operation) :
    (s.after ops).Abreast (s'.after (ops.filter fun op => !op.looksAside)) := by
  induction ops generalizing s s' with
  | nil => exact h
  | cons op ops ih =>
    rw [after_cons, List.filter_cons]
    by_cases hop : op.looksAside = true
    · rw [if_neg (by simp [hop])]
      exact ih ((abreast_perform_of_looksAside hop).trans h)
    · rw [if_pos (by simpa using hop), after_cons]
      exact ih (h.perform op).2

/-- **A history does not show in what a search tells later**, except for the cursor, and for the
numbers of the matches. -/
theorem histories_do_not_show (pattern : Pattern) (elements : Array Element) (options : Options)
    (render : List Element → String) (ops : List Operation) (hops : ∀ op ∈ ops, op.asks = true) :
    let s : Search := { pattern, elements, options, render }
    (∀ op, op ≠ .find → ((s.after ops).perform op).told = (s.perform op).told) ∧
    (∀ ops', (∀ op ∈ ops', op.asks = true) → (s.after ops).cursor = (s.after ops').cursor →
      (s.after ops).exhausted = (s.after ops').exhausted →
      ((s.after ops).perform .find).told = ((s.after ops').perform .find).told) ∧
    (∀ op, ((s.after ops).perform op).told =
      ((s.after (ops.filter fun op => !op.looksAside)).perform op).told) ∧
    ((s.session ops).flatMap (·.found)).map (·.order) =
      List.range ((s.session ops).flatMap (·.found)).length := by
  intro s
  refine ⟨fun op hop => (alike_after hops).told_perform hop,
    fun ops' hops' hcursor hexhausted => ?_,
    fun op => (((Abreast.refl s).after ops).perform op).1, ?_⟩
  · have h := (alike_after (s := s) hops).trans (alike_after hops').symm
    exact (Abreast.find ⟨h, hcursor, hexhausted⟩).1
  · rw [s.order_session, List.range_eq_range']

/-- A group that is entered again and again, a payload for each element, and a function that fails
at the second one. -/
theorem histories_do_not_show_after_failures :
    let f : NodeFunction := ⟨"f", fun e =>
      if e.text = "!" then .error ⟨"f", "no"⟩ else .ok (.acceptWith (.text e.text)), true⟩
    let pattern : Pattern := .build "" (.action (.iterate (.group (.node (.custom f)) (some 1)
      (some "w")) 1 (some 2) false) "act" 1) [("w", 1)] 2
    let elements : Array Element := #[⟨"a", fun _ => none⟩, ⟨"!", fun _ => none⟩,
      ⟨"b", fun _ => none⟩]
    let s : Search := { pattern, elements }
    let ops : List Operation := [.find, .find, .matchAt 2, .findAll (some 1), .findFrom 9]
    (s.session ops).map (fun f => (f.found.map (·.order), f.error)) =
        [([0], none), ([], some (.predicate ⟨"f", "no"⟩)), ([1], none), ([2], none),
          ([], some (.positionOutOfRange 9 3))] ∧
      (∀ op ∈ ops, op.asks = true) ∧
      (∀ op, op ≠ .find → ((s.after ops).perform op).told = (s.perform op).told) ∧
      (∀ op, ((s.after ops).perform op).told =
        ((s.after (ops.filter fun op => !op.looksAside)).perform op).told) := by
  intro f pattern elements s ops
  have hops : ∀ op ∈ ops, op.asks = true := by simp [ops, Operation.asks]
  have h := histories_do_not_show pattern elements {} joinTexts ops hops
  exact ⟨by cbv, hops, h.1, h.2.2.1⟩

end Search

end Motif
