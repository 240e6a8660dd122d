import Motif.Proofs.Answers
import Motif.Proofs.Histories
import Motif.Proofs.Numbering
import Motif.Proofs.Renaming
import Mathlib.Data.List.Forall2

/-!
# Renumbering the groups of a pattern

Patterns are copied into other patterns with their groups under higher numbers. A pattern that was
renumbered matches what it matched before; its groups lie where they lay, its actions fire in the
same order, on the groups that they fired on, and the numbers in front stand for no group at all.

* `Match.Renames`, `Event.Renames`, `Search.Renames`, `Search.Finds.Renames`: matches, events,
  searches and what they tell, with groups under other numbers.
* `Search.Renames.attempts`: trying positions, with groups under other numbers.
* **`Search.Renames.session`**: a whole session.
* `Expr.code_shiftGroups`, `Expr.names_of_mem_code`: the code of a renumbered expression.
* **`Pattern.exists_shifted`**: the pattern of a renumbered expression.
-/

namespace Motif

variable {f : Nat → Nat} {G : Nat → Prop}

/-! ## What is told -/

/-- The failures of two answers are the same, and so are their results but for a relation. -/
inductive SameButFor {α β : Type} (R : α → β → Prop) :
    Except MatchError (Option α) → Except MatchError (Option β) → Prop where
  | error (e : MatchError) : SameButFor R (.error e) (.error e)
  | none : SameButFor R (.ok none) (.ok none)
  | some {x : α} {y : β} (h : R x y) : SameButFor R (.ok (some x)) (.ok (some y))

variable (f G) in
/-- Two matches are the same but for the numbers of their groups. A group of either that has no
counterpart takes no part. -/
structure Match.Renames (m m' : Match) : Prop where
  elements_eq : m'.elements = m.elements
  whole_eq : m'.spans[0]? = m.spans[0]?
  groups : ∀ g, 0 < g → G g → m'.spans[f g]?.join = m.spans[g]?.join
  rest : ∀ g, 0 < g → ¬ G g → m.spans[g]?.join = none
  others : ∀ h, 0 < h → (∀ g, G g → f g ≠ h) → m'.spans[h]?.join = none
  payloads_eq : m'.payloads = m.payloads
  render_eq : m'.render = m.render
  score_eq : m'.score = m.score
  order_eq : m'.order = m.order

theorem Match.Renames.span_eq {m m' : Match} (h : m.Renames f G m') : m'.span = m.span := by
  rw [Match.span, Match.span, List.head?_eq_getElem?, List.head?_eq_getElem?, h.whole_eq]

variable (f G) in
/-- Two events are the same but for the numbers of groups. -/
inductive Event.Renames : Event → Event → Prop where
  | called (call : Call) : Renames (called call) (called call)
  | fired (action : String) (group : Nat) {m m' : Match} (h : m.Renames f G m') :
    Renames (fired action group m) (fired action (renameTarget f group) m')

namespace Search

variable (f G) in
/-- Two searches are the same but for the numbers of groups. -/
structure Renames (s s' : Search) : Prop where
  pattern : s.pattern.Renames f G s'.pattern
  elements_eq : s'.elements = s.elements
  options_eq : s'.options = s.options
  render_eq : s'.render = s.render
  cursor_eq : s'.cursor = s.cursor
  exhausted_eq : s'.exhausted = s.exhausted
  produced_eq : s'.produced = s.produced
  metrics_eq : s'.metrics = s.metrics

variable (f G) in
/-- Two answers are the same but for the numbers of groups. -/
structure AnswerRenames (a a' : Answer) : Prop where
  result : SameButFor (Match.Renames f G) a.result a'.result
  search : a.search.Renames f G a'.search
  events : List.Forall₂ (Event.Renames f G) a.events a'.events

variable (f G) in
/-- What two operations tell is the same but for the numbers of groups. -/
structure Finds.Renames (a a' : Finds) : Prop where
  found : List.Forall₂ (Match.Renames f G) a.found a'.found
  error_eq : a'.error = a.error
  search : a.search.Renames f G a'.search
  events : List.Forall₂ (Event.Renames f G) a.events a'.events

end Search

/-! ## Matches -/

theorem Store.join_getElem?_spans (s : Store) (whole : Span) (groupCount : Nat) {g : Nat}
    (hg : 0 < g) : (s.spans whole groupCount)[g]?.join =
      if g < groupCount then
        match s.slot (2 * g), s.slot (2 * g + 1) with
        | some b, some e => if b ≤ e then some ⟨b, e⟩ else none
        | _, _ => none
      else none := by
  obtain ⟨g, rfl⟩ : ∃ k, g = k + 1 := ⟨g - 1, by omega⟩
  have heq : 1 + 1 * g = g + 1 := by omega
  rw [spans, List.getElem?_cons_succ, List.getElem?_map]
  by_cases hlt : g + 1 < groupCount
  · rw [if_pos hlt, List.getElem?_range' (by omega), heq]
    rfl
  · rw [if_neg hlt, List.getElem?_eq_none (by rw [List.length_range']; omega)]
    rfl

namespace Search.Renames

variable {s s' : Search} (h : s.Renames f G s')

include h

theorem length_eq : s'.length = s.length := by rw [length, length, h.elements_eq]

theorem result (span : Span) {store store' : Store} (hs : store.Renames f G store') :
    (s.result span store).Renames f G (s'.result span store') where
  elements_eq := h.elements_eq
  whole_eq := rfl
  groups g hpos hg := by
    have hdiv : 2 * g / 2 = g := Nat.mul_div_cancel_left g (by decide)
    have hdiv' : (2 * g + 1) / 2 = g := by omega
    have hbegin := hs.slot_eq (i := 2 * g) (by rwa [hdiv])
    have hend := hs.slot_eq (i := 2 * g + 1) (by rwa [hdiv'])
    rw [renameSlot_two_mul] at hbegin
    rw [renameSlot_two_mul_add_one] at hend
    simp only [Search.result, Store.join_getElem?_spans _ _ _ hpos,
      Store.join_getElem?_spans _ _ _ (h.pattern.pos g hpos), hbegin, hend,
      h.pattern.groupCount g hg]
  rest g hpos hg := by
    have hle : ¬ g < s.pattern.groupCount := fun hlt => hg (h.pattern.bound g hpos hlt)
    rw [Search.result, Store.join_getElem?_spans _ _ _ hpos, if_neg hle]
  others j hpos hj := by
    have hslot : store'.slot (2 * j) = none := hs.slot_eq_none _ fun i hi heq =>
      hj _ hi (by unfold renameSlot at heq; omega)
    simp only [Search.result, Store.join_getElem?_spans _ _ _ hpos, hslot]
    split <;> rfl
  payloads_eq := by
    simp only [Search.result, Note.payloads, hs.trail_eq, Array.toList_map, List.filterMap_map]
    congr 1
    funext n
    cases n <;> rfl
  render_eq := h.render_eq
  score_eq := h.pattern.score_eq
  order_eq := h.produced_eq

theorem cursorAfter_eq {m m' : Match} (hm : m.Renames f G m') :
    s'.cursorAfter m' = s.cursorAfter m := by
  rw [cursorAfter, cursorAfter, h.options_eq, hm.span_eq]

/-! ## Trying positions -/

theorem tryAll (stop : Option Nat) (n : Nat) (a : Account) (b b' : Buffers) (ps : List Nat) :
    SameButFor (fun x y => y.1 = x.1 ∧ x.2.Renames f G y.2) (s.tryAll stop n a b ps).result
        (s'.tryAll stop n a b' ps).result ∧
      (s'.tryAll stop n a b' ps).attempts = (s.tryAll stop n a b ps).attempts ∧
      (s'.tryAll stop n a b' ps).account = (s.tryAll stop n a b ps).account := by
  induction ps generalizing n a b b' with
  | nil => exact ⟨.none, rfl, rfl⟩
  | cons p ps ih =>
    obtain ⟨ho, ha⟩ := h.pattern.attempt s.elements s.render stop s.options.maxSteps a p
    rw [tryAll_cons, tryAll_cons, h.elements_eq, h.options_eq, h.render_eq]
    generalize s.pattern.attempt s.elements s.render stop s.options.maxSteps a p = r at ho ha ⊢
    generalize s'.pattern.attempt s.elements s.render stop s.options.maxSteps a p = r' at ho ha ⊢
    obtain ⟨o, acc, _⟩ := r
    obtain ⟨o', acc', _⟩ := r'
    obtain rfl : acc' = acc := ha
    cases ho with
    | none => exact ⟨.error _, rfl, rfl⟩
    | some ho =>
      cases ho with
      | accepted stop hs => exact ⟨.some ⟨rfl, hs⟩, rfl, rfl⟩
      | rejected => exact ih _ _ _ _
      | failed e => exact ⟨.error _, rfl, rfl⟩

theorem charge {t t' : Tried} (hn : t'.attempts = t.attempts) (ha : t'.account = t.account) :
    (s.charge t).Renames f G (s'.charge t') :=
  ⟨h.pattern, h.elements_eq, h.options_eq, h.render_eq, h.cursor_eq, h.exhausted_eq,
    h.produced_eq, by simp only [Search.charge, hn, ha, h.metrics_eq]⟩

/-- **What is told when positions are tried is the same but for the numbers of groups.** -/
theorem attempts (stop : Option Nat) (ps : List Nat) :
    AnswerRenames f G (s.attempts stop ps) (s'.attempts stop ps) := by
  obtain ⟨hr, hn, ha⟩ := h.tryAll stop 0 {} s.buffers s'.buffers ps
  have hcharge := h.charge hn ha
  have hcalls (calls : Array Call) : List.Forall₂ (Event.Renames f G)
      (calls.toList.map .called) (calls.toList.map .called) :=
    List.forall₂_same.2 fun e he => by
      obtain ⟨call, -, rfl⟩ := List.mem_map.1 he
      exact .called call
  unfold Search.attempts Search.conclude
  generalize s.tryAll stop 0 {} s.buffers ps = t at hr ha hcharge ⊢
  generalize s'.tryAll stop 0 {} s'.buffers ps = t' at hr ha hcharge ⊢
  obtain ⟨r, _, acc, _⟩ := t
  obtain ⟨r', _, acc', _⟩ := t'
  obtain rfl : acc' = acc := ha
  cases hr with
  | error e => exact ⟨.error e, hcharge, hcalls _⟩
  | none => exact ⟨.none, hcharge, hcalls _⟩
  | @some x y hxy =>
    obtain ⟨_, store⟩ := x
    obtain ⟨span, store'⟩ := y
    obtain ⟨rfl, hs⟩ := hxy
    have hm := hcharge.result span hs
    refine ⟨.some hm, ⟨hcharge.pattern, hcharge.elements_eq, hcharge.options_eq,
      hcharge.render_eq, hcharge.cursor_eq, hcharge.exhausted_eq,
      congrArg (· + 1) hcharge.produced_eq, congrArg (Metrics.add · _) hcharge.metrics_eq⟩,
      List.rel_append (hcalls _) ?_⟩
    have hactions : Note.actions store'.trail.toList =
        (Note.actions store.trail.toList).map fun x => (x.1, renameTarget f x.2) := by
      rw [hs.trail_eq, Array.toList_map, Note.actions, Note.actions, List.filterMap_map,
        List.map_filterMap]
      congr 1
      funext n
      cases n <;> rfl
    rw [hactions, List.map_map, List.forall₂_map_left_iff, List.forall₂_map_right_iff]
    exact List.forall₂_same.2 fun x _ => .fired x.1 x.2 hm

/-! ## Operations -/

theorem find : AnswerRenames f G s.find s'.find := by
  unfold Search.find Search.settle
  rw [h.exhausted_eq, h.cursor_eq, h.length_eq]
  by_cases hx : s.exhausted = true
  · rw [if_pos hx, if_pos hx]
    exact ⟨.error _, h, .nil⟩
  · rw [if_neg hx, if_neg hx]
    have ha := h.attempts none (List.range' s.cursor (s.length + 1 - s.cursor))
    generalize s.attempts none (List.range' s.cursor (s.length + 1 - s.cursor)) = a at ha ⊢
    generalize s'.attempts none (List.range' s.cursor (s.length + 1 - s.cursor)) = a' at ha ⊢
    obtain ⟨r, s₁, events⟩ := a
    obtain ⟨r', s₁', events'⟩ := a'
    obtain ⟨hr, hs, he⟩ := ha
    cases hr with
    | error e => exact ⟨.error e, hs, he⟩
    | none =>
      exact ⟨.none, ⟨hs.pattern, hs.elements_eq, hs.options_eq, hs.render_eq, hs.cursor_eq, rfl,
        hs.produced_eq, hs.metrics_eq⟩, he⟩
    | some hm =>
      exact ⟨.some hm, ⟨hs.pattern, hs.elements_eq, hs.options_eq, hs.render_eq,
        h.cursorAfter_eq hm, hs.exhausted_eq, hs.produced_eq, hs.metrics_eq⟩, he⟩

theorem moved (pos : Nat) : Renames f G { s with cursor := pos, exhausted := false }
    { s' with cursor := pos, exhausted := false } :=
  ⟨h.pattern, h.elements_eq, h.options_eq, h.render_eq, rfl, rfl, h.produced_eq, h.metrics_eq⟩

theorem findFrom (pos : Nat) : AnswerRenames f G (s.findFrom pos) (s'.findFrom pos) := by
  unfold Search.findFrom
  rw [h.length_eq]
  split
  · exact ⟨.error _, h, .nil⟩
  · exact (h.moved pos).find

theorem matchAt (pos : Nat) : AnswerRenames f G (s.matchAt pos) (s'.matchAt pos) := by
  unfold Search.matchAt
  rw [h.length_eq]
  split
  · exact ⟨.error _, h, .nil⟩
  · exact h.attempts none [pos]

omit h in
theorem ofAnswer {a a' : Answer} (h : AnswerRenames f G a a') :
    (Finds.ofAnswer a).Renames f G (.ofAnswer a') := by
  obtain ⟨r, s, events⟩ := a
  obtain ⟨r', s', events'⟩ := a'
  obtain ⟨hr, hs, he⟩ := h
  cases hr with
  | error e => exact ⟨.nil, rfl, hs, he⟩
  | none => exact ⟨.nil, rfl, hs, he⟩
  | some hm => exact ⟨.cons hm .nil, rfl, hs, he⟩

theorem take (k : Nat) : (take k s).Renames f G (take k s') := by
  induction k generalizing s s' with
  | zero => exact ⟨.nil, rfl, h, .nil⟩
  | succ k ih =>
    have ha := h.find
    rw [Search.take, Search.take]
    generalize s.find = a at ha ⊢
    generalize s'.find = a' at ha ⊢
    obtain ⟨r, s₁, events⟩ := a
    obtain ⟨r', s₁', events'⟩ := a'
    obtain ⟨hr, hs, he⟩ := ha
    cases hr with
    | error e => exact ⟨.nil, rfl, hs, he⟩
    | none => exact ⟨.nil, rfl, hs, he⟩
    | some hm =>
      obtain ⟨hfound, herr, hsearch, hevents⟩ := ih hs
      exact ⟨.cons hm hfound, herr, hsearch, List.rel_append he hevents⟩

/-- **What an operation tells is the same but for the numbers of groups.** -/
theorem perform (op : Operation) : (s.perform op).Renames f G (s'.perform op) := by
  cases op with
  | find => exact ofAnswer h.find
  | findFrom pos => exact ofAnswer (h.findFrom pos)
  | matchWhole =>
    have := h.attempts (some s.length) [0]
    simp only [Search.perform, Search.matchWhole, h.length_eq]
    exact ofAnswer this
  | matchAt pos => exact ofAnswer (h.matchAt pos)
  | findAll bound =>
    have := (h.moved 0).take
    cases bound with
    | none =>
      simp only [Search.perform, Search.findAll, h.length_eq]
      exact this _
    | some k =>
      simp only [Search.perform, Search.findFirst, h.length_eq]
      exact this _
  | reset => exact ⟨.nil, rfl, h.moved 0, .nil⟩
  | setOptions options =>
    exact ⟨.nil, rfl, ⟨h.pattern, h.elements_eq, rfl, h.render_eq, h.cursor_eq, h.exhausted_eq,
      h.produced_eq, h.metrics_eq⟩, .nil⟩
  | setRender render =>
    exact ⟨.nil, rfl, ⟨h.pattern, h.elements_eq, h.options_eq, rfl, h.cursor_eq, h.exhausted_eq,
      h.produced_eq, h.metrics_eq⟩, .nil⟩

/-- **What a whole session tells is the same but for the numbers of groups.** -/
theorem session (ops : List Operation) :
    List.Forall₂ (Finds.Renames f G) (s.session ops) (s'.session ops) := by
  induction ops generalizing s s' with
  | nil => exact .nil
  | cons op ops ih => exact .cons (h.perform op) (ih (h.perform op).search)

end Search.Renames

/-! ## The code of a renumbered expression -/

namespace Expr

mutual

theorem width_shiftGroups (k : Nat) (e : Expr) : (e.shiftGroups k).width = e.width := by
  match e with
  | node _ | backref _ | multi .. | anchor _ => rfl
  | sequence es => exact widthOfAll_shiftAll k es
  | choice es => exact widthOfChoice_shiftAll k es
  | iterate e min max own => rw [shiftGroups, width, width, width_shiftGroups k e]
  | group e none _ => exact width_shiftGroups k e
  | group e (some id) _ => exact congrArg (· + 2) (width_shiftGroups k e)
  | action e _ _ => exact congrArg (· + 1) (width_shiftGroups k e)

theorem widthOfAll_shiftAll (k : Nat) (es : List Expr) :
    widthOfAll (shiftAll k es) = widthOfAll es := by
  match es with
  | [] => rfl
  | e :: es => rw [shiftAll, widthOfAll, widthOfAll, width_shiftGroups k e, widthOfAll_shiftAll k es]

theorem widthOfChoice_shiftAll (k : Nat) (es : List Expr) :
    widthOfChoice (shiftAll k es) = widthOfChoice es := by
  match es with
  | [] => rfl
  | [e] => exact width_shiftGroups k e
  | e :: e' :: es =>
    exact congrArg₂ (· + 2 + ·) (width_shiftGroups k e) (widthOfChoice_shiftAll k (e' :: es))

end

mutual

theorem registers_shiftGroups (k : Nat) (e : Expr) :
    (e.shiftGroups k).registers = e.registers := by
  match e with
  | node _ | backref _ | multi .. | anchor _ => rfl
  | sequence es | choice es => exact registersOfAll_shiftAll k es
  | iterate e min max own => rw [shiftGroups, registers, registers, registers_shiftGroups k e]
  | group e _ _ | action e _ _ => exact registers_shiftGroups k e

theorem registersOfAll_shiftAll (k : Nat) (es : List Expr) :
    registersOfAll (shiftAll k es) = registersOfAll es := by
  match es with
  | [] => rfl
  | e :: es =>
    rw [shiftAll, registersOfAll, registersOfAll, registers_shiftGroups k e,
      registersOfAll_shiftAll k es]

end

mutual

/-- **The code of a renumbered expression** is the same but for the numbers of groups. -/
theorem code_shiftGroups (k : Nat) (greedy : Bool) (pc reg : Nat) (e : Expr) :
    (e.shiftGroups k).code greedy pc reg =
      (e.code greedy pc reg).map (Instruction.renamed (· + k)) := by
  match e with
  | node _ | backref _ | multi .. | anchor _ => rfl
  | sequence es => exact codeOfAll_shiftAll k greedy pc reg es
  | choice es =>
    rw [shiftGroups, code, code, widthOfChoice_shiftAll]
    exact codeOfChoice_shiftAll k greedy pc reg _ es
  | iterate e min max own =>
    rw [shiftGroups, code, code]
    split
    · rfl
    · split
      · exact code_shiftGroups k greedy pc reg e
      · rw [width_shiftGroups, code_shiftGroups k (own && greedy) (pc + 2) (reg + 1) e,
          List.map_cons, List.map_cons, List.map_append]
        rfl
  | group e none _ => exact code_shiftGroups k greedy pc reg e
  | group e (some id) _ =>
    rw [shiftGroups, Option.map_some, code, code, code_shiftGroups k greedy (pc + 1) reg e,
      List.map_cons, List.map_append]
    rfl
  | action e _ _ =>
    rw [shiftGroups, code, code, code_shiftGroups k greedy pc reg e, List.map_append]
    rfl

theorem codeOfAll_shiftAll (k : Nat) (greedy : Bool) (pc reg : Nat) (es : List Expr) :
    codeOfAll greedy pc reg (shiftAll k es) =
      (codeOfAll greedy pc reg es).map (Instruction.renamed (· + k)) := by
  match es with
  | [] => rfl
  | e :: es =>
    rw [shiftAll, codeOfAll, codeOfAll, code_shiftGroups k greedy pc reg e, width_shiftGroups,
      registers_shiftGroups, codeOfAll_shiftAll k greedy _ _ es, List.map_append]

theorem codeOfChoice_shiftAll (k : Nat) (greedy : Bool) (pc reg exit : Nat) (es : List Expr) :
    codeOfChoice greedy pc reg exit (shiftAll k es) =
      (codeOfChoice greedy pc reg exit es).map (Instruction.renamed (· + k)) := by
  match es with
  | [] => rfl
  | [e] => exact code_shiftGroups k greedy pc reg e
  | e :: e' :: es =>
    have hrest := codeOfChoice_shiftAll k greedy (pc + e.width + 2) (reg + e.registers) exit
      (e' :: es)
    rw [shiftAll] at hrest
    rw [shiftAll, shiftAll, codeOfChoice, codeOfChoice, width_shiftGroups, registers_shiftGroups,
      code_shiftGroups k greedy (pc + 1) reg e, hrest, List.map_cons, List.map_append,
      List.map_cons]
    rfl

end

mutual

theorem names_of_mem_code (greedy : Bool) (pc reg : Nat) (e : Expr)
    (hg : ∀ g ∈ e.groups, G g.1) (hb : ∀ id ∈ e.backrefs, G id) {i : Instruction}
    (hi : i ∈ e.code greedy pc reg) : i.Names G := by
  match e with
  | node _ | multi .. | anchor _ =>
    obtain rfl := List.mem_singleton.1 hi
    trivial
  | backref id =>
    obtain rfl := List.mem_singleton.1 hi
    exact hb id List.mem_cons_self
  | sequence es => exact names_of_mem_codeOfAll greedy pc reg es hg hb hi
  | choice es => exact names_of_mem_codeOfChoice greedy pc reg _ es hg hb hi
  | iterate e min max own =>
    rw [code] at hi
    split at hi
    · cases hi
    · split at hi
      · exact names_of_mem_code greedy pc reg e hg hb hi
      · simp only [List.mem_cons, List.mem_append, List.not_mem_nil, or_false] at hi
        obtain rfl | rfl | hi | rfl := hi
        · trivial
        · trivial
        · exact names_of_mem_code _ _ _ e hg hb hi
        · trivial
  | group e none _ => exact names_of_mem_code greedy pc reg e hg hb hi
  | group e (some id) _ =>
    obtain ⟨hid, hg⟩ := List.forall_mem_cons.1 hg
    simp only [code, List.mem_cons, List.mem_append, List.not_mem_nil, or_false] at hi
    obtain rfl | hi | rfl := hi
    · exact hid
    · exact names_of_mem_code _ _ _ e hg hb hi
    · exact hid
  | action e _ _ =>
    obtain hi | hi := List.mem_append.1 hi
    · exact names_of_mem_code greedy pc reg e hg hb hi
    · obtain rfl := List.mem_singleton.1 hi
      trivial

theorem names_of_mem_codeOfAll (greedy : Bool) (pc reg : Nat) (es : List Expr)
    (hg : ∀ g ∈ groupsOfAll es, G g.1) (hb : ∀ id ∈ backrefsOfAll es, G id) {i : Instruction}
    (hi : i ∈ codeOfAll greedy pc reg es) : i.Names G := by
  match es with
  | [] => cases hi
  | e :: es =>
    obtain ⟨hg, hgs⟩ := List.forall_mem_append.1 hg
    obtain ⟨hb, hbs⟩ := List.forall_mem_append.1 hb
    obtain hi | hi := List.mem_append.1 hi
    · exact names_of_mem_code greedy pc reg e hg hb hi
    · exact names_of_mem_codeOfAll greedy _ _ es hgs hbs hi

theorem names_of_mem_codeOfChoice (greedy : Bool) (pc reg exit : Nat) (es : List Expr)
    (hg : ∀ g ∈ groupsOfAll es, G g.1) (hb : ∀ id ∈ backrefsOfAll es, G id) {i : Instruction}
    (hi : i ∈ codeOfChoice greedy pc reg exit es) : i.Names G := by
  match es with
  | [] => cases hi
  | [e] =>
    exact names_of_mem_code greedy pc reg e (List.forall_mem_append.1 hg).1
      (List.forall_mem_append.1 hb).1 hi
  | e :: e' :: es =>
    obtain ⟨hg, hgs⟩ := List.forall_mem_append.1 hg
    obtain ⟨hb, hbs⟩ := List.forall_mem_append.1 hb
    simp only [codeOfChoice, List.mem_cons, List.mem_append] at hi
    obtain rfl | hi | rfl | hi := hi
    · trivial
    · exact names_of_mem_code greedy _ _ e hg hb hi
    · trivial
    · exact names_of_mem_codeOfChoice greedy _ _ exit (e' :: es) hgs hbs hi

end

end Expr

/-! ## Renumbered patterns -/

namespace Pattern

/-- A number is below the bound if there is a group with this or a higher number. -/
theorem lt_groupBound_iff {gs : List (Nat × Option String)} {g : Nat} (hg : 0 < g) :
    g < groupBound gs ↔ ∃ x ∈ gs, g ≤ x.1 := by
  have hfold (ids : List Nat) (b : Nat) : g ≤ ids.foldl max b ↔ g ≤ b ∨ ∃ id ∈ ids, g ≤ id := by
    induction ids generalizing b with
    | nil => simp
    | cons id ids ih => rw [List.foldl_cons, ih]; simp [or_assoc]
  rw [groupBound, Nat.lt_succ_iff, hfold]
  constructor
  · rintro (h | ⟨id, hid, h⟩)
    · omega
    · obtain ⟨x, hx, rfl⟩ := List.mem_map.1 hid
      exact ⟨x, hx, h⟩
  · rintro ⟨x, hx, h⟩
    exact .inr ⟨x.1, List.mem_map_of_mem hx, h⟩

theorem eq_of_ofCounted {source : String} {root : Expr} {count : Nat} {p : Pattern}
    (h : ofCounted source root count = .ok p) :
    p = build source root (namedGroups root.groups) count ∧
      ∀ id ∈ root.backrefs, 0 < id ∧ id < count := by
  unfold ofCounted at h
  split at h
  · cases h
  · next hfind =>
    cases h
    refine ⟨rfl, fun id hid => ?_⟩
    have := List.find?_eq_none.1 hfind id hid
    simp only [Bool.or_eq_true, beq_iff_eq, decide_eq_true_eq, not_or] at this
    omega

theorem eq_of_ofExpr {source : String} {root : Expr} {p : Pattern}
    (h : ofExpr source root = .ok p) :
    p = build source root (namedGroups root.groups) (groupBound root.groups) ∧
      ∀ id ∈ root.backrefs, 0 < id ∧ id < groupBound root.groups :=
  eq_of_ofCounted h

theorem ofExpr_eq_ok {source : String} {root : Expr}
    (h : ∀ id ∈ root.backrefs, 0 < id ∧ id < groupBound root.groups) :
    ofExpr source root =
      .ok (build source root (namedGroups root.groups) (groupBound root.groups)) := by
  have hfind : (root.backrefs.find? fun id => id == 0 || groupBound root.groups ≤ id) = none := by
    refine List.find?_eq_none.2 fun id hid => ?_
    have := h id hid
    simp only [Bool.or_eq_true, beq_iff_eq, decide_eq_true_eq]
    omega
  rw [ofExpr, ofCounted, hfind]

theorem lt_groupBound_shiftGroups {root : Expr} {k g : Nat} (hg : 0 < g) :
    g + k < groupBound (root.shiftGroups k).groups ↔ g < groupBound root.groups := by
  rw [lt_groupBound_iff hg, lt_groupBound_iff (by omega), Expr.groups_shiftGroups]
  simp only [List.mem_map, exists_exists_and_eq_and, Nat.add_le_add_iff_right]

theorem groupBound_le_shiftGroups (root : Expr) (k : Nat) :
    groupBound root.groups ≤ groupBound (root.shiftGroups k).groups := by
  obtain ⟨g, hg⟩ : ∃ g, groupBound root.groups = g + 1 := ⟨_, rfl⟩
  obtain rfl | hpos := Nat.eq_zero_or_pos g
  · rw [hg]
    exact Nat.succ_pos _
  · have hlt : g < groupBound root.groups := by omega
    have := (lt_groupBound_shiftGroups (k := k) hpos).2 hlt
    omega

/-- **A renumbered expression makes a pattern with the same groups under higher numbers.** -/
theorem exists_shifted {source : String} {root : Expr} {p : Pattern}
    (hp : ofExpr source root = .ok p) (hids : ∀ g ∈ root.groups, 0 < g.1) (k : Nat)
    (source' : String) : ∃ p', ofExpr source' (root.shiftGroups k) = .ok p' ∧
      p.Renames (· + k) (0 < ·) p' := by
  obtain ⟨rfl, hrefs⟩ := eq_of_ofExpr hp
  refine ⟨_, ofExpr_eq_ok fun id hid => ?_, ?_⟩
  · rw [Expr.backrefs_shiftGroups] at hid
    obtain ⟨id', hid', rfl⟩ := List.mem_map.1 hid
    have := hrefs id' hid'
    exact ⟨by omega, (lt_groupBound_shiftGroups this.1).2 this.2⟩
  · have hcode : (Program.lower (root.shiftGroups k)).code.toList =
        (Program.lower root).code.toList.map (Instruction.renamed (· + k)) := by
      simp only [Program.lower, Expr.code_shiftGroups, List.map_append]
      rfl
    refine ⟨fun pc => ?_, Expr.registers_shiftGroups k root, fun pc i hi => ?_,
      fun g hg => (lt_groupBound_shiftGroups hg).symm, rfl, fun _ hg _ => hg,
      fun g h _ _ => Nat.add_right_cancel, fun g hg => by omega⟩
    · rw [← Array.getElem?_toList, ← Array.getElem?_toList, ← List.getElem?_map]
      exact congrArg (·[pc]?) hcode
    · rw [← Array.getElem?_toList] at hi
      obtain hi | hi := List.mem_append.1 (List.mem_of_getElem? hi)
      · exact Expr.names_of_mem_code true 0 0 root hids (fun id hid => (hrefs id hid).1) hi
      · obtain rfl := List.mem_singleton.1 hi
        trivial

end Pattern

end Motif
