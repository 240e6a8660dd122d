import Motif.Proofs.Operations

/-!
# Limits on the number of steps

All runs of an operation share one limit. Where the operation gets by with it, the limit makes no
difference. Where it does not, the operation fails with the first step beyond the limit, and by then
nothing else has happened than what happens without a limit.

* `Account.Le`: an account that was added to.
* `Ran.Cut`, **`Task.cut_run`**: what a limit does to a run.
* `Tried.Cut`, `Search.cut_tryAll`: what it does to one run after the other.
* `Search.limited`, `Search.CutBy`: what it does to a question.
* **`Search.limit_only_cuts`**: what it does to all questions.
-/

namespace Motif

/-! ## Accounts -/

namespace Account

/-- An account to which steps and calls may have been added. -/
structure Le (a b : Account) : Prop where
  steps : a.steps ≤ b.steps
  calls : a.calls.toList <+: b.calls.toList

variable {a b c : Account}

theorem Le.refl (a : Account) : a.Le a := ⟨Nat.le_refl _, List.prefix_rfl⟩

theorem Le.trans (h : a.Le b) (h' : b.Le c) : a.Le c :=
  ⟨Nat.le_trans h.1 h'.1, h.2.trans h'.2⟩

theorem le_add (a : Account) (st : Step) : Le { a with steps := a.steps + 1 } (a.add st) := by
  refine ⟨Nat.le_refl _, ?_⟩
  simp only [add, Array.appendList_eq_append, Array.toList_appendList]
  exact List.prefix_append _ _

theorem Le.of_succ (h : Le { a with steps := a.steps + 1 } b) : a.Le b :=
  ⟨Nat.le_of_succ_le h.1, h.2⟩

end Account

/-! ## Runs -/

/-- What a limit makes of a run: all of it, or its beginning up to the first step beyond the
limit. -/
inductive Ran.Cut (limit : Nat) (r : Ran) : Ran → Prop
  | whole (h : r.account.steps ≤ limit) : Cut limit r r
  | short {r' : Ran} (h : limit < r.account.steps) (outcome : r'.outcome = none)
    (steps : r'.account.steps = limit + 1)
    (calls : r'.account.calls.toList <+: r.account.calls.toList) : Cut limit r r'

namespace Task

variable {t : Task} {limit : Option Nat} {a : Account}

theorem le_run (c : { c : Config // t.Halts c }) :
    Account.Le { a with steps := a.steps + 1 } (t.run limit a c).account := by
  obtain ⟨c, hc⟩ := c
  induction hc generalizing a with
  | intro c hc ih =>
    by_cases hl : limit.any (· < a.steps + 1) = true
    · rw [run_of_limit hl]
      exact .refl _
    · cases hp : (t.step c).progress with
      | running c' =>
        rw [run_of_running hl hp]
        exact (a.le_add _).trans (ih c' hp).of_succ
      | finished o =>
        rw [run_of_finished hl hp]
        exact a.le_add _

/-- **A limit cuts a run short or does nothing.** -/
theorem cut_run {limit : Nat} (ha : a.steps ≤ limit) (c : { c : Config // t.Halts c }) :
    (t.run none a c).Cut limit (t.run (some limit) a c) := by
  obtain ⟨c, hc⟩ := c
  have hfree (a : Account) : ¬ (none : Option Nat).any (· < a.steps + 1) = true :=
    Bool.false_ne_true
  induction hc generalizing a with
  | intro c hc ih =>
    by_cases hl : (some limit).any (· < a.steps + 1) = true
    · -- The limit is used up, and every run takes a step.
      have hle : Account.Le { a with steps := a.steps + 1 }
        (t.run none a ⟨c, .intro c hc⟩).account := le_run _
      obtain rfl : a.steps = limit := by
        simp only [Option.any_some, decide_eq_true_eq] at hl
        omega
      rw [run_of_limit hl]
      exact .short hle.steps rfl rfl hle.calls
    · have hlt : (a.add (t.step c)).steps ≤ limit := by simpa [Account.add] using hl
      cases hp : (t.step c).progress with
      | running c' =>
        rw [run_of_running hl hp, run_of_running (hfree a) hp]
        exact ih c' hp hlt
      | finished o =>
        rw [run_of_finished hl hp, run_of_finished (hfree a) hp]
        exact .whole hlt

end Task

namespace Pattern

variable (p : Pattern) (elements : Array Element) (render : List Element → String)
  (stop : Option Nat)

theorem le_attempt (limit : Option Nat) (a : Account) (start : Nat) (b : Buffers) :
    a.Le (p.attempt elements render stop limit a start b).account := (Task.le_run _).of_succ

theorem cut_attempt {limit : Nat} {a : Account} (ha : a.steps ≤ limit) (start : Nat) (b : Buffers) :
    (p.attempt elements render stop none a start b).Cut limit
      (p.attempt elements render stop (some limit) a start b) := Task.cut_run ha _

end Pattern

/-! ## One run after the other -/

/-- What a limit makes of several runs: all of them, or a failure with the first step beyond the
limit. -/
inductive Tried.Cut (limit : Nat) (t : Tried) : Tried → Prop
  | whole (h : t.account.steps ≤ limit) : Cut limit t t
  | short {t' : Tried} (h : limit < t.account.steps)
    (result : t'.result = .error (.stepLimit limit)) (steps : t'.account.steps = limit + 1)
    (calls : t'.account.calls.toList <+: t.account.calls.toList) : Cut limit t t'

namespace Tried.Cut

variable {limit : Nat} {t t' : Tried} (h : t.Cut limit t')

include h

theorem eq_of_le (hle : t.account.steps ≤ limit) : t' = t := by
  cases h with
  | whole => rfl
  | short h => omega

theorem of_lt (hlt : limit < t.account.steps) :
    t'.result = .error (.stepLimit limit) ∧ t'.account.steps = limit + 1 ∧
      t'.account.calls.toList <+: t.account.calls.toList := by
  cases h with
  | whole h => omega
  | short _ result steps calls => exact ⟨result, steps, calls⟩

end Tried.Cut

namespace Search

/-- The search under another limit. -/
def limited (s : Search) (limit : Option Nat) : Search :=
  { s with options := { s.options with maxSteps := limit } }

section Limited

variable (s : Search) (limit : Option Nat)

@[simp] theorem limited_pattern : (s.limited limit).pattern = s.pattern := rfl
@[simp] theorem limited_elements : (s.limited limit).elements = s.elements := rfl
@[simp] theorem limited_render : (s.limited limit).render = s.render := rfl
@[simp] theorem limited_maxSteps : (s.limited limit).options.maxSteps = limit := rfl
@[simp] theorem limited_buffers : (s.limited limit).buffers = s.buffers := rfl
@[simp] theorem limited_cursor : (s.limited limit).cursor = s.cursor := rfl
@[simp] theorem limited_length : (s.limited limit).length = s.length := rfl

end Limited

variable (s : Search)

section Trying

variable {s} {stop : Option Nat} {n : Nat} {a : Account} {b : Buffers} {ps : List Nat}

theorem le_tryAll : a.Le (s.tryAll stop n a b ps).account := by
  induction ps generalizing n a b with
  | nil => exact .refl a
  | cons p ps ih =>
    have h := s.pattern.le_attempt s.elements s.render stop s.options.maxSteps a p {}
    rw [tryAll_cons]
    dsimp only
    split
    · exact h
    · exact h.trans ih
    · exact h
    · exact h

/-- **A limit cuts a search short or does nothing**, as one limit for all positions. -/
theorem cut_tryAll {limit : Nat} (ha : a.steps ≤ limit) :
    ((s.limited none).tryAll stop n a b ps).Cut limit
      ((s.limited (some limit)).tryAll stop n a b ps) := by
  induction ps generalizing n a b with
  | nil => exact .whole ha
  | cons p ps ih =>
    have hcut := s.pattern.cut_attempt s.elements s.render stop ha p {}
    obtain ⟨o, ho⟩ := s.pattern.exists_outcome s.elements s.render stop p
    replace ho := ho a
    simp only [tryAll_cons, limited_pattern, limited_elements, limited_render, limited_maxSteps]
    generalize s.pattern.attempt s.elements s.render stop (some limit) a p = r' at hcut ⊢
    generalize s.pattern.attempt s.elements s.render stop none a p = r at hcut ho ⊢
    cases hcut with
    | whole h =>
      rw [ho]
      cases o with
      | accepted => exact .whole h
      | rejected => exact ih h
      | failed => exact .whole h
    | short h outcome steps calls =>
      rw [ho, outcome]
      cases o with
      | accepted => exact .short h rfl steps calls
      | rejected =>
        -- Without the limit, what is tried behind this position only adds to the account.
        exact .short (Nat.lt_of_lt_of_le h le_tryAll.steps) rfl steps (calls.trans le_tryAll.calls)
      | failed => exact .short h rfl steps calls

end Trying

/-! ## Questions -/

/-- What a limit does to a question: it changes nothing, or the question fails with the first step
beyond the limit. -/
def CutBy (limit : Nat) (ask : Search → Answer) : Prop :=
  let free := ask (s.limited none)
  let cut := ask (s.limited (some limit))
  ∃ steps, free.search.metrics.steps = s.metrics.steps + steps ∧
    (steps ≤ limit → cut.result = free.result ∧ cut.events = free.events ∧
      cut.search = free.search.limited (some limit)) ∧
    (limit < steps → cut.result = .error (.stepLimit limit) ∧
      cut.search.metrics.steps = s.metrics.steps + (limit + 1) ∧
      cut.search.metrics.found = s.metrics.found ∧ cut.search.produced = s.produced ∧
      cut.events <+: free.events ∧ ∀ action group m, .fired action group m ∉ cut.events)

variable {s} {limit : Nat}

theorem steps_attempts (stop : Option Nat) (ps : List Nat) :
    (s.attempts stop ps).search.metrics.steps =
      s.metrics.steps + (s.tryAll stop 0 {} s.buffers ps).account.steps := by
  unfold attempts conclude
  dsimp only
  split <;> rfl

theorem attempts_of_error {stop : Option Nat} {ps : List Nat} {e : MatchError}
    (h : (s.tryAll stop 0 {} s.buffers ps).result = .error e) :
    s.attempts stop ps = ⟨.error e, s.charge (s.tryAll stop 0 {} s.buffers ps),
      (s.tryAll stop 0 {} s.buffers ps).account.calls.toList.map Event.called⟩ := by
  unfold attempts conclude
  dsimp only
  rw [h]

theorem attempts_limited {stop : Option Nat} {ps : List Nat} {l l' : Option Nat}
    (h : (s.limited l').tryAll stop 0 {} s.buffers ps =
      (s.limited l).tryAll stop 0 {} s.buffers ps) :
    ((s.limited l').attempts stop ps).result = ((s.limited l).attempts stop ps).result ∧
      ((s.limited l').attempts stop ps).events = ((s.limited l).attempts stop ps).events ∧
      ((s.limited l').attempts stop ps).search =
        ((s.limited l).attempts stop ps).search.limited l' := by
  unfold attempts conclude
  simp only [limited_buffers, h]
  split <;> exact ⟨rfl, rfl, rfl⟩

theorem cutBy_attempts (stop : Option Nat) (ps : List Nat) :
    s.CutBy limit (·.attempts stop ps) := by
  have h : ((s.limited none).tryAll stop 0 {} s.buffers ps).Cut limit
      ((s.limited (some limit)).tryAll stop 0 {} s.buffers ps) := cut_tryAll (Nat.zero_le limit)
  refine ⟨_, steps_attempts _ _, fun hle => attempts_limited (h.eq_of_le hle), fun hlt => ?_⟩
  obtain ⟨hresult, hsteps, hcalls⟩ := h.of_lt hlt
  dsimp only
  rw [attempts_of_error hresult, attempts_events]
  refine ⟨rfl, ?_, rfl, rfl, (hcalls.map _).trans (List.prefix_append _ _), fun _ _ _ hmem => ?_⟩
  · rw [← hsteps]
    rfl
  · obtain ⟨_, -, hcall⟩ := List.mem_map.1 hmem
    cases hcall

theorem cutBy_of_error {ask : Search → Answer} {e : MatchError}
    (h : ∀ l, ask (s.limited l) = ⟨.error e, s.limited l, []⟩) : s.CutBy limit ask := by
  refine ⟨0, by rw [h]; rfl, fun _ => ?_, fun hlt => absurd hlt (Nat.not_lt_zero _)⟩
  rw [h, h]
  exact ⟨rfl, rfl, rfl⟩

theorem metrics_find (hx : s.exhausted = false) :
    let a := s.attempts none (List.range' s.cursor (s.length + 1 - s.cursor))
    s.find.search.metrics = a.search.metrics ∧ s.find.search.produced = a.search.produced := by
  rw [find_search hx]
  dsimp only
  split <;> exact ⟨rfl, rfl⟩

theorem cutBy_find : s.CutBy limit find := by
  by_cases hx : s.exhausted = true
  · exact cutBy_of_error fun l => find_of_exhausted hx
  · have hx (l : Option Nat) : (s.limited l).exhausted = false := by simpa [limited] using hx
    have htry : s.CutBy limit
        (·.attempts none (List.range' s.cursor (s.length + 1 - s.cursor))) := cutBy_attempts _ _
    obtain ⟨steps, hsteps, hle, hlt⟩ := htry
    refine ⟨steps, ?_, fun h => ?_, fun h => ?_⟩
    · rw [(metrics_find (hx none)).1]
      exact hsteps
    · obtain ⟨hresult, hevents, hsearch⟩ := hle h
      rw [find_result (hx _), find_result (hx _), find_events (hx _), find_events (hx _),
        find_search (hx _), find_search (hx _)]
      refine ⟨hresult, hevents, ?_⟩
      simp only [limited_length, limited_cursor] at hresult hsearch ⊢
      rw [hresult, hsearch]
      split <;> rfl
    · obtain ⟨hresult, hsteps, hfound, hproduced, hevents⟩ := hlt h
      rw [find_result (hx _), find_events (hx _), find_events (hx _),
        (metrics_find (hx _)).1, (metrics_find (hx _)).2]
      exact ⟨hresult, hsteps, hfound, hproduced, hevents⟩

theorem CutBy.congr {ask ask' : Search → Answer} (h : s.CutBy limit ask')
    (heq : ∀ l, ask (s.limited l) = ask' (s.limited l)) : s.CutBy limit ask := by
  rw [CutBy, heq, heq]
  exact h

/-- **A limit on the number of steps only cuts a search short**: it does not change an answer. -/
theorem limit_only_cuts (s : Search) (limit pos : Nat) :
    s.CutBy limit find ∧ s.CutBy limit (·.findFrom pos) ∧ s.CutBy limit matchWhole ∧
      s.CutBy limit (·.matchAt pos) := by
  refine ⟨cutBy_find, ?_, cutBy_attempts _ _, ?_⟩
  · by_cases hpos : s.length < pos
    · exact cutBy_of_error fun l => by rw [findFrom, limited_length, if_pos hpos]
    · have h : s.CutBy limit fun s => find { s with cursor := pos, exhausted := false } :=
        cutBy_find (s := { s with cursor := pos, exhausted := false })
      exact h.congr fun l => by rw [findFrom, limited_length, if_neg hpos]
  · by_cases hpos : s.length < pos
    · exact cutBy_of_error fun l => by rw [matchAt, limited_length, if_pos hpos]
    · exact (cutBy_attempts none [pos]).congr fun l => by
        rw [matchAt, limited_length, if_neg hpos]

/-- Any number of any number of a word, at each position of a sequence that does not end with it. -/
example :
    let word : Expr := .node (.attr .text (.equals "a" false))
    let s : Search := {
      pattern := .build "" (.sequence [.iterate (.iterate word 0 none true) 0 none true,
        .anchor .stop, word]) [] 1
      elements := #[⟨"a", fun _ => none⟩, ⟨"b", fun _ => none⟩] }
    s.find.search.metrics.steps = 32 ∧
      (s.limited (some 32)).find.result.map Option.isSome = .ok false ∧
      (s.limited (some 31)).find.result.map Option.isSome = .error (.stepLimit 31) := by
  cbv

end Search

end Motif
