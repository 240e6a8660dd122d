import Motif.Proofs.Reports
import Motif.Proofs.Words

/-!
# Operations in machine words

Operations give the answers of a search that counts without a bound, as long as there is room for a
table of the slots of the pattern.

* `Search.tryAll?_eq`, `Search.attempts?_eq`: trying positions.
* `Search.perform?_eq`, **`Search.sessionInWords_eq`**: operations and sessions.
* **`Search.operations_return`**: operations come to an end and give an answer.
* **`Search.operations_stop`**: they give none for a group without a slot.
-/

namespace Motif.Search

variable {s : Search} (a : Arithmetic)

/-! ## Answers within the bounds -/

section Fits

variable (hp : s.pattern.Bounded) (hc : 2 * s.pattern.groupCount ≤ maxSlots)

include hp hc

theorem tryAll?_eq (stop : Option Nat) (n : Nat) (account : Account) (b : Buffers) {ps : List Nat}
    (hps : ∀ p ∈ ps, p ≤ s.length) :
    s.tryAll? a stop n account b ps = some (s.tryAll stop n account b ps) := by
  have hspans : s.pattern.groupCount ≤ maxSpans := by
    have : maxSlots ≤ 2 * maxSpans := by decide
    omega
  induction ps generalizing n account b with
  | nil => rfl
  | cons p ps ih =>
    obtain ⟨hstart, hps⟩ := List.forall_mem_cons.1 hps
    rw [tryAll?, tryAll, Pattern.attempt?_eq a hp hc _ _ _ hstart, Option.bind_eq_bind,
      Option.bind_some]
    generalize s.pattern.attempt s.elements s.render stop s.options.maxSteps account p b = r
    obtain ⟨o, account, b⟩ := r
    cases o with
    | none => rfl
    | some o =>
      cases o with
      | accepted => exact if_pos hspans
      | rejected => exact ih _ _ _ hps
      | failed => rfl

theorem attempts?_eq (stop : Option Nat) {ps : List Nat} (hps : ∀ p ∈ ps, p ≤ s.length) :
    s.attempts? a stop ps = some (s.attempts stop ps) := by
  rw [attempts?, tryAll?_eq a hp hc _ _ _ _ hps]
  rfl

theorem find?_eq : s.find? a = some s.find := by
  have hps : ∀ p ∈ List.range' s.cursor (s.length + 1 - s.cursor), p ≤ s.length := by
    intro p hp
    rw [List.mem_range'_1] at hp
    omega
  rw [find?, find]
  split
  · rfl
  · rw [attempts?_eq a hp hc none hps]
    rfl

theorem findFrom?_eq (pos : Nat) : s.findFrom? a pos = some (s.findFrom pos) := by
  rw [findFrom?, findFrom]
  split
  · rfl
  · exact find?_eq a (s := { s with cursor := pos, exhausted := false }) hp hc

theorem matchWhole?_eq : s.matchWhole? a = some s.matchWhole :=
  attempts?_eq a hp hc _ (by simp)

theorem matchAt?_eq (pos : Nat) : s.matchAt? a pos = some (s.matchAt pos) := by
  rw [matchAt?, matchAt]
  split
  · rfl
  · exact attempts?_eq a hp hc none (by simp; omega)

theorem take?_eq (k : Nat) : take? a k s = some (take k s) := by
  induction k generalizing s with
  | zero => rfl
  | succ k ih =>
    have hpattern : s.find.search.pattern = s.pattern := (alike_find s).pattern_eq
    rw [take?, take, find?_eq a hp hc, Option.bind_eq_bind, Option.bind_some]
    generalize s.find = x at hpattern
    obtain ⟨result, search, events⟩ := x
    cases result with
    | error => rfl
    | ok m =>
      cases m with
      | none => rfl
      | some m =>
        change (take? a k search).bind _ = _
        rw [ih (hpattern ▸ hp) (hpattern ▸ hc)]
        rfl

/-- **Operations within the bounds.** -/
theorem perform?_eq (op : Operation) : s.perform? a op = some (s.perform op) := by
  cases op with
  | find => rw [perform?, find?_eq a hp hc]; rfl
  | findFrom pos => rw [perform?, findFrom?_eq a hp hc]; rfl
  | matchWhole => rw [perform?, matchWhole?_eq a hp hc]; rfl
  | matchAt pos => rw [perform?, matchAt?_eq a hp hc]; rfl
  | findAll bound => cases bound <;> exact take?_eq a (s := s.reset) hp hc _
  | reset | setOptions _ | setRender _ => rfl

/-- **Sessions within the bounds.** -/
theorem sessionInWords_eq (ops : List Operation) : s.sessionInWords a ops = s.session ops := by
  induction ops generalizing s with
  | nil => rfl
  | cons op ops ih =>
    obtain ⟨as, htries, -, -⟩ := s.comes_perform op
    have hpattern : (s.perform op).search.pattern = s.pattern := htries.keeps.1
    rw [sessionInWords, perform?_eq a hp hc, session]
    exact congrArg _ (ih (hpattern ▸ hp) (hpattern ▸ hc))

end Fits

/-! ## Operations give an answer -/

/-- **Operations come to an end and give an answer**, if a table of the slots of the pattern can be
laid out. -/
theorem operations_return (hp : s.pattern.MadeInWords a)
    (hc : 2 * s.pattern.groupCount ≤ maxSlots) :
    (∀ stop, ∀ start ≤ s.length, ∃ n o,
      let t := s.pattern.task s.elements s.render stop
      let c := s.pattern.entry start
      t.after n c = .finished o ∧ (∀ m < n, ∃ c', t.after m c = .running c') ∧
        ∀ account, ∃ r, r.outcome = some o ∧ r.account.steps = account.steps + n ∧
          s.pattern.attempt? s.elements s.render stop none account start {} a = some r) ∧
    (s.options.maxSteps = none → ∀ limit pos,
      (∃ x, s.find? a = some x ∧ x.result ≠ .error (.stepLimit limit)) ∧
        (∃ x, s.findFrom? a pos = some x ∧ x.result ≠ .error (.stepLimit limit)) ∧
        (∃ x, s.matchWhole? a = some x ∧ x.result ≠ .error (.stepLimit limit)) ∧
        ∃ x, s.matchAt? a pos = some x ∧ x.result ≠ .error (.stepLimit limit)) := by
  have hb := hp.made.bounded
  obtain ⟨hends, hlimits⟩ := s.operations_end
  refine ⟨fun stop start hstart => ?_, fun hs limit pos => ?_⟩
  · obtain ⟨n, o, hn, hlt, hrun⟩ := hends stop start
    exact ⟨n, o, hn, hlt, fun account => ⟨_, (hrun account).1, (hrun account).2,
      Pattern.attempt?_eq a hb hc stop none account hstart {}⟩⟩
  · obtain ⟨hfind, hfrom, hwhole, hat⟩ := hlimits hs limit pos
    exact ⟨⟨_, find?_eq a hb hc, hfind⟩, ⟨_, findFrom?_eq a hb hc pos, hfrom⟩,
      ⟨_, matchWhole?_eq a hb hc, hwhole⟩, ⟨_, matchAt?_eq a hb hc pos, hat⟩⟩

/-- At least two and at most one of any number of nothing. -/
theorem operations_return_of_nested_nothing :
    let root : Expr := .iterate (.iterate (.sequence []) 0 none true) 2 (some 1) true
    let s : Search := { pattern := .build "" root [] 1, elements := #[] }
    s.pattern.MadeInWords .checked ∧ 2 * s.pattern.groupCount ≤ maxSlots ∧
      s.options.maxSteps = none ∧ ∀ limit pos,
        (∃ x, s.find? .checked = some x ∧ x.result ≠ .error (.stepLimit limit)) ∧
          (∃ x, s.findFrom? .checked pos = some x ∧ x.result ≠ .error (.stepLimit limit)) ∧
          (∃ x, s.matchWhole? .checked = some x ∧ x.result ≠ .error (.stepLimit limit)) ∧
          ∃ x, s.matchAt? .checked pos = some x ∧ x.result ≠ .error (.stepLimit limit) := by
  intro root s
  have hroot : Pattern.ofExpr? .checked "" root = some (.ok s.pattern) := rfl
  have hp : s.pattern.MadeInWords .checked := .ofExpr hroot (by decide)
  have hc : 2 * s.pattern.groupCount ≤ maxSlots := by decide
  exact ⟨hp, hc, rfl, (operations_return .checked hp hc).2 rfl⟩

theorem attempts?_largeGroup (elements : Array Element) (stop : Option Nat) (start : Nat)
    (more : List Nat) :
    ({ pattern := .build "" Pattern.largeGroup [] (2 ^ 63), elements } : Search).attempts? a stop
      (start :: more) = none := by
  rw [attempts?, tryAll?, Pattern.attempt?_largeGroup]
  rfl

/-- **A search may stop without an answer**, if the slots of a group cannot be counted. -/
theorem operations_stop : ∃ p, ∀ a : Arithmetic,
    Pattern.ofExpr? a "" Pattern.largeGroup = some (.ok p) ∧
    ∀ elements, let s : Search := { pattern := p, elements }
      s.find? a = none ∧ s.matchWhole? a = none ∧ s.matchAt? a 0 = none := by
  refine ⟨_, fun a => ⟨Pattern.ofExpr?_largeGroup a, fun elements => ?_⟩⟩
  have hattempts := attempts?_largeGroup a elements
  refine ⟨?_, hattempts _ _ _, hattempts _ _ _⟩
  rw [find?, if_neg Bool.false_ne_true]
  exact congrArg (Option.map _) (hattempts none 0 (List.range' 1 elements.size))

end Motif.Search
