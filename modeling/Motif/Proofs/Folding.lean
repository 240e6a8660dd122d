import Motif.Match
import Motif.Proofs.Attempt
import Mathlib

/-!
# Folding trivial repetitions

A repetition that allows no iteration has no code, and one that requires and allows a single
iteration has the code of its body. Both could be lowered like any other repetition, with a register
of their own. Whether that is done makes no difference to what is matched, except in one case: a
reluctant repetition of exactly one iteration does not hand its reluctance down once it is folded,
so that runs of elements in its body are as long as possible.

* `Expr.LoweredTo`: all ways to lower an expression, with or without folding.
* `Expr.feelsGreed`: there is a run of elements to which the preference comes down.
* `Expr.paths_of_not_feelsGreed`: otherwise the preference does not change a path.
* `Expr.LoweredTo.delivers`: code that was lowered in either way goes along the paths.
* **`Pattern.folding_keeps_trials`**: it is the same whether trivial repetitions are folded, unless
  a reluctant one has a body that feels greed.
* `Pattern.folding_loses_reluctance`: and then it is not.
-/

namespace Motif

namespace Expr

/-! ## All ways of lowering -/

mutual

/-- An expression may be lowered to some code at an address, with so many registers; `may` says
which repetitions of exactly one iteration need not be folded. -/
inductive LoweredTo (may : Bool → Bool → Expr → Prop) :
    Bool → Nat → Nat → Expr → List Instruction → Nat → Prop where
  | node {greedy : Bool} {pc reg : Nat} (p : NodePattern) :
    LoweredTo may greedy pc reg (.node p) [.node p] 0
  | sequence {greedy : Bool} {pc reg n : Nat} {es : List Expr} {code : List Instruction}
    (h : AllLoweredTo may greedy pc reg es code n) :
    LoweredTo may greedy pc reg (.sequence es) code n
  | choice {greedy : Bool} {pc reg n : Nat} {es : List Expr} {code : List Instruction}
    (h : ChoiceLoweredTo may greedy pc reg (pc + code.length) es code n) :
    LoweredTo may greedy pc reg (.choice es) code n
  | leftOut {greedy : Bool} {pc reg : Nat} (e : Expr) (min : Nat) (own : Bool) :
    LoweredTo may greedy pc reg (.iterate e min (some 0) own) [] 0
  | folded {greedy : Bool} {pc reg n : Nat} {e : Expr} (own : Bool) {code : List Instruction}
    (h : LoweredTo may greedy pc reg e code n) :
    LoweredTo may greedy pc reg (.iterate e 1 (some 1) own) code n
  /-- A repetition that is lowered like any other, although it might be folded. -/
  | counted {greedy : Bool} {pc reg n min : Nat} {max : Option Nat} {e : Expr} {own : Bool}
    {code : List Instruction} (hvoid : max = some 0 → min = 0)
    (honce : min = 1 → max = some 1 → may own greedy e)
    (h : LoweredTo may (own && greedy) (pc + 2) (reg + 1) e code n) :
    LoweredTo may greedy pc reg (.iterate e min max own)
      (.enter reg :: .loop reg min max own (pc + code.length + 3) ::
        (code ++ [.next reg min (pc + 1)])) (n + 1)
  | group {greedy : Bool} {pc reg n : Nat} {e : Expr} (name : Option String)
    {code : List Instruction} (h : LoweredTo may greedy pc reg e code n) :
    LoweredTo may greedy pc reg (.group e none name) code n
  | capture {greedy : Bool} {pc reg n : Nat} {e : Expr} (id : Nat) (name : Option String)
    {code : List Instruction} (h : LoweredTo may greedy (pc + 1) reg e code n) :
    LoweredTo may greedy pc reg (.group e (some id) name)
      (.openGroup id :: (code ++ [.closeGroup id])) n
  | backref {greedy : Bool} {pc reg : Nat} (id : Nat) :
    LoweredTo may greedy pc reg (.backref id) [.backref id] 0
  | multi {greedy : Bool} {pc reg : Nat} (min : Nat) (max : Option Nat) (text : Regex)
    (own : Bool) :
    LoweredTo may greedy pc reg (.multi min max text own) [.multi min max text (own && greedy)] 0
  | action {greedy : Bool} {pc reg n : Nat} {e : Expr} (name : String) (target : Nat)
    {code : List Instruction} (h : LoweredTo may greedy pc reg e code n) :
    LoweredTo may greedy pc reg (.action e name target) (code ++ [.mark name target]) n
  | anchor {greedy : Bool} {pc reg : Nat} (a : Anchor) :
    LoweredTo may greedy pc reg (.anchor a) [.assert a] 0

/-- Several expressions in a row may be lowered to some code. -/
inductive AllLoweredTo (may : Bool → Bool → Expr → Prop) :
    Bool → Nat → Nat → List Expr → List Instruction → Nat → Prop where
  | nil {greedy : Bool} {pc reg : Nat} : AllLoweredTo may greedy pc reg [] [] 0
  | cons {greedy : Bool} {pc reg n n' : Nat} {e : Expr} {es : List Expr}
    {code code' : List Instruction} (h : LoweredTo may greedy pc reg e code n)
    (rest : AllLoweredTo may greedy (pc + code.length) (reg + n) es code' n') :
    AllLoweredTo may greedy pc reg (e :: es) (code ++ code') (n + n')

/-- Several alternatives, all of which continue at `exit`, may be lowered to some code. -/
inductive ChoiceLoweredTo (may : Bool → Bool → Expr → Prop) :
    Bool → Nat → Nat → Nat → List Expr → List Instruction → Nat → Prop where
  | nil {greedy : Bool} {pc reg exit : Nat} : ChoiceLoweredTo may greedy pc reg exit [] [] 0
  | one {greedy : Bool} {pc reg exit n : Nat} {e : Expr} {code : List Instruction}
    (h : LoweredTo may greedy pc reg e code n) :
    ChoiceLoweredTo may greedy pc reg exit [e] code n
  | cons {greedy : Bool} {pc reg exit n n' : Nat} {e e' : Expr} {es : List Expr}
    {code code' : List Instruction} (h : LoweredTo may greedy (pc + 1) reg e code n)
    (rest : ChoiceLoweredTo may greedy (pc + code.length + 2) (reg + n) exit (e' :: es) code' n') :
    ChoiceLoweredTo may greedy pc reg exit (e :: e' :: es)
      (.split (pc + 1) (pc + code.length + 2) :: (code ++ .jump exit :: code')) (n + n')

end

section Code

variable (may : Bool → Bool → Expr → Prop)

mutual

theorem loweredTo_code (greedy : Bool) (pc reg : Nat) (e : Expr) :
    LoweredTo may greedy pc reg e (e.code greedy pc reg) e.registers := by
  match e with
  | .node p => exact .node p
  | .backref id => exact .backref id
  | .multi min max text own => exact .multi min max text own
  | .anchor a => exact .anchor a
  | .sequence es => exact .sequence (allLoweredTo_codeOfAll greedy pc reg es)
  | .choice es =>
    have h := choiceLoweredTo_codeOfChoice greedy pc reg (pc + widthOfChoice es) es
    exact .choice ((length_codeOfChoice greedy pc reg _ es).symm ▸ h)
  | .group e none name => exact .group name (loweredTo_code greedy pc reg e)
  | .group e (some id) name => exact .capture id name (loweredTo_code greedy (pc + 1) reg e)
  | .action e name target => exact .action name target (loweredTo_code greedy pc reg e)
  | .iterate e min max own =>
    unfold code registers
    by_cases hv : isVoid max = true
    · obtain rfl : max = some 0 := by simpa [isVoid] using hv
      exact .leftOut e min own
    · have hv' : ¬ max = some 0 := by simpa [isVoid] using hv
      rw [if_neg hv, if_neg hv]
      by_cases ho : isOnce min max = true
      · obtain ⟨rfl, rfl⟩ : min = 1 ∧ max = some 1 := by simpa [isOnce] using ho
        rw [if_pos ho, if_pos ho]
        exact .folded own (loweredTo_code greedy pc reg e)
      · have ho' : ¬ (min = 1 ∧ max = some 1) := by simpa [isOnce] using ho
        rw [if_neg ho, if_neg ho]
        have h := loweredTo_code (own && greedy) (pc + 2) (reg + 1) e
        have := LoweredTo.counted (fun h => absurd h hv') (fun h h' => absurd ⟨h, h'⟩ ho') h
        rwa [length_code] at this

theorem allLoweredTo_codeOfAll (greedy : Bool) (pc reg : Nat) (es : List Expr) :
    AllLoweredTo may greedy pc reg es (codeOfAll greedy pc reg es) (registersOfAll es) := by
  match es with
  | [] => exact .nil
  | e :: es =>
    refine .cons (loweredTo_code greedy pc reg e) ?_
    rw [length_code]
    exact allLoweredTo_codeOfAll greedy _ _ es

theorem choiceLoweredTo_codeOfChoice (greedy : Bool) (pc reg exit : Nat) (es : List Expr) :
    ChoiceLoweredTo may greedy pc reg exit es (codeOfChoice greedy pc reg exit es)
      (registersOfAll es) := by
  match es with
  | [] => exact .nil
  | [e] => exact .one (loweredTo_code greedy pc reg e)
  | e :: e' :: es =>
    have h := choiceLoweredTo_codeOfChoice greedy (pc + e.width + 2) (reg + e.registers) exit
      (e' :: es)
    have := ChoiceLoweredTo.cons (loweredTo_code greedy (pc + 1) reg e)
      ((length_code greedy (pc + 1) reg e).symm ▸ h)
    rwa [length_code] at this

end

end Code

/-! ## Where the preference makes a difference -/

mutual

/-- There is a run of elements of several lengths to which the preference of the enclosing
repetitions comes down. -/
def feelsGreed : Expr → Bool
  | node _ | backref _ | anchor _ => false
  | sequence es | choice es => someFeelsGreed es
  | iterate e min max own =>
    if isVoid max then false else if isOnce min max then e.feelsGreed else own && e.feelsGreed
  | group e _ _ | action e _ _ => e.feelsGreed
  | multi min max _ own => own && max != some min

/-- Some expression feels the preference. -/
def someFeelsGreed : List Expr → Bool
  | [] => false
  | e :: es => e.feelsGreed || someFeelsGreed es

end

variable {elements : Array Element} {render : List Element → String}

theorem ofMulti_of_fixed (n : Nat) (text : Regex) (greedy greedy' : Bool) (q : Path) :
    Trial.ofMulti elements render n (some n) text greedy q =
      Trial.ofMulti elements render n (some n) text greedy' q := by
  have hfix : ∀ len ∈ Trial.spanLengths elements render n (some n) text q.pos, len = n := by
    intro len hlen
    obtain ⟨-, hmin, hmax, -⟩ := Trial.mem_spanLengths.1 hlen
    simp only [Option.all_some, decide_eq_true_eq] at hmax
    omega
  have hrev : (Trial.spanLengths elements render n (some n) text q.pos).reverse =
      Trial.spanLengths elements render n (some n) text q.pos := by
    rw [List.eq_replicate_of_mem hfix, List.reverse_replicate]
  unfold Trial.ofMulti
  cases greedy <;> cases greedy' <;> simp only [hrev, if_true, Bool.false_eq_true, if_false]

mutual

/-- **Where no run feels it, the preference does not change a path.** -/
theorem paths_of_not_feelsGreed (greedy greedy' : Bool) (e : Expr) (he : e.feelsGreed = false)
    (q : Path) :
    e.paths elements render greedy q = e.paths elements render greedy' q := by
  match e with
  | .node _ | .backref _ | .anchor _ => rfl
  | .sequence es => exact pathsOfAll_of_not_feelsGreed greedy greedy' es he q
  | .choice [] => rfl
  | .choice (e :: es) => exact pathsOfSome_of_not_feelsGreed greedy greedy' (e :: es) he q
  | .group e none _ => exact paths_of_not_feelsGreed greedy greedy' e he q
  | .group e (some id) _ =>
    exact congrArg (Trial.onward · _) (paths_of_not_feelsGreed greedy greedy' e he _)
  | .action e name target =>
    exact congrArg (Trial.onward · _) (paths_of_not_feelsGreed greedy greedy' e he q)
  | .multi min max text own =>
    rw [feelsGreed, Bool.and_eq_false_iff] at he
    rw [paths, paths]
    obtain rfl | he := he
    · rfl
    · obtain rfl : max = some min := by simpa using he
      exact ofMulti_of_fixed min text _ _ q
  | .iterate e min max own =>
    rw [feelsGreed] at he
    rw [paths, paths]
    by_cases hv : max = some 0
    · rw [if_pos hv, if_pos hv]
    · rw [if_neg (by simpa [isVoid] using hv)] at he
      rw [if_neg hv, if_neg hv]
      have hbody : e.paths elements render (bodyPreference min max own greedy) =
          e.paths elements render (bodyPreference min max own greedy') := by
        unfold bodyPreference
        by_cases ho : min = 1 ∧ max = some 1
        · rw [if_pos (by simpa [isOnce] using ho)] at he
          rw [if_pos ho, if_pos ho]
          exact funext (paths_of_not_feelsGreed greedy greedy' e he)
        · rw [if_neg (by simpa [isOnce] using ho), Bool.and_eq_false_iff] at he
          rw [if_neg ho, if_neg ho]
          obtain rfl | he := he
          · rfl
          · exact funext (paths_of_not_feelsGreed _ _ e he)
      rw [hbody]

theorem pathsOfAll_of_not_feelsGreed (greedy greedy' : Bool) (es : List Expr)
    (he : someFeelsGreed es = false) (q : Path) :
    pathsOfAll elements render greedy es q = pathsOfAll elements render greedy' es q := by
  match es with
  | [] => rfl
  | e :: es =>
    obtain ⟨he, hes⟩ := Bool.or_eq_false_iff.1 he
    rw [pathsOfAll, pathsOfAll, paths_of_not_feelsGreed greedy greedy' e he q]
    exact congrArg (Trial.onward _)
      (funext (pathsOfAll_of_not_feelsGreed greedy greedy' es hes))

theorem pathsOfSome_of_not_feelsGreed (greedy greedy' : Bool) (es : List Expr)
    (he : someFeelsGreed es = false) (q : Path) :
    pathsOfSome elements render greedy es q = pathsOfSome elements render greedy' es q := by
  match es with
  | [] => rfl
  | e :: es =>
    obtain ⟨he, hes⟩ := Bool.or_eq_false_iff.1 he
    rw [pathsOfSome, pathsOfSome, paths_of_not_feelsGreed greedy greedy' e he q,
      pathsOfSome_of_not_feelsGreed greedy greedy' es hes q]

end

/-! ## Runs of code that was lowered in any way -/

/-- The reluctance of a repetition of exactly one iteration makes no difference: it has none, or
nothing in its body feels greed. -/
def Harmless (own greedy : Bool) (e : Expr) : Prop :=
  own = true ∨ greedy = false ∨ e.feelsGreed = false

theorem Harmless.paths_eq {own greedy : Bool} {e : Expr} (h : Harmless own greedy e) :
    e.paths elements render (own && greedy) = e.paths elements render greedy := by
  obtain rfl | rfl | h := h
  · rw [Bool.true_and]
  · rw [Bool.and_false]
  · exact funext (paths_of_not_feelsGreed _ _ e h)

theorem paths_iterate_of_counted {greedy own : Bool} {min : Nat} {max : Option Nat} {e : Expr}
    (hvoid : max = some 0 → min = 0) (honce : min = 1 → max = some 1 → Harmless own greedy e) :
    (iterate e min max own).paths elements render greedy =
      Trial.iterations elements (e.paths elements render (own && greedy)) min max own 0 := by
  funext q
  rw [paths]
  by_cases hv : max = some 0
  · rw [if_pos hv, Trial.iterations_eq, hvoid hv, if_neg (Nat.lt_irrefl 0), if_pos hv]
  · rw [if_neg hv]
    by_cases ho : min = 1 ∧ max = some 1
    · rw [bodyPreference, if_pos ho, ← (honce ho.1 ho.2).paths_eq]
    · rw [bodyPreference, if_neg ho]

variable {t : Task}

mutual

/-- **Code that was lowered in any way goes along the paths of the expression.** -/
theorem LoweredTo.delivers {greedy : Bool} {pc reg n : Nat} {e : Expr} {code : List Instruction}
    (h : LoweredTo Harmless greedy pc reg e code n) (hc : t.CodeAt pc code) :
    t.Delivers pc (pc + code.length) reg (reg + n) (e.paths t.elements t.render greedy) := by
  match h with
  | .node _ => exact .node hc.head
  | .backref _ => exact .backref hc.head
  | .multi .. => exact .multi hc.head
  | .anchor _ => exact .assert hc.head
  | .sequence h => exact h.delivers hc
  | .choice h => exact h.delivers hc rfl
  | .leftOut _ _ _ =>
    exact (Task.Delivers.empty pc reg reg).congr rfl rfl fun q => by rw [paths, if_pos rfl]
  | .folded _ h =>
    refine (h.delivers hc).congr rfl rfl fun q => ?_
    rw [paths, if_neg (by decide), bodyPreference, if_pos ⟨rfl, rfl⟩, Trial.iterations_once]
  | .counted hvoid honce h =>
    have := Task.Delivers.iterate (h.delivers hc.tail.tail.left) hc.tail.head
      hc.tail.tail.right.head (by omega) (fun _ _ => ahead_of_mem_paths _ _) hc.head
    refine this.congr ?_ (by omega) fun q => by rw [paths_iterate_of_counted hvoid honce]
    simp only [List.length_cons, List.length_append, List.length_nil]
    omega
  | .group _ h => exact h.delivers hc
  | .capture id _ h =>
    have hopen := Task.Delivers.openGroup (r := reg) hc.head
    have hclose := Task.Delivers.closeGroup (r := reg + n) hc.tail.right.head
    have := hopen.append ((h.delivers hc.tail.left).append hclose (by omega) (by omega))
      (Nat.le_refl reg) (by omega)
    refine this.congr ?_ rfl fun _ => List.append_nil _
    simp only [List.length_cons, List.length_append, List.length_nil]
    omega
  | .action _ _ h =>
    have := (h.delivers hc.left).append (.mark hc.right.head) (by omega) (by omega)
    rw [List.length_append]
    rwa [Nat.add_assoc] at this

theorem AllLoweredTo.delivers {greedy : Bool} {pc reg n : Nat} {es : List Expr}
    {code : List Instruction} (h : AllLoweredTo Harmless greedy pc reg es code n)
    (hc : t.CodeAt pc code) :
    t.Delivers pc (pc + code.length) reg (reg + n) (pathsOfAll t.elements t.render greedy es) := by
  match h with
  | .nil => exact .empty pc reg reg
  | .cons h rest =>
    have := (h.delivers hc.left).append (rest.delivers hc.right) (by omega) (by omega)
    rw [List.length_append]
    rwa [Nat.add_assoc, Nat.add_assoc] at this

theorem ChoiceLoweredTo.delivers {greedy : Bool} {pc reg exit n : Nat} {es : List Expr}
    {code : List Instruction} (h : ChoiceLoweredTo Harmless greedy pc reg exit es code n)
    (hc : t.CodeAt pc code) (hexit : exit = pc + code.length) :
    t.Delivers pc exit reg (reg + n) ((choice es).paths t.elements t.render greedy) := by
  match h with
  | .nil => rw [hexit]; exact .empty pc reg reg
  | .one h =>
    rw [hexit]
    exact (h.delivers hc).congr rfl rfl fun _ => (List.append_nil _).symm
  | .cons h rest =>
    have hjump := hc.tail.right
    have hbehind := hjump.tail
    rw [Nat.add_right_comm pc 1, Nat.add_assoc _ 1 1] at hbehind
    have hrest := rest.delivers hbehind
      (hexit.trans (by simp only [List.length_cons, List.length_append]; omega))
    have := Task.Delivers.split hc.head (h.delivers hc.tail.left) hjump.head hrest (by omega)
      (by omega)
    rwa [Nat.add_assoc] at this

end

end Expr

/-! ## Whole programs -/

namespace Pattern

/-- The machine runs code of the pattern's expression, lowered in any way, instead of its program. -/
def loweredTask (code : List Instruction) (registers : Nat) (elements : Array Element)
    (render : List Element → String) (stop : Option Nat) : Task where
  program := ⟨(code ++ [Instruction.accept]).toArray, registers⟩
  elements := elements
  render := render
  stop := stop

/-- The beginning of a run at a position, with so many groups and registers. -/
def loweredEntry (groups registers start : Nat) : Config :=
  ⟨0, start, .initial groups registers, []⟩

variable (elements : Array Element) (render : List Element → String) (stop : Option Nat)

theorem finds_loweredEntry {e : Expr} {code : List Instruction} {n : Nat}
    (h : e.LoweredTo Expr.Harmless true 0 0 code n) (groups start : Nat) :
    (loweredTask code n elements render stop).Finds (loweredEntry groups n start)
      ((e.paths elements render true (Path.entry groups start)).find? (Trial.decides stop)) := by
  have hc : (loweredTask code n elements render stop).CodeAt 0 (code ++ [.accept]) :=
    fun i x hx => by simpa [loweredTask] using hx
  have haccept := hc.right.head
  exact (h.delivers hc.left).finds haccept rfl ⟨rfl, rfl, rfl⟩ rfl
    (by simp [loweredEntry, Store.initial])

/-- **Folding trivial repetitions keeps what is matched**, but for reluctant ones of exactly one
iteration with a body that feels greed. -/
theorem folding_keeps_trials (p : Pattern) {code : List Instruction} {n : Nat}
    (h : p.root.LoweredTo Expr.Harmless true 0 0 code n) (start : Nat) :
    ∃ hc : (loweredTask code n elements render stop).Halts (loweredEntry p.groupCount n start),
      ∀ a a', ((loweredTask code n elements render stop).run none a ⟨_, hc⟩).outcome.map
          Outcome.trial? =
        (p.attempt elements render stop none a' start).outcome.map Outcome.trial? := by
  obtain ⟨o, ho, htrial⟩ := finds_loweredEntry elements render stop h p.groupCount start
  obtain ⟨k, hk, hlt⟩ := ho.exists_after
  refine ⟨ho.halts, fun a a' => ?_⟩
  rw [attempt_finds_first_path, (ho.run hk hlt _).1, Option.map_some, htrial]

/-- A group with a reluctant run in a reluctant repetition of one iteration, behind a repetition of
none, both lowered like any other. -/
theorem folding_keeps_trials_of_counted :
    let text : Regex := ⟨"", fun _ => true⟩
    let root : Expr := .sequence [.iterate (.node .any) 0 (some 0) true,
      .group (.iterate (.multi 1 (some 2) text false) 1 (some 1) false) (some 1) none]
    let p : Pattern := .build "" root [] 2
    let code : List Instruction :=
      [.enter 0, .loop 0 0 (some 0) true 4, .node .any, .next 0 0 1, .openGroup 1, .enter 1,
        .loop 1 1 (some 1) false 9, .multi 1 (some 2) text false, .next 1 1 6, .closeGroup 1]
    let elements : Array Element := #[⟨"a", fun _ => none⟩, ⟨"b", fun _ => none⟩]
    p.root.LoweredTo Expr.Harmless true 0 0 code 2 ∧
    ∃ hc : (loweredTask code 2 elements joinTexts none).Halts (loweredEntry p.groupCount 2 0),
      ∀ a a', ((loweredTask code 2 elements joinTexts none).run none a ⟨_, hc⟩).outcome.map
          Outcome.trial? =
        (p.attempt elements joinTexts none none a' 0).outcome.map Outcome.trial? := by
  intro text root p code elements
  have hvoid : Expr.LoweredTo Expr.Harmless true 0 0 (.iterate (.node .any) 0 (some 0) true) _ _ :=
    .counted (fun _ => rfl) (by simp) (.node .any)
  have honce : Expr.LoweredTo Expr.Harmless true 5 1
      (.iterate (.multi 1 (some 2) text false) 1 (some 1) false) _ _ :=
    .counted (by simp) (fun _ _ => .inr (.inr rfl)) (.multi 1 (some 2) text false)
  have h : p.root.LoweredTo Expr.Harmless true 0 0 code 2 :=
    .sequence (.cons hvoid (.cons (.capture 1 none honce) .nil))
  exact ⟨h, folding_keeps_trials elements joinTexts none p h 0⟩

/-- **Folding a reluctant repetition of one iteration loses its reluctance**: it takes two elements,
where lowered like any other it takes one. -/
theorem folding_loses_reluctance :
    let tree : Regex.Syntax := .seq [.look .textStart,
      .iterate (.step ⟨#[0, 10, 11, 55296, 57344, 1114112]⟩) 0 none true, .look .textEnd]
    let text : Regex := ⟨"^(?:.*)$", fun s => tree.occursIn s.toList⟩
    let root : Expr := .iterate (.multi 1 (some 2) text true) 1 (some 1) false
    let p : Pattern := .build "" root [] 1
    let code : List Instruction := [.enter 0, .loop 0 1 (some 1) false 4,
      .multi 1 (some 2) text false, .next 0 1 1]
    let elements : Array Element := #[⟨"a", fun _ => none⟩, ⟨"b", fun _ => none⟩]
    Regex.wholeText? ".*" false = some text ∧
    p.root.LoweredTo (fun _ _ _ => True) true 0 0 code 1 ∧
    (∃ hc : (loweredTask code 1 elements joinTexts none).Halts (loweredEntry p.groupCount 1 0),
      ((loweredTask code 1 elements joinTexts none).run none {} ⟨_, hc⟩).outcome.map
        Outcome.trial? = some (some (.ok { pos := 1, slots := #[none, none] }))) ∧
    (p.attempt elements joinTexts none none {} 0).outcome.map Outcome.trial? =
      some (some (.ok { pos := 2, slots := #[none, none] })) := by
  intro tree text root p code elements
  have h : Expr.LoweredTo (fun _ _ _ => True) true 0 0
      (.iterate (.multi 1 (some 2) text true) 1 (some 1) false) code 1 :=
    .counted (by simp) (fun _ _ => trivial) (.multi 1 (some 2) text true)
  -- The code is also that of a reluctant run, for which folding is harmless.
  have h' : Expr.LoweredTo Expr.Harmless true 0 0
      (.iterate (.multi 1 (some 2) text false) 1 (some 1) false) code 1 :=
    .counted (by simp) (fun _ _ => .inr (.inr rfl)) (.multi 1 (some 2) text false)
  refine ⟨by cbv, h, ?_, ?_⟩
  · obtain ⟨o, ho, htrial⟩ := finds_loweredEntry elements joinTexts none h' p.groupCount 0
    obtain ⟨k, hk, hlt⟩ := ho.exists_after
    refine ⟨ho.halts, ?_⟩
    rw [(ho.run hk hlt _).1, Option.map_some, htrial]
    cbv
  · rw [attempt_finds_first_path]
    cbv

end Pattern

end Motif
