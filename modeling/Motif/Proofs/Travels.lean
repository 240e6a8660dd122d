import Motif.Proofs.Attempt

/-!
# Where runs travel

A run goes on along its program, takes up choices again and goes on elsewhere. If one forgets what it
has given up, what is left is a travel from one point to another by one instruction at a time, along
any of the ways that an instruction leaves open. Whatever a run comes to is at the end of such a
travel from its beginning: a choice leads on from the point at which it was made, with the store of
that time.

* `Point`, `Task.Moves`: points, and one move between them.
* `Task.Opens`, `Task.Backed`: the points at which open choices were made.
* `Task.Abides`: how a run goes on if a property is kept by all moves.
* **`Task.abides_step`**, `Task.Yields.abides`: one step, and a whole run.
* `Task.Travels`: several moves, with the addresses on the way.
* **`Pattern.exists_travels_of_attempt`**: what an attempt accepts is the end of a travel.
-/

namespace Motif

/-- A point of a run: the address of the next instruction, the position of the next element, and the
store. -/
structure Point where
  /-- The address of the next instruction. -/
  pc : Nat
  /-- The position of the next element. -/
  pos : Nat
  /-- The store. -/
  store : Store

/-- The point at which a configuration stands. -/
def Config.point (c : Config) : Point := ⟨c.pc, c.pos, c.store⟩

namespace Task

variable (t : Task)

/-! ## Moves -/

/-- From one point an instruction may lead to another. -/
def Performs (x y : Point) : Instruction → Prop
  | .node p => ∃ e, t.elements[x.pos]? = some e ∧
      ((p.test e).verdict = .ok .accept ∧ y = ⟨x.pc + 1, x.pos + 1, x.store⟩ ∨
        ∃ v, (p.test e).verdict = .ok (.acceptWith v) ∧
          y = ⟨x.pc + 1, x.pos + 1, x.store.note (.payload x.pos v)⟩)
  | .split primary alternate => y = { x with pc := primary } ∨ y = { x with pc := alternate }
  | .jump target => y = { x with pc := target }
  | .openGroup id =>
    y = ⟨x.pc + 1, x.pos, (x.store.setSlot (2 * id) (some x.pos)).setSlot (2 * id + 1) none⟩
  | .closeGroup id => y = ⟨x.pc + 1, x.pos, x.store.setSlot (2 * id + 1) (some x.pos)⟩
  | .backref id => ∃ len, t.repeated? x.store x.pos id = some len ∧
      y = ⟨x.pc + 1, x.pos + len, x.store⟩
  | .enter reg => y = ⟨x.pc + 1, x.pos, x.store.setCounter reg ⟨0, x.pos⟩⟩
  | .loop reg min max _ exit =>
    let count := (x.store.counter reg).count
    (count < min ∨ max ≠ some count) ∧
        y = ⟨x.pc + 1, x.pos, x.store.beginIteration reg x.pos⟩ ∨
      ¬ count < min ∧ y = { x with pc := exit }
  | .next reg min head =>
    let ⟨count, start⟩ := x.store.counter reg
    ¬ (x.pos = start ∧ min ≤ count) ∧ y = ⟨head, x.pos, x.store.setCounter reg ⟨count + 1, start⟩⟩
  | .multi min max text _ => ∃ len, min ≤ len ∧ len ≤ t.reach x.pos max ∧
      t.suits x.pos text len = true ∧ y = ⟨x.pc + 1, x.pos + len, x.store⟩
  | .mark action target => y = ⟨x.pc + 1, x.pos, x.store.note (.fire action target)⟩
  | .assert a => t.asserts x.pos a = true ∧ y = { x with pc := x.pc + 1 }
  | .accept => False

/-- One instruction leads from one point to another. -/
def Moves (x y : Point) : Prop := ∃ i, t.program.code[x.pc]? = some i ∧ t.Performs x y i

/-- From a point a choice leads on by one move. -/
def Opens (x : Point) : Resume → Prop
  | .goto pc => t.Moves x { x with pc }
  | .iterate head reg => t.Moves x ⟨head + 1, x.pos, x.store.beginIteration reg x.pos⟩
  | .retry pc _ => pc = x.pc

/-- Each of the open choices was made at a point with a property, while the ones below it were open.
-/
inductive Backed (P : Point → Prop) : Store → List Choice → Prop where
  | nil (s : Store) : Backed P s []
  | cons {s : Store} {x : Point} {r : Resume} {stack : List Choice} (hx : P x) (hr : t.Opens x r)
    (hs : x.store.Prior s) (rest : Backed P x.store stack) :
    Backed P s (⟨r, x.pos, x.store.undo.size, x.store.trail.size⟩ :: stack)

/-- A run goes on or accepts at a point with a property, with choices that were made at such points,
or it ends otherwise. -/
def Abides (P : Point → Prop) : Progress → Prop
  | .running c => P c.point ∧ t.Backed P c.store c.stack
  | .finished (.accepted stop s) =>
    ∃ pc : Nat, t.program.code[pc]? = some .accept ∧ P ⟨pc, stop, s⟩
  | .finished _ => True

variable {t} {P : Point → Prop}

theorem Backed.mono {s s' : Store} {stack : List Choice} (h : t.Backed P s stack)
    (hs : s.Prior s') : t.Backed P s' stack := by
  cases h with
  | nil => exact .nil s'
  | cons hx hr h rest => exact .cons hx hr (h.trans hs) rest

theorem Backed.push {c : Config} {r : Resume} (h : t.Backed P c.store c.stack) (hx : P c.point)
    (hr : t.Opens c.point r) : t.Backed P (c.push r).store (c.push r).stack :=
  .cons hx hr (.refl _) h

theorem mem_spanLengths {lo hi len : Nat} {greedy : Bool} :
    len ∈ Motif.spanLengths lo hi greedy ↔ lo ≤ len ∧ len ≤ hi := by
  have h : len ∈ List.range' lo (hi + 1 - lo) ↔ lo ≤ len ∧ len ≤ hi := by
    rw [List.mem_range'_1]
    omega
  cases greedy with
  | true => exact List.mem_reverse.trans h
  | false => exact h

/-- A length that is found for a run of elements is one that the run may have. -/
theorem spanLength?_spec {pos min len : Nat} {max : Option Nat} {text : Regex} {greedy : Bool}
    {bound : Option Nat} (h : t.spanLength? pos min max text greedy bound = some len) :
    min ≤ len ∧ len ≤ t.reach pos max ∧ t.suits pos text len = true := by
  have hsuits : t.suits pos text len = true := List.find?_some h
  rcases greedy with _ | _
  · have hmem : len ∈ Motif.spanLengths _ _ false := List.mem_of_find?_eq_some h
    have := mem_spanLengths.1 hmem
    cases bound <;> simp at this <;> exact ⟨by omega, this.2, hsuits⟩
  · have hmem : len ∈ Motif.spanLengths _ _ true := List.mem_of_find?_eq_some h
    have := mem_spanLengths.1 hmem
    cases bound <;> simp at this <;> exact ⟨this.1, by omega, hsuits⟩

/-! ## Steps -/

section Steps

variable (hP : ∀ x y, P x → t.Moves x y → P y)

include hP

theorem abides_takeSpan {c : Config} {min len : Nat} {max : Option Nat} {text : Regex}
    {greedy : Bool} (hi : t.program.code[c.pc]? = some (.multi min max text greedy))
    (hlen : min ≤ len ∧ len ≤ t.reach c.pos max ∧ t.suits c.pos text len = true) (hx : P c.point)
    (hb : t.Backed P c.store c.stack) : t.Abides P (.running (c.takeSpan min greedy len)) := by
  have hmove : t.Moves c.point ⟨c.pc + 1, c.pos + len, c.store⟩ :=
    ⟨_, hi, len, hlen.1, hlen.2.1, hlen.2.2, rfl⟩
  have hy := hP _ _ hx hmove
  have hpush (len : Nat) := hb.push (r := .retry c.pc len) hx rfl
  unfold Config.takeSpan
  split
  · split
    · exact ⟨hy, hpush _⟩
    · exact ⟨hy, hb⟩
  · exact ⟨hy, hpush _⟩

theorem abides_offer {x : Point} {r : Resume} {stack : List Choice} {go : Config → Config}
    (hx : P x) (hr : t.Opens x r) (rest : t.Backed P x.store stack)
    (ho : t.offer? x.pos r = some go) : t.Abides P (.running (go ⟨0, x.pos, x.store, stack⟩)) := by
  cases r with
  | goto pc =>
    cases ho
    exact ⟨hP _ _ hx hr, rest⟩
  | iterate head reg =>
    cases ho
    exact ⟨hP _ _ hx hr, rest.mono (.setCounter _ _ _)⟩
  | retry pc len =>
    obtain rfl : pc = x.pc := hr
    rw [offer?] at ho
    split at ho
    · next hi =>
      obtain ⟨l, hl, rfl⟩ := Option.map_eq_some_iff.1 ho
      exact abides_takeSpan hP (c := ⟨x.pc, x.pos, x.store, stack⟩) hi (spanLength?_spec hl) hx rest
    · cases ho

theorem abides_backtrack {s : Store} {stack : List Choice} (h : t.Backed P s stack) :
    t.Abides P (t.backtrack s stack).progress := by
  induction h with
  | nil s => trivial
  | @cons s x r stack hx hr hs rest ih =>
    simp only [backtrack, hs.rollback_self]
    cases ho : t.offer? x.pos r with
    | some go => exact abides_offer hP hx hr rest ho
    | none => exact ih

variable {c : Config} (hb : t.Backed P c.store c.stack)

include hb

theorem abides_fail : t.Abides P (t.fail c).progress := abides_backtrack hP hb

theorem abides_proceed {d : Option Config} (hd : ∀ c', d = some c' → t.Abides P (.running c')) :
    t.Abides P (t.proceed c d).progress := by
  cases d with
  | none => exact abides_fail hP hb
  | some c' => exact hd c' rfl

variable (hx : P c.point)

include hx

theorem abides_testNode {p : NodePattern} (hi : t.program.code[c.pc]? = some (.node p)) :
    t.Abides P (t.testNode c p).progress := by
  unfold testNode
  cases he : t.elements[c.pos]? with
  | none => exact abides_fail hP hb
  | some e =>
    dsimp only
    cases hv : (p.test e).verdict with
    | error err => trivial
    | ok v =>
      cases v with
      | reject => exact abides_fail hP hb
      | accept => exact ⟨hP _ _ hx ⟨_, hi, e, he, .inl ⟨hv, rfl⟩⟩, hb⟩
      | acceptWith v =>
        exact ⟨hP _ _ hx ⟨_, hi, e, he, .inr ⟨v, hv, rfl⟩⟩, hb.mono (.note _ _)⟩

theorem abides_iteration {reg min exit : Nat} {max : Option Nat} {greedy : Bool}
    (hi : t.program.code[c.pc]? = some (.loop reg min max greedy exit)) :
    t.Abides P (.running (iteration c reg min max greedy exit)) := by
  let inside : Point := ⟨c.pc + 1, c.pos, c.store.beginIteration reg c.pos⟩
  have hbody (h : (c.store.counter reg).count < min ∨ max ≠ some (c.store.counter reg).count) :
      t.Moves c.point inside := ⟨_, hi, .inl ⟨h, rfl⟩⟩
  have hexit (h : ¬ (c.store.counter reg).count < min) : t.Moves c.point { c.point with pc := exit } :=
    ⟨_, hi, .inr ⟨h, rfl⟩⟩
  unfold iteration
  dsimp only
  split
  · next hc => exact ⟨hP _ _ hx (hbody (.inl hc)), hb.mono (.setCounter _ _ _)⟩
  · next hc =>
    split
    · exact ⟨hP _ _ hx (hexit hc), hb⟩
    · next hm =>
      split
      · exact ⟨hP _ _ hx (hbody (.inr hm)),
          (hb.push (r := .goto exit) hx (hexit hc)).mono (.setCounter _ _ _)⟩
      · exact ⟨hP _ _ hx (hexit hc), hb.push (r := .iterate c.pc reg) hx (hbody (.inr hm))⟩

theorem abides_execute {i : Instruction} (hi : t.program.code[c.pc]? = some i) :
    t.Abides P (t.execute c i).progress := by
  cases i with
  | node p => exact abides_testNode hP hb hx hi
  | split primary alternate =>
    exact ⟨hP _ _ hx ⟨_, hi, .inl rfl⟩, hb.push (r := .goto alternate) hx ⟨_, hi, .inr rfl⟩⟩
  | jump target => exact ⟨hP _ _ hx ⟨_, hi, rfl⟩, hb⟩
  | openGroup id =>
    exact ⟨hP _ _ hx ⟨_, hi, rfl⟩, hb.mono ((Store.Prior.setSlot _ _ _).trans (.setSlot _ _ _))⟩
  | closeGroup id => exact ⟨hP _ _ hx ⟨_, hi, rfl⟩, hb.mono (.setSlot _ _ _)⟩
  | backref id =>
    refine abides_proceed hP hb fun c' hc' => ?_
    obtain ⟨len, hlen, rfl⟩ := Option.map_eq_some_iff.1 hc'
    exact ⟨hP _ _ hx ⟨_, hi, len, hlen, rfl⟩, hb⟩
  | enter reg => exact ⟨hP _ _ hx ⟨_, hi, rfl⟩, hb.mono (.setCounter _ _ _)⟩
  | loop reg min max greedy exit => exact abides_iteration hP hb hx hi
  | next reg min head =>
    simp only [execute, endIteration]
    split
    · exact abides_fail hP hb
    · next h => exact ⟨hP _ _ hx ⟨_, hi, h, rfl⟩, hb.mono (.setCounter _ _ _)⟩
  | multi min max text greedy =>
    refine abides_proceed hP hb fun c' hc' => ?_
    obtain ⟨len, hlen, rfl⟩ := Option.map_eq_some_iff.1 hc'
    exact abides_takeSpan hP hi (spanLength?_spec hlen) hx hb
  | mark action target => exact ⟨hP _ _ hx ⟨_, hi, rfl⟩, hb.mono (.note _ _)⟩
  | assert a =>
    refine abides_proceed hP hb fun c' hc' => ?_
    split at hc'
    · next h =>
      cases hc'
      exact ⟨hP _ _ hx ⟨_, hi, h, rfl⟩, hb⟩
    · cases hc'
  | accept =>
    simp only [execute]
    split
    · exact ⟨c.pc, hi, hx⟩
    · exact abides_fail hP hb

/-- **What all moves keep, every step keeps**, whether it goes on or takes up an open choice. -/
theorem abides_step : t.Abides P (t.step c).progress := by
  cases hi : t.program.code[c.pc]? with
  | none =>
    rw [step, hi]
    exact abides_fail hP hb
  | some i =>
    rw [step_eq hi]
    exact abides_execute hP hb hx hi

end Steps

/-- **What all moves keep holds at the end of a run.** -/
theorem Yields.abides (hP : ∀ x y, P x → t.Moves x y → P y) {c : Config} {o : Outcome}
    (h : t.Yields c o) (hx : P c.point) (hb : t.Backed P c.store c.stack) :
    t.Abides P (.finished o) := by
  induction h with
  | finish h => exact h ▸ abides_step hP hb hx
  | proceed h _ ih =>
    have hstep := abides_step hP hb hx
    rw [h] at hstep
    exact ih hstep.1 hstep.2

/-! ## Travels -/

variable (t) in
/-- Moves lead from one point to another, by the instructions at some addresses. -/
inductive Travels : Point → List Nat → Point → Prop where
  | nil (x : Point) : Travels x [] x
  | cons {x y z : Point} {as : List Nat} (h : t.Moves x y) (rest : Travels y as z) :
    Travels x (x.pc :: as) z

theorem Travels.concat {x y z : Point} {as : List Nat} (h : t.Travels x as y) (hm : t.Moves y z) :
    t.Travels x (as ++ [y.pc]) z := by
  induction h with
  | nil x => exact .cons hm (.nil z)
  | cons h _ ih => exact .cons h (ih hm)

end Task

/-- The point at which an attempt of a pattern begins. -/
def Pattern.origin (p : Pattern) (start : Nat) : Point :=
  ⟨0, start, .initial p.groupCount p.program.registers⟩

/-- **What an attempt accepts is the end of a travel** from where it began. -/
theorem Pattern.exists_travels_of_attempt {p : Pattern} {elements : Array Element}
    {render : List Element → String} {stop limit : Option Nat} {a : Account} {start : Nat}
    {b : Buffers} {stop' : Nat} {s : Store}
    (h : (p.attempt elements render stop limit a start b).outcome = some (.accepted stop' s)) :
    ∃ as pc, p.program.code[pc]? = some .accept ∧
      (p.task elements render stop).Travels (p.origin start) as ⟨pc, stop', s⟩ := by
  let t := p.task elements render stop
  have hP : ∀ x y, (∃ as, t.Travels (p.origin start) as x) → t.Moves x y →
      ∃ as, t.Travels (p.origin start) as y := fun x y ⟨as, hx⟩ hm => ⟨_, hx.concat hm⟩
  have hpoint : (p.entry start b).point = p.origin start := by
    rw [entry_eq]
    rfl
  have hstack : (p.entry start b).stack = [] := by rw [entry_eq]
  obtain ⟨pc, hpc, as, hx⟩ := (Task.yields_of_run h).abides hP ⟨[], hpoint ▸ .nil _⟩
    (hstack ▸ .nil _)
  exact ⟨as, pc, hpc, hx⟩

end Motif
