import Motif.Proofs.Attempt

/-!
# Groups under other numbers

The numbers of groups say in which slots the machine keeps them, and nothing else. If groups get
other numbers, no two of them the same, then the machine takes the same steps with the contents of
the slots elsewhere, whatever the limit is. Slots that belong to no group stay empty.

* `Instruction.renamed`, `Note.renamed`, `Undo.renamed`: groups under other numbers.
* `Store.Renames`, `Config.Renames`, `Task.Renames`: the groups of one have other numbers in the
  other.
* `Store.Renames.setSlot`, `Store.Renames.rollback`: changes of the store, and what restores it.
* **`Task.Renames.step`**: one step.
* **`Task.Renames.run`**: a whole run.
* `Pattern.Renames.attempt`: an attempt of a pattern.
-/

namespace Motif

/-! ## Other numbers -/

/-- The slot that has the place of a slot if groups get other numbers. -/
def renameSlot (f : Nat → Nat) (i : Nat) : Nat := 2 * f (i / 2) + i % 2

/-- A target under another number; the whole match stays what it is. -/
def renameTarget (f : Nat → Nat) (target : Nat) : Nat := if target = 0 then 0 else f target

/-- An instruction with groups under other numbers. -/
def Instruction.renamed (f : Nat → Nat) : Instruction → Instruction
  | openGroup id => openGroup (f id)
  | closeGroup id => closeGroup (f id)
  | backref id => backref (f id)
  | mark action target => mark action (renameTarget f target)
  | i => i

/-- The groups that an instruction opens, closes or refers to are of some kind. -/
def Instruction.Names (G : Nat → Prop) : Instruction → Prop
  | openGroup id | closeGroup id | backref id => G id
  | _ => True

/-- A note with its group under another number. -/
def Note.renamed (f : Nat → Nat) : Note → Note
  | payload index value => payload index value
  | fire action target => fire action (renameTarget f target)

/-- What takes a change back, with the slots under other numbers. -/
def Undo.renamed (f : Nat → Nat) : Undo → Undo
  | slot index old => slot (renameSlot f index) old
  | counter reg old => counter reg old

/-- The group of a slot that was changed is of some kind. -/
def Undo.Names (G : Nat → Prop) : Undo → Prop
  | slot index _ => G (index / 2)
  | counter .. => True

section

variable (f : Nat → Nat) (g : Nat)

@[simp] theorem renameSlot_two_mul : renameSlot f (2 * g) = 2 * f g := by simp [renameSlot]

@[simp] theorem renameSlot_two_mul_add_one : renameSlot f (2 * g + 1) = 2 * f g + 1 := by
  unfold renameSlot
  rw [Nat.mul_add_mod, Nat.mul_add_div (by decide)]
  rfl

end

variable {f : Nat → Nat} {G : Nat → Prop}

theorem renameSlot_inj (hf : ∀ g h, G g → G h → f g = f h → g = h) {i j : Nat} (hi : G (i / 2))
    (hj : G (j / 2)) (h : renameSlot f i = renameSlot f j) : i = j := by
  unfold renameSlot at h
  have := hf _ _ hi hj (by omega)
  omega

/-! ## Stores -/

variable (f G) in
/-- The groups of one store, as far as they are of some kind, have other numbers in another store,
which holds nothing else. -/
structure Store.Renames (s s' : Store) : Prop where
  slots_eq : ∀ i, G (i / 2) → s'.slots[renameSlot f i]? = s.slots[i]?
  slot_eq_none : ∀ j, (∀ i, G (i / 2) → renameSlot f i ≠ j) → s'.slot j = none
  counters_eq : s'.counters = s.counters
  undo_eq : s'.undo = s.undo.map (Undo.renamed f)
  names : ∀ u ∈ s.undo, u.Names G
  trail_eq : s'.trail = s.trail.map (Note.renamed f)

namespace Store.Renames

variable {s s' : Store}

theorem initial {groups groups' : Nat} (h : ∀ g, G g → (g < groups ↔ f g < groups'))
    (registers : Nat) :
    Renames f G (.initial groups registers) (.initial groups' registers) where
  slots_eq i hi := by
    have := h _ hi
    simp only [Store.initial, Array.getElem?_replicate, renameSlot]
    congr 1
    rw [eq_iff_iff]
    omega
  slot_eq_none j _ := by
    simp only [slot, Store.initial, Array.getElem?_replicate]
    split <;> rfl
  counters_eq := rfl
  undo_eq := by simp [Store.initial]
  names := by simp [Store.initial]
  trail_eq := by simp [Store.initial]

variable (h : Renames f G s s')

include h

theorem slot_eq {i : Nat} (hi : G (i / 2)) : s'.slot (renameSlot f i) = s.slot i := by
  rw [slot, slot, h.slots_eq i hi]

theorem lt_size_iff {i : Nat} (hi : G (i / 2)) :
    renameSlot f i < s'.slots.size ↔ i < s.slots.size := by
  rw [← not_iff_not, Nat.not_lt, Nat.not_lt, ← Array.getElem?_eq_none_iff,
    ← Array.getElem?_eq_none_iff, h.slots_eq i hi]

theorem size_undo_eq : s'.undo.size = s.undo.size := by rw [h.undo_eq, Array.size_map]

theorem size_trail_eq : s'.trail.size = s.trail.size := by rw [h.trail_eq, Array.size_map]

theorem counter_eq (r : Nat) : s'.counter r = s.counter r := by
  rw [counter, counter, h.counters_eq]

theorem note (n : Note) : Renames f G (s.note n) (s'.note (n.renamed f)) :=
  ⟨h.slots_eq, h.slot_eq_none, h.counters_eq, h.undo_eq, h.names, by
    simp only [Store.note, h.trail_eq, Array.map_push]⟩

theorem setCounter (r : Nat) (v : Counter) :
    Renames f G (s.setCounter r v) (s'.setCounter r v) where
  slots_eq := h.slots_eq
  slot_eq_none := h.slot_eq_none
  counters_eq := by simp only [Store.setCounter, h.counters_eq]
  undo_eq := by
    simp only [Store.setCounter, h.counter_eq, h.undo_eq, Array.map_push]
    rfl
  names u hu := by
    obtain hu | rfl := Array.mem_push.1 hu
    · exact h.names u hu
    · trivial
  trail_eq := h.trail_eq

theorem beginIteration (r pos : Nat) :
    Renames f G (s.beginIteration r pos) (s'.beginIteration r pos) := by
  unfold Store.beginIteration
  rw [h.counter_eq]
  exact h.setCounter r _

variable (hf : ∀ g h, G g → G h → f g = f h → g = h)

include hf

theorem setIfInBounds {i : Nat} (hi : G (i / 2)) (v : Option Nat) :
    (∀ j, G (j / 2) → (s'.slots.setIfInBounds (renameSlot f i) v)[renameSlot f j]? =
        (s.slots.setIfInBounds i v)[j]?) ∧
      ∀ j, (∀ i, G (i / 2) → renameSlot f i ≠ j) →
        (s'.slots.setIfInBounds (renameSlot f i) v)[j]?.getD none = none := by
  refine ⟨fun j hj => ?_, fun j hj => ?_⟩
  · rw [Array.getElem?_setIfInBounds, Array.getElem?_setIfInBounds]
    by_cases heq : i = j
    · subst heq
      simp only [if_true, h.lt_size_iff hi]
    · rw [if_neg heq, if_neg fun heq' => heq (renameSlot_inj hf hi hj heq'), h.slots_eq j hj]
  · rw [Array.getElem?_setIfInBounds, if_neg (hj i hi)]
    exact h.slot_eq_none j hj

theorem setSlot {i : Nat} (hi : G (i / 2)) (v : Option Nat) :
    Renames f G (s.setSlot i v) (s'.setSlot (renameSlot f i) v) where
  slots_eq := (h.setIfInBounds hf hi v).1
  slot_eq_none := (h.setIfInBounds hf hi v).2
  counters_eq := h.counters_eq
  undo_eq := by
    simp only [Store.setSlot, h.slot_eq hi, h.undo_eq, Array.map_push]
    rfl
  names u hu := by
    obtain hu | rfl := Array.mem_push.1 hu
    · exact h.names u hu
    · exact hi
  trail_eq := h.trail_eq

theorem undoLast : Renames f G s.undoLast s'.undoLast := by
  have hpop : s'.undo.pop = s.undo.pop.map (Undo.renamed f) := by
    rw [h.undo_eq, Array.map_pop]
  have hmem (u : Undo) (hu : u ∈ s.undo.pop) : u.Names G := by
    rw [← Array.mem_toList_iff, Array.toList_pop] at hu
    exact h.names u (Array.mem_toList_iff.1 ((List.dropLast_sublist _).subset hu))
  have hback : s'.undo.back? = s.undo.back?.map (Undo.renamed f) := by
    rw [h.undo_eq, Array.back?_map]
  unfold Store.undoLast
  cases hu : s.undo.back? with
  | none =>
    rw [hback, hu]
    exact h
  | some u =>
    rw [hback, hu]
    cases u with
    | slot i old =>
      have hi : G (i / 2) := h.names _ (Array.mem_of_back? hu)
      exact ⟨(h.setIfInBounds hf hi old).1, (h.setIfInBounds hf hi old).2, h.counters_eq, hpop,
        hmem, h.trail_eq⟩
    | counter r old =>
      exact ⟨h.slots_eq, h.slot_eq_none, congrArg (·.setIfInBounds r old) h.counters_eq, hpop,
        hmem, h.trail_eq⟩

theorem unwind (k : Nat) : Renames f G (Store.unwind k s) (Store.unwind k s') := by
  induction k generalizing s s' with
  | zero => exact h
  | succ k ih => exact ih (h.undoLast hf)

theorem rollback (u k : Nat) : Renames f G (s.rollback u k) (s'.rollback u k) := by
  unfold Store.rollback
  rw [h.size_undo_eq]
  have := h.unwind hf (s.undo.size - u)
  exact ⟨this.slots_eq, this.slot_eq_none, this.counters_eq, this.undo_eq, this.names, by
    simp only [this.trail_eq, Array.shrink_eq_take, Array.take_eq_extract, Array.map_extract]⟩

end Store.Renames

/-! ## Steps -/

variable (f G) in
/-- The groups of one configuration have other numbers in the other. -/
structure Config.Renames (c c' : Config) : Prop where
  pc_eq : c'.pc = c.pc
  pos_eq : c'.pos = c.pos
  stack_eq : c'.stack = c.stack
  store : c.store.Renames f G c'.store

variable (f G) in
/-- Two runs end in the same way, but for the numbers of groups. -/
inductive Outcome.Renames : Outcome → Outcome → Prop where
  | accepted (stop : Nat) {s s' : Store} (h : s.Renames f G s') :
    Renames (accepted stop s) (accepted stop s')
  | rejected : Renames rejected rejected
  | failed (e : PredicateError) : Renames (failed e) (failed e)

variable (f G) in
/-- Two runs go on, or end, in the same way, but for the numbers of groups. -/
inductive Progress.Renames : Progress → Progress → Prop where
  | running {c c' : Config} (h : c.Renames f G c') : Renames (running c) (running c')
  | finished {o o' : Outcome} (h : o.Renames f G o') : Renames (finished o) (finished o')

variable (f G) in
/-- Two steps are the same, but for the numbers of groups. -/
structure Step.Renames (st st' : Step) : Prop where
  progress : st.progress.Renames f G st'.progress
  backtracks_eq : st'.backtracks = st.backtracks
  calls_eq : st'.calls = st.calls

variable (f G) in
/-- The groups in one task, all of one kind, have other numbers in the other. -/
structure Task.Renames (t t' : Task) : Prop where
  code_eq : ∀ pc : Nat, t'.program.code[pc]? = t.program.code[pc]?.map (Instruction.renamed f)
  names : ∀ (pc : Nat) i, t.program.code[pc]? = some i → i.Names G
  elements_eq : t'.elements = t.elements
  render_eq : t'.render = t.render
  stop_eq : t'.stop = t.stop

namespace Config.Renames

variable {c c' : Config} (h : c.Renames f G c')

include h

theorem advance (k : Nat) : (c.advance k).Renames f G (c'.advance k) :=
  ⟨congrArg (· + 1) h.pc_eq, congrArg (· + k) h.pos_eq, h.stack_eq, h.store⟩

theorem withStore {s s' : Store} (hs : s.Renames f G s') :
    Config.Renames f G { c with store := s } { c' with store := s' } :=
  ⟨h.pc_eq, h.pos_eq, h.stack_eq, hs⟩

theorem goto (pc : Nat) : Config.Renames f G { c with pc } { c' with pc } :=
  ⟨rfl, h.pos_eq, h.stack_eq, h.store⟩

theorem push (r : Resume) : (c.push r).Renames f G (c'.push r) :=
  ⟨h.pc_eq, h.pos_eq, by
    simp only [Config.push, Config.choice, h.pos_eq, h.stack_eq, h.store.size_undo_eq,
      h.store.size_trail_eq], h.store⟩

theorem takeSpan (min : Nat) (greedy : Bool) (len : Nat) :
    (c.takeSpan min greedy len).Renames f G (c'.takeSpan min greedy len) := by
  unfold Config.takeSpan
  rw [h.pc_eq]
  split
  · split
    · exact (h.push _).advance len
    · exact h.advance len
  · exact (h.push _).advance len

theorem iteration (reg min : Nat) (max : Option Nat) (greedy : Bool) (exit : Nat) :
    (Task.iteration c reg min max greedy exit).Renames f G
      (Task.iteration c' reg min max greedy exit) := by
  have body {c c' : Config} (h : c.Renames f G c') :
      Config.Renames f G { c.advance 0 with store := c.store.beginIteration reg c.pos }
        { c'.advance 0 with store := c'.store.beginIteration reg c'.pos } := by
    rw [h.pos_eq]
    exact (h.advance 0).withStore (h.store.beginIteration reg c.pos)
  unfold Task.iteration
  rw [h.store.counter_eq, h.pc_eq]
  dsimp only
  split
  · exact body h
  · split
    · exact h.goto exit
    · split
      · exact body (h.push _)
      · exact (h.push _).goto exit

end Config.Renames

namespace Task.Renames

variable {t t' : Task} (ht : t.Renames f G t')

include ht

theorem slice_eq (pos len : Nat) : t'.slice pos len = t.slice pos len := by
  rw [slice, slice, ht.elements_eq]

theorem spanLength?_eq (pos min : Nat) (max : Option Nat) (text : Regex) (greedy : Bool)
    (bound : Option Nat) :
    t'.spanLength? pos min max text greedy bound = t.spanLength? pos min max text greedy bound := by
  simp only [spanLength?, reach, ht.elements_eq, ht.render_eq, ht.slice_eq]

theorem asserts_eq (pos : Nat) (a : Anchor) : t'.asserts pos a = t.asserts pos a := by
  cases a
  · rfl
  · rw [asserts, asserts, ht.elements_eq]

theorem offer?_eq (pos : Nat) (r : Resume) : t'.offer? pos r = t.offer? pos r := by
  cases r with
  | goto pc => rfl
  | iterate head reg => rfl
  | retry pc len =>
    simp only [offer?, ht.code_eq]
    cases t.program.code[pc]? with
    | none => rfl
    | some i => cases i <;> simp only [Option.map_some, Instruction.renamed, ht.spanLength?_eq]

theorem repeated?_eq {s s' : Store} (hs : s.Renames f G s') (pos : Nat) {id : Nat} (hid : G id) :
    t'.repeated? s' pos (f id) = t.repeated? s pos id := by
  have hbegin := hs.slot_eq (i := 2 * id) (by rwa [Nat.mul_div_cancel_left id (by decide)])
  have hend := hs.slot_eq (i := 2 * id + 1) (by rwa [Nat.mul_add_div (by decide)])
  rw [renameSlot_two_mul] at hbegin
  rw [renameSlot_two_mul_add_one] at hend
  simp only [repeated?, hbegin, hend, ht.elements_eq, ht.slice_eq]

omit ht in
theorem go {pos : Nat} {r : Resume} {go : Config → Config} (ho : t.offer? pos r = some go)
    {c c' : Config} (hc : c.Renames f G c') : (go c).Renames f G (go c') := by
  cases r with
  | goto pc =>
    cases ho
    exact hc.goto pc
  | iterate head reg =>
    cases ho
    exact (hc.goto _).withStore (hc.store.beginIteration reg pos)
  | retry pc len =>
    rw [offer?] at ho
    split at ho
    · obtain ⟨l, -, rfl⟩ := Option.map_eq_some_iff.1 ho
      exact (hc.goto pc).takeSpan _ _ l
    · cases ho

variable (hf : ∀ g h, G g → G h → f g = f h → g = h)

include hf

theorem backtrack {s s' : Store} (hs : s.Renames f G s') (stack : List Choice) :
    (t.backtrack s stack).Renames f G (t'.backtrack s' stack) := by
  induction stack generalizing s s' with
  | nil => exact ⟨.finished .rejected, rfl, rfl⟩
  | cons ch stack ih =>
    have hs := hs.rollback hf ch.undoLength ch.trailLength
    simp only [Task.backtrack, ht.offer?_eq]
    cases ho : t.offer? ch.pos ch.resume with
    | some go => exact ⟨.running (Renames.go ho ⟨rfl, rfl, rfl, hs⟩), rfl, rfl⟩
    | none =>
      have := ih hs
      exact ⟨this.progress, congrArg (· + 1) this.backtracks_eq, this.calls_eq⟩

variable {c c' : Config} (hc : c.Renames f G c')

include hc

theorem fail : (t.fail c).Renames f G (t'.fail c') := by
  unfold Task.fail
  rw [hc.stack_eq]
  exact ht.backtrack hf hc.store c.stack

theorem proceed {d d' : Option Config} (hd : Option.Rel (Config.Renames f G) d d') :
    (t.proceed c d).Renames f G (t'.proceed c' d') := by
  cases hd with
  | some h => exact ⟨.running h, rfl, rfl⟩
  | none => exact ht.fail hf hc

theorem testNode (p : NodePattern) : (t.testNode c p).Renames f G (t'.testNode c' p) := by
  unfold Task.testNode
  rw [ht.elements_eq, hc.pos_eq]
  cases t.elements[c.pos]? with
  | none => exact ht.fail hf hc
  | some e =>
    dsimp only
    cases (p.test e).verdict with
    | error err => exact ⟨.finished (.failed err), rfl, rfl⟩
    | ok v =>
      cases v with
      | reject =>
        have := ht.fail hf hc
        exact ⟨this.progress, this.backtracks_eq, rfl⟩
      | accept => exact ⟨.running (hc.advance 1), rfl, rfl⟩
      | acceptWith v => exact ⟨.running ((hc.advance 1).withStore (hc.store.note _)), rfl, rfl⟩

theorem execute {i : Instruction} (hi : i.Names G) :
    (t.execute c i).Renames f G (t'.execute c' (i.renamed f)) := by
  have hdiv (id : Nat) : 2 * id / 2 = id := Nat.mul_div_cancel_left id (by decide)
  have hdiv' (id : Nat) : (2 * id + 1) / 2 = id := by omega
  cases i with
  | node p => exact ht.testNode hf hc p
  | split primary alternate => exact ⟨.running ((hc.push _).goto primary), rfl, rfl⟩
  | jump target => exact ⟨.running (hc.goto target), rfl, rfl⟩
  | openGroup id =>
    have hopen := hc.store.setSlot hf (i := 2 * id) (by rwa [hdiv]) (some c.pos)
    have := hopen.setSlot hf (i := 2 * id + 1) (by rwa [hdiv']) none
    rw [renameSlot_two_mul, renameSlot_two_mul_add_one] at this
    simp only [Task.execute, Instruction.renamed, hc.pos_eq]
    exact ⟨.running ((hc.advance 0).withStore this), rfl, rfl⟩
  | closeGroup id =>
    have := hc.store.setSlot hf (i := 2 * id + 1) (by rwa [hdiv']) (some c.pos)
    rw [renameSlot_two_mul_add_one] at this
    simp only [Task.execute, Instruction.renamed, hc.pos_eq]
    exact ⟨.running ((hc.advance 0).withStore this), rfl, rfl⟩
  | backref id =>
    refine ht.proceed hf hc ?_
    rw [hc.pos_eq, ht.repeated?_eq hc.store c.pos hi]
    cases t.repeated? c.store c.pos id with
    | none => exact .none
    | some k => exact .some (hc.advance k)
  | enter reg =>
    simp only [Task.execute, Instruction.renamed, hc.pos_eq]
    exact ⟨.running ((hc.advance 0).withStore (hc.store.setCounter reg _)), rfl, rfl⟩
  | loop reg min max greedy exit =>
    exact ⟨.running (hc.iteration reg min max greedy exit), rfl, rfl⟩
  | next reg min head =>
    simp only [Task.execute, Instruction.renamed, Task.endIteration, hc.store.counter_eq, hc.pos_eq]
    split
    · exact ht.fail hf hc
    · exact ⟨.running ⟨rfl, rfl, hc.stack_eq, hc.store.setCounter reg _⟩, rfl, rfl⟩
  | multi min max text greedy =>
    refine ht.proceed hf hc ?_
    rw [hc.pos_eq, ht.spanLength?_eq]
    cases t.spanLength? c.pos min max text greedy none with
    | none => exact .none
    | some len => exact .some (hc.takeSpan min greedy len)
  | mark action target =>
    exact ⟨.running ((hc.advance 0).withStore (hc.store.note (.fire action target))), rfl, rfl⟩
  | assert a =>
    refine ht.proceed hf hc ?_
    rw [hc.pos_eq, ht.asserts_eq]
    split
    · exact .some (hc.advance 0)
    · exact .none
  | accept =>
    simp only [Task.execute, Instruction.renamed, ht.stop_eq, hc.pos_eq]
    split
    · exact ⟨.finished (.accepted c.pos hc.store), rfl, rfl⟩
    · exact ht.fail hf hc

/-- **One step is the same with groups under other numbers.** -/
theorem step : (t.step c).Renames f G (t'.step c') := by
  unfold Task.step
  rw [ht.code_eq, hc.pc_eq]
  cases hi : t.program.code[c.pc]? with
  | none => exact ht.fail hf hc
  | some i => exact ht.execute hf hc (ht.names _ i hi)

end Task.Renames

/-! ## Runs -/

variable (f G) in
/-- Two runs cost the same and end in the same way, but for the numbers of groups. -/
structure Ran.Renames (r r' : Ran) : Prop where
  outcome : Option.Rel (Outcome.Renames f G) r.outcome r'.outcome
  account_eq : r'.account = r.account

/-- **A whole run is the same with groups under other numbers**, step by step and under any
limit. -/
theorem Task.Renames.run {t t' : Task} (ht : t.Renames f G t')
    (hf : ∀ g h, G g → G h → f g = f h → g = h) (limit : Option Nat) (a : Account)
    (c : { c : Config // t.Halts c }) (c' : { c : Config // t'.Halts c })
    (hc : c.1.Renames f G c'.1) : (t.run limit a c).Renames f G (t'.run limit a c') := by
  obtain ⟨c, hhalts⟩ := c
  induction hhalts generalizing a c' with
  | intro c hhalts ih =>
    by_cases hl : limit.any (· < a.steps + 1) = true
    · rw [run_of_limit hl, run_of_limit hl]
      exact ⟨.none, rfl⟩
    · have hstep := ht.step hf hc
      have hadd : a.add (t'.step c'.1) = a.add (t.step c) := by
        rw [Account.add, Account.add, hstep.backtracks_eq, hstep.calls_eq]
      have hprogress := hstep.progress
      cases hp : (t.step c).progress with
      | running d =>
        rw [hp] at hprogress
        generalize hp' : (t'.step c'.1).progress = p' at hprogress
        cases hprogress with
        | @running _ d' hd =>
          rw [run_of_running hl hp, run_of_running hl hp', hadd]
          exact ih d hp (a.add (t.step c)) ⟨d', c'.2.next hp'⟩ hd
      | finished o =>
        rw [hp] at hprogress
        generalize hp' : (t'.step c'.1).progress = p' at hprogress
        cases hprogress with
        | finished ho =>
          rw [run_of_finished hl hp, run_of_finished hl hp']
          exact ⟨.some ho, hadd⟩

/-! ## Patterns -/

namespace Pattern

variable (f G) in
/-- The groups of a pattern, all of one kind, have other numbers in another pattern. -/
structure Renames (p p' : Pattern) : Prop where
  code_eq : ∀ pc : Nat, p'.program.code[pc]? = p.program.code[pc]?.map (Instruction.renamed f)
  registers_eq : p'.program.registers = p.program.registers
  names : ∀ (pc : Nat) i, p.program.code[pc]? = some i → i.Names G
  groupCount : ∀ g, G g → (g < p.groupCount ↔ f g < p'.groupCount)
  score_eq : p'.score = p.score
  bound : ∀ g, 0 < g → g < p.groupCount → G g
  inj : ∀ g h, G g → G h → f g = f h → g = h
  pos : ∀ g, 0 < g → 0 < f g

/-- **An attempt is the same with groups under other numbers.** -/
theorem Renames.attempt {p p' : Pattern} (h : p.Renames f G p') (elements : Array Element)
    (render : List Element → String) (stop limit : Option Nat) (a : Account) (start : Nat) :
    (p.attempt elements render stop limit a start).Renames f G
      (p'.attempt elements render stop limit a start) := by
  have htask : (p.task elements render stop).Renames f G (p'.task elements render stop) :=
    ⟨h.code_eq, h.names, rfl, rfl, rfl⟩
  have hentry : (p.entry start).Renames f G (p'.entry start) := by
    rw [entry_eq, entry_eq, h.registers_eq]
    exact ⟨rfl, rfl, rfl, .initial h.groupCount _⟩
  exact htask.run h.inj limit a _ _ hentry

end Pattern

end Motif
