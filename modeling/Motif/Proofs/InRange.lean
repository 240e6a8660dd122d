import Motif.Proofs.GroupBounds
import Motif.Proofs.Registers
import Motif.Proofs.Travels

/-!
# Nothing is out of range

The machine looks up instructions, registers, slots and elements by number. What an instruction names
is there, since programs are lowered from trees all of whose groups are counted. What a run keeps for
later, on its stack and in its undo log, was in range when it was put there and stays so.

* `Instruction.InRange`, `Pattern.Bounded.inRange`: what the instructions of a program refer to.
* `Store.InRange`, `Resume.InRange`, `Config.InRange`: what a run refers to.
* `Config.Restores`: going back, one choice after the other.
* `Task.inRange_step`: one step.
* **`Config.InRange.of_goesOn`**, `Config.InRange.of_restores`: all that a run comes to.
* `Pattern.inRange_entry`: the beginning of a run.
-/

namespace Motif

/-! ## Programs -/

/-- What an instruction at an address refers to is in range: the addresses at which it goes on, its
register, and the slots of its group. -/
def Instruction.InRange (program : Program) (groups pc : Nat) : Instruction → Prop
  | split primary alternate => primary < program.code.size ∧ alternate < program.code.size
  | jump target => target < program.code.size
  | openGroup id | closeGroup id | backref id =>
    2 * id + 1 < 2 * groups ∧ pc + 1 < program.code.size
  | enter reg => reg < program.registers ∧ pc + 1 < program.code.size
  | loop reg _ _ _ exit =>
    reg < program.registers ∧ exit < program.code.size ∧ pc + 1 < program.code.size
  | next reg _ head => reg < program.registers ∧ head < program.code.size
  | node _ | multi .. | mark .. | assert _ => pc + 1 < program.code.size
  | accept => True

/-- A program has a first instruction, and what its instructions refer to is in range. -/
def Program.InRange (program : Program) (groups : Nat) : Prop :=
  0 < program.code.size ∧
    ∀ (pc : Nat) (i : Instruction), program.code[pc]? = some i → i.InRange program groups pc

/-- **The instructions of a program are in range** if the groups of the pattern are counted. -/
theorem Pattern.Bounded.inRange {p : Pattern} (h : p.Bounded) :
    p.program.InRange p.groupCount := by
  let t : Task := { program := p.program, elements := #[], render := fun _ => "" }
  obtain ⟨hstart, hfits⟩ := Expr.fits_lower (t := t) p.program_eq
  -- Wherever it is known which registers are in use there is an instruction.
  have hlive {a : Nat} {rs : List Nat} (hK : p.root.Live a rs) : a < p.program.code.size := by
    obtain ⟨i, hi, -⟩ := hfits a rs hK
    exact (Array.getElem?_eq_some_iff.1 hi).1
  refine ⟨hlive hstart, fun pc i hi => ?_⟩
  have hpc := (Array.getElem?_eq_some_iff.1 hi).1
  rw [p.program_eq] at hpc
  obtain ⟨rs, hK⟩ := Expr.exists_live hpc
  obtain ⟨i', hi', hfit⟩ := hfits pc rs hK
  obtain rfl : i = i' := Option.some.inj (hi.symm.trans hi')
  have hregisters : p.program.registers = p.root.registers := by rw [p.program_eq]; rfl
  have hnames : i.Names (· < p.groupCount) := by
    rw [p.program_eq, ← Array.getElem?_toList] at hi
    obtain hi | hi := List.mem_append.1 (List.mem_of_getElem? hi)
    · exact Expr.names_of_mem_code true 0 0 p.root h.groups h.backrefs hi
    · obtain rfl := List.mem_singleton.1 hi
      trivial
  cases i with
  | node | multi | mark | assert => exact hlive hfit
  | split => exact ⟨hlive hfit.1, hlive hfit.2⟩
  | jump => exact hlive hfit
  | openGroup id | closeGroup id | backref id =>
    have hid : id < p.groupCount := hnames
    exact ⟨by omega, hlive hfit⟩
  | enter => exact ⟨hregisters ▸ hfit.1, hlive hfit.2⟩
  | loop =>
    obtain ⟨hreg, -, hbody, rs', -, hexit⟩ := hfit
    exact ⟨hregisters ▸ hreg, hlive hexit, hlive hbody⟩
  | next => exact ⟨hregisters ▸ hfit.1, hlive hfit.2.2⟩
  | accept => trivial

/-! ## Stores -/

/-- What is noted of a change is in range, where there are so many groups, registers and elements. -/
def Undo.InRange (groups registers n : Nat) : Undo → Prop
  | slot index old => index < 2 * groups ∧ ∀ v ∈ old, v ≤ n
  | counter reg _ => reg < registers

/-- There are slots for so many groups and registers, an undo log of changes to them, and positions
in a sequence of `n` elements. -/
structure Store.InRange (groups registers n : Nat) (s : Store) : Prop where
  slots : s.slots.size = 2 * groups
  counters : s.counters.size = registers
  slot_le : ∀ index, ∀ v ∈ s.slot index, v ≤ n
  undo : ∀ u ∈ s.undo, u.InRange groups registers n

namespace Store.InRange

variable {groups registers n : Nat} {s : Store} (h : s.InRange groups registers n)

theorem initial (groups registers n : Nat) :
    (Store.initial groups registers).InRange groups registers n where
  slots := Array.size_replicate
  counters := Array.size_replicate
  slot_le index v hv := by
    rw [slot, Store.initial, Array.getElem?_replicate] at hv
    split at hv <;> cases hv
  undo u hu := absurd hu (Array.not_mem_empty u)

theorem mem_of_mem_setIfInBounds {xs : Array (Option Nat)} {i j v : Nat} {value : Option Nat}
    (hv : v ∈ (xs.setIfInBounds i value)[j]?.getD none) : v ∈ value ∨ v ∈ xs[j]?.getD none := by
  rw [Array.getElem?_setIfInBounds] at hv
  split at hv
  · split at hv
    · exact .inl hv
    · cases hv
  · exact .inr hv

include h

theorem note (x : Note) : (s.note x).InRange groups registers n :=
  ⟨h.slots, h.counters, h.slot_le, h.undo⟩

theorem setSlot {index : Nat} {value : Option Nat} (hindex : index < 2 * groups)
    (hvalue : ∀ v ∈ value, v ≤ n) : (s.setSlot index value).InRange groups registers n where
  slots := Array.size_setIfInBounds.trans h.slots
  counters := h.counters
  slot_le i v hv := (mem_of_mem_setIfInBounds hv).elim (hvalue v) (h.slot_le i v)
  undo u hu := by
    obtain hu | rfl := Array.mem_push.1 hu
    · exact h.undo u hu
    · exact ⟨hindex, h.slot_le index⟩

theorem setCounter {reg : Nat} (hreg : reg < registers) (value : Counter) :
    (s.setCounter reg value).InRange groups registers n where
  slots := h.slots
  counters := Array.size_setIfInBounds.trans h.counters
  slot_le := h.slot_le
  undo u hu := by
    obtain hu | rfl := Array.mem_push.1 hu
    · exact h.undo u hu
    · exact hreg

theorem undoLast : s.undoLast.InRange groups registers n := by
  have hrest : ∀ u ∈ s.undo.pop, u.InRange groups registers n := fun u hu =>
    h.undo u (Array.mem_toList_iff.1 (List.mem_of_mem_dropLast (Array.toList_pop ▸ hu.val)))
  unfold Store.undoLast
  split
  · exact h
  · next index old hback =>
    have hold : (Undo.slot index old).InRange groups registers n :=
      h.undo _ (Array.mem_of_back? hback)
    exact ⟨Array.size_setIfInBounds.trans h.slots, h.counters,
      fun i v hv => (mem_of_mem_setIfInBounds hv).elim (hold.2 v) (h.slot_le i v), hrest⟩
  · exact ⟨h.slots, Array.size_setIfInBounds.trans h.counters, h.slot_le, hrest⟩

theorem unwind (k : Nat) : (Store.unwind k s).InRange groups registers n := by
  induction k generalizing s with
  | zero => exact h
  | succ k ih => exact ih h.undoLast

theorem rollback (undoLength trailLength : Nat) :
    (s.rollback undoLength trailLength).InRange groups registers n :=
  ⟨(h.unwind _).slots, (h.unwind _).counters, (h.unwind _).slot_le, (h.unwind _).undo⟩

end Store.InRange

/-! ## Configurations -/

/-- Where a choice leads on is in range; the length of a run of elements is tried again at the
instruction of such a run. -/
def Resume.InRange (program : Program) : Resume → Prop
  | goto pc => pc < program.code.size
  | iterate head reg => head + 1 < program.code.size ∧ reg < program.registers
  | retry pc _ => pc + 1 < program.code.size ∧
    ∃ min max text greedy, program.code[pc]? = some (.multi min max text greedy)

/-- The next instruction, the position and all that is kept for later are in range. -/
structure Config.InRange (t : Task) (groups : Nat) (c : Config) : Prop where
  pc_lt : c.pc < t.program.code.size
  pos_le : c.pos ≤ t.elements.size
  store : c.store.InRange groups t.program.registers t.elements.size
  stack : ∀ ch ∈ c.stack, ch.resume.InRange t.program ∧ ch.pos ≤ t.elements.size

/-- While it goes back, a run takes one choice after the other from the stack, and restores the
position and the store of its time. -/
def Config.Restores (c c' : Config) : Prop :=
  ∃ ch stack, c.stack = ch :: stack ∧ c' = { c with
    pos := ch.pos, store := c.store.rollback ch.undoLength ch.trailLength, stack }

/-- A run goes on in range, or it accepts in range, or it ends otherwise. -/
def Progress.InRange (t : Task) (groups : Nat) : Progress → Prop
  | running c => c.InRange t groups
  | finished (.accepted stop s) =>
    stop ≤ t.elements.size ∧ s.InRange groups t.program.registers t.elements.size
  | finished _ => True

theorem Task.add_reach_le (t : Task) {pos : Nat} (max : Option Nat) (h : pos ≤ t.elements.size) :
    pos + t.reach pos max ≤ t.elements.size := by
  have hroom : t.reach pos max ≤ t.elements.size - pos := by
    unfold reach
    cases max with
    | none => exact Nat.le_refl _
    | some max => exact Nat.min_le_right _ _
  omega

namespace Config.InRange

variable {t : Task} {groups : Nat} {c : Config} (h : c.InRange t groups)

include h

theorem goto {pc : Nat} (hpc : pc < t.program.code.size) : ({ c with pc } : Config).InRange t groups :=
  ⟨hpc, h.pos_le, h.store, h.stack⟩

theorem advance {k : Nat} (hpc : c.pc + 1 < t.program.code.size)
    (hk : c.pos + k ≤ t.elements.size) : (c.advance k).InRange t groups :=
  ⟨hpc, hk, h.store, h.stack⟩

theorem withStore {s : Store} (hs : s.InRange groups t.program.registers t.elements.size) :
    ({ c with store := s } : Config).InRange t groups :=
  ⟨h.pc_lt, h.pos_le, hs, h.stack⟩

theorem push {r : Resume} (hr : r.InRange t.program) : (c.push r).InRange t groups :=
  ⟨h.pc_lt, h.pos_le, h.store, List.forall_mem_cons.2 ⟨⟨hr, h.pos_le⟩, h.stack⟩⟩

theorem restores {c' : Config} (hc : c.Restores c') : c'.InRange t groups := by
  obtain ⟨ch, stack, hstack, rfl⟩ := hc
  obtain ⟨hch, hrest⟩ := List.forall_mem_cons.1 (hstack ▸ h.stack)
  exact ⟨h.pc_lt, hch.2, h.store.rollback _ _, hrest⟩

theorem takeSpan {min len : Nat} {max : Option Nat} {text : Regex} {greedy : Bool}
    (hi : t.program.code[c.pc]? = some (.multi min max text greedy))
    (hpc : c.pc + 1 < t.program.code.size) (hlen : len ≤ t.reach c.pos max) :
    (c.takeSpan min greedy len).InRange t groups := by
  have hend : c.pos + len ≤ t.elements.size :=
    Nat.le_trans (Nat.add_le_add_left hlen _) (t.add_reach_le max h.pos_le)
  have hpush (len : Nat) := h.push (r := .retry c.pc len) ⟨hpc, _, _, _, _, hi⟩
  unfold Config.takeSpan
  split
  · split
    · exact (hpush _).advance hpc hend
    · exact h.advance hpc hend
  · exact (hpush _).advance hpc hend

theorem beginIteration {reg : Nat} (hreg : reg < t.program.registers)
    (hpc : c.pc + 1 < t.program.code.size) : Config.InRange t groups
      { c.advance 0 with store := c.store.beginIteration reg c.pos } :=
  (h.advance hpc h.pos_le).withStore (h.store.setCounter hreg _)

end Config.InRange

namespace Task

variable {t : Task} {groups : Nat} {c : Config}

theorem inRange_offer {r : Resume} {go : Config → Config} (h : c.InRange t groups)
    (hr : r.InRange t.program) (ho : t.offer? c.pos r = some go) : (go c).InRange t groups := by
  cases r with
  | goto pc =>
    cases ho
    exact h.goto hr
  | iterate head reg =>
    cases ho
    exact (h.goto hr.1).withStore (h.store.setCounter hr.2 _)
  | retry pc len =>
    obtain ⟨hpc, -⟩ := hr
    rw [offer?] at ho
    split at ho
    · next hi =>
      obtain ⟨l, hl, rfl⟩ := Option.map_eq_some_iff.1 ho
      exact (h.goto (Nat.lt_of_succ_lt hpc)).takeSpan hi hpc (spanLength?_spec hl).2.1
    · cases ho

theorem inRange_backtrack (h : c.InRange t groups) :
    (t.backtrack c.store c.stack).progress.InRange t groups := by
  obtain ⟨pc, pos, s, stack⟩ := c
  induction stack generalizing pos s with
  | nil => trivial
  | cons ch stack ih =>
    have hrestored := h.restores ⟨ch, stack, rfl, rfl⟩
    have hpos := (h.stack ch List.mem_cons_self).1
    simp only [backtrack]
    split
    · next go ho =>
      exact inRange_offer (hrestored.goto (Nat.zero_lt_of_lt h.pc_lt)) hpos ho
    · exact ih _ _ hrestored

theorem inRange_fail (h : c.InRange t groups) : (t.fail c).progress.InRange t groups :=
  inRange_backtrack h

theorem inRange_proceed (h : c.InRange t groups) {d : Option Config}
    (hd : ∀ c', d = some c' → c'.InRange t groups) :
    (t.proceed c d).progress.InRange t groups := by
  cases d with
  | none => exact inRange_fail h
  | some c' => exact hd c' rfl

theorem inRange_testNode (h : c.InRange t groups) (hpc : c.pc + 1 < t.program.code.size)
    (p : NodePattern) : (t.testNode c p).progress.InRange t groups := by
  unfold testNode
  cases he : t.elements[c.pos]? with
  | none => exact inRange_fail h
  | some e =>
    have hadvance : (c.advance 1).InRange t groups :=
      h.advance hpc (Array.getElem?_eq_some_iff.1 he).1
    dsimp only
    split
    · trivial
    · exact inRange_fail h
    · exact hadvance
    · exact hadvance.withStore (h.store.note _)

theorem inRange_iteration (h : c.InRange t groups) {reg min exit : Nat} {max : Option Nat}
    {greedy : Bool}
    (hi : (Instruction.loop reg min max greedy exit).InRange t.program groups c.pc) :
    (iteration c reg min max greedy exit).InRange t groups := by
  obtain ⟨hreg, hexit, hpc⟩ := hi
  unfold iteration
  dsimp only
  split
  · exact h.beginIteration hreg hpc
  · split
    · exact h.goto hexit
    · split
      · exact (h.push (r := .goto exit) hexit).beginIteration hreg hpc
      · exact (h.push (r := .iterate c.pc reg) ⟨hpc, hreg⟩).goto hexit

theorem add_le_of_repeated {s : Store} {pos id len : Nat} (h : t.repeated? s pos id = some len) :
    pos + len ≤ t.elements.size := by
  unfold repeated? at h
  split at h
  · dsimp only at h
    split at h
    · next hc =>
      cases h
      exact hc.2.1
    · cases h
  · cases h

theorem inRange_execute (h : c.InRange t groups) {i : Instruction}
    (hcode : t.program.code[c.pc]? = some i) (hi : i.InRange t.program groups c.pc) :
    (t.execute c i).progress.InRange t groups := by
  cases i with
  | node p => exact inRange_testNode h hi p
  | split primary alternate => exact (h.push (r := .goto alternate) hi.2).goto hi.1
  | jump target => exact h.goto hi
  | openGroup id =>
    refine (h.advance hi.2 h.pos_le).withStore ((h.store.setSlot ?_ ?_).setSlot hi.1 ?_)
    · exact Nat.lt_of_succ_lt hi.1
    · rintro v ⟨⟩
      exact h.pos_le
    · rintro v ⟨⟩
  | closeGroup id =>
    refine (h.advance hi.2 h.pos_le).withStore (h.store.setSlot hi.1 ?_)
    rintro v ⟨⟩
    exact h.pos_le
  | backref id =>
    refine inRange_proceed h fun c' hc' => ?_
    obtain ⟨len, hlen, rfl⟩ := Option.map_eq_some_iff.1 hc'
    exact h.advance hi.2 (add_le_of_repeated hlen)
  | enter reg => exact (h.advance hi.2 h.pos_le).withStore (h.store.setCounter hi.1 _)
  | loop reg min max greedy exit => exact inRange_iteration h hi
  | next reg min head =>
    simp only [execute, endIteration]
    split
    · exact inRange_fail h
    · exact (h.goto hi.2).withStore (h.store.setCounter hi.1 _)
  | multi min max text greedy =>
    refine inRange_proceed h fun c' hc' => ?_
    obtain ⟨len, hlen, rfl⟩ := Option.map_eq_some_iff.1 hc'
    exact h.takeSpan hcode hi (spanLength?_spec hlen).2.1
  | mark action target => exact (h.advance hi h.pos_le).withStore (h.store.note _)
  | assert a =>
    refine inRange_proceed h fun c' hc' => ?_
    split at hc'
    · cases hc'
      exact h.advance hi h.pos_le
    · cases hc'
  | accept =>
    simp only [execute]
    split
    · exact ⟨h.pos_le, h.store⟩
    · exact inRange_fail h

/-- **A step that begins in range ends in range**, whether it goes on or takes up an open choice. -/
theorem inRange_step (hp : t.program.InRange groups) (h : c.InRange t groups) :
    (t.step c).progress.InRange t groups := by
  have hi := Array.getElem?_eq_getElem h.pc_lt
  rw [step_eq hi]
  exact inRange_execute h hi (hp.2 _ _ hi)

end Task

/-! ## Runs -/

/-- A run goes on from one configuration to the next. -/
def Task.GoesOn (t : Task) (c c' : Config) : Prop := (t.step c).progress = .running c'

namespace Config.InRange

variable {t : Task} {groups : Nat} {c c' : Config}

/-- **A run that begins in range stays in range.** -/
theorem of_goesOn (hp : t.program.InRange groups) (h : c.InRange t groups)
    (hc : Relation.ReflTransGen t.GoesOn c c') : c'.InRange t groups := by
  induction hc with
  | refl => exact h
  | tail _ hs ih =>
    have hstep := Task.inRange_step hp ih
    rwa [hs] at hstep

/-- **All that a run restores is in range.** -/
theorem of_restores (h : c.InRange t groups) (hc : Relation.ReflTransGen Config.Restores c c') :
    c'.InRange t groups := by
  induction hc with
  | refl => exact h
  | tail _ hr ih => exact ih.restores hr

end Config.InRange

namespace Pattern

theorem inRange_entry {p : Pattern} (hp : p.program.InRange p.groupCount)
    (elements : Array Element) (render : List Element → String) (stop : Option Nat) {start : Nat}
    (hstart : start ≤ elements.size) (b : Buffers) :
    (p.entry start b).InRange (p.task elements render stop) p.groupCount := by
  rw [entry_eq]
  exact ⟨hp.1, hstart, .initial .., fun ch hch => by cases hch⟩

end Pattern

end Motif
