import Motif.Proofs.InRange
import Motif.Proofs.Linking
import Motif.Proofs.Moves
import Motif.Words

/-!
# Groups whose numbers fit into words

As long as the numbers of groups and slots are words, and there is room for a table of the slots, a
program counts as if there were no bound, whatever it would do beyond it. Nothing is out of range
then.

* `Arithmetic.word?_of_lt`: numbers that are words.
* `Expr.renumber?_eq_some`, `Expr.shiftGroups?_eq`: trees.
* `Pattern.MadeInWords`: patterns whose number of groups is a word.
* `Task.run?_eq_run`: runs in range never lack a slot.
* `Pattern.attempt?_eq`: attempts of a pattern.
* **`Pattern.run_in_range`**: all that a run comes to.
* **`Pattern.large_group_out_of_range`**: a table without slots.
-/

namespace Motif

/-! ## Numbers -/

namespace Arithmetic

theorem word?_of_lt (a : Arithmetic) {n : Nat} (h : n < wordBound) : a.word? n = some n := by
  unfold word?
  rw [if_pos h]

theorem slotGroup?_of_lt (a : Arithmetic) {id : Nat} (h : 2 * id < wordBound) :
    a.slotGroup? id = some id := by
  rw [slotGroup?, a.word?_of_lt h, Option.map_some, Nat.mul_div_cancel_left id Nat.two_pos]

end Arithmetic

theorem lt_wordBound_of_le_maxSlots {n : Nat} (h : n ≤ maxSlots) : n < wordBound :=
  Nat.lt_of_le_of_lt h (by decide)

/-! ## Trees -/

namespace Expr

variable {number? target? : Nat → Option Nat}

mutual

/-- **A tree whose numbers stay is not changed.** -/
theorem renumber?_eq_some (e : Expr) (hg : ∀ g ∈ e.groups, number? g.1 = some g.1)
    (hb : ∀ id ∈ e.backrefs, number? id = some id)
    (ht : ∀ t ∈ e.targets, target? t = some t) : e.renumber? number? target? = some e := by
  match e with
  | node _ | multi .. | anchor _ => rfl
  | sequence es | choice es => rw [renumber?, renumberAll?_eq_some es hg hb ht, Option.map_some]
  | iterate e _ _ _ | group e none _ =>
    rw [renumber?, renumber?_eq_some e hg hb ht, Option.map_some]
  | group e (some id) _ =>
    obtain ⟨hid, hg⟩ := List.forall_mem_cons.1 hg
    rw [renumber?, renumber?_eq_some e hg hb ht, hid]
    rfl
  | backref id => rw [renumber?, hb id List.mem_cons_self, Option.map_some]
  | action e _ target =>
    obtain ⟨ht, htarget⟩ := List.forall_mem_append.1 ht
    rw [renumber?, renumber?_eq_some e hg hb ht, htarget target List.mem_cons_self]
    rfl

theorem renumberAll?_eq_some (es : List Expr)
    (hg : ∀ g ∈ groupsOfAll es, number? g.1 = some g.1)
    (hb : ∀ id ∈ backrefsOfAll es, number? id = some id)
    (ht : ∀ t ∈ targetsOfAll es, target? t = some t) :
    renumberAll? number? target? es = some es := by
  match es with
  | [] => rfl
  | e :: es =>
    obtain ⟨hg, hgs⟩ := List.forall_mem_append.1 hg
    obtain ⟨hb, hbs⟩ := List.forall_mem_append.1 hb
    obtain ⟨ht, hts⟩ := List.forall_mem_append.1 ht
    rw [renumberAll?, renumber?_eq_some e hg hb ht, renumberAll?_eq_some es hgs hbs hts]
    rfl

end

theorem shiftGroups?_eq (a : Arithmetic) {k : Nat} {e : Expr}
    (hg : ∀ g ∈ e.groups, g.1 + k < wordBound) (hb : ∀ id ∈ e.backrefs, id + k < wordBound)
    (ht : ∀ t ∈ e.targets, t + k < wordBound) :
    e.shiftGroups? a k = some (e.shiftGroups k) := by
  refine renumber?_eq_some _ ?_ ?_ ?_
  · rw [groups_shiftGroups, List.forall_mem_map]
    exact fun g hmem => a.word?_of_lt (hg g hmem)
  · rw [backrefs_shiftGroups, List.forall_mem_map]
    exact fun id hmem => a.word?_of_lt (hb id hmem)
  · rw [targets_shiftGroups, List.forall_mem_map]
    intro t hmem
    refine a.word?_of_lt (Nat.lt_of_le_of_lt ?_ (ht t hmem))
    split <;> omega

end Expr

namespace Pattern

theorem ofExpr?_eq (a : Arithmetic) (source : String) {root : Expr}
    (h : groupBound root.groups < wordBound) :
    ofExpr? a source root = some (ofExpr source root) := by
  rw [ofExpr?, a.word?_of_lt h]
  rfl

/-- Patterns from texts, in environments whose compiled patterns are such patterns, or from trees.
The number of their groups is a word. -/
inductive MadeInWords (a : Arithmetic) : Pattern → Prop where
  | compileAll {env : Environment} {sources : List String} {p : Pattern}
    (henv : ∀ name q, env.pattern? name = some (.compiled q) → q.MadeInWords a)
    (h : Motif.compileAll env sources = .ok p) (hw : p.groupCount < wordBound) : MadeInWords a p
  | ofExpr {source : String} {root : Expr} {p : Pattern}
    (h : ofExpr? a source root = some (.ok p)) (hw : groupBound root.groups < wordBound) :
    MadeInWords a p
  | withScore {p : Pattern} (score : Binary64) (h : p.MadeInWords a) :
    MadeInWords a (p.withScore score)

theorem MadeInWords.made {a : Arithmetic} {p : Pattern} (h : p.MadeInWords a) : p.Made := by
  induction h with
  | compileAll _ h _ ih => exact .compileAll ih h
  | ofExpr h hw =>
    rw [ofExpr?_eq a _ hw] at h
    exact .ofExpr (Option.some.inj h)
  | withScore score _ ih => exact .withScore score ih

theorem Bounded.renumber?_eq {p : Pattern} (h : p.Bounded) (hc : 2 * p.groupCount < wordBound)
    (a : Arithmetic) : p.root.renumber? a.slotGroup? some = some p.root :=
  p.root.renumber?_eq_some
    (fun g hg => a.slotGroup?_of_lt (by have := h.groups g hg; omega))
    (fun id hid => a.slotGroup?_of_lt (by have := h.backrefs id hid; omega)) fun _ _ => rfl

theorem renumbered_self (p : Pattern) : p.renumbered p.root p.groupCount = p := by
  obtain ⟨_, _, _, _, _, _, rfl⟩ := p
  rfl

end Pattern

/-! ## Runs -/

theorem Instruction.InRange.lacksSlot_eq {program : Program} {groups pc : Nat} {i : Instruction}
    (h : i.InRange program groups pc) : i.lacksSlot (2 * groups) = false := by
  cases i with
  | openGroup id | closeGroup id | backref id => exact decide_eq_false (Nat.not_le.2 h.1)
  | _ => rfl

/-- **A run in range never lacks a slot.** -/
theorem Task.run?_eq_run {t : Task} {groups : Nat} (hp : t.program.InRange groups)
    (limit : Option Nat) (account : Account) (c : { c : Config // t.Halts c })
    (hc : c.1.InRange t groups) : t.run? limit account c = some (t.run limit account c) := by
  have hslots {c : Config} (hc : c.InRange t groups) :
      (t.program.code[c.pc]?.any (·.lacksSlot c.store.slots.size)) = false := by
    rw [Option.any_eq_false, hc.store.slots]
    intro i hi
    rw [(hp.2 _ _ hi).lacksSlot_eq]
  fun_induction t.run limit account c with
  | case1 account c hlimit => rw [run?, if_pos hlimit]
  | case2 account c hlimit st c' h ih =>
    have hc' : c'.InRange t groups := by
      have hstep := inRange_step hp hc
      rwa [show (t.step c.1).progress = _ from h] at hstep
    rw [run?, if_neg hlimit, hslots hc, if_neg Bool.false_ne_true, ← ih hc']
    dsimp only
    split
    · next h' => cases h.symm.trans h'; rfl
    · next h' => cases h.symm.trans h'
  | case3 account c hlimit st o h =>
    rw [run?, if_neg hlimit, hslots hc, if_neg Bool.false_ne_true]
    dsimp only
    split
    · next h' => cases h.symm.trans h'
    · next h' => cases h.symm.trans h'; rfl

namespace Pattern

variable {p : Pattern} {elements : Array Element} {render : List Element → String}

/-- An attempt is one of the pattern whose groups have the slots of their numbers, if its
instructions are in range. -/
theorem attempt?_eq_of_renumber? {a : Arithmetic} {n : Nat} {root : Expr}
    (hslots : (a.word? (2 * p.groupCount)).filter (· ≤ maxSlots) = some (2 * n))
    (hroot : p.root.renumber? a.slotGroup? some = some root)
    (hrange : (p.renumbered root n).program.InRange n) (stop limit : Option Nat)
    (account : Account) {start : Nat} (hstart : start ≤ elements.size) (b : Buffers) :
    p.attempt? elements render stop limit account start b a =
      some ((p.renumbered root n).attempt elements render stop limit account start b) := by
  simp only [attempt?, hslots, hroot, Option.bind_eq_bind, Option.bind_some,
    Nat.mul_div_cancel_left n Nat.two_pos]
  exact Task.run?_eq_run hrange limit account
    ⟨(p.renumbered root n).entry start b, halts_entry _ elements render stop start b⟩
    (inRange_entry hrange elements render stop hstart b)

/-- **Attempts of a pattern whose slots fit into a table.** -/
theorem attempt?_eq (a : Arithmetic) (hp : p.Bounded) (hc : 2 * p.groupCount ≤ maxSlots)
    (stop limit : Option Nat) (account : Account) {start : Nat} (hstart : start ≤ elements.size)
    (b : Buffers) : p.attempt? elements render stop limit account start b a =
      some (p.attempt elements render stop limit account start b) := by
  have hbound : 2 * p.groupCount < wordBound := lt_wordBound_of_le_maxSlots hc
  have hslots : (a.word? (2 * p.groupCount)).filter (· ≤ maxSlots) = some (2 * p.groupCount) := by
    rw [a.word?_of_lt hbound, Option.filter_some, if_pos (decide_eq_true hc)]
  have hself : p.renumbered p.root p.groupCount = p := renumbered_self p
  rw [attempt?_eq_of_renumber? hslots (hp.renumber?_eq hbound a) (by rw [hself]; exact hp.inRange)
    _ _ _ hstart, hself]

theorem attemptInSlots?_eq_none (h : p.program.code[0]?.any (·.lacksSlot (2 * p.groupCount)))
    (stop : Option Nat) (account : Account) (start : Nat) (b : Buffers) :
    p.attemptInSlots? elements render stop none account start b = none := by
  rw [attemptInSlots?, Task.run?, if_neg (by simp), if_pos]
  simp only [entry_eq, Store.initial, Array.size_replicate]
  exact h

/-! ## Nothing is out of range -/

/-- **Nothing is out of range** in a pattern whose slots have words for numbers, wherever a run
begins, going back included. -/
theorem run_in_range {a : Arithmetic} (hp : p.MadeInWords a) (hc : 2 * p.groupCount < wordBound)
    (elements : Array Element) (render : List Element → String) (stop : Option Nat) {start : Nat}
    (hstart : start ≤ elements.size) (b : Buffers) :
    let t := p.task elements render stop
    let l := Listing.lower p.root
    l.link = some p.program ∧ (∀ x ∈ l.entries, x.InTables l) ∧
    p.program.InRange p.groupCount ∧
    a.word? (2 * p.groupCount) = some (2 * p.groupCount) ∧
    p.root.renumber? a.slotGroup? some = some p.root ∧
    (∀ limit account, p.attemptInSlots? elements render stop limit account start b =
      some (p.attempt elements render stop limit account start b)) ∧
    ∀ c c', Relation.ReflTransGen t.GoesOn (p.entry start b) c →
      Relation.ReflTransGen Config.Restores c c' → c'.InRange t p.groupCount := by
  intro t l
  have hlink : l.link = some p.program := by
    rw [p.program_eq]
    exact Listing.link_lower p.root
  have hprogram := hp.made.bounded.inRange
  have hentry := inRange_entry hprogram elements render stop hstart b
  refine ⟨hlink, Listing.inTables_of_link hlink, hprogram,
    a.word?_of_lt hc, hp.made.bounded.renumber?_eq hc a,
    fun limit account => Task.run?_eq_run hprogram limit account
      ⟨p.entry start b, p.halts_entry elements render stop start b⟩ hentry,
    fun c c' hc hc' => ?_⟩
  exact (hentry.of_goesOn hprogram hc).of_restores hc'

/-- A repeated word in a group, and a reference to it: after three steps there is a choice, which is
restored. -/
theorem run_in_range_of_reference :
    let word : Expr := .node (.attr .text (.equality "a" false))
    let root : Expr := .sequence [.group (.iterate word 0 none true) (some 1) none, .backref 1]
    let p : Pattern := .build "" root [] 2
    let elements : Array Element := #[⟨"a", fun _ => none⟩, ⟨"a", fun _ => none⟩]
    let t := p.task elements joinTexts none
    p.MadeInWords .checked ∧ 2 * p.groupCount < wordBound ∧ 1 ≤ elements.size ∧
      ∃ c c', Relation.ReflTransGen t.GoesOn (p.entry 1) c ∧ c.Restores c' ∧
        c.stack.length = 1 ∧ c'.InRange t p.groupCount := by
  intro word root p elements t
  have hexpr : Pattern.ofExpr? .checked "" root = some (.ok p) := rfl
  have hp : p.MadeInWords .checked := .ofExpr hexpr (by decide)
  have hc : 2 * p.groupCount < wordBound := by decide
  let s₁ := ((Store.initial 2 1).setSlot 2 (some 1)).setSlot 3 none
  let s₂ := s₁.setCounter 0 ⟨0, 1⟩
  let c : Config := ⟨3, 1, s₂.beginIteration 0 1, [⟨.goto 5, 1, 3, 0⟩]⟩
  have h₁ : t.GoesOn (p.entry 1) ⟨1, 1, s₁, []⟩ := rfl
  have h₂ : t.GoesOn ⟨1, 1, s₁, []⟩ ⟨2, 1, s₂, []⟩ := rfl
  have h₃ : t.GoesOn ⟨2, 1, s₂, []⟩ c := rfl
  have hreach : Relation.ReflTransGen t.GoesOn (p.entry 1) c :=
    ((Relation.ReflTransGen.single h₁).tail h₂).tail h₃
  have hrestored : c.Restores ⟨3, 1, s₂, []⟩ := ⟨_, _, rfl, rfl⟩
  refine ⟨hp, hc, Nat.le_succ 1, c, _, hreach, hrestored, rfl, ?_⟩
  exact (run_in_range hp hc elements joinTexts none (Nat.le_succ 1) {}).2.2.2.2.2.2 c _ hreach
    (.single hrestored)

/-- A group and a word behind it. The number of the group is a word, but twice the number of groups
is none. -/
def largeGroup : Expr :=
  .sequence [.group (.node .any) (some (2 ^ 63 - 1)) none,
    .node (.attr .text (.equality "b" false))]

theorem ofExpr?_largeGroup (a : Arithmetic) :
    ofExpr? a "" largeGroup = some (.ok (build "" largeGroup [] (2 ^ 63))) := by
  cases a <;> rfl

/-- **A group may have no slot**: nothing is left of the number of slots, and the first instruction
opens the group. -/
theorem large_group_out_of_range : ∃ p, Pattern.ofExpr? .wrapping "" largeGroup = some (.ok p) ∧
    Arithmetic.wrapping.word? (2 * p.groupCount) = some 0 ∧
    largeGroup.renumber? Arithmetic.wrapping.slotGroup? some = some largeGroup ∧
    p.program.code[0]?.any (·.lacksSlot 0) = true :=
  ⟨.build "" largeGroup [] (2 ^ 63), rfl, rfl, rfl, rfl⟩

theorem attempt?_largeGroup (stop : Option Nat) (account : Account) (start : Nat) (b : Buffers)
    (a : Arithmetic) : (build "" largeGroup [] (2 ^ 63)).attempt? elements render stop none account
      start b a = none := by
  cases a with
  | checked => rfl
  | wrapping =>
    have hslots : (Arithmetic.wrapping.word? (2 * 2 ^ 63)).filter (· ≤ maxSlots) = some 0 := by
      decide
    have hroot : largeGroup.renumber? Arithmetic.wrapping.slotGroup? some = some largeGroup := rfl
    simp only [attempt?, build, hslots, hroot, Option.bind_eq_bind, Option.bind_some]
    exact attemptInSlots?_eq_none rfl _ _ _ _

end Pattern

end Motif
