import Motif.Proofs.Restoration
import Mathlib.Data.List.Sort

/-!
# The lengths of a run of elements

The instruction for a run of elements goes on behind the preferred length that suits, and leaves a
choice of the lengths after it. Taken up, the choice goes on behind the next one that suits, and
leaves a choice again. So the lengths are tried one after the other, each of them once: the
instruction, the choices and the rule for leaving one agree on where the next length begins.

* `Task.Enumerates`: the lengths behind which the machine goes on, if it always comes back.
* `Task.tryFrom`: what the instruction does, and what taking up a choice does.
* `Task.enumerates_tryFrom`, `Task.Enumerates.unique`: the lengths are those that suit.
* `Task.TriedLengths`: the lengths that a run has tried so far, whatever it did in between.
* **`Task.run_of_elements_tries_each_length`**: all lengths, in order.
-/

namespace Motif

namespace Task

/-! ## One length after the other -/

/-- The lengths behind which the elements at `c` are left, by a step that has taken `n` choices
and then by the choices left for it. -/
inductive Enumerates (t : Task) (c : Config) : Nat → Step → List Nat → Prop where
  /-- There is no length: the machine goes back to the choices that were open before. -/
  | nil {n : Nat} {st : Step} (h : st = { t.fail c with backtracks := (t.fail c).backtracks + n }) :
    Enumerates t c n st []
  /-- It goes on behind some elements, and leaves no choice. -/
  | last {n len : Nat} {st : Step}
    (h : st = { progress := .running (c.advance len), backtracks := n }) :
    Enumerates t c n st [len]
  /-- It goes on behind some elements, and leaves a choice. -/
  | cons {n len : Nat} {st : Step} {r : Resume} {lens : List Nat}
    (h : st = { progress := .running ((c.push r).advance len), backtracks := n })
    (hr : ∀ s, c.store.Prior s → Enumerates t c 1 (t.backtrack s (c.push r).stack) lens) :
    Enumerates t c n st (len :: lens)

variable (t : Task)

/-- A step that has taken `n` choices tries the lengths of a run of elements, `bound` being the
first one to try. -/
def tryFrom (c : Config) (min : Nat) (max : Option Nat) (text : Regex) (greedy : Bool)
    (bound : Option Nat) (n : Nat) : Step :=
  match t.spanLength? c.pos min max text greedy bound with
  | some len => { progress := .running (c.takeSpan min greedy len), backtracks := n }
  | none => { t.fail c with backtracks := (t.fail c).backtracks + n }

variable {t} {c : Config} {min : Nat} {max : Option Nat} {text : Regex} {greedy : Bool}

/-! ## The lengths in order -/

theorem lengths_none (pos min : Nat) (max : Option Nat) (greedy : Bool) :
    t.lengths pos min max greedy none = Motif.spanLengths min (t.reach pos max) greedy := by
  cases greedy <;> rfl

theorem pairwise_spanLengths (lo hi : Nat) (greedy : Bool) :
    (Motif.spanLengths lo hi greedy).Pairwise fun l l' => if greedy then l' < l else l < l' := by
  cases greedy with
  | true => exact List.pairwise_reverse.2 List.pairwise_lt_range'
  | false => exact List.pairwise_lt_range'

theorem le_reach_iff {pos len : Nat} (hpos : pos ≤ t.elements.size) :
    len ≤ t.reach pos max ↔ (∀ m ∈ max, len ≤ m) ∧ pos + len ≤ t.elements.size := by
  have hroom : len ≤ t.elements.size - pos ↔ pos + len ≤ t.elements.size := by omega
  unfold reach
  cases max with
  | none => exact hroom.trans ⟨fun h => ⟨nofun, h⟩, fun h => h.2⟩
  | some m =>
    have hmem : (∀ k ∈ some m, len ≤ k) ↔ len ≤ m := by
      simp only [Option.mem_def, Option.some.injEq, forall_eq']
    rw [hmem, ← hroom]
    exact Nat.le_min

/-! ## What the instruction and its choices try -/

section Instruction

variable (hi : t.program.code[c.pc]? = some (.multi min max text greedy))

include hi

theorem step_multi : t.step c = t.tryFrom c min max text greedy none 0 := by
  rw [step_eq hi, execute, tryFrom]
  cases t.spanLength? c.pos min max text greedy none with
  | none => rfl
  | some len => rfl

theorem backtrack_retry {s : Store} (hs : c.store.Prior s) (len : Nat) :
    t.backtrack s (c.push (.retry c.pc len)).stack =
      t.tryFrom c min max text greedy (some len) 1 := by
  simp only [Config.push, Config.choice, backtrack, hs.rollback_self, offer?, hi, tryFrom]
  cases t.spanLength? c.pos min max text greedy (some len) with
  | none => rfl
  | some l => rfl

/-- **The lengths that are tried from a first one on are those that suit.** -/
theorem enumerates_tryFrom (bound : Option Nat) (n : Nat) :
    t.Enumerates c n (t.tryFrom c min max text greedy bound n)
      ((t.lengths c.pos min max greedy bound).filter (t.suits c.pos text)) := by
  generalize hlens : (t.lengths c.pos min max greedy bound).filter (t.suits c.pos text) = lens
  induction lens generalizing bound n with
  | nil =>
    refine .nil ?_
    rw [tryFrom, spanLength?_eq, hlens]
    rfl
  | cons len lens ih =>
    have hrest := filter_lengths hlens
    have htry : t.tryFrom c min max text greedy bound n =
        { progress := .running (c.takeSpan min greedy len), backtracks := n } := by
      rw [tryFrom, spanLength?_eq, hlens]
      rfl
    rw [htry, Config.takeSpan]
    have hnext {bound : Nat} (h : lens =
        (t.lengths c.pos min max greedy (some bound)).filter (t.suits c.pos text)) :
        ∀ s, c.store.Prior s →
          t.Enumerates c 1 (t.backtrack s (c.push (.retry c.pc bound)).stack) lens :=
      fun s hs => backtrack_retry hi hs bound ▸ ih _ 1 h.symm
    cases greedy with
    | true =>
      rw [if_pos rfl] at hrest ⊢
      by_cases hlt : min < len
      · rw [if_pos hlt] at hrest ⊢
        exact .cons rfl (hnext hrest)
      · rw [if_neg hlt] at hrest ⊢
        rw [hrest]
        exact .last rfl
    | false =>
      rw [if_neg Bool.false_ne_true] at hrest ⊢
      exact .cons rfl (hnext hrest)

end Instruction

/-! ## The lengths are unique -/

/-- The choices that a step leaves behind a run of elements at `c` offer the given lengths. -/
def Leaves (t : Task) (c c' : Config) (lens : List Nat) : Prop :=
  c'.stack = c.stack ∧ lens = [] ∨ ∃ r, c'.stack = (c.push r).stack ∧
    ∀ s, c.store.Prior s → t.Enumerates c 1 (t.backtrack s (c.push r).stack) lens

namespace Enumerates

variable {c' : Config} {n : Nat} {st : Step} {lens lens' : List Nat}

/-- A step that goes on and has taken no other choices goes on behind the first length. -/
theorem of_running (h : t.Enumerates c n st lens) (hst : st.progress = .running c')
    (hn : st.backtracks = n) : ∃ len rest, lens = len :: rest ∧ c'.pos = c.pos + len ∧
      c'.pc = c.pc + 1 ∧ c'.store = c.store ∧ t.Leaves c c' rest := by
  cases h with
  | nil h =>
    subst h
    have hpos := (grows_backtrack (c := c) hst).1
    have hzero : (t.fail c).backtracks + n = n := hn
    have hfail : 0 < (t.fail c).backtracks := hpos
    omega
  | @last _ len _ h =>
    subst h
    cases hst
    exact ⟨len, [], rfl, rfl, rfl, rfl, .inl ⟨rfl, rfl⟩⟩
  | @cons _ len _ r rest h hr =>
    subst h
    cases hst
    exact ⟨len, rest, rfl, rfl, rfl, rfl, .inr ⟨r, rfl, hr⟩⟩

theorem eq_nil (h : t.Enumerates c n st lens)
    (hst : st.progress = .finished .rejected ∨ n < st.backtracks) : lens = [] := by
  cases h with
  | nil => rfl
  | last h | cons h =>
    subst h
    obtain hst | hst := hst
    · cases hst
    · exact absurd hst (Nat.lt_irrefl n)

/-- **There is one list of lengths only.** -/
theorem unique (h : t.Enumerates c n st lens) (h' : t.Enumerates c n st lens') : lens = lens' := by
  induction h generalizing lens' with
  | @nil n st h =>
    refine (h'.eq_nil ?_).symm
    subst h
    cases hfail : (t.backtrack c.store c.stack).progress with
    | running c' =>
      have hpos : 0 < (t.fail c).backtracks := (grows_backtrack hfail).1
      exact .inr (Nat.lt_add_of_pos_left hpos)
    | finished o =>
      obtain rfl := (backtrack_finished hfail).1
      exact .inl hfail
  | @last n len st h =>
    subst h
    obtain ⟨len', rest, rfl, hpos, -, -, hleaves⟩ := h'.of_running rfl rfl
    obtain rfl : len = len' := Nat.add_left_cancel hpos
    obtain ⟨-, rfl⟩ | ⟨r, hstack, -⟩ := hleaves
    · rfl
    · exact absurd (congrArg List.length hstack) (Nat.succ_ne_self _).symm
  | @cons n len st r rest h hr ih =>
    subst h
    obtain ⟨len', rest', rfl, hpos, -, -, hleaves⟩ := h'.of_running rfl rfl
    obtain rfl : len = len' := Nat.add_left_cancel hpos
    obtain ⟨hstack, -⟩ | ⟨r', hstack, hr'⟩ := hleaves
    · exact absurd (congrArg List.length hstack) (Nat.succ_ne_self _)
    · have hstack : (c.push r').stack = (c.push r).stack := hstack.symm
      rw [ih c.store (.refl _) (hstack ▸ hr' c.store (.refl _))]

end Enumerates

/-! ## What runs try -/

/-- A run has come to a run of elements at `c`, and has tried the given lengths so far, the last of
them in `c'`. -/
inductive TriedLengths (t : Task) (c : Config) : Config → List Nat → Prop where
  /-- The instruction tries the first length. -/
  | first {c' : Config} {len : Nat} (hs : t.GoesOn c c') (hb : (t.step c).backtracks = 0)
    (hpos : c'.pos = c.pos + len) : TriedLengths t c c' [len]
  /-- The run comes back to the choice that was left, after all those that it has pushed since. -/
  | again {c' d c'' : Config} {ms : List Config} {lens : List Nat} {len : Nat}
    (h : TriedLengths t c c' lens) (hopen : c'.stack.length = c.stack.length + 1)
    (hd : t.Recorded c' d ms) (hs : t.GoesOn d c'') (hb : (t.step d).backtracks = ms.length + 1)
    (hpos : c''.pos = c.pos + len) : TriedLengths t c c'' (lens ++ [len])

section Runs

variable {c' d : Config} {ms : List Config} {lens lens' rest : List Nat}

theorem exists_enumerates {r : Resume} (hstore : c'.store = c.store)
    (hstack : c'.stack = (c.push r).stack)
    (hr : ∀ s, c.store.Prior s → t.Enumerates c 1 (t.backtrack s (c.push r).stack) rest)
    (hd : t.Recorded c' d ms)
    (hb : (t.step d).progress = .finished .rejected ∨ ms.length < (t.step d).backtracks) :
    ∃ st : Step, t.Enumerates c 1 st rest ∧ (t.step d).progress = st.progress ∧
      (t.step d).backtracks = ms.length + st.backtracks := by
  obtain ⟨s, hs, hprogress, hcount⟩ := hd.exists_backtrack hb
  rw [hstore] at hs
  rw [hstack] at hprogress hcount
  exact ⟨_, hr s hs, hprogress, hcount⟩

/-- **The lengths that a run has tried are the first ones**, and the choice that it has left offers
the others. -/
theorem TriedLengths.exists_rest (h : t.TriedLengths c c' lens')
    (hlens : t.Enumerates c 0 (t.step c) lens) : ∃ rest, lens = lens' ++ rest ∧
      c'.pc = c.pc + 1 ∧ c'.store = c.store ∧ t.Leaves c c' rest := by
  induction h with
  | @first c' len hs hb hpos =>
    obtain ⟨len', rest, rfl, hpos', hbehind⟩ := hlens.of_running hs hb
    obtain rfl : len = len' := Nat.add_left_cancel (hpos.symm.trans hpos')
    exact ⟨rest, rfl, hbehind⟩
  | @again c' d c'' ms lens' len _ hopen hd hs hb hpos ih =>
    obtain ⟨rest, rfl, -, hstore, ⟨hstack, -⟩ | ⟨r, hstack, hr⟩⟩ := ih
    · rw [hstack] at hopen
      exact absurd hopen (Nat.succ_ne_self _).symm
    · obtain ⟨st, hst, hprogress, hcount⟩ :=
        exists_enumerates hstore hstack hr hd (.inr (hb ▸ Nat.lt_succ_self _))
      have hone : st.backtracks = 1 := Nat.add_left_cancel (hcount.symm.trans hb)
      obtain ⟨len', rest', rfl, hpos', hbehind⟩ := hst.of_running (hprogress.symm.trans hs) hone
      obtain rfl : len = len' := Nat.add_left_cancel (hpos.symm.trans hpos')
      exact ⟨rest', List.append_cons _ _ _, hbehind⟩

/-- **A run that goes back to what was open before has tried all lengths.** -/
theorem Leaves.eq_nil (h : t.Leaves c c' rest) (hstore : c'.store = c.store)
    (hd : t.Recorded c' d ms) (hb : (t.step d).progress = .finished .rejected ∨
      d.stack.length < c.stack.length + (t.step d).backtracks) : rest = [] := by
  obtain ⟨-, hrest⟩ | ⟨r, hstack, hr⟩ := h
  · exact hrest
  · have hlen : d.stack.length = ms.length + (c.stack.length + 1) := by
      rw [hd.length_eq, hstack]
      rfl
    obtain ⟨st, hst, hprogress, hcount⟩ :=
      exists_enumerates hstore hstack hr hd (hb.imp_right fun hb => by omega)
    refine hst.eq_nil (hb.imp (fun hb => hprogress ▸ hb) fun hb => ?_)
    omega

end Runs

/-- **Each length of a run of elements is tried once**, the longest first if the run prefers to be
long, and else the shortest. -/
theorem run_of_elements_tries_each_length (t : Task) {c : Config} {min : Nat} {max : Option Nat}
    {text : Regex} {greedy : Bool}
    (hi : t.program.code[c.pc]? = some (.multi min max text greedy))
    (hpos : c.pos ≤ t.elements.size) :
    ∃ lens : List Nat,
      lens.Pairwise (fun l l' => if greedy then l' < l else l < l') ∧
      (∀ l, l ∈ lens ↔ min ≤ l ∧ (∀ m ∈ max, l ≤ m) ∧ c.pos + l ≤ t.elements.size ∧
        text.matchesIn (t.render (t.slice c.pos l)) = true) ∧
      (∀ lens', t.Enumerates c 0 (t.step c) lens' ↔ lens' = lens) ∧
      ∀ c' lens', t.TriedLengths c c' lens' → lens' <+: lens ∧ c'.pc = c.pc + 1 ∧
        ∀ d ms, t.Recorded c' d ms → ((t.step d).progress = .finished .rejected ∨
          d.stack.length < c.stack.length + (t.step d).backtracks) → lens' = lens := by
  have hlens := enumerates_tryFrom hi none 0
  rw [← step_multi hi, lengths_none] at hlens
  refine ⟨_, ?_, fun l => ?_, fun lens' => ⟨fun h => h.unique hlens, fun h => h ▸ hlens⟩,
    fun c' lens' h => ?_⟩
  · exact (pairwise_spanLengths _ _ _).filter _
  · rw [List.mem_filter, mem_spanLengths, le_reach_iff hpos]
    simp only [suits, and_assoc]
  · obtain ⟨rest, hrest, hpc, hstore, hleaves⟩ := h.exists_rest hlens
    refine ⟨⟨rest, hrest.symm⟩, hpc, fun d ms hd hb => ?_⟩
    rw [hrest, hleaves.eq_nil hstore hd hb, List.append_nil]

/-- At most two elements whose text is `b c` or empty: both of them are tried, and then none. -/
theorem run_of_elements_tries_two_and_none :
    let tree : Regex.Syntax := .seq [.look .textStart,
      .iterate (.seq [.step ⟨#[98, 99]⟩, .step ⟨#[32, 33]⟩, .step ⟨#[99, 100]⟩]) 0 (some 1) true,
      .look .textEnd]
    let text : Regex := ⟨"^(?:(?:b c)?)$", fun s => tree.occursIn s.toList⟩
    let root : Expr := .sequence [.node .any, .multi 0 (some 2) text true]
    let p : Pattern := .build "" root [] 1
    let elements : Array Element :=
      #[⟨"a", fun _ => none⟩, ⟨"b", fun _ => none⟩, ⟨"c", fun _ => none⟩]
    let t := p.task elements joinTexts none
    let c : Config := ⟨1, 1, .initial 1 0, []⟩
    Regex.wholeText? "(?:b c)?" false = some text ∧
      t.program.code[c.pc]? = some (.multi 0 (some 2) text true) ∧ c.pos ≤ t.elements.size ∧
      t.Enumerates c 0 (t.step c) [2, 0] := by
  intro tree text root p elements t c
  have hi : t.program.code[c.pc]? = some (.multi 0 (some 2) text true) := rfl
  have hpos : c.pos ≤ t.elements.size := by decide
  obtain ⟨lens, hsorted, hmem, hlens, -⟩ := run_of_elements_tries_each_length t hi hpos
  refine ⟨by cbv, hi, hpos, (hlens _).2 ?_⟩
  have htwo : text.matchesIn (t.render (t.slice c.pos 2)) = true := by cbv
  have hone : text.matchesIn (t.render (t.slice c.pos 1)) = false := by cbv
  have hnone : text.matchesIn (t.render (t.slice c.pos 0)) = true := by cbv
  have hsorted : lens.Pairwise (· > ·) := by simpa using hsorted
  refine List.Pairwise.eq_of_mem_iff (by decide) hsorted fun l => ?_
  rw [hmem, List.mem_cons, List.mem_singleton]
  constructor
  · rintro (rfl | rfl)
    · exact ⟨Nat.zero_le _, by decide, by decide, htwo⟩
    · exact ⟨Nat.zero_le _, by decide, by decide, hnone⟩
  · rintro ⟨-, hle, -, hl⟩
    have hle : l ≤ 2 := hle 2 rfl
    obtain rfl | rfl | rfl : l = 0 ∨ l = 1 ∨ l = 2 := by omega
    · exact .inr rfl
    · rw [hone] at hl
      cases hl
    · exact .inl rfl

end Task

end Motif
