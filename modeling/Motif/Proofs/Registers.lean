import Motif.Machine.Layout

/-!
# Registers in use

A repetition sets its register when it is entered, and from there on until it is left the register
is in use. Which registers are in use depends on nothing but the address: it can be read off the
expression, and the code never goes from one address to another one at which it would read a
register that has not been set.

* `Instruction.Fits`: an instruction goes on where what it needs is in use.
* `Expr.InUse`: the registers in use at an address of the code of an expression.
* `Expr.fits_code`: the code of an expression fits.
* `Expr.exists_inUse`: all addresses are accounted for.
* `Expr.Live`: the registers in use at an address of a whole program.
* **`Expr.fits_lower`**: the program of an expression fits.
-/

namespace Motif

/-- Where the registers `rs` are in use, an instruction reads no others, sets one of the first `n`,
and goes on where `K` allows what is in use. -/
def Instruction.Fits (K : Nat → List Nat → Prop) (n : Nat) (rs : List Nat) (pc : Nat) :
    Instruction → Prop
  | split primary alternate => K primary rs ∧ K alternate rs
  | jump target => K target rs
  | enter reg => reg < n ∧ K (pc + 1) (reg :: rs)
  -- what was in use in a repetition need not be so at its exit
  | loop reg _ _ _ exit => reg < n ∧ reg ∈ rs ∧ K (pc + 1) rs ∧ ∃ rs' ⊆ rs, K exit rs'
  | next reg _ head => reg < n ∧ reg ∈ rs ∧ K head rs
  | accept => True
  | node _ | openGroup _ | closeGroup _ | backref _ | multi .. | mark .. | assert _ =>
    K (pc + 1) rs

/-- Wherever `K` allows registers to be in use there is an instruction that fits. -/
def Task.Fits (t : Task) (K : Nat → List Nat → Prop) (n : Nat) : Prop :=
  ∀ a rs, K a rs → ∃ i, t.program.code[a]? = some i ∧ i.Fits K n rs a

namespace Expr

mutual

/-- At an address of the code of an expression the registers `rs'` are in use: `rs` and those of the
repetitions around the address. -/
def InUse (pc reg : Nat) (rs : List Nat) : Expr → Nat → List Nat → Prop
  | node _, a, rs' | backref _, a, rs' | multi .., a, rs' | anchor _, a, rs' => a = pc ∧ rs' = rs
  | sequence es, a, rs' => InUseOfAll pc reg rs es a rs'
  | choice es, a, rs' => InUseOfChoice pc reg rs es a rs'
  | iterate e min max _, a, rs' =>
    if isVoid max then False
    else if isOnce min max then e.InUse pc reg rs a rs'
    else a = pc ∧ rs' = rs ∨ (a = pc + 1 ∨ a = pc + 2 + e.width) ∧ rs' = reg :: rs ∨
      e.InUse (pc + 2) (reg + 1) (reg :: rs) a rs'
  | group e none _, a, rs' => e.InUse pc reg rs a rs'
  | group e (some _) _, a, rs' =>
    (a = pc ∨ a = pc + 1 + e.width) ∧ rs' = rs ∨ e.InUse (pc + 1) reg rs a rs'
  | action e _ _, a, rs' => a = pc + e.width ∧ rs' = rs ∨ e.InUse pc reg rs a rs'

/-- The registers in use at an address of the code of several expressions in a row. -/
def InUseOfAll (pc reg : Nat) (rs : List Nat) : List Expr → Nat → List Nat → Prop
  | [], _, _ => False
  | e :: es, a, rs' =>
    e.InUse pc reg rs a rs' ∨ InUseOfAll (pc + e.width) (reg + e.registers) rs es a rs'

/-- The registers in use at an address of the code of several alternatives. -/
def InUseOfChoice (pc reg : Nat) (rs : List Nat) : List Expr → Nat → List Nat → Prop
  | [], _, _ => False
  | [e], a, rs' => e.InUse pc reg rs a rs'
  | e :: e' :: es, a, rs' =>
    (a = pc ∨ a = pc + 1 + e.width) ∧ rs' = rs ∨ e.InUse (pc + 1) reg rs a rs' ∨
      InUseOfChoice (pc + e.width + 2) (reg + e.registers) rs (e' :: es) a rs'

end

section Code

variable {t : Task} {K : Nat → List Nat → Prop} {n : Nat}

/-- A part of the code fits: `K` allows its beginning, and wherever the registers are in use in the
part there is an instruction that fits. -/
structure PartFits (t : Task) (K : Nat → List Nat → Prop) (n pc : Nat) (rs : List Nat)
    (inUse : Nat → List Nat → Prop) : Prop where
  start : K pc rs
  fits : ∀ a rs', inUse a rs' → ∃ i, t.program.code[a]? = some i ∧ i.Fits K n rs' a

theorem PartFits.single {pc : Nat} {rs : List Nat} {i : Instruction}
    (hi : t.program.code[pc]? = some i) (hK : K pc rs) (hfits : i.Fits K n rs pc) :
    PartFits t K n pc rs fun a rs' => a = pc ∧ rs' = rs where
  start := hK
  fits := by
    rintro a rs' ⟨rfl, rfl⟩
    exact ⟨i, hi, hfits⟩

mutual

/-- The code of an expression fits, if `K` allows what is in use in it and behind it. -/
theorem fits_code (greedy : Bool) (pc reg : Nat) (rs : List Nat) (e : Expr)
    (hcode : t.CodeAt pc (e.code greedy pc reg)) (hn : reg + e.registers ≤ n)
    (hK : ∀ a rs', e.InUse pc reg rs a rs' → K a rs') (hend : K (pc + e.width) rs) :
    PartFits t K n pc rs (e.InUse pc reg rs) := by
  match e with
  | node _ | backref _ | multi .. | anchor _ =>
    exact .single hcode.head (hK pc rs ⟨rfl, rfl⟩) hend
  | sequence es => exact fits_codeOfAll greedy pc reg rs es hcode hn hK hend
  | choice es => exact fits_codeOfChoice greedy pc reg rs es hcode hn hK hend
  | iterate e min max own =>
    have hinUse : InUse pc reg rs (.iterate e min max own) = fun a rs' =>
        if isVoid max then False
        else if isOnce min max then e.InUse pc reg rs a rs'
        else a = pc ∧ rs' = rs ∨ (a = pc + 1 ∨ a = pc + 2 + e.width) ∧ rs' = reg :: rs ∨
          e.InUse (pc + 2) (reg + 1) (reg :: rs) a rs' := rfl
    unfold code at hcode
    unfold registers at hn
    unfold width at hend
    rw [hinUse] at hK ⊢
    by_cases hv : isVoid max = true
    · simp only [hv, if_true] at hend ⊢
      exact ⟨hend, fun _ _ h => h.elim⟩
    · simp only [hv, Bool.false_eq_true, if_false] at hcode hn hK hend ⊢
      by_cases ho : isOnce min max = true
      · simp only [ho, if_true] at hcode hn hK hend ⊢
        exact fits_code greedy pc reg rs e hcode hn hK hend
      · simp only [ho, Bool.false_eq_true, if_false] at hcode hn hK hend ⊢
        have hnext := hcode.tail.tail.right.head
        rw [length_code] at hnext
        have hhead : K (pc + 1) (reg :: rs) := hK _ _ (.inr (.inl ⟨.inl rfl, rfl⟩))
        have hbody := fits_code (own && greedy) (pc + 2) (reg + 1) (reg :: rs) e
          hcode.tail.tail.left (by omega) (fun a rs' h => hK a rs' (.inr (.inr h)))
          (hK _ _ (.inr (.inl ⟨.inr rfl, rfl⟩)))
        refine ⟨hK pc rs (.inl ⟨rfl, rfl⟩), ?_⟩
        rintro a rs' (⟨rfl, rfl⟩ | ⟨rfl | rfl, rfl⟩ | h)
        · exact ⟨_, hcode.head, by omega, hhead⟩
        · exact ⟨_, hcode.tail.head, by omega, List.mem_cons_self, hbody.start, rs,
            List.subset_cons_self _ _, by rwa [← Nat.add_assoc] at hend⟩
        · exact ⟨_, hnext, by omega, List.mem_cons_self, hhead⟩
        · exact hbody.fits a rs' h
  | group e none _ => exact fits_code greedy pc reg rs e hcode hn hK hend
  | group e (some id) _ =>
    have hclose := hcode.tail.right.head
    rw [length_code] at hclose
    have hbody := fits_code greedy (pc + 1) reg rs e hcode.tail.left hn
      (fun a rs' h => hK a rs' (.inr h)) (hK _ _ (.inl ⟨.inr rfl, rfl⟩))
    refine ⟨hK pc rs (.inl ⟨.inl rfl, rfl⟩), ?_⟩
    rintro a rs' (⟨rfl | rfl, rfl⟩ | h)
    · exact ⟨_, hcode.head, hbody.start⟩
    · have hbehind : pc + 1 + e.width + 1 = pc + (e.width + 2) := by omega
      refine ⟨_, hclose, ?_⟩
      rw [Instruction.Fits, hbehind]
      exact hend
    · exact hbody.fits a rs' h
  | action e name target =>
    have hmark := hcode.right.head
    rw [length_code] at hmark
    have hbody := fits_code greedy pc reg rs e hcode.left hn (fun a rs' h => hK a rs' (.inr h))
      (hK _ _ (.inl ⟨rfl, rfl⟩))
    refine ⟨hbody.start, ?_⟩
    rintro a rs' (⟨rfl, rfl⟩ | h)
    · exact ⟨_, hmark, hend⟩
    · exact hbody.fits a rs' h

theorem fits_codeOfAll (greedy : Bool) (pc reg : Nat) (rs : List Nat) (es : List Expr)
    (hcode : t.CodeAt pc (codeOfAll greedy pc reg es)) (hn : reg + registersOfAll es ≤ n)
    (hK : ∀ a rs', InUseOfAll pc reg rs es a rs' → K a rs') (hend : K (pc + widthOfAll es) rs) :
    PartFits t K n pc rs (InUseOfAll pc reg rs es) := by
  match es with
  | [] => exact ⟨hend, fun _ _ h => h.elim⟩
  | e :: es =>
    rw [registersOfAll] at hn
    rw [widthOfAll, ← Nat.add_assoc] at hend
    have htail := hcode.right
    rw [length_code] at htail
    have hrest := fits_codeOfAll greedy _ _ rs es htail (by omega)
      (fun a rs' h => hK a rs' (.inr h)) hend
    have hfirst := fits_code greedy pc reg rs e hcode.left (by omega)
      (fun a rs' h => hK a rs' (.inl h)) hrest.start
    exact ⟨hfirst.start, fun a rs' h => h.elim (hfirst.fits a rs') (hrest.fits a rs')⟩

theorem fits_codeOfChoice (greedy : Bool) (pc reg : Nat) (rs : List Nat) (es : List Expr)
    {exit : Nat} (hcode : t.CodeAt pc (codeOfChoice greedy pc reg exit es))
    (hn : reg + registersOfAll es ≤ n)
    (hK : ∀ a rs', InUseOfChoice pc reg rs es a rs' → K a rs') (hend : K exit rs)
    (hexit : exit = pc + widthOfChoice es := by rfl) :
    PartFits t K n pc rs (InUseOfChoice pc reg rs es) := by
  match es with
  | [] =>
    obtain rfl : exit = pc := hexit
    exact ⟨hend, fun _ _ h => h.elim⟩
  | [e] =>
    obtain rfl : exit = pc + e.width := hexit
    exact fits_code greedy pc reg rs e hcode (by simpa [registersOfAll] using hn) hK hend
  | e :: e' :: es =>
    rw [registersOfAll] at hn
    rw [widthOfChoice] at hexit
    have htail := hcode.tail.right
    rw [length_code] at htail
    have hrest := fits_codeOfChoice greedy (pc + e.width + 2) (reg + e.registers) rs (e' :: es)
      (by have := htail.tail; rwa [show pc + 1 + e.width + 1 = pc + e.width + 2 by omega] at this)
      (by omega) (fun a rs' h => hK a rs' (.inr (.inr h))) hend (by omega)
    have hfirst := fits_code greedy (pc + 1) reg rs e hcode.tail.left (by omega)
      (fun a rs' h => hK a rs' (.inr (.inl h))) (hK _ _ (.inl ⟨.inr rfl, rfl⟩))
    refine ⟨hK pc rs (.inl ⟨.inl rfl, rfl⟩), ?_⟩
    rintro a rs' (⟨rfl | rfl, rfl⟩ | h | h)
    · exact ⟨_, hcode.head, hfirst.start, hrest.start⟩
    · exact ⟨_, htail.head, hend⟩
    · exact hfirst.fits a rs' h
    · exact hrest.fits a rs' h

end

end Code

/-! ## All addresses -/

mutual

/-- At every address of the code of an expression some registers are in use, be it none. -/
theorem exists_inUse (pc reg : Nat) (rs : List Nat) (e : Expr) {a : Nat} (hle : pc ≤ a)
    (hlt : a < pc + e.width) : ∃ rs', e.InUse pc reg rs a rs' := by
  match e with
  | node _ | backref _ | multi .. | anchor _ =>
    exact ⟨rs, Nat.le_antisymm (Nat.lt_succ_iff.1 hlt) hle, rfl⟩
  | sequence es => exact exists_inUseOfAll pc reg rs es hle hlt
  | choice es => exact exists_inUseOfChoice pc reg rs es hle hlt
  | iterate e min max own =>
    unfold InUse
    unfold width at hlt
    by_cases hv : isVoid max = true
    · rw [if_pos hv] at hlt
      omega
    rw [if_neg hv] at hlt
    simp only [if_neg hv]
    by_cases ho : isOnce min max = true
    · rw [if_pos ho] at hlt
      simp only [if_pos ho]
      exact exists_inUse pc reg rs e hle hlt
    rw [if_neg ho] at hlt
    simp only [if_neg ho]
    obtain h | h | h | ⟨h, h'⟩ : a = pc ∨ a = pc + 1 ∨ a = pc + 2 + e.width ∨
        pc + 2 ≤ a ∧ a < pc + 2 + e.width := by omega
    · exact ⟨rs, .inl ⟨h, rfl⟩⟩
    · exact ⟨reg :: rs, .inr (.inl ⟨.inl h, rfl⟩)⟩
    · exact ⟨reg :: rs, .inr (.inl ⟨.inr h, rfl⟩)⟩
    · obtain ⟨rs', hbody⟩ := exists_inUse (pc + 2) (reg + 1) (reg :: rs) e h h'
      exact ⟨rs', .inr (.inr hbody)⟩
  | group e none _ => exact exists_inUse pc reg rs e hle hlt
  | group e (some id) _ =>
    have hlt : a < pc + (e.width + 2) := hlt
    obtain h | h | ⟨h, h'⟩ : a = pc ∨ a = pc + 1 + e.width ∨ pc + 1 ≤ a ∧ a < pc + 1 + e.width := by
      omega
    · exact ⟨rs, .inl ⟨.inl h, rfl⟩⟩
    · exact ⟨rs, .inl ⟨.inr h, rfl⟩⟩
    · obtain ⟨rs', hbody⟩ := exists_inUse (pc + 1) reg rs e h h'
      exact ⟨rs', .inr hbody⟩
  | action e _ _ =>
    obtain h | h : a = pc + e.width ∨ a < pc + e.width := Nat.eq_or_lt_of_le (Nat.lt_succ_iff.1 hlt)
    · exact ⟨rs, .inl ⟨h, rfl⟩⟩
    · obtain ⟨rs', hbody⟩ := exists_inUse pc reg rs e hle h
      exact ⟨rs', .inr hbody⟩

theorem exists_inUseOfAll (pc reg : Nat) (rs : List Nat) (es : List Expr) {a : Nat} (hle : pc ≤ a)
    (hlt : a < pc + widthOfAll es) : ∃ rs', InUseOfAll pc reg rs es a rs' := by
  match es with
  | [] => exact absurd hlt (Nat.not_lt.2 hle)
  | e :: es =>
    rw [widthOfAll, ← Nat.add_assoc] at hlt
    by_cases h : a < pc + e.width
    · obtain ⟨rs', hfirst⟩ := exists_inUse pc reg rs e hle h
      exact ⟨rs', .inl hfirst⟩
    · obtain ⟨rs', hrest⟩ := exists_inUseOfAll _ (reg + e.registers) rs es (Nat.not_lt.1 h) hlt
      exact ⟨rs', .inr hrest⟩

theorem exists_inUseOfChoice (pc reg : Nat) (rs : List Nat) (es : List Expr) {a : Nat}
    (hle : pc ≤ a) (hlt : a < pc + widthOfChoice es) :
    ∃ rs', InUseOfChoice pc reg rs es a rs' := by
  match es with
  | [] => exact absurd hlt (Nat.not_lt.2 hle)
  | [e] => exact exists_inUse pc reg rs e hle hlt
  | e :: e' :: es =>
    rw [widthOfChoice] at hlt
    obtain h | h | ⟨h, h'⟩ | h : a = pc ∨ a = pc + 1 + e.width ∨
        (pc + 1 ≤ a ∧ a < pc + 1 + e.width) ∨ pc + e.width + 2 ≤ a := by omega
    · exact ⟨rs, .inl ⟨.inl h, rfl⟩⟩
    · exact ⟨rs, .inl ⟨.inr h, rfl⟩⟩
    · obtain ⟨rs', hfirst⟩ := exists_inUse (pc + 1) reg rs e h h'
      exact ⟨rs', .inr (.inl hfirst)⟩
    · obtain ⟨rs', hrest⟩ :=
        exists_inUseOfChoice _ (reg + e.registers) rs (e' :: es) h (by omega)
      exact ⟨rs', .inr (.inr hrest)⟩

end

/-! ## Whole programs -/

/-- The registers in use at an address of the program of an expression. At the end there are none. -/
def Live (e : Expr) (a : Nat) (rs : List Nat) : Prop :=
  e.InUse 0 0 [] a rs ∨ a = e.width ∧ rs = []

/-- At every address of the program of an expression some registers are in use, be it none. -/
theorem exists_live {e : Expr} {a : Nat} (h : a < (Program.lower e).code.size) :
    ∃ rs, e.Live a rs := by
  have hsize : (Program.lower e).code.size = e.width + 1 := by
    simp only [Program.lower, List.size_toArray, List.length_append, length_code,
      List.length_singleton]
  rw [hsize] at h
  obtain h | h := Nat.eq_or_lt_of_le (Nat.lt_succ_iff.1 h)
  · exact ⟨[], .inr ⟨h, rfl⟩⟩
  · obtain ⟨rs, hrs⟩ := exists_inUse 0 0 [] e (Nat.zero_le a) (by rwa [Nat.zero_add])
    exact ⟨rs, .inl hrs⟩

/-- **The program of an expression fits**: it begins with no register in use, and it only ever reads
registers that it has set. -/
theorem fits_lower {t : Task} {e : Expr} (h : t.program = .lower e) :
    e.Live 0 [] ∧ t.Fits e.Live e.registers := by
  have hcode := Task.codeAt_lower e h
  have haccept := hcode.right.head
  rw [length_code, Nat.zero_add] at haccept
  have hbody := fits_code (K := e.Live) (n := e.registers) true 0 0 [] e hcode.left (by omega)
    (fun a rs h => .inl h) (.inr ⟨Nat.zero_add _, rfl⟩)
  refine ⟨hbody.start, ?_⟩
  rintro a rs (h | ⟨rfl, rfl⟩)
  · exact hbody.fits a rs h
  · exact ⟨.accept, haccept, trivial⟩

end Expr

end Motif
