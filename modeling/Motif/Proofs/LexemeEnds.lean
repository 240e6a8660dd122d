import Motif.Proofs.ElementAcceptance
import Mathlib

/-!
# Where lexemes end

A lexeme is found in front of what follows it. It stays the same if the text behind it is replaced
by one that no lexeme goes on with: a blank or an opening parenthesis ends names, numbers and
relations, and completes no symbol of two characters.

* `forall_of_isBlank`: what holds of all blanks; `isNamePart_of_isBlank`: they end names.
* `Apart`: texts that no lexeme goes on with.
* `scanAfter_within`: a lexeme lies in the text, and is not its end.
* `scanAfter_append`: what is scanned stays in front of another text.
-/

namespace Motif

/-! ## Blanks -/

/-- The code points of blanks. -/
def blankPoints : List Nat :=
  List.range' 0x9 5 ++ [0x20, 0x85, 0xA0, 0x1680] ++ List.range' 0x2000 11 ++
    [0x2028, 0x2029, 0x202F, 0x205F, 0x3000]

theorem mem_blankPoints {c : Char} (h : isBlank c = true) : c.toNat ∈ blankPoints := by
  simp only [isBlank, Unicode.CodeSet.contains, Unicode.CodeSet.rank, Unicode.whiteSpace] at h
  simp [Unicode.CodeSet.rankBetween] at h
  simp only [blankPoints, List.mem_append, List.mem_range'_1, List.mem_cons, List.not_mem_nil,
    or_false]
  -- one goal for each of the intervals between blanks and others
  repeat' split at h
  all_goals omega

theorem forall_of_isBlank {P : Char → Prop} (h : ∀ n ∈ blankPoints, P (Char.ofNat n)) {c : Char}
    (hc : isBlank c = true) : P c := by
  have := h c.toNat (mem_blankPoints hc)
  rwa [Char.ofNat_toNat] at this

theorem isNamePart_of_isBlank {c : Char} (hc : isBlank c = true) : isNamePart c = false :=
  forall_of_isBlank (P := fun c => isNamePart c = false) (by decide +kernel) hc

theorem isDigit_of_isBlank {c : Char} (hc : isBlank c = true) : isDigit c = false :=
  forall_of_isBlank (P := fun c => isDigit c = false) (by decide +kernel) hc

theorem isRelationChar_of_isBlank {c : Char} (hc : isBlank c = true) : isRelationChar c = false :=
  forall_of_isBlank (P := fun c => isRelationChar c = false) (by decide +kernel) hc

theorem isBare_of_isBlank {c : Char} (hc : isBlank c = true) : isBare c = false := by
  rw [isBare, hc]
  rfl

theorem ne_of_isBlank {c d : Char} (hc : isBlank c = true) (hd : isBlank d = false) : c ≠ d := by
  rintro rfl
  exact Bool.noConfusion (hc.symm.trans hd)

/-- No lexeme goes on with a text that starts so. -/
def Apart (cs : List Char) : Prop := ∀ c ∈ cs.head?, isBlank c = true ∨ c = '('

section Parts

variable {u r r' : List Char}

/-! ## Characters taken from a text -/

/-- What is taken of the first part alone is what is taken of both, if it is not too long. -/
theorem takeWhile_append_of_length_le {f : Char → Bool}
    (h : ((u ++ r).takeWhile f).length ≤ u.length) : (u ++ r).takeWhile f = u.takeWhile f := by
  rw [List.takeWhile_append] at h ⊢
  split at h
  · next hu =>
    have hr : r.takeWhile f = [] := by
      rw [List.length_append] at h
      exact List.length_eq_zero_iff.1 (by omega)
    rw [if_pos hu, hr, List.append_nil]
    exact ((List.takeWhile_prefix f).eq_of_length hu).symm
  · next hu => rw [if_neg hu]

/-- What is taken of a part stays in front of a text that nothing goes on with. -/
theorem takeWhile_append_of_apart {f : Char → Bool} (hr : Apart r)
    (hblank : ∀ {c}, isBlank c = true → f c = false) (hopen : f '(' = false) :
    (u ++ r).takeWhile f = u.takeWhile f := by
  have hr : r.takeWhile f = [] := by
    cases r with
    | nil => rfl
    | cons c r =>
      refine List.takeWhile_cons_of_neg (Bool.eq_false_iff.1 ?_)
      obtain hc | rfl := hr c rfl
      · exact hblank hc
      · exact hopen
  rw [List.takeWhile_append, hr]
  split
  · next hu => rw [List.append_nil, (List.takeWhile_prefix f).eq_of_length hu]
  · rfl

theorem dropWhile_append_of_takeWhile_eq {f : Char → Bool}
    (h : (u ++ r).takeWhile f = u.takeWhile f) : (u ++ r).dropWhile f = u.dropWhile f ++ r := by
  have hsplit : u.takeWhile f ++ (u ++ r).dropWhile f = u.takeWhile f ++ (u.dropWhile f ++ r) := by
    rw [← h, List.takeWhile_append_dropWhile, h, ← List.append_assoc,
      List.takeWhile_append_dropWhile]
  exact List.append_cancel_left hsplit

/-! ## Names -/

/-- A name that ends in a part stays in front of a text that nothing goes on with. -/
theorem nameAt_append (hr' : Apart r') (h : ∀ n, nameAt? (u ++ r) = some n → n.length ≤ u.length) :
    nameAt? (u ++ r') = nameAt? (u ++ r) := by
  have hstart (c : Char) : isNameStart c = true → isNamePart c = true := by
    intro hc
    rw [isNamePart, hc, Bool.or_true, Bool.true_or]
  have hopen : isNamePart '(' = false := by decide +kernel
  cases u with
  | nil =>
    have hnone (cs : List Char) (hcs : ∀ n, nameAt? cs = some n → n = []) : nameAt? cs = none := by
      cases cs with
      | nil => rfl
      | cons c cs =>
        rw [nameAt?] at hcs ⊢
        split
        · next hc => exact absurd (hcs _ (if_pos hc)) (List.cons_ne_nil _ _)
        · rfl
    rw [hnone _ fun n hn => List.length_eq_zero_iff.1 (Nat.le_zero.1 (h n hn))]
    cases r' with
    | nil => rfl
    | cons c r' =>
      refine if_neg fun hc => ?_
      obtain hblank | rfl := hr' c rfl
      · exact Bool.false_ne_true ((isNamePart_of_isBlank hblank).symm.trans (hstart _ hc))
      · exact Bool.false_ne_true (hopen.symm.trans (hstart _ hc))
  | cons c u =>
    rw [List.cons_append, nameAt?] at h
    rw [List.cons_append, List.cons_append, nameAt?, nameAt?]
    split
    · next hc =>
      have hle := h _ (if_pos hc)
      rw [List.length_cons, List.length_cons, Nat.add_le_add_iff_right] at hle
      rw [takeWhile_append_of_length_le hle,
        takeWhile_append_of_apart hr' isNamePart_of_isBlank hopen]
    · rfl

/-! ## Numbers -/

/-- A point and digits at the front of a text. -/
def fractionAt : List Char → List Char
  | '.' :: cs => if (cs.takeWhile isDigit).isEmpty then [] else '.' :: cs.takeWhile isDigit
  | _ => []

/-- A number without a sign at the front of a text. -/
def decimalAt? (cs : List Char) : Option (List Char) :=
  if (cs.takeWhile isDigit).isEmpty then none
  else some (cs.takeWhile isDigit ++ fractionAt (cs.dropWhile isDigit))

theorem numberAt_minus (cs : List Char) :
    numberAt? ('-' :: cs) = (decimalAt? cs).map ('-' :: ·) := by
  rw [decimalAt?, numberAt?]
  unfold fractionAt
  dsimp only
  split
  · rfl
  · rfl

theorem numberAt_of_ne {c : Char} (hc : c ≠ '-') (cs : List Char) :
    numberAt? (c :: cs) = decimalAt? (c :: cs) := by
  rw [decimalAt?, numberAt?]
  · rfl
  · intro rest heq
    exact hc (List.cons.inj heq).1

theorem fractionAt_append (hr' : Apart r')
    (h : (fractionAt (u ++ r)).length ≤ u.length) : fractionAt (u ++ r') = fractionAt (u ++ r) := by
  cases u with
  | nil =>
    have hnil : fractionAt r' = [] := by
      cases r' with
      | nil => rfl
      | cons c r' =>
        have hc : c ≠ '.' := by
          obtain hc | rfl := hr' c rfl
          · exact ne_of_isBlank hc (by decide +kernel)
          · decide
        unfold fractionAt
        split
        · next heq => exact absurd (List.cons.inj heq).1 hc
        · rfl
    rw [List.nil_append, List.nil_append, hnil]
    exact (List.length_eq_zero_iff.1 (Nat.le_zero.1 h)).symm
  | cons c u =>
    by_cases hc : c = '.'
    · subst hc
      rw [List.cons_append, fractionAt] at h
      have hle : ((u ++ r).takeWhile isDigit).length ≤ u.length := by
        split at h
        · next hempty =>
          rw [List.isEmpty_iff.1 hempty]
          exact Nat.zero_le _
        · exact Nat.le_of_succ_le_succ h
      rw [List.cons_append, List.cons_append, fractionAt, fractionAt,
        takeWhile_append_of_length_le hle,
        takeWhile_append_of_apart hr' isDigit_of_isBlank (by decide)]
    · have hnil (cs : List Char) : fractionAt (c :: cs) = [] := by
        unfold fractionAt
        split
        · next heq => exact absurd (List.cons.inj heq).1 hc
        · rfl
      rw [List.cons_append, List.cons_append, hnil, hnil]

theorem decimalAt_append (hr' : Apart r')
    (h : ∀ n, decimalAt? (u ++ r) = some n → n.length ≤ u.length) :
    decimalAt? (u ++ r') = decimalAt? (u ++ r) := by
  have htake' :=
    takeWhile_append_of_apart (u := u) (f := isDigit) hr' isDigit_of_isBlank (by decide)
  by_cases hempty : ((u ++ r).takeWhile isDigit).isEmpty = true
  · have htake := takeWhile_append_of_length_le (u := u) (r := r) (f := isDigit) (by
      rw [List.isEmpty_iff.1 hempty]
      exact Nat.zero_le _)
    rw [decimalAt?, decimalAt?, if_pos hempty, htake', ← htake, if_pos hempty]
  · have hlen := h _ (if_neg hempty)
    rw [List.length_append] at hlen
    have htake := takeWhile_append_of_length_le (u := u) (r := r) (f := isDigit) (by omega)
    have hu : (u.takeWhile isDigit).length + (u.dropWhile isDigit).length = u.length := by
      rw [← List.length_append, List.takeWhile_append_dropWhile]
    rw [dropWhile_append_of_takeWhile_eq htake, htake] at hlen
    rw [decimalAt?, decimalAt?, htake, htake', dropWhile_append_of_takeWhile_eq htake,
      dropWhile_append_of_takeWhile_eq htake', fractionAt_append (r := r) hr' (by omega)]

/-- A number that ends in a part stays in front of a text that nothing goes on with. -/
theorem numberAt_append {c : Char} (hr' : Apart r')
    (h : ∀ n, numberAt? (c :: (u ++ r)) = some n → n.length ≤ u.length + 1) :
    numberAt? (c :: (u ++ r')) = numberAt? (c :: (u ++ r)) := by
  by_cases hc : c = '-'
  · subst hc
    rw [numberAt_minus, numberAt_minus]
    refine congrArg _ (decimalAt_append hr' fun n hn => ?_)
    have hle := h ('-' :: n) (by rw [numberAt_minus, hn]; rfl)
    exact Nat.le_of_succ_le_succ hle
  · rw [numberAt_of_ne hc] at h
    rw [numberAt_of_ne hc, numberAt_of_ne hc]
    exact decimalAt_append (u := c :: u) hr' h

/-! ## Quoted texts -/

theorem quotedAt_pos {d : Char} {cs text : List Char} {n : Nat}
    (h : quotedAt? d cs = some (text, n)) : 0 < n := by
  unfold quotedAt? at h
  split at h
  · cases h
  · split at h
    · cases h
      exact Nat.one_pos
    · split at h
      · split at h
        · cases h
        · obtain ⟨p, -, hp⟩ := Option.map_eq_some_iff.1 h
          cases hp
          exact Nat.succ_pos _
      · obtain ⟨p, -, hp⟩ := Option.map_eq_some_iff.1 h
        cases hp
        exact Nat.succ_pos _

theorem quotedAt_append {d : Char} {text : List Char} {n : Nat} (u : List Char)
    (h : quotedAt? d (u ++ r) = some (text, n)) (hn : n ≤ u.length) :
    quotedAt? d (u ++ r') = some (text, n) := by
  match u with
  | [] => exact absurd (quotedAt_pos h) (Nat.not_lt.2 hn)
  | c :: u =>
    rw [List.cons_append, quotedAt?.eq_def] at h ⊢
    dsimp only at h ⊢
    split at h
    · next hc => rwa [if_pos hc]
    · next hc =>
      rw [if_neg hc]
      split at h
      · next hslash =>
        rw [if_pos hslash]
        match u with
        | [] =>
          dsimp only [List.nil_append] at h
          split at h
          · cases h
          · obtain ⟨p, -, hp⟩ := Option.map_eq_some_iff.1 h
            cases hp
            cases hn with
            | step hn => cases hn
        | x :: u =>
          obtain ⟨p, hp, hp'⟩ := Option.map_eq_some_iff.1 h
          cases hp'
          have := quotedAt_append u hp (by simp only [List.length_cons] at hn; omega)
          simp only [List.cons_append, this]
          rfl
      · next hslash =>
        rw [if_neg hslash]
        obtain ⟨p, hp, hp'⟩ := Option.map_eq_some_iff.1 h
        cases hp'
        rw [quotedAt_append u hp (by simp only [List.length_cons] at hn; omega)]
        rfl

/-! ## Symbols -/

theorem head_append {d : Char} (hr' : Apart r') (hd : isBlank d = false) (hd' : d ≠ '(')
    (h : (u ++ r).head? = some d → 0 < u.length) :
    ((u ++ r').head? == some d) = ((u ++ r).head? == some d) := by
  cases u with
  | nil =>
    have hne : ((r').head? == some d) = false := by
      refine beq_eq_false_iff_ne.2 fun heq => ?_
      obtain hblank | rfl := hr' d heq
      · exact ne_of_isBlank hblank hd rfl
      · exact hd' rfl
    have hne' : (r.head? == some d) = false := beq_eq_false_iff_ne.2 fun heq =>
      absurd (h heq) (Nat.lt_irrefl 0)
    exact hne.trans hne'.symm
  | cons c u => rfl

/-- What starts with a character of relations. -/
def scanRelation (o : Nat) (c : Char) (cs : List Char) : Except CompileError (Symbol × Nat) :=
  if String.ofList (c :: cs.takeWhile isRelationChar) == "=>" then .ok (.arrow, 1)
  else match Relation.ofSymbol? (String.ofList (c :: cs.takeWhile isRelationChar)) with
    | some r => .ok (.rel r, (cs.takeWhile isRelationChar).length)
    | none => .error (.unknownRelation (String.ofList (c :: cs.takeWhile isRelationChar)) o)

theorem scanRelation_length {o n : Nat} {c : Char} {cs : List Char} {x : Symbol}
    (h : scanRelation o c cs = .ok (x, n)) :
    x ≠ .eof ∧ n = (cs.takeWhile isRelationChar).length := by
  unfold scanRelation at h
  split at h
  · next hop =>
    cases h
    have hlen := congrArg (·.toList.length) (beq_iff_eq.1 hop)
    rw [String.toList_ofList, List.length_cons] at hlen
    exact ⟨nofun, (Nat.succ.inj hlen).symm⟩
  · split at h
    · cases h
      exact ⟨nofun, rfl⟩
    · cases h

theorem scanRelation_append {o o' n : Nat} {c : Char} {x : Symbol} (hr' : Apart r')
    (h : scanRelation o c (u ++ r) = .ok (x, n)) (hn : n ≤ u.length) :
    scanRelation o' c (u ++ r') = .ok (x, n) := by
  have htake := takeWhile_append_of_length_le ((scanRelation_length h).2 ▸ hn)
  rw [scanRelation, htake] at h
  rw [scanRelation, takeWhile_append_of_apart hr' isRelationChar_of_isBlank (by decide)]
  split at h
  · next hop =>
    rw [if_pos hop]
    exact h
  · next hop =>
    rw [if_neg hop]
    split at h
    · next hx => simpa only [hx] using h
    · cases h

theorem scanOpening_cases {o n : Nat} {cs : List Char} {x : Symbol}
    (h : scanOpening o cs = .ok (x, n)) :
    (∃ rest, cs = '?' :: ':' :: rest ∧ x = .nonCapture ∧ n = 2) ∨
    (∃ rest, cs = '?' :: 'm' :: ')' :: rest ∧ x = .multiNode ∧ n = 3) ∨
    (∃ rest name, cs = '?' :: '$' :: rest ∧ nameAt? rest = some name ∧
      x = .namedGroup (String.ofList name) ∧ n = name.length + 2) ∨
    (cs.head? ≠ some '?' ∧ x = .lparen ∧ n = 0) := by
  unfold scanOpening at h
  split at h
  · cases h
    exact .inl ⟨_, rfl, rfl, rfl⟩
  · cases h
    exact .inr (.inl ⟨_, rfl, rfl, rfl⟩)
  · split at h
    · next hname =>
      cases h
      exact .inr (.inr (.inl ⟨_, _, rfl, hname, rfl, rfl⟩))
    · cases h
  · cases h
  · next hno =>
    cases h
    refine .inr (.inr (.inr ⟨fun hhead => ?_, rfl, rfl⟩))
    obtain ⟨rest, rfl⟩ := List.head?_eq_some_iff.1 hhead
    exact hno rest rfl

theorem scanOpening_of_head {o : Nat} {cs : List Char} (h : cs.head? ≠ some '?') :
    scanOpening o cs = .ok (.lparen, 0) := by
  unfold scanOpening
  split
  all_goals first
    | rfl
    | exact absurd rfl h

theorem exists_of_append_eq_cons {c : Char} {cs : List Char} (h : u ++ r = c :: cs)
    (hu : 0 < u.length) : ∃ v, u = c :: v ∧ v ++ r = cs := by
  cases u with
  | nil => exact absurd hu (Nat.lt_irrefl 0)
  | cons d v =>
    obtain ⟨rfl, rfl⟩ := List.cons.inj h
    exact ⟨v, rfl, rfl⟩

theorem scanOpening_append {o o' n : Nat} {x : Symbol} (hr' : Apart r')
    (h : scanOpening o (u ++ r) = .ok (x, n)) (hn : n ≤ u.length) :
    scanOpening o' (u ++ r') = .ok (x, n) := by
  obtain ⟨rest, hcs, rfl, rfl⟩ | ⟨rest, hcs, rfl, rfl⟩ | ⟨rest, name, hcs, hname, rfl, rfl⟩ |
    ⟨hhead, rfl, rfl⟩ := scanOpening_cases h
  · obtain ⟨u₁, rfl, hcs₁⟩ := exists_of_append_eq_cons hcs (by omega)
    obtain ⟨u₂, rfl, -⟩ := exists_of_append_eq_cons hcs₁ (Nat.lt_of_succ_lt_succ hn)
    rfl
  · obtain ⟨u₁, rfl, hcs₁⟩ := exists_of_append_eq_cons hcs (by omega)
    simp only [List.length_cons] at hn
    obtain ⟨u₂, rfl, hcs₂⟩ := exists_of_append_eq_cons hcs₁ (by omega)
    simp only [List.length_cons] at hn
    obtain ⟨u₃, rfl, -⟩ := exists_of_append_eq_cons hcs₂ (by omega)
    rfl
  · obtain ⟨u₁, rfl, hcs₁⟩ := exists_of_append_eq_cons hcs (by omega)
    simp only [List.length_cons] at hn
    obtain ⟨u₂, rfl, rfl⟩ := exists_of_append_eq_cons hcs₁ (by omega)
    simp only [List.length_cons] at hn
    have hname' : nameAt? (u₂ ++ r') = some name := by
      rw [nameAt_append (r := r) hr' fun m hm => ?_, hname]
      cases hname.symm.trans hm
      omega
    unfold scanOpening
    simp only [List.cons_append, hname']
  · refine scanOpening_of_head fun hhead' => ?_
    have := head_append (d := '?') hr' (by decide +kernel) (by decide) fun h => absurd h hhead
    rw [beq_eq_false_iff_ne.2 hhead, beq_eq_false_iff_ne] at this
    exact this hhead'

theorem scanPair_append {d : Char} {x : Symbol} {n : Nat} {f : Bool → Symbol × Nat} (hr' : Apart r')
    (hd : isBlank d = false) (hd' : d ≠ '(') (hf : (f true).2 = 1)
    (h : Except.ok (ε := CompileError) (f ((u ++ r).head? == some d)) = .ok (x, n))
    (hn : n ≤ u.length) :
    Except.ok (ε := CompileError) (f ((u ++ r').head? == some d)) = .ok (x, n) := by
  rw [head_append (r := r) hr' hd hd' fun heq => ?_]
  · exact h
  · rw [heq, beq_self_eq_true] at h
    rw [Except.ok.inj h] at hf
    exact Nat.lt_of_lt_of_le Nat.one_pos (hf.ge.trans hn)

/-- A symbol that ends in a part stays in front of a text that nothing goes on with, wherever it
is. -/
theorem scanSymbol_append {c : Char} {o o' n : Nat} {x : Symbol} (hr' : Apart r')
    (h : scanSymbol o c (u ++ r) = .ok (x, n)) (hn : n ≤ u.length) :
    scanSymbol o' c (u ++ r') = .ok (x, n) := by
  unfold scanSymbol at h
  split at h
  all_goals dsimp only at h
  case h_11 =>
    exact scanPair_append (f := fun b => (.pipe, if b then 1 else 0)) hr' (by decide) (by decide)
      rfl h hn
  case h_12 =>
    exact scanPair_append (f := fun b => (.amp, if b then 1 else 0)) hr' (by decide) (by decide)
      rfl h hn
  case h_13 =>
    exact scanPair_append (f := fun b => if b then (.doubleColon, 1) else (.colon, 0)) hr'
      (by decide) (by decide) rfl h hn
  case h_15 =>
    exact scanPair_append (f := fun b => if b then (.rel .ne, 1) else (.bang, 0)) hr'
      (by decide) (by decide) rfl h hn
  case h_14 => exact scanOpening_append hr' h hn
  case h_16 | h_17 | h_18 => exact scanRelation_append hr' h hn
  case h_19 | h_20 =>
    split at h
    · next hq =>
      cases h
      unfold scanSymbol
      simp only [quotedAt_append u hq hn]
    · cases h
  case h_21 =>
    have htake : (u ++ r').takeWhile isDigit = (u ++ r).takeWhile isDigit := by
      rw [takeWhile_append_of_apart hr' isDigit_of_isBlank (by decide)]
      refine (takeWhile_append_of_length_le ?_).symm
      split at h
      · cases h
      · split at h
        · cases h
          exact hn
        · cases h
    unfold scanSymbol
    dsimp only
    rw [htake]
    split at h
    · cases h
    · next hdigits =>
      rw [if_neg hdigits]
      split at h
      · exact h
      · cases h
  case h_22 =>
    have hname : nameAt? (u ++ r') = nameAt? (u ++ r) := nameAt_append hr' fun m hm => by
      rw [hm] at h
      cases h
      exact hn
    unfold scanSymbol
    dsimp only
    rw [hname]
    exact h
  case h_23 =>
    have hname : nameAt? (u ++ r') = nameAt? (u ++ r) := nameAt_append hr' fun m hm => by
      rw [hm] at h
      cases h
      exact hn
    unfold scanSymbol
    dsimp only
    rw [hname]
    split at h
    · exact h
    · cases h
  case h_24 =>
    have hnumber : numberAt? (c :: (u ++ r')) = numberAt? (c :: (u ++ r)) :=
      numberAt_append hr' fun m hm => by
        rw [hm] at h
        cases h
        omega
    -- the character starts no other symbol
    rw [scanSymbol, hnumber] <;> try assumption
    split at h
    · next hm =>
      rw [hm]
      exact h
    · next hm hname =>
      have hname' : nameAt? (c :: (u ++ r')) = nameAt? (c :: (u ++ r)) :=
        nameAt_append (u := c :: u) hr' fun m hm' => by
          cases hname.symm.trans hm'
          cases h
          rw [List.length_cons]
          omega
      rw [hm, hname', hname]
      exact h
    · cases h
  all_goals
    cases h
    rfl

/-! ## Lengths -/

theorem nameAt_prefixOf {cs name : List Char} (h : nameAt? cs = some name) : name <+: cs := by
  cases cs with
  | nil => cases h
  | cons c cs =>
    rw [nameAt?] at h
    split at h
    · cases h
      exact List.cons_prefix_cons.2 ⟨rfl, List.takeWhile_prefix _⟩
    · cases h

theorem fractionAt_prefixOf (cs : List Char) : fractionAt cs <+: cs := by
  unfold fractionAt
  split
  · split
    · exact List.nil_prefix
    · exact List.cons_prefix_cons.2 ⟨rfl, List.takeWhile_prefix _⟩
  · exact List.nil_prefix

theorem decimalAt_length {cs digits : List Char} (h : decimalAt? cs = some digits) :
    digits.length ≤ cs.length := by
  rw [decimalAt?] at h
  split at h
  · cases h
  · cases h
    have hle := (fractionAt_prefixOf (cs.dropWhile isDigit)).length_le
    have hcs := congrArg List.length (List.takeWhile_append_dropWhile (p := isDigit) (l := cs))
    rw [List.length_append] at hcs ⊢
    omega

theorem numberAt_length {cs digits : List Char} (h : numberAt? cs = some digits) :
    digits.length ≤ cs.length := by
  cases cs with
  | nil => cases h
  | cons c cs =>
    by_cases hc : c = '-'
    · subst hc
      rw [numberAt_minus] at h
      obtain ⟨ds, hds, rfl⟩ := Option.map_eq_some_iff.1 h
      exact Nat.succ_le_succ (decimalAt_length hds)
    · rw [numberAt_of_ne hc] at h
      exact decimalAt_length h

theorem quotedAt_length {d : Char} {text : List Char} {n : Nat} (cs : List Char)
    (h : quotedAt? d cs = some (text, n)) : n ≤ cs.length := by
  match cs with
  | [] => cases h
  | c :: cs =>
    rw [quotedAt?.eq_def] at h
    dsimp only at h
    split at h
    · cases h
      exact Nat.succ_le_succ (Nat.zero_le _)
    · split at h
      · match cs with
        | [] => cases h
        | x :: cs =>
          obtain ⟨p, hp, hp'⟩ := Option.map_eq_some_iff.1 h
          cases hp'
          exact Nat.succ_le_succ (Nat.succ_le_succ (quotedAt_length cs hp))
      · obtain ⟨p, hp, hp'⟩ := Option.map_eq_some_iff.1 h
        cases hp'
        exact Nat.succ_le_succ (quotedAt_length cs hp)

theorem scanOpening_within {o n : Nat} {cs : List Char} {x : Symbol}
    (h : scanOpening o cs = .ok (x, n)) : x ≠ .eof ∧ n ≤ cs.length := by
  obtain ⟨rest, rfl, rfl, rfl⟩ | ⟨rest, rfl, rfl, rfl⟩ | ⟨rest, name, rfl, hname, rfl, rfl⟩ |
    ⟨-, rfl, rfl⟩ := scanOpening_cases h
  · exact ⟨nofun, Nat.le_add_left 2 _⟩
  · exact ⟨nofun, Nat.le_add_left 3 _⟩
  · exact ⟨nofun, Nat.add_le_add_right ((nameAt_prefixOf hname).length_le) 2⟩
  · exact ⟨nofun, Nat.zero_le _⟩

theorem scanSymbol_within {c : Char} {o n : Nat} {cs : List Char} {x : Symbol}
    (h : scanSymbol o c cs = .ok (x, n)) : x ≠ .eof ∧ n ≤ cs.length := by
  -- characters that make a longer symbol with an equal one
  have hhead (d : Char) : cs.head? == some d → 1 ≤ cs.length := by
    intro heq
    obtain ⟨rest, rfl⟩ := List.head?_eq_some_iff.1 (beq_iff_eq.1 heq)
    exact Nat.succ_le_succ (Nat.zero_le _)
  unfold scanSymbol at h
  split at h
  all_goals dsimp only at h
  case h_11 | h_12 =>
    cases h
    refine ⟨Symbol.noConfusion, ?_⟩
    split
    · exact hhead _ ‹_›
    · exact Nat.zero_le _
  case h_13 | h_15 =>
    split at h
    · next heq =>
      cases h
      exact ⟨Symbol.noConfusion, hhead _ heq⟩
    · cases h
      exact ⟨Symbol.noConfusion, Nat.zero_le _⟩
  case h_14 => exact scanOpening_within h
  case h_16 | h_17 | h_18 =>
    obtain ⟨hx, rfl⟩ := scanRelation_length h
    exact ⟨hx, (List.takeWhile_prefix _).length_le⟩
  case h_19 | h_20 =>
    split at h
    · next hq =>
      cases h
      exact ⟨Symbol.noConfusion, quotedAt_length cs hq⟩
    · cases h
  case h_21 =>
    split at h
    · cases h
    · split at h
      · cases h
        exact ⟨Symbol.noConfusion, (List.takeWhile_prefix _).length_le⟩
      · cases h
  case h_22 =>
    split at h
    · next hname =>
      cases h
      exact ⟨Symbol.noConfusion, (nameAt_prefixOf hname).length_le⟩
    · cases h
      exact ⟨Symbol.noConfusion, Nat.zero_le _⟩
  case h_23 =>
    split at h
    · next hname =>
      cases h
      exact ⟨Symbol.noConfusion, (nameAt_prefixOf hname).length_le⟩
    · cases h
  case h_24 =>
    split at h
    · next hm =>
      cases h
      exact ⟨Symbol.noConfusion, Nat.sub_le_of_le_add (numberAt_length hm)⟩
    · next hname =>
      cases h
      exact ⟨Symbol.noConfusion, Nat.sub_le_of_le_add ((nameAt_prefixOf hname).length_le)⟩
    · cases h
  all_goals
    cases h
    exact ⟨Symbol.noConfusion, Nat.zero_le _⟩

theorem scanAfter_within {a : Bool} {c : Char} {o n : Nat} {cs : List Char} {x : Symbol}
    (h : scanAfter a o c cs = .ok (x, n)) : x ≠ .eof ∧ n ≤ cs.length := by
  rw [scanAfter] at h
  split at h
  · cases h
    exact ⟨nofun, (List.takeWhile_prefix _).length_le⟩
  · exact scanSymbol_within h

theorem scanAfter_append {a : Bool} {c : Char} {o o' n : Nat} {x : Symbol} (hr' : Apart r')
    (h : scanAfter a o c (u ++ r) = .ok (x, n)) (hn : n ≤ u.length) :
    scanAfter a o' c (u ++ r') = .ok (x, n) := by
  rw [scanAfter] at h ⊢
  split at h
  · next hc =>
    have htake : (u ++ r').takeWhile isBare = (u ++ r).takeWhile isBare := by
      cases h
      rw [takeWhile_append_of_apart hr' isBare_of_isBlank (by decide +kernel),
        takeWhile_append_of_length_le hn]
    rw [if_pos hc, htake]
    exact h
  · next hc =>
    rw [if_neg hc]
    exact scanSymbol_append hr' h hn

end Parts

end Motif
