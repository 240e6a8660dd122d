import Motif.Proofs.EscapeCutting
import Motif.Regex.Reader

/-!
# Classes in front of the closing anchor

A class ends in a bracket, so what is left behind one of its items is never only the closing
anchor. With this its items, and by induction on the fuel the whole class, read the same without
the anchor.

* `Regex.readNamedClass_append`: a bracketed name does not reach into the anchor.
* `Regex.readClassItem_cut`: an item in front of something that is left of the source.
* `Regex.ItemsCut.succ`: items of a class, by what the first one is.
* **`Regex.readClass_cut`**, `Regex.Cuts.readClass`: a class, and the items of a class.
-/

namespace Motif.Regex

open Unicode (CodeSet)

variable (m : Mode)

/-! ## Named classes -/

/-- Reads a name up to its colon and the closing bracket. -/
def readClassName? (negated : Bool) (cs : List Char) : Option (Bool × CodeSet × List Char) :=
  match cs.dropWhile (· != ':') with
  | ':' :: ']' :: rest =>
    (posixClass? (String.ofList (cs.takeWhile (· != ':')))).map fun s => (negated, s, rest)
  | _ => none

theorem readClassName_append (negated : Bool) (cs : List Char) :
    readClassName? negated (cs ++ closing) =
      (readClassName? negated cs).map fun p => (p.1, p.2.1, p.2.2 ++ closing) := by
  rw [readClassName?, readClassName?]
  obtain ⟨h₁, h₂⟩ | ⟨h₁, h₂⟩ := dropWhile_ne_append (c := ':') (by decide) cs
  · rw [h₁, h₂]
    rfl
  · rw [h₁, h₂]
    generalize cs.dropWhile (· != ':') = ds
    rcases ds with _ | ⟨d, _ | ⟨e, ds⟩⟩
    · rfl
    · by_cases hd : d = ':'
      · subst hd
        rfl
      · simp [closing, hd]
    · by_cases hd : d = ':'
      · by_cases he : e = ']'
        · simp [hd, he, Function.comp_def]
        · simp [he]
      · simp [hd]

theorem readNamedClass_colon (cs : List Char) : readNamedClass? (':' :: cs) =
    match cs with
    | '^' :: rest => readClassName? true rest
    | _ => readClassName? false cs := by
  cases cs with
  | nil => rfl
  | cons c cs =>
    by_cases hc : c = '^'
    · subst hc
      rfl
    · simp only [readNamedClass?, List.cons.injEq, hc, false_and, imp_self, implies_true]
      rfl

theorem readNamedClass_append (cs : List Char) : readNamedClass? (cs ++ closing) =
    (readNamedClass? cs).map fun p => (p.1, p.2.1, p.2.2 ++ closing) := by
  cases cs with
  | nil => rfl
  | cons c cs =>
    by_cases hc : c = ':'
    · subst hc
      rw [List.cons_append, readNamedClass_colon, readNamedClass_colon]
      cases cs with
      | nil => exact readClassName_append false []
      | cons d cs =>
        by_cases hd : d = '^'
        · subst hd
          exact readClassName_append true cs
        · simpa [hd] using readClassName_append false (d :: cs)
    · simp [readNamedClass?, hc]

theorem readNamedClass_suffix {cs rest : List Char} {negated : Bool} {s : CodeSet}
    (h : readNamedClass? cs = some (negated, s, rest)) : rest <:+ cs := by
  have hname {negated' : Bool} {cs : List Char}
      (h : readClassName? negated' cs = some (negated, s, rest)) : rest <:+ cs := by
    rw [readClassName?] at h
    split at h
    · next ys hys =>
      obtain ⟨_, -, h⟩ := Option.map_eq_some_iff.1 h
      cases h
      exact (suffix_of_cons (suffix_of_cons (hys ▸ List.dropWhile_suffix _)))
    · cases h
  cases cs with
  | nil => cases h
  | cons c cs =>
    by_cases hc : c = ':'
    · subst hc
      rw [readNamedClass_colon] at h
      refine List.IsSuffix.trans ?_ (List.suffix_cons ':' cs)
      split at h
      · exact (hname h).trans (List.suffix_cons _ _)
      · exact hname h
    · simp [readNamedClass?, hc] at h

/-! ## Items -/

theorem readClassAtom_suffix {cs rest : List Char} {a : Atom}
    (h : readClassAtom? m cs = some (a, rest)) : rest <:+ cs := by
  unfold readClassAtom? at h
  split at h
  · cases h
  · exact (readEscape_suffix m h).trans (List.suffix_cons _ _)
  · cases h
    exact List.suffix_cons _ _

theorem readClassAtom_shorter {cs rest : List Char} {a : Atom}
    (h : readClassAtom? m cs = some (a, rest)) : rest.length < cs.length := by
  unfold readClassAtom? at h
  split at h
  · cases h
  · exact Nat.lt_succ_of_le (readEscape_suffix m h).length_le
  · cases h
    exact Nat.lt_succ_self _

theorem readClassAtom_of_ne_slash {c : Char} (hc : c ≠ '\\') (cs : List Char) :
    readClassAtom? m (c :: cs) = some (.literal c false, cs) := by
  rw [readClassAtom?]
  exact hc

theorem readClassAtom_cut {cs rest : List Char} {a : Atom}
    (h : readClassAtom? m (cs ++ closing) = some (a, rest ++ closing)) (ha : ∀ l, a ≠ .look l) :
    readClassAtom? m cs = some (a, rest) := by
  cases cs with
  | nil =>
    rw [List.nil_append, closing, readClassAtom_of_ne_slash m (by decide)] at h
    exact absurd (congrArg List.length (Prod.mk.inj (Option.some.inj h)).2) (by simp)
  | cons c cs =>
    by_cases hc : c = '\\'
    · subst hc
      obtain h | ⟨⟨l, hl⟩, -⟩ := readEscape_cut m h
      · exact h
      · exact absurd hl (ha l)
    · rw [List.cons_append, readClassAtom_of_ne_slash m hc] at h
      obtain ⟨rfl, hrest⟩ := Prod.mk.inj (Option.some.inj h)
      rw [readClassAtom_of_ne_slash m hc, List.append_cancel_right hrest]

theorem afterHyphen_append (cs : List Char) :
    m.afterHyphen? (cs ++ closing) = (m.afterHyphen? cs).or (some ')') := by
  have hhead (cs : List Char) : (cs ++ closing).head? = cs.head?.or (some ')') := by
    cases cs <;> rfl
  rw [Mode.afterHyphen?, Mode.afterHyphen?]
  split
  · rw [dropWhile_isBlank_append]
    rcases cs.dropWhile isBlank with _ | ⟨c, cs⟩
    · rfl
    · by_cases hc : c = '#'
      · subst hc
        simp only [List.cons_append, dropWhile_isBlank_append, hhead]
      · simp [hc]
  · exact hhead cs

theorem contains_afterHyphen_append (cs : List Char) :
    [some ']', some '-'].contains (m.afterHyphen? (cs ++ closing)) =
      [some ']', some '-'].contains (m.afterHyphen? cs) := by
  rw [afterHyphen_append]
  cases m.afterHyphen? cs <;> simp

theorem ne_look_of_class {a : Atom} {s : CodeSet} (h : a.class? m = some s) (l : Look) :
    a ≠ .look l := by
  rintro rfl
  cases h

theorem ne_look_of_range {a b : Atom} {s : CodeSet} (h : rangeClass? m a b = some s) (l : Look) :
    a ≠ .look l ∧ b ≠ .look l := by
  constructor
  · rintro rfl
    cases h
  · rintro rfl
    cases a <;> cases h

theorem readClassItem_shorter {cs rest : List Char} {s : CodeSet}
    (h : readClassItem? m cs = some (s, rest)) : rest <:+ cs ∧ rest.length < cs.length := by
  rw [readClassItem?] at h
  obtain ⟨⟨a, ys⟩, ha, h⟩ := Option.bind_eq_some_iff.1 h
  dsimp only at h
  suffices hys : rest <:+ ys from ⟨hys.trans (readClassAtom_suffix m ha),
    Nat.lt_of_le_of_lt hys.length_le (readClassAtom_shorter m ha)⟩
  split at h
  · cases h
  · next after hskip =>
    have hafter : '-' :: after <:+ ys := hskip ▸ m.skip_suffix ys
    split at h
    · obtain ⟨_, -, h⟩ := Option.bind_eq_some_iff.1 h
      cases h
      exact m.skip_suffix ys
    · obtain ⟨⟨b, zs⟩, hb, h⟩ := Option.bind_eq_some_iff.1 h
      obtain ⟨_, -, h⟩ := Option.bind_eq_some_iff.1 h
      cases h
      exact (readClassAtom_suffix m hb).trans ((m.skip_suffix after).trans (suffix_of_cons hafter))
  · obtain ⟨_, -, h⟩ := Option.bind_eq_some_iff.1 h
    cases h
    exact m.skip_suffix ys

theorem readClassItem_cut {cs rest : List Char} {s : CodeSet} (hrest : rest ≠ [])
    (h : readClassItem? m (cs ++ closing) = some (s, rest ++ closing)) :
    readClassItem? m cs = some (s, rest) := by
  rw [readClassItem?] at h
  obtain ⟨⟨a, ys⟩, ha, h⟩ := Option.bind_eq_some_iff.1 h
  dsimp only at h
  -- what the first atom leaves ends in what is left in the end
  have hatom (hys : rest ++ closing <:+ ys) (hlook : ∀ l, a ≠ .look l) :
      ∃ zs, ys = zs ++ closing ∧ readClassAtom? m cs = some (a, zs) := by
    obtain ⟨zs, rfl, -⟩ := exists_of_append_suffix hys
    exact ⟨zs, rfl, readClassAtom_cut m ha hlook⟩
  split at h
  · cases h
  · next after hskip =>
    have hafter : '-' :: after <:+ ys := hskip ▸ m.skip_suffix ys
    split at h
    · next hhyphen =>
      obtain ⟨t, ht, h⟩ := Option.bind_eq_some_iff.1 h
      obtain ⟨rfl, hys⟩ := Prod.mk.inj (Option.some.inj h)
      obtain ⟨zs, rfl, hzs⟩ := hatom (hys ▸ m.skip_suffix ys) (ne_look_of_class m ht)
      obtain ⟨c, rest, rfl⟩ := List.exists_cons_of_ne_nil hrest
      have hcons : '-' :: after = c :: (rest ++ closing) := hskip.symm.trans hys
      obtain ⟨rfl, rfl⟩ := List.cons.inj hcons
      have hcut : m.skip zs = '-' :: rest := m.skip_cut hys
      rw [contains_afterHyphen_append] at hhyphen
      simp only [readClassItem?, hzs, Option.bind_eq_bind, Option.bind_some, hcut, hhyphen, if_true,
        ht]
      rfl
    · next hhyphen =>
      obtain ⟨⟨b, zs⟩, hb, h⟩ := Option.bind_eq_some_iff.1 h
      obtain ⟨t, ht, h⟩ := Option.bind_eq_some_iff.1 h
      obtain ⟨rfl, rfl⟩ := Prod.mk.inj (Option.some.inj h)
      have hskipped := readClassAtom_suffix m hb
      have hrange := hskipped.trans (m.skip_suffix after)
      obtain ⟨after, rfl, -⟩ := exists_of_append_suffix hrange
      obtain ⟨zs, rfl, hzs⟩ := hatom (hrange.trans (suffix_of_cons hafter))
        fun l => (ne_look_of_range m ht l).1
      have hcut : m.skip zs = '-' :: after := m.skip_cut hskip
      rw [contains_afterHyphen_append] at hhyphen
      rw [m.skip_append hskipped] at hb
      have hb' := readClassAtom_cut m hb fun l => (ne_look_of_range m ht l).2
      simp only [readClassItem?, hzs, Option.bind_eq_bind, Option.bind_some, hcut, hhyphen,
        hb', ht]
      rfl
  · next hnil hhyphen =>
    obtain ⟨t, ht, h⟩ := Option.bind_eq_some_iff.1 h
    obtain ⟨rfl, hys⟩ := Prod.mk.inj (Option.some.inj h)
    obtain ⟨zs, rfl, hzs⟩ := hatom (hys ▸ m.skip_suffix ys) (ne_look_of_class m ht)
    obtain ⟨c, rest, rfl⟩ := List.exists_cons_of_ne_nil hrest
    have hc : c ≠ '-' := by
      rintro rfl
      exact hhyphen (rest ++ closing) hys
    have hcut : m.skip zs = c :: rest := m.skip_cut hys
    simp [readClassItem?, hzs, hcut, hc, ht]

/-! ## The front of a class -/

/-- Reads the caret of a class, and what is skipped before what follows. -/
def readCaret (m : Mode) (cs : List Char) : Bool × List Char :=
  let (negated, cs) := takeChar '^' (m.skip cs)
  (negated, if negated then m.skip cs else cs)

/-- What stands for itself at the front of a class, last one first: the hyphens that were read, or
else a closing bracket. -/
def classFirst (hyphens : List Char) (cs : List Char) : List (Nested CodeSet) × List Char :=
  let first (c : Char) : Nested CodeSet := .leaf (.single c.toNat)
  match hyphens with
  | [] => (if (takeChar ']' cs).1 then [first ']'] else [], (takeChar ']' cs).2)
  | _ => (hyphens.map first, cs)

/-- Reads what stands for itself at the front of a class. -/
def classFront (m : Mode) (cs : List Char) : List (Nested CodeSet) × List Char :=
  let (hyphens, cs) := m.collect (· == '-') false cs
  classFirst hyphens cs

theorem readClassItems_front (fuel levels : Nat) (negated : Bool) (cs : List Char) :
    (match m.collect (· == '-') false cs with
      | (hyphens, cs) =>
        match hyphens, cs with
        | [], ']' :: rest =>
          readClassItems? fuel levels m negated none [.leaf (.single ']'.toNat)] rest
        | _, cs => readClassItems? fuel levels m negated none
          (hyphens.map fun c => .leaf (.single c.toNat)) cs) =
      readClassItems? fuel levels m negated none (classFront m cs).1 (classFront m cs).2 := by
  dsimp only [classFront]
  rcases m.collect (· == '-') false cs with ⟨_ | ⟨c, hyphens⟩, cs⟩
  · cases cs with
    | nil => rfl
    | cons d cs =>
      by_cases hd : d = ']'
      · subst hd
        rfl
      · simp [classFirst, takeChar, hd]
  · rfl

theorem readClass_succ (fuel levels : Nat) (cs : List Char) :
    readClass? (fuel + 1) (levels + 1) m cs =
      readClassItems? fuel levels m (readCaret m cs).1 none (classFront m (readCaret m cs).2).1
        (classFront m (readCaret m cs).2).2 := by
  rw [readClass?]
  cases hskip : m.skip cs with
  | nil =>
    have hcaret : readCaret m cs = (false, []) := by simp [readCaret, takeChar, hskip]
    rw [hcaret]
    exact readClassItems_front m fuel levels false []
  | cons c rest =>
    by_cases hc : c = '^'
    · subst hc
      have hcaret : readCaret m cs = (true, m.skip rest) := by simp [readCaret, takeChar, hskip]
      rw [hcaret]
      exact readClassItems_front m fuel levels true (m.skip rest)
    · have hcaret : readCaret m cs = (false, c :: rest) := by
        simp [readCaret, takeChar, hskip, hc]
      rw [hcaret]
      split
      next h =>
        split at h
        · next h' => exact absurd (List.cons.inj h').1 hc
        · cases h
          exact readClassItems_front m fuel levels false (c :: rest)

variable (n : Nat)

theorem Cuts.readCaret : CutsSelf n fun cs => some (readCaret m cs) := by
  have hskip (negated : Bool) :
      CutsSelf n fun cs => some (negated, if negated then m.skip cs else cs) := by
    cases negated with
    | true => exact (Cuts.done true).skipped m
    | false => exact .done false
  exact ((Cuts.takeChar '^').andThen hskip).skipped m

theorem Cuts.classFront : CutsSelf n fun cs => some (classFront m cs) := by
  have hfirst (hyphens : List Char) : CutsSelf n fun cs => some (classFirst hyphens cs) := by
    cases hyphens with
    | nil =>
      exact (Cuts.takeChar ']').andThen fun bracket =>
        .done (if bracket then [Nested.leaf (CodeSet.single ']'.toNat)] else [])
    | cons c hyphens => exact .done _
  exact (Cuts.collect m (· == '-')).andThen hfirst

/-! ## Classes -/

theorem readClass_shorter (fuel : Nat) :
    (∀ {levels cs s rest}, readClass? fuel levels m cs = some (s, rest) → ∃ c, c :: rest <:+ cs) ∧
    ∀ {levels negated pending items cs s rest},
      readClassItems? fuel levels m negated pending items cs = some (s, rest) →
      ∃ c, c :: rest <:+ cs := by
  induction fuel with
  | zero => simp [readClass?, readClassItems?]
  | succ fuel ih =>
    obtain ⟨ihClass, ihItems⟩ := ih
    constructor
    · intro levels cs s rest h
      cases levels with
      | zero => simp [readClass?] at h
      | succ levels =>
        rw [readClass_succ] at h
        obtain ⟨c, hc⟩ := ihItems h
        exact ⟨c, (hc.trans ((Cuts.classFront m 0).suffix rfl)).trans
          ((Cuts.readCaret m 0).suffix rfl)⟩
    · intro levels negated pending items cs s rest h
      -- what follows the first character takes its own characters
      have hcons {c : Char} {ys zs : List Char} (hskip : m.skip cs = c :: ys) (hzs : zs <:+ ys)
          (h : ∃ c, c :: rest <:+ zs) : ∃ c, c :: rest <:+ cs := by
        obtain ⟨d, hd⟩ := h
        exact ⟨d, (hd.trans hzs).trans (suffix_of_cons (hskip ▸ m.skip_suffix cs))⟩
      rw [readClassItems?] at h
      dsimp only at h
      split at h
      · cases h
      · next ys hskip =>
        obtain ⟨_, -, h⟩ := Option.map_eq_some_iff.1 h
        cases h
        exact ⟨_, hskip ▸ m.skip_suffix cs⟩
      · next ys hskip =>
        split at h
        · next hnamed =>
          obtain ⟨_, -, h⟩ := Option.bind_eq_some_iff.1 h
          exact hcons hskip (readNamedClass_suffix hnamed) (ihItems h)
        · obtain ⟨⟨t, zs⟩, ht, h⟩ := Option.bind_eq_some_iff.1 h
          obtain ⟨d, hd⟩ := ihClass ht
          exact hcons hskip (suffix_of_cons hd) (ihItems h)
      · next hskip => exact hcons hskip (List.suffix_cons _ _) (ihItems h)
      · next hskip => exact hcons hskip (List.suffix_cons _ _) (ihItems h)
      · next hskip => exact hcons hskip (List.suffix_cons _ _) (ihItems h)
      · obtain ⟨⟨t, zs⟩, ht, h⟩ := Option.bind_eq_some_iff.1 h
        obtain ⟨d, hd⟩ := ihItems h
        exact ⟨d, (hd.trans (readClassItem_shorter m ht).1).trans (m.skip_suffix cs)⟩

theorem suffix_of_readClass {fuel levels : Nat} {cs rest : List Char} {s : Nested CodeSet}
    (h : readClass? fuel levels m cs = some (s, rest)) : rest <:+ cs := by
  obtain ⟨c, hc⟩ := (readClass_shorter m fuel).1 h
  exact suffix_of_cons hc

theorem suffix_of_readClassItems {fuel levels : Nat} {negated : Bool} {pending : Pending}
    {items : List (Nested CodeSet)} {cs rest : List Char} {s : Nested CodeSet}
    (h : readClassItems? fuel levels m negated pending items cs = some (s, rest)) :
    rest <:+ cs := by
  obtain ⟨c, hc⟩ := (readClass_shorter m fuel).2 h
  exact suffix_of_cons hc

/-- Read with this fuel in front of the closing anchor, a class reads the same without it, with
enough levels and fuel. -/
def ClassCut (fuel : Nat) : Prop :=
  ∀ fuel' {levels levels' cs s rest}, 2 * cs.length + 2 ≤ fuel' → levels ≤ levels' →
    readClass? fuel levels m (cs ++ closing) = some (s, rest ++ closing) →
    readClass? fuel' levels' m cs = some (s, rest)

/-- The same of the items of a class. -/
def ItemsCut (fuel : Nat) : Prop :=
  ∀ fuel' {levels levels' negated pending items cs s rest}, 2 * cs.length + 1 ≤ fuel' →
    levels ≤ levels' →
    readClassItems? fuel levels m negated pending items (cs ++ closing) =
      some (s, rest ++ closing) →
    readClassItems? fuel' levels' m negated pending items cs = some (s, rest)

section Step

variable {m}
variable {fuel : Nat}

theorem ItemsCut.classCut (hitems : ItemsCut m fuel) : ClassCut m (fuel + 1) := by
  intro fuel' levels levels' cs s rest hfuel hlevels h
  obtain ⟨fuel', rfl⟩ : ∃ k, fuel' = k + 1 := ⟨fuel' - 1, by omega⟩
  cases levels with
  | zero => simp [readClass?] at h
  | succ levels =>
    obtain ⟨levels', rfl⟩ : ∃ k, levels' = k + 1 := ⟨levels' - 1, by omega⟩
    rw [readClass_succ] at h ⊢
    rcases hcaret : readCaret m (cs ++ closing) with ⟨negated, xs⟩
    rcases hfront : classFront m xs with ⟨front, ys⟩
    simp only [hcaret, hfront] at h
    have hys := suffix_of_readClassItems m h
    have hxs : ys <:+ xs := (Cuts.classFront m 0).suffix (congrArg some hfront)
    obtain ⟨xs, rfl, -⟩ := exists_of_append_suffix (hys.trans hxs)
    obtain ⟨ys, rfl, -⟩ := exists_of_append_suffix hys
    have hcaret' := (Cuts.readCaret m _).cut (Nat.le_refl _) (congrArg some hcaret)
    have hfront' := (Cuts.classFront m _).cut (Nat.le_refl _) (congrArg some hfront)
    have hlt := ((Cuts.readCaret m 0).suffix hcaret').length_le
    have hlt' := ((Cuts.classFront m 0).suffix hfront').length_le
    simp only [Option.some.inj hcaret', Option.some.inj hfront']
    exact hitems fuel' (by omega) (by omega) h

variable {fuel' levels levels' : Nat} {negated : Bool} {pending : Pending}
  {items : List (Nested CodeSet)} {cs ys rest : List Char} {s : Nested CodeSet}

theorem ItemsCut.operator (hitems : ItemsCut m fuel) (hfuel : 2 * cs.length ≤ fuel')
    (hlevels : levels ≤ levels') {c d : Char} (hskip : m.skip (cs ++ closing) = c :: d :: ys)
    (h : readClassItems? fuel levels m negated pending items ys = some (s, rest ++ closing)) :
    ∃ zs, m.skip cs = c :: d :: zs ∧
      readClassItems? fuel' levels' m negated pending items zs = some (s, rest) := by
  have hsuffix := suffix_of_readClassItems m h
  obtain ⟨zs, hzs, hcut, hlt⟩ := m.skip_cons_cut hskip (hsuffix.trans (List.suffix_cons d ys))
  obtain ⟨ys, rfl, -⟩ := exists_of_append_suffix hsuffix
  obtain rfl := List.append_cancel_right (show d :: ys ++ closing = zs ++ closing from hzs)
  rw [List.length_cons] at hlt
  exact ⟨ys, hcut, hitems fuel' (by omega) hlevels h⟩

theorem ItemsCut.named (hitems : ItemsCut m fuel) (hfuel : 2 * cs.length ≤ fuel')
    (hlevels : levels ≤ levels') {c : Char} (hskip : m.skip (cs ++ closing) = c :: ys)
    {complement : Bool} {t : CodeSet} {ys' : List Char}
    (hnamed : readNamedClass? ys = some (complement, t, ys'))
    (h : readClassItems? fuel levels m negated pending items ys' = some (s, rest ++ closing)) :
    ∃ zs zs', m.skip cs = c :: zs ∧ readNamedClass? zs = some (complement, t, zs') ∧
      readClassItems? fuel' levels' m negated pending items zs' = some (s, rest) := by
  have hsuffix := suffix_of_readClassItems m h
  obtain ⟨zs, rfl, hcut, hlt⟩ := m.skip_cons_cut hskip
    (hsuffix.trans (readNamedClass_suffix hnamed))
  rw [readNamedClass_append] at hnamed
  obtain ⟨⟨complement', t', zs'⟩, hnamed', heq⟩ := Option.map_eq_some_iff.1 hnamed
  obtain ⟨rfl, rfl, rfl⟩ : complement' = complement ∧ t' = t ∧ zs' ++ closing = ys' := by
    simpa using heq
  have hzs' := (readNamedClass_suffix hnamed').length_le
  exact ⟨zs, zs', hcut, hnamed', hitems fuel' (by omega) hlevels h⟩

theorem ItemsCut.nested (hitems : ItemsCut m fuel) (hclass : ClassCut m fuel)
    (hfuel : 2 * cs.length ≤ fuel') (hlevels : levels ≤ levels') {c : Char}
    (hskip : m.skip (cs ++ closing) = c :: ys) (hnamed : readNamedClass? ys = none)
    {t : Nested CodeSet} {ys' : List Char} (ht : readClass? fuel levels m ys = some (t, ys'))
    (h : readClassItems? fuel levels m negated pending items ys' = some (s, rest ++ closing)) :
    ∃ zs zs', m.skip cs = c :: zs ∧ readNamedClass? zs = none ∧
      readClass? fuel' levels' m zs = some (t, zs') ∧
      readClassItems? fuel' levels' m negated pending items zs' = some (s, rest) := by
  have hbehind := suffix_of_readClassItems m h
  have hsuffix := suffix_of_readClass m ht
  obtain ⟨zs, rfl, hcut, hlt⟩ := m.skip_cons_cut hskip (hbehind.trans hsuffix)
  obtain ⟨zs', rfl, -⟩ := exists_of_append_suffix hbehind
  have hlt' := (suffix_of_append_suffix hsuffix).length_le
  rw [readNamedClass_append, Option.map_eq_none_iff] at hnamed
  exact ⟨zs, zs', hcut, hnamed, hclass fuel' (by omega) hlevels ht,
    hitems fuel' (by omega) hlevels h⟩

theorem ItemsCut.item (hitems : ItemsCut m fuel) (hfuel : 2 * cs.length ≤ fuel')
    (hlevels : levels ≤ levels') {t : CodeSet}
    (ht : readClassItem? m (m.skip (cs ++ closing)) = some (t, ys))
    (h : readClassItems? fuel levels m negated pending items ys = some (s, rest ++ closing)) :
    ∃ zs, m.skip (cs ++ closing) = m.skip cs ++ closing ∧
      readClassItem? m (m.skip cs) = some (t, zs) ∧
      readClassItems? fuel' levels' m negated pending items zs = some (s, rest) := by
  obtain ⟨d, hd⟩ := (readClass_shorter m fuel).2 h
  have hcut := m.skip_append
    ((suffix_of_cons hd).trans (readClassItem_shorter m ht).1)
  obtain ⟨zs, rfl, hne⟩ := exists_of_append_suffix (show d :: rest ++ closing <:+ _ from hd)
  rw [hcut] at ht
  have hzs : zs ≠ [] := by
    rintro rfl
    simpa using hne.length_le
  have ht' := readClassItem_cut m hzs ht
  have hlt := (readClassItem_shorter m ht').2
  have hskip := (m.skip_suffix cs).length_le
  exact ⟨zs, hcut, ht', hitems fuel' (by omega) hlevels h⟩

theorem ItemsCut.succ (hitems : ItemsCut m fuel) (hclass : ClassCut m fuel) :
    ItemsCut m (fuel + 1) := by
  intro fuel' levels levels' negated pending items cs s rest hfuel hlevels h
  obtain ⟨fuel', rfl⟩ : ∃ k, fuel' = k + 1 := ⟨fuel' - 1, by omega⟩
  have hfuel : 2 * cs.length ≤ fuel' := Nat.le_of_succ_le_succ hfuel
  rw [readClassItems?] at h
  dsimp only at h
  split at h
  · cases h
  · next ys hskip =>
    obtain ⟨t, ht, h⟩ := Option.map_eq_some_iff.1 h
    obtain ⟨rfl, rfl⟩ := Prod.mk.inj h
    obtain ⟨zs, hzs, hcut, -⟩ := m.skip_cons_cut hskip List.suffix_rfl
    obtain rfl := List.append_cancel_right hzs
    simp [readClassItems?, hcut, ht]
  · next ys hskip =>
    split at h
    · next hnamed =>
      obtain ⟨u, hu, h⟩ := Option.bind_eq_some_iff.1 h
      obtain ⟨zs, zs', hcut, hnamed', h'⟩ := hitems.named hfuel hlevels hskip hnamed h
      simp [readClassItems?, hcut, hnamed', hu, h']
    · next hnamed =>
      obtain ⟨⟨t, ys'⟩, ht, h⟩ := Option.bind_eq_some_iff.1 h
      obtain ⟨zs, zs', hcut, hnamed', ht', h'⟩ :=
        hitems.nested hclass hfuel hlevels hskip hnamed ht h
      simp [readClassItems?, hcut, hnamed', ht', h']
  · next hskip =>
    obtain ⟨zs, hcut, h'⟩ := hitems.operator hfuel hlevels hskip h
    simp [readClassItems?, hcut, h']
  · next hskip =>
    obtain ⟨zs, hcut, h'⟩ := hitems.operator hfuel hlevels hskip h
    simp [readClassItems?, hcut, h']
  · next hskip =>
    obtain ⟨zs, hcut, h'⟩ := hitems.operator hfuel hlevels hskip h
    simp [readClassItems?, hcut, h']
  · next hnil hclose hopen hinter hdiff hsymm =>
    obtain ⟨⟨t, ys⟩, ht, h⟩ := Option.bind_eq_some_iff.1 h
    obtain ⟨zs, hcut, ht', h'⟩ := hitems.item hfuel hlevels ht h
    -- without the anchor there is no other first character, so the same case applies
    rw [readClassItems?]
    dsimp only
    split
    · next hskip => simp [hskip, readClassItem?, readClassAtom?] at ht'
    · next hskip => exact absurd (by rw [hcut, hskip]; rfl) (hclose _)
    · next hskip => exact absurd (by rw [hcut, hskip]; rfl) (hopen _)
    · next hskip => exact absurd (by rw [hcut, hskip]; rfl) (hinter _)
    · next hskip => exact absurd (by rw [hcut, hskip]; rfl) (hdiff _)
    · next hskip => exact absurd (by rw [hcut, hskip]; rfl) (hsymm _)
    · simp [ht', h']

end Step

/-- **A class reads the same without the closing anchor**, and so do its items. -/
theorem readClass_cut (fuel : Nat) : ClassCut m fuel ∧ ItemsCut m fuel := by
  induction fuel with
  | zero => simp [ClassCut, ItemsCut, readClass?, readClassItems?]
  | succ fuel ih => exact ⟨ih.2.classCut, ih.2.succ ih.1⟩

theorem Cuts.readClass {fuel fuel' levels levels' : Nat} (hfuel : 2 * n + 2 ≤ fuel')
    (hlevels : levels ≤ levels') :
    Cuts n (readClass? fuel levels m) (readClass? fuel' levels' m) where
  suffix := suffix_of_readClass m
  cut hn h := (readClass_cut m fuel).1 fuel' (by omega) hlevels h

end Motif.Regex
