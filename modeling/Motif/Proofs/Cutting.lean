import Mathlib.Data.List.TakeWhile
import Motif.Regex

/-!
# Reading in front of the closing anchor

A reader of a part of a regular expression that leaves the closing parenthesis and the anchor put
behind a source never looked at them, so it reads the same when they are not there.

* `Regex.closing`: what stands behind a source.
* `Regex.Cuts`: a reader leaves a suffix of its input, and reads the same without what it leaves.
* `Regex.Cuts.andThen`, `Regex.Cuts.stopping`, `Regex.Cuts.ifChar`: readers made of readers.
* `Regex.Cuts.skip`, `Regex.Cuts.collect`: blanks and comments.
-/

namespace Motif.Regex

open Unicode (CodeSet)

/-- What stands behind a source that is to match a whole text. -/
def closing : List Char := [')', '$']

theorem exists_of_append_suffix {xs ys tl : List Char} (h : xs ++ tl <:+ ys) :
    ∃ zs, ys = zs ++ tl ∧ xs <:+ zs := by
  obtain ⟨ws, rfl⟩ := h
  exact ⟨ws ++ xs, (List.append_assoc ..).symm, ws, rfl⟩

theorem suffix_of_append_suffix {xs ys tl : List Char} (h : xs ++ tl <:+ ys ++ tl) : xs <:+ ys := by
  obtain ⟨ws, hws⟩ := h
  rw [← List.append_assoc] at hws
  exact ⟨ws, List.append_cancel_right hws⟩

theorem suffix_of_cons {x : Char} {xs ys : List Char} (h : x :: xs <:+ ys) : xs <:+ ys :=
  (List.suffix_cons x xs).trans h

/-- Readers of a part of an expression. -/
abbrev Reader (α : Type) := List Char → Option (α × List Char)

/-- One reader after the other. -/
def Reader.andThen {α β : Type} (f : Reader α) (g : α → Reader β) : Reader β :=
  fun cs => (f cs).bind fun p => g p.1 p.2

/-- A reader leaves a suffix. If it leaves what stands behind the source, then on up to `n`
characters another reader reads the same without that. -/
structure Cuts {α : Type} (n : Nat) (f f' : Reader α) : Prop where
  suffix {cs rest : List Char} {a : α} (h : f cs = some (a, rest)) : rest <:+ cs
  cut {cs rest : List Char} {a : α} (hn : cs.length ≤ n)
    (h : f (cs ++ closing) = some (a, rest ++ closing)) : f' cs = some (a, rest)

/-- Takes a character off the front if it is there. -/
def takeChar (c : Char) (cs : List Char) : Bool × List Char :=
  if cs.head? = some c then (true, cs.tail) else (false, cs)

theorem takeChar_cons (c : Char) (cs : List Char) : takeChar c (c :: cs) = (true, cs) := by
  simp [takeChar]

theorem takeChar_of_ne {c : Char} {cs : List Char} (h : ∀ rest, cs ≠ c :: rest) :
    takeChar c cs = (false, cs) := by
  cases cs with
  | nil => rfl
  | cons d cs =>
    have hd : d ≠ c := by
      rintro rfl
      exact h cs rfl
    simp [takeChar, hd]

/-- A reader that itself reads the same without what it leaves. -/
abbrev CutsSelf {α : Type} (n : Nat) (f : Reader α) : Prop := Cuts n f f

namespace Cuts

variable {α β : Type} {n k : Nat} {f f' : Reader α}

theorem of (h : ∀ {xs ys a}, f xs = some (a, ys) → ys <:+ xs ∧ ∀ {cs rest}, cs.length ≤ n →
    xs = cs ++ closing → ys = rest ++ closing → f' cs = some (a, rest)) : Cuts n f f' where
  suffix hf := (h hf).1
  cut hn hf := (h hf).2 hn rfl rfl

theorem both (h : Cuts n f f') {xs ys : List Char} {a : α} (hf : f xs = some (a, ys)) :
    ys <:+ xs ∧ ∀ {cs rest}, cs.length ≤ n → xs = cs ++ closing → ys = rest ++ closing →
      f' cs = some (a, rest) :=
  ⟨h.suffix hf, by
    rintro cs rest hn rfl rfl
    exact h.cut hn hf⟩

theorem mono (h : Cuts n f f') (hk : k ≤ n) : Cuts k f f' where
  suffix := h.suffix
  cut hcs := h.cut (Nat.le_trans hcs hk)

theorem fail : Cuts n (fun _ => none : Reader α) f' where
  suffix h := by cases h
  cut _ h := by cases h

theorem done (a : α) : CutsSelf n fun cs => some (a, cs) where
  suffix h := by
    cases h
    exact List.suffix_rfl
  cut _ h := by
    obtain ⟨rfl, hrest⟩ := Prod.mk.inj (Option.some.inj h)
    rw [List.append_cancel_right hrest]

theorem ofOption (b : Option β) (g : β → α) : CutsSelf n fun cs => b.map fun b => (g b, cs) := by
  cases b with
  | none => exact fail
  | some b => exact done (g b)

theorem andThen (h : Cuts n f f') {g g' : α → Reader β} (hg : ∀ a, Cuts n (g a) (g' a)) :
    Cuts n (f.andThen g) (f'.andThen g') where
  suffix hb := by
    obtain ⟨⟨a, mid⟩, ha, hb⟩ := Option.bind_eq_some_iff.1 hb
    exact ((hg a).suffix hb).trans (h.suffix ha)
  cut hcs hb := by
    obtain ⟨⟨a, mid⟩, ha, hb⟩ := Option.bind_eq_some_iff.1 hb
    obtain ⟨mid, rfl, -⟩ := exists_of_append_suffix ((hg a).suffix hb)
    have hmid := (suffix_of_append_suffix (h.suffix ha)).length_le
    rw [Reader.andThen, h.cut hcs ha]
    exact (hg a).cut (Nat.le_trans hmid hcs) hb

theorem map (h : Cuts n f f') (g : α → β) :
    Cuts n (fun cs => (f cs).map fun p => (g p.1, p.2))
      fun cs => (f' cs).map fun p => (g p.1, p.2) := by
  simp only [Option.map_eq_bind]
  exact h.andThen fun a => done (g a)

theorem takeChar (c : Char) : CutsSelf n fun cs => some (takeChar c cs) := by
  refine .of fun {xs ys b} h => ?_
  by_cases hxs : ∃ zs, xs = c :: zs
  · obtain ⟨zs, rfl⟩ := hxs
    rw [takeChar_cons] at h
    obtain ⟨rfl, rfl⟩ := Prod.mk.inj (Option.some.inj h)
    refine ⟨List.suffix_cons c zs, ?_⟩
    rintro cs rest - hcs rfl
    rw [← List.append_cancel_right (show c :: rest ++ closing = cs ++ closing from hcs),
      takeChar_cons]
  · rw [takeChar_of_ne (not_exists.1 hxs)] at h
    obtain ⟨rfl, rfl⟩ := Prod.mk.inj (Option.some.inj h)
    refine ⟨List.suffix_rfl, ?_⟩
    rintro cs rest - rfl hrest
    rw [takeChar_of_ne fun zs hzs => hxs ⟨zs ++ closing, by rw [hzs, List.cons_append]⟩,
      List.append_cancel_right hrest]

/-- A reader that stops in front of some characters, among them a closing parenthesis, and of the
end, and goes on after others. -/
theorem stopping (stops : Char → Bool) (hstops : stops ')' = true) (a : α) {g g' : Char → Reader α}
    (hsuffix : ∀ {c cs rest b}, g c cs = some (b, rest) → rest <:+ cs)
    (hcut : ∀ {k c}, k + 1 = n → Cuts k (g c) (g' c)) :
    Cuts n
      (fun
        | [] => some (a, [])
        | c :: cs => if stops c then some (a, c :: cs) else g c cs)
      fun
        | [] => some (a, [])
        | c :: cs => if stops c then some (a, c :: cs) else g' c cs where
  suffix {cs _ _} h := by
    cases cs with
    | nil =>
      cases h
      exact List.suffix_rfl
    | cons c cs =>
      dsimp only at h
      split at h
      · cases h
        exact List.suffix_rfl
      · exact (hsuffix h).trans (List.suffix_cons c cs)
  cut {cs rest b} hn h := by
    cases cs with
    | nil =>
      simp only [List.nil_append, closing, hstops, if_true] at h
      obtain ⟨rfl, hrest⟩ := Prod.mk.inj (Option.some.inj h)
      rw [← List.append_cancel_right (show [] ++ closing = rest ++ closing from hrest)]
    | cons c cs =>
      simp only [List.cons_append] at h
      dsimp only
      split
      · next hc =>
        rw [if_pos hc] at h
        obtain ⟨rfl, hrest⟩ := Prod.mk.inj (Option.some.inj h)
        rw [List.append_cancel_right (show c :: cs ++ closing = rest ++ closing from hrest)]
      · next hc =>
        rw [if_neg hc] at h
        rw [List.length_cons] at hn
        exact (hcut (k := n - 1) (by omega)).cut (by omega) h

theorem ifChar {c : Char} {f f' g g' : Reader α}
    (hsuffix : ∀ {cs rest a}, f cs = some (a, rest) → rest <:+ cs)
    (hcut : ∀ {k}, k + 1 = n → Cuts k f f') (hg : Cuts n g g') :
    Cuts n
      (fun cs => if (Regex.takeChar c cs).1 then f (Regex.takeChar c cs).2
        else g (Regex.takeChar c cs).2)
      fun cs => if (Regex.takeChar c cs).1 then f' (Regex.takeChar c cs).2
        else g' (Regex.takeChar c cs).2 := by
  refine .of fun {xs ys a} h => ?_
  by_cases hxs : ∃ zs, xs = c :: zs
  · obtain ⟨zs, rfl⟩ := hxs
    simp only [takeChar_cons, if_true] at h
    refine ⟨(hsuffix h).trans (List.suffix_cons c zs), ?_⟩
    rintro cs rest hn hcs rfl
    obtain ⟨zs, rfl, -⟩ := exists_of_append_suffix (hsuffix h)
    obtain rfl := List.append_cancel_right (show c :: zs ++ closing = cs ++ closing from hcs)
    simp only [takeChar_cons, if_true]
    rw [List.length_cons] at hn
    exact (hcut (k := n - 1) (by omega)).cut (by omega) h
  · have hne := takeChar_of_ne (not_exists.1 hxs)
    simp only [hne, Bool.false_eq_true, if_false] at h
    refine ⟨hg.suffix h, ?_⟩
    rintro cs rest hn rfl rfl
    have hne' : Regex.takeChar c cs = (false, cs) := takeChar_of_ne fun zs hzs =>
      hxs ⟨zs ++ closing, by rw [hzs, List.cons_append]⟩
    simp only [hne', Bool.false_eq_true, if_false]
    exact hg.cut hn h

theorem next {f f' : Char → Reader α} (h : ∀ c, Cuts n (f c) (f' c)) :
    Cuts (n + 1) (fun | [] => none | c :: cs => f c cs) fun | [] => none | c :: cs => f' c cs where
  suffix {cs _ _} hf := by
    cases cs with
    | nil => cases hf
    | cons c cs => exact ((h c).suffix hf).trans (List.suffix_cons c cs)
  cut {cs _ _} hcs hf := by
    cases cs with
    | nil =>
      have := ((h ')').suffix hf).length_le
      simp [closing] at this
    | cons c cs => exact (h c).cut (Nat.le_of_succ_le_succ hcs) hf

end Cuts

/-! ## Blanks and comments -/

theorem isBlank_closing : isBlank ')' = false := by decide +kernel

namespace Mode

theorem skipBlanks_suffix (comment : Bool) (cs : List Char) : skipBlanks comment cs <:+ cs := by
  induction cs generalizing comment with
  | nil => cases comment <;> exact List.suffix_rfl
  | cons c cs ih =>
    cases comment with
    | true => exact (ih _).trans (List.suffix_cons c cs)
    | false =>
      rw [skipBlanks]
      split
      · exact (ih _).trans (List.suffix_cons c cs)
      · split
        · exact (ih _).trans (List.suffix_cons c cs)
        · exact List.suffix_rfl

theorem skipBlanks_cut {comment : Bool} {cs rest : List Char}
    (h : skipBlanks comment (cs ++ closing) = rest ++ closing) : skipBlanks comment cs = rest := by
  induction cs generalizing comment with
  | nil =>
    cases comment with
    | true => exact absurd (congrArg List.length h) (by simp [closing, skipBlanks])
    | false =>
      rw [List.nil_append, closing, skipBlanks, isBlank_closing] at h
      exact (List.append_cancel_right (h : [] ++ closing = rest ++ closing))
  | cons c cs ih =>
    cases comment with
    | true => exact ih h
    | false =>
      rw [List.cons_append, skipBlanks] at h
      rw [skipBlanks]
      split
      · next hc =>
        rw [if_pos hc] at h
        exact ih h
      · next hc =>
        rw [if_neg hc] at h
        split
        · next hc =>
          rw [if_pos hc] at h
          exact ih h
        · next hc =>
          rw [if_neg hc] at h
          exact List.append_cancel_right h

theorem skipBlanks_append_of_ne_nil {comment : Bool} {cs : List Char}
    (h : skipBlanks comment cs ≠ []) (tl : List Char) :
    skipBlanks comment (cs ++ tl) = skipBlanks comment cs ++ tl := by
  induction cs generalizing comment with
  | nil => cases comment <;> exact absurd rfl h
  | cons c cs ih =>
    cases comment with
    | true => exact ih h
    | false =>
      rw [skipBlanks] at h
      rw [List.cons_append, skipBlanks, skipBlanks]
      split
      · next hc =>
        rw [if_pos hc] at h
        exact ih h
      · next hc =>
        rw [if_neg hc] at h
        split
        · next hc =>
          rw [if_pos hc] at h
          exact ih h
        · rfl

theorem skipBlanks_closing_of_eq_nil {comment : Bool} {cs : List Char}
    (h : skipBlanks comment cs = []) :
    skipBlanks comment (cs ++ closing) = closing ∨ skipBlanks comment (cs ++ closing) = [] := by
  induction cs generalizing comment with
  | nil =>
    cases comment with
    | true => exact .inr rfl
    | false =>
      rw [List.nil_append, closing, skipBlanks, isBlank_closing]
      exact .inl rfl
  | cons c cs ih =>
    cases comment with
    | true => exact ih h
    | false =>
      rw [skipBlanks] at h
      rw [List.cons_append, skipBlanks]
      split
      · next hc =>
        rw [if_pos hc] at h
        exact ih h
      · next hc =>
        rw [if_neg hc] at h
        split
        · next hc =>
          rw [if_pos hc] at h
          exact ih h
        · next hc =>
          rw [if_neg hc] at h
          cases h

variable (m : Mode)

theorem skip_suffix (cs : List Char) : m.skip cs <:+ cs := by
  rw [skip]
  split
  · exact skipBlanks_suffix false cs
  · exact List.suffix_rfl

theorem skip_cut {cs rest : List Char} (h : m.skip (cs ++ closing) = rest ++ closing) :
    m.skip cs = rest := by
  rw [skip] at h ⊢
  split
  · next hm =>
    rw [if_pos hm] at h
    exact skipBlanks_cut h
  · next hm =>
    rw [if_neg hm] at h
    exact List.append_cancel_right h

theorem skip_append {cs rest : List Char} (h : rest ++ closing <:+ m.skip (cs ++ closing)) :
    m.skip (cs ++ closing) = m.skip cs ++ closing := by
  obtain ⟨xs, hxs, -⟩ := exists_of_append_suffix h
  rw [hxs, m.skip_cut hxs]

theorem skip_cons_cut {c : Char} {cs ys rest : List Char} (hskip : m.skip (cs ++ closing) = c :: ys)
    (hys : rest ++ closing <:+ ys) :
    ∃ zs, ys = zs ++ closing ∧ m.skip cs = c :: zs ∧ zs.length < cs.length := by
  obtain ⟨zs, rfl, -⟩ := exists_of_append_suffix hys
  have hcut : m.skip cs = c :: zs := m.skip_cut hskip
  have hlt := (hcut ▸ m.skip_suffix cs).length_le
  exact ⟨zs, rfl, hcut, hlt⟩

theorem skip_append_of_ne_nil {cs : List Char} (h : m.skip cs ≠ []) (tl : List Char) :
    m.skip (cs ++ tl) = m.skip cs ++ tl := by
  rw [skip] at h ⊢
  rw [skip]
  split
  · next hm =>
    rw [if_pos hm] at h
    exact skipBlanks_append_of_ne_nil h tl
  · rfl

/-- Where nothing is left, what is put behind is skipped as a whole or not at all. -/
theorem skip_closing_of_eq_nil {cs : List Char} (h : m.skip cs = []) :
    m.skip (cs ++ closing) = closing ∨ m.skip (cs ++ closing) = [] := by
  rw [skip] at h ⊢
  split
  · next hm =>
    rw [if_pos hm] at h
    exact skipBlanks_closing_of_eq_nil h
  · next hm =>
    rw [if_neg hm] at h
    exact .inl (by rw [h, List.nil_append])

theorem collect_suffix (p : Char → Bool) (comment : Bool) (cs : List Char) :
    (m.collect p comment cs).2 <:+ cs := by
  induction cs generalizing comment with
  | nil => cases comment <;> exact List.suffix_rfl
  | cons c cs ih =>
    have hnext (comment : Bool) : (m.collect p comment cs).2 <:+ c :: cs :=
      (ih comment).trans (List.suffix_cons c cs)
    cases comment with
    | true => exact hnext _
    | false =>
      rw [collect]
      split
      · exact hnext _
      · split
        · exact hnext _
        · split
          · exact hnext _
          · exact List.suffix_rfl

theorem collect_cut {p : Char → Bool} {comment : Bool} {cs ds rest : List Char}
    (h : m.collect p comment (cs ++ closing) = (ds, rest ++ closing)) :
    m.collect p comment cs = (ds, rest) := by
  induction cs generalizing comment ds with
  | nil =>
    rw [List.nil_append] at h
    cases comment with
    | true => exact absurd (congrArg (·.2.length) h) (by simp [closing, collect])
    | false =>
      by_cases hp : p ')' = true
      · -- the reader would have taken the parenthesis
        have hlt := (m.collect_suffix p false ['$']).length_le
        rw [closing, collect, isBlank_closing, if_neg (by simp), if_neg (by simp), if_pos hp] at h
        generalize m.collect p false ['$'] = x at h hlt
        obtain ⟨-, hrest⟩ := Prod.mk.inj h
        rw [hrest] at hlt
        simp at hlt
      · rw [closing, collect, isBlank_closing, if_neg (by simp), if_neg (by simp), if_neg hp] at h
        obtain ⟨rfl, hrest⟩ := Prod.mk.inj h
        rw [collect, ← List.append_cancel_right (show [] ++ closing = rest ++ closing from hrest)]
  | cons c cs ih =>
    cases comment with
    | true => exact ih h
    | false =>
      rw [List.cons_append, collect] at h
      rw [collect]
      split
      · next hc =>
        rw [if_pos hc] at h
        exact ih h
      · next hc =>
        rw [if_neg hc] at h
        split
        · next hc =>
          rw [if_pos hc] at h
          exact ih h
        · next hc =>
          rw [if_neg hc] at h
          split
          · next hp =>
            rw [if_pos hp] at h
            obtain ⟨rfl, hrest⟩ := Prod.mk.inj h
            rw [ih (Prod.ext rfl hrest)]
          · next hp =>
            rw [if_neg hp] at h
            obtain ⟨rfl, hrest⟩ := Prod.mk.inj h
            rw [List.append_cancel_right (show c :: cs ++ closing = rest ++ closing from hrest)]

end Mode

theorem dropWhile_ne_append {c : Char} (hc : c ∉ closing) (cs : List Char) :
    (cs ++ closing).dropWhile (· != c) = [] ∧ cs.dropWhile (· != c) = [] ∨
    (cs ++ closing).dropWhile (· != c) = cs.dropWhile (· != c) ++ closing ∧
      (cs ++ closing).takeWhile (· != c) = cs.takeWhile (· != c) := by
  induction cs with
  | nil =>
    refine .inl ⟨List.dropWhile_eq_nil_iff.2 fun d hd => ?_, rfl⟩
    simpa using ne_of_mem_of_not_mem hd hc
  | cons d cs ih =>
    by_cases hd : d = c
    · subst hd
      simp
    · simpa [hd] using ih

theorem dropWhile_isBlank_append (cs : List Char) :
    (cs ++ closing).dropWhile isBlank = cs.dropWhile isBlank ++ closing := by
  rw [List.dropWhile_append]
  split
  · next h =>
    rw [List.isEmpty_iff.1 h, closing, List.dropWhile_cons, isBlank_closing]
    rfl
  · rfl

namespace Cuts

variable {α : Type} {n : Nat} {f f' : Reader α} (m : Mode)

theorem skip : CutsSelf n fun cs => some ((), m.skip cs) where
  suffix h := by
    cases h
    exact m.skip_suffix _
  cut _ h := by
    rw [m.skip_cut (Prod.mk.inj (Option.some.inj h)).2]

theorem skipped (h : Cuts n f f') : Cuts n (fun cs => f (m.skip cs)) fun cs => f' (m.skip cs) :=
  (skip m).andThen fun _ => h

theorem collect (p : Char → Bool) : CutsSelf n fun cs => some (m.collect p false cs) where
  suffix {cs _ _} h := by
    have hsuffix := m.collect_suffix p false cs
    rwa [Option.some.inj h] at hsuffix
  cut _ h := by rw [m.collect_cut (Option.some.inj h)]

theorem blanks (h : Cuts n f f') :
    Cuts n (fun cs => f (cs.dropWhile isBlank)) fun cs => f' (cs.dropWhile isBlank) where
  suffix hf := (h.suffix hf).trans (List.dropWhile_suffix _)
  cut hcs hf := by
    rw [dropWhile_isBlank_append] at hf
    exact h.cut (Nat.le_trans (List.dropWhile_suffix _).length_le hcs) hf

end Cuts

end Motif.Regex
