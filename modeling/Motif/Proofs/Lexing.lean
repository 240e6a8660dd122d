import Motif.Proofs.LexemeEnds

/-!
# Variables in texts

The lexemes of a text are those up to a place in it, and those from there. Those between two places
do not depend on where the text is, nor on what stands behind them. So the lexemes of a text in
which another text, in a group that does not capture, stands for a variable are those of the parts.

* `Place.Yields`: the lexemes between two places of a text.
* `Lexeme.moved`, `Place.Yields.exists_relative`: they stay, and move with the text, if what follows
  the second place is replaced; `Place.Yields.replace` says so without offsets.
* `exists_yields_group`: the lexemes of a text in a group that does not capture.
* `VariableAt`: a variable stands between two parts of a text, as an atom.
* `VariableAt.exists_lexemes`: the lexemes with the variable, and with the text that stands for it.
* `exists_variableAt`: all variables in front of an action clause are such atoms.
-/

namespace Motif

/-- A lexeme, so many bytes further. -/
def Lexeme.moved (k : Nat) (l : Lexeme) : Lexeme := { l with offset := k + l.offset }

theorem symbolsOf_map_moved (k : Nat) (ls : List Lexeme) :
    symbolsOf (ls.map (Lexeme.moved k)) = symbolsOf ls := by
  rw [symbolsOf, symbolsOf, List.map_map]
  rfl

/-! ## Places -/

/-- A place in a text. -/
structure Place where
  /-- The place follows a colon. -/
  afterColon : Bool
  /-- Where it is. -/
  offset : Nat
  /-- What follows. -/
  rest : List Char

namespace Place

/-- The lexemes of what follows. -/
def lexemes (p : Place) : Except CompileError (List Lexeme) :=
  lexemesFrom p.afterColon p.offset p.rest

/-- The lexemes between two places of a text. -/
inductive Yields : Place → List Lexeme → Place → Prop where
  /-- None at the same place. -/
  | done (p : Place) : Yields p [] p
  /-- A blank is skipped. -/
  | blank {a : Bool} {o : Nat} {c : Char} {cs : List Char} {ls : List Lexeme} {q : Place}
    (hc : isBlank c = true) (h : Yields ⟨a, o + c.utf8Size, cs⟩ ls q) : Yields ⟨a, o, c :: cs⟩ ls q
  /-- Anything else is scanned. -/
  | lexeme {a : Bool} {o n : Nat} {c : Char} {cs : List Char} {x : Symbol} {ls : List Lexeme}
    {q : Place} (hc : isBlank c = false) (hx : scanAfter a o c cs = .ok (x, n))
    (h : Yields ⟨x == .colon, o + byteLength (c :: cs.take n), cs.drop n⟩ ls q) :
    Yields ⟨a, o, c :: cs⟩ (⟨x, o⟩ :: ls) q

namespace Yields

variable {p q t : Place} {ls ls' : List Lexeme}

theorem trans (h : p.Yields ls q) (h' : q.Yields ls' t) : p.Yields (ls ++ ls') t := by
  induction h with
  | done => exact h'
  | blank hc _ ih => exact .blank hc (ih h')
  | lexeme hc hx _ ih => exact .lexeme hc hx (ih h')

theorem suffix (h : p.Yields ls q) : q.rest <:+ p.rest := by
  induction h with
  | done => exact List.suffix_rfl
  | blank _ _ ih => exact ih.trans (List.suffix_cons _ _)
  | lexeme _ _ _ ih => exact ih.trans ((List.drop_suffix _ _).trans (List.suffix_cons _ _))

theorem ne_eof (h : p.Yields ls q) : ∀ l ∈ ls, l.symbol ≠ .eof := by
  induction h with
  | done => exact nofun
  | blank _ _ ih => exact ih
  | lexeme _ hx _ ih => exact List.forall_mem_cons.2 ⟨(scanAfter_within hx).1, ih⟩

theorem lexemes_eq (h : p.Yields ls q) : p.lexemes = q.lexemes.map (ls ++ ·) := by
  induction h with
  | done p =>
    cases hp : p.lexemes with
    | error e => rfl
    | ok ls => rfl
  | blank hc _ ih =>
    rw [Place.lexemes, lexemesFrom, if_pos hc]
    exact ih
  | @lexeme a o n c cs x ls q hc hx _ ih =>
    unfold Place.lexemes at ih ⊢
    rw [lexemesFrom, if_neg (Bool.eq_false_iff.1 hc)]
    simp only [hx, ih]
    cases lexemesFrom q.afterColon q.offset q.rest with
    | error e => rfl
    | ok ls' => rfl

end Yields

theorem exists_yields {a : Bool} {o : Nat} (cs : List Char) {ls : List Lexeme}
    (h : lexemesFrom a o cs = .ok ls) : ∃ ls' b o', ls = ls' ++ [⟨.eof, o'⟩] ∧
      Yields ⟨a, o, cs⟩ ls' ⟨b, o', []⟩ := by
  match cs with
  | [] =>
    rw [lexemesFrom] at h
    cases h
    exact ⟨[], a, o, rfl, .done _⟩
  | c :: cs =>
    rw [lexemesFrom] at h
    split at h
    · next hc =>
      obtain ⟨ls', b, o', rfl, hy⟩ := exists_yields cs h
      exact ⟨ls', b, o', rfl, .blank hc hy⟩
    · next hc =>
      split at h
      · cases h
      · next x n hx =>
        split at h
        · cases h
        · next rest hrest =>
          cases h
          obtain ⟨ls', b, o', rfl, hy⟩ := exists_yields _ hrest
          exact ⟨⟨x, o⟩ :: ls', b, o', rfl, .lexeme (Bool.eq_false_iff.2 hc) hx hy⟩
termination_by cs.length
decreasing_by
  · simp only [List.length_cons, List.length_drop]
    omega
  · exact Nat.lt_succ_self _

/-- The lexemes between two places, counted from an offset in front of them, stay wherever that is
and whatever stands behind the second place. -/
theorem Yields.exists_relative {p q : Place} {ls : List Lexeme} (h : p.Yields ls q)
    {u r' : List Char} (hu : p.rest = u ++ q.rest) (hr' : Apart r') {o d : Nat}
    (hp : p.offset = o + d) :
    ∃ (ks : List Lexeme) (d' : Nat), ls = ks.map (Lexeme.moved o) ∧ q.offset = o + d' ∧
      ∀ o', Yields ⟨p.afterColon, o' + d, u ++ r'⟩ (ks.map (Lexeme.moved o'))
        ⟨q.afterColon, o' + d', r'⟩ := by
  -- the part `u` is as long as the lexemes and blanks between the places
  induction h generalizing u d with
  | done p =>
    obtain rfl : u = [] := List.append_left_eq_self.1 hu.symm
    exact ⟨[], d, rfl, hp, fun o' => .done _⟩
  | @blank a o₁ c cs ls q hc h ih =>
    have hlen := h.suffix.length_le
    obtain ⟨v, rfl, rfl⟩ : ∃ v, u = c :: v ∧ v ++ q.rest = cs := by
      refine exists_of_append_eq_cons hu.symm ?_
      have := congrArg List.length hu
      simp only [List.length_cons, List.length_append] at this hlen
      omega
    obtain rfl : o₁ = o + d := hp
    obtain ⟨ks, d', hls, hq, hy⟩ := ih rfl (Nat.add_assoc ..)
    exact ⟨ks, d', hls, hq, fun o' => .blank hc (Nat.add_assoc .. ▸ hy o')⟩
  | @lexeme a o₁ n c cs x ls q hc hx h ih =>
    have hlen := h.suffix.length_le
    obtain ⟨v, rfl, rfl⟩ : ∃ v, u = c :: v ∧ v ++ q.rest = cs := by
      refine exists_of_append_eq_cons hu.symm ?_
      have := congrArg List.length hu
      simp only [List.length_cons, List.length_append, List.length_drop] at this hlen
      omega
    have hn : n ≤ v.length := by
      have := (scanAfter_within hx).2
      simp only [List.length_append, List.length_drop] at this hlen
      omega
    obtain rfl : o₁ = o + d := hp
    have htake (r : List Char) : (v ++ r).take n = v.take n := List.take_append_of_le_length hn
    obtain ⟨ks, d', rfl, hq, hy⟩ := ih (u := v.drop n) (List.drop_append_of_le_length hn)
      (by rw [htake]; exact Nat.add_assoc ..)
    refine ⟨⟨x, d⟩ :: ks, d', rfl, hq, fun o' => ?_⟩
    have hy := hy o'
    rw [← List.drop_append_of_le_length hn, ← Nat.add_assoc, ← htake r'] at hy
    exact .lexeme hc (scanAfter_append hr' hx hn) hy

theorem Yields.replace {p q : Place} {ls : List Lexeme} (h : p.Yields ls q) {u r' : List Char}
    (hu : p.rest = u ++ q.rest) (hr' : Apart r') (o : Nat) :
    ∃ ls' o', Yields ⟨p.afterColon, o, u ++ r'⟩ ls' ⟨q.afterColon, o', r'⟩ ∧
      symbolsOf ls' = symbolsOf ls := by
  obtain ⟨ks, d, rfl, -, hy⟩ := h.exists_relative hu hr' (d := 0) rfl
  refine ⟨_, _, hy o, ?_⟩
  rw [symbolsOf_map_moved, symbolsOf_map_moved]

theorem exists_lexemesFrom {a : Bool} {o : Nat} {cs : List Char} {ls : List Lexeme}
    (h : lexemesFrom a o cs = .ok ls) (o' : Nat) :
    ∃ ls', lexemesFrom a o' cs = .ok ls' ∧ symbolsOf ls' = symbolsOf ls := by
  obtain ⟨ls₁, b, o₁, rfl, hy⟩ := exists_yields cs h
  have hnil : Apart [] := nofun
  obtain ⟨ls₂, o₂, hy', hsym⟩ := hy.replace (u := cs) (List.append_nil _).symm hnil o'
  rw [List.append_nil] at hy'
  have hend : lexemesFrom b o₂ [] = .ok [⟨.eof, o₂⟩] := by rw [lexemesFrom]
  refine ⟨ls₂ ++ [⟨.eof, o₂⟩], ?_, ?_⟩
  · have := hy'.lexemes_eq
    unfold Place.lexemes at this
    rw [this, hend]
    rfl
  · rw [symbolsOf, symbolsOf, List.map_append, List.map_append]
    exact congrArg (· ++ [Symbol.eof]) hsym

end Place

/-! ## Texts in parentheses -/

theorem scanAfter_rparen (a : Bool) (o : Nat) (cs : List Char) :
    scanAfter a o ')' cs = .ok (.rparen, 0) := by
  have hbare : isBare ')' = false := by decide +kernel
  rw [scanAfter, hbare, Bool.and_false]
  rfl

theorem scanAfter_nonCapture (o : Nat) (cs : List Char) :
    scanAfter false o '(' ('?' :: ':' :: cs) = .ok (.nonCapture, 2) := rfl

/-- The lexemes of a text in a group that does not capture are its own, in parentheses. -/
theorem exists_yields_group {text : String} {ls : List Lexeme} (hls : lexemes text = .ok ls)
    (o : Nat) (post : List Char) : ∃ inner o₂ o₃, symbolsOf ls = symbolsOf inner ++ [.eof] ∧
      (∀ l ∈ inner, l.symbol ≠ .eof) ∧
      Place.Yields ⟨false, o, '(' :: '?' :: ':' :: ' ' :: (text.toList ++ ' ' :: ')' :: post)⟩
        (⟨.nonCapture, o⟩ :: (inner ++ [⟨.rparen, o₂⟩])) ⟨false, o₃, post⟩ := by
  obtain ⟨inner₀, b, o₀, rfl, hinner₀⟩ := Place.exists_yields text.toList hls
  have hblank : isBlank ' ' = true := by decide +kernel
  have hclosing : Apart (' ' :: ')' :: post) := fun c hc => .inl (Option.some.inj hc ▸ hblank)
  obtain ⟨inner, o₂, hinner, hsym⟩ := hinner₀.replace (List.append_nil _).symm hclosing (o + 4)
  have hclose := Place.Yields.blank (a := b) (o := o₂) hblank
    (.lexeme (by decide +kernel) (scanAfter_rparen b _ post) (.done _))
  have hopen := Place.Yields.lexeme (a := false) (o := o) (by decide +kernel)
    (scanAfter_nonCapture o (' ' :: (text.toList ++ ' ' :: ')' :: post)))
    (.blank hblank (hinner.trans hclose))
  refine ⟨inner, _, _, ?_, hinner.ne_eof, hopen⟩
  rw [hsym, symbolsOf, List.map_append]
  rfl

/-! ## Variables in texts -/

/-- Between two parts of a text there is the variable of a name, as an atom: a lexeme ends before
it, and no action clause has begun. -/
structure VariableAt (name pre post : String) : Prop where
  /-- What stands before it is lexemes without an arrow. -/
  before : ∃ ls o, Place.Yields ⟨false, 0, (pre ++ "$" ++ name ++ post).toList⟩ ls
    ⟨false, o, '$' :: (name ++ post).toList⟩ ∧ ∀ l ∈ ls, l.symbol ≠ .arrow
  /-- The name ends before what stands behind it. -/
  named : nameAt? (name ++ post).toList = some name.toList

namespace VariableAt

variable {name pre post : String}

theorem toList_host : (pre ++ "$" ++ name ++ post).toList =
    pre.toList ++ '$' :: (name ++ post).toList := by
  simp only [String.toList_append, List.append_assoc]
  rfl

theorem toList_spelled (text : String) : (pre ++ "(?: " ++ text ++ " )" ++ post).toList =
    pre.toList ++ '(' :: '?' :: ':' :: ' ' :: (text.toList ++ ' ' :: ')' :: post.toList) := by
  simp only [String.toList_append, List.append_assoc]
  rfl

/-- The lexemes of a text with a variable, and of the text in which another text stands for the
variable, in a group that does not capture. -/
theorem exists_lexemes (h : VariableAt name pre post) {text : String} {ls : List Lexeme}
    (hls : lexemes text = .ok ls) : ∃ before before' inner : List Lexeme,
      symbolsOf before' = symbolsOf before ∧ (∀ l ∈ before, l.symbol ≠ .eof ∧ l.symbol ≠ .arrow) ∧
      symbolsOf ls = symbolsOf inner ++ [.eof] ∧ (∀ l ∈ inner, l.symbol ≠ .eof) ∧
      ∃ o o' o₁ o₂ o₃, lexemes (pre ++ "$" ++ name ++ post) =
          (lexemesFrom false o' post.toList).map (fun after => before ++ ⟨.var name, o⟩ :: after) ∧
        lexemes (pre ++ "(?: " ++ text ++ " )" ++ post) = (lexemesFrom false o₃ post.toList).map
          fun after => before' ++ ⟨.nonCapture, o₁⟩ :: (inner ++ ⟨.rparen, o₂⟩ :: after) := by
  obtain ⟨⟨before, o, hbefore, harrow⟩, hname⟩ := h
  -- the variable itself
  have hscan : scanAfter false o '$' (name ++ post).toList =
      .ok (.var name, name.toList.length) := by
    rw [scanAfter, Bool.false_and, if_neg Bool.false_ne_true]
    unfold scanSymbol
    simp only [hname, String.ofList_toList]
  have hvar := Place.Yields.lexeme (by decide +kernel) hscan (.done _)
  have hpost : (name ++ post).toList.drop name.toList.length = post.toList := by
    rw [String.toList_append, List.drop_left]
  rw [hpost] at hvar
  -- the group that stands for it
  have hopening : Apart ('(' :: '?' :: ':' :: ' ' :: (text.toList ++ ' ' :: ')' :: post.toList)) :=
    fun c hc => .inr (Option.some.inj hc).symm
  obtain ⟨before', o₁, hbefore', hsym⟩ := hbefore.replace toList_host hopening 0
  obtain ⟨inner, o₂, o₃, hinner, heof, hgroup⟩ := exists_yields_group hls o₁ post.toList
  have hhost := (hbefore.trans hvar).lexemes_eq
  have hspelled := (hbefore'.trans hgroup).lexemes_eq
  rw [← toList_spelled] at hspelled
  simp only [Place.lexemes, List.append_assoc, List.cons_append, List.nil_append] at hhost hspelled
  exact ⟨before, before', inner, hsym, fun l hl => ⟨hbefore.ne_eof l hl, harrow l hl⟩, hinner,
    heof, o, _, o₁, o₂, o₃, hhost, hspelled⟩

end VariableAt

/-- Only a dollar sign with a name behind it makes a variable, and never after a colon. -/
theorem of_scanAfter_eq_var {a : Bool} {o n : Nat} {c : Char} {cs : List Char} {name : String}
    (h : scanAfter a o c cs = .ok (.var name, n)) :
    a = false ∧ c = '$' ∧ nameAt? cs = some name.toList := by
  rw [scanAfter] at h
  split at h
  · cases h
  · next hbare =>
    have hscan : c = '$' ∧ nameAt? cs = some name.toList := by
      unfold scanSymbol at h
      split at h
      all_goals dsimp only at h
      case h_13 | h_15 => split at h <;> cases h
      case h_14 => simpa using scanOpening_cases h
      case h_16 | h_17 | h_18 | h_19 | h_20 | h_21 | h_23 | h_24 =>
        repeat' split at h
        all_goals cases h
      case h_22 =>
        split at h
        · next hname =>
          cases h
          exact ⟨rfl, hname.trans (by rw [String.toList_ofList])⟩
        · cases h
      all_goals cases h
    obtain ⟨rfl, hname⟩ := hscan
    refine ⟨?_, rfl, hname⟩
    rwa [show isBare '$' = true by decide +kernel, Bool.and_true, Bool.not_eq_true] at hbare

theorem Place.Yields.exists_between {p q : Place} {ls before after : List Lexeme} {l : Lexeme}
    (h : p.Yields ls q) (hls : ls = before ++ l :: after) : ∃ a c cs n,
      p.Yields before ⟨a, l.offset, c :: cs⟩ ∧ scanAfter a l.offset c cs = .ok (l.symbol, n) := by
  induction h generalizing before with
  | done => exact absurd hls (List.append_ne_nil_of_right_ne_nil _ (List.cons_ne_nil _ _)).symm
  | blank hc _ ih =>
    obtain ⟨a, c, cs, n, hy, hx⟩ := ih hls
    exact ⟨a, c, cs, n, .blank hc hy, hx⟩
  | lexeme hc hx _ ih =>
    cases before with
    | nil =>
      obtain ⟨rfl, -⟩ := List.cons.inj hls
      exact ⟨_, _, _, _, .done _, hx⟩
    | cons l' before =>
      obtain ⟨rfl, hls'⟩ := List.cons.inj hls
      obtain ⟨a, c, cs, n, hy, hx'⟩ := ih hls'
      exact ⟨a, c, cs, n, .lexeme hc hx hy, hx'⟩

/-- **Every variable among the lexemes of a text is such an atom**, unless an action clause comes
before it. -/
theorem exists_variableAt {source name : String} {before after : List Lexeme} {o : Nat}
    (h : lexemes source = .ok (before ++ ⟨.var name, o⟩ :: after))
    (harrow : ∀ l ∈ before, l.symbol ≠ .arrow) :
    ∃ pre post, source = pre ++ "$" ++ name ++ post ∧ VariableAt name pre post := by
  obtain ⟨ls, b, o', hls, hy⟩ := Place.exists_yields source.toList h
  obtain ⟨after', hls'⟩ : ∃ after', ls = before ++ ⟨.var name, o⟩ :: after' := by
    cases List.eq_nil_or_concat after with
    | inl hnil =>
      subst hnil
      have := (List.append_inj' hls rfl).2
      cases this
    | inr hconcat =>
      obtain ⟨after', l, rfl⟩ := hconcat
      rw [List.concat_eq_append, ← List.cons_append, ← List.append_assoc] at hls
      exact ⟨after', (List.append_inj' hls rfl).1.symm⟩
  obtain ⟨a, c, cs, n, hbefore, hscan⟩ := hy.exists_between hls'
  obtain ⟨rfl, rfl, hname⟩ := of_scanAfter_eq_var hscan
  obtain ⟨u, hu⟩ := hbefore.suffix
  obtain ⟨post, rfl⟩ := nameAt_prefixOf hname
  have hcs : (name ++ String.ofList post).toList = name.toList ++ post := by
    rw [String.toList_append, String.toList_ofList]
  have hsource : source = String.ofList u ++ "$" ++ name ++ String.ofList post := by
    refine String.toList_inj.1 ?_
    rw [VariableAt.toList_host, String.toList_ofList, hcs]
    exact hu.symm
  subst hsource
  refine ⟨_, _, rfl, ⟨before, o, ?_, harrow⟩, hcs ▸ hname⟩
  rw [hcs]
  exact hbefore

end Motif
