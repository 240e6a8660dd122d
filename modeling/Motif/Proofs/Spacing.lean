import Motif.Proofs.Offsets

/-!
# Blanks between lexemes

No lexeme looks at what the next one starts with, other than to see that it does not go on there. A
blank in front of the next lexeme tells the same, so blanks can be put in front of every lexeme, the
end included. A colon in front of them is still a colon in front of the next lexeme. The lexemes
behind the blanks move with the text.

* `append_inj_of_byteLength`: a byte offset divides a text in one way.
* `Place.Yields.pairwise_offset`: lexemes come one after the other.
* `Place.exists_place`: every lexeme of a text is found at a place.
* `Place.lexemesFrom_moved`: the lexemes of a text move with it.
* `Place.yields_blanks`, `Place.Yields.insert`: blanks at a place.
* `lexemes_insert`: blanks in front of one lexeme.
* **`lexemes_insert_blanks`**: blanks can be inserted in front of every lexeme.
-/

namespace Motif

/-! ## Offsets -/

theorem append_inj_of_byteLength {u v r t : List Char} (h : u ++ r = v ++ t)
    (hlen : byteLength u = byteLength v) : u = v ∧ r = t := by
  induction u generalizing v with
  | nil =>
    cases v with
    | nil => exact ⟨rfl, h⟩
    | cons d v =>
      have := d.utf8Size_pos
      simp only [byteLength] at hlen
      omega
  | cons c u ih =>
    cases v with
    | nil =>
      have := c.utf8Size_pos
      simp only [byteLength] at hlen
      omega
    | cons d v =>
      obtain ⟨rfl, htail⟩ := List.cons.inj h
      obtain ⟨rfl, rfl⟩ := ih htail (Nat.add_left_cancel hlen)
      exact ⟨rfl, rfl⟩

theorem byteLength_toList (s : String) : byteLength s.toList = s.utf8ByteSize := by
  rw [← utf8ByteSize_ofList, String.ofList_toList]

theorem Lexeme.moved_moved (k o : Nat) (l : Lexeme) : (l.moved o).moved k = l.moved (k + o) :=
  congrArg (Lexeme.mk l.symbol) (Nat.add_assoc k o l.offset).symm

namespace Place

variable {p q : Place} {ls : List Lexeme}

/-- Lexemes come one after the other, from the first place on and in front of the second. -/
theorem Yields.pairwise_offset (h : p.Yields ls q) :
    (∀ o ∈ ls.map Lexeme.offset ++ [q.offset], p.offset ≤ o) ∧
      (ls.map Lexeme.offset ++ [q.offset]).Pairwise (· < ·) := by
  induction h with
  | done => simp
  | @blank a o c cs ls q _ _ ih =>
    exact ⟨fun o' ho' => Nat.le_of_add_right_le (ih.1 o' ho'), ih.2⟩
  | @lexeme a o n c cs x ls q _ _ _ ih =>
    have hlt : ∀ o' ∈ ls.map Lexeme.offset ++ [q.offset], o < o' := by
      intro o' ho'
      have hle : o + (c.utf8Size + byteLength (cs.take n)) ≤ o' := ih.1 o' ho'
      have := c.utf8Size_pos
      omega
    rw [List.map_cons, List.cons_append]
    exact ⟨List.forall_mem_cons.2 ⟨Nat.le_refl o, fun o' ho' => Nat.le_of_lt (hlt o' ho')⟩,
      List.pairwise_cons.2 ⟨hlt, ih.2⟩⟩

/-! ## Places of lexemes -/

theorem exists_place {a : Bool} {o : Nat} {cs : List Char} {before after : List Lexeme} {l : Lexeme}
    (h : lexemesFrom a o cs = .ok (before ++ l :: after)) : ∃ b r,
      Yields ⟨a, o, cs⟩ before ⟨b, l.offset, r⟩ ∧ lexemesFrom b l.offset r = .ok (l :: after) := by
  obtain ⟨ls, b, o', hls, hy⟩ := exists_yields cs h
  obtain ⟨rfl, hl⟩ | ⟨after', rfl, rfl⟩ : (before = ls ∧ l :: after = [⟨.eof, o'⟩]) ∨
      ∃ after', ls = before ++ l :: after' ∧ after = after' ++ [⟨.eof, o'⟩] := by
    obtain ⟨t, rfl, ht⟩ | ⟨t, ht, hl⟩ := List.append_eq_append_iff.1 hls
    · cases t with
      | nil => exact .inl ⟨(List.append_nil _).symm, ht⟩
      | cons l' t =>
        obtain ⟨rfl, rfl⟩ := List.cons.inj ht
        exact .inr ⟨t, rfl, rfl⟩
    · cases t with
      | nil => exact .inl ⟨by rw [ht, List.append_nil], hl.symm⟩
      | cons l' t => exact absurd (congrArg List.length hl) (by simp)
  · obtain ⟨rfl, rfl⟩ := List.cons.inj hl
    exact ⟨b, [], hy, by rw [lexemesFrom]⟩
  · obtain ⟨b', c, cs', n, hbefore, -⟩ := hy.exists_between rfl
    have hrest := hbefore.lexemes_eq
    unfold Place.lexemes at hrest
    rw [h] at hrest
    refine ⟨b', c :: cs', hbefore, ?_⟩
    cases hlex : lexemesFrom b' l.offset (c :: cs') with
    | error e =>
      rw [hlex] at hrest
      cases hrest
    | ok ls =>
      rw [hlex] at hrest
      exact congrArg Except.ok (List.append_cancel_left (Except.ok.inj hrest)).symm

theorem lexemesFrom_moved {a : Bool} {o : Nat} {cs : List Char}
    (h : lexemesFrom a o cs = .ok ls) (k : Nat) :
    lexemesFrom a (k + o) cs = .ok (ls.map (Lexeme.moved k)) := by
  obtain ⟨ls', b, o', rfl, hy⟩ := exists_yields cs h
  have hnil : Apart [] := nofun
  obtain ⟨ks, d, rfl, ho', hmoved⟩ := hy.exists_relative (u := cs) (List.append_nil _).symm hnil
    (d := 0) rfl
  have hlex := (hmoved (k + o)).lexemes_eq
  rw [List.append_nil] at hlex
  have hend : lexemesFrom b (k + o + d) [] = .ok [⟨.eof, k + o + d⟩] := by rw [lexemesFrom]
  unfold Place.lexemes at hlex
  rw [Nat.add_zero, hend] at hlex
  rw [hlex]
  show Except.ok (_ ++ [(⟨.eof, k + o + d⟩ : Lexeme)]) = _
  obtain rfl : o' = o + d := ho'
  rw [List.map_append, List.map_map, Nat.add_assoc]
  exact congrArg (Except.ok <| · ++ _) (List.map_congr_left fun l _ => (l.moved_moved k o).symm)

/-! ## Blanks -/

/-- Blanks hold no lexemes, and a colon in front of them is one in front of what follows. -/
theorem yields_blanks {w : List Char} (hw : ∀ c ∈ w, isBlank c = true) (a : Bool) (o : Nat)
    (r : List Char) : Yields ⟨a, o, w ++ r⟩ [] ⟨a, o + byteLength w, r⟩ := by
  induction w generalizing o with
  | nil => exact .done _
  | cons c w ih =>
    rw [List.forall_mem_cons] at hw
    have h := ih hw.2 (o + c.utf8Size)
    rw [Nat.add_assoc] at h
    exact .blank hw.1 h

theorem Yields.insert {a b : Bool} {o : Nat} {u r w : List Char}
    (h : Yields ⟨a, 0, u ++ r⟩ ls ⟨b, o, r⟩) (hw : ∀ c ∈ w, isBlank c = true) :
    Yields ⟨a, 0, u ++ (w ++ r)⟩ ls ⟨b, o + byteLength w, r⟩ := by
  cases w with
  | nil => exact h
  | cons c w =>
    have hapart : Apart (c :: w ++ r) := fun d hd =>
      .inl (Option.some.inj hd ▸ hw c List.mem_cons_self)
    obtain ⟨ks, d, rfl, ho, hy⟩ := h.exists_relative (u := u) rfl hapart (o := 0) (d := 0) rfl
    obtain rfl : o = 0 + d := ho
    simpa only [List.append_nil] using (hy 0).trans (yields_blanks hw b _ r)

end Place

/-! ## Texts -/

section Texts

variable {source pre post w : String} {ls before after : List Lexeme} {l : Lexeme}

theorem exists_yields_source (h : lexemes source = .ok ls) : ∃ ls' b,
    ls = ls' ++ [⟨.eof, source.utf8ByteSize⟩] ∧
      Place.Yields ⟨false, 0, source.toList⟩ ls' ⟨b, source.utf8ByteSize, []⟩ := by
  obtain ⟨ls', b, o, rfl, hy⟩ := Place.exists_yields source.toList h
  obtain ⟨u, hu, ho⟩ := hy.exists_offset
  obtain rfl : source.toList = u := hu.trans (List.append_nil u)
  obtain rfl : o = source.utf8ByteSize := by
    rw [← byteLength_toList, ← Nat.zero_add (byteLength _)]
    exact ho
  exact ⟨ls', b, rfl, hy⟩

theorem exists_parts_of_lexeme (h : lexemes source = .ok (before ++ l :: after)) :
    ∃ b u r, source.toList = u ++ r ∧ byteLength u = l.offset ∧
      Place.Yields ⟨false, 0, u ++ r⟩ before ⟨b, l.offset, r⟩ ∧
      lexemesFrom b l.offset r = .ok (l :: after) := by
  obtain ⟨b, r, hy, hrest⟩ := Place.exists_place h
  obtain ⟨u, hu, ho⟩ := hy.exists_offset
  have hsource : source.toList = u ++ r := hu
  rw [hsource] at hy
  exact ⟨b, u, r, hsource, (ho.trans (Nat.zero_add _)).symm, hy, hrest⟩

theorem lexemes_insert (h : lexemes (pre ++ post) = .ok (before ++ l :: after))
    (hpre : pre.utf8ByteSize = l.offset) (hw : ∀ c ∈ w.toList, isBlank c = true) :
    lexemes (pre ++ w ++ post) =
      .ok (before ++ (l :: after).map (Lexeme.moved w.utf8ByteSize)) := by
  obtain ⟨b, u, r, hsource, hu, hy, hrest⟩ := exists_parts_of_lexeme h
  obtain ⟨rfl, rfl⟩ : pre.toList = u ∧ post.toList = r := by
    refine append_inj_of_byteLength (String.toList_append ▸ hsource) ?_
    rw [byteLength_toList, hpre, hu]
  have hlex := (hy.insert hw).lexemes_eq
  rw [Place.lexemes, Place.lexemes] at hlex
  dsimp only at hlex
  rw [Nat.add_comm, Place.lexemesFrom_moved hrest, byteLength_toList] at hlex
  rw [lexemes, String.toList_append, String.toList_append, List.append_assoc, hlex]
  rfl

end Texts

/-- **Blanks can be inserted in front of every lexeme** of a text, the end included: what is behind
them moves by their bytes. -/
theorem lexemes_insert_blanks {source : String} {ls : List Lexeme}
    (hls : lexemes source = .ok ls) :
    (ls.map Lexeme.offset).Pairwise (· < ·) ∧
      ls.getLast? = some ⟨.eof, source.utf8ByteSize⟩ ∧
      ∀ before l after, ls = before ++ l :: after →
        (∃ pre post, source = pre ++ post ∧ pre.utf8ByteSize = l.offset) ∧
          ∀ pre post w, source = pre ++ post → pre.utf8ByteSize = l.offset →
            (∀ c ∈ w.toList, isBlank c = true) →
            lexemes (pre ++ w ++ post) =
              .ok (before ++ (l :: after).map (Lexeme.moved w.utf8ByteSize)) := by
  obtain ⟨ls', b, hls', hy⟩ := exists_yields_source hls
  refine ⟨?_, by rw [hls', List.getLast?_concat], fun before l after hbefore => ⟨?_, ?_⟩⟩
  · rw [hls', List.map_append]
    exact hy.pairwise_offset.2
  · obtain ⟨b, u, r, hsource, hu, -⟩ := exists_parts_of_lexeme (hbefore ▸ hls)
    refine ⟨String.ofList u, String.ofList r, ?_, ?_⟩
    · rw [← String.ofList_append, ← hsource, String.ofList_toList]
    · rw [utf8ByteSize_ofList, hu]
  · rintro pre post w rfl hpre hw
    exact lexemes_insert (hbefore ▸ hls) hpre hw

/-- An em space between a colon and the bare value behind it, and a blank at the end. -/
theorem lexemes_insert_blanks_of_value :
    let before : List Lexeme := [⟨.lbracket, 0⟩, ⟨.ident "x", 1⟩, ⟨.colon, 2⟩]
    let after : List Lexeme := [⟨.rbracket, 6⟩, ⟨.eof, 7⟩]
    lexemes "[x:-é]" = .ok (before ++ ⟨.ident "-é", 3⟩ :: after) ∧
      ([0, 1, 2, 3, 6, 7] : List Nat).Pairwise (· < ·) ∧
      (∀ c ∈ "\u2003".toList, isBlank c = true) ∧
      lexemes ("[x:" ++ "\u2003" ++ "-é]") =
        .ok (before ++ [⟨.ident "-é", 6⟩, ⟨.rbracket, 9⟩, ⟨.eof, 10⟩]) ∧
      lexemes ("[x:-é]" ++ " " ++ "") =
        .ok (before ++ [⟨.ident "-é", 3⟩, ⟨.rbracket, 6⟩, ⟨.eof, 8⟩]) := by
  intro before after
  have hls : lexemes "[x:-é]" = .ok (before ++ ⟨.ident "-é", 3⟩ :: after) := by decide +kernel
  have hem : isBlank '\u2003' = true := by decide +kernel
  have hspace : isBlank ' ' = true := by decide +kernel
  have hblank : ∀ c ∈ "\u2003".toList, isBlank c = true := by simpa using hem
  obtain ⟨hoffsets, -, h⟩ := lexemes_insert_blanks hls
  have hvalue := (h before ⟨.ident "-é", 3⟩ after rfl).2 "[x:" "-é]" "\u2003" (by decide +kernel)
    (by decide +kernel) hblank
  have hend := (h (before ++ [⟨.ident "-é", 3⟩, ⟨.rbracket, 6⟩]) ⟨.eof, 7⟩ [] rfl).2 "[x:-é]" "" " "
    (by decide +kernel) (by decide +kernel) (by simpa using hspace)
  exact ⟨hls, hoffsets, hblank, hvalue, hend⟩

end Motif
