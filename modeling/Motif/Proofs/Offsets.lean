import Motif.Proofs.Lexing
import Motif.Proofs.Rereading

/-!
# Where lexemes stand

The offset of a lexeme is the number of bytes in front of its spelling. Readers go through the
lexemes of a text from the front, and what they leave is the end of what they were given. So every
lexeme that a reader comes to stands in the text at its offset.

* `StandsAt`: a text stands in another one at a byte offset.
* `Symbol.isGrouping`, `Spells`: symbols that open named groups, refer to groups or stand for
  variables, and how they are spelled.
* **`standsIn_of_mem_lexemes`**: these lexemes of a text stand at their offsets.
* `Scope.Leaves`: a reader leaves the end of what it is given.
* `Scope.leaves_readElement`, `Scope.leaves_readQuantifier`, `Scope.leaves_readMulti`,
  `Scope.leaves_readBranches`: the readers.
-/

namespace Motif

/-! ## Byte offsets -/

/-- A text stands in another one at a byte offset. -/
def StandsAt (text source : String) (offset : Nat) : Prop :=
  ∃ pre post, source = pre ++ text ++ post ∧ pre.utf8ByteSize = offset

theorem StandsAt.lt {text source : String} {offset : Nat} (h : StandsAt text source offset)
    (htext : 0 < text.utf8ByteSize) : offset < source.utf8ByteSize := by
  obtain ⟨pre, post, rfl, rfl⟩ := h
  rw [String.utf8ByteSize_append, String.utf8ByteSize_append]
  omega

theorem utf8ByteSize_ofList (cs : List Char) :
    (String.ofList cs).utf8ByteSize = byteLength cs := by
  induction cs with
  | nil => rfl
  | cons c cs ih =>
    rw [String.ofList_cons, String.utf8ByteSize_append, String.utf8ByteSize_singleton, ih]
    rfl

theorem byteLength_append (cs ds : List Char) :
    byteLength (cs ++ ds) = byteLength cs + byteLength ds := by
  rw [← utf8ByteSize_ofList, ← utf8ByteSize_ofList, ← utf8ByteSize_ofList, String.ofList_append,
    String.utf8ByteSize_append]

theorem Place.Yields.exists_offset {p q : Place} {ls : List Lexeme} (h : p.Yields ls q) :
    ∃ u, p.rest = u ++ q.rest ∧ q.offset = p.offset + byteLength u := by
  induction h with
  | done p => exact ⟨[], rfl, rfl⟩
  | @blank a o c cs ls q _ _ ih =>
    obtain ⟨u, hu, ho⟩ := ih
    refine ⟨c :: u, congrArg (c :: ·) hu, ?_⟩
    rw [ho, Nat.add_assoc]
    rfl
  | @lexeme a o n c cs x ls q _ _ _ ih =>
    obtain ⟨u, hu, ho⟩ := ih
    refine ⟨c :: cs.take n ++ u, ?_, ?_⟩
    · show c :: cs = (c :: cs.take n) ++ u ++ q.rest
      rw [List.append_assoc, ← hu, List.cons_append, List.take_append_drop]
    · rw [ho, byteLength_append, Nat.add_assoc]

/-! ## Spellings -/

/-- The symbols that open named groups, refer to groups or stand for variables. -/
def Symbol.isGrouping : Symbol → Bool
  | namedGroup _ | backref _ | var _ => true
  | _ => false

/-- How such a symbol is spelled. -/
inductive Spells : Symbol → String → Prop
  | namedGroup (name : String) : Spells (.namedGroup name) ("(?$" ++ name)
  | backref {id : Nat} {digits : String} (h : natOfDigits? digits.toList = some id) :
    Spells (.backref id) ("\\" ++ digits)
  | var (name : String) : Spells (.var name) ("$" ++ name)

theorem Spells.pos {x : Symbol} {text : String} (h : Spells x text) : 0 < text.utf8ByteSize := by
  have hopening : "(?$".utf8ByteSize = 3 := rfl
  have hbackslash : "\\".utf8ByteSize = 1 := rfl
  have hdollar : "$".utf8ByteSize = 1 := rfl
  cases h with
  | namedGroup => rw [String.utf8ByteSize_append, hopening]; omega
  | backref => rw [String.utf8ByteSize_append, hbackslash]; omega
  | var => rw [String.utf8ByteSize_append, hdollar]; omega

/-- A lexeme is spelled in a text at its offset. -/
def Lexeme.StandsIn (l : Lexeme) (source : String) : Prop :=
  ∃ text, Spells l.symbol text ∧ StandsAt text source l.offset

theorem Lexeme.StandsIn.offset_lt {l : Lexeme} {source : String} (h : l.StandsIn source) :
    l.offset < source.utf8ByteSize := by
  obtain ⟨text, hspells, hstands⟩ := h
  exact hstands.lt hspells.pos

theorem exists_spells_of_scanSymbol {o n : Nat} {c : Char} {cs : List Char} {x : Symbol}
    (h : scanSymbol o c cs = .ok (x, n)) (hx : x.isGrouping = true) :
    ∃ text post, Spells x text ∧ c :: cs = text.toList ++ post := by
  unfold scanSymbol at h
  split at h
  all_goals dsimp only at h
  case h_13 | h_15 =>
    split at h
    all_goals cases h
    all_goals cases hx
  case h_14 =>
    obtain ⟨_, -, rfl, -⟩ | ⟨_, -, rfl, -⟩ | ⟨rest, name, rfl, hname, rfl, -⟩ | ⟨-, rfl, -⟩ :=
      scanOpening_cases h
    · cases hx
    · cases hx
    · obtain ⟨post, rfl⟩ := nameAt_prefixOf hname
      refine ⟨_, post, .namedGroup _, ?_⟩
      simp [String.toList_append]
    · cases hx
  case h_21 =>
    split at h
    · cases h
    · split at h
      · next id hid =>
        cases h
        refine ⟨"\\" ++ String.ofList (cs.takeWhile isDigit), cs.dropWhile isDigit,
          .backref (by rwa [String.toList_ofList]), ?_⟩
        simp [String.toList_append]
      · cases h
  case h_22 =>
    split at h
    · next name hname =>
      cases h
      obtain ⟨post, rfl⟩ := nameAt_prefixOf hname
      refine ⟨_, post, .var _, ?_⟩
      simp [String.toList_append]
    · cases h
      cases hx
  case h_16 | h_17 | h_18 | h_19 | h_20 | h_23 | h_24 =>
    repeat' split at h
    all_goals cases h
    all_goals cases hx
  all_goals
    cases h
    cases hx

theorem exists_spells_of_scanAfter {a : Bool} {o n : Nat} {c : Char} {cs : List Char} {x : Symbol}
    (h : scanAfter a o c cs = .ok (x, n)) (hx : x.isGrouping = true) :
    ∃ text post, Spells x text ∧ c :: cs = text.toList ++ post := by
  rw [scanAfter] at h
  split at h
  · cases h
    cases hx
  · exact exists_spells_of_scanSymbol h hx

/-- **The lexemes of a text stand at their offsets**, those that mark groups and variables. -/
theorem standsIn_of_mem_lexemes {source : String} {ls : List Lexeme}
    (hls : lexemes source = .ok ls) {l : Lexeme} (hl : l ∈ ls)
    (hx : l.symbol.isGrouping = true) : l.StandsIn source := by
  obtain ⟨ls, b, o, rfl, hy⟩ := Place.exists_yields source.toList hls
  obtain hl | hl := List.mem_append.1 hl
  · obtain ⟨before, after, rfl⟩ := List.append_of_mem hl
    obtain ⟨a, c, cs, n, hbefore, hscan⟩ := hy.exists_between rfl
    obtain ⟨text, post, hspells, hcs⟩ := exists_spells_of_scanAfter hscan hx
    obtain ⟨u, hu, ho⟩ := hbefore.exists_offset
    refine ⟨text, hspells, String.ofList u, String.ofList post, ?_, ?_⟩
    · refine String.toList_inj.1 ?_
      rw [String.toList_append, String.toList_append, String.toList_ofList, String.toList_ofList,
        List.append_assoc, ← hcs]
      exact hu
    · rw [utf8ByteSize_ofList, ← Nat.zero_add (byteLength u)]
      exact ho.symm
  · obtain rfl := List.mem_singleton.1 hl
    cases hx

/-! ## What readers leave -/

namespace Scope

/-- A reader leaves the end of what it is given. -/
structure Leaves {α : Type} {n : Nat} (x : Except CompileError (Parsed Lexeme α n))
    (ls : List Lexeme) : Prop where
  suffix : ∀ p, x = .ok p → p.rest <:+ ls

namespace Leaves

variable {α β : Type} {m n : Nat} {x : Except CompileError (Parsed Lexeme α n)}
  {ls ls' : List Lexeme}

theorem ok {p : Parsed Lexeme α n} (h : p.rest <:+ ls) : Leaves (.ok p) ls := by
  constructor
  rintro _ ⟨⟩
  exact h

theorem error {e : CompileError} :
    Leaves (.error e : Except CompileError (Parsed Lexeme α n)) ls := ⟨nofun⟩

theorem of_suffix (h : Leaves x ls) (hls : ls <:+ ls') : Leaves x ls' :=
  ⟨fun p hp => (h.suffix p hp).trans hls⟩

theorem after {y : Except CompileError β} {f : β → Except CompileError (Parsed Lexeme α n)}
    (hf : ∀ b, Leaves (f b) ls) : Leaves (y >>= f) ls := by
  refine ⟨fun p hp => ?_⟩
  obtain ⟨b, -, hp⟩ := exists_of_bind_eq_ok hp
  exact (hf b).suffix p hp

theorem bind {f : Parsed Lexeme α n → Except CompileError (Parsed Lexeme β m)} (h : Leaves x ls)
    (hf : ∀ p, Leaves (f p) p.rest) : Leaves (x >>= f) ls := by
  refine ⟨fun q hq => ?_⟩
  obtain ⟨p, hp, hq⟩ := exists_of_bind_eq_ok hq
  exact ((hf p).suffix q hq).trans (h.suffix p hp)

end Leaves

variable {s : Scope} {ls : List Lexeme}

theorem leaves_expect {x : Symbol} {what : String} : Leaves (s.expect x what ls) ls := by
  rw [expect.eq_def]
  split
  · exact .error
  · split
    · exact .ok (List.suffix_cons _ _)
    · exact .error

theorem leaves_readAttribute {name : String} : Leaves (s.readAttribute name ls) ls := by
  have htwo (l l' : Lexeme) (rest : List Lexeme) : rest <:+ l :: l' :: rest :=
    (List.suffix_cons _ _).trans (List.suffix_cons _ _)
  rw [readAttribute.eq_def]
  dsimp only
  split
  · exact .error
  · split
    · exact .ok (htwo ..)
    · exact .ok (htwo ..)
    · exact .ok (htwo ..)
    · exact .after fun _ => .ok (htwo ..)
    · exact .error
  · split
    · split
      · exact .ok (htwo ..)
      · exact .error
    · exact .error
  · split
    · exact .ok (htwo ..)
    · exact .error
  · exact .error

theorem leaves_readTerm : Leaves (s.readTerm ls) ls := by
  rw [readTerm.eq_def]
  split
  · exact .error
  · exact .of_suffix (.bind leaves_readAttribute fun p => .ok List.suffix_rfl)
      (List.suffix_cons _ _)
  · exact .ok (List.suffix_cons _ _)
  · exact .after fun _ => .ok (List.suffix_cons _ _)
  · exact .after fun _ => .ok (List.suffix_cons _ _)
  · exact .error

mutual

theorem leaves_readDisjuncts (ls : List Lexeme) : Leaves (s.readDisjuncts ls) ls := by
  rw [readDisjuncts]
  refine (leaves_readConjuncts ls).bind fun p => ?_
  split
  · next rest hrest =>
    have : rest.length < ls.length := p.rest_lt hrest
    exact .of_suffix (.bind (leaves_readDisjuncts rest) fun q => .ok List.suffix_rfl)
      (hrest ▸ List.suffix_cons _ _)
  · exact .ok List.suffix_rfl
termination_by (ls.length, 2)

theorem leaves_readConjuncts (ls : List Lexeme) : Leaves (s.readConjuncts ls) ls := by
  rw [readConjuncts]
  refine (leaves_readUnary ls).bind fun p => ?_
  split
  · next rest hrest =>
    have : rest.length < ls.length := p.rest_lt hrest
    exact .of_suffix (.bind (leaves_readConjuncts rest) fun q => .ok List.suffix_rfl)
      (hrest ▸ List.suffix_cons _ _)
  · exact .ok List.suffix_rfl
termination_by (ls.length, 1)

theorem leaves_readUnary (ls : List Lexeme) : Leaves (s.readUnary ls) ls := by
  rw [readUnary.eq_def]
  split
  · exact .of_suffix (.bind (leaves_readUnary _) fun p => .ok List.suffix_rfl)
      (List.suffix_cons _ _)
  · exact .of_suffix (.bind (leaves_readDisjuncts _) fun p => .bind leaves_expect fun q =>
      .ok List.suffix_rfl) (List.suffix_cons _ _)
  · exact leaves_readTerm
termination_by (ls.length, 0)

end

theorem leaves_readBracketed {close : Symbol} {what : String} :
    Leaves (s.readBracketed close what ls) ls := by
  rw [readBracketed]
  split
  · exact .ok (List.tail_suffix _)
  · exact (leaves_readDisjuncts ls).bind fun p => leaves_expect.bind fun q => .ok List.suffix_rfl

theorem leaves_readElement (ls : List Lexeme) : Leaves (s.readElement ls) ls := by
  rw [readElement.eq_def]
  split
  · exact .error
  · exact leaves_readBracketed.of_suffix (List.suffix_cons _ _)
  · exact leaves_readBracketed.of_suffix (List.suffix_cons _ _)
  · exact .of_suffix (.bind (leaves_readElement _) fun p => .ok List.suffix_rfl)
      (List.suffix_cons _ _)
  · exact .ok (List.suffix_cons _ _)
  · exact .after fun _ => .ok (List.suffix_cons _ _)
  · exact .after fun _ => .ok (List.suffix_cons _ _)
  · exact .error

/-! ### Quantifiers and runs of elements -/

theorem leaves_readCount : Leaves (s.readCount ls) ls := by
  rw [readCount.eq_def]
  split
  · split
    · exact .ok (List.suffix_cons _ _)
    · exact .error
  · exact .error

theorem leaves_readMaximum {min : Nat} : Leaves (s.readMaximum min ls) ls := by
  rw [readMaximum.eq_def]
  split
  · split
    · exact .of_suffix (.bind leaves_readCount fun p => .ok List.suffix_rfl)
        (List.suffix_cons _ _)
    · exact .ok (List.suffix_cons _ _)
  · exact .ok List.suffix_rfl

theorem leaves_readBounds : Leaves (s.readBounds ls) ls := by
  rw [readBounds]
  refine leaves_expect.bind fun b => leaves_readCount.bind fun p => leaves_readMaximum.bind fun q =>
    leaves_expect.bind fun e => ?_
  split
  · split
    · exact .after fun _ => .ok List.suffix_rfl
    · exact .ok List.suffix_rfl
  · exact .ok List.suffix_rfl

theorem suffix_readGreed (ls : List Lexeme) : (readGreed ls).rest <:+ ls := by
  rw [readGreed.eq_def]
  split
  · exact List.suffix_cons _ _
  · exact List.suffix_rfl

theorem leaves_readQuantifier : Leaves (s.readQuantifier ls) ls := by
  rw [readQuantifier.eq_def]
  split
  case h_1 | h_2 | h_3 => exact .ok ((suffix_readGreed _).trans (List.suffix_cons _ _))
  · split
    · exact leaves_readBounds.bind fun p => .ok (suffix_readGreed _)
    · exact .ok List.suffix_rfl
  · exact .ok List.suffix_rfl

theorem leaves_readMulti : Leaves (s.readMulti ls) ls := by
  have hbounds : Leaves (if peek ls = .lbrace then (do
      let p ← s.readBounds ls
      pure (p.weaken length_le_next))
      else pure (⟨(1, none), ls, length_lt_next⟩ :
        Parsed Lexeme (Nat × Option Nat) (ls.length + 1))) ls := by
    split
    · exact leaves_readBounds.bind fun p => .ok List.suffix_rfl
    · exact .ok List.suffix_rfl
  rw [readMulti, ite_bind_eq]
  refine hbounds.bind fun b => ?_
  have hgreed := suffix_readGreed b.rest
  dsimp only
  split
  · next hrest => exact .after fun _ => .ok ((List.suffix_cons _ _).trans (hrest ▸ hgreed))
  · next hrest => exact .after fun _ => .ok ((List.suffix_cons _ _).trans (hrest ▸ hgreed))
  · exact .error

/-! ### Expressions -/

mutual

theorem leaves_readBranches (s : Scope) (st : Numbering) (ls : List Lexeme) :
    Leaves (s.readBranches st ls) ls := by
  rw [readBranches]
  refine (leaves_readItems s st ls).bind fun p => ?_
  split
  · next rest hrest =>
    have hlt : rest.length < ls.length := p.next_lt hrest
    exact .of_suffix (.bind (leaves_readBranches s _ rest) fun q => .ok List.suffix_rfl)
      (hrest ▸ List.suffix_cons _ _)
  · exact .ok List.suffix_rfl
termination_by (ls.length, 2)

theorem leaves_readItems (s : Scope) (st : Numbering) (ls : List Lexeme) :
    Leaves (s.readItems st ls) ls := by
  rw [readItems]
  split
  · exact .ok List.suffix_rfl
  · refine (leaves_readAtom s st ls).bind fun p => leaves_readQuantifier.bind fun q => ?_
    have hlt : q.rest.length < ls.length := p.next_rest_lt q
    exact .bind (leaves_readItems s _ q.rest) fun r => .ok List.suffix_rfl
termination_by (ls.length, 1)

theorem leaves_readAtom (s : Scope) (st : Numbering) (ls : List Lexeme) :
    Leaves (s.readAtom st ls) ls := by
  rw [readAtom.eq_def]
  split
  case h_1 | h_2 | h_3 =>
    exact .of_suffix (.bind (leaves_readBranches s _ _) fun p => .bind leaves_expect fun e =>
      .ok List.suffix_rfl) (List.suffix_cons _ _)
  · exact .of_suffix (.bind leaves_readMulti fun p => .ok List.suffix_rfl) (List.suffix_cons _ _)
  · exact .ok (List.suffix_cons _ _)
  · split
    · exact .error
    · split
      · exact .error
      · exact .ok (List.suffix_cons _ _)
      · exact .after fun inner => .after fun p => .after fun _ => .ok (List.suffix_cons _ _)
  · exact .ok (List.suffix_cons _ _)
  · exact .ok (List.suffix_cons _ _)
  · split
    case h_7 => exact .error
    all_goals exact .bind (leaves_readElement _) fun p => .ok List.suffix_rfl
  · exact .error
termination_by (ls.length, 0)

end

end Scope

end Motif
