import Motif.Proofs.Rereading
import Motif.Proofs.Wrappers

/-!
# Reading other atoms

Expressions are read from lists of lexemes that are alike, up to atoms that are read alike wherever
they stand. What is read of the second list is what is read of the first, but for groups that do
not capture, and the groups, names and references are the same. A variable is expanded in both
texts, and its own text is read in two scopes then; the second may be inside of more expansions
only if they make no difference.

* `Numbering.Alike`: numberings that are the same but for offsets.
* `Scope.Covers`: the variables that are being expanded in one scope are so in another one.
* `Scope.Exchanges`: atoms that are read alike.
* `Scope.keeps_readBranches`: reading with exchanged atoms.
-/

namespace Motif

namespace Numbering

/-- Two numberings are the same, but for the offsets. -/
structure Alike (st st' : Numbering) : Prop where
  /-- They hand out the same group next. -/
  next_eq : st'.next = st.next
  /-- They have the same names. -/
  names_eq : st'.names = st.names
  /-- They refer to the same groups. -/
  backrefs_eq : st'.backrefs.map (·.1) = st.backrefs.map (·.1)

namespace Alike

variable {st st' : Numbering}

theorem symm (h : st.Alike st') : st'.Alike st :=
  ⟨h.next_eq.symm, h.names_eq.symm, h.backrefs_eq.symm⟩

theorem openGroup (h : st.Alike st') (o o' : Nat) : (st.openGroup o).Alike (st'.openGroup o') :=
  ⟨congrArg (· + 1) h.next_eq, h.names_eq, h.backrefs_eq⟩

theorem openGroups (h : st.Alike st') (o o' k : Nat) :
    (st.openGroups o k).Alike (st'.openGroups o' k) := by
  induction k generalizing st st' with
  | zero => exact h
  | succ k ih => exact ih (h.openGroup o o')

theorem bind (h : st.Alike st') (name : String) (id : Nat) :
    (st.bind name id).Alike (st'.bind name id) :=
  ⟨h.next_eq, congrArg (· ++ [(name, id)]) h.names_eq, h.backrefs_eq⟩

theorem refer (h : st.Alike st') (id o o' : Nat) : (st.refer id o).Alike (st'.refer id o') := by
  refine ⟨h.next_eq, h.names_eq, ?_⟩
  rw [Numbering.refer, Numbering.refer, List.map_append, List.map_append, h.backrefs_eq]
  rfl

theorem inline (h : st.Alike st') (p : Pattern) (o o' : Nat) :
    (st'.inline p o').1 = (st.inline p o).1 ∧ (st.inline p o).2.Alike (st'.inline p o').2 := by
  have hshift : st'.next - 1 = st.next - 1 := congrArg (· - 1) h.next_eq
  have hnames (names : GroupNames) : Alike { st with names := st.names ++ names }
      { st' with names := st'.names ++ names } :=
    ⟨h.next_eq, congrArg (· ++ names) h.names_eq, h.backrefs_eq⟩
  have hinline (st : Numbering) (o : Nat) : (st.inline p o).2 = Numbering.openGroups
      { st with names := st.names ++ p.names.map fun b => (b.1, b.2 + (st.next - 1)) } o
      (p.groupCount - 1) := rfl
  refine ⟨congrArg (p.body.shiftGroups ·) hshift, ?_⟩
  rw [hinline, hinline, hshift]
  exact (hnames _).openGroups o o' _

end Alike

end Numbering

/-! ## Scopes -/

/-- The text of a variable is read to its end inside of its own expansion. -/
def Environment.ReadsWithin (env : Environment) (name : String) : Prop :=
  ∃ (text : String) (ls : List Lexeme) (s : Scope) (st : Numbering),
    env.pattern? name = some (.source text) ∧ lexemes text = .ok ls ∧ s.env = env ∧
      s.isExpanding name = true ∧ s.ReadsAll st ls

namespace Scope

/-- Unless `E` holds, a variable that is being expanded on the right is so on the left, or its text
is not read to its end there. -/
structure Covers (E : Prop) (s s' : Scope) : Prop where
  env_eq : s'.env = s.env
  expanding : ∀ name, s'.isExpanding name = true → s.isExpanding name = true ∨
    (∃ text, s.env.pattern? name = some (.source text)) ∧ (s.env.ReadsWithin name → E)

theorem isExpanding_entering (s : Scope) (name name' : String) (o : Nat) (text : String) :
    (s.entering name o text).isExpanding name' = (s.isExpanding name' || name == name') := by
  simp [isExpanding, entering]

theorem Covers.entering {E : Prop} {s s' : Scope} (h : s.Covers E s') (name : String) (o o' : Nat)
    (text : String) : (s.entering name o text).Covers E (s'.entering name o' text) := by
  refine ⟨h.env_eq, fun name' hname' => ?_⟩
  rw [isExpanding_entering] at hname' ⊢
  obtain hname' | hname' := Bool.or_eq_true_iff.1 hname'
  · exact (h.expanding name' hname').imp_left fun h => by rw [h, Bool.true_or]
  · exact .inl (by rw [hname', Bool.or_true])

/-- What is read of expressions is the same, but for groups that do not capture and for offsets, if
the numberings are so before. -/
def ReadsAlike (st st' : Numbering) (v v' : List Expr × Numbering) : Prop :=
  st.Alike st' → Expr.bareAll v'.1 = Expr.bareAll v.1 ∧ v.2.Alike v'.2

/-- What is read of an atom is the same likewise. -/
def AtomsAlike (st st' : Numbering) (v v' : Expr × Numbering) : Prop :=
  st.Alike st' → v'.1.bare = v.1.bare ∧ v.2.Alike v'.2

theorem AtomsAlike.symm {st st' : Numbering} {v v' : Expr × Numbering}
    (h : AtomsAlike st st' v v') : AtomsAlike st' st v' v := fun hst =>
  ⟨(h hst.symm).1.symm, (h hst.symm).2.symm⟩

open Parsed (Agree)

/-- Atoms that are read alike, whatever stands behind them. -/
def Exchanges (E : Prop) (s s' : Scope) (a a' : List Lexeme) : Prop :=
  ∀ st st' ls ls', Keeps E (fun p p' => p.rest = ls ∧ p'.rest = ls' ∧
    AtomsAlike st st' p.value p'.value) (s.readAtom st (a ++ ls)) (s'.readAtom st' (a' ++ ls'))

section Readers

variable {E : Prop}

theorem peek_of_expectEnd {s : Scope} {ls : List Lexeme} (h : s.expectEnd ls = .ok ()) :
    peek ls = .eof := by
  rw [peek_eq_first]
  exact expectEnd_eq_ok.1 h

theorem expectEnd_of_alike {X : List Lexeme → List Lexeme → Prop} {s s' : Scope}
    {e e' ls ls' : List Lexeme} (h : AlikeUpTo X e e' ls ls') (he : symbolsOf e' = symbolsOf e)
    (hend : s.expectEnd ls = .ok ()) : s'.expectEnd ls' = .ok () := by
  obtain ⟨rfl, rfl⟩ := h.eq_of_peek (.inl (peek_of_expectEnd hend))
  rw [expectEnd_eq_ok] at hend ⊢
  rwa [he]

theorem readAtom_var (s : Scope) (st : Numbering) (name : String) (o : Nat) (ls : List Lexeme) :
    s.readAtom st (⟨.var name, o⟩ :: ls) =
      if s.isExpanding name then .error (.recursiveVariable name (s.site o))
      else match s.env.pattern? name with
      | none => .error (.unboundVariable name o)
      | some (.compiled p) => .ok ⟨st.inline p (s.site o), ls, length_lt_next⟩
      | some (.source text) => do
        let inner ← lexemes text
        let p ← (s.entering name o text).readBranches st inner
        (s.entering name o text).expectEnd p.rest
        return ⟨(.ofBranches p.value.1, p.value.2), ls, length_lt_next⟩ := by
  rw [readAtom.eq_def]
  dsimp only
  split
  · rfl
  · split <;> simp only [*]

theorem exists_readAtom_eq_error (s : Scope) (st : Numbering) {ls : List Lexeme}
    (h : peek ls = .eof ∨ peek ls = .arrow) : ∃ err, s.readAtom st ls = .error err := by
  rw [readAtom.eq_def]
  match ls with
  | [] => exact ⟨_, rfl⟩
  | ⟨x, o⟩ :: ls =>
    obtain h | h := h
    · obtain rfl : x = .eof := h
      exact ⟨_, rfl⟩
    · obtain rfl : x = .arrow := h
      exact ⟨_, rfl⟩

/-- A variable that is expanded is bound to a text that is read to its end inside. -/
theorem readsWithin_of_readAtom {s : Scope} {st : Numbering} {name text : String} {o : Nat}
    {ls : List Lexeme} {p : Parsed Lexeme (Expr × Numbering) _}
    (htext : s.env.pattern? name = some (.source text))
    (h : s.readAtom st (⟨.var name, o⟩ :: ls) = .ok p) : s.env.ReadsWithin name := by
  rw [readAtom_var, htext] at h
  split at h
  · cases h
  · obtain ⟨inner, hinner, h⟩ := exists_of_bind_eq_ok h
    obtain ⟨q, hq, h⟩ := exists_of_bind_eq_ok h
    obtain ⟨u, hend, -⟩ := exists_of_bind_eq_ok h
    refine ⟨text, inner, s.entering name o text, st, htext, hinner, rfl, ?_, q, hq, hend⟩
    rw [isExpanding_entering, beq_self_eq_true, Bool.or_true]

section Parts

variable {A X : List Lexeme → List Lexeme → Prop} {s s' : Scope} {st st' : Numbering}

theorem keeps_expansion {inner f f' ls ls' : List Lexeme} {l l' : Lexeme}
    (hf : symbolsOf f' = symbolsOf f)
    (h : Keeps E (Agree (AlikeUpTo X f f') (ReadsAlike st st')) (s.readBranches st inner)
      (s'.readBranches st' inner)) (hls : A ls ls') :
    Keeps E (Agree A (AtomsAlike st st'))
      (do
        let p ← s.readBranches st inner
        s.expectEnd p.rest
        return (⟨(.ofBranches p.value.1, p.value.2), ls, length_lt_next⟩ :
          Parsed Lexeme (Expr × Numbering) (l :: ls).length))
      (do
        let p ← s'.readBranches st' inner
        s'.expectEnd p.rest
        return (⟨(.ofBranches p.value.1, p.value.2), ls', length_lt_next⟩ :
          Parsed Lexeme (Expr × Numbering) (l' :: ls').length)) := by
  refine h.bind fun p p' hp => ?_
  have hend : Keeps E Eq (s.expectEnd p.rest) (s'.expectEnd p'.rest) := fun _ hend =>
    .inr ⟨(), expectEnd_of_alike hp.rest hf hend, rfl⟩
  refine hend.bind fun _ _ _ => .ok ⟨fun hst => ?_, hls⟩
  obtain ⟨hes, hst'⟩ := hp.value hst
  refine ⟨?_, hst'⟩
  rw [Expr.bare_ofBranches, Expr.bare_ofBranches, hes]

/-- A group is read alike if its alternatives are, under numberings that are alike if those before
the group are. -/
theorem keeps_group {st₁ st₁' : Numbering} {e e' ls ls' : List Lexeme} {m n : Nat}
    {id id' : Option Nat} {name : Option String} (hopen : st.Alike st' → st₁.Alike st₁')
    (hid : st.Alike st' → id' = id)
    (h : Keeps E (Agree (AlikeUpTo X e e') (ReadsAlike st₁ st₁')) (s.readBranches st₁ ls)
      (s'.readBranches st₁' ls'))
    {hm : ∀ p : Parsed Lexeme (List Expr × Numbering) (ls.length + 1),
      ∀ q : Parsed Lexeme Unit p.rest.length, q.rest.length < m}
    {hn : ∀ p : Parsed Lexeme (List Expr × Numbering) (ls'.length + 1),
      ∀ q : Parsed Lexeme Unit p.rest.length, q.rest.length < n} :
    Keeps E (Agree (AlikeUpTo X e e') (AtomsAlike st st'))
      (do
        let p ← s.readBranches st₁ ls
        let q ← s.expect .rparen groupEnd p.rest
        return (⟨(.group (.ofBranches p.value.1) id name, p.value.2), q.rest, hm p q⟩ :
          Parsed Lexeme (Expr × Numbering) m))
      (do
        let p ← s'.readBranches st₁' ls'
        let q ← s'.expect .rparen groupEnd p.rest
        return (⟨(.group (.ofBranches p.value.1) id' name, p.value.2), q.rest, hn p q⟩ :
          Parsed Lexeme (Expr × Numbering) n)) := by
  refine h.bind fun p p' hp => ?_
  refine (keeps_expect rfl hp.rest).bind fun q q' hq => .ok ⟨fun hst => ?_, hq.rest⟩
  obtain ⟨hes, hst'⟩ := hp.value (hopen hst)
  refine ⟨?_, hst'⟩
  rw [hid hst]
  refine Expr.bare_group ?_ id name
  rw [Expr.bare_ofBranches, Expr.bare_ofBranches, hes]

end Parts

mutual

/-- **Alternatives with exchanged atoms are read alike**, but for groups that do not capture. -/
theorem keeps_readBranches {s s' : Scope} (hs : s.Covers E s') (st st' : Numbering)
    {e e' : List Lexeme} (ls ls' : List Lexeme) (h : AlikeUpTo (Exchanges E s s') e e' ls ls') :
    Keeps E (Agree (AlikeUpTo (Exchanges E s s') e e') (ReadsAlike st st')) (s.readBranches st ls)
      (s'.readBranches st' ls') := by
  rw [readBranches, readBranches]
  refine (keeps_readItems hs st st' ls ls' h).bind fun p q hpq => ?_
  have hitems (hst : st.Alike st') :
      (Expr.ofItems q.value.1).bare = (Expr.ofItems p.value.1).bare := by
    rw [Expr.bare_ofItems, Expr.bare_ofItems, (hpq.value hst).1]
  split
  · next o rest hrest =>
    have hlt : rest.length < ls.length := p.next_lt hrest
    obtain ⟨o', rest', hrest', h'⟩ := (hrest ▸ hpq.rest).tail rfl
    split
    · next heq =>
      cases heq.symm.trans hrest'
      refine (keeps_readBranches hs _ _ _ _ h').bind fun r t hrt => .ok ⟨fun hst => ?_, hrt.rest⟩
      obtain ⟨hes, hst'⟩ := hrt.value (hpq.value hst).2
      refine ⟨?_, hst'⟩
      rw [Expr.bareAll, Expr.bareAll, hitems hst, hes]
    · next hne => exact absurd hrest' (hne o' rest')
  · next hne =>
    split
    · next heq =>
      obtain ⟨o', rest', hrest', -⟩ := (heq ▸ hpq.rest).tail' rfl
      exact absurd hrest' (hne o' rest')
    · exact .ok ⟨fun hst => ⟨congrArg (· :: []) (hitems hst), (hpq.value hst).2⟩, hpq.rest⟩
termination_by (s.unexpanded, ls.length, 2)

theorem keeps_readItems {s s' : Scope} (hs : s.Covers E s') (st st' : Numbering)
    {e e' : List Lexeme} (ls ls' : List Lexeme) (h : AlikeUpTo (Exchanges E s s') e e' ls ls') :
    Keeps E (Agree (AlikeUpTo (Exchanges E s s') e e') (ReadsAlike st st')) (s.readItems st ls)
      (s'.readItems st' ls') := by
  rw [readItems, readItems, h.endsItems_peek]
  split
  · exact .ok ⟨fun hst => ⟨rfl, hst⟩, h⟩
  · refine (keeps_readAtom hs st st' ls ls' h).bind fun p p' hp => ?_
    refine (keeps_readQuantifier hp.rest).bind fun q q' hq => ?_
    have hlt : q.rest.length < ls.length := p.next_rest_lt q
    refine (keeps_readItems hs _ _ _ _ hq.rest).bind fun r r' hr => .ok ⟨fun hst => ?_, hr.rest⟩
    obtain ⟨he, hst'⟩ := hp.value hst
    obtain ⟨hes, hst''⟩ := hr.value hst'
    refine ⟨?_, hst''⟩
    rw [Expr.bareAll, Expr.bareAll, Expr.bare_quantified, Expr.bare_quantified, he, hes, hq.value]
termination_by (s.unexpanded, ls.length, 1)

theorem keeps_readAtom {s s' : Scope} (hs : s.Covers E s') (st st' : Numbering)
    {e e' : List Lexeme} (ls ls' : List Lexeme) (h : AlikeUpTo (Exchanges E s s') e e' ls ls') :
    Keeps E (Agree (AlikeUpTo (Exchanges E s s') e e') (AtomsAlike st st')) (s.readAtom st ls)
      (s'.readAtom st' ls') := by
  cases h with
  | stop he =>
    obtain ⟨err, herr⟩ := s.exists_readAtom_eq_error st he.left
    rw [herr]
    exact .error
  | atom _ _ hX hrest =>
    intro p hp
    obtain he | ⟨p', hp', hls, hls', hvalue⟩ := hX st st' _ _ p hp
    · exact .inl he
    · exact .inr ⟨p', hp', hvalue, by rwa [hls, hls']⟩
  | @next x o o' rest rest' heof harrow hrest =>
    have helement : Keeps E (Agree (AlikeUpTo (Exchanges E s s') e e') (AtomsAlike st st'))
        (s.readElement (⟨x, o⟩ :: rest) >>= fun p => pure (p.map fun p => (Expr.node p, st)))
        (s'.readElement (⟨x, o'⟩ :: rest') >>= fun p => pure (p.map fun p => (Expr.node p, st'))) :=
      (keeps_readElement hs.env_eq _ _ (.next o o' heof harrow hrest)).bind fun p p' hp =>
        .ok ⟨fun hst => ⟨congrArg Expr.node hp.value.symm, hst⟩, hp.rest⟩
    cases x
    case var name =>
      by_cases hname : s.isExpanding name = true
      · rw [readAtom_var, if_pos hname]
        exact .error
      by_cases hname' : s'.isExpanding name = true
      · -- only on the right the variable is inside of its own expansion
        obtain ⟨⟨text, htext⟩, hE⟩ := (hs.expanding name hname').resolve_left hname
        exact fun p hp => .inl (hE (readsWithin_of_readAtom htext hp))
      rw [readAtom_var, readAtom_var, hs.env_eq, if_neg hname, if_neg hname']
      split
      · exact .error
      · next q hq =>
        refine .ok ⟨fun hst => ?_, hrest⟩
        obtain ⟨he, hst'⟩ := hst.inline q (s.site o) (s'.site o')
        exact ⟨congrArg _ he, hst'⟩
      · next text htext =>
        have hlt : (s.entering name o text).unexpanded < s.unexpanded :=
          unexpanded_entering_lt htext (Bool.eq_false_iff.2 hname)
        have hlexemes : Keeps E Eq (lexemes text) (lexemes text) :=
          fun inner h => .inr ⟨inner, h, rfl⟩
        refine hlexemes.bind ?_
        rintro inner _ rfl
        obtain ⟨f, f', hf, hself⟩ := AlikeUpTo.exists_of_symbolsOf
          (Exchanges E (s.entering name o text) (s'.entering name o' text)) inner inner rfl
        exact keeps_expansion hf (keeps_readBranches (hs.entering name o o' text) st st' _ _ hself)
          hrest
    all_goals rw [readAtom.eq_def, readAtom.eq_def]
    all_goals dsimp only
    case lparen =>
      exact keeps_group (fun hst => hst.openGroup _ _) (fun hst => congrArg some hst.next_eq)
        (keeps_readBranches hs _ _ _ _ hrest)
    case nonCapture => exact keeps_group id (fun _ => rfl) (keeps_readBranches hs _ _ _ _ hrest)
    case namedGroup name =>
      refine keeps_group (fun hst => ?_) (fun hst => congrArg some hst.next_eq)
        (keeps_readBranches hs _ _ _ _ hrest)
      rw [hst.next_eq]
      exact (hst.openGroup _ _).bind name st.next
    case multiNode =>
      refine (keeps_readMulti hs.env_eq hrest).bind fun p p' hp => .ok ⟨fun hst => ?_, hp.rest⟩
      exact ⟨congrArg _ hp.value.symm, hst⟩
    case backref id => exact .ok ⟨fun hst => ⟨rfl, hst.refer id o o'⟩, hrest⟩
    case caret | dollar => exact .ok ⟨fun hst => ⟨rfl, hst⟩, hrest⟩
    case lbracket | lbrace | bang | str | regex | func => exact helement
    all_goals exact .error
termination_by (s.unexpanded, ls.length, 0)

end

end Readers

end Scope

end Motif
