import Motif.Proofs.Expansion

/-!
# Orders of names

The check of names goes through sets of names, in an order that nothing is known of. The readers do
not regard it. Which of several names that recur is reported depends on it, but not whether one is;
so a text that is compiled is compiled to the same pattern in every order.

* `Scope.elsewhere`: a scope with other bindings and other orders, inside of other expansions.
* `Scope.readBranches_inOrder`: what is read does not depend on the order.
* **`compileAll_inOrder`**: nor does what is compiled.
-/

namespace Motif

/-! ## Scopes in other environments -/

namespace Scope

/-- A scope with other bindings of variables and other orders of names, inside of other
expansions. -/
def elsewhere (s : Scope) (patterns : List (String × Binding)) (order : NameOrder)
    (expanding : List (String × Nat)) : Scope :=
  { s with env := { s.env with patterns, order }, expanding }

section Elsewhere

variable (s : Scope) (patterns : List (String × Binding)) (order : NameOrder)
  (expanding : List (String × Nat)) (ls : List Lexeme)

/-! Only the reader of atoms regards variables. The other readers are the same functions. -/

theorem readDisjuncts_elsewhere :
    (s.elsewhere patterns order expanding).readDisjuncts ls = s.readDisjuncts ls := by
  with_unfolding_all rfl

theorem readBracketed_elsewhere (close : Symbol) (what : String) :
    (s.elsewhere patterns order expanding).readBracketed close what ls =
      s.readBracketed close what ls := by
  rw [readBracketed, readBracketed, readDisjuncts_elsewhere]
  rfl

theorem readElement_elsewhere :
    (s.elsewhere patterns order expanding).readElement ls = s.readElement ls := by
  induction ls with
  | nil => rfl
  | cons l ls ih =>
    obtain ⟨symbol, offset⟩ := l
    cases symbol with
    | lbracket | lbrace => exact readBracketed_elsewhere ..
    | bang => exact congrArg (· >>= _) ih
    | _ => rfl

theorem readQuantifier_elsewhere :
    (s.elsewhere patterns order expanding).readQuantifier ls = s.readQuantifier ls := rfl

theorem readBounds_elsewhere :
    (s.elsewhere patterns order expanding).readBounds ls = s.readBounds ls := rfl

theorem readMulti_elsewhere :
    (s.elsewhere patterns order expanding).readMulti ls = s.readMulti ls := by
  rw [readMulti, readMulti, readBounds_elsewhere]
  rfl

theorem entering_elsewhere (name : String) (offset : Nat) (text : String) :
    (s.elsewhere patterns order expanding).entering name offset text =
      (s.entering name offset text).elsewhere patterns order (expanding ++ [(name, offset)]) := rfl

end Elsewhere


/-! ## Scopes with other orders -/

/-- A scope with other orders of names. -/
def inOrder (s : Scope) (o : NameOrder) : Scope := s.elsewhere s.env.patterns o s.expanding

mutual

/-- **What is read does not depend on the order of names.** -/
theorem readBranches_inOrder (s : Scope) (o : NameOrder) (st : Numbering) (ls : List Lexeme) :
    (s.inOrder o).readBranches st ls = s.readBranches st ls := by
  rw [readBranches, readBranches, readItems_inOrder s o st ls]
  refine bind_congr_of_ok fun p _ => ?_
  split
  · next offset rest hp =>
    have hlt : rest.length < ls.length := p.next_lt hp
    rw [readBranches_inOrder s o p.value.2 rest]
  · rfl
termination_by (s.unexpanded, ls.length, 2)

theorem readItems_inOrder (s : Scope) (o : NameOrder) (st : Numbering) (ls : List Lexeme) :
    (s.inOrder o).readItems st ls = s.readItems st ls := by
  rw [readItems, readItems, readAtom_inOrder s o st ls]
  split
  · rfl
  · refine bind_congr_of_ok fun p _ => ?_
    rw [inOrder, readQuantifier_elsewhere]
    refine bind_congr_of_ok fun q _ => ?_
    have hlt : q.rest.length < ls.length := p.next_rest_lt q
    exact congrArg (· >>= _) (readItems_inOrder s o p.value.2 q.rest)
termination_by (s.unexpanded, ls.length, 1)

theorem readAtom_inOrder (s : Scope) (o : NameOrder) (st : Numbering) (ls : List Lexeme) :
    (s.inOrder o).readAtom st ls = s.readAtom st ls := by
  match ls with
  | [] =>
    rw [readAtom.eq_def, readAtom.eq_def]
    rfl
  | ⟨x, offset⟩ :: rest =>
    cases x
    case var name =>
      have hb : (s.inOrder o).env.pattern? name = s.env.pattern? name := rfl
      rw [readAtom_var, readAtom_var, hb]
      by_cases hn : s.isExpanding name = true
      · rw [if_pos hn]
        exact if_pos hn
      rw [if_neg hn]
      refine (if_neg hn).trans ?_
      split
      · rfl
      · rfl
      · next inner hinner =>
        have hlt : (s.entering name offset inner).unexpanded < s.unexpanded :=
          unexpanded_entering_lt hinner (Bool.eq_false_iff.2 hn)
        refine bind_congr_of_ok fun ls' _ => ?_
        exact congrArg (· >>= _) (readBranches_inOrder (s.entering name offset inner) o st ls')
    all_goals rw [readAtom.eq_def, readAtom.eq_def]
    all_goals dsimp only
    case lparen =>
      exact congrArg (· >>= _) (readBranches_inOrder s o (st.openGroup (s.site offset)) rest)
    case nonCapture => exact congrArg (· >>= _) (readBranches_inOrder s o st rest)
    case namedGroup name =>
      exact congrArg (· >>= _)
        (readBranches_inOrder s o ((st.openGroup (s.site offset)).bind name st.next) rest)
    case lbracket | lbrace | bang | str | regex | func => rw [inOrder, readElement_elsewhere]
    all_goals rfl
termination_by (s.unexpanded, ls.length, 0)

end

end Scope

/-! ## Patterns -/

/-- An environment with other orders of names. -/
def Environment.inOrder (env : Environment) (o : NameOrder) : Environment := { env with order := o }

theorem readSources_inOrder (env : Environment) (o : NameOrder) (r : Sources)
    (sources : List String) : readSources (env.inOrder o) r sources = readSources env r sources := by
  induction sources generalizing r with
  | nil => rfl
  | cons source more ih =>
    rw [readSources, readSources]
    refine bind_congr_of_ok fun ls _ => ?_
    have hread := Scope.readBranches_inOrder { env, source } o r.numbering ls
    refine (congrArg (· >>= _) hread).trans (bind_congr_of_ok fun p _ => ?_)
    dsimp only
    split
    · rfl
    · exact bind_congr_of_ok fun _ _ => ih _

/-- **What is compiled does not depend on the order in which names are gone through.** -/
theorem compileAll_inOrder {env : Environment} {sources : List String} {p : Pattern}
    (o : NameOrder) :
    compileAll (env.inOrder o) sources = .ok p ↔ compileAll env sources = .ok p := by
  rw [compileAll, compileAll, readSources_inOrder]
  cases readSources env {} sources with
  | error e => exact Iff.rfl
  | ok r =>
    have hvalid : r.numbering.validate o (.ofItems r.parts) = .ok () ↔
        r.numbering.validate env.order (.ofItems r.parts) = .ok () := by
      rw [Numbering.validate_eq_ok_iff_and, Numbering.validate_eq_ok_iff_and]
    change (r.numbering.validate o _ >>= _) = _ ↔ (r.numbering.validate env.order _ >>= _) = _
    rw [bind_eq_ok_iff, bind_eq_ok_iff]
    exact exists_congr fun _ => and_congr_left fun _ => hvalid

end Motif
