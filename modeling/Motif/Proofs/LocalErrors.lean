import Motif.Proofs.Reading

/-!
# Where errors come from

Most errors are about the text at hand: what cannot be cut into lexemes, a symbol in a wrong place,
a function or an action that the environment does not have. Only the reader of atoms complains
about variables, and only what is said of a whole pattern is about names and references of groups.

* `CompileError.isLocal`: the errors about the text at hand.
* `Local`: a computation fails with no others.
* `Scope.local_readElement`, `Scope.local_readQuantifier`, `Scope.local_readMulti`: readers.
* `Scope.local_readActionClause`, `local_lexemes`: action clauses and lexemes.
* `Early`, `early_readSources`: while texts are read, nothing is said of the whole.
* `error_of_compileAll`: where patterns are refused.
-/

namespace Motif

/-- The error is about the text at hand, not about variables or groups. -/
def CompileError.isLocal : CompileError → Bool
  | malformed .. | unknownRelation .. | unboundFunction .. | unboundAction ..
  | invalidQuantifier .. | invalidRegex .. | invalidGroupName .. => true
  | unboundVariable .. | recursiveVariable .. | duplicateGroupName .. | invalidBackref .. => false

/-- A computation fails with local errors only. -/
structure Local {α : Type} (x : Except CompileError α) : Prop where
  isLocal : ∀ e, x = .error e → e.isLocal = true

namespace Local

variable {α β : Type} {x : Except CompileError α}

theorem ok (a : α) : Local (.ok a : Except CompileError α) := ⟨nofun⟩

theorem error {e : CompileError} (h : e.isLocal = true) :
    Local (.error e : Except CompileError α) := by
  constructor
  rintro _ ⟨⟩
  exact h

theorem bind {f : α → Except CompileError β} (h : Local x) (hf : ∀ a, Local (f a)) :
    Local (x >>= f) := by
  refine ⟨fun e he => ?_⟩
  obtain he | ⟨a, -, he⟩ := error_or_of_bind_eq_error he
  · exact h.isLocal e he
  · exact (hf a).isLocal e he

theorem map {f : α → β} (h : Local x) : Local (x.map f) := by
  cases x with
  | error e => exact error (h.isLocal e rfl)
  | ok a => exact ok _

theorem bind_ok {f : α → β} (h : Local x) : Local (x >>= fun a => pure (f a)) :=
  h.bind fun _ => ok _

end Local

namespace Scope

variable {s : Scope} {ls : List Lexeme}

theorem local_fault {α : Type} (offset : Nat) (f : Fault) :
    Local (s.fault offset f : Except CompileError α) := .error rfl

theorem local_expect {x : Symbol} {what : String} : Local (s.expect x what ls) := by
  rw [expect.eq_def]
  split
  · exact local_fault ..
  · split
    · exact .ok _
    · exact local_fault ..

/-! ## Element tests -/

theorem local_regex (source : String) (offset : Nat) : Local (s.regex source offset) := by
  rw [regex]
  split
  · exact .ok _
  · exact .error rfl

theorem local_regexTest (source : String) (offset : Nat) : Local (s.regexTest source offset) :=
  (local_regex source offset).map

theorem local_functionTest (name : String) (offset : Nat) : Local (s.functionTest name offset) := by
  rw [functionTest]
  split
  · exact .ok _
  · exact .error rfl

theorem local_readAttribute {name : String} : Local (s.readAttribute name ls) := by
  rw [readAttribute.eq_def]
  dsimp only
  split
  · exact local_fault ..
  · split
    · exact .ok _
    · exact .ok _
    · exact .ok _
    · exact (local_regex ..).bind_ok
    · exact local_fault ..
  · split
    · split
      · exact .ok _
      · exact local_fault ..
    · exact local_fault ..
  · split
    · exact .ok _
    · exact local_fault ..
  · exact local_fault ..

theorem local_readTerm : Local (s.readTerm ls) := by
  rw [readTerm.eq_def]
  split
  · exact local_fault ..
  · exact local_readAttribute.bind_ok
  · exact .ok _
  · exact (local_regexTest ..).bind_ok
  · exact (local_functionTest ..).bind_ok
  · exact local_fault ..

mutual

theorem local_readDisjuncts (ls : List Lexeme) : Local (s.readDisjuncts ls) := by
  rw [readDisjuncts]
  refine (local_readConjuncts ls).bind fun p => ?_
  split
  · next rest hrest =>
    have : rest.length < ls.length := p.rest_lt hrest
    exact (local_readDisjuncts rest).bind_ok
  · exact .ok _
termination_by (ls.length, 2)

theorem local_readConjuncts (ls : List Lexeme) : Local (s.readConjuncts ls) := by
  rw [readConjuncts]
  refine (local_readUnary ls).bind fun p => ?_
  split
  · next rest hrest =>
    have : rest.length < ls.length := p.rest_lt hrest
    exact (local_readConjuncts rest).bind_ok
  · exact .ok _
termination_by (ls.length, 1)

theorem local_readUnary (ls : List Lexeme) : Local (s.readUnary ls) := by
  rw [readUnary.eq_def]
  split
  · exact (local_readUnary _).bind_ok
  · exact (local_readDisjuncts _).bind fun p => local_expect.bind_ok
  · exact local_readTerm
termination_by (ls.length, 0)

end

theorem local_readBracketed {close : Symbol} {what : String} :
    Local (s.readBracketed close what ls) := by
  rw [readBracketed]
  split
  · exact .ok _
  · exact (local_readDisjuncts ls).bind fun p => local_expect.bind_ok

theorem local_readElement (ls : List Lexeme) : Local (s.readElement ls) := by
  rw [readElement.eq_def]
  split
  · exact local_fault ..
  · exact local_readBracketed
  · exact local_readBracketed
  · exact (local_readElement _).bind_ok
  · exact .ok _
  · exact (local_regexTest ..).bind_ok
  · exact (local_functionTest ..).bind_ok
  · exact local_fault ..

/-! ## Quantifiers and runs of elements -/

theorem local_readCount : Local (s.readCount ls) := by
  rw [readCount.eq_def]
  split
  · split
    · exact .ok _
    · exact local_fault ..
  · exact local_fault ..

theorem local_readMaximum {min : Nat} : Local (s.readMaximum min ls) := by
  rw [readMaximum.eq_def]
  split
  · split
    · exact local_readCount.bind_ok
    · exact .ok _
  · exact .ok _

theorem local_readBounds : Local (s.readBounds ls) := by
  rw [readBounds]
  refine local_expect.bind fun b => local_readCount.bind fun p => ?_
  refine local_readMaximum.bind fun q => local_expect.bind fun e => ?_
  split
  · split
    · exact Local.bind (.error rfl) fun _ => .ok _
    · exact .ok _
  · exact .ok _

theorem local_readQuantifier : Local (s.readQuantifier ls) := by
  rw [readQuantifier.eq_def]
  split
  · exact .ok _
  · exact .ok _
  · exact .ok _
  · split
    · exact local_readBounds.bind_ok
    · exact .ok _
  · exact .ok _

theorem local_readMulti : Local (s.readMulti ls) := by
  refine ⟨fun e he => ?_⟩
  rw [readMulti] at he
  split at he
  case' isTrue =>
    obtain he | ⟨q, -, he⟩ := error_or_of_bind_eq_error he
    case inl => exact local_readBounds.isLocal e he
  all_goals
    obtain he | ⟨b, -, he⟩ := error_or_of_bind_eq_error he
    · cases he
    · dsimp only at he
      split at he
      · exact (local_regex _ _).bind_ok.isLocal e he
      · exact (local_regex _ _).bind_ok.isLocal e he
      · exact (local_fault _ _).isLocal e he

/-! ## Ends of texts -/

theorem local_expectEnd : Local (s.expectEnd ls) := by
  rw [expectEnd]
  split
  · exact .ok _
  · exact local_fault ..
  · exact local_fault ..

theorem local_readTarget : Local (s.readTarget ls) := by
  rw [readTarget.eq_def]
  split
  · split
    · exact local_expect.bind_ok
    · exact local_fault ..
  · exact local_expect.bind_ok
  · exact .ok _
  · exact local_fault ..

theorem local_readActionClause : Local (s.readActionClause ls) := by
  rw [readActionClause.eq_def]
  split
  · split
    · split
      · exact local_readTarget.bind_ok
      · exact .ok _
    · exact .error rfl
  · exact local_fault ..

end Scope

/-! ## Lexemes -/

theorem local_scanOpening {offset : Nat} {cs : List Char} : Local (scanOpening offset cs) := by
  rw [scanOpening.eq_def]
  split
  · exact .ok _
  · exact .ok _
  · split
    · exact .ok _
    · exact .error rfl
  · exact .error rfl
  · exact .ok _

theorem local_scanSymbol {offset : Nat} {c : Char} {cs : List Char} :
    Local (scanSymbol offset c cs) := by
  rw [scanSymbol.eq_def]
  dsimp only
  split
  case h_14 => exact local_scanOpening
  all_goals first
    | exact .ok _
    | split <;> first
      | exact .ok _
      | exact .error rfl
      | split <;> first | exact .ok _ | exact .error rfl

theorem local_scanAfter {a : Bool} {offset : Nat} {c : Char} {cs : List Char} :
    Local (scanAfter a offset c cs) := by
  rw [scanAfter]
  split
  · exact .ok _
  · exact local_scanSymbol

theorem local_lexemesFrom (a : Bool) (offset : Nat) (cs : List Char) :
    Local (lexemesFrom a offset cs) := by
  match cs with
  | [] =>
    rw [lexemesFrom]
    exact .ok _
  | c :: cs =>
    rw [lexemesFrom]
    split
    · exact local_lexemesFrom ..
    · split
      · next e he => exact .error (local_scanAfter.isLocal e he)
      · split
        · next e he => exact .error ((local_lexemesFrom _ _ _).isLocal e he)
        · exact .ok _
termination_by cs.length
decreasing_by
  all_goals
    simp only [List.length_cons, List.length_drop]
    omega

theorem local_lexemes (text : String) : Local (lexemes text) := local_lexemesFrom ..

/-! ## Errors about the whole -/

/-- The error is about the groups of a complete pattern. -/
def CompileError.isFinal : CompileError → Bool
  | duplicateGroupName .. | invalidBackref .. => true
  | _ => false

/-- A computation fails with no error about a complete pattern. -/
structure Early {α : Type} (x : Except CompileError α) : Prop where
  isFinal : ∀ e, x = .error e → e.isFinal = false

theorem Local.early {α : Type} {x : Except CompileError α} (h : Local x) : Early x := by
  refine ⟨fun e he => ?_⟩
  have hlocal := h.isLocal e he
  cases e <;> first | rfl | cases hlocal

namespace Early

variable {α β : Type} {x : Except CompileError α}

theorem ok (a : α) : Early (.ok a : Except CompileError α) := ⟨nofun⟩

theorem error {e : CompileError} (h : e.isFinal = false) :
    Early (.error e : Except CompileError α) := by
  constructor
  rintro _ ⟨⟩
  exact h

theorem bind {f : α → Except CompileError β} (h : Early x) (hf : ∀ a, Early (f a)) :
    Early (x >>= f) := by
  refine ⟨fun e he => ?_⟩
  obtain he | ⟨a, -, he⟩ := error_or_of_bind_eq_error he
  · exact h.isFinal e he
  · exact (hf a).isFinal e he

end Early

namespace Scope

mutual

theorem early_readBranches (s : Scope) (st : Numbering) (ls : List Lexeme) :
    Early (s.readBranches st ls) := by
  rw [readBranches]
  refine (early_readItems s st ls).bind fun p => ?_
  split
  · next rest hrest =>
    have hlt : rest.length < ls.length := p.next_lt hrest
    exact (early_readBranches s _ rest).bind fun q => .ok _
  · exact .ok _
termination_by (s.unexpanded, ls.length, 2)

theorem early_readItems (s : Scope) (st : Numbering) (ls : List Lexeme) :
    Early (s.readItems st ls) := by
  rw [readItems]
  split
  · exact .ok _
  · refine (early_readAtom s st ls).bind fun p => local_readQuantifier.early.bind fun q => ?_
    have hlt : q.rest.length < ls.length := p.next_rest_lt q
    exact (early_readItems s _ q.rest).bind fun r => .ok _
termination_by (s.unexpanded, ls.length, 1)

theorem early_readAtom (s : Scope) (st : Numbering) (ls : List Lexeme) :
    Early (s.readAtom st ls) := by
  rw [readAtom.eq_def]
  split
  case h_1 | h_2 | h_3 =>
    exact (early_readBranches s _ _).bind fun p => local_expect.bind_ok.early
  · exact local_readMulti.bind_ok.early
  · exact .ok _
  · next name offset rest =>
    split
    · exact .error rfl
    · next hn =>
      split
      · exact .error rfl
      · exact .ok _
      · next text hb =>
        have : (s.entering name offset text).unexpanded < s.unexpanded :=
          unexpanded_entering_lt hb (Bool.eq_false_iff.2 hn)
        exact (local_lexemes text).early.bind fun inner =>
          (early_readBranches (s.entering name offset text) st inner).bind fun p =>
            local_expectEnd.bind_ok.early
  · exact .ok _
  · exact .ok _
  · split
    case h_7 => exact (local_fault _ _).early
    all_goals exact (local_readElement _).bind_ok.early
  · exact (local_fault _ _).early
termination_by (s.unexpanded, ls.length, 0)

end

end Scope

theorem early_readSources (env : Environment) (r : Sources) (sources : List String) :
    Early (readSources env r sources) := by
  induction sources generalizing r with
  | nil => exact .ok r
  | cons source more ih =>
    rw [readSources]
    refine (local_lexemes source).early.bind fun ls =>
      (Scope.early_readBranches _ _ ls).bind fun p => ?_
    dsimp only
    split
    · split
      · exact (Scope.local_readActionClause.bind fun _ =>
          Scope.local_expectEnd.bind fun _ => .ok _).early
      · exact (Scope.local_fault _ _).early
    · exact Scope.local_expectEnd.early.bind fun _ => ih _

/-! ## Patterns -/

theorem Numbering.error_of_target {st : Numbering} {c : ActionClause} {e : CompileError}
    (h : st.target c = .error e) :
    (∃ name, e = .unboundVariable name c.offset) ∨ ∃ id, e = .invalidBackref id c.offset := by
  rw [target] at h
  split at h
  case' h_2 => split at h
  all_goals
    obtain h | ⟨id, -, h⟩ := error_or_of_bind_eq_error h
    · cases h
      all_goals exact .inl ⟨_, rfl⟩
    · dsimp only at h
      split at h
      · exact .inr ⟨id, (Except.error.inj h).symm⟩
      · cases h

/-- Texts are refused when they are read, or the whole is, or the target of the action is. -/
theorem error_of_compileAll {env : Environment} {sources : List String} {e : CompileError}
    (h : compileAll env sources = .error e) :
    readSources env {} sources = .error e ∨ ∃ r, readSources env {} sources = .ok r ∧
      (r.numbering.validate env.order (.ofItems r.parts) = .error e ∨
        ∃ c, r.clause = some c ∧ r.numbering.target c = .error e) := by
  rw [compileAll] at h
  obtain h | ⟨r, hr, h⟩ := error_or_of_bind_eq_error h
  · exact .inl h
  refine .inr ⟨r, hr, ?_⟩
  obtain h | ⟨u, -, h⟩ := error_or_of_bind_eq_error h
  · exact .inl h
  split at h
  · cases h
  · next c hc =>
    refine .inr ⟨c, hc, ?_⟩
    obtain h | ⟨root, -, h⟩ := error_or_of_bind_eq_error h
    · cases ht : r.numbering.target c with
      | ok id =>
        rw [ht] at h
        cases h
      | error x =>
        rw [ht] at h
        cases h
        rfl
    · cases h

end Motif
