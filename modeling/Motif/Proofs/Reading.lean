import Motif.Compile

/-!
# What readers build

Readers put expressions together bottom up and hand out the numbers of groups on the way. The
relation `Numbering.Reads` says it once, with one rule for each form that a reader can produce, so
that no other proof has to open a reader.

* `exists_of_bind_eq_ok`, `error_or_of_bind_eq_error`: computations taken apart.
* `Numbering.Reads`: expressions that readers build, with the numbering before and after.
* `Scope.reads_of_readBranches`, `Scope.reads_of_readItems`, `Scope.reads_of_readAtom`: the readers.
* `exists_of_readSources_cons`: the first of several texts.
* **`reads_of_readSources`**: texts that are read one after the other.
-/

namespace Motif

theorem exists_of_bind_eq_ok {ε α β : Type} {x : Except ε α} {f : α → Except ε β} {b : β}
    (h : x >>= f = .ok b) : ∃ a, x = .ok a ∧ f a = .ok b := by
  cases x with
  | error e => cases h
  | ok a => exact ⟨a, rfl, h⟩

theorem bind_eq_ok_iff {ε α β : Type} {x : Except ε α} {f : α → Except ε β} {b : β} :
    x >>= f = .ok b ↔ ∃ a, x = .ok a ∧ f a = .ok b := by
  refine ⟨exists_of_bind_eq_ok, ?_⟩
  rintro ⟨a, rfl, h⟩
  exact h

theorem error_or_of_bind_eq_error {ε α β : Type} {x : Except ε α} {f : α → Except ε β} {e : ε}
    (h : x >>= f = .error e) : x = .error e ∨ ∃ a, x = .ok a ∧ f a = .error e := by
  cases x with
  | error e =>
    cases h
    exact .inl rfl
  | ok a => exact .inr ⟨a, rfl, h⟩

/-- A computation goes on in the same way if it does so from what it has come to. -/
theorem bind_congr_of_ok {ε α β : Type} {x : Except ε α} {f g : α → Except ε β}
    (h : ∀ a, x = .ok a → f a = g a) : x >>= f = x >>= g := by
  cases x with
  | error e => rfl
  | ok a => exact h a rfl

theorem Environment.mem_of_pattern?_eq_some {env : Environment} {name : String} {b : Binding}
    (h : env.pattern? name = some b) : (name, b) ∈ env.patterns := by
  obtain ⟨l, l', hl, -⟩ := List.lookup_eq_some_iff.1 h
  exact hl ▸ List.mem_append_right l List.mem_cons_self

/-! ## Expressions and numberings -/

namespace Numbering

/-- Reading expressions under an environment leads from one numbering to another. -/
inductive Reads (env : Environment) : Numbering → Numbering → List Expr → Prop where
  | nil (st : Numbering) : Reads env st st []
  | cons {st st' st'' : Numbering} {e : Expr} {es : List Expr} (h : Reads env st st' [e])
    (h' : Reads env st' st'' es) : Reads env st st'' (e :: es)
  | node (st : Numbering) (p : NodePattern) : Reads env st st [.node p]
  | multi (st : Numbering) (min : Nat) (max : Option Nat) (text : Regex) (greedy : Bool) :
    Reads env st st [.multi min max text greedy]
  | anchor (st : Numbering) (a : Anchor) : Reads env st st [.anchor a]
  | backref (st : Numbering) (id offset : Nat) : Reads env st (st.refer id offset) [.backref id]
  | sequence {st st' : Numbering} {es : List Expr} (h : Reads env st st' es) :
    Reads env st st' [.sequence es]
  | choice {st st' : Numbering} {es : List Expr} (h : Reads env st st' es) :
    Reads env st st' [.choice es]
  | iterate {st st' : Numbering} {e : Expr} (h : Reads env st st' [e]) (min : Nat)
    (max : Option Nat) (greedy : Bool) : Reads env st st' [.iterate e min max greedy]
  | group {st st' : Numbering} {e : Expr} (h : Reads env st st' [e]) :
    Reads env st st' [.group e none none]
  | capture {st st' : Numbering} {e : Expr} (site : Nat)
    (h : Reads env (st.openGroup site) st' [e]) : Reads env st st' [.group e (some st.next) none]
  | named {st st' : Numbering} {e : Expr} (site : Nat) (name : String)
    (h : Reads env ((st.openGroup site).bind name st.next) st' [e]) :
    Reads env st st' [.group e (some st.next) (some name)]
  | inline (st : Numbering) {name : String} {p : Pattern} (site : Nat)
    (h : env.pattern? name = some (.compiled p)) :
    Reads env st (st.inline p site).2 [(st.inline p site).1]

namespace Reads

variable {env : Environment} {st st' st'' : Numbering} {es es' : List Expr}

theorem exists_of_cons {e : Expr} (h : Reads env st st' (e :: es)) :
    ∃ st₁, Reads env st st₁ [e] ∧ Reads env st₁ st' es := by
  cases h with
  | cons h₁ h₂ => exact ⟨_, h₁, h₂⟩
  | node => exact ⟨_, .node .., .nil _⟩
  | multi => exact ⟨_, .multi .., .nil _⟩
  | anchor => exact ⟨_, .anchor .., .nil _⟩
  | backref => exact ⟨_, .backref .., .nil _⟩
  | sequence h => exact ⟨_, .sequence h, .nil _⟩
  | choice h => exact ⟨_, .choice h, .nil _⟩
  | iterate h min max greedy => exact ⟨_, .iterate h min max greedy, .nil _⟩
  | group h => exact ⟨_, .group h, .nil _⟩
  | capture site h => exact ⟨_, .capture site h, .nil _⟩
  | named site name h => exact ⟨_, .named site name h, .nil _⟩
  | inline => exact ⟨_, .inline _ _ ‹_›, .nil _⟩

theorem append (h : Reads env st st' es) (h' : Reads env st' st'' es') :
    Reads env st st'' (es ++ es') := by
  induction es generalizing st with
  | nil => cases h; exact h'
  | cons e es ih =>
    obtain ⟨st₁, h₁, h₂⟩ := h.exists_of_cons
    exact .cons h₁ (ih h₂)

theorem ofItems (h : Reads env st st' es) : Reads env st st' [.ofItems es] := by
  match es with
  | [] | _ :: _ :: _ => exact .sequence h
  | [e] => exact h

theorem ofBranches (h : Reads env st st' es) : Reads env st st' [.ofBranches es] := by
  match es with
  | [] | _ :: _ :: _ => exact .choice h
  | [e] => exact h

theorem quantified {e : Expr} (h : Reads env st st' [e]) (q : Option Scope.Quantifier) :
    Reads env st st' [Scope.quantified e q] := by
  cases q with
  | none => exact h
  | some q => exact .iterate h _ _ _

end Reads

end Numbering

/-! ## Readers -/

namespace Scope

theorem exists_multi_of_readMulti {s : Scope} {ls : List Lexeme} {p : Parsed Lexeme Expr ls.length}
    (h : s.readMulti ls = .ok p) : ∃ min max text greedy, p.value = .multi min max text greedy := by
  rw [readMulti] at h
  split at h
  case' isTrue =>
    obtain ⟨q, -, h⟩ := exists_of_bind_eq_ok h
  all_goals
    obtain ⟨b, -, h⟩ := exists_of_bind_eq_ok h
    dsimp only at h
    split at h
    · obtain ⟨r, -, h⟩ := exists_of_bind_eq_ok h
      cases h
      exact ⟨_, _, _, _, rfl⟩
    · obtain ⟨r, -, h⟩ := exists_of_bind_eq_ok h
      cases h
      exact ⟨_, _, _, _, rfl⟩
    · cases h

theorem reads_of_readMulti {s : Scope} {ls : List Lexeme} {p : Parsed Lexeme Expr ls.length}
    (st : Numbering) (h : s.readMulti ls = .ok p) : Numbering.Reads s.env st st [p.value] := by
  obtain ⟨min, max, text, greedy, hvalue⟩ := exists_multi_of_readMulti h
  rw [hvalue]
  exact .multi ..

mutual

theorem reads_of_readBranches (s : Scope) (st : Numbering) (ls : List Lexeme)
    {p : Parsed Lexeme (List Expr × Numbering) (ls.length + 1)}
    (h : s.readBranches st ls = .ok p) : Numbering.Reads s.env st p.value.2 p.value.1 := by
  rw [readBranches] at h
  obtain ⟨p₁, h₁, h⟩ := exists_of_bind_eq_ok h
  have hitems := (reads_of_readItems s st ls h₁).ofItems
  split at h
  · next rest hrest =>
    have hlt : rest.length < ls.length := p₁.next_lt hrest
    obtain ⟨q, hq, h⟩ := exists_of_bind_eq_ok h
    cases h
    exact .cons hitems (reads_of_readBranches s _ rest hq)
  · cases h
    exact hitems
termination_by (s.unexpanded, ls.length, 2)

theorem reads_of_readItems (s : Scope) (st : Numbering) (ls : List Lexeme)
    {p : Parsed Lexeme (List Expr × Numbering) (ls.length + 1)}
    (h : s.readItems st ls = .ok p) : Numbering.Reads s.env st p.value.2 p.value.1 := by
  rw [readItems] at h
  split at h
  · cases h
    exact .nil st
  · obtain ⟨p₁, h₁, h⟩ := exists_of_bind_eq_ok h
    obtain ⟨q, hq, h⟩ := exists_of_bind_eq_ok h
    have hlt : q.rest.length < ls.length := p₁.next_rest_lt q
    obtain ⟨r, hr, h⟩ := exists_of_bind_eq_ok h
    cases h
    exact .cons ((reads_of_readAtom s st ls h₁).quantified _) (reads_of_readItems s _ _ hr)
termination_by (s.unexpanded, ls.length, 1)

theorem reads_of_readAtom (s : Scope) (st : Numbering) (ls : List Lexeme)
    {p : Parsed Lexeme (Expr × Numbering) ls.length}
    (h : s.readAtom st ls = .ok p) : Numbering.Reads s.env st p.value.2 [p.value.1] := by
  rw [readAtom.eq_def] at h
  split at h
  · -- groups
    obtain ⟨p₁, h₁, h⟩ := exists_of_bind_eq_ok h
    obtain ⟨e, he, h⟩ := exists_of_bind_eq_ok h
    cases h
    exact .capture _ (reads_of_readBranches s _ _ h₁).ofBranches
  · obtain ⟨p₁, h₁, h⟩ := exists_of_bind_eq_ok h
    obtain ⟨e, he, h⟩ := exists_of_bind_eq_ok h
    cases h
    exact .group (reads_of_readBranches s _ _ h₁).ofBranches
  · obtain ⟨p₁, h₁, h⟩ := exists_of_bind_eq_ok h
    obtain ⟨e, he, h⟩ := exists_of_bind_eq_ok h
    cases h
    exact .named _ _ (reads_of_readBranches s _ _ h₁).ofBranches
  · obtain ⟨p₁, h₁, h⟩ := exists_of_bind_eq_ok h
    cases h
    exact reads_of_readMulti st h₁
  · cases h
    exact .backref ..
  · -- a variable: copied if it is compiled, else read in place
    next name offset rest =>
    split at h
    · cases h
    · next hn =>
      split at h
      · cases h
      · next hb =>
        cases h
        exact .inline _ _ hb
      · next text hb =>
        have : (s.entering name offset text).unexpanded < s.unexpanded :=
          unexpanded_entering_lt hb (Bool.eq_false_iff.2 hn)
        obtain ⟨ls', hls, h⟩ := exists_of_bind_eq_ok h
        obtain ⟨p₁, h₁, h⟩ := exists_of_bind_eq_ok h
        obtain ⟨u, hu, h⟩ := exists_of_bind_eq_ok h
        cases h
        exact (reads_of_readBranches (s.entering name offset text) st ls' h₁).ofBranches
  · cases h
    exact .anchor ..
  · cases h
    exact .anchor ..
  · -- the test of one element, or no atom
    split at h
    case h_7 => cases h
    all_goals
      obtain ⟨q, hq, h⟩ := exists_of_bind_eq_ok h
      cases h
      exact .node ..
  · cases h
termination_by (s.unexpanded, ls.length, 0)

end

end Scope

/-! ## Several texts -/

/-- The first of several texts is read, and behind it comes its end, or the action clause if it is
the last one. -/
theorem exists_of_readSources_cons {env : Environment} {source : String} {more : List String}
    {r r' : Sources} (h : readSources env r (source :: more) = .ok r') :
    ∃ ls p, lexemes source = .ok ls ∧
      Scope.readBranches { env, source } r.numbering ls = .ok p ∧
      (peek p.rest = .arrow ∧ more = [] ∧
        (∃ c, r' = ⟨r.parts ++ [.ofBranches p.value.1], p.value.2, some c⟩) ∨
        Scope.expectEnd { env, source } p.rest = .ok () ∧
          readSources env { parts := r.parts ++ [.ofBranches p.value.1], numbering := p.value.2 }
            more = .ok r') := by
  rw [readSources] at h
  obtain ⟨ls, hls, h⟩ := exists_of_bind_eq_ok h
  obtain ⟨p, hp, h⟩ := exists_of_bind_eq_ok h
  refine ⟨ls, p, hls, hp, ?_⟩
  dsimp only at h
  split at h
  · next rest hrest =>
    split at h
    · next hmore =>
      obtain ⟨c, -, h⟩ := exists_of_bind_eq_ok h
      obtain ⟨u, -, h⟩ := exists_of_bind_eq_ok h
      cases h
      exact .inl ⟨by rw [hrest]; rfl, List.isEmpty_iff.1 hmore, _, rfl⟩
    · cases h
  · obtain ⟨⟨⟩, hend, h⟩ := exists_of_bind_eq_ok h
    exact .inr ⟨hend, h⟩

/-- **Texts that are read one after the other are read under one numbering.** -/
theorem reads_of_readSources {env : Environment} {sources : List String} {r r' : Sources}
    (h : readSources env r sources = .ok r') (hr : Numbering.Reads env {} r.numbering r.parts) :
    Numbering.Reads env {} r'.numbering r'.parts := by
  induction sources generalizing r with
  | nil =>
    cases h
    exact hr
  | cons source more ih =>
    obtain ⟨ls, p, -, hp, h⟩ := exists_of_readSources_cons h
    have hparts := hr.append
      (Scope.reads_of_readBranches { env, source } r.numbering ls hp).ofBranches
    obtain ⟨-, -, c, rfl⟩ | ⟨-, h⟩ := h
    · exact hparts
    · exact ih h hparts

end Motif
