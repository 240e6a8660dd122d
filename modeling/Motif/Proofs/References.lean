import Motif.Proofs.Declarations
import Motif.Proofs.Expansion
import Motif.Proofs.Lexing
import Mathlib.Logic.Relation

/-!
# Variables that refer to variables

A text refers to the variables in front of its action clause. Reading it expands them, and those
that their texts refer to, so a text that is read refers to no variable that leads back to itself.

* `Mentions`, `Environment.Leads`: a text refers to a variable, directly or through texts of others.
* `Scope.Expands`: the text of a variable is entered from the text that refers to it.
* `Scope.consumes_of_readBranches`: what is read contains no end and no arrow, and the variables in
  it can be read by themselves.
* `Scope.ReadsText.not_cyclic`: a text that is read leads to no variable that leads to itself.
* `Scope.cyclic_of_readBranches`: only such a variable is called recursive.
* **`expansion_ends_and_refuses_cycles`**: the three facts about whole patterns.
-/

open Relation (ReflTransGen)

namespace Motif

/-! ## References -/

/-- A text refers to a variable, not behind an arrow. -/
def Mentions (text name : String) : Prop :=
  ∃ ls before after, lexemes text = .ok ls ∧ symbolsOf ls = before ++ .var name :: after ∧
    .arrow ∉ before

theorem Mentions.mem {text name : String} (h : Mentions text name) {ls : List Lexeme}
    (hls : lexemes text = .ok ls) : .var name ∈ symbolsOf ls := by
  obtain ⟨ls', before, after, hls', hsym, -⟩ := h
  obtain rfl : ls = ls' := Except.ok.inj (hls.symm.trans hls')
  exact hsym ▸ List.mem_append_right before List.mem_cons_self

namespace Environment

/-- A text refers to a variable, or to one whose text leads to it. -/
inductive Leads (env : Environment) : String → String → Prop where
  | mention {text name : String} (h : Mentions text name) : Leads env text name
  | through {text other inner name : String} (h : Mentions text other)
    (hb : env.pattern? other = some (.source inner)) (h' : Leads env inner name) :
    Leads env text name

/-- A variable stands for a text that leads to the variable itself. -/
def Cyclic (env : Environment) (name : String) : Prop :=
  ∃ text, env.pattern? name = some (.source text) ∧ env.Leads text name

variable {env : Environment} {text other inner name : String}

theorem Leads.trans (h : env.Leads text other) (hb : env.pattern? other = some (.source inner))
    (h' : env.Leads inner name) : env.Leads text name := by
  induction h with
  | mention h => exact .through h hb h'
  | through h hb' _ ih => exact .through h hb' (ih hb)

end Environment

namespace Scope

variable {s s' : Scope} {st : Numbering} {ls ls' rest : List Lexeme} {name : String}

/-- The text of a variable is entered from the text that refers to it. -/
inductive Expands : Scope → Scope → Prop where
  | intro {s : Scope} {name text : String} (offset : Nat) (h : Mentions s.source name)
    (hb : s.env.pattern? name = some (.source text)) (hn : s.isExpanding name = false) :
    Expands s (s.entering name offset text)

/-- **Texts are entered inside of each other no more often than there are bindings.** -/
theorem expanding_add_unexpanded_le (h : ReflTransGen Expands s s') :
    s'.expanding.length + s'.unexpanded ≤ s.expanding.length + s.unexpanded := by
  induction h with
  | refl => exact Nat.le_refl _
  | @tail t _ _ h ih =>
    cases h with
    | @intro name text offset _ hb hn =>
      have hlt : (t.entering name offset text).unexpanded < t.unexpanded :=
        unexpanded_entering_lt hb hn
      have hlen : (t.entering name offset text).expanding.length = t.expanding.length + 1 := by
        simp [entering]
      omega

/-! ## What readers pass -/

/-- A variable can be read as an atom. -/
def Resolves (s : Scope) (name : String) : Prop :=
  ∃ st offset rest p, s.readAtom st (⟨.var name, offset⟩ :: rest) = .ok p

/-- What readers may pass: no end, no arrow, and only variables that can be read. -/
def Passes (s : Scope) : Symbol → Prop
  | .eof | .arrow => False
  | .var name => s.Resolves name
  | _ => True

/-- Lexemes are read up to a rest of them. -/
def Consumes (s : Scope) (ls rest : List Lexeme) : Prop :=
  ∃ xs, symbolsOf ls = xs ++ symbolsOf rest ∧ ∀ x ∈ xs, s.Passes x

theorem passes_of_isPlain {x : Symbol} (h : x.isPlain = true) : s.Passes x := by
  cases x <;> trivial

namespace Consumes

theorem refl (ls : List Lexeme) : s.Consumes ls ls := ⟨[], rfl, nofun⟩

theorem trans (h : s.Consumes ls ls') (h' : s.Consumes ls' rest) : s.Consumes ls rest := by
  obtain ⟨xs, hls, hxs⟩ := h
  obtain ⟨ys, hls', hys⟩ := h'
  exact ⟨xs ++ ys, by rw [hls, hls', List.append_assoc], List.forall_mem_append.2 ⟨hxs, hys⟩⟩

theorem cons {l : Lexeme} (hl : s.Passes l.symbol) (h : s.Consumes ls rest) :
    s.Consumes (l :: ls) rest :=
  trans ⟨[l.symbol], rfl, List.forall_mem_singleton.2 hl⟩ h

theorem of_plain {xs : List Symbol} (h : symbolsOf ls = xs ++ symbolsOf rest)
    (hxs : Derivation.Plain xs) : s.Consumes ls rest :=
  ⟨xs, h, fun x hx => passes_of_isPlain (hxs x hx)⟩

end Consumes

theorem consumes_of_expect {x : Symbol} {what : String} (hx : x.isPlain = true)
    {p : Parsed Lexeme Unit ls.length} (h : s.expect x what ls = .ok p) : s.Consumes ls p.rest :=
  .of_plain (reaches_expect.1 ⟨p, h, rfl⟩) (show Derivation.Plain [x] by simpa using hx)

theorem consumes_of_readElement {p : Parsed Lexeme NodePattern ls.length}
    (h : s.readElement ls = .ok p) : s.Consumes ls p.rest := by
  obtain ⟨e, -, hls⟩ := (reaches_readElement ls _).1 ⟨p, h, rfl⟩
  exact .of_plain hls e.plain

theorem consumes_of_readQuantifier {p : Parsed Lexeme (Option Quantifier) (ls.length + 1)}
    (h : s.readQuantifier ls = .ok p) : s.Consumes ls p.rest := by
  obtain ⟨q, hls⟩ := exists_of_reaches_readQuantifier ⟨p, h, rfl⟩
  exact .of_plain hls (Derivation.repetition_plain q)

theorem consumes_of_readMulti {p : Parsed Lexeme Expr ls.length} (h : s.readMulti ls = .ok p) :
    s.Consumes ls p.rest := by
  obtain ⟨b, l, t, -, hls⟩ := exists_of_reaches_readMulti ⟨p, h, rfl⟩
  exact .of_plain (by rw [hls]; simp) (Derivation.run_plain b l t)

theorem rest_of_readAtom_var {offset : Nat} {p : Parsed Lexeme (Expr × Numbering) _}
    (h : s.readAtom st (⟨.var name, offset⟩ :: ls) = .ok p) : p.rest = ls := by
  rw [readAtom_var] at h
  split at h
  · cases h
  · split at h
    · cases h
    · cases h
      rfl
    · obtain ⟨inner, -, h⟩ := exists_of_bind_eq_ok h
      obtain ⟨q, -, h⟩ := exists_of_bind_eq_ok h
      obtain ⟨u, -, h⟩ := exists_of_bind_eq_ok h
      cases h
      rfl

mutual

/-- What is read as alternatives contains no end and no arrow, and only variables that can be
read. -/
theorem consumes_of_readBranches (s : Scope) (st : Numbering) (ls : List Lexeme)
    {p : Parsed Lexeme (List Expr × Numbering) (ls.length + 1)}
    (h : s.readBranches st ls = .ok p) : s.Consumes ls p.rest := by
  rw [readBranches] at h
  obtain ⟨p₁, h₁, h⟩ := exists_of_bind_eq_ok h
  have hitems := consumes_of_readItems s st ls h₁
  split at h
  · next rest hrest =>
    have hlt : rest.length < ls.length := p₁.next_lt hrest
    obtain ⟨q, hq, h⟩ := exists_of_bind_eq_ok h
    cases h
    rw [hrest] at hitems
    exact hitems.trans (.cons trivial (consumes_of_readBranches s _ rest hq))
  · cases h
    exact hitems
termination_by (ls.length, 2)

theorem consumes_of_readItems (s : Scope) (st : Numbering) (ls : List Lexeme)
    {p : Parsed Lexeme (List Expr × Numbering) (ls.length + 1)}
    (h : s.readItems st ls = .ok p) : s.Consumes ls p.rest := by
  rw [readItems] at h
  split at h
  · cases h
    exact .refl ls
  · obtain ⟨p₁, h₁, h⟩ := exists_of_bind_eq_ok h
    obtain ⟨q, hq, h⟩ := exists_of_bind_eq_ok h
    have hlt : q.rest.length < ls.length := p₁.next_rest_lt q
    obtain ⟨r, hr, h⟩ := exists_of_bind_eq_ok h
    cases h
    exact (consumes_of_readAtom s st ls h₁).trans
      ((consumes_of_readQuantifier hq).trans (consumes_of_readItems s _ _ hr))
termination_by (ls.length, 1)

theorem consumes_of_readAtom (s : Scope) (st : Numbering) (ls : List Lexeme)
    {p : Parsed Lexeme (Expr × Numbering) ls.length} (h : s.readAtom st ls = .ok p) :
    s.Consumes ls p.rest := by
  have hatom := h
  rw [readAtom.eq_def] at h
  split at h
  case h_1 | h_2 | h_3 =>
    obtain ⟨p₁, h₁, h⟩ := exists_of_bind_eq_ok h
    obtain ⟨e, he, h⟩ := exists_of_bind_eq_ok h
    cases h
    exact .cons trivial ((consumes_of_readBranches s _ _ h₁).trans (consumes_of_expect rfl he))
  · obtain ⟨p₁, h₁, h⟩ := exists_of_bind_eq_ok h
    cases h
    exact .cons trivial (consumes_of_readMulti h₁)
  · cases h
    exact .cons trivial (.refl _)
  · rw [rest_of_readAtom_var hatom]
    exact .cons ⟨st, _, _, _, hatom⟩ (.refl _)
  case h_7 | h_8 =>
    cases h
    exact .cons trivial (.refl _)
  · split at h
    case h_7 => cases h
    all_goals
      obtain ⟨q, hq, h⟩ := exists_of_bind_eq_ok h
      cases h
      exact consumes_of_readElement hq
  · cases h
termination_by (ls.length, 0)

end

/-! ## Texts that are read -/

theorem Resolves.not_isExpanding (h : s.Resolves name) : s.isExpanding name = false := by
  obtain ⟨st, offset, rest, p, hp⟩ := h
  rw [readAtom_var] at hp
  split at hp
  · cases hp
  · next hn => exact Bool.eq_false_iff.2 hn

/-- The text of a scope is read up to its end or to an arrow. -/
def ReadsText (s : Scope) : Prop :=
  ∃ st ls p, lexemes s.source = .ok ls ∧ s.readBranches st ls = .ok p ∧
    (peek p.rest = .eof ∨ peek p.rest = .arrow)

theorem Resolves.readsText {text : String} (h : s.Resolves name)
    (hb : s.env.pattern? name = some (.source text)) :
    ∃ offset, (s.entering name offset text).ReadsText := by
  obtain ⟨st, offset, rest, p, hp⟩ := h
  rw [readAtom_var, hb] at hp
  split at hp
  · cases hp
  · obtain ⟨inner, hinner, hp⟩ := exists_of_bind_eq_ok hp
    obtain ⟨q, hq, hp⟩ := exists_of_bind_eq_ok hp
    obtain ⟨u, hu, -⟩ := exists_of_bind_eq_ok hp
    exact ⟨offset, st, inner, q, hinner, hq, .inl (peek_of_expectEnd hu)⟩

theorem eq_nil_of_eof {text : String} {xs ys : List Symbol} (h : lexemes text = .ok ls)
    (hsym : symbolsOf ls = xs ++ .eof :: ys) : ys = [] := by
  obtain ⟨init, b, o, rfl, hyields⟩ := Place.exists_yields _ h
  have heof : .eof ∉ symbolsOf init := by
    rintro hmem
    obtain ⟨l, hl, heof⟩ := List.mem_map.1 hmem
    exact hyields.ne_eof l hl heof
  have hsym : xs ++ .eof :: ys = symbolsOf init ++ [.eof] := by rw [← hsym]; simp [symbolsOf]
  obtain ⟨zs, hinit, hrest⟩ | ⟨zs, rfl, hrest⟩ := List.append_eq_append_iff.1 hsym
  · cases zs with
    | nil => exact (List.cons.inj hrest).2
    | cons z zs =>
      rw [hinit, (List.cons.inj hrest).1] at heof
      simp at heof
  · cases zs with
    | nil => exact (List.cons.inj hrest).2.symm
    | cons z zs => simp at hrest

/-- **A text that is read refers to variables that can be read.** -/
theorem ReadsText.resolves (h : s.ReadsText) (hm : Mentions s.source name) : s.Resolves name := by
  obtain ⟨st, ls, p, hls, hp, hend⟩ := h
  obtain ⟨ls', before, after, hls', hsym, harrow⟩ := hm
  obtain rfl : ls = ls' := Except.ok.inj (hls.symm.trans hls')
  obtain ⟨xs, hxs, hpasses⟩ := consumes_of_readBranches s st ls hp
  rw [peek_eq_first] at hend
  rw [hsym] at hxs
  have hvar {zs : List Symbol} : symbolsOf p.rest ≠ .var name :: zs := by
    intro hrest
    rw [hrest] at hend
    obtain hend | hend := hend <;> cases hend
  obtain ⟨ys, rfl, hrest⟩ | ⟨ys, rfl, hrest⟩ := List.append_eq_append_iff.1 hxs
  · -- the variable is part of what was read, since the rest starts otherwise
    cases ys with
    | nil => exact absurd hrest.symm hvar
    | cons y ys =>
      obtain rfl : .var name = y := (List.cons.inj hrest).1
      exact hpasses _ (List.mem_append_right before List.mem_cons_self)
  · cases ys with
    | nil => exact absurd hrest hvar
    | cons y ys =>
      rw [hrest] at hend
      obtain rfl | rfl : y = .eof ∨ y = .arrow := hend
      · rw [List.append_assoc] at hsym
        have := eq_nil_of_eof hls hsym
        simp at this
      · exact absurd (List.mem_append_right xs List.mem_cons_self) harrow

/-- **Where a text that is read leads, a text is read that refers there**, inside of the same
expansions and maybe more. -/
theorem ReadsText.exists_of_leads {env : Environment} (henv : s.env = env) (h : s.ReadsText)
    (hl : env.Leads s.source name) : ∃ s' : Scope, s'.env = env ∧ s'.Resolves name ∧
      ∀ other, s.isExpanding other = true → s'.isExpanding other = true := by
  generalize hsource : s.source = source at hl
  induction hl generalizing s with
  | mention hm => exact ⟨s, henv, h.resolves (hsource ▸ hm), fun _ => id⟩
  | @through text other inner name hm hb _ ih =>
    obtain ⟨offset, hinner⟩ := (h.resolves (hsource ▸ hm)).readsText (henv ▸ hb)
    have henv' : (s.entering other offset inner).env = env := henv
    obtain ⟨s', henv', hname, hexpanding⟩ := ih henv' hinner rfl
    refine ⟨s', henv', hname, fun other' hother => hexpanding other' ?_⟩
    rw [isExpanding_entering, hother, Bool.true_or]

/-- **A text that is read leads to no variable that leads back to itself.** -/
theorem ReadsText.not_cyclic (h : s.ReadsText) (hl : s.env.Leads s.source name) :
    ¬ s.env.Cyclic name := by
  rintro ⟨text, hb, hcycle⟩
  obtain ⟨s₁, henv₁, hname, -⟩ := h.exists_of_leads rfl hl
  obtain ⟨offset, hinner⟩ := hname.readsText (henv₁ ▸ hb)
  have henv : (s₁.entering name offset text).env = s.env := henv₁
  obtain ⟨s₂, -, hname₂, hexpanding⟩ := hinner.exists_of_leads henv hcycle
  have hself : s₂.isExpanding name = true := by
    refine hexpanding name ?_
    rw [isExpanding_entering, beq_self_eq_true, Bool.or_true]
  rw [hname₂.not_isExpanding] at hself
  cases hself

/-! ## Recursive variables -/

/-- Lexemes are what is left of the text of a scope, with no arrow in front of them. -/
def Left (s : Scope) (ls : List Lexeme) : Prop :=
  ∃ all before, lexemes s.source = .ok all ∧ symbolsOf all = before ++ symbolsOf ls ∧
    .arrow ∉ before

namespace Left

theorem of_lexemes (h : lexemes s.source = .ok ls) : s.Left ls := ⟨ls, [], h, rfl, nofun⟩

theorem mentions {offset : Nat} (h : s.Left (⟨.var name, offset⟩ :: ls)) :
    Mentions s.source name := by
  obtain ⟨all, before, hall, hsym, harrow⟩ := h
  exact ⟨all, before, _, hall, hsym, harrow⟩

theorem of_consumes (h : s.Left ls) (hc : s.Consumes ls rest) : s.Left rest := by
  obtain ⟨all, before, hall, hsym, harrow⟩ := h
  obtain ⟨xs, hls, hxs⟩ := hc
  refine ⟨all, before ++ xs, hall, by rw [hsym, hls, List.append_assoc], ?_⟩
  rw [List.mem_append, not_or]
  exact ⟨harrow, fun h => hxs _ h⟩

theorem tail {l : Lexeme} (h : s.Left (l :: ls)) (hl : l.symbol ≠ .arrow) : s.Left ls := by
  obtain ⟨all, before, hall, hsym, harrow⟩ := h
  refine ⟨all, before ++ [l.symbol], hall, by rw [hsym]; simp, ?_⟩
  rw [List.mem_append, not_or]
  exact ⟨harrow, fun h => hl (List.mem_singleton.1 h).symm⟩

end Left

/-- A variable that is being expanded stands for a text that leads wherever the text of the scope
does. -/
def Chained (s : Scope) : Prop :=
  ∀ name, s.isExpanding name = true → ∃ text, s.env.pattern? name = some (.source text) ∧
    ∀ other, s.env.Leads s.source other → s.env.Leads text other

theorem chained_of_expanding_eq_nil (h : s.expanding = []) : s.Chained := by
  intro name hname
  rw [isExpanding, h] at hname
  cases hname

theorem Chained.entering {text : String} (h : s.Chained) (hm : Mentions s.source name)
    (hb : s.env.pattern? name = some (.source text)) (offset : Nat) :
    (s.entering name offset text).Chained := by
  intro name' hname'
  rw [isExpanding_entering, Bool.or_eq_true_iff, beq_iff_eq] at hname'
  obtain hname' | rfl := hname'
  · obtain ⟨text', hb', hleads⟩ := h name' hname'
    exact ⟨text', hb', fun other hother => hleads other (.through hm hb hother)⟩
  · exact ⟨text, hb, fun _ => id⟩

mutual

/-- **Only a variable that leads back to itself is called recursive.** -/
theorem cyclic_of_readBranches (s : Scope) (st : Numbering) (ls : List Lexeme)
    (hleft : s.Left ls) (hs : s.Chained) {name : String} {offset : Nat}
    (h : s.readBranches st ls = .error (.recursiveVariable name offset)) : s.env.Cyclic name := by
  rw [readBranches] at h
  obtain h₁ | ⟨p, h₁, h⟩ := error_or_of_bind_eq_error h
  · exact cyclic_of_readItems s st ls hleft hs h₁
  · have hrest := hleft.of_consumes (consumes_of_readItems s st ls h₁)
    split at h
    · next rest hp =>
      have hlt : rest.length < ls.length := p.next_lt hp
      rw [hp] at hrest
      obtain h | ⟨q, -, h⟩ := error_or_of_bind_eq_error h
      · exact cyclic_of_readBranches s _ rest (hrest.tail nofun) hs h
      · cases h
    · cases h
termination_by (s.unexpanded, ls.length, 2)

theorem cyclic_of_readItems (s : Scope) (st : Numbering) (ls : List Lexeme)
    (hleft : s.Left ls) (hs : s.Chained) {name : String} {offset : Nat}
    (h : s.readItems st ls = .error (.recursiveVariable name offset)) : s.env.Cyclic name := by
  rw [readItems] at h
  split at h
  · cases h
  · obtain h₁ | ⟨p, h₁, h⟩ := error_or_of_bind_eq_error h
    · exact cyclic_of_readAtom s st ls hleft hs h₁
    obtain h₂ | ⟨q, h₂, h⟩ := error_or_of_bind_eq_error h
    · cases local_readQuantifier.isLocal _ h₂
    have hlt : q.rest.length < ls.length := p.next_rest_lt q
    have hrest := hleft.of_consumes ((consumes_of_readAtom s st ls h₁).trans
      (consumes_of_readQuantifier h₂))
    obtain h₃ | ⟨r, -, h⟩ := error_or_of_bind_eq_error h
    · exact cyclic_of_readItems s _ _ hrest hs h₃
    · cases h
termination_by (s.unexpanded, ls.length, 1)

theorem cyclic_of_readAtom (s : Scope) (st : Numbering) (ls : List Lexeme)
    (hleft : s.Left ls) (hs : s.Chained) {name : String} {offset : Nat}
    (h : s.readAtom st ls = .error (.recursiveVariable name offset)) : s.env.Cyclic name := by
  rw [readAtom.eq_def] at h
  split at h
  case h_1 | h_2 | h_3 =>
    obtain h₁ | ⟨p, -, h⟩ := error_or_of_bind_eq_error h
    · exact cyclic_of_readBranches s _ _ (hleft.tail nofun) hs h₁
    · cases (local_expect.bind_ok).isLocal _ h
  · cases (local_readMulti.bind_ok).isLocal _ h
  · cases h
  · next name' offset' rest =>
    split at h
    · next hn =>
      cases h
      obtain ⟨text, hb, hleads⟩ := hs name hn
      exact ⟨text, hb, hleads name (.mention hleft.mentions)⟩
    · next hn =>
      split at h
      · cases h
      · cases h
      · next text hb =>
        have : (s.entering name' offset' text).unexpanded < s.unexpanded :=
          unexpanded_entering_lt hb (Bool.eq_false_iff.2 hn)
        obtain h | ⟨inner, hinner, h⟩ := error_or_of_bind_eq_error h
        · cases (local_lexemes text).isLocal _ h
        obtain h | ⟨p, -, h⟩ := error_or_of_bind_eq_error h
        · exact cyclic_of_readBranches (s.entering name' offset' text) st inner
            (.of_lexemes hinner) (hs.entering hleft.mentions hb offset') h
        · cases (local_expectEnd.bind_ok).isLocal _ h
  · cases h
  · cases h
  · split at h
    case h_7 => cases (local_fault _ _).isLocal _ h
    all_goals cases (local_readElement _).bind_ok.isLocal _ h
  · cases (local_fault _ _).isLocal _ h
termination_by (s.unexpanded, ls.length, 0)

end

end Scope

/-! ## Patterns -/

section Patterns

variable {env : Environment} {sources : List String} {r : Sources}

theorem readsText_of_readSources {r' : Sources} (h : readSources env r sources = .ok r') :
    ∀ source ∈ sources, Scope.ReadsText { env, source } := by
  induction sources generalizing r with
  | nil => nofun
  | cons source more ih =>
    obtain ⟨ls, p, hls, hp, ⟨harrow, rfl, -⟩ | ⟨hend, h⟩⟩ := exists_of_readSources_cons h
    · exact List.forall_mem_singleton.2 ⟨_, ls, p, hls, hp, .inr harrow⟩
    · exact List.forall_mem_cons.2
        ⟨⟨_, ls, p, hls, hp, .inl (Scope.peek_of_expectEnd hend)⟩, ih h⟩

theorem cyclic_of_readSources {name : String} {offset : Nat}
    (h : readSources env r sources = .error (.recursiveVariable name offset)) :
    env.Cyclic name := by
  induction sources generalizing r with
  | nil => cases h
  | cons source more ih =>
    rw [readSources] at h
    obtain h | ⟨ls, hls, h⟩ := error_or_of_bind_eq_error h
    · cases (local_lexemes source).isLocal _ h
    obtain h | ⟨p, -, h⟩ := error_or_of_bind_eq_error h
    · exact Scope.cyclic_of_readBranches { env, source } _ ls (.of_lexemes hls)
        (Scope.chained_of_expanding_eq_nil rfl) h
    dsimp only at h
    split at h
    · split at h
      · cases (Scope.local_readActionClause.bind fun _ =>
          Scope.local_expectEnd.bind_ok).isLocal _ h
      · cases (Scope.local_fault _ _).isLocal _ h
    · obtain h | ⟨u, -, h⟩ := error_or_of_bind_eq_error h
      · cases Scope.local_expectEnd.isLocal _ h
      · exact ih h

end Patterns

/-- **Variables are expanded to an end, and those that lead back to themselves are refused.** -/
theorem expansion_ends_and_refuses_cycles (env : Environment) (sources : List String) :
    (∀ source ∈ sources, ∀ s, ReflTransGen Scope.Expands { env, source } s →
      s.expanding.length + s.unexpanded ≤ env.patterns.length) ∧
    (∀ p, compileAll env sources = .ok p → ∀ source ∈ sources, ∀ name,
      env.Leads source name → ¬ env.Cyclic name) ∧
    ∀ name offset, compileAll env sources = .error (.recursiveVariable name offset) →
      env.Cyclic name := by
  refine ⟨fun source _ s hs => ?_, fun p hp source hsource name hname => ?_,
    fun name offset h => ?_⟩
  · have h := Scope.expanding_add_unexpanded_le hs
    have hall : Scope.unexpanded { env, source } = env.patterns.length := by
      simp [Scope.unexpanded, Scope.isExpanding]
    rw [hall] at h
    simpa using h
  · obtain ⟨r, hr, -⟩ := exists_sources_of_compileAll hp
    exact (readsText_of_readSources hr source hsource).not_cyclic hname
  · obtain h | ⟨r, -, h | ⟨c, -, h⟩⟩ := error_of_compileAll h
    · exact cyclic_of_readSources h
    · obtain ⟨_, -, -, heq⟩ | ⟨_, _, heq, -⟩ := Numbering.error_of_validate h <;> cases heq
    · obtain ⟨_, heq⟩ | ⟨_, heq⟩ := Numbering.error_of_target h <;> cases heq

end Motif
