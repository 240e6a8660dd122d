import Motif.Proofs.Blame
import Motif.Proofs.Numbering
import Motif.Proofs.Offsets

/-!
# Where groups are opened and referred to

A reader goes through a text, into its groups, and hands out the numbers of groups on the way. So a
group with a name was opened by a lexeme of the text: by its own opening, or by the variable that
stands for what it is part of, at any depth. The numbering remembers the offset of that lexeme.

References are remembered with an offset, too, but those inside the text of a variable keep the one
that they have there.

* `Pattern.NumbersNames`: groups with names have numbers.
* `Pattern.Compiled.numbersNames`: so it is in compiled patterns.
* `Scope.Next`, `Scope.Comes`: how a reader goes through a text.
* `Scope.Opens`: the lexeme that opens a group.
* `Scope.Refers`: the references that are made in a text or in those of its variables.
* **`Scope.accounts_of_readBranches`**: what is remembered of groups and references.
-/

open Relation (ReflTransGen)

namespace Motif

/-! ## Groups with names in trees -/

namespace Expr

variable {e c : Expr} {es : List Expr} {name : String} {id : Option Nat}

theorem not_named_of_children_eq_nil (hc : e.children = []) : ¬ e.Named name id := by
  rw [named_iff, hc]
  rintro (⟨c, rfl⟩ | ⟨c, hc, -⟩)
  · cases hc
  · cases hc

theorem named_sequence : (sequence es).Named name id ↔ ∃ c ∈ es, c.Named name id := by
  rw [named_iff]
  simp [children]

theorem named_choice : (choice es).Named name id ↔ ∃ c ∈ es, c.Named name id := by
  rw [named_iff]
  simp [children]

theorem named_ofItems : (ofItems es).Named name id ↔ ∃ c ∈ es, c.Named name id := by
  match es with
  | [] | _ :: _ :: _ => exact named_sequence
  | [c] => simp [ofItems]

theorem named_ofBranches : (ofBranches es).Named name id ↔ ∃ c ∈ es, c.Named name id := by
  match es with
  | [] | _ :: _ :: _ => exact named_choice
  | [c] => simp [ofBranches]

theorem named_iterate {min : Nat} {max : Option Nat} {greedy : Bool} :
    (iterate c min max greedy).Named name id ↔ c.Named name id := by
  rw [named_iff]
  simp [children]

theorem named_action {action : String} {target : Nat} :
    (Expr.action c action target).Named name id ↔ c.Named name id := by
  rw [named_iff]
  simp [children]

theorem named_group {id' : Option Nat} {name' : Option String} :
    (group c id' name').Named name id ↔ (id' = id ∧ name' = some name) ∨ c.Named name id := by
  rw [named_iff]
  simp [children]

theorem named_quantified {q : Option Scope.Quantifier} :
    (Scope.quantified c q).Named name id ↔ c.Named name id := by
  cases q with
  | none => rfl
  | some q => exact named_iterate

theorem exists_named_of_shiftGroups {k : Nat} (h : (e.shiftGroups k).Named name id) :
    ∃ id', e.Named name id' ∧ id = id'.map (· + k) := by
  have hchildren (e : Expr) : (e.shiftGroups k).children = e.children.map (shiftGroups k) := by
    have hall (es : List Expr) : shiftAll k es = es.map (shiftGroups k) := by
      induction es with
      | nil => rfl
      | cons e es ih => rw [shiftAll, ih, List.map_cons]
    cases e with
    | sequence es | choice es => exact hall es
    | _ => rfl
  obtain ⟨a, c, hc⟩ := h
  induction a generalizing e with
  | nil =>
    cases e with
    | group e id' name' =>
      cases hc
      exact ⟨id', named_group.2 (.inl ⟨rfl, rfl⟩), rfl⟩
    | _ => cases hc
  | cons i a ih =>
    rw [partAt, hchildren, List.getElem?_map, Option.bind_map, Option.bind_eq_some_iff] at hc
    obtain ⟨child, hchild, hc⟩ := hc
    obtain ⟨id', hid', hid⟩ := ih hc
    exact ⟨id', hid'.of_child (List.mem_of_getElem? hchild), hid⟩

end Expr

namespace Pattern

/-- Groups with names have numbers of their own, different from that of the whole match. -/
def NumbersNames (p : Pattern) : Prop :=
  ∀ name id, p.root.Named name id → ∃ g, id = some g ∧ 1 ≤ g ∧ g < p.groupCount

theorem named_body {p : Pattern} {name : String} {id : Option Nat} (h : p.body.Named name id) :
    p.root.Named name id := by
  unfold body at h
  split at h
  · next hroot =>
    rw [hroot]
    exact Expr.named_action.2 h
  · exact h

end Pattern

/-- Compiled patterns that variables stand for have numbers for groups with names. -/
def Environment.NumbersNames (env : Environment) : Prop :=
  ∀ v p, env.pattern? v = some (.compiled p) → p.NumbersNames

/-! ## Numbers and sites -/

namespace Numbering

variable {env : Environment} {st st' : Numbering} {es : List Expr} {site g k : Nat}

theorem lookup_openGroup_self : (st.openGroup site).sites.lookup st.next = some site :=
  List.lookup_cons_self

theorem lookup_openGroup_of_lt (h : g < st.next) :
    (st.openGroup site).sites.lookup g = st.sites.lookup g := by
  have hne : (g == st.next) = false := beq_eq_false_iff_ne.2 (Nat.ne_of_lt h)
  rw [openGroup, List.lookup_cons, hne]

theorem lookup_openGroups_of_lt (h : g < st.next) :
    (st.openGroups site k).sites.lookup g = st.sites.lookup g := by
  induction k generalizing st with
  | zero => rfl
  | succ k ih =>
    have hlt : g < (st.openGroup site).next := Nat.lt_succ_of_lt h
    rw [openGroups, ih hlt, lookup_openGroup_of_lt h]

theorem lookup_openGroups (h : st.next ≤ g) (hlt : g < st.next + k) :
    (st.openGroups site k).sites.lookup g = some site := by
  induction k generalizing st with
  | zero => omega
  | succ k ih =>
    rw [openGroups]
    obtain rfl | hne := Nat.eq_or_lt_of_le h
    · have hself : st.next < (st.openGroup site).next := Nat.lt_succ_self _
      rw [lookup_openGroups_of_lt hself, lookup_openGroup_self]
    · have hnext : (st.openGroup site).next = st.next + 1 := rfl
      exact ih hne (by omega)

namespace Reads

theorem lookup_sites (h : Reads env st st' es) (hg : g < st.next) :
    st'.sites.lookup g = st.sites.lookup g := by
  induction h with
  | nil | node | multi | anchor | backref => rfl
  | cons h _ ih ih' => rw [ih' (Nat.lt_of_lt_of_le hg h.next_le), ih hg]
  | sequence _ ih | choice _ ih | iterate _ _ _ _ ih | group _ ih => exact ih hg
  | capture _ _ ih | named _ _ _ ih =>
    exact (ih (Nat.lt_succ_of_lt hg)).trans (lookup_openGroup_of_lt hg)
  | inline => exact lookup_openGroups_of_lt hg

theorem numbers_inline {p : Pattern} (hp : p.NumbersNames) (hst : 1 ≤ st.next) {name : String}
    {id : Option Nat} (h : (st.inline p site).1.Named name id) :
    ∃ g, id = some g ∧ st.next ≤ g ∧ g < st.next + (p.groupCount - 1) := by
  obtain ⟨id', hid', rfl⟩ := Expr.exists_named_of_shiftGroups h
  obtain ⟨g, rfl, hpos, hlt⟩ := hp name id' (Pattern.named_body hid')
  exact ⟨g + (st.next - 1), rfl, by omega, by omega⟩

/-- **Groups with names are numbered from the next number on.** -/
theorem numbers (henv : env.NumbersNames) (h : Reads env st st' es) (hst : 1 ≤ st.next) :
    ∀ e ∈ es, ∀ name id, e.Named name id → ∃ g, id = some g ∧ st.next ≤ g ∧ g < st'.next := by
  induction h with
  | nil => nofun
  | cons h h' ih ih' =>
    refine List.forall_mem_cons.2 ⟨fun name id hname => ?_, fun e he name id hname => ?_⟩
    · obtain ⟨g, hg, hle, hlt⟩ := ih hst _ (List.mem_singleton_self _) name id hname
      exact ⟨g, hg, hle, Nat.lt_of_lt_of_le hlt h'.next_le⟩
    · obtain ⟨g, hg, hle, hlt⟩ := ih' (Nat.le_trans hst h.next_le) e he name id hname
      exact ⟨g, hg, Nat.le_trans h.next_le hle, hlt⟩
  | node | multi | anchor | backref =>
    exact List.forall_mem_singleton.2 fun _ _ h =>
      absurd h (Expr.not_named_of_children_eq_nil rfl)
  | sequence _ ih =>
    refine List.forall_mem_singleton.2 fun name id h => ?_
    obtain ⟨c, hc, h⟩ := Expr.named_sequence.1 h
    exact ih hst c hc name id h
  | choice _ ih =>
    refine List.forall_mem_singleton.2 fun name id h => ?_
    obtain ⟨c, hc, h⟩ := Expr.named_choice.1 h
    exact ih hst c hc name id h
  | iterate _ _ _ _ ih =>
    exact List.forall_mem_singleton.2 fun name id h =>
      ih hst _ (List.mem_singleton_self _) name id (Expr.named_iterate.1 h)
  | group _ ih =>
    exact List.forall_mem_singleton.2 fun name id h =>
      ih hst _ (List.mem_singleton_self _) name id ((Expr.named_group.1 h).resolve_left nofun)
  | capture _ _ ih =>
    refine List.forall_mem_singleton.2 fun name id h => ?_
    obtain ⟨g, hg, hle, hlt⟩ := ih (Nat.le_succ_of_le hst) _ (List.mem_singleton_self _) name id
      ((Expr.named_group.1 h).resolve_left nofun)
    exact ⟨g, hg, Nat.le_of_succ_le hle, hlt⟩
  | named _ _ hread ih =>
    refine List.forall_mem_singleton.2 fun name id h => ?_
    obtain ⟨rfl, -⟩ | h := Expr.named_group.1 h
    · exact ⟨_, rfl, Nat.le_refl _, hread.next_le⟩
    · obtain ⟨g, hg, hle, hlt⟩ := ih (Nat.le_succ_of_le hst) _ (List.mem_singleton_self _) name id h
      exact ⟨g, hg, Nat.le_of_succ_le hle, hlt⟩
  | inline st site hp =>
    refine List.forall_mem_singleton.2 fun name id h => ?_
    obtain ⟨g, hg, hle, hlt⟩ := numbers_inline (henv _ _ hp) hst h
    exact ⟨g, hg, hle, by rwa [Numbering.inline, openGroups_next]⟩

end Reads

end Numbering

theorem Pattern.numbersNames_of_compileAll {env : Environment} {sources : List String} {p : Pattern}
    (henv : env.NumbersNames) (h : Motif.compileAll env sources = .ok p) : p.NumbersNames := by
  obtain ⟨st, es, hr, -, -, hcount, hroot⟩ := exists_of_compileAll h
  intro name id hname
  have hes : ∃ e ∈ es, e.Named name id := by
    obtain hroot | ⟨_, _, -, hroot⟩ := hroot
    · exact Expr.named_ofItems.1 (hroot ▸ hname)
    · exact Expr.named_ofItems.1 (Expr.named_action.1 (hroot ▸ hname))
  obtain ⟨e, he, hname⟩ := hes
  rw [hcount]
  exact hr.numbers henv (Nat.le_refl 1) e he name id hname

theorem Pattern.Compiled.numbersNames {p : Pattern} (h : p.Compiled) : p.NumbersNames := by
  induction h with
  | compileAll _ h ih => exact numbersNames_of_compileAll ih h
  | withScore _ _ ih => exact ih

/-! ## The way through a text -/

namespace Scope

variable {s : Scope} {st st' : Numbering} {ls ls' : List Lexeme} {a b : Numbering × List Lexeme}

/-- A reader goes from a place to the next one: behind an atom and its quantifier, behind a bar, or
into a group. -/
inductive Next (s : Scope) : Numbering × List Lexeme → Numbering × List Lexeme → Prop where
  | atom {st : Numbering} {ls : List Lexeme} {p : Parsed Lexeme (Expr × Numbering) ls.length}
    {q : Parsed Lexeme (Option Quantifier) (p.rest.length + 1)} (hp : s.readAtom st ls = .ok p)
    (hq : s.readQuantifier p.rest = .ok q) : Next s (st, ls) (p.value.2, q.rest)
  | branch (st : Numbering) (o : Nat) (ls : List Lexeme) : Next s (st, ⟨.pipe, o⟩ :: ls) (st, ls)
  | capture (st : Numbering) (o : Nat) (ls : List Lexeme) :
    Next s (st, ⟨.lparen, o⟩ :: ls) (st.openGroup (s.site o), ls)
  | nonCapture (st : Numbering) (o : Nat) (ls : List Lexeme) :
    Next s (st, ⟨.nonCapture, o⟩ :: ls) (st, ls)
  | named (st : Numbering) (name : String) (o : Nat) (ls : List Lexeme) :
    Next s (st, ⟨.namedGroup name, o⟩ :: ls) ((st.openGroup (s.site o)).bind name st.next, ls)

/-- A reader comes from one place to another. -/
abbrev Comes (s : Scope) : Numbering × List Lexeme → Numbering × List Lexeme → Prop :=
  ReflTransGen s.Next

theorem Next.suffix (h : s.Next a b) : b.2 <:+ a.2 := by
  cases h with
  | @atom st ls p q hp hq =>
    exact (leaves_readQuantifier.suffix q hq).trans ((leaves_readAtom s st ls).suffix p hp)
  | branch | capture | nonCapture | named => exact List.suffix_cons _ _

theorem Comes.suffix (h : s.Comes a b) : b.2 <:+ a.2 := by
  induction h with
  | refl => exact List.suffix_rfl
  | tail _ h ih => exact h.suffix.trans ih

theorem comes_of_readItems (s : Scope) (st : Numbering) (ls : List Lexeme)
    {p : Parsed Lexeme (List Expr × Numbering) (ls.length + 1)} (h : s.readItems st ls = .ok p) :
    s.Comes (st, ls) (p.value.2, p.rest) := by
  rw [readItems] at h
  split at h
  · cases h
    exact .refl
  · obtain ⟨p₁, h₁, h⟩ := exists_of_bind_eq_ok h
    obtain ⟨q, hq, h⟩ := exists_of_bind_eq_ok h
    have hlt : q.rest.length < ls.length := p₁.next_rest_lt q
    obtain ⟨r, hr, h⟩ := exists_of_bind_eq_ok h
    cases h
    exact .head (.atom h₁ hq) (comes_of_readItems s _ q.rest hr)
termination_by ls.length

/-! ## Groups and references -/

/-- A lexeme opens a group with a name: as the group itself, or as a variable that stands for an
expression with the group. -/
inductive Opens (s : Scope) (a : Numbering × List Lexeme) (name : String) : Nat → Lexeme → Prop where
  | group {st : Numbering} {o : Nat} {ls : List Lexeme}
    (h : s.Comes a (st, ⟨.namedGroup name, o⟩ :: ls)) : Opens s a name st.next ⟨.namedGroup name, o⟩
  | expanded {st : Numbering} {v : String} {o g : Nat} {ls : List Lexeme}
    {p : Parsed Lexeme (Expr × Numbering) (ls.length + 1)} (h : s.Comes a (st, ⟨.var v, o⟩ :: ls))
    (hp : s.readAtom st (⟨.var v, o⟩ :: ls) = .ok p) (hg : p.value.1.Named name (some g)) :
    Opens s a name g ⟨.var v, o⟩

/-- A reference with its offset is made in a text, which is the one at hand or that of a variable; its
scope is `t`. -/
inductive Refers : Scope → Numbering × List Lexeme → Scope → Nat × Nat → Prop where
  | here {s : Scope} {a : Numbering × List Lexeme} {st : Numbering} {id o : Nat} {ls : List Lexeme}
    (h : s.Comes a (st, ⟨.backref id, o⟩ :: ls)) : Refers s a s (id, o)
  | inside {s t : Scope} {a : Numbering × List Lexeme} {st : Numbering} {v text : String} {o : Nat}
    {ls inner : List Lexeme} {ref : Nat × Nat} (h : s.Comes a (st, ⟨.var v, o⟩ :: ls))
    (hb : s.env.pattern? v = some (.source text)) (hls : lexemes text = .ok inner)
    (h' : Refers (s.entering v o text) (st, inner) t ref) : Refers s a t ref

theorem Opens.of_comes {name : String} {g : Nat} {l : Lexeme} (hab : s.Comes a b)
    (h : s.Opens b name g l) : s.Opens a name g l := by
  cases h with
  | group h => exact .group (hab.trans h)
  | expanded h hp hg => exact .expanded (hab.trans h) hp hg

theorem Refers.of_comes {t : Scope} {ref : Nat × Nat} (hab : s.Comes a b) (h : s.Refers b t ref) :
    s.Refers a t ref := by
  cases h with
  | here h => exact .here (hab.trans h)
  | inside h hb hls h' => exact .inside (hab.trans h) hb hls h'

theorem Opens.mem {name : String} {g : Nat} {l : Lexeme} (h : s.Opens a name g l) :
    l ∈ a.2 ∧ l.symbol.isGrouping = true := by
  cases h with
  | group h => exact ⟨h.suffix.mem List.mem_cons_self, rfl⟩
  | expanded h => exact ⟨h.suffix.mem List.mem_cons_self, rfl⟩

theorem site_entering (name : String) (o : Nat) (text : String) (o' : Nat) :
    (s.entering name o text).site o' = s.site o := by
  cases h : s.expanding with
  | nil => simp [site, entering, h]
  | cons b more => simp [site, entering, h]

/-- A reference that is not made in the text at hand is made below a variable of it. -/
theorem Refers.eq_or_exists {t : Scope} {ref : Nat × Nat} (h : s.Refers a t ref) :
    t = s ∨ ∃ st v o ls, s.Comes a (st, ⟨.var v, o⟩ :: ls) ∧ ∀ o', t.site o' = s.site o := by
  induction h with
  | here => exact .inl rfl
  | inside h _ _ _ ih =>
    refine .inr ⟨_, _, _, _, h, fun o' => ?_⟩
    obtain rfl | ⟨_, _, _, _, -, hsite⟩ := ih
    · rw [site_entering]
    · rw [hsite, site_entering]

theorem Refers.standsIn {t : Scope} {ref : Nat × Nat} {all : List Lexeme}
    (hall : lexemes s.source = .ok all) (ha : a.2 <:+ all) (h : s.Refers a t ref) :
    (⟨.backref ref.1, ref.2⟩ : Lexeme).StandsIn t.source := by
  induction h generalizing all with
  | here h =>
    exact standsIn_of_mem_lexemes hall (ha.mem (h.suffix.mem List.mem_cons_self)) rfl
  | inside _ _ hinner _ ih => exact ih hinner List.suffix_rfl

/-! ## What is remembered -/

/-- What is remembered of groups and references is where they come from. -/
structure Accounts (s : Scope) (a : Numbering × List Lexeme) (es : List Expr) (st' : Numbering) :
    Prop where
  named : s.env.NumbersNames → 1 ≤ a.1.next → ∀ e ∈ es, ∀ name g, e.Named name (some g) →
    ∃ l, s.Opens a name g l ∧ st'.sites.lookup g = some (s.site l.offset)
  backrefs : ∀ ref ∈ st'.backrefs, ref ∈ a.1.backrefs ∨ ∃ t, s.Refers a t ref

namespace Accounts

variable {st₁ st₂ : Numbering} {e e' : Expr} {es es' : List Expr}

theorem refl (h : ∀ e ∈ es, ∀ name id, ¬ e.Named name id) : s.Accounts a es a.1 where
  named _ _ e he name _ hg := absurd hg (h e he name _)
  backrefs _ := .inl

theorem congr (h : s.Accounts a es st')
    (hes : ∀ name id, (∃ e ∈ es', e.Named name id) → ∃ e ∈ es, e.Named name id) :
    s.Accounts a es' st' where
  named henv ha e he name g hg := by
    obtain ⟨e', he', hg⟩ := hes name _ ⟨e, he, hg⟩
    exact h.named henv ha e' he' name g hg
  backrefs := h.backrefs

theorem ofItems (h : s.Accounts a es st') : s.Accounts a [.ofItems es] st' :=
  h.congr fun name id => by simp [Expr.named_ofItems]

theorem ofBranches (h : s.Accounts a es st') : s.Accounts a [.ofBranches es] st' :=
  h.congr fun name id => by simp [Expr.named_ofBranches]

theorem quantified (h : s.Accounts a [e] st') (q : Option Quantifier) :
    s.Accounts a [Scope.quantified e q] st' :=
  h.congr fun name id => by simp [Expr.named_quantified]

theorem unnamed (h : s.Accounts a [e] st') (id : Option Nat) :
    s.Accounts a [.group e id none] st' :=
  h.congr fun name id => by simp [Expr.named_group]

theorem of_comes (h : s.Accounts b es st') (hab : s.Comes a b) (hnext : a.1.next ≤ b.1.next)
    (hrefs : b.1.backrefs = a.1.backrefs) : s.Accounts a es st' where
  named henv ha e he name g hg := by
    obtain ⟨l, hl, hsite⟩ := h.named henv (Nat.le_trans ha hnext) e he name g hg
    exact ⟨l, hl.of_comes hab, hsite⟩
  backrefs ref href := by
    rw [← hrefs]
    exact (h.backrefs ref href).imp_right fun ⟨t, ht⟩ => ⟨t, ht.of_comes hab⟩

theorem cons (h : s.Accounts a [e] b.1) (hr : Numbering.Reads s.env a.1 b.1 [e])
    (hab : s.Comes a b) (h' : s.Accounts b es st') (hr' : Numbering.Reads s.env b.1 st' es) :
    s.Accounts a (e :: es) st' where
  named henv ha := by
    refine List.forall_mem_cons.2 ⟨fun name g hg => ?_, fun e' he' name g hg => ?_⟩
    · obtain ⟨l, hl, hsite⟩ := h.named henv ha e (List.mem_singleton_self e) name g hg
      obtain ⟨g', ⟨⟩, -, hlt⟩ := hr.numbers henv ha e (List.mem_singleton_self e) name _ hg
      exact ⟨l, hl, (hr'.lookup_sites hlt).trans hsite⟩
    · obtain ⟨l, hl, hsite⟩ := h'.named henv (Nat.le_trans ha hr.next_le) e' he' name g hg
      exact ⟨l, hl.of_comes hab, hsite⟩
  backrefs ref href := by
    obtain href | ⟨t, ht⟩ := h'.backrefs ref href
    · exact h.backrefs ref href
    · exact .inr ⟨t, ht.of_comes hab⟩

theorem named_group {name : String} {o : Nat}
    (h : s.Accounts ((st.openGroup (s.site o)).bind name st.next, ls) [e] st')
    (hr : Numbering.Reads s.env ((st.openGroup (s.site o)).bind name st.next) st' [e]) :
    s.Accounts (st, ⟨.namedGroup name, o⟩ :: ls) [.group e (some st.next) (some name)] st' where
  named henv ha := by
    have hinner := h.of_comes (.single (.named st name o ls)) (Nat.le_succ _) rfl
    refine List.forall_mem_singleton.2 fun name' g hg => ?_
    obtain ⟨hid, hname⟩ | hg := Expr.named_group.1 hg
    · cases hid
      cases hname
      refine ⟨⟨.namedGroup name, o⟩, .group .refl, ?_⟩
      exact (hr.lookup_sites (Nat.lt_succ_self _)).trans Numbering.lookup_openGroup_self
    · exact hinner.named henv ha e (List.mem_singleton_self e) name' g hg
  backrefs := (h.of_comes (.single (.named st name o ls)) (Nat.le_succ _) rfl).backrefs

theorem backref (st : Numbering) (id o : Nat) (ls : List Lexeme) :
    s.Accounts (st, ⟨.backref id, o⟩ :: ls) [.backref id] (st.refer id o) where
  named _ _ := List.forall_mem_singleton.2 fun _ _ h =>
    absurd h (Expr.not_named_of_children_eq_nil rfl)
  backrefs ref href := by
    refine (List.mem_append.1 href).imp_right fun href => ?_
    rw [List.mem_singleton.1 href]
    exact ⟨s, .here .refl⟩

theorem inline {v : String} {p : Pattern} {o : Nat}
    (hp : s.env.pattern? v = some (.compiled p))
    (hatom : s.readAtom st (⟨.var v, o⟩ :: ls) = .ok ⟨st.inline p (s.site o), ls, length_lt_next⟩) :
    s.Accounts (st, ⟨.var v, o⟩ :: ls) [(st.inline p (s.site o)).1]
      (st.inline p (s.site o)).2 where
  named henv ha := by
    refine List.forall_mem_singleton.2 fun name g hg => ⟨⟨.var v, o⟩, .expanded .refl hatom hg, ?_⟩
    obtain ⟨g', ⟨⟩, hle, hlt⟩ := Numbering.Reads.numbers_inline (henv v p hp) ha hg
    exact Numbering.lookup_openGroups hle hlt
  backrefs ref href := .inl (by rwa [Numbering.inline, Numbering.openGroups_backrefs] at href)

/-- Groups in the text of a variable are opened by the variable, as far as the text around it is
concerned. -/
theorem entering {v text : String} {o : Nat} {inner : List Lexeme}
    (hb : s.env.pattern? v = some (.source text)) (hinner : lexemes text = .ok inner)
    (h : (s.entering v o text).Accounts (st, inner) [e] st')
    (hatom : s.readAtom st (⟨.var v, o⟩ :: ls) = .ok ⟨(e, st'), ls, length_lt_next⟩) :
    s.Accounts (st, ⟨.var v, o⟩ :: ls) [e] st' where
  named henv ha := by
    refine List.forall_mem_singleton.2 fun name g hg => ⟨⟨.var v, o⟩, .expanded .refl hatom hg, ?_⟩
    obtain ⟨l, -, hsite⟩ := h.named henv ha e (List.mem_singleton_self e) name g hg
    rw [hsite, site_entering]
  backrefs ref href := (h.backrefs ref href).imp_right fun ⟨t, ht⟩ => ⟨t, .inside .refl hb hinner ht⟩

end Accounts

mutual

/-- **What is remembered of groups and references is where they come from.** -/
theorem accounts_of_readBranches (s : Scope) (st : Numbering) (ls : List Lexeme)
    {p : Parsed Lexeme (List Expr × Numbering) (ls.length + 1)}
    (h : s.readBranches st ls = .ok p) : s.Accounts (st, ls) p.value.1 p.value.2 := by
  rw [readBranches] at h
  obtain ⟨p₁, h₁, h⟩ := exists_of_bind_eq_ok h
  have hitems := (accounts_of_readItems s st ls h₁).ofItems
  split at h
  · next o rest hrest =>
    have hlt : rest.length < ls.length := p₁.next_lt hrest
    obtain ⟨q, hq, h⟩ := exists_of_bind_eq_ok h
    cases h
    have hcomes := comes_of_readItems s st ls h₁
    rw [hrest] at hcomes
    exact hitems.cons (b := (p₁.value.2, rest)) (reads_of_readItems s st ls h₁).ofItems
      (hcomes.tail (.branch ..)) (accounts_of_readBranches s _ rest hq)
      (reads_of_readBranches s _ rest hq)
  · cases h
    exact hitems
termination_by (s.unexpanded, ls.length, 2)

theorem accounts_of_readItems (s : Scope) (st : Numbering) (ls : List Lexeme)
    {p : Parsed Lexeme (List Expr × Numbering) (ls.length + 1)}
    (h : s.readItems st ls = .ok p) : s.Accounts (st, ls) p.value.1 p.value.2 := by
  rw [readItems] at h
  split at h
  · cases h
    exact .refl (a := (st, ls)) (List.forall_mem_nil _)
  · obtain ⟨p₁, h₁, h⟩ := exists_of_bind_eq_ok h
    obtain ⟨q, hq, h⟩ := exists_of_bind_eq_ok h
    have hlt : q.rest.length < ls.length := p₁.next_rest_lt q
    obtain ⟨r, hr, h⟩ := exists_of_bind_eq_ok h
    cases h
    exact ((accounts_of_readAtom s st ls h₁).quantified _).cons (b := (p₁.value.2, q.rest))
      ((reads_of_readAtom s st ls h₁).quantified _) (.single (.atom h₁ hq))
      (accounts_of_readItems s _ q.rest hr) (reads_of_readItems s _ q.rest hr)
termination_by (s.unexpanded, ls.length, 1)

theorem accounts_of_readAtom (s : Scope) (st : Numbering) (ls : List Lexeme)
    {p : Parsed Lexeme (Expr × Numbering) ls.length}
    (h : s.readAtom st ls = .ok p) : s.Accounts (st, ls) [p.value.1] p.value.2 := by
  have hatom := h
  have hleaf {e : Expr} (he : e.children = []) : s.Accounts (st, ls) [e] st :=
    .refl (a := (st, ls)) (List.forall_mem_singleton.2 fun _ _ =>
      Expr.not_named_of_children_eq_nil he)
  rw [readAtom.eq_def] at h
  split at h
  · -- groups
    obtain ⟨p₁, h₁, h⟩ := exists_of_bind_eq_ok h
    obtain ⟨e, he, h⟩ := exists_of_bind_eq_ok h
    cases h
    exact (((accounts_of_readBranches s _ _ h₁).ofBranches).of_comes (.single (.capture ..))
      (Nat.le_succ _) rfl).unnamed _
  · obtain ⟨p₁, h₁, h⟩ := exists_of_bind_eq_ok h
    obtain ⟨e, he, h⟩ := exists_of_bind_eq_ok h
    cases h
    exact (((accounts_of_readBranches s _ _ h₁).ofBranches).of_comes (.single (.nonCapture ..))
      (Nat.le_refl _) rfl).unnamed _
  · obtain ⟨p₁, h₁, h⟩ := exists_of_bind_eq_ok h
    obtain ⟨e, he, h⟩ := exists_of_bind_eq_ok h
    cases h
    exact (accounts_of_readBranches s _ _ h₁).ofBranches.named_group
      (reads_of_readBranches s _ _ h₁).ofBranches
  · obtain ⟨p₁, h₁, h⟩ := exists_of_bind_eq_ok h
    cases h
    obtain ⟨min, max, text, greedy, hvalue⟩ := exists_multi_of_readMulti h₁
    refine hleaf ?_
    change p₁.value.children = []
    rw [hvalue]
    rfl
  · cases h
    exact .backref ..
  · -- a variable: copied if it is compiled, else read in place
    next name offset rest =>
    split at h
    · cases h
    · next hn =>
      split at h
      · cases h
      · next hb =>
        cases h
        exact .inline hb hatom
      · next text hb =>
        have : (s.entering name offset text).unexpanded < s.unexpanded :=
          unexpanded_entering_lt hb (Bool.eq_false_iff.2 hn)
        obtain ⟨inner, hinner, h⟩ := exists_of_bind_eq_ok h
        obtain ⟨p₁, h₁, h⟩ := exists_of_bind_eq_ok h
        obtain ⟨u, hu, h⟩ := exists_of_bind_eq_ok h
        cases h
        exact .entering hb hinner
          (accounts_of_readBranches (s.entering name offset text) st inner h₁).ofBranches hatom
  · cases h
    exact hleaf rfl
  · cases h
    exact hleaf rfl
  · -- the test of one element, or no atom
    split at h
    case h_7 => cases h
    all_goals
      obtain ⟨q, hq, h⟩ := exists_of_bind_eq_ok h
      cases h
      exact hleaf rfl
  · cases h
termination_by (s.unexpanded, ls.length, 0)

end

end Scope

end Motif
