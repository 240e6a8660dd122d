import Motif.Proofs.Expansion
import Motif.Proofs.Lexing

/-!
# Variables as texts in parentheses

A variable bound to a text stands for the text in a group that does not capture. The text is read
in a scope of its own, under the same numbering, and what is read of it there is what is read of it
in parentheses; the symbols before and behind are the same, so that quantifiers and alternatives
bind alike.

* `Pattern.Alike`: patterns that are the same but for groups that do not capture.
* `keeps_compile`: patterns with atoms exchanged are compiled alike.
* `variable_stands_for_its_text`: a variable against its text in parentheses.
-/

namespace Motif

/-! ## Checks of complete patterns -/

namespace Numbering

variable {st st' : Numbering} {e e' : Expr}

theorem Alike.keeps_validate (h : st.Alike st') (he : e'.bare = e.bare) (o o' : NameOrder) :
    Keeps False Eq (st.validate o e) (st'.validate o' e') := by
  rintro ⟨⟩ hok
  obtain ⟨hrefs, hnames⟩ := (validate_eq_ok_iff_and st o e).1 hok
  refine .inr ⟨(), (validate_eq_ok_iff_and st' o' e').2 ⟨fun ref href => ?_, fun name hname => ?_⟩,
    rfl⟩
  · have hid : ref.1 ∈ st.backrefs.map (·.1) := h.backrefs_eq ▸ List.mem_map_of_mem href
    obtain ⟨ref', href', heq⟩ := List.mem_map.1 hid
    rw [h.next_eq, ← heq]
    exact hrefs ref' href'
  · exact hnames name (by rwa [← Expr.recurs_bare, ← he, Expr.recurs_bare])

theorem Alike.keeps_target (h : st.Alike st') {c c' : ActionClause} (hc : c'.target = c.target) :
    Keeps False Eq (st.target c) (st'.target c') := by
  rw [Numbering.target, Numbering.target, hc, h.names_eq, h.next_eq]
  have hid (id : Nat) : Keeps False Eq
      (if st.next ≤ id then (do Except.error (CompileError.invalidBackref id c.offset); pure id)
        else pure id)
      (if st.next ≤ id then (do Except.error (CompileError.invalidBackref id c'.offset); pure id)
        else pure id) := by
    split
    · exact .error
    · exact .ok rfl
  cases c.target with
  | index id => exact hid id
  | name name =>
    dsimp only
    split
    · exact hid _
    · exact .error

end Numbering

/-! ## Action clauses -/

theorem exists_of_symbolsOf_cons {x : Symbol} {o : Nat} {ls ls' : List Lexeme}
    (h : symbolsOf ls' = symbolsOf (⟨x, o⟩ :: ls)) :
    ∃ o' rest, ls' = ⟨x, o'⟩ :: rest ∧ symbolsOf rest = symbolsOf ls :=
  exists_of_symbolsOf_eq_cons h

/-- Two action clauses are the same, but for the offsets. -/
def ActionClause.Alike (c c' : ActionClause) : Prop := c'.action = c.action ∧ c'.target = c.target

namespace Scope

variable {E : Prop} {s s' : Scope} {ls ls' : List Lexeme}

theorem keeps_expect_of_symbolsOf {x : Symbol} {what : String} (h : symbolsOf ls' = symbolsOf ls) :
    Keeps E (fun p p' => symbolsOf p'.rest = symbolsOf p.rest) (s.expect x what ls)
      (s'.expect x what ls') := fun p hp =>
  .inr (reaches_expect.2 (h.trans (reaches_expect.1 ⟨p, hp, rfl⟩)))

theorem keeps_expectEnd (h : symbolsOf ls' = symbolsOf ls) :
    Keeps E Eq (s.expectEnd ls) (s'.expectEnd ls') := fun _ hend =>
  .inr ⟨(), expectEnd_eq_ok.2 (h ▸ expectEnd_eq_ok.1 hend), rfl⟩

theorem keeps_readTarget (h : symbolsOf ls' = symbolsOf ls) :
    Keeps E (fun v v' => v'.1 = v.1 ∧ symbolsOf v'.2 = symbolsOf v.2) (s.readTarget ls)
      (s'.readTarget ls') := by
  rw [readTarget.eq_def]
  split
  · obtain ⟨o, rest, rfl, hrest⟩ := exists_of_symbolsOf_cons h
    split
    · next id hid =>
      simp only [readTarget, hid]
      exact (keeps_expect_of_symbolsOf hrest).bind fun p p' hp => .ok ⟨rfl, hp⟩
    · exact .error
  · obtain ⟨o, rest, rfl, hrest⟩ := exists_of_symbolsOf_cons h
    exact (keeps_expect_of_symbolsOf hrest).bind fun p p' hp => .ok ⟨rfl, hp⟩
  · obtain ⟨o, rest, rfl, hrest⟩ := exists_of_symbolsOf_cons h
    exact .ok ⟨rfl, hrest⟩
  · exact .error

theorem keeps_readActionClause (henv : s'.env = s.env) (h : symbolsOf ls' = symbolsOf ls) :
    Keeps E (fun v v' => v.1.Alike v'.1 ∧ symbolsOf v'.2 = symbolsOf v.2) (s.readActionClause ls)
      (s'.readActionClause ls') := by
  rw [readActionClause.eq_def]
  split
  · obtain ⟨o, rest, rfl, hrest⟩ := exists_of_symbolsOf_cons h
    rw [readActionClause.eq_def]
    dsimp only
    rw [henv]
    split
    · split
      · obtain ⟨o', rest', rfl, hrest'⟩ := exists_of_symbolsOf_cons hrest
        refine (keeps_readTarget hrest').bind fun v v' hv => ?_
        exact .ok ⟨⟨rfl, hv.1⟩, hv.2⟩
      · next hno =>
        split
        · obtain ⟨o', rest', rfl, -⟩ := exists_of_symbolsOf_cons hrest.symm
          exact absurd rfl (hno _ _)
        · exact .ok ⟨⟨rfl, rfl⟩, hrest⟩
    · exact .error
  · exact .error

end Scope

/-! ## Patterns -/

/-- What texts were read as is the same, but for groups that do not capture and for offsets. -/
structure Sources.Alike (r r' : Sources) : Prop where
  /-- Their expressions are the same but for groups that do not capture. -/
  parts : Expr.bareAll r'.parts = Expr.bareAll r.parts
  /-- They number the same groups. -/
  numbering : r.numbering.Alike r'.numbering
  /-- They have the same action clause, if any. -/
  clause : Option.Rel ActionClause.Alike r.clause r'.clause

/-- Two patterns are the same but for groups that do not capture. -/
structure Pattern.Alike (p p' : Pattern) : Prop where
  /-- Their expressions are the same but for such groups. -/
  bare : p'.root.bare = p.root.bare
  /-- They have the same number of groups. -/
  groupCount : p'.groupCount = p.groupCount
  /-- They have the same names. -/
  names : p'.names = p.names

section Texts

variable {env : Environment} {source source' : String} {ls ls' f f' : List Lexeme}

theorem keeps_readSources (hls : lexemes source = .ok ls) (hls' : lexemes source' = .ok ls')
    (h : AlikeUpTo (Scope.Exchanges False { env, source } { env, source := source' }) f f' ls ls')
    (hf : symbolsOf f' = symbolsOf f) :
    Keeps False Sources.Alike (readSources env {} [source]) (readSources env {} [source']) := by
  have hs : Scope.Covers False { env, source } { env, source := source' } := ⟨rfl, nofun⟩
  rw [readSources, readSources, hls, hls']
  refine (Scope.keeps_readBranches hs {} {} _ _ h).bind fun p p' hp => ?_
  obtain ⟨hes, hst⟩ := hp.value ⟨rfl, rfl, rfl⟩
  have hparts : Expr.bareAll ([] ++ [Expr.ofBranches p'.value.1]) =
      Expr.bareAll ([] ++ [Expr.ofBranches p.value.1]) := by
    refine congrArg (· :: []) ?_
    rw [Expr.bare_ofBranches, Expr.bare_ofBranches, hes]
  -- reading stops at the end, or at the arrow of an action clause
  have hend (hpeek : peek p.rest = .eof ∨ peek p.rest = .arrow) :
      symbolsOf p'.rest = symbolsOf p.rest := by
    obtain ⟨hrest, hrest'⟩ := hp.rest.eq_of_peek hpeek
    rw [hrest, hrest', hf]
  dsimp only
  split
  · next o rest hrest =>
    have hsym := hend (.inr (by rw [hrest]; rfl))
    rw [hrest] at hsym
    obtain ⟨o', rest', hrest', hsym⟩ := exists_of_symbolsOf_cons hsym
    simp only [hrest', List.isEmpty_nil, if_true]
    have henv : Scope.env { env, source := source' } = Scope.env { env, source } := rfl
    refine (Scope.keeps_readActionClause henv hsym).bind fun v v' hv => ?_
    exact (Scope.keeps_expectEnd hv.2).bind fun _ _ _ => .ok ⟨hparts, hst, .some hv.1⟩
  · next hno =>
    intro r hr
    obtain ⟨u, hu, hr⟩ := exists_of_bind_eq_ok hr
    have hpeek := Scope.peek_of_expectEnd hu
    have hsym := hend (.inl hpeek)
    split
    · next o rest heq =>
      rw [heq] at hsym
      obtain ⟨o', rest', hrest', -⟩ := exists_of_symbolsOf_cons hsym.symm
      exact absurd hrest' (hno _ _)
    · exact ((Scope.keeps_expectEnd hsym).bind fun _ _ _ => .ok ⟨hparts, hst, .none⟩) r
        (by rw [hu]; exact hr)

/-- **Patterns whose texts have lexemes that are alike are compiled to patterns that are alike.** -/
theorem keeps_compile (hls : lexemes source = .ok ls) (hls' : lexemes source' = .ok ls')
    (h : AlikeUpTo (Scope.Exchanges False { env, source } { env, source := source' }) f f' ls ls')
    (hf : symbolsOf f' = symbolsOf f) :
    Keeps False Pattern.Alike (compile env source) (compile env source') := by
  rw [compile, compile, compileAll, compileAll]
  refine (keeps_readSources hls hls' h hf).bind fun r r' hr => ?_
  have hbody : (Expr.ofItems r'.parts).bare = (Expr.ofItems r.parts).bare := by
    rw [Expr.bare_ofItems, Expr.bare_ofItems, hr.parts]
  refine (hr.numbering.keeps_validate hbody env.order env.order).bind fun _ _ _ => ?_
  have hclause := hr.clause
  generalize r.clause = c at hclause ⊢
  generalize r'.clause = c' at hclause ⊢
  cases hclause with
  | none => exact .ok ⟨hbody, hr.numbering.next_eq, hr.numbering.names_eq⟩
  | @some a a' hc =>
    have hroot := (hr.numbering.keeps_target hc.2).map
      (f := Expr.action (Expr.ofItems r.parts) a.action)
      (g := Expr.action (Expr.ofItems r'.parts) a'.action) (S := fun e e' => e'.bare = e.bare)
      fun id _ hid => by rw [Expr.bare, Expr.bare, hbody, hc.1, hid]
    exact hroot.bind fun e e' he => .ok ⟨he, hr.numbering.next_eq, hr.numbering.names_eq⟩

end Texts

/-! ## Texts in place of variables -/

namespace Scope

theorem readsAll_of_symbolsOf {s : Scope} {st : Numbering} {ls : List Lexeme}
    (h : (s.readBranches st ls).map (fun p => symbolsOf p.rest) = .ok [.eof]) :
    s.ReadsAll st ls := by
  cases hp : s.readBranches st ls with
  | error e =>
    rw [hp] at h
    cases h
  | ok p =>
    rw [hp] at h
    exact ⟨p, hp, expectEnd_eq_ok.2 (congrArg Derivation.first (Except.ok.inj h))⟩

/-- A text that is read to its end is so in every scope that differs in no expansion. -/
theorem ReadsAll.of_covers {E : Prop} {s s' : Scope} (hs : s.Covers E s') {st st' : Numbering}
    {ls : List Lexeme} (h : s.ReadsAll st ls) : E ∨ s'.ReadsAll st' ls := by
  obtain ⟨p, hp, hend⟩ := h
  obtain ⟨e, e', he, halike⟩ := AlikeUpTo.exists_of_symbolsOf (Exchanges E s s') ls ls rfl
  obtain hE | ⟨p', hp', hpp⟩ := keeps_readBranches hs st st' ls ls halike p hp
  · exact .inl hE
  · exact .inr ⟨p', hp', expectEnd_of_alike hpp.rest he hend⟩

end Scope

section Variables

variable {env : Environment} {name text : String} {ls inner : List Lexeme}

/-- A text that is read to its end by itself is so in its expansion: it does not refer to its own
variable. -/
theorem readsAll_entering (hb : env.pattern? name = some (.source text))
    (hls : lexemes text = .ok ls) (hreads : Scope.ReadsAll { env, source := text } {} ls)
    (source : String) (o : Nat) (st : Numbering) :
    (Scope.entering { env, source } name o text).ReadsAll st ls := by
  let inside : Scope := Scope.entering { env, source } name o text
  have honly : ∀ other, inside.isExpanding other = true → other = name := by
    intro other hother
    rw [Scope.isExpanding_entering, Bool.or_eq_true_iff] at hother
    exact (beq_iff_eq.1 (hother.resolve_left Bool.false_ne_true)).symm
  have houter : Scope.Covers (env.ReadsWithin name) { env, source := text } inside := by
    refine ⟨rfl, fun other hother => .inr ?_⟩
    obtain rfl := honly other hother
    exact ⟨⟨text, hb⟩, id⟩
  obtain ⟨text', ls', s, st', hb', hls', henv, hexpanding, h⟩ | h := hreads.of_covers houter
  · -- the expansions of `s` do not matter, as the variable is among them
    cases hb.symm.trans hb'
    cases hls.symm.trans hls'
    have hinner : s.Covers False inside := by
      refine ⟨henv.symm, fun other hother => .inl ?_⟩
      rwa [honly other hother]
    exact (h.of_covers hinner).resolve_left id
  · exact h

/-- What is read of a text up to its end is read of it up to the end of a group. -/
theorem Scope.exists_readBranches_inner {s s' : Scope} (hs : s.Covers False s') {st : Numbering}
    (st' : Numbering) (hinner : symbolsOf ls = symbolsOf inner ++ [.eof])
    (heof : ∀ l ∈ inner, l.symbol ≠ .eof) {p : Parsed Lexeme (List Expr × Numbering) _}
    (hp : s.readBranches st ls = .ok p) (hend : s.expectEnd p.rest = .ok ()) (o : Nat)
    (rest : List Lexeme) : ∃ p', s'.readBranches st' (inner ++ ⟨.rparen, o⟩ :: rest) = .ok p' ∧
      p'.rest = ⟨.rparen, o⟩ :: rest ∧ ReadsAlike st st' p.value p'.value := by
  obtain ⟨e, e', he, halike⟩ :=
    AlikeUpTo.exists_of_symbolsOf_inner (Exchanges False s s') hinner heof o rest
  obtain ⟨p', hp', hpp⟩ := (keeps_readBranches hs st st' _ _ halike p hp).resolve_left id
  have hpeek := peek_of_expectEnd hend
  obtain ⟨hrest, hrest'⟩ := hpp.rest.eq_of_peek (.inl hpeek)
  exact ⟨p', hp', hrest'.trans (he (hrest ▸ hpeek)), hpp.value⟩

theorem Scope.exists_expect (s : Scope) {x : Symbol} (what : String) {o : Nat}
    {ls rest : List Lexeme} (h : ls = ⟨x, o⟩ :: rest) :
    ∃ e, s.expect x what ls = .ok e ∧ e.rest = rest := by
  subst h
  exact ⟨_, if_pos rfl, rfl⟩

/-- A text that is read to its end is read as an atom in a group that does not capture. -/
theorem Scope.exists_readAtom_group {s s' : Scope} (hs : s.Covers False s') {st : Numbering}
    (st' : Numbering) (hinner : symbolsOf ls = symbolsOf inner ++ [.eof])
    (heof : ∀ l ∈ inner, l.symbol ≠ .eof) {p : Parsed Lexeme (List Expr × Numbering) _}
    (hp : s.readBranches st ls = .ok p) (hend : s.expectEnd p.rest = .ok ()) (o₁ o₂ : Nat)
    (rest : List Lexeme) :
    ∃ p', s'.readAtom st' (⟨.nonCapture, o₁⟩ :: (inner ++ ⟨.rparen, o₂⟩ :: rest)) = .ok p' ∧
      p'.rest = rest ∧ AtomsAlike st st' (.ofBranches p.value.1, p.value.2) p'.value := by
  obtain ⟨q, hq, hrest, halike⟩ :=
    exists_readBranches_inner hs st' hinner heof hp hend o₂ rest
  obtain ⟨e, he, hrest'⟩ := s'.exists_expect groupEnd hrest
  have hlt : e.rest.length < (inner ++ ⟨.rparen, o₂⟩ :: rest).length + 1 := by
    have := q.shorter
    have := e.shorter
    omega
  refine ⟨⟨(.group (.ofBranches q.value.1) none none, q.value.2), e.rest, hlt⟩, ?_, hrest',
    fun hst => ?_⟩
  · rw [readAtom, hq]
    show (s'.expect .rparen _ q.rest >>= _) = _
    rw [he]
    rfl
  · obtain ⟨hes, hst'⟩ := halike hst
    refine ⟨?_, hst'⟩
    show (Expr.ofBranches q.value.1).bare = (Expr.ofBranches p.value.1).bare
    rw [Expr.bare_ofBranches, Expr.bare_ofBranches, hes]

theorem exists_readAtom_variable (hb : env.pattern? name = some (.source text))
    (hls : lexemes text = .ok ls) (hreads : Scope.ReadsAll { env, source := text } {} ls)
    (hinner : symbolsOf ls = symbolsOf inner ++ [.eof]) (heof : ∀ l ∈ inner, l.symbol ≠ .eof)
    (source source' : String) (o o₁ o₂ : Nat) (st st' : Numbering) (after after' : List Lexeme) :
    ∃ p p', Scope.readAtom { env, source } st (⟨.var name, o⟩ :: after) = .ok p ∧
      Scope.readAtom { env, source := source' } st'
        (⟨.nonCapture, o₁⟩ :: (inner ++ ⟨.rparen, o₂⟩ :: after')) = .ok p' ∧
      p.rest = after ∧ p'.rest = after' ∧ Scope.AtomsAlike st st' p.value p'.value := by
  let s : Scope := { env, source }
  let s' : Scope := { env, source := source' }
  obtain ⟨q, hq, hend⟩ := readsAll_entering hb hls hreads source o st
  have hs : (s.entering name o text).Covers False s' := ⟨rfl, nofun⟩
  obtain ⟨q', hq', hrest, halike⟩ :=
    Scope.exists_readAtom_group hs st' hinner heof hq hend o₁ o₂ after'
  have hvar : s.readAtom st (⟨.var name, o⟩ :: after) =
      .ok ⟨(.ofBranches q.value.1, q.value.2), after, length_lt_next⟩ := by
    have hexpanding : ¬s.isExpanding name = true := Bool.false_ne_true
    have hpattern : s.env.pattern? name = some (.source text) := hb
    rw [Scope.readAtom_var, if_neg hexpanding, hpattern]
    show (lexemes text >>= _) = _
    rw [hls]
    show (Scope.readBranches _ st ls >>= _) = _
    rw [hq]
    show (Scope.expectEnd _ q.rest >>= _) = _
    rw [hend]
    rfl
  exact ⟨_, _, hvar, hq', rfl, hrest, halike⟩

theorem exchanges_variable (hb : env.pattern? name = some (.source text))
    (hls : lexemes text = .ok ls) (hreads : Scope.ReadsAll { env, source := text } {} ls)
    (hinner : symbolsOf ls = symbolsOf inner ++ [.eof]) (heof : ∀ l ∈ inner, l.symbol ≠ .eof)
    (source source' : String) (o o₁ o₂ : Nat) :
    let s : Scope := { env, source }
    let s' : Scope := { env, source := source' }
    let group := ⟨.nonCapture, o₁⟩ :: (inner ++ [⟨.rparen, o₂⟩])
    s.Exchanges False s' [⟨.var name, o⟩] group ∧ s'.Exchanges False s group [⟨.var name, o⟩] := by
  intro s s' group
  have hgroup (after : List Lexeme) :
      group ++ after = ⟨.nonCapture, o₁⟩ :: (inner ++ ⟨.rparen, o₂⟩ :: after) := by
    simp [group]
  constructor
  · intro st st' after after'
    rw [hgroup]
    intro p hp
    obtain ⟨q, q', hq, hq', hrest, hrest', halike⟩ :=
      exists_readAtom_variable hb hls hreads hinner heof source source' o o₁ o₂ st st' after after'
    obtain rfl : q = p := Except.ok.inj (hq.symm.trans hp)
    exact .inr ⟨q', hq', hrest, hrest', halike⟩
  · intro st' st after' after
    rw [hgroup]
    intro p' hp'
    obtain ⟨q, q', hq, hq', hrest, hrest', halike⟩ :=
      exists_readAtom_variable hb hls hreads hinner heof source source' o o₁ o₂ st st' after after'
    obtain rfl : q' = p' := Except.ok.inj (hq'.symm.trans hp')
    exact .inr ⟨q, hq, hrest', hrest, halike.symm⟩

end Variables

theorem exists_lexemes_of_compile {env : Environment} {source : String} {p : Pattern}
    (h : compile env source = .ok p) : ∃ ls, lexemes source = .ok ls := by
  obtain ⟨r, hr, -⟩ := exists_sources_of_compileAll h
  obtain ⟨ls, p, hls, -⟩ := exists_of_readSources_cons hr
  exact ⟨ls, hls⟩

theorem keeps_compile_of_exchanges {env : Environment} {source source' : String}
    {before before' a a' : List Lexeme} {o o' : Nat} {post : List Char}
    (hX : Scope.Exchanges False { env, source } { env, source := source' } a a')
    (ha : opensAtom a) (ha' : opensAtom a') (hsym : symbolsOf before' = symbolsOf before)
    (hbefore : ∀ x ∈ symbolsOf before, x ≠ .eof ∧ x ≠ .arrow)
    (hsource : lexemes source = (lexemesFrom false o post).map fun after => before ++ (a ++ after))
    (hsource' : lexemes source' =
      (lexemesFrom false o' post).map fun after => before' ++ (a' ++ after)) :
    Keeps False Pattern.Alike (compile env source) (compile env source') := by
  intro p hp
  obtain ⟨ls, hls⟩ := exists_lexemes_of_compile hp
  rw [hsource] at hls
  cases hafter : lexemesFrom false o post with
  | error err =>
    rw [hafter] at hls
    cases hls
  | ok after =>
    obtain ⟨after', hafter', hsym'⟩ := Place.exists_lexemesFrom hafter o'
    rw [hafter] at hsource
    rw [hafter'] at hsource'
    obtain ⟨f, f', hf, halike⟩ := AlikeUpTo.exists_of_symbolsOf
      (Scope.Exchanges False { env, source } { env, source := source' }) after after' hsym'
    exact keeps_compile hsource hsource' (.append hsym hbefore (.atom ha ha' hX halike)) hf p hp

/-- **A variable stands for its text in parentheses**, wherever it is an atom: both texts are
compiled, to the same program, or both refused. -/
theorem variable_stands_for_its_text {env : Environment} {name text pre post : String}
    {ls : List Lexeme} (hb : env.pattern? name = some (.source text)) (hls : lexemes text = .ok ls)
    (hreads : Scope.ReadsAll { env, source := text } {} ls) (h : VariableAt name pre post) :
    let host := compile env (pre ++ "$" ++ name ++ post)
    let spelled := compile env (pre ++ "(?: " ++ text ++ " )" ++ post)
    ((∃ p, host = .ok p) ↔ ∃ p', spelled = .ok p') ∧
    ∀ p p', host = .ok p → spelled = .ok p' →
      p'.root.bare = p.root.bare ∧ p'.groupCount = p.groupCount ∧
        p'.root.groups = p.root.groups ∧ p'.root.backrefs = p.root.backrefs ∧
        p'.names = p.names ∧ p'.program = p.program := by
  intro host spelled
  obtain ⟨before, before', inner, hsym, hbefore, hinner, heof, o, o', o₁, o₂, o₃, hhost,
    hspelled⟩ := h.exists_lexemes hls
  have hbefore : ∀ x ∈ symbolsOf before, x ≠ .eof ∧ x ≠ .arrow := List.forall_mem_map.2 hbefore
  obtain ⟨hX, hX'⟩ := exchanges_variable hb hls hreads hinner heof
    (pre ++ "$" ++ name ++ post) (pre ++ "(?: " ++ text ++ " )" ++ post) o o₁ o₂
  have hspelled : lexemes (pre ++ "(?: " ++ text ++ " )" ++ post) =
      (lexemesFrom false o₃ post.toList).map fun after =>
        before' ++ (⟨.nonCapture, o₁⟩ :: (inner ++ [⟨.rparen, o₂⟩]) ++ after) := by
    simpa using hspelled
  have hkeeps : Keeps False Pattern.Alike host spelled :=
    keeps_compile_of_exchanges hX trivial trivial hsym hbefore hhost hspelled
  have hkeeps' : Keeps False Pattern.Alike spelled host :=
    keeps_compile_of_exchanges hX' trivial trivial hsym.symm (hsym ▸ hbefore) hspelled hhost
  refine ⟨⟨fun ⟨p, hp⟩ => ?_, fun ⟨p', hp'⟩ => ?_⟩, fun p p' hp hp' => ?_⟩
  · obtain ⟨p', hp', -⟩ := (hkeeps p hp).resolve_left id
    exact ⟨p', hp'⟩
  · obtain ⟨p, hp, -⟩ := (hkeeps' p' hp').resolve_left id
    exact ⟨p, hp⟩
  · obtain ⟨q, hq, halike⟩ := (hkeeps p hp).resolve_left id
    obtain rfl : q = p' := Except.ok.inj (hq.symm.trans hp')
    have hbare := halike.bare
    refine ⟨hbare, halike.groupCount, ?_, ?_, halike.names, ?_⟩
    · rw [← Expr.groups_bare, hbare, Expr.groups_bare]
    · rw [← Expr.backrefs_bare, hbare, Expr.backrefs_bare]
    · rw [q.program_eq, p.program_eq, ← Expr.lower_bare, hbare, Expr.lower_bare]

/-- A variable whose text is a group or another variable, under a reluctant quantifier and in an
alternative. -/
theorem variable_stands_for_its_text_of_nested :
    let env : Environment := { patterns := [("x", .source "([])|$y"), ("y", .source "[]+")] }
    let ls : List Lexeme := [⟨.lparen, 0⟩, ⟨.lbracket, 1⟩, ⟨.rbracket, 2⟩, ⟨.rparen, 3⟩, ⟨.pipe, 4⟩,
      ⟨.var "y", 5⟩, ⟨.eof, 7⟩]
    env.pattern? "x" = some (.source "([])|$y") ∧ lexemes "([])|$y" = .ok ls ∧
      Scope.ReadsAll { env, source := "([])|$y" } {} ls ∧ VariableAt "x" "^(" "*?|$y)\\1" ∧
      ∃ p p', compile env ("^(" ++ "$" ++ "x" ++ "*?|$y)\\1") = .ok p ∧
        compile env ("^(" ++ "(?: " ++ "([])|$y" ++ " )" ++ "*?|$y)\\1") = .ok p' ∧
        p'.root.bare = p.root.bare ∧ p.groupCount = 3 ∧
        p.root.groups = [(1, none), (2, none)] ∧ p.root.backrefs = [1] := by
  intro env ls
  have hls : lexemes "([])|$y" = .ok ls := by decide +kernel
  have hreads : Scope.ReadsAll { env, source := "([])|$y" } {} ls :=
    Scope.readsAll_of_symbolsOf (by cbv)
  have hvar : VariableAt "x" "^(" "*?|$y)\\1" := by
    refine ⟨⟨[⟨.caret, 0⟩, ⟨.lparen, 1⟩], 2, ?_, by simp⟩, by decide +kernel⟩
    have hcaret : isBlank '^' = false := by decide +kernel
    have hparen : isBlank '(' = false := by decide +kernel
    rw [VariableAt.toList_host]
    exact .lexeme hcaret rfl (.lexeme hparen rfl (.done _))
  have hspelled : (compile env ("^(" ++ "(?: " ++ "([])|$y" ++ " )" ++ "*?|$y)\\1")).map
      (fun p => (p.groupCount, p.root.groups, p.root.backrefs)) =
      .ok (3, [(1, none), (2, none)], [1]) := by
    have h : lexemes ("^(" ++ "(?: " ++ "([])|$y" ++ " )" ++ "*?|$y)\\1") = .ok [⟨.caret, 0⟩,
        ⟨.lparen, 1⟩, ⟨.nonCapture, 2⟩, ⟨.lparen, 6⟩, ⟨.lbracket, 7⟩, ⟨.rbracket, 8⟩, ⟨.rparen, 9⟩,
        ⟨.pipe, 10⟩, ⟨.var "y", 11⟩, ⟨.rparen, 14⟩, ⟨.star, 15⟩, ⟨.question, 16⟩, ⟨.pipe, 17⟩,
        ⟨.var "y", 18⟩, ⟨.rparen, 20⟩, ⟨.backref 1, 21⟩, ⟨.eof, 23⟩] := by decide +kernel
    simp only [compile, compileAll, readSources, h]
    cbv
  obtain ⟨hiff, hsame⟩ := variable_stands_for_its_text rfl hls hreads hvar
  cases hp' : compile env ("^(" ++ "(?: " ++ "([])|$y" ++ " )" ++ "*?|$y)\\1") with
  | error e =>
    rw [hp'] at hspelled
    cases hspelled
  | ok p' =>
    obtain ⟨p, hp⟩ := hiff.2 ⟨p', hp'⟩
    obtain ⟨hbare, hcount, hgroups, hbackrefs, -, -⟩ := hsame p p' hp hp'
    rw [hp'] at hspelled
    have hparts := Except.ok.inj hspelled
    simp only [hcount, hgroups, hbackrefs, Prod.mk.injEq] at hparts
    exact ⟨rfl, hls, hreads, hvar, p, p', hp, rfl, hbare, hparts⟩

end Motif
