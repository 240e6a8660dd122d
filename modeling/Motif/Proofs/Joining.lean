import Motif.Proofs.Inclusion
import Motif.Proofs.References

/-!
# Several texts as one

Several texts that are compiled together are read one after the other, each from its own lexemes,
under one numbering. The same is read of a single text in which each of them stands in a group that
does not capture. It has the groups for its items, and none of them is quantified, because behind it
there is another group or the end.

* `ActionFree`: a text without an action clause.
* `grouped`, `joined`: a text in a group, and several texts as one.
* `JoinedLexemes`, `exists_lexemes_joined`: the lexemes of several texts as one.
* `ActionFree.exists_of_readSources_cons`: the first of several texts is read to its end.
* `exists_readItems_joined`: the groups are read as the texts are.
* **`compile_joined`**: several texts are compiled as the single text.
-/

namespace Motif

/-- A text without an action clause. -/
def ActionFree (source : String) : Prop :=
  ∀ ls, lexemes source = .ok ls → .arrow ∉ symbolsOf ls

/-- A text in a group that does not capture. -/
def grouped (source : String) : String := "(?: " ++ source ++ " )"

/-- Several texts as one, each in a group of its own. -/
def joined (sources : List String) : String := " ".intercalate (sources.map grouped)

variable {env : Environment} {source : String} {sources : List String}

/-! ## Lexemes -/

/-- The lexemes of several texts, each in a group, and the end behind them. -/
inductive JoinedLexemes : List String → List Lexeme → Prop
  | nil (o : Nat) : JoinedLexemes [] [⟨.eof, o⟩]
  | cons {source : String} {sources : List String} {ls inner rest : List Lexeme} (o₁ o₂ : Nat)
    (hls : lexemes source = .ok ls) (hinner : symbolsOf ls = symbolsOf inner ++ [.eof])
    (heof : ∀ l ∈ inner, l.symbol ≠ .eof) (h : JoinedLexemes sources rest) :
    JoinedLexemes (source :: sources) (⟨.nonCapture, o₁⟩ :: (inner ++ ⟨.rparen, o₂⟩ :: rest))

theorem toList_grouped_append (source : String) (post : List Char) :
    (grouped source).toList ++ post =
      '(' :: '?' :: ':' :: ' ' :: (source.toList ++ ' ' :: ')' :: post) := by
  simp only [grouped, String.toList_append, List.append_assoc]
  rfl

theorem exists_lexemes_joined (h : ∀ source ∈ sources, ∃ ls, lexemes source = .ok ls) (o : Nat) :
    ∃ ls, lexemesFrom false o (joined sources).toList = .ok ls ∧ JoinedLexemes sources ls := by
  induction sources generalizing o with
  | nil =>
    have hnone : (joined []).toList = [] := rfl
    exact ⟨_, by rw [hnone, lexemesFrom], .nil o⟩
  | cons source sources ih =>
    rw [List.forall_mem_cons] at h
    obtain ⟨⟨ls, hls⟩, h⟩ := h
    -- the lexemes of the group are followed by those of what stands behind it
    have hcons (post : List Char) (hpost : ∀ o, ∃ ls, lexemesFrom false o post = .ok ls ∧
        JoinedLexemes sources ls) :
        ∃ ls, lexemesFrom false o ((grouped source).toList ++ post) = .ok ls ∧
          JoinedLexemes (source :: sources) ls := by
      obtain ⟨inner, o₂, o₃, hinner, heof, hgroup⟩ := exists_yields_group hls o post
      obtain ⟨rest, hrest, hjoined⟩ := hpost o₃
      have hlexemes := hgroup.lexemes_eq
      unfold Place.lexemes at hlexemes
      rw [toList_grouped_append, hlexemes, hrest]
      refine ⟨_, rfl, ?_⟩
      simpa using JoinedLexemes.cons o o₂ hls hinner heof hjoined
    cases sources with
    | nil =>
      have hone : (joined [source]).toList = (grouped source).toList ++ [] := by
        rw [joined, List.map_cons, List.map_nil, String.intercalate_singleton, List.append_nil]
      rw [hone]
      exact hcons [] fun o => ⟨_, by rw [lexemesFrom], .nil o⟩
    | cons source' sources =>
      have hmore : (joined (source :: source' :: sources)).toList =
          (grouped source).toList ++ ' ' :: (joined (source' :: sources)).toList := by
        rw [joined, List.map_cons, List.map_cons, String.intercalate_cons_cons,
          String.toList_append, String.toList_append, List.append_assoc]
        rfl
      rw [hmore]
      refine hcons _ fun o => ?_
      have hblank : isBlank ' ' = true := by decide +kernel
      rw [lexemesFrom, if_pos hblank]
      exact ih h _

theorem JoinedLexemes.readQuantifier {ls : List Lexeme} (h : JoinedLexemes sources ls)
    (s : Scope) : s.readQuantifier ls = .ok ⟨none, ls, length_lt_next⟩ := by
  cases h <;> rfl

/-! ## Reading -/

theorem ActionFree.peek_ne_arrow (hfree : ActionFree source) {ls : List Lexeme}
    (hls : lexemes source = .ok ls) {s : Scope} {st : Numbering}
    {p : Parsed Lexeme (List Expr × Numbering) _} (hp : s.readBranches st ls = .ok p) :
    peek p.rest ≠ .arrow := by
  intro harrow
  have hrest : .arrow ∈ symbolsOf p.rest := by
    cases hrest : p.rest with
    | nil =>
      rw [hrest] at harrow
      cases harrow
    | cons l rest =>
      rw [hrest] at harrow
      exact List.mem_map.2 ⟨l, List.mem_cons_self, harrow⟩
  obtain ⟨xs, hxs, -⟩ := Scope.consumes_of_readBranches s st ls hp
  exact hfree ls hls (hxs ▸ List.mem_append_right xs hrest)

theorem ActionFree.exists_of_readSources_cons {r r' : Sources} (hfree : ActionFree source)
    (h : readSources env r (source :: sources) = .ok r') :
    ∃ ls p, lexemes source = .ok ls ∧
      Scope.readBranches { env, source } r.numbering ls = .ok p ∧
      Scope.expectEnd { env, source } p.rest = .ok () ∧
      readSources env { parts := r.parts ++ [.ofBranches p.value.1], numbering := p.value.2 }
        sources = .ok r' := by
  obtain ⟨ls, p, hls, hp, ⟨harrow, -⟩ | ⟨hend, h⟩⟩ := Motif.exists_of_readSources_cons h
  · exact absurd harrow (hfree.peek_ne_arrow hls hp)
  · exact ⟨ls, p, hls, hp, hend, h⟩

theorem exists_lexemes_of_readSources {r r' : Sources}
    (hfree : ∀ source ∈ sources, ActionFree source) (h : readSources env r sources = .ok r') :
    ∀ source ∈ sources, ∃ ls, lexemes source = .ok ls := by
  induction sources generalizing r with
  | nil => exact nofun
  | cons source sources ih =>
    rw [List.forall_mem_cons] at hfree ⊢
    obtain ⟨ls, p, hls, -, -, h⟩ := hfree.1.exists_of_readSources_cons h
    exact ⟨⟨ls, hls⟩, ih hfree.2 h⟩

theorem Scope.exists_readItems_of_atom {s : Scope} {st : Numbering} {ls rest : List Lexeme}
    {p : Parsed Lexeme (Expr × Numbering) ls.length} (hls : endsItems (peek ls) = false)
    (hp : s.readAtom st ls = .ok p) (hrest : p.rest = rest)
    (hquant : s.readQuantifier rest = .ok ⟨none, rest, length_lt_next⟩)
    {q : Parsed Lexeme (List Expr × Numbering) (rest.length + 1)}
    (hq : s.readItems p.value.2 rest = .ok q) : ∃ p', s.readItems st ls = .ok p' ∧
      p'.value = (p.value.1 :: q.value.1, q.value.2) ∧ p'.rest = q.rest := by
  subst hrest
  have hlt : q.rest.length < ls.length + 1 := by
    have := p.shorter
    have := q.shorter
    omega
  refine ⟨⟨(p.value.1 :: q.value.1, q.value.2), q.rest, hlt⟩, ?_, rfl, rfl⟩
  rw [readItems, if_neg (by rw [hls]; exact Bool.false_ne_true), hp]
  show (s.readQuantifier p.rest >>= _) = _
  rw [hquant]
  show (s.readItems p.value.2 p.rest >>= _) = _
  rw [hq]
  rfl

/-- **The groups of several texts are read as the texts are**, under numberings that are alike, up
to the end. -/
theorem exists_readItems_joined {r r' : Sources} {ls' : List Lexeme}
    (hfree : ∀ source ∈ sources, ActionFree source) (h : readSources env r sources = .ok r')
    (hr : r.clause = none) (hls' : JoinedLexemes sources ls') {s' : Scope} (henv : s'.env = env)
    (hexpanding : s'.expanding = []) {st' : Numbering} (hst : r.numbering.Alike st') :
    ∃ es p', r'.parts = r.parts ++ es ∧ r'.clause = none ∧ s'.readItems st' ls' = .ok p' ∧
      peek p'.rest = .eof ∧ Expr.bareAll p'.value.1 = Expr.bareAll es ∧
      r'.numbering.Alike p'.value.2 := by
  induction hls' generalizing r st' with
  | nil o =>
    rw [readSources] at h
    cases h
    exact ⟨[], ⟨([], st'), [⟨.eof, o⟩], length_lt_next⟩, (List.append_nil _).symm, hr,
      by rw [Scope.readItems]; rfl, rfl, rfl, hst⟩
  | @cons source sources ls inner rest o₁ o₂ hls hinner heof hrest ih =>
    rw [List.forall_mem_cons] at hfree
    obtain ⟨ls₁, p, hls₁, hp, hend, h⟩ := hfree.1.exists_of_readSources_cons h
    obtain rfl : ls₁ = ls := Except.ok.inj (hls₁.symm.trans hls)
    have hs : Scope.Covers False { env, source } s' := by
      refine ⟨henv, fun name hname => ?_⟩
      rw [Scope.isExpanding, hexpanding] at hname
      cases hname
    obtain ⟨p₁, hp₁, hrest₁, halike⟩ :=
      Scope.exists_readAtom_group hs st' hinner heof hp hend o₁ o₂ rest
    obtain ⟨he, hst₁⟩ := halike hst
    obtain ⟨es, q, hparts, hclause, hq, hpeek, hes, hst'⟩ := ih hfree.2 h rfl hst₁
    obtain ⟨p', hp', hvalue, hrest'⟩ := Scope.exists_readItems_of_atom rfl hp₁ hrest₁
      (hrest.readQuantifier s') hq
    refine ⟨.ofBranches p.value.1 :: es, p', ?_, hclause, hp', hrest' ▸ hpeek, ?_, hvalue ▸ hst'⟩
    · rw [hparts, List.append_assoc]
      rfl
    · rw [hvalue, Expr.bareAll, Expr.bareAll, he, hes]

/-- Several texts and the single text are read as the same, but for groups that do not capture and
for offsets. -/
theorem exists_readSources_joined {r : Sources} (hfree : ∀ source ∈ sources, ActionFree source)
    (h : readSources env {} sources = .ok r) : ∃ r', readSources env {} [joined sources] = .ok r' ∧
      r.clause = none ∧ r'.clause = none ∧
      (Expr.ofItems r'.parts).bare = (Expr.ofItems r.parts).bare ∧
      r.numbering.Alike r'.numbering := by
  obtain ⟨ls, hls, hjoined⟩ := exists_lexemes_joined (exists_lexemes_of_readSources hfree h) 0
  let s : Scope := { env, source := joined sources }
  have henv : s.env = env := rfl
  have hst : Numbering.Alike {} {} := ⟨rfl, rfl, rfl⟩
  obtain ⟨es, p, hparts, hclause, hp, hpeek, hes, hst⟩ :=
    exists_readItems_joined hfree h rfl hjoined henv rfl hst
  have hbranches : s.readBranches {} ls =
      .ok ⟨([Expr.ofItems p.value.1], p.value.2), p.rest, p.shorter⟩ := by
    rw [Scope.readBranches, hp]
    dsimp only [bind, Except.bind]
    split
    · next heq =>
      rw [heq] at hpeek
      cases hpeek
    · rfl
  have hlexemes : lexemes (joined sources) = .ok ls := hls
  refine ⟨{ parts := [Expr.ofItems p.value.1], numbering := p.value.2 }, ?_, hclause, rfl, ?_, hst⟩
  · rw [readSources, hlexemes]
    show (s.readBranches {} ls >>= _) = _
    rw [hbranches]
    have hend : s.expectEnd p.rest = .ok () := by
      rw [Scope.expectEnd, hpeek]
    dsimp only [bind, Except.bind]
    split
    · next heq =>
      rw [heq] at hpeek
      cases hpeek
    · rw [hend]
      rfl
  · rw [hparts]
    show (Expr.ofItems p.value.1).bare = _
    rw [Expr.bare_ofItems, Expr.bare_ofItems, hes]
    rfl

/-! ## Compiling -/

/-- **Several texts are compiled as one**: like a sequence of them in parentheses, but for groups
that do not capture. -/
theorem compile_joined {p : Pattern} (hfree : ∀ source ∈ sources, ActionFree source)
    (h : compileAll env sources = .ok p) : ∃ p', compile env (joined sources) = .ok p' ∧
      p'.root.bare = p.root.bare ∧ p'.groupCount = p.groupCount ∧
      p'.root.groups = p.root.groups ∧ p'.root.backrefs = p.root.backrefs ∧
      p'.names = p.names ∧ p'.program = p.program := by
  obtain ⟨r, hr, hvalid, hnames, hcount, hroot⟩ := exists_sources_of_compileAll h
  obtain ⟨r', hr', hclause, hclause', hbody, hst⟩ := exists_readSources_joined hfree hr
  obtain ⟨⟨⟩, hvalid', -⟩ := (hst.keeps_validate hbody env.order env.order () hvalid).resolve_left id
  obtain ⟨-, hroot⟩ | ⟨c, target, hc, -⟩ := hroot
  · rw [← hroot] at hbody
    refine ⟨.build (" ".intercalate [joined sources]) (.ofItems r'.parts) r'.numbering.names
      r'.numbering.next, ?_, hbody, hst.next_eq.trans hcount.symm, ?_, ?_,
      hst.names_eq.trans hnames.symm, ?_⟩
    · rw [compile, compileAll, hr']
      show (r'.numbering.validate env.order (.ofItems r'.parts) >>= _) = _
      rw [hvalid', hclause']
      rfl
    · show (Expr.ofItems r'.parts).groups = p.root.groups
      rw [← Expr.groups_bare, hbody, Expr.groups_bare]
    · show (Expr.ofItems r'.parts).backrefs = p.root.backrefs
      rw [← Expr.backrefs_bare, hbody, Expr.backrefs_bare]
    · show Program.lower (Expr.ofItems r'.parts) = p.program
      rw [p.program_eq, ← Expr.lower_bare, hbody, Expr.lower_bare]
  · rw [hclause] at hc
    cases hc

/-- A variable with a group in the first text, and references from an alternative of the second text
to the groups of the first. -/
theorem compile_joined_of_references :
    let env : Environment := { patterns := [("v", .source "([])")] }
    let sources := ["(?$x [])$v", "\\2(\\1)|[]"]
    (∀ source ∈ sources, ActionFree source) ∧ ∃ p, compileAll env sources = .ok p ∧
      p.root.groups = [(1, some "x"), (2, none), (3, none)] ∧ p.root.backrefs = [2, 1] ∧
      p.names = [("x", 1)] ∧
      ∃ p', compile env "(?: (?$x [])$v ) (?: \\2(\\1)|[] )" = .ok p' ∧
        p'.root.bare = p.root.bare ∧ p'.groupCount = p.groupCount ∧
        p'.root.groups = p.root.groups ∧ p'.root.backrefs = p.root.backrefs ∧
        p'.names = p.names ∧ p'.program = p.program := by
  intro env sources
  have hfirst : lexemes "(?$x [])$v" = .ok [⟨.namedGroup "x", 0⟩, ⟨.lbracket, 5⟩, ⟨.rbracket, 6⟩,
    ⟨.rparen, 7⟩, ⟨.var "v", 8⟩, ⟨.eof, 10⟩] := by decide +kernel
  have hsecond : lexemes "\\2(\\1)|[]" = .ok [⟨.backref 2, 0⟩, ⟨.lparen, 2⟩, ⟨.backref 1, 3⟩,
    ⟨.rparen, 5⟩, ⟨.pipe, 6⟩, ⟨.lbracket, 7⟩, ⟨.rbracket, 8⟩, ⟨.eof, 9⟩] := by decide +kernel
  have hfree : ∀ source ∈ sources, ActionFree source := by
    refine List.forall_mem_cons.2 ⟨fun ls hls => ?_, List.forall_mem_singleton.2 fun ls hls => ?_⟩
    · cases hfirst.symm.trans hls
      decide
    · cases hsecond.symm.trans hls
      decide
  have hparts : (compileAll env sources).map (fun p => (p.root.groups, p.root.backrefs, p.names)) =
      .ok ([(1, some "x"), (2, none), (3, none)], [2, 1], [("x", 1)]) := by
    simp only [compileAll, readSources, sources, hfirst, hsecond]
    cbv
  have hjoined : joined sources = "(?: (?$x [])$v ) (?: \\2(\\1)|[] )" := by decide +kernel
  cases hp : compileAll env sources with
  | error e =>
    rw [hp] at hparts
    cases hparts
  | ok p =>
    rw [hp] at hparts
    simp only [Except.map, Except.ok.injEq, Prod.mk.injEq] at hparts
    obtain ⟨p', hp', hsame⟩ := compile_joined hfree hp
    rw [hjoined] at hp'
    exact ⟨hfree, p, rfl, hparts.1, hparts.2.1, hparts.2.2, p', hp', hsame⟩

end Motif
