import Motif.Proofs.Expansion
import Motif.Proofs.Openers

/-!
# Errors about the whole, and the places they point to

Whether names recur and references are to groups is only known of a complete pattern. What is then
said of a group with a name points into the text that is compiled: to the opening of the group, or
to the variable that stands for what it is part of, however deep in the texts of other variables. A
reference that is made in the text of a variable is an exception, since the offset that is reported
is the one in that text.

* **`final_errors_point_into_text`**: where errors about names and references point.
* `final_errors_miss_text`: a reference in the text of a variable, and a group without a number.
-/

namespace Motif

theorem exists_accounts_of_readSources {env : Environment} {source : String} {r : Sources}
    (h : readSources env {} [source] = .ok r) :
    ∃ ls, lexemes source = .ok ls ∧ Numbering.Reads env {} r.numbering [.ofItems r.parts] ∧
      Scope.Accounts { env, source } ({}, ls) [.ofItems r.parts] r.numbering := by
  obtain ⟨ls, p, hls, hp, h⟩ := exists_of_readSources_cons h
  have hreads := (Scope.reads_of_readBranches _ _ _ hp).ofBranches
  have haccounts := (Scope.accounts_of_readBranches _ _ _ hp).ofBranches
  refine ⟨ls, hls, ?_⟩
  obtain ⟨-, -, c, rfl⟩ | ⟨-, h⟩ := h
  · exact ⟨hreads, haccounts⟩
  · cases h
    exact ⟨hreads, haccounts⟩

theorem exists_sources_of_final {env : Environment} {sources : List String} {x : CompileError}
    (hx : x.isFinal = true) (h : compileAll env sources = .error x) :
    ∃ r, readSources env {} sources = .ok r ∧
      (r.numbering.validate env.order (.ofItems r.parts) = .error x ∨
        ∃ c, r.clause = some c ∧ r.numbering.target c = .error x) := by
  refine (error_of_compileAll h).resolve_left fun h => ?_
  rw [(early_readSources env {} sources).isFinal x h] at hx
  cases hx

/-- **Errors about the whole point to what they are about**, except for references in the text of a
variable. -/
theorem final_errors_point_into_text (env : Environment) (source : String) :
    (∀ name offset, env.NumbersNames →
      compile env source = .error (.duplicateGroupName name offset) →
      ∃ ls r a b g l, lexemes source = .ok ls ∧ readSources env {} [source] = .ok r ∧
        (Expr.ofItems r.parts).Clash name a b ∧ a < b ∧
        (Expr.ofItems r.parts).NamedAt b name (some g) ∧
        Scope.Opens { env, source } ({}, ls) name g l ∧
        l.StandsIn source ∧ l.offset = offset ∧ offset < source.utf8ByteSize) ∧
    ∀ id offset, compile env source = .error (.invalidBackref id offset) →
      ∃ ls r, lexemes source = .ok ls ∧ readSources env {} [source] = .ok r ∧
        ((∃ c, r.clause = some c ∧ r.numbering.target c = .error (.invalidBackref id offset)) ∨
          ¬ (1 ≤ id ∧ id < r.numbering.next) ∧
          ∃ t : Scope, Scope.Refers { env, source } ({}, ls) t (id, offset) ∧
            (⟨.backref id, offset⟩ : Lexeme).StandsIn t.source ∧
            (t = { env, source } ∧ offset < source.utf8ByteSize ∨
              ∃ v, (⟨.var v, t.site offset⟩ : Lexeme).StandsIn source)) := by
  refine ⟨fun name offset henv h => ?_, fun id offset h => ?_⟩
  · obtain ⟨r, hr, hv⟩ := exists_sources_of_final rfl h
    have hv := hv.resolve_right fun ⟨_, _, ht⟩ => by
      obtain ⟨_, heq⟩ | ⟨_, heq⟩ := Numbering.error_of_target ht <;> cases heq
    obtain ⟨ls, hls, hreads, haccounts⟩ := exists_accounts_of_readSources hr
    obtain ⟨name', a, b, id, hclash, hlt, hb, heq⟩ := Numbering.blamed_of_validate hv
    cases heq
    -- the group has a number, and what is remembered of it is the lexeme that opens it
    obtain ⟨g, rfl, -, -⟩ := hreads.numbers henv (Nat.le_refl 1) _ (List.mem_singleton_self _) name
      id ⟨b, hb⟩
    obtain ⟨l, hl, hsite⟩ := haccounts.named henv (Nat.le_refl 1) _ (List.mem_singleton_self _) name
      g ⟨b, hb⟩
    have hstands := standsIn_of_mem_lexemes hls hl.mem.1 hl.mem.2
    have hoffset : l.offset = (r.numbering.sites.lookup g).getD 0 := by
      rw [hsite]
      rfl
    exact ⟨ls, r, a, b, g, l, hls, hr, hclash, hlt, hb, hl, hstands, hoffset,
      hoffset ▸ hstands.offset_lt⟩
  · obtain ⟨r, hr, hv | ht⟩ := exists_sources_of_final rfl h
    all_goals obtain ⟨ls, hls, -, haccounts⟩ := exists_accounts_of_readSources hr
    · obtain ⟨ref, href, hbad, heq⟩ | ⟨_, _, heq, -⟩ := Numbering.error_of_validate hv
      · cases heq
        obtain ⟨t, ht⟩ := (haccounts.backrefs ref href).resolve_left List.not_mem_nil
        have hstands := ht.standsIn hls List.suffix_rfl
        refine ⟨ls, r, hls, hr, .inr ⟨hbad, t, ht, hstands, ?_⟩⟩
        obtain rfl | ⟨st, v, o, rest, hcomes, hsite⟩ := ht.eq_or_exists
        · exact .inl ⟨rfl, hstands.offset_lt⟩
        · refine .inr ⟨v, ?_⟩
          rw [hsite]
          exact standsIn_of_mem_lexemes hls (hcomes.suffix.mem List.mem_cons_self) rfl
      · cases heq
    · exact ⟨ls, r, hls, hr, .inl ht⟩

/-- A name that recurs two variables away is refused at the variable in the text; a reference in the
text is refused where it stands. -/
theorem final_errors_point_into_text_of_nested :
    let inner : Pattern := .build "(?$v [])" (.group (.node .any) (some 1) (some "v")) [("v", 1)] 2
    let env : Environment := { patterns := [("x", .source "$_$_"), ("_", .compiled inner)] }
    env.NumbersNames ∧
    compile env " $x" = .error (.duplicateGroupName "v" 1) ∧
    (∃ ls g l, lexemes " $x" = .ok ls ∧ Scope.Opens { env, source := " $x" } ({}, ls) "v" g l ∧
      l.StandsIn " $x" ∧ l.offset = 1 ∧ 1 < " $x".utf8ByteSize) ∧
    compile env "^\\7" = .error (.invalidBackref 7 1) ∧
    ∃ ls r, lexemes "^\\7" = .ok ls ∧ readSources env {} ["^\\7"] = .ok r ∧
      ((∃ c, r.clause = some c ∧ r.numbering.target c = .error (.invalidBackref 7 1)) ∨
        ¬ (1 ≤ 7 ∧ 7 < r.numbering.next) ∧
        ∃ t, Scope.Refers { env, source := "^\\7" } ({}, ls) t (7, 1)) := by
  intro inner env
  have hnumbers : env.NumbersNames := by
    intro v p hp name id hname
    obtain ⟨-, rfl⟩ : v = "_" ∧ p = inner := by
      simpa [env] using Environment.mem_of_pattern?_eq_some hp
    obtain ⟨rfl, -⟩ | h := Expr.named_group.1 hname
    · exact ⟨1, rfl, by decide, by decide⟩
    · exact absurd h (Expr.not_named_of_children_eq_nil rfl)
  have hname : compile env " $x" = .error (.duplicateGroupName "v" 1) := by
    have h₁ : lexemes " $x" = .ok [⟨.var "x", 1⟩, ⟨.eof, 3⟩] := by decide +kernel
    have h₂ : lexemes "$_$_" = .ok [⟨.var "_", 0⟩, ⟨.var "_", 2⟩, ⟨.eof, 4⟩] := by decide +kernel
    have hb : env.pattern? "x" = some (.source "$_$_") := rfl
    simp only [compile, compileAll, readSources, h₁]
    change (Scope.readBranches _ _ [⟨.var "x", 1⟩, ⟨.eof, 3⟩] >>= _) >>= _ = _
    rw [Scope.readBranches, Scope.readItems, if_neg (by decide), Scope.readAtom_var,
      if_neg (by decide), hb]
    change ((((lexemes "$_$_" >>= _) >>= _) >>= _) >>= _) >>= _ = _
    rw [h₂]
    cbv
  have href : compile env "^\\7" = .error (.invalidBackref 7 1) := by
    have h : lexemes "^\\7" = .ok [⟨.caret, 0⟩, ⟨.backref 7, 1⟩, ⟨.eof, 3⟩] := by decide +kernel
    simp only [compile, compileAll, readSources, h]
    cbv
  obtain ⟨ls, r, a, b, g, l, hls, -, -, -, -, hl, hstands, hoffset, hlt⟩ :=
    (final_errors_point_into_text env " $x").1 "v" 1 hnumbers hname
  obtain ⟨ls', r', hls', hr', hr⟩ := (final_errors_point_into_text env "^\\7").2 7 1 href
  refine ⟨hnumbers, hname, ⟨ls, g, l, hls, hl, hstands, hoffset, hlt⟩, href, ls', r', hls', hr', ?_⟩
  obtain hc | ⟨hbad, t, ht, -⟩ := hr
  · exact .inl hc
  · exact .inr ⟨hbad, t, ht⟩

/-- A reference in the text of a variable is refused at a place that the text at hand does not have.
-/
theorem final_errors_miss_text :
    let env : Environment := { patterns := [("X", .source "[] \\1")] }
    compile env "$X" = .error (.invalidBackref 1 3) ∧ "$X".utf8ByteSize = 2 ∧
    ∃ p ls, Pattern.ofExpr "" (.group (.node .any) none (some "x")) = .ok p ∧
      compile { patterns := [("X", .compiled p)] } "\"a\" $X $X" =
        .error (.duplicateGroupName "x" 0) ∧
      lexemes "\"a\" $X $X" = .ok ls ∧ ∀ l ∈ ls, l.offset = 0 → l.symbol.isGrouping = false := by
  intro env
  have h₁ : lexemes "$X" = .ok [⟨.var "X", 0⟩, ⟨.eof, 2⟩] := by decide +kernel
  have h₂ : lexemes "\"a\" $X $X" =
      .ok [⟨.str "a", 0⟩, ⟨.var "X", 4⟩, ⟨.var "X", 7⟩, ⟨.eof, 9⟩] := by decide +kernel
  refine ⟨?_, by decide +kernel, _, _, rfl, ?_, h₂, by decide⟩
  · simp only [compile, compileAll, readSources, h₁]
    cbv
  · simp only [compile, compileAll, readSources, h₂]
    cbv

end Motif
