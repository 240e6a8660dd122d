import Motif.Compile
import Motif.Proofs.Extremes
import Motif.Proofs.Spacing

/-!
# Texts in quotation marks

Every text can be written in quotation marks, with a backslash in front of each quotation mark and
each backslash in it. It is read as one symbol, and as a pattern it stands for the elements with
that text.

* `escaped`, `quotation`: how a text is written.
* `quotedAt_escaped`: what is read of it.
* `lexemes_quotation`: its lexeme, and those of what stands behind it.
* `Search.matchAt_node_eq_some_iff`: a pattern of one element.
* **`quotation_stands_for_text`**: what the quotation of a text means.
-/

namespace Motif

/-! ## Spelling -/

/-- A text with a backslash in front of each quotation mark and each backslash. -/
def escaped : List Char → List Char
  | [] => []
  | c :: cs => if c = '"' ∨ c = '\\' then '\\' :: c :: escaped cs else c :: escaped cs

/-- A text in quotation marks. -/
def quotation (text : String) : String := String.ofList ('"' :: (escaped text.toList ++ ['"']))

theorem quotedAt_escaped (text rest : List Char) :
    quotedAt? '"' (escaped text ++ '"' :: rest) = some (text, (escaped text).length + 1) := by
  induction text with
  | nil => rw [escaped, List.nil_append, quotedAt?.eq_def]; simp
  | cons c cs ih =>
    by_cases hc : c = '"' ∨ c = '\\'
    · rw [escaped, if_pos hc, List.cons_append, List.cons_append, quotedAt?, ih]
      simp
    · rw [escaped, if_neg hc, List.cons_append, quotedAt?.eq_def]
      rw [not_or] at hc
      simp [hc.1, hc.2, ih]

theorem toList_quotation_append (text rest : String) :
    (quotation text ++ rest).toList = '"' :: (escaped text.toList ++ '"' :: rest.toList) := by
  simp [quotation, String.toList_append]

theorem scanAfter_quotation (o : Nat) (text rest : List Char) :
    scanAfter false o '"' (escaped text ++ '"' :: rest) =
      .ok (.str (String.ofList text), (escaped text).length + 1) := by
  rw [scanAfter, Bool.false_and, if_neg Bool.false_ne_true]
  unfold scanSymbol
  simp only [quotedAt_escaped]

theorem lexemes_quotation_append (text rest : String) :
    lexemes (quotation text ++ rest) =
      (lexemesFrom false (quotation text).utf8ByteSize rest.toList).map (⟨.str text, 0⟩ :: ·) := by
  have hsize : (quotation text).utf8ByteSize =
      0 + byteLength ('"' :: (escaped text.toList ++ ['"'])) := by
    rw [quotation, utf8ByteSize_ofList, Nat.zero_add]
  have hlex := (Place.Yields.lexeme (by decide +kernel)
    (scanAfter_quotation 0 text.toList rest.toList) (.done _)).lexemes_eq
  have hlen : (escaped text.toList ++ ['"']).length = (escaped text.toList).length + 1 :=
    List.length_append
  rw [List.append_cons, List.take_left' hlen, List.drop_left' hlen, String.ofList_toList,
    ← hsize, ← List.append_cons] at hlex
  rw [lexemes, toList_quotation_append]
  exact hlex

theorem lexemes_quotation (text : String) : lexemes (quotation text) =
    .ok [⟨.str text, 0⟩, ⟨.eof, (quotation text).utf8ByteSize⟩] := by
  have h := lexemes_quotation_append text ""
  rw [String.append_empty, String.toList_empty, lexemesFrom] at h
  exact h

/-! ## Patterns of one element -/

theorem compile_literal (env : Environment) {source text : String} {o n : Nat}
    (h : lexemes source = .ok [⟨.str text, o⟩, ⟨.eof, n⟩]) : compile env source =
      .ok (.build source (.node (.attr env.defaultKey (env.equality text))) [] 1) := by
  simp only [compile, compileAll, readSources, h]
  cbv

theorem NodePattern.accepts_text_iff {text : String} {e : Element} :
    (attr .text (.equals text false)).accepts e = .ok true ↔ e.text = text := by
  show Except.ok (Verdict.ofBool (e.text == text)).isAccept = Except.ok true ↔ _
  by_cases h : e.text = text <;> simp [h, Verdict.ofBool, Verdict.isAccept]

theorem Trial.head?_ofNode_eq_some_ok {elements : Array Element} {p : NodePattern} {q r : Path} :
    (ofNode elements p q).head? = some (.ok r) ↔ ofNode elements p q = [.ok r] := by
  obtain h | ⟨err, h⟩ | ⟨r', h⟩ := ofNode_cases elements p q <;> simp [h]

namespace Search

variable {s : Search} {p : NodePattern} {pos : Nat} {m : Match}

theorem matchAt_node_eq_some_iff (hroot : s.pattern.root = .node p)
    (hs : s.options.maxSteps = none) : (s.matchAt pos).result = .ok (some m) ↔
      ∃ q, Trial.ofNode s.elements p (.entry s.pattern.groupCount pos) = [.ok q] ∧
        m = s.report pos q := by
  have hpaths : s.pattern.pathsFrom s.elements s.render pos =
      Trial.ofNode s.elements p (.entry s.pattern.groupCount pos) := by
    rw [Pattern.pathsFrom, hroot, Expr.paths]
  by_cases hpos : pos ≤ s.length
  · simp only [matchAt_eq_some_iff hs hpos, hpaths, Trial.head?_ofNode_eq_some_ok]
  · refine iff_of_false (fun h => hpos (attempts_of_matchAt h).1) ?_
    rintro ⟨q, hq, -⟩
    obtain ⟨x, hx, -⟩ := Trial.exists_ofNode_iff.1 ⟨q, hq⟩
    exact hpos (Nat.le_of_lt (Array.getElem?_eq_some_iff.1 hx).1)

theorem exists_matchAt_of_functions (hf : s.pattern.root.functions = [])
    (hs : s.options.maxSteps = none) (hpos : pos ≤ s.length) :
    ∃ found, (s.matchAt pos).result = .ok found := by
  cases hr : (s.matchAt pos).result with
  | ok found => exact ⟨found, rfl⟩
  | error e =>
    have hno : ¬ (s.matchAt pos).Fails := not_fails_matchAt hs (by rw [hf]; exact nofun)
    obtain ⟨err, rfl⟩ : ∃ err, e = .predicate err :=
      error_of_attempts hs (matchAt_of_le hpos ▸ hr)
    exact absurd ⟨err, hr⟩ hno

end Search

/-! ## Quotations as patterns -/

/-- **Every text can be quoted**: as a pattern it matches at the elements that have the text, and
nowhere else. -/
theorem quotation_stands_for_text (text : String) :
    (∀ rest ls, lexemes rest = .ok ls → lexemes (quotation text ++ rest) =
      .ok (⟨.str text, 0⟩ :: ls.map (Lexeme.moved (quotation text).utf8ByteSize))) ∧
    ∃ p, compile {} (quotation text) = .ok p ∧
      ∀ s : Search, s.pattern = p → s.options.maxSteps = none → ∀ pos,
        ((∃ m, (s.matchAt pos).result = .ok (some m)) ↔
          ∃ h : pos < s.elements.size, s.elements[pos].text = text) ∧
        (∀ m, (s.matchAt pos).result = .ok (some m) → m.span = ⟨pos, pos + 1⟩) ∧
        (pos ≤ s.length → ∃ found, (s.matchAt pos).result = .ok found) := by
  refine ⟨fun rest ls hls => ?_, _, compile_literal {} (lexemes_quotation text),
    fun s hp hs pos => ?_⟩
  · have hmoved := Place.lexemesFrom_moved hls (quotation text).utf8ByteSize
    rw [Nat.add_zero] at hmoved
    rw [lexemes_quotation_append, hmoved]
    rfl
  · have hroot : s.pattern.root = .node (.attr .text (.equals text false)) := by
      rw [hp]
      rfl
    refine ⟨?_, ?_, Search.exists_matchAt_of_functions (by rw [hroot]; rfl) hs⟩
    · calc (∃ m, (s.matchAt pos).result = .ok (some m))
        _ ↔ ∃ q, Trial.ofNode s.elements (.attr .text (.equals text false))
              (.entry s.pattern.groupCount pos) = [.ok q] := by
          simp only [Search.matchAt_node_eq_some_iff hroot hs]
          rw [exists_comm]
          simp only [exists_and_left, exists_eq, and_true]
        _ ↔ ∃ x, s.elements[pos]? = some x ∧ x.text = text := by
          rw [Trial.exists_ofNode_iff]
          simp only [NodePattern.accepts_text_iff, Path.entry]
        _ ↔ ∃ h : pos < s.elements.size, s.elements[pos].text = text := by
          simp only [Array.getElem?_eq_some_iff]
          constructor
          · rintro ⟨x, ⟨h, rfl⟩, ht⟩
            exact ⟨h, ht⟩
          · rintro ⟨h, ht⟩
            exact ⟨_, ⟨h, rfl⟩, ht⟩
    · intro m hm
      obtain ⟨q, hq, rfl⟩ := (Search.matchAt_node_eq_some_iff hroot hs).1 hm
      rw [Search.span_report, (Trial.pos_slots_of_ofNode hq).1]
      rfl

/-- A quotation mark, a backslash and a letter of two bytes, in front of a test of any element. -/
theorem quotation_stands_for_text_of_marks :
    let text := "\"\\é"
    let word (text : String) : Element := ⟨text, fun _ => none⟩
    quotation text = "\"\\\"\\\\é\"" ∧ lexemes " []" =
        .ok [⟨.lbracket, 1⟩, ⟨.rbracket, 2⟩, ⟨.eof, 3⟩] ∧
      lexemes (quotation text ++ " []") =
        .ok [⟨.str text, 0⟩, ⟨.lbracket, 9⟩, ⟨.rbracket, 10⟩, ⟨.eof, 11⟩] ∧
      ∃ p, compile {} (quotation text) = .ok p ∧
        let s : Search := { pattern := p, elements := #[word "é", word text] }
        s.options.maxSteps = none ∧ ∃ m, (s.matchAt 1).result = .ok (some m) ∧ m.span = ⟨1, 2⟩ := by
  intro text word
  have hrest : lexemes " []" = .ok [⟨.lbracket, 1⟩, ⟨.rbracket, 2⟩, ⟨.eof, 3⟩] := by
    decide +kernel
  obtain ⟨hlexemes, p, hp, hmatches⟩ := quotation_stands_for_text text
  have h := hmatches { pattern := p, elements := #[word "é", word text] } rfl rfl 1
  obtain ⟨m, hm⟩ := h.1.2 ⟨Nat.one_lt_two, rfl⟩
  have hsize : (quotation text).utf8ByteSize = 8 := by decide +kernel
  have hmoved := hlexemes _ _ hrest
  rw [hsize] at hmoved
  exact ⟨by decide +kernel, hrest, hmoved, p, hp, rfl, m, hm, h.2.1 m hm⟩

end Motif
