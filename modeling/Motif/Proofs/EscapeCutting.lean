import Motif.Proofs.Cutting
import Motif.Regex.Escape

/-!
# Escapes and counts in front of the closing anchor

* `Regex.Cuts.readHex`, `Regex.Cuts.readProperty`, `Regex.Cuts.readCount`: numbers, properties and
  counts read the same without the closing anchor.
* `Regex.readCount_eq`: a count, put together from readers of its parts.
* `Regex.DeadEnd`: a brace that starts neither a word nor a count.
* `Regex.readEscape_cut`: so do escapes, but a word boundary in front of a dead end.
-/

namespace Motif.Regex

variable (n : Nat) (m : Mode)

/-! ## Characters by number -/

theorem readHexDigits_succ (k : Nat) : readHexDigits? m (k + 1) = fun
    | [] => none
    | c :: cs => if (hexValue? c).isSome then
      (readHexDigits? m k (m.skip cs)).bind fun p => some (c :: p.1, p.2) else none := by
  funext cs
  cases cs with
  | nil => rfl
  | cons c cs =>
    rw [readHexDigits?, Option.map_eq_bind]
    rfl

theorem Cuts.readHexDigits (k : Nat) : CutsSelf n (readHexDigits? m k) := by
  induction k with
  | zero => exact .done []
  | succ k ih =>
    have hstep (c : Char) : CutsSelf n fun cs =>
        if (hexValue? c).isSome then
          (readHexDigits? m k (m.skip cs)).bind fun p => some (c :: p.1, p.2)
        else none := by
      split
      · exact (ih.skipped m).andThen fun ds => .done (c :: ds)
      · exact .fail
    rw [readHexDigits_succ]
    exact (Cuts.next hstep).mono (Nat.le_succ n)

theorem Cuts.readHex (k : Nat) : CutsSelf n (readHex? m k) := by
  refine .of fun {xs ys a} h => ?_
  rw [readHex?] at h
  split at h
  · next braced hskip =>
    split at h
    · next d ds ys' hds =>
      obtain ⟨c, hc, h⟩ := Option.map_eq_some_iff.1 h
      cases h
      have hsuffix : '\x7d' :: ys <:+ braced :=
        (Cuts.collect (n := n) m _).suffix (congrArg some hds)
      have hbraced : '\x7b' :: braced <:+ xs := hskip ▸ m.skip_suffix xs
      refine ⟨(suffix_of_cons hsuffix).trans (suffix_of_cons hbraced), ?_⟩
      rintro cs rest hn rfl rfl
      obtain ⟨braced, rfl, -⟩ := exists_of_append_suffix
        (show '\x7d' :: rest ++ closing <:+ _ from hsuffix)
      have h₁ : m.skip cs = '\x7b' :: braced := m.skip_cut hskip
      have h₂ : m.collect (fun c => (hexValue? c).isSome) false braced =
          (d :: ds, '\x7d' :: rest) := m.collect_cut hds
      simp [readHex?, h₁, h₂, hc]
    · cases h
  · next hbrace =>
    obtain ⟨⟨ds, ys'⟩, hds, h⟩ := Option.bind_eq_some_iff.1 h
    obtain ⟨c, hc, h⟩ := Option.bind_eq_some_iff.1 h
    cases h
    have hdigits := Cuts.readHexDigits n m k
    refine ⟨(hdigits.skipped m).suffix hds, ?_⟩
    rintro cs rest hn rfl rfl
    have hskip := m.skip_append (hdigits.suffix hds)
    rw [readHex?]
    split
    · next braced hb => exact absurd (by rw [hskip, hb]; rfl) (hbrace (braced ++ closing))
    · simp [(hdigits.skipped m).cut hn hds, hc]

/-! ## Properties -/

/-- Reads the name of a property: in braces, or one character. -/
def readPropertyName? (m : Mode) (cs : List Char) : Option (List Char × List Char) :=
  match m.skip cs with
  | [] => none
  | '\x7b' :: rest =>
    match m.collect (· != '\x7d') false rest with
    | (name, _ :: rest) => some (name, rest)
    | (_, []) => none
  | c :: rest => if c == '\\' then none else some ([c], rest)

theorem Cuts.readPropertyName : CutsSelf n (readPropertyName? m) := by
  refine .of fun {xs ys name} h => ?_
  rw [readPropertyName?] at h
  split at h
  · cases h
  · next braced hskip =>
    split at h
    · next name' c ys' hname =>
      cases h
      have hsuffix : c :: ys <:+ braced := (Cuts.collect (n := n) m _).suffix (congrArg some hname)
      have hbraced : '\x7b' :: braced <:+ xs := hskip ▸ m.skip_suffix xs
      refine ⟨(suffix_of_cons hsuffix).trans (suffix_of_cons hbraced), ?_⟩
      rintro cs rest hn rfl rfl
      obtain ⟨braced, rfl, -⟩ := exists_of_append_suffix
        (show c :: rest ++ closing <:+ _ from hsuffix)
      have h₁ : m.skip cs = '\x7b' :: braced := m.skip_cut hskip
      have h₂ : m.collect (· != '\x7d') false braced = (name, c :: rest) := m.collect_cut hname
      simp [readPropertyName?, h₁, h₂]
    · cases h
  · next c ys' hbrace hskip =>
    split at h
    · cases h
    · next hc =>
      cases h
      refine ⟨suffix_of_cons (hskip ▸ m.skip_suffix xs), ?_⟩
      rintro cs rest hn rfl rfl
      have h₁ : m.skip cs = c :: rest := m.skip_cut hskip
      have hc' : c ≠ '\\' := by simpa using hc
      rw [readPropertyName?, h₁]
      split
      · next h₂ => cases h₂
      · next h₂ => exact absurd (List.cons.inj h₂).1 hbrace
      · next h₂ => cases h₂; simp [hc']

/-- What a property stands for, by its name. -/
def propertyAtom? (m : Mode) (negated : Bool) (name : List Char) : Option Atom := do
  let (complement, s) ← propertyClass? name
  if m.unicode then
    let s ← m.finish? (negated != complement) s
    return .chars s
  else none

theorem readProperty_eq (negated : Bool) (cs : List Char) : readProperty? m negated cs =
    (readPropertyName? m cs).bind fun p => (propertyAtom? m negated p.1).map (·, p.2) := by
  have hatom (name rest : List Char) :
      (do
        let (complement, s) ← propertyClass? name
        if m.unicode then
          let s ← m.finish? (negated != complement) s
          return (Atom.chars s, rest)
        else none) = (propertyAtom? m negated name).map (·, rest) := by
    rw [propertyAtom?]
    cases propertyClass? name with
    | none => rfl
    | some q =>
      cases hm : m.unicode with
      | false => rfl
      | true => cases hs : m.finish? (negated != q.1) q.2 <;> simp [hs]
  rw [readProperty?]
  split
  · next hskip => simp [readPropertyName?, hskip]
  · next rest hskip =>
    split
    · next name c rest hname =>
      simp only [readPropertyName?, hskip, hname, Option.bind_some, ← hatom]
      rfl
    · next hname => simp [readPropertyName?, hskip, hname]
  · next c rest hbrace hskip =>
    split
    · next hc => simp [readPropertyName?, hskip, hc]
    · next hc =>
      simp only [readPropertyName?, hskip, hc, ← hatom]
      rfl

theorem Cuts.readProperty (negated : Bool) : CutsSelf n (readProperty? m negated) := by
  rw [funext (readProperty_eq m negated)]
  exact (Cuts.readPropertyName n m).andThen fun name => .ofOption (propertyAtom? m negated name) id

/-! ## Counts -/

theorem Cuts.readDecimal : CutsSelf n (readDecimal? m) := by
  have htail (ds : List Char) : CutsSelf n fun cs =>
      let n := ds.foldl (fun n d => 10 * n + (d.toNat - 0x30)) 0
      if ds.isEmpty || 0x100000000 ≤ n then none
      else some (n, m.skip (cs.dropWhile isBlank)) := by
    dsimp only
    split
    · exact .fail
    · exact ((Cuts.done _).skipped m).blanks
  exact ((Cuts.collect m fun c => '0' ≤ c && c ≤ '9').andThen htail).blanks

/-- Reads the closing brace of a count, which may be refused. -/
def readBrace? {α : Type} (a : Option α) : Reader α
  | [] => none
  | c :: cs => if c = '\x7d' then a.map (·, cs) else none

/-- Reads the greatest number of a count after its comma, if there is one, and the brace. -/
def readMaximum? (m : Mode) (min : Nat) : Reader (Option Nat) := fun cs =>
  if (takeChar '\x7d' cs).1 then some (none, (takeChar '\x7d' cs).2)
  else Reader.andThen (readDecimal? m)
    (fun max => readBrace? (if min ≤ max then some (some max) else none)) (takeChar '\x7d' cs).2

/-- Reads what follows the least number of a count. -/
def readUpper? (m : Mode) (min : Nat) : Reader (Option Nat)
  | [] => none
  | c :: cs =>
    if c = '\x7d' then some (some min, cs)
    else if c = ',' then readMaximum? m min (m.skip cs)
    else none

theorem readCount_eq (cs : List Char) : readCount? m cs =
    (readDecimal? m (m.skip cs)).bind fun p =>
      (readUpper? m p.1 p.2).map fun q => (p.1, q.1, q.2) := by
  rw [readCount?]
  refine congrArg _ (funext fun p => ?_)
  obtain ⟨min, rest⟩ := p
  dsimp only
  split
  · rfl
  · next rest =>
    change _ = Option.map _ (readMaximum? m min (m.skip rest))
    rw [readMaximum?]
    split
    · next hskip => simp [hskip, takeChar_cons]
    · next hbrace =>
      rw [takeChar_of_ne hbrace, if_neg Bool.false_ne_true, Reader.andThen, Option.map_bind]
      refine congrArg _ (funext fun p => ?_)
      obtain ⟨max, rest⟩ := p
      dsimp only [Function.comp_apply]
      split
      · split <;> rfl
      · next hbrace =>
        cases rest with
        | nil => rfl
        | cons c rest =>
          have hc : c ≠ '\x7d' := by
            rintro rfl
            exact hbrace rest rfl
          simp [readBrace?, hc]
  · next hbrace hcomma =>
    cases rest with
    | nil => rfl
    | cons c rest =>
      have hc : c ≠ '\x7d' := by
        rintro rfl
        exact hbrace rest rfl
      have hc' : c ≠ ',' := by
        rintro rfl
        exact hcomma rest rfl
      simp [readUpper?, hc, hc']

theorem Cuts.readBrace {α : Type} (a : Option α) : CutsSelf n (readBrace? a) := by
  refine (Cuts.next fun c => ?_).mono (Nat.le_succ n)
  split
  · exact .ofOption a id
  · exact .fail

theorem Cuts.readMaximum (min : Nat) : CutsSelf n (readMaximum? m min) :=
  .ifChar (Cuts.done (n := n) none).suffix (fun _ => .done none)
    ((Cuts.readDecimal n m).andThen fun _ => .readBrace n _)

theorem Cuts.readUpper (min : Nat) : CutsSelf n (readUpper? m min) := by
  refine (Cuts.next fun c => ?_).mono (Nat.le_succ n)
  split
  · exact .done (some min)
  · split
    · exact (Cuts.readMaximum n m min).skipped m
    · exact .fail

theorem Cuts.readCount :
    CutsSelf n fun cs => (readCount? m cs).map fun p => ((p.1, p.2.1), p.2.2) := by
  simp only [readCount_eq, Option.map_bind, Function.comp_def, Option.map_map]
  exact ((Cuts.readDecimal n m).skipped m).andThen fun min => (Cuts.readUpper n m min).map (min, ·)

/-! ## Word boundaries -/

/-- Characters of the names of word boundaries. -/
def isBoundaryChar (c : Char) : Bool := c.isAlpha || c == '-'

/-- The boundaries with a name. -/
def namedBoundary? (ascii : Bool) (name : List Char) : Option Look :=
  match String.ofList name with
  | "start" => some (.wordStart ascii)
  | "end" => some (.wordEnd ascii)
  | "start-half" => some (.wordStartHalf ascii)
  | "end-half" => some (.wordEndHalf ascii)
  | _ => none

/-- Reads the name of a boundary after its brace. -/
def readNamedBoundary? (m : Mode) (cs : List Char) : Option (Atom × List Char) :=
  match m.collect isBoundaryChar false cs with
  | (name, '\x7d' :: rest) =>
    (namedBoundary? (!m.unicode) name).map fun l => (.look l, rest)
  | _ => none

theorem readBoundary_brace (cs : List Char) : readBoundary? m ('\x7b' :: cs) =
    match m.skip cs with
    | [] => none
    | c :: _ =>
      if isBoundaryChar c then readNamedBoundary? m cs
      else some (.look (.boundary !m.unicode), '\x7b' :: cs) := by
  have hnamed : readNamedBoundary? m cs =
      match m.collect isBoundaryChar false cs with
      | (name, '\x7d' :: rest) =>
        match String.ofList name with
        | "start" => some (.look (.wordStart !m.unicode), rest)
        | "end" => some (.look (.wordEnd !m.unicode), rest)
        | "start-half" => some (.look (.wordStartHalf !m.unicode), rest)
        | "end-half" => some (.look (.wordEndHalf !m.unicode), rest)
        | _ => none
      | _ => none := by
    rw [readNamedBoundary?]
    split
    · rw [namedBoundary?]
      split <;> rfl
    · rfl
  rw [readBoundary?]
  cases m.skip cs with
  | nil => rfl
  | cons c _ =>
    cases hc : isBoundaryChar c with
    | true =>
      have hc' : (c.isAlpha || c == '-') = true := hc
      simp only [hc', Bool.not_true, Bool.false_eq_true, if_false]
      exact hnamed.symm.trans (if_pos hc).symm
    | false =>
      have hc' : (c.isAlpha || c == '-') = false := hc
      simp only [hc', Bool.not_false, if_true]
      exact (if_neg (ne_true_of_eq_false hc)).symm

theorem Cuts.readNamedBoundary : CutsSelf n (readNamedBoundary? m) := by
  refine .of fun {xs ys a} h => ?_
  rw [readNamedBoundary?] at h
  split at h
  · next name zs hname =>
    obtain ⟨l, hl, h⟩ := Option.map_eq_some_iff.1 h
    obtain ⟨rfl, rfl⟩ := Prod.mk.inj h
    have hsuffix : '\x7d' :: zs <:+ xs := (Cuts.collect (n := n) m _).suffix (congrArg some hname)
    refine ⟨suffix_of_cons hsuffix, ?_⟩
    rintro cs rest hn rfl rfl
    have h₁ : m.collect isBoundaryChar false cs = (name, '\x7d' :: rest) := m.collect_cut hname
    simp [readNamedBoundary?, h₁, hl]
  · cases h

/-- A brace in front of which a boundary stands at the end of a source: it starts no count, and what
follows it is only blank. -/
def DeadEnd (m : Mode) (cs : List Char) : Prop :=
  ∃ rest, cs = '\x7b' :: rest ∧ readCount? m (rest ++ closing) = none

theorem readCount_closing {cs : List Char} (h : m.skip cs = []) :
    readCount? m (cs ++ closing) = none := by
  have hdecimal (cs : List Char) (h : cs = closing ∨ cs = []) : readDecimal? m cs = none := by
    obtain rfl | rfl := h
    · simp [closing, readDecimal?, isBlank_closing, Mode.collect]
    · rfl
  rw [readCount?, hdecimal _ (m.skip_closing_of_eq_nil h)]
  rfl

theorem readBoundary_of_ne_brace {cs : List Char} (h : ∀ braced, cs ≠ '\x7b' :: braced) :
    readBoundary? m cs = some (.look (.boundary !m.unicode), cs) := by
  unfold readBoundary?
  split
  · next braced => exact absurd rfl (h braced)
  · rfl

theorem readBoundary_suffix {cs rest : List Char} {a : Atom}
    (h : readBoundary? m cs = some (a, rest)) : rest <:+ cs := by
  by_cases hcs : ∃ braced, cs = '\x7b' :: braced
  · obtain ⟨braced, rfl⟩ := hcs
    rw [readBoundary_brace] at h
    split at h
    · cases h
    · split at h
      · exact ((Cuts.readNamedBoundary 0 m).suffix h).trans (List.suffix_cons _ _)
      · cases h
        exact List.suffix_rfl
  · rw [readBoundary_of_ne_brace m (not_exists.1 hcs)] at h
    cases h
    exact List.suffix_rfl

theorem readBoundary_cut {cs rest : List Char} {a : Atom}
    (h : readBoundary? m (cs ++ closing) = some (a, rest ++ closing)) :
    readBoundary? m cs = some (a, rest) ∨ (∃ l, a = .look l) ∧ DeadEnd m rest := by
  by_cases hcs : ∃ braced, cs = '\x7b' :: braced
  · obtain ⟨braced, rfl⟩ := hcs
    rw [List.cons_append, readBoundary_brace] at h
    by_cases hblank : m.skip braced = []
    · -- the boundary stands alone, and its brace is left
      refine .inr ?_
      obtain hskip | hskip := m.skip_closing_of_eq_nil hblank
      · rw [hskip] at h
        obtain ⟨rfl, hrest⟩ := Prod.mk.inj (Option.some.inj h)
        rw [← List.append_cancel_right
          (show '\x7b' :: braced ++ closing = rest ++ closing from hrest)]
        exact ⟨⟨_, rfl⟩, braced, rfl, readCount_closing m hblank⟩
      · rw [hskip] at h
        cases h
    · refine .inl ?_
      rw [m.skip_append_of_ne_nil hblank closing] at h
      rw [readBoundary_brace]
      cases hskip : m.skip braced with
      | nil => exact absurd hskip hblank
      | cons c _ =>
        rw [hskip] at h
        cases hc : isBoundaryChar c with
        | true =>
          simp only [List.cons_append, hc, if_true] at h ⊢
          exact (Cuts.readNamedBoundary braced.length m).cut (Nat.le_refl _) h
        | false =>
          simp only [List.cons_append, hc, Bool.false_eq_true, if_false] at h ⊢
          obtain ⟨rfl, hrest⟩ := Prod.mk.inj (Option.some.inj h)
          rw [List.append_cancel_right
            (show '\x7b' :: braced ++ closing = rest ++ closing from hrest)]
  · have hcs' : ∀ braced, cs ++ closing ≠ '\x7b' :: braced := by
      rintro braced hbrace
      cases cs with
      | nil => exact absurd (List.cons.inj hbrace).1 (by decide)
      | cons c cs => exact hcs ⟨cs, by rw [(List.cons.inj hbrace).1]⟩
    rw [readBoundary_of_ne_brace m hcs'] at h
    obtain ⟨rfl, hrest⟩ := Prod.mk.inj (Option.some.inj h)
    rw [List.append_cancel_right hrest] at hcs ⊢
    exact .inl (readBoundary_of_ne_brace m (not_exists.1 hcs))

/-! ## Escapes -/

theorem Cuts.readEscape (c : Char) (hc : c ≠ 'b') :
    CutsSelf n fun cs => readEscape? m (c :: cs) := by
  refine .of fun {xs ys a} h => ?_
  unfold readEscape? at h
  dsimp only at h
  split at h
  · exact (Cuts.readHex n m 2).both h
  · exact (Cuts.readHex n m 4).both h
  · exact (Cuts.readHex n m 8).both h
  · exact (Cuts.readProperty n m false).both h
  · exact (Cuts.readProperty n m true).both h
  iterate 6 exact (Cuts.ofOption (m.shorthand? _) Atom.chars).both h
  iterate 6 exact (Cuts.done _).both h
  · exact (Cuts.done _).both h
  · exact (Cuts.done _).both h
  · exact absurd rfl hc
  iterate 3 exact (Cuts.done _).both h
  · -- a character that stands for itself
    have heq (zs : List Char) : readEscape? m (c :: zs) =
        if isEscapable c then some (.literal c false, zs) else none := by
      rw [readEscape?]
      all_goals assumption
    split at h
    · next hescapable =>
      have hdone := (Cuts.done (n := n) (Atom.literal c false)).both h
      exact ⟨hdone.1, fun hn hxs hys => by rw [heq, if_pos hescapable, hdone.2 hn hxs hys]⟩
    · cases h

theorem readEscape_suffix {cs rest : List Char} {a : Atom}
    (h : readEscape? m cs = some (a, rest)) : rest <:+ cs := by
  cases cs with
  | nil => cases h
  | cons c cs =>
    refine List.IsSuffix.trans ?_ (List.suffix_cons c cs)
    by_cases hc : c = 'b'
    · subst hc
      exact readBoundary_suffix m h
    · exact (Cuts.readEscape 0 m c hc).suffix h

/-- **An escape reads the same without the closing anchor**, if it is not a boundary in front of a
dead end. -/
theorem readEscape_cut {cs rest : List Char} {a : Atom}
    (h : readEscape? m (cs ++ closing) = some (a, rest ++ closing)) :
    readEscape? m cs = some (a, rest) ∨ (∃ l, a = .look l) ∧ DeadEnd m rest := by
  cases cs with
  | nil =>
    -- nothing but the closing anchor is left to read
    have hlt := ((Cuts.readEscape 0 m ')' (by decide)).suffix h).length_le
    simp [closing] at hlt
  | cons c cs =>
    by_cases hc : c = 'b'
    · subst hc
      exact readBoundary_cut m h
    · exact .inl ((Cuts.readEscape cs.length m c hc).cut (Nat.le_refl _) h)

end Motif.Regex
