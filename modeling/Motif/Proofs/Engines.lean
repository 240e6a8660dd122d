import Motif.Proofs.GroupCutting
import Motif.Proofs.RegexMeaning
import Motif.Regex

/-!
# Engines for regular expressions

Patterns leave regular expressions to an engine. What they rely on is that expressions are read from
the left to the right, that what stands inside of a group is read like an expression by itself, and
what the anchors mean.

* `Regex.Engine.Laws`: what is known of an engine.
* `Regex.Engine.Laws.Stops`: a closing parenthesis of an expression closes no group.
* **`Regex.Engine.Laws.stops_or_exists_of_anchored`**: an expression that is valid between anchors
  has such a parenthesis, or is valid by itself and stands between them as a whole.
* `Regex.Engine.standardLaws`: the laws of the standard engine.
-/

namespace Motif.Regex

/-! ## Laws -/

/-- What is known of an engine for regular expressions. -/
structure Engine.Laws (e : Engine) where
  /-- Syntax trees. -/
  Tree : Type
  /-- Reads alternatives from the start of an expression, up to its end or in front of a closing
  parenthesis that closes none of their groups. -/
  read (caseless : Bool) : List Char → Option (Tree × List Char)
  /-- Reads alternatives inside of a group likewise. -/
  readInside (caseless : Bool) : List Char → Option (Tree × List Char)
  /-- A match that starts at one position of a text can end at another one. -/
  Leads : Tree → List Char → Nat → Nat → Prop
  /-- The engine accepts expressions of this size. -/
  Fits : Tree → Prop
  /-- The valid expressions are those that are read up to their end and are not too large. -/
  isSome_test_iff (source : String) (caseless : Bool) :
    (e.test? source caseless).isSome ↔ ∃ t, read caseless source.toList = some (t, []) ∧ Fits t
  /-- A text is searched for a match. -/
  test_iff {source : String} {caseless : Bool} {f : String → Bool} {t : Tree}
    (hf : e.test? source caseless = some f) (ht : read caseless source.toList = some (t, []))
    (text : String) :
    f text = true ↔ ∃ i ≤ text.toList.length, ∃ j, Leads t text.toList i j
  /-- What is left is the end of what is read. -/
  suffix {caseless : Bool} {cs rest : List Char} {t : Tree}
    (h : readInside caseless cs = some (t, rest)) : rest <:+ cs
  /-- A group is closed by the parenthesis in front of which reading its inside stops. -/
  closed {caseless : Bool} {cs : List Char} {t : Tree}
    (h : read caseless ('^' :: '(' :: '?' :: ':' :: cs) = some (t, [])) :
    ∃ u rest, readInside caseless cs = some (u, ')' :: rest)
  /-- A group between anchors for the start and the end matches what its inside matches, from the
  start to the end. -/
  leads_anchored {caseless : Bool} {cs : List Char} {t u : Tree}
    (ht : read caseless ('^' :: '(' :: '?' :: ':' :: cs) = some (t, []))
    (hu : readInside caseless cs = some (u, [')', '$'])) (text : List Char) (i j : Nat) :
    Leads t text i j ↔ i = 0 ∧ j = text.length ∧ Leads u text 0 j
  /-- The inside of a group is read like an expression by itself. What stands behind the parenthesis
  at which reading stops does not matter. -/
  alone {caseless : Bool} {cs rest : List Char} {t : Tree}
    (h : readInside caseless (cs ++ closing) = some (t, rest ++ closing)) :
    read caseless cs = some (t, rest)

theorem toList_anchored (source : String) :
    (anchored source).toList = '^' :: '(' :: '?' :: ':' :: (source.toList ++ closing) := by
  simp [anchored, closing]

theorem exists_of_parenthesis_suffix {cs rest : List Char} (h : ')' :: rest <:+ cs ++ closing) :
    rest = ['$'] ∨ ∃ zs, rest = zs ++ closing := by
  obtain ⟨ws, hws⟩ := h
  obtain ⟨as, -, has⟩ | ⟨bs, -, hbs⟩ := List.append_eq_append_iff.1 hws
  · cases as with
    | nil => exact .inl (List.cons.inj has).2
    | cons c as => exact .inr ⟨as, (List.cons.inj has).2⟩
  · rcases bs with _ | ⟨c, _ | ⟨d, bs⟩⟩
    · exact .inl (List.cons.inj hbs).2.symm
    · simp [closing] at hbs
    · simp [closing] at hbs

namespace Engine.Laws

variable {e : Engine} (l : e.Laws)

/-- Reading an expression stops in front of a closing parenthesis, which closes no group. -/
def Stops (caseless : Bool) (cs : List Char) : Prop :=
  ∃ t rest, l.read caseless cs = some (t, ')' :: rest)

/-- A match can start at the start of a text and end at its end. -/
def MatchesAll (t : l.Tree) (text : String) : Prop :=
  l.Leads t text.toList 0 text.toList.length

variable {source : String} {caseless : Bool}

theorem Stops.test_eq_none (h : l.Stops caseless source.toList) :
    e.test? source caseless = none := by
  obtain ⟨t, rest, h⟩ := h
  rw [← Option.not_isSome_iff_eq_none, l.isSome_test_iff]
  rintro ⟨u, hu, -⟩
  rw [h] at hu
  cases hu

/-- **A source that is valid between the anchors** is valid by itself, unless one of its parentheses
closes the group around it. -/
theorem stops_or_exists_of_anchored {f : String → Bool}
    (h : e.test? (anchored source) caseless = some f) : l.Stops caseless source.toList ∨
      ∃ t, l.read caseless source.toList = some (t, []) ∧
        ∀ text, f text = true ↔ l.MatchesAll t text := by
  obtain ⟨t, ht, -⟩ := (l.isSome_test_iff _ _).1 (Option.isSome_of_eq_some h)
  have hread := ht
  rw [toList_anchored] at hread
  obtain ⟨u, rest, hu⟩ := l.closed hread
  obtain rfl | ⟨zs, rfl⟩ := exists_of_parenthesis_suffix (l.suffix hu)
  · have halone : l.read caseless source.toList = some (u, []) := l.alone hu
    refine .inr ⟨u, halone, fun text => ?_⟩
    rw [l.test_iff h ht, MatchesAll]
    simp only [l.leads_anchored hread hu]
    constructor
    · rintro ⟨i, -, j, rfl, rfl, huj⟩
      exact huj
    · intro huj
      exact ⟨0, Nat.zero_le _, _, rfl, rfl, huj⟩
  · have halone : l.read caseless source.toList = some (u, ')' :: zs) := l.alone hu
    exact .inl ⟨u, zs, halone⟩

end Engine.Laws

/-! ## The standard engine -/

section Standard

variable {m : Mode} (hx : m.extended = false) (hm : m.multiLine = false)

theorem eq_of_readClosing {cs rest : List Char} (h : readClosing cs = some ((), rest)) :
    cs = ')' :: rest := by
  unfold readClosing takeChar at h
  cases cs with
  | nil => cases h
  | cons c cs =>
    by_cases hc : c = ')'
    · simpa [hc] using h
    · simp [hc] at h

include hx in
theorem skip_of_not_extended (cs : List Char) : m.skip cs = cs := by
  rw [Mode.skip, hx]
  rfl

include hx hm in
theorem branchReader_open (fuel levels : Nat) (cs : List Char) :
    branchReader (fuel + 2) levels m [] {} ('^' :: '(' :: '?' :: ':' :: cs) =
      groupAnd m [] (branchReader fuel levels) (innerReader fuel levels)
        (({} : Branch).push (.leaf (.look .textStart))) (.group false m []) cs := by
  have hstart : m.startAnchor = .textStart := by simp [Mode.startAnchor, hm]
  have hanchor : branchReader (fuel + 2) levels m [] {} ('^' :: '(' :: '?' :: ':' :: cs) =
      branchReader (fuel + 1) levels m [] (({} : Branch).push (.leaf (.look .textStart)))
        ('(' :: '?' :: ':' :: cs) := by
    rw [branchReader_succ, skip_of_not_extended hx, ← hstart]
    rfl
  have hopening : readOpening? m [] ('?' :: ':' :: cs) = some (.group false m [], cs) := by
    rw [readOpening_eq, skip_of_not_extended hx, takeChar_cons]
    rfl
  rw [hanchor, branchReader_succ, skip_of_not_extended hx]
  change Reader.andThen (readOpening? m []) _ ('?' :: ':' :: cs) = _
  rw [Reader.andThen, hopening]
  rfl

include hx hm in
theorem branchReader_end (fuel levels : Nat) (names : GroupNames) (b : Branch) :
    branchReader (fuel + 2) levels m names b ['$'] =
      some (((b.push (.leaf (.look .textEnd))).tree, m, names), []) := by
  have hend : m.endAnchor = .textEnd := by simp [Mode.endAnchor, hm]
  have hanchor : branchReader (fuel + 2) levels m names b ['$'] =
      branchReader (fuel + 1) levels m names (b.push (.leaf (.look .textEnd))) [] := by
    rw [branchReader_succ, skip_of_not_extended hx, ← hend]
    rfl
  rw [hanchor, branchReader_succ, skip_of_not_extended hx]

include hx hm in
/-- Branches that were read up to the last parenthesis are the whole expression between the anchors.
-/
theorem exists_of_branchesReader_anchored {cs : List Char} {q : ReadPart}
    (h : branchesReader (2 * cs.length + 10) depthLimit m [] []
      ('^' :: '(' :: '?' :: ':' :: cs) = some (q, [])) :
    ∃ p rest, branchesReader (2 * cs.length + 7) (depthLimit - 1) m [] [] cs =
      some (p, ')' :: rest) ∧
      (rest = ['$'] → q.1.value = .seq [.look .textStart, p.1.value, .look .textEnd]) := by
  rw [branchesReader_succ, Reader.andThen] at h
  obtain ⟨⟨p, ys⟩, hbranch, h⟩ := Option.bind_eq_some_iff.1 h
  rw [branchReader_open hx hm] at hbranch
  obtain ⟨⟨r, zs⟩, hinner, hbranch⟩ := Option.bind_eq_some_iff.1 hbranch
  obtain ⟨⟨_, rest⟩, hclosing, hbranch⟩ := Option.bind_eq_some_iff.1 hbranch
  obtain rfl := eq_of_readClosing hclosing
  refine ⟨r, rest, hinner, ?_⟩
  rintro rfl
  change branchReader (2 * cs.length + 5 + 2) depthLimit m r.2.2 _ ['$'] = some (p, ys) at hbranch
  rw [branchReader_end hx hm] at hbranch
  obtain ⟨rfl, rfl⟩ := Prod.mk.inj (Option.some.inj hbranch)
  obtain ⟨rfl, -⟩ := Prod.mk.inj (Option.some.inj h)
  rfl

end Standard

theorem readTree_eq_some {m : Mode} {cs : List Char} {t : Syntax} : readTree? m cs = some t ↔
    ∃ p, branchesReader (2 * cs.length + 2) depthLimit m [] [] cs = some (p, []) ∧
      p.1.depth ≤ depthLimit ∧ p.1.value = t := by
  rw [readTree?, branchesReader]
  cases readBranches? (2 * cs.length + 2) depthLimit m [] [] cs with
  | none => simp
  | some r =>
    obtain ⟨tree, mode, names, _ | ⟨c, rest⟩⟩ := r
    · simp [ReadTree.part]
    · simp [ReadTree.part]

namespace Engine

/-- Reads alternatives with so many levels, and drops all but their tree. -/
def readAlternatives (fuel levels : Nat) (caseless : Bool) (cs : List Char) :
    Option (Nested Syntax × List Char) :=
  (branchesReader fuel levels { caseless } [] [] cs).map fun p => (p.1.1, p.2)

theorem readAlternatives_eq_some {fuel levels : Nat} {caseless : Bool} {cs rest : List Char}
    {t : Nested Syntax} : readAlternatives fuel levels caseless cs = some (t, rest) ↔
      ∃ p : ReadPart, p.1 = t ∧
        branchesReader fuel levels { caseless } [] [] cs = some (p, rest) := by
  rw [readAlternatives, Option.map_eq_some_iff]
  constructor
  · rintro ⟨⟨p, _⟩, h, heq⟩
    cases heq
    exact ⟨p, rfl, h⟩
  · rintro ⟨p, rfl, h⟩
    exact ⟨_, h, rfl⟩

theorem test_standard_eq_some {source : String} {caseless : Bool} {f : String → Bool} :
    standard.test? source caseless = some f ↔
      ∃ t : Nested Syntax,
        readAlternatives (2 * source.toList.length + 2) depthLimit caseless source.toList =
          some (t, []) ∧ (t.depth ≤ depthLimit ∧ (normalForm t.value).fits) ∧
        f = fun s => t.value.occursIn s.toList := by
  simp only [standard, readAlternatives_eq_some]
  constructor
  · intro h
    split at h
    · next tree htree =>
      obtain ⟨p, hp, hdepth, rfl⟩ := readTree_eq_some.1 htree
      split at h
      · next hfits =>
        cases h
        exact ⟨p.1, ⟨p, rfl, hp⟩, ⟨hdepth, hfits⟩, rfl⟩
      · cases h
    · cases h
  · rintro ⟨t, ⟨p, rfl, hp⟩, ⟨hdepth, hfits⟩, rfl⟩
    rw [readTree_eq_some.2 ⟨p, hp, hdepth, rfl⟩]
    simp only [hfits, if_true]

/-- The laws of the standard engine. -/
def standardLaws : standard.Laws where
  Tree := Nested Syntax
  read caseless cs := readAlternatives (2 * cs.length + 2) depthLimit caseless cs
  readInside caseless cs := readAlternatives (2 * cs.length + 7) (depthLimit - 1) caseless cs
  Leads t := fun text => t.value.Leads text
  Fits t := t.depth ≤ depthLimit ∧ (normalForm t.value).fits
  isSome_test_iff source caseless := by
    rw [Option.isSome_iff_exists]
    simp only [test_standard_eq_some]
    constructor
    · rintro ⟨f, t, ht, hfits, -⟩
      exact ⟨t, ht, hfits⟩
    · rintro ⟨t, ht, hfits⟩
      exact ⟨_, t, ht, hfits, rfl⟩
  test_iff hf ht text := by
    obtain ⟨t, ht', -, rfl⟩ := test_standard_eq_some.1 hf
    rw [ht] at ht'
    cases ht'
    exact Tree.occursIn_iff _ _
  suffix h := by
    obtain ⟨p, -, h⟩ := readAlternatives_eq_some.1 h
    exact ((Cuts.readTrees _).2 0 2 _ [] [] (Nat.le_refl 2) (Nat.le_refl _)).suffix h
  closed h := by
    obtain ⟨q, -, h⟩ := readAlternatives_eq_some.1 h
    obtain ⟨p, rest, hp, -⟩ := exists_of_branchesReader_anchored rfl rfl h
    exact ⟨p.1, rest, readAlternatives_eq_some.2 ⟨p, rfl, hp⟩⟩
  leads_anchored ht hu text i j := by
    obtain ⟨q, rfl, h⟩ := readAlternatives_eq_some.1 ht
    obtain ⟨p, rest, hp, hlast⟩ := exists_of_branchesReader_anchored rfl rfl h
    obtain ⟨p', rfl, hp'⟩ := readAlternatives_eq_some.1 hu
    rw [hp] at hp'
    cases hp'
    rw [hlast rfl]
    exact Tree.leads_between_anchors text
  alone h := by
    obtain ⟨p, rfl, hp⟩ := readAlternatives_eq_some.1 h
    exact readAlternatives_eq_some.2 ⟨p, rfl,
      ((Cuts.readTrees _).2 _ _ _ [] [] (Nat.le_refl _) (Nat.sub_le depthLimit 1)).cut
        (Nat.le_refl _) hp⟩

end Engine

end Motif.Regex
