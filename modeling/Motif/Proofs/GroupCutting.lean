import Motif.Proofs.ClassCutting

/-!
# Groups in front of the closing anchor

The readers of branches and alternations are put together from readers of their parts. Each part
reads the same without the closing anchor, so by induction on the fuel branches and alternations do.

* `Regex.Cuts.readOpening`: what follows an opening parenthesis.
* `Regex.readArm`: what follows a character of a branch, in terms of what reads the rest.
* `Regex.branchReader_succ`, `Regex.branchesReader_succ`: branches and alternations, put together.
* **`Regex.Cuts.readTrees`**: a branch or an alternation that leaves the closing anchor is read the
  same without it.
-/

namespace Motif.Regex

variable (n : Nat) (m : Mode) (names : GroupNames)

/-! ## Openings of groups -/

theorem readFlags_suffix {seen cs flags rest : List Char} {c : Char}
    (h : readFlags? seen cs = some (flags, c, rest)) : rest <:+ cs := by
  induction cs generalizing seen with
  | nil => cases h
  | cons d cs ih =>
    refine List.IsSuffix.trans ?_ (List.suffix_cons d cs)
    rw [readFlags?] at h
    split at h
    · split at h
      · cases h
      · cases h
        exact List.suffix_rfl
    · split at h
      · exact ih h
      · cases h

theorem readFlags_cut {seen cs flags rest : List Char} {c : Char}
    (h : readFlags? seen (cs ++ closing) = some (flags, c, rest ++ closing)) :
    readFlags? seen cs = some (flags, c, rest) := by
  induction cs generalizing seen with
  | nil =>
    have hstop : readFlags? seen closing =
        if seen.head? == some '-' then none else some (seen.reverse, ')', ['$']) := rfl
    rw [List.nil_append, hstop] at h
    split at h
    · cases h
    · have hrest := congrArg (·.2.2.length) (Option.some.inj h)
      simp [closing] at hrest
  | cons d cs ih =>
    rw [List.cons_append, readFlags?] at h
    rw [readFlags?]
    split
    · next hd =>
      rw [if_pos hd] at h
      split
      · next hhyphen =>
        rw [if_pos hhyphen] at h
        cases h
      · next hhyphen =>
        rw [if_neg hhyphen] at h
        obtain ⟨rfl, rfl, hrest⟩ : seen.reverse = flags ∧ d = c ∧ cs ++ closing = rest ++ closing :=
          by simpa using h
        rw [List.append_cancel_right hrest]
    · next hd =>
      rw [if_neg hd] at h
      split
      · next hflag =>
        rw [if_pos hflag] at h
        exact ih h
      · next hflag =>
        rw [if_neg hflag] at h
        cases h

theorem Cuts.readFlags (seen : List Char) :
    CutsSelf n fun cs => (readFlags? seen cs).map fun p => ((p.1, p.2.1), p.2.2) where
  suffix h := by
    obtain ⟨⟨flags, c, zs⟩, hread, heq⟩ := Option.map_eq_some_iff.1 h
    cases heq
    exact readFlags_suffix hread
  cut _ h := by
    obtain ⟨⟨flags, c, zs⟩, hread, heq⟩ := Option.map_eq_some_iff.1 h
    cases heq
    rw [readFlags_cut hread]
    rfl

theorem Cuts.readGroupName : CutsSelf n (readGroupName? names) := by
  refine .of fun {xs ys names'} h => ?_
  rw [readGroupName?] at h
  dsimp only at h
  split at h
  · next c later d zs htake hdrop =>
    split at h
    · next hvalid =>
      obtain ⟨rfl, rfl⟩ := Prod.mk.inj (Option.some.inj h)
      refine ⟨suffix_of_cons (hdrop ▸ List.dropWhile_suffix _), ?_⟩
      rintro cs rest - rfl rfl
      obtain ⟨hnone, -⟩ | ⟨hdrop', htake'⟩ := dropWhile_ne_append (c := '>') (by decide) cs
      · rw [hnone] at hdrop
        cases hdrop
      · rw [hdrop'] at hdrop
        rw [htake'] at htake
        have hcut := List.append_cancel_right (show _ = d :: rest ++ closing from hdrop)
        rw [htake', htake] at hvalid ⊢
        simp only [readGroupName?, htake, hcut]
        exact if_pos hvalid
    · cases h
  · cases h

/-- What flags that end in `c` start. -/
def flagsOpening? (flags : List Char) (c : Char) : Option Opening :=
  if c = ')' then if flags = [] then none else some (.flags (m.apply flags))
  else some (.group false (m.apply flags) names)

/-- Reads what follows the question mark of an opening. -/
def readMarked? : List Char → Option (Opening × List Char)
  | '=' :: _ | '!' :: _ | '<' :: '=' :: _ | '<' :: '!' :: _ => none
  | 'P' :: '<' :: rest | '<' :: rest =>
    (readGroupName? names rest).map fun (names, rest) => (.group true m names, rest)
  | cs => ((readFlags? [] cs).map fun p => ((p.1, p.2.1), p.2.2)).bind fun p =>
    (flagsOpening? m names p.1.1 p.1.2).map (·, p.2)

theorem readOpening_eq (cs : List Char) : readOpening? m names cs =
    if (takeChar '?' (m.skip cs)).1 then readMarked? m names (takeChar '?' (m.skip cs)).2
    else some (.group true m names, (takeChar '?' (m.skip cs)).2) := by
  unfold readOpening?
  split
  iterate 5 · next h => simp only [h, takeChar_cons, if_true, readMarked?]
  · next h₁ h₂ h =>
    simp only [h, takeChar_cons, if_true]
    rw [readMarked?]
    · exact h₁
    · exact h₂
  · next h₁ h₂ h₃ h₄ h₅ h₆ h =>
    simp only [h, takeChar_cons, if_true]
    rw [readMarked?]
    all_goals try assumption
    cases readFlags? [] _ with
    | none => rfl
    | some p =>
      obtain ⟨flags, c, rest⟩ := p
      by_cases hc : c = ')'
      · subst hc
        cases flags <;> rfl
      · simp [flagsOpening?, hc]
  · next h =>
    rw [takeChar_of_ne h]
    rfl

theorem Cuts.readMarked : CutsSelf n (readMarked? m names) := by
  have hnamed : CutsSelf n fun cs => (readGroupName? names cs).map fun (names, rest) =>
      (Opening.group true m names, rest) :=
    (Cuts.readGroupName n names).map (Opening.group true m)
  have hflags := (Cuts.readFlags n []).andThen fun p =>
    .ofOption (flagsOpening? m names p.1 p.2) id
  refine .of fun {xs ys o} h => ?_
  unfold readMarked? at h
  split at h
  iterate 4 cases h
  · next zs =>
    have hsuffix := hnamed.suffix h
    refine ⟨(hsuffix.trans (List.suffix_cons _ _)).trans (List.suffix_cons _ _), ?_⟩
    rintro cs rest hn hcs rfl
    obtain ⟨zs, rfl, -⟩ := exists_of_append_suffix hsuffix
    obtain rfl := List.append_cancel_right (show 'P' :: '<' :: zs ++ closing = _ from hcs)
    simp only [List.length_cons] at hn
    exact hnamed.cut (by omega) h
  · next zs h₁ h₂ =>
    have hsuffix := hnamed.suffix h
    refine ⟨hsuffix.trans (List.suffix_cons _ _), ?_⟩
    rintro cs rest hn hcs rfl
    obtain ⟨zs, rfl, -⟩ := exists_of_append_suffix hsuffix
    obtain rfl := List.append_cancel_right (show '<' :: zs ++ closing = _ from hcs)
    simp only [List.length_cons] at hn
    rw [readMarked?]
    · exact hnamed.cut (by omega) h
    · exact fun tail htail => h₁ (tail ++ closing) (by rw [htail]; rfl)
    · exact fun tail htail => h₂ (tail ++ closing) (by rw [htail]; rfl)
  · next h₁ h₂ h₃ h₄ h₅ h₆ =>
    refine ⟨hflags.suffix h, ?_⟩
    rintro cs rest hn rfl rfl
    rw [readMarked?]
    · exact hflags.cut hn h
    · exact fun tail htail => h₁ (tail ++ closing) (by rw [htail]; rfl)
    · exact fun tail htail => h₂ (tail ++ closing) (by rw [htail]; rfl)
    · exact fun tail htail => h₃ (tail ++ closing) (by rw [htail]; rfl)
    · exact fun tail htail => h₄ (tail ++ closing) (by rw [htail]; rfl)
    · exact fun tail htail => h₅ (tail ++ closing) (by rw [htail]; rfl)
    · exact fun tail htail => h₆ (tail ++ closing) (by rw [htail]; rfl)

theorem Cuts.readOpening : CutsSelf n (readOpening? m names) := by
  have hmarked (marked : Bool) : CutsSelf n fun cs =>
      if marked then readMarked? m names cs else some (.group true m names, cs) := by
    cases marked with
    | true => exact .readMarked n m names
    | false => exact .done _
  rw [funext (readOpening_eq m names)]
  exact ((Cuts.takeChar '?').andThen hmarked).skipped m

/-! ## The parts of a branch -/

/-- What a branch or an alternation yields besides its rest. -/
abbrev ReadPart := Nested Syntax × Mode × GroupNames

/-- What was read, as a part and its rest. -/
def ReadTree.part (r : ReadTree) : ReadPart × List Char := ((r.tree, r.mode, r.names), r.rest)

/-- Reads a closing parenthesis. -/
def readClosing : Reader Unit := fun cs =>
  if (takeChar ')' cs).1 then some ((), (takeChar ')' cs).2) else none

section Arms

variable (go : Mode → GroupNames → Branch → Reader ReadPart)
  (cls : Mode → Reader (Nested Unicode.CodeSet)) (inner : Mode → GroupNames → Reader ReadPart)
  (b : Branch)

/-- Adds an item to a branch. -/
def pushAnd (a : Option Syntax) : Reader ReadPart :=
  fun cs => (a.map (·, cs)).bind fun p => go m names (b.push (.leaf p.1)) p.2

/-- Repeats the last item of a branch. -/
def repeatAnd (min : Nat) (max : Option Nat) : Reader ReadPart :=
  Reader.andThen (fun cs => some (readLazy cs)) fun isLazy cs =>
    ((b.iterate? min max (isLazy == m.short)).map (·, cs)).bind fun p => go m names p.1 p.2

/-- Reads a group after its opening. -/
def groupAnd : Opening → Reader ReadPart
  | .flags m' => go m' names b.close
  | .group captures m' names' =>
    Reader.andThen (inner m' names') fun p => Reader.andThen readClosing fun _ =>
      go m p.2.2 (b.push (p.1.wrap fun t => if captures then .capture t else t))

/-- Reads the rest of a branch after the character `c`. -/
def readArm (c : Char) : Reader ReadPart :=
  match c with
  | '*' => repeatAnd m names go b 0 none
  | '+' => repeatAnd m names go b 1 none
  | '?' => repeatAnd m names go b 0 (some 1)
  | '\x7b' => Reader.andThen (fun cs => (readCount? m cs).map fun p => ((p.1, p.2.1), p.2.2))
      fun p cs => repeatAnd m names go b p.1 p.2 (m.skip cs)
  | '(' => Reader.andThen (readOpening? m names) (groupAnd m names go inner b)
  | '[' => Reader.andThen (cls m) fun s => go m names (b.push ⟨.step s.value, s.depth⟩)
  | '.' => pushAnd m names go b m.dot?
  | '^' => pushAnd m names go b (some (.look m.startAnchor))
  | '$' => pushAnd m names go b (some (.look m.endAnchor))
  | '\\' => Reader.andThen (readEscape? m) fun a => pushAnd m names go b (a.tree? m)
  | c => pushAnd m names go b (m.literal? c false)

end Arms

/-- A branch ends in front of a bar or a closing parenthesis. -/
def endsBranch (c : Char) : Bool := c == '|' || c == ')'

/-- Reads the rest of a branch. -/
def branchReader (fuel levels : Nat) (m : Mode) (names : GroupNames) (b : Branch) :
    Reader ReadPart :=
  fun cs => (readBranch? fuel levels m names b cs).map ReadTree.part

/-- Reads an alternation. -/
def branchesReader (fuel levels : Nat) (m : Mode) (names : GroupNames)
    (done : List (Nested Syntax)) : Reader ReadPart :=
  fun cs => (readBranches? fuel levels m names done cs).map ReadTree.part

/-- Reads what is inside a group, which takes one of the levels. -/
def innerReader (fuel : Nat) : Nat → Mode → GroupNames → Reader ReadPart
  | 0, _, _ => fun _ => none
  | levels + 1, m, names => branchesReader fuel levels m names []

theorem pushAnd_branchReader (fuel levels : Nat) (b : Branch) (a : Option Syntax)
    (cs : List Char) :
    pushAnd m names (branchReader fuel levels) b a cs =
      (a.bind fun t =>
        readBranch? fuel levels m names (b.push (.leaf t)) cs).map ReadTree.part := by
  cases a <;> rfl

theorem repeatAnd_branchReader (fuel levels : Nat) (b : Branch) (min : Nat) (max : Option Nat)
    (cs : List Char) :
    repeatAnd m names (branchReader fuel levels) b min max cs =
      ((b.iterate? min max ((readLazy cs).1 == m.short)).bind fun b =>
        readBranch? fuel levels m names b (readLazy cs).2).map ReadTree.part := by
  rw [repeatAnd, Reader.andThen, Option.bind_some]
  cases b.iterate? min max ((readLazy cs).1 == m.short) <;> rfl

theorem groupAnd_branchReader (fuel levels : Nat) (b : Branch) (captures : Bool) (m' : Mode)
    (names' : GroupNames) (cs : List Char) :
    groupAnd m names (branchReader fuel (levels + 1)) (innerReader fuel (levels + 1)) b
      (.group captures m' names') cs =
      ((readBranches? fuel levels m' names' [] cs).bind fun r =>
        match r.rest with
        | ')' :: rest =>
          let group := r.tree.wrap fun t => if captures then .capture t else t
          readBranch? fuel (levels + 1) m r.names (b.push group) rest
        | _ => none).map ReadTree.part := by
  rw [groupAnd, Reader.andThen, innerReader, branchesReader]
  cases readBranches? fuel levels m' names' [] cs with
  | none => rfl
  | some r =>
    simp only [Option.map_some, Option.bind_some, Reader.andThen, readClosing, ReadTree.part]
    by_cases hrest : ∃ rest, r.rest = ')' :: rest
    · obtain ⟨rest, hrest⟩ := hrest
      simp only [hrest, takeChar_cons, if_true, Option.bind_some]
      rfl
    · rw [takeChar_of_ne (not_exists.1 hrest), if_neg Bool.false_ne_true]
      symm
      split
      · next rest heq => exact absurd ⟨rest, heq⟩ hrest
      · rfl

theorem branchReader_succ (fuel levels : Nat) (b : Branch) (cs : List Char) :
    branchReader (fuel + 1) levels m names b cs =
      match m.skip cs with
      | [] => some ((b.tree, m, names), [])
      | c :: rest =>
        if endsBranch c then some ((b.tree, m, names), c :: rest)
        else readArm m names (branchReader fuel levels) (readClass? fuel levels)
          (innerReader fuel levels) b c rest := by
  rw [branchReader, readBranch?]
  dsimp only
  split
  · next hskip => rw [hskip]; rfl
  · next hskip => rw [hskip]; rfl
  · next hskip => rw [hskip]; rfl
  · next rest hskip =>
    rw [hskip]
    exact (repeatAnd_branchReader m names fuel levels b 0 none rest).symm
  · next rest hskip =>
    rw [hskip]
    exact (repeatAnd_branchReader m names fuel levels b 1 none rest).symm
  · next rest hskip =>
    rw [hskip]
    exact (repeatAnd_branchReader m names fuel levels b 0 (some 1) rest).symm
  · next rest hskip =>
    rw [hskip]
    cases hcount : readCount? m rest with
    | none => simp [endsBranch, readArm, Reader.andThen, hcount]
    | some p =>
      have hrepeat := repeatAnd_branchReader m names fuel levels b p.1 p.2.1 (m.skip p.2.2)
      simp only [readArm, Reader.andThen, hcount, Option.map_some, Option.bind_some]
      exact hrepeat.symm
  · next rest hskip =>
    rw [hskip]
    cases hopening : readOpening? m names rest with
    | none => simp [endsBranch, readArm, Reader.andThen, hopening]
    | some p =>
      simp only [readArm, Reader.andThen, hopening, Option.bind_some]
      obtain ⟨⟨m'⟩ | ⟨captures, m', names'⟩, rest⟩ := p
      · rfl
      · cases levels with
        | zero => rfl
        | succ levels =>
          exact (groupAnd_branchReader m names fuel levels b captures m' names' rest).symm
  · next rest hskip =>
    rw [hskip]
    cases hclass : readClass? fuel levels m rest with
    | none => simp [endsBranch, readArm, Reader.andThen, hclass]
    | some p =>
      simp only [readArm, Reader.andThen, hclass, Option.bind_some]
      rfl
  · next rest hskip =>
    rw [hskip]
    exact (pushAnd_branchReader m names fuel levels b _ rest).symm
  · next rest hskip =>
    rw [hskip]
    exact (pushAnd_branchReader m names fuel levels b _ rest).symm
  · next rest hskip =>
    rw [hskip]
    exact (pushAnd_branchReader m names fuel levels b _ rest).symm
  · next rest hskip =>
    rw [hskip]
    cases hescape : readEscape? m rest with
    | none => simp [endsBranch, readArm, Reader.andThen, hescape]
    | some p =>
      have hpush := pushAnd_branchReader m names fuel levels b (p.1.tree? m) p.2
      simp only [readArm, Reader.andThen, hescape, Option.bind_some]
      exact hpush.symm
  · next c rest hbar hparen _ _ _ _ _ _ _ _ _ _ hskip =>
    rw [hskip]
    have hends : endsBranch c = false := by simpa [endsBranch] using ⟨hbar, hparen⟩
    simp only [hends, Bool.false_eq_true, if_false]
    rw [readArm]
    · exact (pushAnd_branchReader m names fuel levels b _ rest).symm
    all_goals assumption

/-! ## Branches -/

theorem readLazy_eq (cs : List Char) : readLazy cs = takeChar '?' cs := by
  by_cases hcs : ∃ rest, cs = '?' :: rest
  · obtain ⟨rest, rfl⟩ := hcs
    rw [takeChar_cons]
    rfl
  · rw [takeChar_of_ne (not_exists.1 hcs)]
    unfold readLazy
    split
    · next rest => exact absurd ⟨rest, rfl⟩ hcs
    · rfl

theorem readEscape_andThen {α : Type} {g g' : Atom → Reader α} (hg : ∀ a, Cuts n (g a) (g' a))
    (hdead : ∀ {a rest}, DeadEnd m rest → g a (rest ++ closing) = none) :
    Cuts n (Reader.andThen (readEscape? m) g) (Reader.andThen (readEscape? m) g') where
  suffix h := by
    obtain ⟨⟨a, ys⟩, ha, h⟩ := Option.bind_eq_some_iff.1 h
    exact ((hg a).suffix h).trans (readEscape_suffix m ha)
  cut {cs rest b} hn h := by
    obtain ⟨⟨a, ys⟩, ha, h⟩ := Option.bind_eq_some_iff.1 h
    obtain ⟨zs, rfl, -⟩ := exists_of_append_suffix ((hg a).suffix h)
    obtain ha' | ⟨-, hzs⟩ := readEscape_cut m ha
    · have hle := (readEscape_suffix m ha').length_le
      rw [Reader.andThen, ha']
      exact (hg a).cut (Nat.le_trans hle hn) h
    · rw [hdead hzs] at h
      cases h

section Arms

variable {go go' : Mode → GroupNames → Branch → Reader ReadPart}
  {cls cls' : Mode → Reader (Nested Unicode.CodeSet)}
  {inner inner' : Mode → GroupNames → Reader ReadPart} (b : Branch)

theorem Cuts.pushAnd (hgo : ∀ m names b, Cuts n (go m names b) (go' m names b))
    (a : Option Syntax) : Cuts n (pushAnd m names go b a) (pushAnd m names go' b a) :=
  (Cuts.ofOption a id).andThen fun t => hgo m names (b.push (.leaf t))

theorem Cuts.repeatAnd (hgo : ∀ m names b, Cuts n (go m names b) (go' m names b)) (min : Nat)
    (max : Option Nat) :
    Cuts n (repeatAnd m names go b min max) (repeatAnd m names go' b min max) := by
  have hlazy : CutsSelf n fun cs => some (readLazy cs) := by
    simp only [readLazy_eq]
    exact .takeChar '?'
  exact hlazy.andThen fun isLazy =>
    (Cuts.ofOption (b.iterate? min max (isLazy == m.short)) id).andThen fun b => hgo m names b

theorem Cuts.groupAnd (hgo : ∀ m names b, Cuts n (go m names b) (go' m names b))
    (hinner : ∀ m names, Cuts n (inner m names) (inner' m names)) (o : Opening) :
    Cuts n (groupAnd m names go inner b o) (groupAnd m names go' inner' b o) := by
  have hclosing : CutsSelf n readClosing :=
    Cuts.ifChar (c := ')') (Cuts.done (n := n) ()).suffix (fun _ => .done ())
      (@Cuts.fail _ n fun _ => none)
  cases o with
  | flags m' => exact hgo m' names b.close
  | group captures m' names' =>
    exact (hinner m' names').andThen fun p => hclosing.andThen fun _ =>
      hgo m p.2.2 (b.push (p.1.wrap fun t => if captures then .capture t else t))

/-- What follows a character of a branch reads the same without the closing anchor, if everything
that it is read by does. -/
theorem Cuts.readArm (hgo : ∀ m names b, Cuts n (go m names b) (go' m names b))
    (hcls : ∀ m, Cuts n (cls m) (cls' m))
    (hinner : ∀ m names, Cuts n (inner m names) (inner' m names))
    (hdead : ∀ {b rest}, DeadEnd m rest → go m names b (rest ++ closing) = none) (c : Char) :
    Cuts n (readArm m names go cls inner b c) (readArm m names go' cls' inner' b c) := by
  have hrepeat := Cuts.repeatAnd n m names b hgo
  have hpush := Cuts.pushAnd n m names b hgo
  by_cases hc : c = '\\'
  · subst hc
    refine readEscape_andThen n m (fun a => hpush (a.tree? m)) fun {a rest} hrest => ?_
    unfold Regex.pushAnd
    cases a.tree? m with
    | none => rfl
    | some t => exact hdead hrest
  · unfold Regex.readArm
    split
    · exact hrepeat 0 none
    · exact hrepeat 1 none
    · exact hrepeat 0 (some 1)
    · exact (Cuts.readCount n m).andThen fun p => (hrepeat p.1 p.2).skipped m
    · exact (Cuts.readOpening n m names).andThen (Cuts.groupAnd n m names b hgo hinner)
    · exact (hcls m).andThen fun s => hgo m names (b.push ⟨.step s.value, s.depth⟩)
    · exact hpush m.dot?
    · exact hpush _
    · exact hpush _
    · exact absurd rfl hc
    · exact hpush _

end Arms

theorem branchReader_deadEnd {fuel levels : Nat} {b : Branch} {rest : List Char}
    (h : DeadEnd m rest) : branchReader fuel levels m names b (rest ++ closing) = none := by
  obtain ⟨cs, rfl, hcount⟩ := h
  cases fuel with
  | zero => simp [branchReader, readBranch?]
  | succ fuel =>
    have hblank : isBlank '\x7b' = false := by decide +kernel
    have hskip : m.skip ('\x7b' :: cs ++ closing) = '\x7b' :: (cs ++ closing) := by
      simp [Mode.skip, Mode.skipBlanks, hblank]
    rw [branchReader_succ, hskip]
    simp [endsBranch, readArm, Reader.andThen, hcount]

theorem branchesReader_succ (fuel levels : Nat) (done : List (Nested Syntax)) :
    branchesReader (fuel + 1) levels m names done =
      Reader.andThen (branchReader fuel levels m names {}) fun p cs =>
        if (takeChar '|' cs).1 then
          branchesReader fuel levels p.2.1 p.2.2 (p.1 :: done) (takeChar '|' cs).2
        else some ((.gather .alt (p.1 :: done), p.2), (takeChar '|' cs).2) := by
  funext cs
  rw [branchesReader, readBranches?, Reader.andThen, branchReader]
  cases readBranch? fuel levels m names {} cs with
  | none => rfl
  | some r =>
    simp only [Option.bind_eq_bind, Option.bind_some, Option.map_some, ReadTree.part]
    split
    · next rest hrest =>
      simp only [hrest, takeChar_cons, if_true]
      rfl
    · next hrest =>
      rw [takeChar_of_ne hrest]
      rfl

/-- Read with this fuel, a branch reads the same without the closing anchor, also with more levels
allowed and as much fuel as its length asks for. -/
def BranchCut (fuel : Nat) : Prop :=
  ∀ (n fuel' : Nat) {levels levels' : Nat} (m : Mode) (names : GroupNames) (b : Branch),
    2 * n + 1 ≤ fuel' → levels ≤ levels' →
    Cuts n (branchReader fuel levels m names b) (branchReader fuel' levels' m names b)

/-- The same of an alternation. -/
def BranchesCut (fuel : Nat) : Prop :=
  ∀ (n fuel' : Nat) {levels levels' : Nat} (m : Mode) (names : GroupNames)
    (done : List (Nested Syntax)),
    2 * n + 2 ≤ fuel' → levels ≤ levels' →
    Cuts n (branchesReader fuel levels m names done) (branchesReader fuel' levels' m names done)

section Step

variable {fuel : Nat}

theorem BranchesCut.inner (hbranches : BranchesCut fuel) {n fuel' levels levels' : Nat}
    (hfuel : 2 * n + 2 ≤ fuel') (hlevels : levels ≤ levels') (m : Mode) (names : GroupNames) :
    Cuts n (innerReader fuel levels m names) (innerReader fuel' levels' m names) := by
  cases levels with
  | zero => exact .fail
  | succ levels =>
    obtain ⟨levels', rfl⟩ : ∃ k, levels' = k + 1 := ⟨levels' - 1, by omega⟩
    exact hbranches n fuel' m names [] hfuel (Nat.le_of_succ_le_succ hlevels)

theorem BranchCut.succ (hbranch : BranchCut fuel) (hbranches : BranchesCut fuel) :
    BranchCut (fuel + 1) := by
  intro n fuel' levels levels' m names b hfuel hlevels
  obtain ⟨fuel', rfl⟩ : ∃ k, fuel' = k + 1 := ⟨fuel' - 1, by omega⟩
  have harm {k fuel' : Nat} (hk : 2 * k + 2 ≤ fuel') (c : Char) :=
    Cuts.readArm k m names b
      (fun m names b => hbranch k fuel' m names b (Nat.le_of_succ_le hk) hlevels)
      (fun m => @Cuts.readClass m k fuel fuel' levels levels' hk hlevels)
      (hbranches.inner hk hlevels) (branchReader_deadEnd m names) c
  rw [funext (branchReader_succ m names fuel levels b),
    funext (branchReader_succ m names fuel' levels' b)]
  refine Cuts.skipped m (.stopping endsBranch (by decide) _ ?_ ?_)
  · -- that a suffix is left does not depend on the fuel
    exact fun {c cs rest a} h => (harm (k := 0) (Nat.le_refl 2) c).suffix h
  · intro k c hk
    exact harm (by omega) c

theorem BranchesCut.succ (hbranch : BranchCut fuel) (hbranches : BranchesCut fuel) :
    BranchesCut (fuel + 1) := by
  intro n fuel' levels levels' m names done hfuel hlevels
  obtain ⟨fuel', rfl⟩ : ∃ k, fuel' = k + 1 := ⟨fuel' - 1, by omega⟩
  rw [branchesReader_succ, branchesReader_succ]
  refine (hbranch n fuel' m names {} (by omega) hlevels).andThen fun p => .ifChar ?_ ?_ (.done _)
  · exact fun {cs rest a} h => (hbranches 0 2 p.2.1 p.2.2 _ (Nat.le_refl 2)
      (Nat.le_refl levels)).suffix h
  · intro k hk
    exact hbranches k fuel' p.2.1 p.2.2 _ (by omega) hlevels

end Step

/-- **Branches and alternations read the same without the closing anchor.** -/
theorem Cuts.readTrees (fuel : Nat) : BranchCut fuel ∧ BranchesCut fuel := by
  induction fuel with
  | zero =>
    constructor
    · intro n fuel' levels levels' m names b _ _
      have hfail : branchReader 0 levels m names b = fun _ => none := by
        funext cs
        simp [branchReader, readBranch?]
      rw [hfail]
      exact .fail
    · intro n fuel' levels levels' m names done _ _
      have hfail : branchesReader 0 levels m names done = fun _ => none := by
        funext cs
        simp [branchesReader, readBranches?]
      rw [hfail]
      exact .fail
  | succ fuel ih => exact ⟨ih.1.succ ih.2, .succ ih.1 ih.2⟩

end Motif.Regex
