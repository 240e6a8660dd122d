import Motif.Proofs.LocalErrors
import Motif.Proofs.Numbering
import Mathlib

/-!
# Names that recur along a path

The parts of an expression have addresses. Two declarations of one name may be on one path through
the expression: if one of them lies inside the other, or if the part that they have in common is a
sequence. Where that part is a choice, a path meets at most one of them.

* `Expr.partAt`, `Expr.DeclaresAt`: the parts of an expression, and those that declare a name.
* `Expr.Clash`: two declarations of a name that may be on one path.
* `Expr.recurs_sequence`, `Expr.recurs_choice`, `Expr.recurs_group`: where names recur, part by
  part.
* **`Expr.checked_pathNames`**: the check of names finds the ones that recur, and no others.
* **`duplicate_names_iff`**: patterns are refused for a name exactly if it recurs.
-/

namespace Motif

namespace Expr

/-! ## Parts -/

/-- The parts directly below an expression. -/
def children : Expr → List Expr
  | node _ | backref _ | multi .. | anchor _ => []
  | sequence es | choice es => es
  | iterate e _ _ _ | group e _ _ | action e _ _ => [e]

/-- The name that an expression gives to itself as a group. -/
def ownName : Expr → Option String
  | group _ _ name => name
  | _ => none

/-- The part at an address, which says level by level below which child the part lies. -/
def partAt (e : Expr) : List Nat → Option Expr
  | [] => some e
  | i :: a => e.children[i]?.bind fun c => c.partAt a

/-- The group at an address declares a name. -/
def DeclaresAt (e : Expr) (a : List Nat) (name : String) : Prop :=
  ∃ c id, e.partAt a = some (group c id (some name))

/-- The address of the lowest part that two parts have in common. -/
def commonAddress : List Nat → List Nat → List Nat
  | i :: a, j :: b => if i = j then i :: commonAddress a b else []
  | _, _ => []

/-- Two declarations of a name may be on one path: one lies inside the other, or the lowest part
that they have in common is a sequence. -/
structure Clash (e : Expr) (name : String) (a b : List Nat) : Prop where
  left : e.DeclaresAt a name
  right : e.DeclaresAt b name
  ne : a ≠ b
  path : a <+: b ∨ b <+: a ∨ ∃ es, e.partAt (commonAddress a b) = some (sequence es)

/-- A name is declared somewhere in an expression. -/
def Declares (e : Expr) (name : String) : Prop := ∃ a, e.DeclaresAt a name

/-- A name is declared twice on one path through an expression. -/
def Recurs (e : Expr) (name : String) : Prop := ∃ a b, e.Clash name a b

variable {e : Expr} {name : String} {a b : List Nat} {i j : Nat}

theorem declaresAt_nil : e.DeclaresAt [] name ↔ e.ownName = some name := by
  cases e <;> simp [DeclaresAt, partAt, ownName]

theorem declaresAt_cons :
    e.DeclaresAt (i :: a) name ↔ ∃ c, e.children[i]? = some c ∧ c.DeclaresAt a name := by
  simp only [DeclaresAt, partAt, Option.bind_eq_some_iff]
  constructor
  · rintro ⟨g, id, c, hc, hg⟩
    exact ⟨c, hc, g, id, hg⟩
  · rintro ⟨c, hc, g, id, hg⟩
    exact ⟨g, id, c, hc, hg⟩

theorem declares_iff :
    e.Declares name ↔ e.ownName = some name ∨ ∃ c ∈ e.children, c.Declares name := by
  constructor
  · rintro ⟨_ | ⟨i, a⟩, h⟩
    · exact .inl (declaresAt_nil.1 h)
    · obtain ⟨c, hc, h⟩ := declaresAt_cons.1 h
      exact .inr ⟨c, List.mem_of_getElem? hc, a, h⟩
  · rintro (h | ⟨c, hc, a, h⟩)
    · exact ⟨[], declaresAt_nil.2 h⟩
    · obtain ⟨i, hi⟩ := List.getElem?_of_mem hc
      exact ⟨i :: a, declaresAt_cons.2 ⟨c, hi, h⟩⟩

/-- No two of several expressions declare a name. -/
def Separate (name : String) (es : List Expr) : Prop :=
  es.Pairwise fun c c' => ¬ (c.Declares name ∧ c'.Declares name)

theorem not_separate_iff {es : List Expr} : ¬ Separate name es ↔
    ∃ (i j : Nat) (c c' : Expr), i ≠ j ∧ es[i]? = some c ∧ es[j]? = some c' ∧ c.Declares name ∧
      c'.Declares name := by
  have hsymm {c c' : Expr} (h : ¬ (c.Declares name ∧ c'.Declares name)) :
      ¬ (c'.Declares name ∧ c.Declares name) := fun h' => h h'.symm
  constructor
  · intro h
    rw [Separate, List.pairwise_iff_getElem] at h
    push Not at h
    obtain ⟨i, j, hi, hj, hij, hc, hc'⟩ := h
    exact ⟨i, j, _, _, Nat.ne_of_lt hij, List.getElem?_eq_getElem hi, List.getElem?_eq_getElem hj,
      hc, hc'⟩
  · rintro ⟨i, j, c, c', hij, hc, hc', hname, hname'⟩ h
    rw [Separate, List.pairwise_iff_getElem] at h
    obtain ⟨hi, rfl⟩ := List.getElem?_eq_some_iff.1 hc
    obtain ⟨hj, rfl⟩ := List.getElem?_eq_some_iff.1 hc'
    obtain hlt | hlt := Nat.lt_or_gt_of_ne hij
    · exact h i j hi hj hlt ⟨hname, hname'⟩
    · exact h j i hj hi hlt ⟨hname', hname⟩

theorem commonAddress_comm (a b : List Nat) : commonAddress b a = commonAddress a b := by
  induction a generalizing b with
  | nil => cases b <;> rfl
  | cons i a ih =>
    cases b with
    | nil => rfl
    | cons j b =>
      rw [commonAddress, commonAddress, ih]
      split_ifs <;> simp_all

theorem Clash.symm (h : e.Clash name a b) : e.Clash name b a where
  left := h.right
  right := h.left
  ne := h.ne.symm
  path := by
    rw [commonAddress_comm, or_left_comm]
    exact h.path

theorem commonAddress_of_above (h : a <+: b) : commonAddress a b = a := by
  induction a generalizing b with
  | nil => rfl
  | cons i a ih =>
    obtain ⟨c, rfl⟩ := h
    rw [List.cons_append, commonAddress, if_pos rfl, ih ⟨c, rfl⟩]

/-- **Declarations in different alternatives do not clash.** -/
theorem not_clash_of_choice {es : List Expr}
    (h : e.partAt (commonAddress a b) = some (choice es)) : ¬ e.Clash name a b := by
  -- the outer one of two declarations is a group
  have houter {a b : List Nat} (ha : e.DeclaresAt a name) (hab : a <+: b) :
      e.partAt (commonAddress a b) ≠ some (choice es) := by
    obtain ⟨c, id, hc⟩ := ha
    rw [commonAddress_of_above hab, hc]
    nofun
  intro hclash
  obtain hab | hba | ⟨es', hes⟩ := hclash.path
  · exact houter hclash.left hab h
  · exact houter hclash.right hba (commonAddress_comm a b ▸ h)
  · rw [hes] at h
    cases h

theorem clash_cons_self {c : Expr} (hc : e.children[i]? = some c) :
    e.Clash name (i :: a) (i :: b) ↔ c.Clash name a b := by
  have hat (a : List Nat) : e.partAt (i :: a) = c.partAt a := by simp [partAt, hc]
  have hdeclares (a : List Nat) : e.DeclaresAt (i :: a) name ↔ c.DeclaresAt a name := by
    rw [DeclaresAt, hat, DeclaresAt]
  have habove (a b : List Nat) : i :: a <+: i :: b ↔ a <+: b := by simp
  have hcommon : commonAddress (i :: a) (i :: b) = i :: commonAddress a b := if_pos rfl
  constructor
  · rintro ⟨hleft, hright, hne, hpath⟩
    rw [habove, habove, hcommon, hat] at hpath
    exact ⟨(hdeclares a).1 hleft, (hdeclares b).1 hright, by simpa using hne, hpath⟩
  · rintro ⟨hleft, hright, hne, hpath⟩
    refine ⟨(hdeclares a).2 hleft, (hdeclares b).2 hright, by simpa using hne, ?_⟩
    rwa [habove, habove, hcommon, hat]

theorem clash_cons_of_ne (hij : i ≠ j) : e.Clash name (i :: a) (j :: b) ↔
    (∃ es, e = sequence es) ∧ e.DeclaresAt (i :: a) name ∧ e.DeclaresAt (j :: b) name := by
  have habove (i j : Nat) (a b : List Nat) (hij : i ≠ j) : ¬ i :: a <+: j :: b := by
    simp [hij]
  constructor
  · rintro ⟨hleft, hright, -, hpath⟩
    refine ⟨?_, hleft, hright⟩
    obtain h | h | ⟨es, h⟩ := hpath
    · exact absurd h (habove i j a b hij)
    · exact absurd h (habove j i b a hij.symm)
    · rw [commonAddress, if_neg hij, partAt, Option.some.injEq] at h
      exact ⟨es, h⟩
  · rintro ⟨⟨es, rfl⟩, hleft, hright⟩
    refine ⟨hleft, hright, by simp [hij], .inr (.inr ⟨es, ?_⟩)⟩
    rw [commonAddress, if_neg hij]
    rfl

/-- A name recurs below a child, in a group of its own name, or in two parts of a sequence. -/
theorem recurs_iff : e.Recurs name ↔ (∃ c ∈ e.children, c.Recurs name) ∨
    (e.ownName = some name ∧ ∃ c ∈ e.children, c.Declares name) ∨
    ∃ es, e = sequence es ∧ ¬ Separate name es := by
  constructor
  · -- a declaration above another one is that of the expression itself
    have hown {j : Nat} {b : List Nat} (h : e.Clash name [] (j :: b)) :
        e.ownName = some name ∧ ∃ c ∈ e.children, c.Declares name := by
      obtain ⟨c, hc, hb⟩ := declaresAt_cons.1 h.right
      exact ⟨declaresAt_nil.1 h.left, c, List.mem_of_getElem? hc, b, hb⟩
    rintro ⟨_ | ⟨i, a⟩, _ | ⟨j, b⟩, h⟩
    · exact absurd rfl h.ne
    · exact .inr (.inl (hown h))
    · exact .inr (.inl (hown h.symm))
    · by_cases hij : i = j
      · subst hij
        obtain ⟨c, hc, -⟩ := declaresAt_cons.1 h.left
        exact .inl ⟨c, List.mem_of_getElem? hc, a, b, (clash_cons_self hc).1 h⟩
      · obtain ⟨⟨es, rfl⟩, hleft, hright⟩ := (clash_cons_of_ne hij).1 h
        obtain ⟨c, hc, ha⟩ := declaresAt_cons.1 hleft
        obtain ⟨c', hc', hb⟩ := declaresAt_cons.1 hright
        exact .inr (.inr ⟨es, rfl, not_separate_iff.2 ⟨i, j, c, c', hij, hc, hc', ⟨a, ha⟩, b, hb⟩⟩)
  · rintro (⟨c, hc, a, b, h⟩ | ⟨hname, c, hc, b, h⟩ | ⟨es, rfl, h⟩)
    · obtain ⟨i, hi⟩ := List.getElem?_of_mem hc
      exact ⟨i :: a, i :: b, (clash_cons_self hi).2 h⟩
    · obtain ⟨i, hi⟩ := List.getElem?_of_mem hc
      exact ⟨[], i :: b, declaresAt_nil.2 hname, declaresAt_cons.2 ⟨c, hi, h⟩, nofun,
        .inl List.nil_prefix⟩
    · obtain ⟨i, j, c, c', hij, hc, hc', ⟨a, ha⟩, b, hb⟩ := not_separate_iff.1 h
      exact ⟨i :: a, j :: b, (clash_cons_of_ne hij).2
        ⟨⟨es, rfl⟩, declaresAt_cons.2 ⟨c, hc, ha⟩, declaresAt_cons.2 ⟨c', hc', hb⟩⟩⟩

theorem not_declares_of_children_eq_nil (hc : e.children = []) (hn : e.ownName = none) :
    ¬ e.Declares name := by
  rw [declares_iff, hc, hn]
  simp

theorem declares_of_children_eq_singleton {c : Expr} (hc : e.children = [c]) :
    e.Declares name ↔ e.ownName = some name ∨ c.Declares name := by
  rw [declares_iff, hc]
  simp

theorem declares_sequence {es : List Expr} :
    (sequence es).Declares name ↔ ∃ c ∈ es, c.Declares name := by
  rw [declares_iff]
  simp [children, ownName]

theorem declares_choice {es : List Expr} :
    (choice es).Declares name ↔ ∃ c ∈ es, c.Declares name := by
  rw [declares_iff]
  simp [children, ownName]

theorem not_recurs_of_children_eq_nil (hc : e.children = []) : ¬ e.Recurs name := by
  rw [recurs_iff, hc]
  rintro (⟨c, hc, -⟩ | ⟨-, c, hc, -⟩ | ⟨es, rfl, h⟩)
  · cases hc
  · cases hc
  · subst hc
    exact h .nil

/-- In a single part and the expression around it, a name recurs in the part, or the expression
declares it as well. -/
theorem recurs_of_children_eq_singleton {c : Expr} (hc : e.children = [c]) :
    e.Recurs name ↔ c.Recurs name ∨ e.ownName = some name ∧ c.Declares name := by
  have hsingle (es : List Expr) (he : e = sequence es) : Separate name es := by
    subst he
    subst hc
    exact List.pairwise_singleton _ _
  rw [recurs_iff, hc]
  simp only [List.mem_singleton, exists_eq_left]
  constructor
  · rintro (h | h | ⟨es, he, h⟩)
    · exact .inl h
    · exact .inr h
    · exact absurd (hsingle es he) h
  · rintro (h | h)
    · exact .inl h
    · exact .inr (.inl h)

/-- **Along a sequence a name recurs in one of the parts, or two of them declare it.** -/
theorem recurs_sequence {es : List Expr} : (sequence es).Recurs name ↔
    (∃ c ∈ es, c.Recurs name) ∨ ¬ Separate name es := by
  rw [recurs_iff]
  simp [children, ownName]

/-- **In a choice a name only recurs within one of the alternatives.** -/
theorem recurs_choice {es : List Expr} :
    (choice es).Recurs name ↔ ∃ c ∈ es, c.Recurs name := by
  rw [recurs_iff]
  simp [children, ownName]

end Expr

/-! ## The check of names -/

namespace GroupNames

/-- The names alone. -/
def keys (names : GroupNames) : List String := names.map (·.1)

theorem any_iff {names : GroupNames} {name : String} :
    names.any (·.1 == name) = true ↔ name ∈ names.keys := by
  simp [keys]

@[simp] theorem keys_nil : keys [] = [] := rfl

theorem nodup_keys_nil : (keys []).Nodup := List.nodup_nil

theorem nodup_keys_concat {names : GroupNames} {name : String} (hnames : names.keys.Nodup)
    (hnew : name ∉ names.keys) (id : Nat) : keys (names ++ [(name, id)]) |>.Nodup := by
  rw [keys, List.map_append, List.nodup_append]
  refine ⟨hnames, List.nodup_singleton _, fun n hn m hm hnm => hnew ?_⟩
  have hm : m = name := List.mem_singleton.1 hm
  rwa [← hm, ← hnm]

theorem keys_append (names more : GroupNames) : (names ++ more).keys = names.keys ++ more.keys :=
  List.map_append

/-- The verdict on names that have to be declared, of which some must not be. -/
inductive Checked (declared refused : String → Prop) : Except CompileError GroupNames → Prop where
  /-- Nothing is refused; all that is declared is found, each name once. -/
  | ok {names : GroupNames} (nodup : names.keys.Nodup) (keys : ∀ n, n ∈ names.keys ↔ declared n)
    (fine : ∀ n, ¬ refused n) : Checked declared refused (.ok names)
  /-- A name is refused. -/
  | error {name : String} (offset : Nat) (h : refused name) :
    Checked declared refused (.error (.duplicateGroupName name offset))

variable {ds rs ds' rs' : String → Prop}

theorem Checked.bind {x : Except CompileError GroupNames}
    {f : GroupNames → Except CompileError GroupNames} (h : Checked ds rs x)
    (hrs : ∀ n, rs n → rs' n) (hf : ∀ names : GroupNames, names.keys.Nodup →
      (∀ n, n ∈ names.keys ↔ ds n) → (∀ n, ¬ rs n) → Checked ds' rs' (f names)) :
    Checked ds' rs' (x >>= f) := by
  cases h with
  | ok nodup keys fine => exact hf _ nodup keys fine
  | error offset h => exact .error offset (hrs _ h)

theorem Checked.congr {x : Except CompileError GroupNames} (h : Checked ds rs x)
    (hds : ∀ n, ds n ↔ ds' n) (hrs : ∀ n, rs n ↔ rs' n) : Checked ds' rs' x := by
  cases h with
  | ok nodup keys fine =>
    exact .ok nodup (fun n => (keys n).trans (hds n)) fun n hn => fine n ((hrs n).2 hn)
  | error offset h => exact .error offset ((hrs _).1 h)

theorem nodup_keys_arrange {names : GroupNames} (h : names.keys.Nodup) (a : Arrangement) :
    (a.arrange names).keys.Nodup :=
  ((a.perm names).map _).nodup_iff.2 h

theorem mem_keys_arrange {names : GroupNames} {a : Arrangement} {n : String} :
    n ∈ (a.arrange names).keys ↔ n ∈ names.keys :=
  ((a.perm names).map _).mem_iff

theorem checked_joined (sites : List (Nat × Nat)) {names more : GroupNames}
    (hnames : names.keys.Nodup) (hmore : more.keys.Nodup) :
    Checked (fun n => n ∈ names.keys ∨ n ∈ more.keys) (fun n => n ∈ names.keys ∧ n ∈ more.keys)
      (names.joined sites more) := by
  induction more generalizing names with
  | nil => exact .ok hnames (fun n => by simp [keys]) fun n h => by cases h.2
  | cons b more ih =>
    obtain ⟨name, id⟩ := b
    obtain ⟨hname, hmore⟩ := List.nodup_cons.1 hmore
    rw [joined]
    split
    · next h => exact .error _ ⟨any_iff.1 h, List.mem_cons_self⟩
    · next h =>
      rw [any_iff] at h
      refine (ih (nodup_keys_concat hnames h id) hmore).congr (fun n => ?_) fun n => ?_
      · rw [keys_append]
        simp [keys, or_assoc]
      · -- the name that is added stands neither before nor behind
        have hkeys : n ∈ keys ((name, id) :: more) ↔ n = name ∨ n ∈ keys more := List.mem_cons
        rw [keys_append, List.mem_append, hkeys]
        have hone : n ∈ keys [(name, id)] ↔ n = name := List.mem_singleton
        rw [hone]
        constructor
        · rintro ⟨hn | rfl, hn'⟩
          · exact ⟨hn, .inr hn'⟩
          · exact absurd hn' hname
        · rintro ⟨hn, rfl | hn'⟩
          · exact absurd hn h
          · exact ⟨.inl hn, hn'⟩

theorem mem_keys_either {names more : GroupNames} {n : String} :
    n ∈ (names.either more).keys ↔ n ∈ names.keys ∨ n ∈ more.keys := by
  rw [either, keys_append, List.mem_append]
  by_cases hn : n ∈ more.keys
  · simp [hn]
  · have hfilter : n ∈ keys (names.filter fun b => !more.any (·.1 == b.1)) ↔ n ∈ names.keys := by
      simp only [keys, List.mem_map, List.mem_filter]
      constructor
      · rintro ⟨b, hb, rfl⟩
        exact ⟨b, hb.1, rfl⟩
      · rintro ⟨b, hb, rfl⟩
        refine ⟨b, ⟨hb, ?_⟩, rfl⟩
        rw [Bool.not_eq_true', ← Bool.not_eq_true, any_iff]
        exact hn
    rw [hfilter]

theorem nodup_keys_either {names more : GroupNames} (hnames : names.keys.Nodup)
    (hmore : more.keys.Nodup) : (names.either more).keys.Nodup := by
  rw [either, keys_append, List.nodup_append]
  refine ⟨hnames.sublist (List.filter_sublist.map _), hmore, fun n hn m hm hnm => ?_⟩
  obtain ⟨b, hb, rfl⟩ := List.mem_map.1 hn
  have hb := (List.mem_filter.1 hb).2
  rw [Bool.not_eq_true', ← Bool.not_eq_true, any_iff] at hb
  exact hb (hnm ▸ hm)

end GroupNames

namespace Expr

open GroupNames (Checked)

variable (sites : List (Nat × Nat))

theorem checked_leaf {e : Expr} (hc : e.children = []) (hn : e.ownName = none) :
    Checked e.Declares e.Recurs (.ok []) :=
  .ok .nil (fun _ => ⟨nofun, fun h => absurd h (not_declares_of_children_eq_nil hc hn)⟩)
    fun _ => not_recurs_of_children_eq_nil hc

theorem checked_around {e c : Expr} {x : Except CompileError GroupNames}
    (h : Checked c.Declares c.Recurs x) (hc : e.children = [c]) (hn : e.ownName = none) :
    Checked e.Declares e.Recurs x := by
  refine h.congr (fun n => ?_) fun n => ?_
  · rw [declares_of_children_eq_singleton hc, hn]
    simp
  · rw [recurs_of_children_eq_singleton hc, hn]
    simp

mutual

/-- **The check of names refuses a name that recurs**, and finds all names if none does. -/
theorem checked_pathNames (o : NameOrder) (e : Expr) :
    Checked e.Declares e.Recurs (e.pathNames sites o) := by
  match e with
  | node _ | backref _ | multi .. | anchor _ => exact checked_leaf rfl rfl
  | sequence es =>
    refine (checked_pathNamesOfAll o GroupNames.nodup_keys_nil es).congr (fun n => ?_) fun n => ?_
    · rw [declares_sequence]
      simp [GroupNames.keys]
    · rw [recurs_sequence]
      simp [GroupNames.keys]
  | choice es =>
    refine (checked_pathNamesOfChoice o GroupNames.nodup_keys_nil es).congr (fun n => ?_) fun n => ?_
    · rw [declares_choice]
      simp [GroupNames.keys]
    · rw [recurs_choice]
  | iterate c _ _ _ | action c _ _ | group c _ none =>
    exact checked_around (checked_pathNames o c) rfl rfl
  | group c id (some name) =>
    have hrecurs (n : String) : (group c id (some name)).Recurs n ↔
        c.Recurs n ∨ some name = some n ∧ c.Declares n := recurs_of_children_eq_singleton rfl
    have hdeclares (n : String) : (group c id (some name)).Declares n ↔
        some name = some n ∨ c.Declares n := declares_of_children_eq_singleton rfl
    rw [pathNames]
    refine (checked_pathNames o c).bind (fun n h => (hrecurs n).2 (.inl h)) fun names hnodup hkeys
      hfine => ?_
    split
    · next inner hinner =>
      obtain ⟨l, r, hl, -⟩ := List.lookup_eq_some_iff.1 hinner
      have hmem : name ∈ names.keys := List.mem_map.2 ⟨(name, inner), by simp [hl], rfl⟩
      exact .error _ ((hrecurs name).2 (.inr ⟨rfl, (hkeys name).1 hmem⟩))
    · next hnone =>
      have hnew : name ∉ names.keys := by
        intro hmem
        obtain ⟨b, hb, hname⟩ := List.mem_map.1 hmem
        have := List.lookup_eq_none_iff.1 hnone b hb
        simp [hname] at this
      refine .ok (GroupNames.nodup_keys_concat hnodup hnew _) (fun n => ?_) fun n h => ?_
      · rw [GroupNames.keys_append, List.mem_append, hkeys, hdeclares, or_comm]
        simp only [GroupNames.keys, List.map_cons, List.map_nil, List.mem_singleton,
          Option.some.injEq, eq_comm]
      · obtain h | ⟨heq, h⟩ := (hrecurs n).1 h
        · exact hfine n h
        · cases heq
          exact hnew ((hkeys name).2 h)

theorem checked_pathNamesOfAll (o : NameOrder) {names : GroupNames} (hnames : names.keys.Nodup)
    (es : List Expr) : Checked (fun n => n ∈ names.keys ∨ ∃ c ∈ es, c.Declares n)
      (fun n => (n ∈ names.keys ∧ ∃ c ∈ es, c.Declares n) ∨ (∃ c ∈ es, c.Recurs n) ∨
        ¬ Separate n es) (pathNamesOfAll sites o names es) := by
  match es with
  | [] => exact .ok hnames (fun n => by simp) fun n => by simp [Separate]
  | e :: es =>
    have hseparate (n : String) : ¬ Separate n (e :: es) ↔
        (e.Declares n ∧ ∃ c ∈ es, c.Declares n) ∨ ¬ Separate n es := by
      simp only [Separate, List.pairwise_cons]
      grind
    rw [pathNamesOfAll]
    refine (checked_pathNames o.head e).bind (fun n h => ?_) fun more hmore hkeys hfine => ?_
    · exact .inr (.inl ⟨e, List.mem_cons_self, h⟩)
    -- in whatever order the names of the first part come up, they are the same
    have hkeys (n : String) : n ∈ (o.here.arrange more).keys ↔ _ :=
      GroupNames.mem_keys_arrange.trans (hkeys n)
    refine (GroupNames.checked_joined sites hnames
      (GroupNames.nodup_keys_arrange hmore o.here)).bind (fun n h => ?_)
      fun joined hjoined hkeys' hfine' => ?_
    · exact .inl ⟨h.1, e, List.mem_cons_self, (hkeys n).1 h.2⟩
    refine (checked_pathNamesOfAll o.tail hjoined es).congr (fun n => ?_) fun n => ?_
    · rw [hkeys', hkeys, List.exists_mem_cons_iff, or_assoc]
    · have := hfine n
      have := hfine' n
      rw [hkeys', hseparate, List.exists_mem_cons_iff, List.exists_mem_cons_iff, ← hkeys]
      grind

theorem checked_pathNamesOfChoice (o : NameOrder) {names : GroupNames}
    (hnames : names.keys.Nodup) (es : List Expr) :
    Checked (fun n => n ∈ names.keys ∨ ∃ c ∈ es, c.Declares n)
      (fun n => ∃ c ∈ es, c.Recurs n) (pathNamesOfChoice sites o names es) := by
  match es with
  | [] => exact .ok hnames (fun n => by simp) fun n => by simp
  | e :: es =>
    rw [pathNamesOfChoice]
    refine (checked_pathNames o.head e).bind (fun n h => ⟨e, List.mem_cons_self, h⟩)
      fun more hmore hkeys hfine => ?_
    refine (checked_pathNamesOfChoice o.tail (GroupNames.nodup_keys_either hnames hmore) es).congr
      (fun n => ?_) fun n => ?_
    · rw [GroupNames.mem_keys_either, hkeys, List.exists_mem_cons_iff, or_assoc]
    · rw [List.exists_mem_cons_iff, or_iff_right (hfine n)]

end

end Expr

/-! ## Patterns -/

namespace Numbering

variable {st : Numbering} {o : NameOrder} {e : Expr}

/-- **The last check refuses references to no group and names that recur.** -/
theorem error_of_validate {x : CompileError} (h : st.validate o e = .error x) :
    (∃ ref ∈ st.backrefs, ¬ (1 ≤ ref.1 ∧ ref.1 < st.next) ∧ x = .invalidBackref ref.1 ref.2) ∨
      ∃ name offset, x = .duplicateGroupName name offset ∧ e.Recurs name := by
  rw [validate] at h
  split at h
  · next id offset hfind =>
    have hbad := List.find?_some hfind
    simp only [Bool.or_eq_true, beq_iff_eq, decide_eq_true_eq] at hbad
    exact .inl ⟨(id, offset), List.mem_of_find?_eq_some hfind, by omega,
      (Except.error.inj h).symm⟩
  · have hchecked := Expr.checked_pathNames st.sites o e
    generalize e.pathNames st.sites o = names at h hchecked
    cases hchecked with
    | ok => cases h
    | error offset hrecurs =>
      cases h
      exact .inr ⟨_, offset, rfl, hrecurs⟩

theorem validate_eq_ok_iff (h : ∀ ref ∈ st.backrefs, 1 ≤ ref.1 ∧ ref.1 < st.next) :
    st.validate o e = .ok () ↔ ∀ name, ¬ e.Recurs name := by
  constructor
  · intro hok
    rw [validate] at hok
    split at hok
    · cases hok
    · have hchecked := Expr.checked_pathNames st.sites o e
      generalize e.pathNames st.sites o = names at hok hchecked
      cases hchecked with
      | ok _ _ fine => exact fine
      | error => cases hok
  · intro hfine
    cases hv : st.validate o e with
    | ok u => rfl
    | error x =>
      obtain ⟨ref, href, hbad, -⟩ | ⟨name, _, -, hname⟩ := error_of_validate hv
      · exact absurd (h ref href) hbad
      · exact absurd hname (hfine name)

/-- A pattern passes if its references are to its groups and no name recurs, in whatever order the
names are gone through. -/
theorem validate_eq_ok_iff_and (st : Numbering) (o : NameOrder) (e : Expr) :
    st.validate o e = .ok () ↔
      (∀ ref ∈ st.backrefs, 1 ≤ ref.1 ∧ ref.1 < st.next) ∧ ∀ name, ¬ e.Recurs name :=
  ⟨fun h => ⟨backrefs_of_validate h, (validate_eq_ok_iff (backrefs_of_validate h)).1 h⟩,
    fun h => (validate_eq_ok_iff h.1).2 h.2⟩

end Numbering

/-- **Patterns are refused for a name exactly if it is declared twice on one path.** -/
theorem duplicate_names_iff {env : Environment} {sources : List String} {r : Sources}
    (hr : readSources env {} sources = .ok r)
    (hrefs : ∀ ref ∈ r.numbering.backrefs, 1 ≤ ref.1 ∧ ref.1 < r.numbering.next) :
    ((∃ name offset, compileAll env sources = .error (.duplicateGroupName name offset)) ↔
      ∃ name a b, (Expr.ofItems r.parts).Clash name a b) ∧
    (∀ name offset, compileAll env sources = .error (.duplicateGroupName name offset) →
      ∃ a b, (Expr.ofItems r.parts).Clash name a b) ∧
    ((∀ name a b, (Expr.ofItems r.parts).DeclaresAt a name →
      (Expr.ofItems r.parts).DeclaresAt b name → a ≠ b →
      ∃ es, (Expr.ofItems r.parts).partAt (Expr.commonAddress a b) = some (.choice es)) →
      ∀ o, r.numbering.validate o (Expr.ofItems r.parts) = .ok ()) := by
  have hrecurs {x : CompileError}
      (h : r.numbering.validate env.order (.ofItems r.parts) = .error x) :
      ∃ name offset, x = .duplicateGroupName name offset ∧ (Expr.ofItems r.parts).Recurs name := by
    obtain ⟨ref, href, hbad, -⟩ | h := Numbering.error_of_validate h
    · exact absurd (hrefs ref href) hbad
    · exact h
  have hsound (name : String) (offset : Nat)
      (h : compileAll env sources = .error (.duplicateGroupName name offset)) :
      (Expr.ofItems r.parts).Recurs name := by
    obtain h | ⟨r', hr', hv | ⟨c, -, ht⟩⟩ := error_of_compileAll h
    · rw [hr] at h
      cases h
    · obtain rfl : r = r' := Except.ok.inj (hr.symm.trans hr')
      obtain ⟨name', offset', heq, hname⟩ := hrecurs hv
      cases heq
      exact hname
    · obtain ⟨_, heq⟩ | ⟨_, heq⟩ := Numbering.error_of_target ht <;> cases heq
  refine ⟨⟨?_, ?_⟩, hsound, ?_⟩
  · rintro ⟨name, offset, h⟩
    exact ⟨name, hsound name offset h⟩
  · rintro ⟨name, hname⟩
    cases hv : r.numbering.validate env.order (.ofItems r.parts) with
    | ok u => exact absurd hname ((Numbering.validate_eq_ok_iff hrefs).1 hv name)
    | error x =>
      obtain ⟨name', offset, rfl, -⟩ := hrecurs hv
      refine ⟨name', offset, ?_⟩
      rw [compileAll, hr]
      change (r.numbering.validate env.order (.ofItems r.parts) >>= _) = _
      rw [hv]
      rfl
  · intro h o
    rw [Numbering.validate_eq_ok_iff hrefs]
    rintro name ⟨a, b, hclash⟩
    obtain ⟨es, hes⟩ := h name a b hclash.left hclash.right hclash.ne
    exact Expr.not_clash_of_choice hes hclash

/-- Two alternatives may share a name, but not with a variable behind them. -/
theorem duplicate_names_iff_of_alternatives :
    let inner : Pattern := .build "(?$v [])" (.group (.node .any) (some 1) (some "v")) [("v", 1)] 2
    let env : Environment := { patterns := [("x", .compiled inner)] }
    let sources := ["(?$v [])|(?$v [])", "$x"]
    ∃ r, readSources env {} sources = .ok r ∧
      (∀ ref ∈ r.numbering.backrefs, 1 ≤ ref.1 ∧ ref.1 < r.numbering.next) ∧
      ¬ (Expr.ofItems r.parts).Clash "v" [0, 0] [0, 1] ∧
      (Expr.ofItems r.parts).Clash "v" [0, 0] [1] ∧
      ∃ name offset, compileAll env sources = .error (.duplicateGroupName name offset) := by
  intro inner env sources
  let group (id : Nat) : Expr := .group (.node .any) (some id) (some "v")
  let r : Sources :=
    { parts := [.choice [group 1, group 2], group 3]
      numbering := {
        next := 4
        names := [("v", 1), ("v", 2), ("v", 3)]
        sites := [(3, 0), (2, 9), (1, 0)] } }
  have hr : readSources env {} sources = .ok r := by
    have h₁ : lexemes "(?$v [])|(?$v [])" = .ok [⟨.namedGroup "v", 0⟩, ⟨.lbracket, 5⟩,
        ⟨.rbracket, 6⟩, ⟨.rparen, 7⟩, ⟨.pipe, 8⟩, ⟨.namedGroup "v", 9⟩, ⟨.lbracket, 14⟩,
        ⟨.rbracket, 15⟩, ⟨.rparen, 16⟩, ⟨.eof, 17⟩] := by decide +kernel
    have h₂ : lexemes "$x" = .ok [⟨.var "x", 0⟩, ⟨.eof, 2⟩] := by decide +kernel
    simp only [sources, readSources, h₁, h₂]
    cbv
  have hrefs : ∀ ref ∈ r.numbering.backrefs, 1 ≤ ref.1 ∧ ref.1 < r.numbering.next :=
    fun _ href => absurd href List.not_mem_nil
  have hclash : (Expr.ofItems r.parts).Clash "v" [0, 0] [1] :=
    ⟨⟨_, _, rfl⟩, ⟨_, _, rfl⟩, by decide, .inr (.inr ⟨_, rfl⟩)⟩
  exact ⟨r, hr, hrefs, Expr.not_clash_of_choice rfl, hclash,
    (duplicate_names_iff hr hrefs).1.2 ⟨_, _, _, hclash⟩⟩

end Motif
