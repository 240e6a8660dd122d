import Motif.Proofs.Moves
import Motif.Proofs.Reading
import Mathlib

/-!
# Numbers of groups

Groups are numbered in the order of their opening, wherever they are written: in a text, in the
text of a variable, or in a compiled pattern that is copied. While readers go on, the numbers
handed out, the groups of what was read and the names stay in step.

* `Expr.groups_shiftGroups`, `Expr.backrefs_shiftGroups`: what renumbering does to a tree.
* `Numbering.Covers`: what was read accounts for all that was handed out.
* **`Numbering.Reads.covers`**: it does after every reading.
* `Pattern.Numbered`, `Pattern.Compiled`: groups numbered without a gap, and patterns from texts.
* **`compileAll_numbers_groups`**: compiled patterns have their groups numbered without a gap.
-/

namespace Motif

/-! ## Trees -/

namespace Expr

@[simp] theorem groupsOfAll_singleton (e : Expr) : groupsOfAll [e] = e.groups :=
  List.append_nil _

@[simp] theorem backrefsOfAll_singleton (e : Expr) : backrefsOfAll [e] = e.backrefs :=
  List.append_nil _

@[simp] theorem targetsOfAll_singleton (e : Expr) : targetsOfAll [e] = e.targets :=
  List.append_nil _

theorem groups_ofItems (es : List Expr) : (ofItems es).groups = groupsOfAll es := by
  match es with
  | [] | _ :: _ :: _ => rfl
  | [e] => exact (groupsOfAll_singleton e).symm

theorem backrefs_ofItems (es : List Expr) : (ofItems es).backrefs = backrefsOfAll es := by
  match es with
  | [] | _ :: _ :: _ => rfl
  | [e] => exact (backrefsOfAll_singleton e).symm

theorem targets_ofItems (es : List Expr) : (ofItems es).targets = targetsOfAll es := by
  match es with
  | [] | _ :: _ :: _ => rfl
  | [e] => exact (targetsOfAll_singleton e).symm

mutual

theorem groups_shiftGroups (k : Nat) (e : Expr) :
    (e.shiftGroups k).groups = e.groups.map fun g => (g.1 + k, g.2) := by
  match e with
  | node _ | backref _ | multi .. | anchor _ => rfl
  | sequence es | choice es => exact groupsOfAll_shiftAll k es
  | iterate e _ _ _ | action e _ _ | group e none _ => exact groups_shiftGroups k e
  | group e (some id) name => exact congrArg ((id + k, name) :: ·) (groups_shiftGroups k e)

theorem groupsOfAll_shiftAll (k : Nat) (es : List Expr) :
    groupsOfAll (shiftAll k es) = (groupsOfAll es).map fun g => (g.1 + k, g.2) := by
  match es with
  | [] => rfl
  | e :: es =>
    rw [shiftAll, groupsOfAll, groupsOfAll, List.map_append, groups_shiftGroups k e,
      groupsOfAll_shiftAll k es]

end

mutual

theorem backrefs_shiftGroups (k : Nat) (e : Expr) :
    (e.shiftGroups k).backrefs = e.backrefs.map (· + k) := by
  match e with
  | node _ | backref _ | multi .. | anchor _ => rfl
  | sequence es | choice es => exact backrefsOfAll_shiftAll k es
  | iterate e _ _ _ | action e _ _ | group e _ _ => exact backrefs_shiftGroups k e

theorem backrefsOfAll_shiftAll (k : Nat) (es : List Expr) :
    backrefsOfAll (shiftAll k es) = (backrefsOfAll es).map (· + k) := by
  match es with
  | [] => rfl
  | e :: es =>
    rw [shiftAll, backrefsOfAll, backrefsOfAll, List.map_append, backrefs_shiftGroups k e,
      backrefsOfAll_shiftAll k es]

end

mutual

theorem targets_shiftGroups (k : Nat) (e : Expr) :
    (e.shiftGroups k).targets = e.targets.map fun t => if t = 0 then 0 else t + k := by
  match e with
  | node _ | backref _ | multi .. | anchor _ => rfl
  | sequence es | choice es => exact targetsOfAll_shiftAll k es
  | iterate e _ _ _ | group e _ _ => exact targets_shiftGroups k e
  | action e _ target =>
    rw [shiftGroups, targets, targets, List.map_append, targets_shiftGroups k e]
    rfl

theorem targetsOfAll_shiftAll (k : Nat) (es : List Expr) :
    targetsOfAll (shiftAll k es) =
      (targetsOfAll es).map fun t => if t = 0 then 0 else t + k := by
  match es with
  | [] => rfl
  | e :: es =>
    rw [shiftAll, targetsOfAll, targetsOfAll, List.map_append, targets_shiftGroups k e,
      targetsOfAll_shiftAll k es]

end

end Expr

namespace Pattern

theorem namedGroups_append (gs gs' : List (Nat × Option String)) :
    namedGroups (gs ++ gs') = namedGroups gs ++ namedGroups gs' := List.filterMap_append

theorem namedGroups_shift (k : Nat) (gs : List (Nat × Option String)) :
    namedGroups (gs.map fun g => (g.1 + k, g.2)) =
      (namedGroups gs).map fun b => (b.1, b.2 + k) := by
  rw [namedGroups, namedGroups, List.filterMap_map, List.map_filterMap]
  exact congrArg (gs.filterMap ·) (funext fun ⟨_, name⟩ => by cases name <;> rfl)

end Pattern

/-! ## Patterns -/

namespace Pattern

/-- The groups of a pattern are numbered `1, 2, …` in the order of their opening, and all references
are to groups that there are. -/
structure Numbered (p : Pattern) : Prop where
  groupCount_pos : 0 < p.groupCount
  groups : p.root.groups.map (·.1) = List.range' 1 (p.groupCount - 1)
  names : p.names = namedGroups p.root.groups
  backrefs : ∀ id ∈ p.root.backrefs, 1 ≤ id ∧ id < p.groupCount
  target : ∀ t ∈ p.root.targets, t < p.groupCount
  body : p.body.targets = []

/-- Patterns compiled from texts, in environments whose compiled patterns come from texts. -/
inductive Compiled : Pattern → Prop where
  | compileAll {env : Environment} {sources : List String} {p : Pattern}
    (henv : ∀ name q, env.pattern? name = some (.compiled q) → q.Compiled)
    (h : Motif.compileAll env sources = .ok p) : Compiled p
  | withScore {p : Pattern} (score : Binary64) (h : p.Compiled) : Compiled (p.withScore score)

variable {p : Pattern}

theorem groups_body (p : Pattern) : p.body.groups = p.root.groups := by
  unfold body
  split
  · next h => rw [h]; rfl
  · rfl

theorem backrefs_body (p : Pattern) : p.body.backrefs = p.root.backrefs := by
  unfold body
  split
  · next h => rw [h]; rfl
  · rfl

theorem targets_body_of_root (h : p.root.targets = []) : p.body.targets = [] := by
  unfold body
  split
  · next hr =>
    rw [hr, Expr.targets] at h
    exact (List.append_eq_nil_iff.1 h).1
  · exact h

theorem mem_targets_of_trailingAction {action : String} {target : Nat}
    (h : p.trailingAction? = some (action, target)) : target ∈ p.root.targets := by
  unfold trailingAction? at h
  split at h
  · next hr =>
    cases h
    rw [hr, Expr.targets]
    exact List.mem_append_right _ (List.mem_singleton_self _)
  · cases h

end Pattern

/-! ## Numberings -/

namespace Numbering

@[simp] theorem openGroups_next (st : Numbering) (site k : Nat) :
    (st.openGroups site k).next = st.next + k := by
  induction k generalizing st with
  | zero => rfl
  | succ k ih =>
    rw [openGroups, ih]
    change st.next + 1 + k = _
    omega

@[simp] theorem openGroups_names (st : Numbering) (site k : Nat) :
    (st.openGroups site k).names = st.names := by
  induction k generalizing st with
  | zero => rfl
  | succ k ih => rw [openGroups, ih]; rfl

@[simp] theorem openGroups_backrefs (st : Numbering) (site k : Nat) :
    (st.openGroups site k).backrefs = st.backrefs := by
  induction k generalizing st with
  | zero => rfl
  | succ k ih => rw [openGroups, ih]; rfl

section Inline

variable (st : Numbering) (p : Pattern) (site : Nat)

theorem next_inline : (st.inline p site).2.next = st.next + (p.groupCount - 1) :=
  openGroups_next ..

theorem groups_inline : Expr.groupsOfAll [(st.inline p site).1] =
    p.root.groups.map fun g => (g.1 + (st.next - 1), g.2) := by
  rw [Expr.groupsOfAll_singleton, ← p.groups_body]
  exact Expr.groups_shiftGroups _ _

theorem backrefs_inline : Expr.backrefsOfAll [(st.inline p site).1] =
    p.root.backrefs.map (· + (st.next - 1)) := by
  rw [Expr.backrefsOfAll_singleton, ← p.backrefs_body]
  exact Expr.backrefs_shiftGroups _ _

theorem mem_backrefs_inline {r : Nat × Nat} (h : r ∈ st.backrefs) :
    r ∈ (st.inline p site).2.backrefs := by
  change r ∈ (openGroups _ _ _).backrefs
  rwa [openGroups_backrefs]

end Inline

theorem Reads.next_le {env : Environment} {st st' : Numbering} {es : List Expr}
    (h : Reads env st st' es) : st.next ≤ st'.next := by
  induction h with
  | nil | node | multi | anchor | backref => exact Nat.le_refl _
  | cons _ _ ih ih' => exact Nat.le_trans ih ih'
  | sequence _ ih | choice _ ih | iterate _ _ _ _ ih | group _ ih => exact ih
  | capture _ _ ih | named _ _ _ ih => exact Nat.le_of_succ_le ih
  | inline =>
    rw [next_inline]
    exact Nat.le_add_right _ _

/-- Expressions read between two numberings account for all that was handed out on the way: the
numbers, the names and the references that have to be checked. -/
structure Covers (st st' : Numbering) (es : List Expr) : Prop where
  next_le : st.next ≤ st'.next
  groups : (Expr.groupsOfAll es).map (·.1) = List.range' st.next (st'.next - st.next)
  names : st'.names = st.names ++ Pattern.namedGroups (Expr.groupsOfAll es)
  kept : ∀ r ∈ st.backrefs, r ∈ st'.backrefs
  backrefs : ∀ id ∈ Expr.backrefsOfAll es,
    1 ≤ id ∧ id < st'.next ∨ ∃ r ∈ st'.backrefs, r.1 = id
  targets : Expr.targetsOfAll es = []

namespace Covers

variable {st st' st'' : Numbering} {e : Expr} {es es' : List Expr}

theorem refl (st : Numbering) (hg : Expr.groupsOfAll es = []) (hb : Expr.backrefsOfAll es = [])
    (ht : Expr.targetsOfAll es = []) : Covers st st es where
  next_le := Nat.le_refl _
  groups := by rw [hg, Nat.sub_self]; rfl
  names := by rw [hg]; exact (List.append_nil _).symm
  kept _ hr := hr
  backrefs id hid := by rw [hb] at hid; cases hid
  targets := ht

theorem cons (h : Covers st st' [e]) (h' : Covers st' st'' es) : Covers st st'' (e :: es) where
  next_le := Nat.le_trans h.next_le h'.next_le
  groups := by
    have hlen : st'.next = st.next + (st'.next - st.next) := by have := h.next_le; omega
    have hsum : st''.next - st.next = (st'.next - st.next) + (st''.next - st'.next) := by
      have := h.next_le
      have := h'.next_le
      omega
    have hhead := h.groups
    have htail := h'.groups
    rw [Expr.groupsOfAll_singleton] at hhead
    rw [Expr.groupsOfAll, List.map_append, hhead, htail, hsum, ← List.range'_append_1, ← hlen]
  names := by
    have hhead := h.names
    rw [Expr.groupsOfAll_singleton] at hhead
    rw [h'.names, hhead, Expr.groupsOfAll, Pattern.namedGroups_append, List.append_assoc]
  kept r hr := h'.kept r (h.kept r hr)
  backrefs id hid := by
    rw [Expr.backrefsOfAll, List.mem_append] at hid
    obtain hid | hid := hid
    · obtain ⟨h₁, h₂⟩ | ⟨r, hr, hrid⟩ := h.backrefs id (by rwa [Expr.backrefsOfAll_singleton])
      · exact .inl ⟨h₁, Nat.lt_of_lt_of_le h₂ h'.next_le⟩
      · exact .inr ⟨r, h'.kept r hr, hrid⟩
    · exact h'.backrefs id hid
  targets := by
    have hhead := h.targets
    rw [Expr.targetsOfAll_singleton] at hhead
    rw [Expr.targetsOfAll, hhead, h'.targets, List.append_nil]

theorem congr (h : Covers st st' es) (hg : Expr.groupsOfAll es' = Expr.groupsOfAll es)
    (hb : Expr.backrefsOfAll es' = Expr.backrefsOfAll es)
    (ht : Expr.targetsOfAll es' = Expr.targetsOfAll es) : Covers st st' es' where
  next_le := h.next_le
  groups := hg ▸ h.groups
  names := hg ▸ h.names
  kept := h.kept
  backrefs := hb ▸ h.backrefs
  targets := ht.trans h.targets

theorem backref (st : Numbering) (id offset : Nat) :
    Covers st (st.refer id offset) [.backref id] where
  next_le := Nat.le_refl _
  groups := by rw [refer, Nat.sub_self]; rfl
  names := (List.append_nil _).symm
  kept r hr := List.mem_append_left _ hr
  backrefs i hi := by
    cases List.mem_singleton.1 hi
    exact .inr ⟨(id, offset), List.mem_append_right _ (List.mem_singleton_self _), rfl⟩
  targets := rfl

/-- A group takes the first number; its name, if it has one, is noted before those inside. -/
theorem group {st₁ : Numbering} (h : Covers st₁ st' [e]) (name : Option String)
    (hnext : st₁.next = st.next + 1)
    (hnames : st₁.names = st.names ++ Pattern.namedGroups [(st.next, name)])
    (hrefs : st₁.backrefs = st.backrefs) : Covers st st' [.group e (some st.next) name] where
  next_le := by have := h.next_le; omega
  groups := by
    have hlen : st'.next - st.next = (st'.next - st₁.next) + 1 := by have := h.next_le; omega
    have hinner := h.groups
    rw [Expr.groupsOfAll_singleton] at hinner ⊢
    rw [hlen, List.range'_succ, ← hnext, ← hinner]
    rfl
  names := by
    rw [h.names, hnames, List.append_assoc, ← Pattern.namedGroups_append]
    rfl
  kept r hr := h.kept r (hrefs ▸ hr)
  backrefs := h.backrefs
  targets := h.targets

theorem inline {p : Pattern} (hp : p.Numbered) (hst : 1 ≤ st.next) (site : Nat) :
    Covers st (st.inline p site).2 [(st.inline p site).1] := by
  have hnext := st.next_inline p site
  refine ⟨by omega, ?_, ?_, fun r => st.mem_backrefs_inline p site, ?_, ?_⟩
  · have hmap : (p.root.groups.map fun g => (g.1 + (st.next - 1), g.2)).map (·.1) =
        (p.root.groups.map (·.1)).map (st.next - 1 + ·) := by
      rw [List.map_map, List.map_map]
      exact List.map_congr_left fun g _ => Nat.add_comm _ _
    rw [groups_inline, hmap, hp.groups, List.map_add_range', hnext, Nat.add_sub_cancel_left,
      Nat.sub_add_cancel hst]
  · rw [groups_inline, Pattern.namedGroups_shift, ← hp.names]
    exact openGroups_names ..
  · intro id hid
    rw [backrefs_inline] at hid
    obtain ⟨id', hid', rfl⟩ := List.mem_map.1 hid
    have := hp.backrefs id' hid'
    exact .inl (by omega)
  · rw [Expr.targetsOfAll_singleton]
    change (p.body.shiftGroups _).targets = []
    rw [Expr.targets_shiftGroups, hp.body, List.map_nil]

end Covers

/-- **What was read accounts for all that was handed out.** -/
theorem Reads.covers {env : Environment} {st st' : Numbering} {es : List Expr}
    (henv : ∀ name q, env.pattern? name = some (.compiled q) → q.Numbered)
    (h : Reads env st st' es) (hst : 1 ≤ st.next) : Covers st st' es := by
  induction h with
  | nil | node | multi | anchor => exact .refl _ rfl rfl rfl
  | backref => exact .backref ..
  | cons h _ ih ih' => exact (ih hst).cons (ih' (Nat.le_trans hst h.next_le))
  | sequence _ ih | choice _ ih =>
    exact (ih hst).congr (Expr.groupsOfAll_singleton _) (Expr.backrefsOfAll_singleton _)
      (Expr.targetsOfAll_singleton _)
  | iterate _ _ _ _ ih | group _ ih => exact (ih hst).congr rfl rfl rfl
  | capture _ _ ih =>
    exact (ih (Nat.le_succ_of_le hst)).group none rfl (List.append_nil _).symm rfl
  | named _ name _ ih => exact (ih (Nat.le_succ_of_le hst)).group (some name) rfl rfl rfl
  | inline st site hp => exact .inline (henv _ _ hp) hst site

theorem backrefs_of_validate {st : Numbering} {o : NameOrder} {e : Expr}
    (h : st.validate o e = .ok ()) :
    ∀ r ∈ st.backrefs, 1 ≤ r.1 ∧ r.1 < st.next := by
  unfold validate at h
  split at h
  · cases h
  · next hnone =>
    intro r hr
    have := List.find?_eq_none.1 hnone r hr
    simp only [Bool.or_eq_true, beq_iff_eq, decide_eq_true_eq, not_or] at this
    omega

theorem target_lt {st : Numbering} {c : ActionClause} {id : Nat} (h : st.target c = .ok id) :
    id < st.next := by
  rw [target] at h
  split at h
  case' h_2 => split at h
  all_goals
    obtain ⟨id', -, h⟩ := exists_of_bind_eq_ok h
    dsimp only at h
    split at h
    · cases h
    · cases h
      omega

end Numbering

/-! ## Compiled patterns -/

/-- Texts are compiled to what they were read as, with the action of the clause around it. -/
theorem exists_sources_of_compileAll {env : Environment} {sources : List String} {p : Pattern}
    (h : compileAll env sources = .ok p) :
    ∃ r, readSources env {} sources = .ok r ∧
      r.numbering.validate env.order (.ofItems r.parts) = .ok () ∧ p.names = r.numbering.names ∧
      p.groupCount = r.numbering.next ∧
      (r.clause = none ∧ p.root = .ofItems r.parts ∨
        ∃ c target, r.clause = some c ∧ r.numbering.target c = .ok target ∧
          p.root = .action (.ofItems r.parts) c.action target) := by
  rw [compileAll] at h
  obtain ⟨r, hr, h⟩ := exists_of_bind_eq_ok h
  obtain ⟨⟨⟩, hv, h⟩ := exists_of_bind_eq_ok h
  refine ⟨r, hr, hv, ?_⟩
  split at h
  · next hc =>
    cases h
    exact ⟨rfl, rfl, .inl ⟨hc, rfl⟩⟩
  · next c hc =>
    obtain ⟨root, hroot, h⟩ := exists_of_bind_eq_ok h
    cases ht : r.numbering.target c with
    | error e => rw [ht] at hroot; cases hroot
    | ok id =>
      rw [ht] at hroot
      cases hroot
      cases h
      exact ⟨rfl, rfl, .inr ⟨c, id, hc, ht, rfl⟩⟩

theorem exists_of_compileAll {env : Environment} {sources : List String} {p : Pattern}
    (h : compileAll env sources = .ok p) :
    ∃ (st : Numbering) (es : List Expr), Numbering.Reads env {} st es ∧
      (∀ r ∈ st.backrefs, 1 ≤ r.1 ∧ r.1 < st.next) ∧ p.names = st.names ∧
      p.groupCount = st.next ∧
      (p.root = .ofItems es ∨
        ∃ action target, target < st.next ∧ p.root = .action (.ofItems es) action target) := by
  obtain ⟨r, hr, hv, hnames, hcount, hroot⟩ := exists_sources_of_compileAll h
  refine ⟨r.numbering, r.parts, reads_of_readSources hr (.nil {}),
    Numbering.backrefs_of_validate hv, hnames, hcount, ?_⟩
  obtain ⟨-, hroot⟩ | ⟨c, target, -, ht, hroot⟩ := hroot
  · exact .inl hroot
  · exact .inr ⟨_, _, Numbering.target_lt ht, hroot⟩

namespace Pattern

variable {p : Pattern}

theorem numbered_of_compileAll {env : Environment} {sources : List String}
    (henv : ∀ name q, env.pattern? name = some (.compiled q) → q.Numbered)
    (h : Motif.compileAll env sources = .ok p) : p.Numbered := by
  obtain ⟨st, es, hr, hrefs, hnames, hcount, hroot⟩ := exists_of_compileAll h
  have hc := hr.covers henv (Nat.le_refl 1)
  have hgroups : p.root.groups = Expr.groupsOfAll es := by
    obtain hroot | ⟨_, _, _, hroot⟩ := hroot <;> rw [hroot] <;> exact Expr.groups_ofItems es
  have hbackrefs : p.root.backrefs = Expr.backrefsOfAll es := by
    obtain hroot | ⟨_, _, _, hroot⟩ := hroot <;> rw [hroot] <;> exact Expr.backrefs_ofItems es
  have htargets : (Expr.ofItems es).targets = [] := (Expr.targets_ofItems es).trans hc.targets
  refine ⟨hcount ▸ hc.next_le, ?_, ?_, fun id hid => ?_, fun t ht => ?_, ?_⟩
  · rw [hgroups, hcount]
    exact hc.groups
  · rw [hnames, hgroups, hc.names]
    rfl
  · rw [hcount]
    obtain hid | ⟨r, hr, rfl⟩ := hc.backrefs id (hbackrefs ▸ hid)
    · exact hid
    · exact hrefs r hr
  · obtain hroot | ⟨_, target, hlt, hroot⟩ := hroot
    · rw [hroot, htargets] at ht
      cases ht
    · rw [hroot, Expr.targets, htargets] at ht
      cases List.mem_singleton.1 ht
      rwa [hcount]
  · obtain hroot | ⟨_, _, _, hroot⟩ := hroot
    · exact targets_body_of_root (hroot ▸ htargets)
    · rw [body, hroot]
      exact htargets

theorem Compiled.numbered (h : p.Compiled) : p.Numbered := by
  induction h with
  | compileAll _ h ih => exact numbered_of_compileAll ih h
  | withScore _ _ ih => exact ⟨ih.1, ih.2, ih.3, ih.4, ih.5, ih.6⟩

end Pattern

/-- **Compiled patterns have their groups numbered without a gap**, in the order of their opening,
through texts and compiled variables. -/
theorem compileAll_numbers_groups {env : Environment} {sources : List String} {p : Pattern}
    (henv : ∀ name q, env.pattern? name = some (.compiled q) → q.Compiled)
    (h : compileAll env sources = .ok p) :
    0 < p.groupCount ∧
      p.root.groups.map (·.1) = List.range' 1 (p.groupCount - 1) ∧
      p.names = Pattern.namedGroups p.root.groups ∧
      (∀ id ∈ p.root.backrefs, 1 ≤ id ∧ id < p.groupCount) ∧
      ∀ action target, p.trailingAction? = some (action, target) → target < p.groupCount := by
  have hp := Pattern.numbered_of_compileAll (fun name q hq => (henv name q hq).numbered) h
  exact ⟨hp.groupCount_pos, hp.groups, hp.names, hp.backrefs,
    fun _ _ ht => hp.target _ (Pattern.mem_targets_of_trailingAction ht)⟩

/-- A group and a reference to it. -/
def Pattern.twice : Pattern :=
  .build "(\"a\")\\1"
    (.sequence [.group (.node (.attr .text (.equality "a" false))) (some 1) none, .backref 1]) [] 2

theorem Pattern.compiled_twice : Pattern.twice.Compiled := by
  have h : Motif.compileAll {} ["(\"a\")\\1"] = .ok twice := by cbv
  exact .compileAll (fun _ _ h => by cases h) h

/-- An environment in which a variable stands for a compiled pattern. -/
def Environment.withTwice : Environment := { patterns := [("_", .compiled .twice)] }

theorem Environment.compiled_of_withTwice {name : String} {q : Pattern}
    (h : withTwice.pattern? name = some (.compiled q)) : q.Compiled := by
  rw [pattern?, withTwice, List.lookup_cons] at h
  split at h
  · cases h
    exact Pattern.compiled_twice
  · cases h

theorem lexemes_variable : lexemes "$_" = .ok [⟨.var "_", 0⟩, ⟨.eof, 2⟩] := by
  -- the tables of letters are too large to be evaluated; a low line needs none of them
  have hscan : scanAfter false 0 '$' ['_'] = .ok (.var "_", 1) := rfl
  rw [lexemes, show "$_".toList = ['$', '_'] from rfl, lexemesFrom, if_neg (by decide), hscan]
  simp only [List.drop_succ_cons, List.drop_zero, lexemesFrom]
  rfl

/-- The group of a compiled pattern becomes the third one behind those of two texts. -/
theorem compileAll_numbers_groups_of_copied :
    ∃ p, compileAll .withTwice ["(\"b\")", "(^)\\2", "$_"] = .ok p ∧
      p.groupCount = 4 ∧ 0 < p.groupCount ∧
      p.root.groups.map (·.1) = List.range' 1 (p.groupCount - 1) ∧
      p.names = Pattern.namedGroups p.root.groups ∧
      (∀ id ∈ p.root.backrefs, 1 ≤ id ∧ id < p.groupCount) ∧
      ∀ action target, p.trailingAction? = some (action, target) → target < p.groupCount := by
  have hcount : (compileAll .withTwice ["(\"b\")", "(^)\\2", "$_"]).map Pattern.groupCount =
      .ok 4 := by
    have h₁ : lexemes "(\"b\")" = .ok [⟨.lparen, 0⟩, ⟨.str "b", 1⟩, ⟨.rparen, 4⟩, ⟨.eof, 5⟩] := by
      cbv
    have h₂ : lexemes "(^)\\2" =
        .ok [⟨.lparen, 0⟩, ⟨.caret, 1⟩, ⟨.rparen, 2⟩, ⟨.backref 2, 3⟩, ⟨.eof, 5⟩] := by
      cbv
    simp only [compileAll, readSources, h₁, h₂, lexemes_variable]
    cbv
  cases h : compileAll .withTwice ["(\"b\")", "(^)\\2", "$_"] with
  | error e => rw [h] at hcount; cases hcount
  | ok p =>
    rw [h] at hcount
    exact ⟨p, rfl, Except.ok.inj hcount,
      compileAll_numbers_groups (fun _ _ => Environment.compiled_of_withTwice) h⟩

end Motif
