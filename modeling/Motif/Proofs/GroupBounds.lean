import Motif.Proofs.Shifting

/-!
# Bounds of groups

A pattern from a tree may number its groups as it likes, and it may be copied into a pattern from a
text; then its groups need not be numbered without a gap. But however a pattern was made, it counts
all groups that it names: their numbers are below the number of its groups.

* `Pattern.Made`, `Pattern.Bounded`: patterns from texts or trees, and patterns that count all groups
  that they name.
* `Numbering.Counts`, `Numbering.Reads.counts`: reading counts what it names.
* **`Pattern.Made.bounded`**, `Pattern.Made.groupCount_pos`: however a pattern was made, it counts
  all groups that it names, and the whole match.
-/

namespace Motif

/-! ## Patterns -/

namespace Pattern

/-- All groups that a pattern names are counted. -/
structure Bounded (p : Pattern) : Prop where
  groups : ∀ g ∈ p.root.groups, g.1 < p.groupCount
  backrefs : ∀ id ∈ p.root.backrefs, id < p.groupCount

/-- Patterns from texts, in environments whose compiled patterns are such patterns, or from trees. -/
inductive Made : Pattern → Prop where
  | compileAll {env : Environment} {sources : List String} {p : Pattern}
    (henv : ∀ name q, env.pattern? name = some (.compiled q) → q.Made)
    (h : Motif.compileAll env sources = .ok p) : Made p
  | ofExpr {source : String} {root : Expr} {p : Pattern} (h : Pattern.ofExpr source root = .ok p) :
    Made p
  | withScore {p : Pattern} (score : Binary64) (h : p.Made) : Made (p.withScore score)

end Pattern

/-! ## Numberings -/

namespace Numbering

/-- What was read between two numberings names only groups that were counted by then, or groups
that are to be checked. -/
structure Counts (st st' : Numbering) (es : List Expr) : Prop where
  kept : ∀ r ∈ st.backrefs, r ∈ st'.backrefs
  groups : ∀ g ∈ Expr.groupsOfAll es, g.1 < st'.next
  backrefs : ∀ id ∈ Expr.backrefsOfAll es, id < st'.next ∨ ∃ r ∈ st'.backrefs, r.1 = id

namespace Counts

variable {st st' st'' : Numbering} {e : Expr} {es es' : List Expr}

theorem refl (st : Numbering) (hg : Expr.groupsOfAll es = []) (hb : Expr.backrefsOfAll es = []) :
    Counts st st es where
  kept _ hr := hr
  groups g h := by rw [hg] at h; cases h
  backrefs id h := by rw [hb] at h; cases h

theorem backref (st : Numbering) (id offset : Nat) :
    Counts st (st.refer id offset) [.backref id] where
  kept r hr := List.mem_append_left _ hr
  groups g hg := by cases hg
  backrefs i hi := by
    cases List.mem_singleton.1 hi
    exact .inr ⟨(id, offset), List.mem_append_right _ (List.mem_singleton_self _), rfl⟩

theorem cons (h : Counts st st' [e]) (h' : Counts st' st'' es) (hle : st'.next ≤ st''.next) :
    Counts st st'' (e :: es) where
  kept r hr := h'.kept r (h.kept r hr)
  groups g hg := by
    obtain hg | hg := List.mem_append.1 hg
    · exact Nat.lt_of_lt_of_le (h.groups g (by rwa [Expr.groupsOfAll_singleton])) hle
    · exact h'.groups g hg
  backrefs id hid := by
    obtain hid | hid := List.mem_append.1 hid
    · obtain hlt | ⟨r, hr, hrid⟩ := h.backrefs id (by rwa [Expr.backrefsOfAll_singleton])
      · exact .inl (Nat.lt_of_lt_of_le hlt hle)
      · exact .inr ⟨r, h'.kept r hr, hrid⟩
    · exact h'.backrefs id hid

theorem congr (h : Counts st st' es) (hg : Expr.groupsOfAll es' = Expr.groupsOfAll es)
    (hb : Expr.backrefsOfAll es' = Expr.backrefsOfAll es) : Counts st st' es' where
  kept := h.kept
  groups := hg ▸ h.groups
  backrefs := hb ▸ h.backrefs

theorem group {st₁ : Numbering} (h : Counts st₁ st' [e]) (name : Option String) {id : Nat}
    (hid : id < st'.next) (hrefs : st₁.backrefs = st.backrefs) :
    Counts st st' [.group e (some id) name] where
  kept r hr := h.kept r (hrefs ▸ hr)
  groups := List.forall_mem_cons.2 ⟨hid, h.groups⟩
  backrefs := h.backrefs

theorem inline {p : Pattern} (hp : p.Bounded) (hst : 1 ≤ st.next) (site : Nat) :
    Counts st (st.inline p site).2 [(st.inline p site).1] where
  kept r := st.mem_backrefs_inline p site
  groups g hg := by
    rw [groups_inline] at hg
    obtain ⟨g', hg', rfl⟩ := List.mem_map.1 hg
    have := hp.groups g' hg'
    rw [next_inline]
    dsimp only
    omega
  backrefs id hid := by
    rw [backrefs_inline] at hid
    obtain ⟨id', hid', rfl⟩ := List.mem_map.1 hid
    have := hp.backrefs id' hid'
    rw [next_inline]
    omega

end Counts

/-- **Reading counts all groups that it names**, but for references that are still to be checked. -/
theorem Reads.counts {env : Environment} {st st' : Numbering} {es : List Expr}
    (henv : ∀ name q, env.pattern? name = some (.compiled q) → q.Bounded)
    (h : Reads env st st' es) (hst : 1 ≤ st.next) : Counts st st' es := by
  induction h with
  | nil | node | multi | anchor => exact .refl _ rfl rfl
  | backref st id offset => exact .backref st id offset
  | cons h h' ih ih' => exact (ih hst).cons (ih' (Nat.le_trans hst h.next_le)) h'.next_le
  | sequence _ ih | choice _ ih =>
    exact (ih hst).congr (Expr.groupsOfAll_singleton _) (Expr.backrefsOfAll_singleton _)
  | iterate _ _ _ _ ih | group _ ih => exact (ih hst).congr rfl rfl
  | capture _ h ih => exact (ih (Nat.le_succ_of_le hst)).group none h.next_le rfl
  | named _ name h ih => exact (ih (Nat.le_succ_of_le hst)).group (some name) h.next_le rfl
  | inline st site hp => exact .inline (henv _ _ hp) hst site

end Numbering

/-! ## Patterns that were made -/

namespace Pattern

theorem bounded_of_compileAll {p : Pattern} {env : Environment} {sources : List String}
    (henv : ∀ name q, env.pattern? name = some (.compiled q) → q.Bounded)
    (h : Motif.compileAll env sources = .ok p) : p.Bounded := by
  obtain ⟨st, es, hr, hrefs, -, hcount, hroot⟩ := exists_of_compileAll h
  have hc := hr.counts henv (Nat.le_refl 1)
  have hgroups : p.root.groups = Expr.groupsOfAll es := by
    obtain hroot | ⟨_, _, _, hroot⟩ := hroot <;> rw [hroot] <;> exact Expr.groups_ofItems es
  have hbackrefs : p.root.backrefs = Expr.backrefsOfAll es := by
    obtain hroot | ⟨_, _, _, hroot⟩ := hroot <;> rw [hroot] <;> exact Expr.backrefs_ofItems es
  refine ⟨fun g hg => ?_, fun id hid => ?_⟩
  · rw [hcount]
    exact hc.groups g (hgroups ▸ hg)
  · rw [hcount]
    obtain hlt | ⟨r, hr, rfl⟩ := hc.backrefs id (hbackrefs ▸ hid)
    · exact hlt
    · exact (hrefs r hr).2

theorem bounded_of_ofExpr {p : Pattern} {source : String} {root : Expr}
    (h : Pattern.ofExpr source root = .ok p) : p.Bounded := by
  obtain ⟨rfl, hrefs⟩ := eq_of_ofExpr h
  refine ⟨fun g hg => ?_, fun id hid => (hrefs id hid).2⟩
  obtain hg0 | hg0 := Nat.eq_zero_or_pos g.1
  · rw [hg0]
    exact Nat.succ_pos _
  · exact (lt_groupBound_iff hg0).2 ⟨g, hg, Nat.le_refl _⟩

/-- **Patterns count all groups that they name**, in whatever way they were made. -/
theorem Made.bounded {p : Pattern} (h : p.Made) : p.Bounded := by
  induction h with
  | compileAll _ h ih => exact bounded_of_compileAll ih h
  | ofExpr h => exact bounded_of_ofExpr h
  | withScore _ _ ih => exact ⟨ih.groups, ih.backrefs⟩

theorem Made.groupCount_pos {p : Pattern} (h : p.Made) : 0 < p.groupCount := by
  induction h with
  | compileAll _ h =>
    obtain ⟨st, es, hr, -, -, hcount, -⟩ := exists_of_compileAll h
    rw [hcount]
    exact hr.next_le
  | ofExpr h =>
    obtain ⟨rfl, -⟩ := eq_of_ofExpr h
    exact Nat.succ_pos _
  | withScore _ _ ih => exact ih

end Pattern

end Motif
