import Motif.Proofs.Declarations

/-!
# Which declaration is blamed

The check of names goes through an expression from the front and collects the names on its paths.
When it meets a name again, it points to the group that bears it for the second time.

* `Expr.NamedAt`, `Expr.Named`: groups with their names and numbers.
* `Expr.Blamed`: an error that points to the later one of two declarations that clash.
* `Expr.bears_of_pathNames`: the names that the check collects belong to groups.
* **`Expr.blamed_of_pathNames`**: the check points to a declaration that clashes with an earlier
  one.
-/

namespace Motif

namespace Expr

/-! ## Groups with names -/

/-- The part at an address is a group with a name; its number is `id`. -/
def NamedAt (e : Expr) (a : List Nat) (name : String) (id : Option Nat) : Prop :=
  ∃ c, e.partAt a = some (group c id (some name))

/-- A group in an expression has a name and a number. -/
def Named (e : Expr) (name : String) (id : Option Nat) : Prop := ∃ a, e.NamedAt a name id

variable {e c : Expr} {name : String} {a b : List Nat} {i : Nat} {id : Option Nat}

theorem NamedAt.declaresAt (h : e.NamedAt a name id) : e.DeclaresAt a name := by
  obtain ⟨c, hc⟩ := h
  exact ⟨c, id, hc⟩

theorem Named.declares (h : e.Named name id) : e.Declares name := by
  obtain ⟨a, ha⟩ := h
  exact ⟨a, ha.declaresAt⟩

theorem namedAt_cons :
    e.NamedAt (i :: a) name id ↔ ∃ c, e.children[i]? = some c ∧ c.NamedAt a name id := by
  simp only [NamedAt, partAt, Option.bind_eq_some_iff]
  constructor
  · rintro ⟨g, c, hc, hg⟩
    exact ⟨c, hc, g, hg⟩
  · rintro ⟨c, hc, g, hg⟩
    exact ⟨g, c, hc, hg⟩

theorem named_iff : e.Named name id ↔
    (∃ c, e = group c id (some name)) ∨ ∃ c ∈ e.children, c.Named name id := by
  constructor
  · rintro ⟨_ | ⟨i, a⟩, h⟩
    · obtain ⟨c, hc⟩ := h
      exact .inl ⟨c, Option.some.inj hc⟩
    · obtain ⟨c, hc, h⟩ := namedAt_cons.1 h
      exact .inr ⟨c, List.mem_of_getElem? hc, a, h⟩
  · rintro (⟨c, rfl⟩ | ⟨c, hc, a, h⟩)
    · exact ⟨[], c, rfl⟩
    · obtain ⟨i, hi⟩ := List.getElem?_of_mem hc
      exact ⟨i :: a, namedAt_cons.2 ⟨c, hi, h⟩⟩

theorem Named.of_child (h : c.Named name id) (hc : c ∈ e.children) : e.Named name id :=
  named_iff.2 (.inr ⟨c, hc, h⟩)

/-! ## Errors that point to declarations -/

/-- An error points to the group that bears a name, where an earlier declaration of the name is on
the same path. -/
def Blamed (sites : List (Nat × Nat)) (e : Expr) (x : CompileError) : Prop :=
  ∃ name a b id, e.Clash name a b ∧ a < b ∧ e.NamedAt b name id ∧
    x = .duplicateGroupName name ((sites.lookup (id.getD 0)).getD 0)

/-- A name with a number is that of a group; groups that do not capture count as the whole match. -/
def Bears (e : Expr) (b : String × Nat) : Prop := ∃ id, e.Named b.1 id ∧ id.getD 0 = b.2

theorem Bears.of_child {b : String × Nat} (h : c.Bears b) (hc : c ∈ e.children) : e.Bears b := by
  obtain ⟨id, hid, hb⟩ := h
  exact ⟨id, hid.of_child hc, hb⟩

theorem Bears.declares {b : String × Nat} (h : e.Bears b) : e.Declares b.1 := by
  obtain ⟨id, hid, -⟩ := h
  exact hid.declares

namespace Blamed

variable {sites : List (Nat × Nat)} {x : CompileError} {bearer : String × Nat}

theorem of_child (h : c.Blamed sites x) (hc : e.children[i]? = some c) : e.Blamed sites x := by
  obtain ⟨name, a, b, id, hclash, hlt, hb, rfl⟩ := h
  exact ⟨name, i :: a, i :: b, id, (clash_cons_self hc).2 hclash,
    List.cons_lt_cons_iff.2 (.inr ⟨rfl, hlt⟩), namedAt_cons.2 ⟨c, hc, hb⟩, rfl⟩

theorem of_mem (h : c.Blamed sites x) (hc : c ∈ e.children) : e.Blamed sites x := by
  obtain ⟨i, hi⟩ := List.getElem?_of_mem hc
  exact h.of_child hi

theorem of_inner (h : c.Bears bearer) (id : Option Nat) : (group c id (some bearer.1)).Blamed sites
    (.duplicateGroupName bearer.1 ((sites.lookup bearer.2).getD 0)) := by
  obtain ⟨id', ⟨b, hb⟩, hid⟩ := h
  have hinner : (group c id (some bearer.1)).NamedAt (0 :: b) bearer.1 id' :=
    namedAt_cons.2 ⟨c, rfl, hb⟩
  exact ⟨bearer.1, [], 0 :: b, id', ⟨⟨c, id, rfl⟩, hinner.declaresAt, nofun, .inl List.nil_prefix⟩,
    List.nil_lt_cons _ _, hinner, by rw [hid]⟩

theorem of_behind {before after : List Expr} {c' : Expr} (hc' : c' ∈ before)
    (hname : c'.Declares bearer.1) (h : c.Bears bearer) :
    (sequence (before ++ c :: after)).Blamed sites
      (.duplicateGroupName bearer.1 ((sites.lookup bearer.2).getD 0)) := by
  obtain ⟨i, hi, rfl⟩ := List.getElem_of_mem hc'
  obtain ⟨a, ha⟩ := hname
  obtain ⟨id, ⟨b, hb⟩, hid⟩ := h
  have hat : (before ++ c :: after)[i]? = some before[i] := by
    rw [List.getElem?_append_left hi, List.getElem?_eq_getElem hi]
  have hleft : (sequence (before ++ c :: after)).DeclaresAt (i :: a) bearer.1 :=
    declaresAt_cons.2 ⟨before[i], hat, ha⟩
  have hright : (sequence (before ++ c :: after)).NamedAt (before.length :: b) bearer.1 id :=
    namedAt_cons.2 ⟨c, by simp [children], hb⟩
  exact ⟨bearer.1, i :: a, before.length :: b, id,
    (clash_cons_of_ne (Nat.ne_of_lt hi)).2 ⟨⟨_, rfl⟩, hleft, hright.declaresAt⟩,
    List.cons_lt_cons_iff.2 (.inl hi), hright, by rw [hid]⟩

end Blamed

end Expr

/-! ## The check of names -/

namespace GroupNames

variable {sites : List (Nat × Nat)} {names more : GroupNames}

theorem eq_append_of_joined {all : GroupNames} (h : names.joined sites more = .ok all) :
    all = names ++ more := by
  induction more generalizing names with
  | nil =>
    cases h
    exact (List.append_nil _).symm
  | cons b more ih =>
    rw [joined] at h
    split at h
    · cases h
    · rw [ih h, List.append_assoc]
      rfl

theorem exists_of_joined_eq_error {x : CompileError} (hmore : more.keys.Nodup)
    (h : names.joined sites more = .error x) : ∃ b ∈ more, b.1 ∈ names.keys ∧
      x = .duplicateGroupName b.1 ((sites.lookup b.2).getD 0) := by
  induction more generalizing names with
  | nil => cases h
  | cons b more ih =>
    obtain ⟨hb, hmore⟩ := List.nodup_cons.1 hmore
    rw [joined] at h
    split at h
    · next hmem =>
      cases h
      exact ⟨b, List.mem_cons_self, any_iff.1 hmem, rfl⟩
    · obtain ⟨b', hb', hmem, rfl⟩ := ih hmore h
      refine ⟨b', List.mem_cons_of_mem b hb', ?_, rfl⟩
      rw [keys_append, List.mem_append] at hmem
      -- the name in front of it is another one
      refine hmem.resolve_right fun heq => hb ?_
      rw [← List.mem_singleton.1 heq]
      exact List.mem_map_of_mem hb'

theorem mem_or_mem_of_mem_either {b : String × Nat} (h : b ∈ names.either more) :
    b ∈ names ∨ b ∈ more :=
  (List.mem_append.1 h).imp_left fun h => (List.mem_filter.1 h).1

end GroupNames

namespace Expr

open GroupNames (exists_of_joined_eq_error eq_append_of_joined mem_or_mem_of_mem_either)

variable {sites : List (Nat × Nat)}

mutual

theorem bears_of_pathNames (e : Expr) {o : NameOrder} {names : GroupNames}
    (h : e.pathNames sites o = .ok names) :
    ∀ b ∈ names, e.Bears b := by
  match e with
  | node _ | backref _ | multi .. | anchor _ =>
    cases h
    nofun
  | sequence es =>
    intro b hb
    obtain hb | ⟨c, hc, hb⟩ := bears_of_pathNamesOfAll es h b hb
    · cases hb
    · exact hb.of_child hc
  | choice es =>
    intro b hb
    obtain hb | ⟨c, hc, hb⟩ := bears_of_pathNamesOfChoice es h b hb
    · cases hb
    · exact hb.of_child hc
  | iterate c _ _ _ | action c _ _ | group c _ none =>
    exact fun b hb => (bears_of_pathNames c h b hb).of_child (List.mem_singleton_self c)
  | group c id (some name) =>
    rw [pathNames] at h
    obtain ⟨inner, hinner, h⟩ := exists_of_bind_eq_ok h
    split at h
    · cases h
    · cases h
      refine List.forall_mem_append.2 ⟨fun b hb => ?_, List.forall_mem_singleton.2 ?_⟩
      · exact (bears_of_pathNames c hinner b hb).of_child (List.mem_singleton_self c)
      · exact ⟨id, named_iff.2 (.inl ⟨c, rfl⟩), rfl⟩

theorem bears_of_pathNamesOfAll (es : List Expr) {o : NameOrder} {names all : GroupNames}
    (h : pathNamesOfAll sites o names es = .ok all) :
    ∀ b ∈ all, b ∈ names ∨ ∃ c ∈ es, c.Bears b := by
  match es with
  | [] =>
    cases h
    exact fun b => .inl
  | e :: es =>
    rw [pathNamesOfAll] at h
    obtain ⟨more, hmore, h⟩ := exists_of_bind_eq_ok h
    obtain ⟨joined, hjoined, h⟩ := exists_of_bind_eq_ok h
    intro b hb
    rw [List.exists_mem_cons_iff]
    obtain hb | hb := bears_of_pathNamesOfAll es h b hb
    · rw [eq_append_of_joined hjoined, List.mem_append, (o.here.perm more).mem_iff] at hb
      exact hb.imp_right fun hb => .inl (bears_of_pathNames e hmore b hb)
    · exact .inr (.inr hb)

theorem bears_of_pathNamesOfChoice (es : List Expr) {o : NameOrder} {names all : GroupNames}
    (h : pathNamesOfChoice sites o names es = .ok all) :
    ∀ b ∈ all, b ∈ names ∨ ∃ c ∈ es, c.Bears b := by
  match es with
  | [] =>
    cases h
    exact fun b => .inl
  | e :: es =>
    rw [pathNamesOfChoice] at h
    obtain ⟨more, hmore, h⟩ := exists_of_bind_eq_ok h
    intro b hb
    rw [List.exists_mem_cons_iff]
    obtain hb | hb := bears_of_pathNamesOfChoice es h b hb
    · exact (mem_or_mem_of_mem_either hb).imp_right fun hb =>
        .inl (bears_of_pathNames e hmore b hb)
    · exact .inr (.inr hb)

end

mutual

/-- **The check of names points to a declaration that clashes with an earlier one.** -/
theorem blamed_of_pathNames (e : Expr) {o : NameOrder} {x : CompileError}
    (h : e.pathNames sites o = .error x) :
    e.Blamed sites x := by
  match e with
  | node _ | backref _ | multi .. | anchor _ => cases h
  | sequence es => exact blamed_of_pathNamesOfAll [] es (List.forall_mem_nil _) h
  | choice es =>
    obtain ⟨c, hc, hblamed⟩ := blamed_of_pathNamesOfChoice es h
    exact hblamed.of_mem hc
  | iterate c _ _ _ | action c _ _ | group c _ none =>
    exact (blamed_of_pathNames c h).of_mem (List.mem_singleton_self c)
  | group c id (some name) =>
    rw [pathNames] at h
    obtain h | ⟨names, hnames, h⟩ := error_or_of_bind_eq_error h
    · exact (blamed_of_pathNames c h).of_mem (List.mem_singleton_self c)
    · split at h
      · next inner hinner =>
        cases h
        obtain ⟨l, r, rfl, -⟩ := List.lookup_eq_some_iff.1 hinner
        have hinner : c.Bears (name, inner) :=
          bears_of_pathNames c hnames _ (List.mem_append_right l List.mem_cons_self)
        exact .of_inner hinner id
      · cases h

theorem blamed_of_pathNamesOfAll (before es : List Expr) {o : NameOrder} {names : GroupNames}
    {x : CompileError}
    (hnames : ∀ b ∈ names, ∃ c ∈ before, c.Declares b.1)
    (h : pathNamesOfAll sites o names es = .error x) :
    (sequence (before ++ es)).Blamed sites x := by
  match es with
  | [] => cases h
  | e :: es =>
    rw [pathNamesOfAll] at h
    obtain h | ⟨more, hmore, h⟩ := error_or_of_bind_eq_error h
    · exact (blamed_of_pathNames e h).of_mem (List.mem_append_right before List.mem_cons_self)
    have hbears := bears_of_pathNames e hmore
    obtain h | ⟨joined, hjoined, h⟩ := error_or_of_bind_eq_error h
    · have hchecked := checked_pathNames sites o.head e
      rw [hmore] at hchecked
      cases hchecked with
      | ok hnodup =>
        obtain ⟨b, hb, hmem, rfl⟩ :=
          exists_of_joined_eq_error (GroupNames.nodup_keys_arrange hnodup o.here) h
        obtain ⟨b', hb', hname⟩ := List.mem_map.1 hmem
        obtain ⟨c, hc, hdeclares⟩ := hnames b' hb'
        exact .of_behind hc (hname ▸ hdeclares) (hbears b ((o.here.perm more).mem_iff.1 hb))
    · rw [List.append_cons]
      refine blamed_of_pathNamesOfAll (before ++ [e]) es (fun b hb => ?_) h
      rw [eq_append_of_joined hjoined, List.mem_append, (o.here.perm more).mem_iff] at hb
      obtain hb | hb := hb
      · obtain ⟨c, hc, hname⟩ := hnames b hb
        exact ⟨c, List.mem_append_left _ hc, hname⟩
      · exact ⟨e, List.mem_append_right _ (List.mem_singleton_self e), (hbears b hb).declares⟩

theorem blamed_of_pathNamesOfChoice (es : List Expr) {o : NameOrder} {names : GroupNames}
    {x : CompileError}
    (h : pathNamesOfChoice sites o names es = .error x) : ∃ c ∈ es, c.Blamed sites x := by
  match es with
  | [] => cases h
  | e :: es =>
    rw [pathNamesOfChoice] at h
    obtain h | ⟨more, -, h⟩ := error_or_of_bind_eq_error h
    · exact ⟨e, List.mem_cons_self, blamed_of_pathNames e h⟩
    · exact List.exists_mem_cons_of_exists (blamed_of_pathNamesOfChoice es h)

end

end Expr

/-! ## Patterns -/

/-- What the last check says of names is about a declaration that clashes with an earlier one. -/
theorem Numbering.blamed_of_validate {st : Numbering} {o : NameOrder} {e : Expr} {name : String}
    {offset : Nat} (h : st.validate o e = .error (.duplicateGroupName name offset)) :
    e.Blamed st.sites (.duplicateGroupName name offset) := by
  rw [validate] at h
  split at h
  · cases h
  · cases hnames : e.pathNames st.sites o with
    | ok names =>
      rw [hnames] at h
      cases h
    | error x =>
      rw [hnames] at h
      cases h
      exact e.blamed_of_pathNames hnames

end Motif
