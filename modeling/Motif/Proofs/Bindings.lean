import Motif.Proofs.NameOrders
import Motif.Proofs.References

/-!
# Texts and patterns that variables stand for

A variable that stands for a text is read in place, under the numbering at hand. One that stands
for the pattern that the text is compiled to is copied, and its groups get other numbers then. Both
come to the same: what is read in place is what was read alone, with its groups moved behind those
that were there before. References are not moved when they are read, so there may be none.

* `Expr.shiftGroups_shiftGroups`: two renumberings are one.
* `Numbering.behind`: the groups of a text, handed out behind others.
* `Scope.Embeds`: a text whose variables mean there what they mean alone.
* `Scope.Embeds.readBranches`: what is read there is what is read alone, but renumbered.
* `Environment.binding`: an environment with one more binding.
* `Scope.Hosts.readAtom_eq_inline`: a variable that stands for a text is read as its pattern would
  be copied.
* `Scope.readBranches_copied`: texts are read alike whether a variable stands for the text or for
  its pattern.
* **`source_and_compiled_interchangeable`**: a text and its pattern are bound to the same effect.
-/

namespace Motif

/-! ## Renumbering -/

namespace Expr

mutual

theorem shiftGroups_shiftGroups (j k : Nat) (e : Expr) :
    (e.shiftGroups j).shiftGroups k = e.shiftGroups (j + k) := by
  match e with
  | node _ | multi .. | anchor _ => rfl
  | backref id => exact congrArg backref (Nat.add_assoc id j k)
  | sequence es => exact congrArg sequence (shiftAll_shiftAll j k es)
  | choice es => exact congrArg choice (shiftAll_shiftAll j k es)
  | iterate e min max greedy =>
    exact congrArg (iterate · min max greedy) (shiftGroups_shiftGroups j k e)
  | group e none name => exact congrArg (group · none name) (shiftGroups_shiftGroups j k e)
  | group e (some id) name =>
    exact congrArg₂ (fun e id => group e (some id) name) (shiftGroups_shiftGroups j k e)
      (Nat.add_assoc id j k)
  | action e name target =>
    refine congrArg₂ (fun e target => action e name target) (shiftGroups_shiftGroups j k e) ?_
    -- the whole match stays the target both times
    obtain rfl | htarget := Nat.eq_zero_or_pos target
    · rfl
    · rw [if_neg (Nat.ne_of_gt htarget), if_neg (Nat.ne_of_gt htarget), if_neg (by omega),
        Nat.add_assoc]

theorem shiftAll_shiftAll (j k : Nat) (es : List Expr) :
    shiftAll k (shiftAll j es) = shiftAll (j + k) es := by
  match es with
  | [] => rfl
  | e :: es =>
    rw [shiftAll, shiftAll, shiftAll, shiftGroups_shiftGroups j k e, shiftAll_shiftAll j k es]

end

variable (k : Nat)

theorem shiftGroups_ofItems (es : List Expr) :
    (ofItems es).shiftGroups k = ofItems (shiftAll k es) := by
  match es with
  | [] | _ :: _ :: _ => rfl
  | [e] => rfl

theorem shiftGroups_ofBranches (es : List Expr) :
    (ofBranches es).shiftGroups k = ofBranches (shiftAll k es) := by
  match es with
  | [] | _ :: _ :: _ => rfl
  | [e] => rfl

theorem shiftGroups_quantified (e : Expr) (q : Option Scope.Quantifier) :
    (Scope.quantified e q).shiftGroups k = Scope.quantified (e.shiftGroups k) q := by
  cases q <;> rfl

end Expr

/-! ## Groups behind others -/

/-- Names of groups that have moved. -/
def GroupNames.moved (names : GroupNames) (k : Nat) : GroupNames :=
  names.map fun b => (b.1, b.2 + k)

theorem GroupNames.moved_append (names names' : GroupNames) (k : Nat) :
    moved (names ++ names') k = names.moved k ++ names'.moved k := List.map_append

theorem GroupNames.moved_moved (names : GroupNames) (j k : Nat) :
    (names.moved j).moved k = names.moved (j + k) := by
  rw [moved, moved, moved, List.map_map]
  exact List.map_congr_left fun b _ => congrArg (b.1, ·) (Nat.add_assoc b.2 j k)

namespace Numbering

/-- Names groups. -/
def naming (st : Numbering) (names : GroupNames) : Numbering :=
  { st with names := st.names ++ names }

theorem naming_nil (st : Numbering) : st.naming [] = st := by
  rw [naming, List.append_nil]

theorem naming_naming (st : Numbering) (names names' : GroupNames) :
    (st.naming names).naming names' = st.naming (names ++ names') := by
  unfold naming
  rw [List.append_assoc]

theorem openGroups_add (st : Numbering) (site j k : Nat) :
    (st.openGroups site j).openGroups site k = st.openGroups site (j + k) := by
  induction j generalizing st with
  | zero => rw [Nat.zero_add]; rfl
  | succ j ih => rw [Nat.succ_add, openGroups, openGroups, ih]

theorem openGroups_naming (st : Numbering) (names : GroupNames) (site k : Nat) :
    (st.naming names).openGroups site k = (st.openGroups site k).naming names := by
  induction k generalizing st with
  | zero => rfl
  | succ k ih => exact ih (st.openGroup site)

/-- A numbering goes on behind another one: with as many groups, all declared at one site, and
with their names. -/
def behind (st base : Numbering) (site : Nat) : Numbering :=
  (base.openGroups site (st.next - 1)).naming (st.names.moved (base.next - 1))

variable {st base : Numbering} {site : Nat}

theorem behind_next (hst : 1 ≤ st.next) (hbase : 1 ≤ base.next) :
    (st.behind base site).next = st.next + (base.next - 1) := by
  change (openGroups _ _ _).next = _
  rw [openGroups_next]
  omega

theorem behind_empty (base : Numbering) (site : Nat) : behind {} base site = base :=
  naming_nil base

theorem behind_openGroup (hst : 1 ≤ st.next) (offset : Nat) :
    (st.openGroup offset).behind base site = (st.behind base site).openGroup site := by
  have hnext : (st.openGroup offset).next - 1 = st.next - 1 + 1 := by
    change st.next + 1 - 1 = _
    omega
  rw [behind, hnext, ← openGroups_add]
  rfl

theorem behind_bind (name : String) (id : Nat) : (st.bind name id).behind base site =
    (st.behind base site).bind name (id + (base.next - 1)) := by
  change (openGroups _ _ _).naming (GroupNames.moved (st.names ++ [(name, id)]) _) = _
  rw [GroupNames.moved_append, ← naming_naming]
  rfl

theorem inline_eq (st : Numbering) (p : Pattern) (site : Nat) : st.inline p site =
    (p.body.shiftGroups (st.next - 1),
      (st.openGroups site (p.groupCount - 1)).naming (p.names.moved (st.next - 1))) :=
  congrArg (Prod.mk _) (openGroups_naming ..)

theorem behind_inline (hst : 1 ≤ st.next) (hbase : 1 ≤ base.next) (p : Pattern) (offset : Nat) :
    (st.behind base site).inline p site =
      ((st.inline p offset).1.shiftGroups (base.next - 1),
        (st.inline p offset).2.behind base site) := by
  have hshift : (st.behind base site).next - 1 = (st.next - 1) + (base.next - 1) := by
    rw [behind_next hst hbase]
    omega
  have hnext : st.next + (p.groupCount - 1) - 1 = (st.next - 1) + (p.groupCount - 1) := by omega
  have hcopy : ((st.openGroups offset (p.groupCount - 1)).naming
      (p.names.moved (st.next - 1))).behind base site =
      (base.openGroups site (st.next + (p.groupCount - 1) - 1)).naming
        ((st.names ++ p.names.moved (st.next - 1)).moved (base.next - 1)) := by
    unfold behind naming
    simp only [openGroups_next, openGroups_names]
  rw [inline_eq, inline_eq, hshift, Expr.shiftGroups_shiftGroups, hcopy, hnext, ← openGroups_add,
    behind, openGroups_naming, naming_naming, GroupNames.moved_append, GroupNames.moved_moved]

end Numbering

/-! ## Back references -/

/-- A text contains a back reference. -/
def HasBackref (text : String) : Prop :=
  ∃ ls id, lexemes text = .ok ls ∧ .backref id ∈ symbolsOf ls

theorem not_hasBackref {text : String} {ls : List Lexeme} (hls : lexemes text = .ok ls)
    (h : ∀ id, .backref id ∉ symbolsOf ls) : ¬ HasBackref text := by
  rintro ⟨ls', id, hls', hid⟩
  obtain rfl : ls = ls' := Except.ok.inj (hls.symm.trans hls')
  exact h id hid

theorem Scope.Left.hasBackref {s : Scope} {ls : List Lexeme} {id offset : Nat}
    (h : s.Left (⟨.backref id, offset⟩ :: ls)) : HasBackref s.source := by
  obtain ⟨all, before, hall, hsym, -⟩ := h
  exact ⟨all, id, hall, hsym ▸ List.mem_append_right before List.mem_cons_self⟩

/-- Neither a text contains a back reference, nor does a text of a variable that it leads to. -/
structure Environment.BackrefFree (env : Environment) (text : String) : Prop where
  here : ¬ HasBackref text
  below : ∀ name inner, env.Leads text name → env.pattern? name = some (.source inner) →
    ¬ HasBackref inner

namespace Scope

variable {s : Scope} {patterns : List (String × Binding)} {order : NameOrder}
  {expanding : List (String × Nat)} {site : Nat} {st base : Numbering} {ls : List Lexeme}

/-- A text means with other bindings, inside of other expansions, what it means in its scope, and
its groups are declared at one site there. -/
structure Embeds (s : Scope) (patterns : List (String × Binding)) (expanding : List (String × Nat))
    (site : Nat) : Prop where
  backrefFree : s.env.BackrefFree s.source
  bound : ∀ name, s.env.Leads s.source name → patterns.lookup name = s.env.pattern? name
  unexpanded : ∀ name, s.env.Leads s.source name →
    (s.elsewhere patterns s.env.order expanding).isExpanding name = true →
      s.isExpanding name = true
  site : expanding.head?.map (·.2) = some site

namespace Embeds

theorem site_elsewhere (h : s.Embeds patterns expanding site) (offset : Nat) :
    (s.elsewhere patterns order expanding).site offset = site := by
  change (expanding.head?.map (·.2)).getD offset = site
  rw [h.site]
  rfl

theorem entering (h : s.Embeds patterns expanding site) {name text : String}
    (hm : Mentions s.source name) (hb : s.env.pattern? name = some (.source text)) (offset : Nat) :
    (s.entering name offset text).Embeds patterns (expanding ++ [(name, offset)]) site where
  backrefFree := ⟨h.backrefFree.below name text (.mention hm) hb,
    fun name' inner hl => h.backrefFree.below name' inner (.through hm hb hl)⟩
  bound name' hl := h.bound name' (.through hm hb hl)
  unexpanded name' hl hname' := by
    rw [← entering_elsewhere, isExpanding_entering, Bool.or_eq_true_iff] at hname'
    rw [isExpanding_entering, Bool.or_eq_true_iff]
    exact hname'.imp_left (h.unexpanded name' (.through hm hb hl))
  site := by
    cases expanding with
    | nil => cases h.site
    | cons x xs => exact h.site

end Embeds

/-- What was read, moved behind a numbering. -/
def moveAll (base : Numbering) (site : Nat) (v : List Expr × Numbering) : List Expr × Numbering :=
  (Expr.shiftAll (base.next - 1) v.1, v.2.behind base site)

/-- An atom that was read, moved behind a numbering. -/
def move (base : Numbering) (site : Nat) (v : Expr × Numbering) : Expr × Numbering :=
  (v.1.shiftGroups (base.next - 1), v.2.behind base site)

namespace Embeds

theorem closeGroup {st' : Numbering}
    {p : Parsed Lexeme (List Expr × Numbering) (ls.length + 1)} {e : Parsed Lexeme Unit _}
    (h : (s.elsewhere patterns order expanding).readBranches st' ls = .ok (p.map (moveAll base site)))
    (he : s.expect .rparen groupEnd p.rest = .ok e) (id : Option Nat) (name : Option String)
    {m : Nat} {hm : ∀ p : Parsed Lexeme (List Expr × Numbering) (ls.length + 1),
      ∀ q : Parsed Lexeme Unit p.rest.length, q.rest.length < m} :
    (do
      let p ← (s.elsewhere patterns order expanding).readBranches st' ls
      let q ← (s.elsewhere patterns order expanding).expect .rparen groupEnd p.rest
      return (⟨(.group (.ofBranches p.value.1) (id.map (· + (base.next - 1))) name, p.value.2),
        q.rest, hm p q⟩ : Parsed Lexeme (Expr × Numbering) m)) =
      .ok ((⟨(.group (.ofBranches p.value.1) id name, p.value.2), e.rest, hm p e⟩ :
        Parsed Lexeme (Expr × Numbering) m).map (move base site)) := by
  rw [h]
  change (s.expect .rparen groupEnd p.rest >>= _) = _
  rw [he]
  cases id <;>
    simp only [Parsed.map, move, moveAll, Expr.shiftGroups, Expr.shiftGroups_ofBranches] <;> rfl

theorem expand {name text : String} {offset : Nat} {inner rest : List Lexeme}
    {p : Parsed Lexeme (List Expr × Numbering) (inner.length + 1)} {l : Lexeme}
    (hinner : lexemes text = .ok inner)
    (h : ((s.elsewhere patterns order expanding).entering name offset text).readBranches
      (st.behind base site) inner = .ok (p.map (moveAll base site)))
    (hend : (s.entering name offset text).expectEnd p.rest = .ok ()) :
    (do
      let inner ← lexemes text
      let p ← ((s.elsewhere patterns order expanding).entering name offset text).readBranches
        (st.behind base site) inner
      ((s.elsewhere patterns order expanding).entering name offset text).expectEnd p.rest
      return (⟨(.ofBranches p.value.1, p.value.2), rest, length_lt_next⟩ :
        Parsed Lexeme (Expr × Numbering) (l :: rest).length)) =
      .ok ((⟨(.ofBranches p.value.1, p.value.2), rest, length_lt_next⟩ :
        Parsed Lexeme (Expr × Numbering) (l :: rest).length).map (move base site)) := by
  rw [hinner]
  change (Scope.readBranches _ _ inner >>= _) = _
  rw [h]
  change ((s.entering name offset text).expectEnd p.rest >>= _) = _
  rw [hend]
  simp only [Parsed.map, move, moveAll, Expr.shiftGroups_ofBranches]
  rfl

mutual

/-- **What is read elsewhere is what is read alone**, moved behind the groups that are there. -/
theorem readBranches (s : Scope) (st : Numbering) (ls : List Lexeme)
    {expanding : List (String × Nat)} (hs : s.Embeds patterns expanding site) (hleft : s.Left ls)
    (hst : 1 ≤ st.next) (hbase : 1 ≤ base.next)
    {p : Parsed Lexeme (List Expr × Numbering) (ls.length + 1)}
    (h : s.readBranches st ls = .ok p) :
    (s.elsewhere patterns order expanding).readBranches (st.behind base site) ls =
      .ok (p.map (moveAll base site)) := by
  rw [Scope.readBranches] at h ⊢
  obtain ⟨p₁, h₁, h⟩ := exists_of_bind_eq_ok h
  have hnext := Nat.le_trans hst (reads_of_readItems s st ls h₁).next_le
  have hrest := hleft.of_consumes (consumes_of_readItems s st ls h₁)
  rw [readItems s st ls hs hleft hst hbase h₁]
  dsimp only [bind, Except.bind]
  split at h
  · next offset rest hp =>
    have hlt : rest.length < ls.length := p₁.next_lt hp
    obtain ⟨q, hq, h⟩ := exists_of_bind_eq_ok h
    cases h
    rw [hp] at hrest
    have hmore : (s.elsewhere patterns order expanding).readBranches
        (p₁.map (moveAll base site)).value.2 rest = .ok (q.map (moveAll base site)) :=
      readBranches s _ rest hs (hrest.tail nofun) hnext hbase hq
    split
    · next hp' =>
      cases hp'.symm.trans hp
      rw [hmore]
      simp only [Parsed.map, moveAll, Expr.shiftAll, Expr.shiftGroups_ofItems]
      rfl
    · next hne => exact absurd hp (hne offset rest)
  · next hne =>
    cases h
    split
    · next hp => exact absurd hp (hne _ _)
    · simp only [Parsed.map, moveAll, Expr.shiftAll, Expr.shiftGroups_ofItems]
      rfl
termination_by (s.unexpanded, ls.length, 2)

theorem readItems (s : Scope) (st : Numbering) (ls : List Lexeme)
    {expanding : List (String × Nat)} (hs : s.Embeds patterns expanding site) (hleft : s.Left ls)
    (hst : 1 ≤ st.next) (hbase : 1 ≤ base.next)
    {p : Parsed Lexeme (List Expr × Numbering) (ls.length + 1)} (h : s.readItems st ls = .ok p) :
    (s.elsewhere patterns order expanding).readItems (st.behind base site) ls =
      .ok (p.map (moveAll base site)) := by
  rw [Scope.readItems] at h ⊢
  split at h
  · next hend =>
    cases h
    rw [if_pos hend]
    rfl
  · next hend =>
    rw [if_neg hend]
    obtain ⟨p₁, h₁, h⟩ := exists_of_bind_eq_ok h
    obtain ⟨q, hq, h⟩ := exists_of_bind_eq_ok h
    have hlt : q.rest.length < ls.length := p₁.next_rest_lt q
    obtain ⟨r, hr, h⟩ := exists_of_bind_eq_ok h
    cases h
    have hnext := Nat.le_trans hst (reads_of_readAtom s st ls h₁).next_le
    have hrest := hleft.of_consumes ((consumes_of_readAtom s st ls h₁).trans
      (consumes_of_readQuantifier hq))
    rw [readAtom s st ls hs hleft hst hbase h₁]
    have hmore : (s.elsewhere patterns order expanding).readItems
        (p₁.map (move base site)).value.2 q.rest = .ok (r.map (moveAll base site)) :=
      readItems s _ _ hs hrest hnext hbase hr
    change (s.readQuantifier p₁.rest >>= _) = _
    rw [hq]
    change (Scope.readItems _ _ q.rest >>= _) = _
    rw [hmore]
    simp only [Parsed.map, move, moveAll, Expr.shiftAll, Expr.shiftGroups_quantified]
    rfl
termination_by (s.unexpanded, ls.length, 1)

theorem readAtom (s : Scope) (st : Numbering) (ls : List Lexeme)
    {expanding : List (String × Nat)} (hs : s.Embeds patterns expanding site) (hleft : s.Left ls)
    (hst : 1 ≤ st.next) (hbase : 1 ≤ base.next)
    {p : Parsed Lexeme (Expr × Numbering) ls.length} (h : s.readAtom st ls = .ok p) :
    (s.elsewhere patterns order expanding).readAtom (st.behind base site) ls =
      .ok (p.map (move base site)) := by
  have hsite (offset : Nat) : (s.elsewhere patterns order expanding).site offset = site :=
    hs.site_elsewhere offset
  match ls with
  | [] =>
    rw [Scope.readAtom.eq_def] at h
    cases h
  | ⟨x, offset⟩ :: rest =>
    have hrest := hleft.tail (l := ⟨x, offset⟩)
    cases x
    case backref id => exact absurd hleft.hasBackref hs.backrefFree.here
    case var name =>
      have hm := hleft.mentions
      rw [readAtom_var] at h ⊢
      split at h
      · cases h
      · next hn =>
        have hn' : ¬ (s.elsewhere patterns order expanding).isExpanding name = true :=
          fun h => hn (hs.unexpanded name (.mention hm) h)
        rw [if_neg hn']
        have hb : (s.elsewhere patterns order expanding).env.pattern? name = s.env.pattern? name :=
          hs.bound name (.mention hm)
        rw [hb]
        split at h
        · cases h
        · next q hq =>
          cases h
          rw [hsite, Numbering.behind_inline hst hbase q (s.site offset)]
          rfl
        · next text htext =>
          have hlt : (s.entering name offset text).unexpanded < s.unexpanded :=
            unexpanded_entering_lt htext (Bool.eq_false_iff.2 hn)
          obtain ⟨inner, hinner, h⟩ := exists_of_bind_eq_ok h
          obtain ⟨q, hq, h⟩ := exists_of_bind_eq_ok h
          obtain ⟨u, hend, h⟩ := exists_of_bind_eq_ok h
          cases h
          exact expand hinner (readBranches (s.entering name offset text) st inner
            (hs.entering hm htext offset) (.of_lexemes hinner) hst hbase hq) hend
    all_goals rw [Scope.readAtom.eq_def] at h ⊢
    all_goals dsimp only at h ⊢
    case lparen =>
      obtain ⟨p₁, h₁, h⟩ := exists_of_bind_eq_ok h
      obtain ⟨e, he, h⟩ := exists_of_bind_eq_ok h
      cases h
      have hinner := readBranches s (st.openGroup (s.site offset)) rest hs (hrest nofun)
        (Nat.le_succ_of_le hst) hbase h₁
      rw [Numbering.behind_openGroup hst] at hinner
      rw [hsite, Numbering.behind_next hst hbase]
      exact closeGroup hinner he (some st.next) none
    case nonCapture =>
      obtain ⟨p₁, h₁, h⟩ := exists_of_bind_eq_ok h
      obtain ⟨e, he, h⟩ := exists_of_bind_eq_ok h
      cases h
      exact closeGroup (readBranches s st rest hs (hrest nofun) hst hbase h₁) he none none
    case namedGroup name =>
      obtain ⟨p₁, h₁, h⟩ := exists_of_bind_eq_ok h
      obtain ⟨e, he, h⟩ := exists_of_bind_eq_ok h
      cases h
      have hinner := readBranches s ((st.openGroup (s.site offset)).bind name st.next) rest hs
        (hrest nofun) (Nat.le_succ_of_le hst) hbase h₁
      rw [Numbering.behind_bind, Numbering.behind_openGroup hst] at hinner
      rw [hsite, Numbering.behind_next hst hbase]
      exact closeGroup hinner he (some st.next) (some name)
    case multiNode =>
      obtain ⟨p₁, h₁, h⟩ := exists_of_bind_eq_ok h
      cases h
      obtain ⟨min, max, text, greedy, hvalue⟩ := exists_multi_of_readMulti h₁
      obtain ⟨value, more, hlt⟩ := p₁
      obtain rfl : value = _ := hvalue
      rw [readMulti_elsewhere, h₁]
      rfl
    case caret | dollar =>
      cases h
      rfl
    case lbracket | lbrace | bang | str | regex | func =>
      obtain ⟨p₁, h₁, h⟩ := exists_of_bind_eq_ok h
      cases h
      rw [readElement_elsewhere, h₁]
      rfl
    all_goals cases h
termination_by (s.unexpanded, ls.length, 0)

end

end Embeds

end Scope

/-! ## Bindings -/

namespace Environment

variable {env : Environment} {name other text : String} {b : Binding}

/-- An environment with one more binding, which hides others of the name. -/
def binding (env : Environment) (name : String) (b : Binding) : Environment :=
  { env with patterns := (name, b) :: env.patterns }

theorem pattern?_binding_self : (env.binding name b).pattern? name = some b :=
  List.lookup_cons_self

theorem pattern?_binding_of_ne (h : other ≠ name) :
    (env.binding name b).pattern? other = env.pattern? other := by
  rw [pattern?, binding, List.lookup_cons, beq_false_of_ne h]
  rfl

theorem leads_of_binding (h : (env.binding name b).Leads text other) :
    env.Leads text other ∨ env.Leads text name := by
  induction h with
  | mention hm => exact .inl (.mention hm)
  | @through text other' inner other hm hb _ ih =>
    by_cases hother : other' = name
    · exact .inr (.mention (hother ▸ hm))
    · rw [pattern?_binding_of_ne hother] at hb
      exact ih.imp (.through hm hb) (.through hm hb)

/-- The pattern of a text may take its place behind a variable: no action, no back reference, and
nothing that leads to the variable. -/
structure Replaces (env : Environment) (name text : String) (p : Pattern) : Prop where
  compiled : compile env text = .ok p
  noAction : p.trailingAction? = none
  backrefFree : env.BackrefFree text
  notLeads : ¬ env.Leads text name

end Environment

theorem Pattern.body_eq_root {p : Pattern} (h : p.trailingAction? = none) : p.body = p.root := by
  unfold trailingAction? at h
  unfold body
  split
  · next hroot =>
    rw [hroot] at h
    cases h
  · rfl

theorem exists_of_compile {env : Environment} {text : String} {p : Pattern}
    (h : compile env text = .ok p) (hp : p.trailingAction? = none) :
    ∃ ls q, lexemes text = .ok ls ∧ Scope.readBranches { env, source := text } {} ls = .ok q ∧
      Scope.expectEnd { env, source := text } q.rest = .ok () ∧
      p.body = .ofBranches q.value.1 ∧ p.names = q.value.2.names ∧
      p.groupCount = q.value.2.next := by
  obtain ⟨r, hr, -, hnames, hcount, hroot⟩ := exists_sources_of_compileAll h
  obtain ⟨ls, q, hls, hq, ⟨-, -, c, rfl⟩ | ⟨hend, hr⟩⟩ := exists_of_readSources_cons hr
  · -- an action clause would be there still
    obtain ⟨hnone, -⟩ | ⟨c, target, -, -, hroot⟩ := hroot
    · cases hnone
    · rw [Pattern.trailingAction?, hroot] at hp
      cases hp
  · cases hr
    obtain ⟨-, hroot⟩ | ⟨c, target, hc, -, -⟩ := hroot
    · rw [Pattern.body_eq_root hp]
      exact ⟨ls, q, hls, hq, hend, hroot, hnames, hcount⟩
    · cases hc

namespace Scope

variable {env : Environment} {name text : String} {p : Pattern} {s : Scope} {st : Numbering}

/-- A scope in which a variable stands for a text, outside of the expansions of the variable. -/
structure Hosts (s : Scope) (env : Environment) (name text : String) : Prop where
  env_eq : s.env = env.binding name (.source text)
  chained : s.Chained
  notExpanding : s.isExpanding name = false

namespace Hosts

theorem entering (h : s.Hosts env name text) {other inner : String} (hother : other ≠ name)
    (hm : Mentions s.source other) (hb : s.env.pattern? other = some (.source inner))
    (offset : Nat) : (s.entering other offset inner).Hosts env name text where
  env_eq := h.env_eq
  chained := h.chained.entering hm hb offset
  notExpanding := by
    rw [isExpanding_entering, h.notExpanding, beq_false_of_ne hother]
    rfl

/-- The text is embedded where the variable is expanded: what it leads to is not being expanded
there, since that would lead to the variable. -/
theorem embeds (h : s.Hosts env name text) (hm : Mentions s.source name)
    (ht : env.Replaces name text p) (offset : Nat) :
    Embeds { env, source := text } s.env.patterns (s.expanding ++ [(name, offset)])
      (s.site offset) where
  backrefFree := ht.backrefFree
  bound other hother := by
    have hne : other ≠ name := fun heq => ht.notLeads (heq ▸ hother)
    rw [h.env_eq]
    exact Environment.pattern?_binding_of_ne hne
  unexpanded other hother hexpanding := by
    have hne : other ≠ name := fun heq => ht.notLeads (heq ▸ hother)
    have hexpanding : (s.entering name offset text).isExpanding other = true := hexpanding
    rw [isExpanding_entering, beq_false_of_ne hne.symm, Bool.or_false] at hexpanding
    obtain ⟨inner, hb, hleads⟩ := h.chained other hexpanding
    have hback := hleads name (.mention hm)
    rw [h.env_eq] at hb hback
    rw [Environment.pattern?_binding_of_ne hne] at hb
    have hback := (Environment.leads_of_binding hback).elim id id
    exact absurd (hother.trans hb hback) ht.notLeads
  site := by
    rw [Scope.site]
    cases s.expanding <;> rfl

/-- **A variable that stands for a text is read as its pattern would be copied.** -/
theorem readAtom_eq_inline (h : s.Hosts env name text) (hm : Mentions s.source name)
    (ht : env.Replaces name text p) (hst : 1 ≤ st.next) (offset : Nat) (rest : List Lexeme) :
    s.readAtom st (⟨.var name, offset⟩ :: rest) =
      .ok ⟨st.inline p (s.site offset), rest, length_lt_next⟩ := by
  obtain ⟨ls, q, hls, hq, hend, hbody, hnames, hcount⟩ := exists_of_compile ht.compiled ht.noAction
  have htext : s.env.pattern? name = some (.source text) := by
    rw [h.env_eq]
    exact Environment.pattern?_binding_self
  have hscope : s.entering name offset text =
      elsewhere { env, source := text } s.env.patterns s.env.order
        (s.expanding ++ [(name, offset)]) := by
    rw [Scope.entering, elsewhere, h.env_eq]
    rfl
  have hread : (s.entering name offset text).readBranches st ls =
      .ok (q.map (moveAll st (s.site offset))) := by
    have hstart := Numbering.behind_empty st (s.site offset)
    rw [hscope]
    refine (congrArg (readBranches _ · ls) hstart.symm).trans ?_
    exact (h.embeds hm ht offset).readBranches _ {} ls (.of_lexemes hls) (Nat.le_refl 1) hst hq
  have hend : (s.entering name offset text).expectEnd q.rest = .ok () := hscope ▸ hend
  rw [readAtom_var, if_neg (Bool.eq_false_iff.1 h.notExpanding), htext]
  change (lexemes text >>= _) = _
  rw [hls]
  change ((s.entering name offset text).readBranches st ls >>= _) = _
  rw [hread]
  change ((s.entering name offset text).expectEnd q.rest >>= _) = _
  rw [hend, Numbering.inline_eq, hbody, hnames, hcount, Expr.shiftGroups_ofBranches]
  rfl

end Hosts

mutual

/-- **Alternatives are read alike whether the variable stands for the text or for its pattern.** -/
theorem readBranches_copied (s : Scope) (st : Numbering) (ls : List Lexeme)
    (ht : env.Replaces name text p) (hs : s.Hosts env name text) (hleft : s.Left ls)
    (hst : 1 ≤ st.next) :
    (s.elsewhere (env.binding name (.compiled p)).patterns s.env.order s.expanding).readBranches st ls =
      s.readBranches st ls := by
  rw [readBranches, readBranches, readItems_copied s st ls ht hs hleft hst]
  refine bind_congr_of_ok fun p₁ h₁ => ?_
  have hnext := Nat.le_trans hst (reads_of_readItems s st ls h₁).next_le
  have hrest := hleft.of_consumes (consumes_of_readItems s st ls h₁)
  split
  · next offset rest hp₁ =>
    have hlt : rest.length < ls.length := p₁.next_lt hp₁
    rw [hp₁] at hrest
    rw [readBranches_copied s p₁.value.2 rest ht hs (hrest.tail nofun) hnext]
  · rfl
termination_by (s.unexpanded, ls.length, 2)

theorem readItems_copied (s : Scope) (st : Numbering) (ls : List Lexeme)
    (ht : env.Replaces name text p) (hs : s.Hosts env name text) (hleft : s.Left ls)
    (hst : 1 ≤ st.next) :
    (s.elsewhere (env.binding name (.compiled p)).patterns s.env.order s.expanding).readItems st ls =
      s.readItems st ls := by
  rw [readItems, readItems, readAtom_copied s st ls ht hs hleft hst]
  split
  · rfl
  · refine bind_congr_of_ok fun p₁ h₁ => ?_
    rw [readQuantifier_elsewhere]
    refine bind_congr_of_ok fun q hq => ?_
    have hlt : q.rest.length < ls.length := p₁.next_rest_lt q
    have hnext := Nat.le_trans hst (reads_of_readAtom s st ls h₁).next_le
    have hrest := hleft.of_consumes ((consumes_of_readAtom s st ls h₁).trans
      (consumes_of_readQuantifier hq))
    rw [readItems_copied s p₁.value.2 q.rest ht hs hrest hnext]
termination_by (s.unexpanded, ls.length, 1)

theorem readAtom_copied (s : Scope) (st : Numbering) (ls : List Lexeme)
    (ht : env.Replaces name text p) (hs : s.Hosts env name text) (hleft : s.Left ls)
    (hst : 1 ≤ st.next) :
    (s.elsewhere (env.binding name (.compiled p)).patterns s.env.order s.expanding).readAtom st ls =
      s.readAtom st ls := by
  match ls with
  | [] =>
    rw [readAtom.eq_def, readAtom.eq_def]
    rfl
  | ⟨x, offset⟩ :: rest =>
    have hrest := hleft.tail (l := ⟨x, offset⟩)
    cases x
    case var other =>
      have hm := hleft.mentions
      by_cases hother : other = name
      · subst hother
        have hb : (s.elsewhere (env.binding other (.compiled p)).patterns
            s.env.order s.expanding).env.pattern? other = some (.compiled p) :=
          Environment.pattern?_binding_self
        rw [hs.readAtom_eq_inline hm ht hst, readAtom_var, hb]
        exact if_neg (Bool.eq_false_iff.1 hs.notExpanding)
      · have hb : (s.elsewhere (env.binding name (.compiled p)).patterns
            s.env.order s.expanding).env.pattern? other = s.env.pattern? other := by
          rw [hs.env_eq, Environment.pattern?_binding_of_ne hother]
          exact Environment.pattern?_binding_of_ne hother
        rw [readAtom_var, readAtom_var, hb]
        by_cases hn : s.isExpanding other = true
        · rw [if_pos hn]
          exact if_pos hn
        rw [if_neg hn]
        refine (if_neg hn).trans ?_
        split
        · rfl
        · rfl
        · next inner hinner =>
          have hlt : (s.entering other offset inner).unexpanded < s.unexpanded :=
            unexpanded_entering_lt hinner (Bool.eq_false_iff.2 hn)
          refine bind_congr_of_ok fun ls' hls' => ?_
          have hread := readBranches_copied (s.entering other offset inner) st ls' ht
            (hs.entering hother hm hinner offset) (.of_lexemes hls') hst
          exact congrArg (· >>= _) hread
    all_goals rw [readAtom.eq_def, readAtom.eq_def]
    all_goals dsimp only
    case lparen =>
      exact congrArg (· >>= _) (readBranches_copied s (st.openGroup (s.site offset)) rest ht hs
        (hrest nofun) (Nat.le_succ_of_le hst))
    case nonCapture =>
      exact congrArg (· >>= _) (readBranches_copied s st rest ht hs (hrest nofun) hst)
    case namedGroup other =>
      exact congrArg (· >>= _) (readBranches_copied s
        ((st.openGroup (s.site offset)).bind other st.next) rest ht hs (hrest nofun)
        (Nat.le_succ_of_le hst))
    case lbracket | lbrace | bang | str | regex | func => rw [readElement_elsewhere]
    all_goals rfl
termination_by (s.unexpanded, ls.length, 0)

end

end Scope

/-! ## Patterns -/

section Patterns

variable {env : Environment} {name text : String} {p : Pattern}

/-- A text that is compiled leads to no variable that is not bound, and not to itself. -/
theorem not_leads_of_compile (hp : compile env text = .ok p)
    (hname : ∀ b, env.pattern? name = some b → b ≠ .source text → ¬ env.Leads text name) :
    ¬ env.Leads text name := by
  intro hl
  obtain ⟨r, hr, -⟩ := exists_sources_of_compileAll hp
  have hread := readsText_of_readSources hr text (List.mem_singleton_self _)
  cases hb : env.pattern? name with
  | none =>
    obtain ⟨s, henv, ⟨st, offset, rest, q, hq⟩, -⟩ := hread.exists_of_leads rfl hl
    rw [Scope.readAtom_var, henv, hb] at hq
    split at hq <;> cases hq
  | some b =>
    by_cases heq : b = .source text
    · exact hread.not_cyclic hl ⟨text, heq ▸ hb, hl⟩
    · exact hname b hb heq hl

theorem readSources_copied (ht : env.Replaces name text p) (hosts : List String)
    {r : Sources} (hr : 1 ≤ r.numbering.next) :
    readSources (env.binding name (.compiled p)) r hosts =
      readSources (env.binding name (.source text)) r hosts := by
  induction hosts generalizing r with
  | nil => rfl
  | cons host more ih =>
    rw [readSources, readSources]
    refine bind_congr_of_ok fun ls hls => ?_
    have hread := Scope.readBranches_copied
      { env := env.binding name (.source text), source := host } r.numbering ls ht
      ⟨rfl, Scope.chained_of_expanding_eq_nil rfl, rfl⟩ (.of_lexemes hls) hr
    refine (congrArg (· >>= _) hread).trans (bind_congr_of_ok fun q hq => ?_)
    have hnext := Nat.le_trans hr (Scope.reads_of_readBranches _ _ _ hq).next_le
    dsimp only
    split
    · rfl
    · exact bind_congr_of_ok fun _ _ => ih hnext

theorem compileAll_copied (ht : env.Replaces name text p) (hosts : List String) :
    compileAll (env.binding name (.source text)) hosts =
      compileAll (env.binding name (.compiled p)) hosts := by
  rw [compileAll, compileAll, readSources_copied ht hosts (Nat.le_refl 1)]
  rfl

/-- **A variable may stand for a text or for the pattern that the text is compiled to**, in whatever
orders names are gone through. -/
theorem source_and_compiled_interchangeable (hp : compile env text = .ok p)
    (haction : p.trailingAction? = none) (hfree : env.BackrefFree text)
    (hname : ∀ b, env.pattern? name = some b → b ≠ .source text → ¬ env.Leads text name)
    (hosts : List String) (o o' : NameOrder) (q : Pattern) :
    compileAll ((env.binding name (.source text)).inOrder o) hosts = .ok q ↔
      compileAll ((env.binding name (.compiled p)).inOrder o') hosts = .ok q := by
  have ht : env.Replaces name text p :=
    ⟨hp, haction, hfree, not_leads_of_compile hp hname⟩
  rw [compileAll_inOrder, compileAll_inOrder, compileAll_copied ht]

end Patterns

/-- A named group with a variable and a copied pattern in it, which refers to a group of its own.
The new binding hides another one. -/
theorem source_and_compiled_interchangeable_of_nested :
    let env : Environment := { patterns :=
      [("x", .source "^"), ("y", .source "([])"), ("z", .compiled .twice)] }
    let text := "(?$n $y|$z)+"
    let host := "(^)$x(\"c\")"
    ∃ p, compile env text = .ok p ∧ p.trailingAction? = none ∧ env.BackrefFree text ∧
      (∀ b, env.pattern? "x" = some b → b ≠ .source text → ¬ env.Leads text "x") ∧
      ∃ q, q.groupCount = 6 ∧ q.names = [("n", 2)] ∧
        compileAll (env.binding "x" (.compiled p)) [host] = .ok q ∧
        ∀ o, compileAll ((env.binding "x" (.source text)).inOrder o) [host] = .ok q := by
  intro env text host
  have htext : lexemes text = .ok [⟨.namedGroup "n", 0⟩, ⟨.var "y", 5⟩, ⟨.pipe, 7⟩, ⟨.var "z", 8⟩,
      ⟨.rparen, 10⟩, ⟨.plus, 11⟩, ⟨.eof, 12⟩] := by decide +kernel
  have hhost : lexemes host = .ok [⟨.lparen, 0⟩, ⟨.caret, 1⟩, ⟨.rparen, 2⟩, ⟨.var "x", 3⟩,
      ⟨.lparen, 5⟩, ⟨.str "c", 6⟩, ⟨.rparen, 9⟩, ⟨.eof, 10⟩] := by decide +kernel
  have hcaret : lexemes "^" = .ok [⟨.caret, 0⟩, ⟨.eof, 1⟩] := by decide +kernel
  have hany : lexemes "([])" = .ok [⟨.lparen, 0⟩, ⟨.lbracket, 1⟩, ⟨.rbracket, 2⟩, ⟨.rparen, 3⟩,
      ⟨.eof, 4⟩] := by decide +kernel
  let p : Pattern := .build text (.iterate (.group (.choice [.group (.node .any) (some 2) none,
    .sequence [.group (.node (.attr .text (.equality "a" false))) (some 3) none, .backref 3]])
    (some 1) (some "n")) 1 none true) [("n", 1)] 4
  have hp : compile env text = .ok p := by
    simp only [compile, compileAll, readSources, htext]
    cbv
  have hsources {name inner : String} (hb : env.pattern? name = some (.source inner)) :
      (name = "x" ∧ inner = "^") ∨ (name = "y" ∧ inner = "([])") := by
    simpa [env] using Environment.mem_of_pattern?_eq_some hb
  have hfree : env.BackrefFree text := by
    refine ⟨not_hasBackref htext (by simp [symbolsOf]), fun name inner _ hb => ?_⟩
    obtain ⟨-, rfl⟩ | ⟨-, rfl⟩ := hsources hb
    · exact not_hasBackref hcaret (by simp [symbolsOf])
    · exact not_hasBackref hany (by simp [symbolsOf])
  have hleads : ¬ env.Leads text "x" := by
    intro h
    cases h with
    | mention hm => simpa [symbolsOf] using hm.mem htext
    | through hm hb h =>
      obtain ⟨rfl, rfl⟩ | ⟨rfl, rfl⟩ := hsources hb
      · simpa [symbolsOf] using hm.mem htext
      · cases h with
        | mention hm => simpa [symbolsOf] using hm.mem hany
        | through hm _ _ => simpa [symbolsOf] using hm.mem hany
  have hcounts : (compileAll (env.binding "x" (.compiled p)) [host]).map
      (fun q => (q.groupCount, q.names)) = .ok (6, [("n", 2)]) := by
    simp only [compileAll, readSources, hhost]
    cbv
  cases hq : compileAll (env.binding "x" (.compiled p)) [host] with
  | error e =>
    rw [hq] at hcounts
    cases hcounts
  | ok q =>
    rw [hq] at hcounts
    simp only [Except.map, Except.ok.injEq, Prod.mk.injEq] at hcounts
    exact ⟨p, hp, rfl, hfree, fun _ _ _ => hleads, q, hcounts.1, hcounts.2, hq, fun o =>
      (source_and_compiled_interchangeable hp rfl hfree (fun _ _ _ => hleads) [host] o .declared
        q).2 hq⟩

/-- A text tells itself from its pattern by a reference to another binding of its variable, and by
an action. -/
theorem source_and_compiled_differ :
    let recursive : Environment := { patterns := [("_", .source "^")] }
    let start : Pattern := .build "$_" (.anchor .start) [] 1
    let acted : Expr := .action (.node .any) "a" 0
    let acting : Environment :=
      { patterns := [("_", .compiled (.build "" (.action acted "b" 0) [] 1))] }
    (∃ ls, lexemes "$_" = .ok ls ∧ .arrow ∉ symbolsOf ls) ∧
    (compile recursive "$_" = .ok start ∧ recursive.BackrefFree "$_" ∧
      (∀ p, compile (recursive.binding "_" (.source "$_")) "$_" ≠ .ok p) ∧
      compile (recursive.binding "_" (.compiled start)) "$_" = .ok start) ∧
    (compile acting "$_" = .ok (.build "$_" acted [] 1) ∧ acting.BackrefFree "$_" ∧
      compile (acting.binding "__" (.source "$_")) "$__" = .ok (.build "$__" acted [] 1) ∧
      compile (acting.binding "__" (.compiled (.build "$_" acted [] 1))) "$__" =
        .ok (.build "$__" (.node .any) [] 1)) := by
  intro recursive start acted acting
  have hhost : lexemes "$__" = .ok [⟨.var "__", 0⟩, ⟨.eof, 3⟩] := by decide +kernel
  have hcaret : lexemes "^" = .ok [⟨.caret, 0⟩, ⟨.eof, 1⟩] := by decide +kernel
  have hvariable : ¬ HasBackref "$_" := not_hasBackref lexemes_variable (by simp [symbolsOf])
  refine ⟨⟨_, lexemes_variable, by simp [symbolsOf]⟩, ⟨?_, ?_, ?_, ?_⟩, ⟨?_, ?_, ?_, ?_⟩⟩
  · simp only [compile, compileAll, readSources, lexemes_variable]
    cbv
  · refine ⟨hvariable, fun name inner _ hb => ?_⟩
    obtain ⟨-, rfl⟩ : name = "_" ∧ inner = "^" := by
      simpa [recursive] using Environment.mem_of_pattern?_eq_some hb
    exact not_hasBackref hcaret (by simp [symbolsOf])
  · intro p hp
    have hm : Mentions "$_" "_" := ⟨_, [], [.eof], lexemes_variable, rfl, List.not_mem_nil⟩
    refine not_leads_of_compile hp (fun b hb hne => ?_) (.mention hm)
    rw [Environment.pattern?_binding_self] at hb
    exact absurd (Option.some.inj hb).symm hne
  · simp only [compile, compileAll, readSources, lexemes_variable]
    cbv
  · simp only [compile, compileAll, readSources, lexemes_variable]
    cbv
  · refine ⟨hvariable, fun name inner _ hb => ?_⟩
    simpa [acting] using Environment.mem_of_pattern?_eq_some hb
  · simp only [compile, compileAll, readSources, hhost]
    change (Scope.readBranches _ _ [⟨.var "__", 0⟩, ⟨.eof, 3⟩] >>= _) >>= _ = _
    rw [Scope.readBranches, Scope.readItems, if_neg (by decide), Scope.readAtom_var,
      if_neg (by decide), Environment.pattern?_binding_self]
    change ((((lexemes "$_" >>= _) >>= _) >>= _) >>= _) >>= _ = _
    rw [lexemes_variable]
    cbv
  · simp only [compile, compileAll, readSources, hhost]
    cbv

end Motif
