import Motif.Ensemble
import Motif.Proofs.Scan
import Motif.Proofs.TriggerIndex
import Motif.Proofs.Triggers

/-!
# Collecting the matches of several patterns

Neither the trigger index nor the keys of matches change what is collected, apart from registrations
that repeat an earlier one: those find what has been found already.

* `Ensemble.Coherent`: registrations of one compiled pattern agree.
* `Ensemble.repeats`, `Ensemble.plain`: registrations that repeat an earlier one, and the matches of
  all others, as they come.
* `Ensemble.active_eq`: the patterns that are searched for.
* `Ensemble.asked_of_mem_findAll`: a pattern that has a match is searched for.
* `Harvest.insertAll_of_mem`, `Harvest.insertAll_of_not_mem`: matches found again, and new ones.
* **`Ensemble.collect_eq_plain`**: what is collected.
-/

namespace Motif

/-! ## Harvests -/

namespace Harvest

/-- Adds several matches. -/
def insertAll (h : Harvest) (id artifact : Nat) (ms : List Match) : Harvest :=
  ms.foldl (fun h m => h.insert id artifact m) h

variable {h : Harvest} (id : Nat) {artifact : Nat} {ms : List Match}

theorem insertAll_of_mem (hk : ∀ m ∈ ms, ⟨m.span, artifact, m.score⟩ ∈ h.keys) :
    h.insertAll id artifact ms = { h with duplicates := h.duplicates + ms.length } := by
  induction ms generalizing h with
  | nil => rfl
  | cons m ms ih =>
    have hm : h.insert id artifact m = { h with duplicates := h.duplicates + 1 } := by
      rw [insert]
      exact if_pos (by simpa using hk m List.mem_cons_self)
    rw [insertAll, List.foldl_cons, hm]
    have := ih (h := { h with duplicates := h.duplicates + 1 }) fun m' hm' =>
      hk m' (List.mem_cons_of_mem _ hm')
    refine this.trans ?_
    rw [List.length_cons, Nat.add_assoc, Nat.add_comm 1]

theorem insertAll_of_not_mem (hk : ∀ m ∈ ms, ⟨m.span, artifact, m.score⟩ ∉ h.keys)
    (hspan : ms.Pairwise fun a b => a.span ≠ b.span) :
    h.insertAll id artifact ms = { h with
      candidates := h.candidates ++ Match.numberedFrom h.candidates.length
        (ms.map fun m => { m with pattern := id })
      keys := (ms.map fun m => ⟨m.span, artifact, m.score⟩).reverse ++ h.keys } := by
  induction ms generalizing h with
  | nil =>
    change h = _
    rw [List.map_nil, List.map_nil, List.reverse_nil, List.nil_append]
    change h = { h with candidates := h.candidates ++ [] }
    rw [List.append_nil]
  | cons m ms ih =>
    have hm : h.insert id artifact m = { h with
        candidates := h.candidates ++ [{ m with order := h.candidates.length, pattern := id }]
        keys := ⟨m.span, artifact, m.score⟩ :: h.keys } := by
      rw [insert]
      exact if_neg (by simpa using hk m List.mem_cons_self)
    rw [insertAll, List.foldl_cons, hm]
    refine (ih (fun m' hm' => ?_) hspan.of_cons).trans ?_
    · rw [List.mem_cons, not_or]
      refine ⟨fun heq => ?_, hk m' (List.mem_cons_of_mem _ hm')⟩
      exact List.rel_of_pairwise_cons hspan hm' (congrArg MatchKey.span heq).symm
    · simp only [List.length_append, List.length_singleton, List.map_cons, List.reverse_cons,
        List.append_assoc, Match.numberedFrom_cons, List.singleton_append]
      rfl

end Harvest

/-! ## Registrations -/

/-- Two registrations are the same if they are of one compiled pattern with one score. -/
def Registration.identity (r : Registration) : Nat × Binary64 := (r.artifact, r.pattern.score)

theorem Metrics.found_add (a b : Metrics) : (a.add b).found = a.found + b.found := rfl

namespace Ensemble

variable (e : Ensemble) (elements : Array Element)

/-- Registrations of one compiled pattern with one score have the same pattern. This is what the
numbers of compiled patterns mean. -/
def Coherent : Prop :=
  ∀ r ∈ e.registrations, ∀ r' ∈ e.registrations, r.identity = r'.identity → r.pattern = r'.pattern

/-- An earlier registration is the same. -/
def repeats (p : Registration × Nat) : Bool :=
  (e.registrations.take p.2).any fun r => r.identity == p.1.identity

/-- The matches of one pattern, under its number. -/
def matchesOf (p : Registration × Nat) : List Match :=
  (e.search elements p.1).findAll.found.map fun m => { m with pattern := p.2 }

/-- The matches of all patterns one after the other, without those of registrations that repeat an
earlier one, numbered as they come. Triggers play no part. -/
def plain : List Match :=
  Match.numberedFrom 0
    ((e.registrations.zipIdx.filter fun p => !e.repeats p).flatMap (e.matchesOf elements))

/-- The pattern of a registration is searched for. -/
def asks (p : Registration × Nat) : Bool :=
  TriggerIndex.asked (elements.toList.map Element.text) p.1.pattern.root.triggerWords?

/-- **The patterns that are searched for**, said without the index. -/
theorem active_eq : e.active elements = e.registrations.zipIdx.filter (asks elements) := by
  have hids : e.index.active (elements.toList.map Element.text) =
      (e.registrations.zipIdx.filter (asks elements)).map Prod.snd := by
    refine (TriggerIndex.pairwise_active _ _).eq_of_mem_iff ?_ fun id => ?_
    · refine List.Pairwise.map (R := fun p q => p.2 < q.2) _ (fun _ _ => id) ?_
      refine List.Pairwise.filter _ ?_
      rw [← List.pairwise_map (f := Prod.snd) (R := (· < ·)), List.zipIdx_map_snd]
      exact List.pairwise_lt_range'
    · rw [index, TriggerIndex.mem_active_ofTriggers, List.mem_map]
      simp only [List.getElem?_map, Option.map_eq_some_iff, List.mem_filter, asks, Prod.exists,
        List.mk_mem_zipIdx_iff_getElem?]
      grind
  rw [active, hids, List.filterMap_map]
  refine (List.filterMap_congr fun p hp => ?_).trans List.filterMap_some
  have := List.mem_zipIdx_iff_getElem?.1 (List.mem_of_mem_filter hp)
  simp only [Function.comp_apply, this, Option.map_some]

variable {e elements} {r : Registration} {m : Match}

theorem score_of_mem_findAll (hm : m ∈ (e.search elements r).findAll.found) :
    m.score = r.pattern.score := by
  obtain ⟨s, ha, -, hr⟩ := Search.exists_of_mem_take hm
  obtain ⟨store, hm, -⟩ := Search.exists_of_find hr
  rw [hm]
  change s.pattern.score = _
  rw [ha.pattern_eq]
  rfl

/-- **A pattern that has a match is searched for.** -/
theorem asked_of_mem_findAll (hb : r.pattern.root.boundsOrdered = true)
    (hm : m ∈ (e.search elements r).findAll.found) :
    TriggerIndex.asked (elements.toList.map Element.text) r.pattern.root.triggerWords? = true := by
  obtain ⟨s, ha, -, hr⟩ := Search.exists_of_mem_take hm
  obtain ⟨store, -, -, -, -, hpath⟩ := Search.exists_of_find hr
  rw [ha.pattern_eq, ha.elements_eq] at hpath
  match hw : r.pattern.root.triggerWords? with
  | none | some [] => rfl
  | some (w :: ws) =>
    obtain ⟨i, x, -, -, hx, hmem⟩ := r.pattern.root.triggered_of_mem_paths true hb hw hpath
    refine List.any_eq_true.2 ⟨x.text, hmem, ?_⟩
    rw [List.contains_iff_mem]
    exact List.mem_map_of_mem (Array.mem_toList_iff.2 (Array.mem_of_getElem? hx))

theorem found_search (herr : (e.search elements r).findAll.error = none) :
    (e.search elements r).findAll.search.metrics.found =
      (e.search elements r).findAll.found.length := by
  rw [Search.found_findAll herr]
  exact Nat.zero_add _

theorem found_eq_nil {id : Nat} (hb : r.pattern.root.boundsOrdered = true)
    (ha : ¬ asks elements (r, id) = true) : (e.search elements r).findAll.found = [] :=
  List.eq_nil_iff_forall_not_mem.2 fun _ hm => ha (asked_of_mem_findAll hb hm)

/-! ## The collection -/

variable (e elements) in
/-- A harvest knows the matches of some registrations, and no others. -/
def Knows (rs : List Registration) (h : Harvest) : Prop :=
  ∀ k, k ∈ h.keys ↔ ∃ r ∈ rs, ∃ m ∈ (e.search elements r).findAll.found,
    (⟨m.span, r.artifact, m.score⟩ : MatchKey) = k

theorem repeats_append {rs rs' : List Registration} (hrs : e.registrations = rs ++ r :: rs') :
    e.repeats (r, rs.length) = true ↔ ∃ r' ∈ rs, r'.identity = r.identity := by
  rw [repeats, hrs, List.take_left, List.any_eq_true]
  simp only [beq_iff_eq]

theorem Knows.snoc {rs : List Registration} {h h' : Harvest} (hk : e.Knows elements rs h)
    (h'k : ∀ k, k ∈ h'.keys ↔ k ∈ h.keys ∨ ∃ m ∈ (e.search elements r).findAll.found,
      (⟨m.span, r.artifact, m.score⟩ : MatchKey) = k) : e.Knows elements (rs ++ [r]) h' := by
  intro k
  rw [h'k, hk]
  simp only [List.mem_append, List.mem_singleton, or_and_right, exists_or, exists_eq_left]

section Registering

variable {rs rs' : List Registration} (hrs : e.registrations = rs ++ r :: rs') {h : Harvest}
  (hk : e.Knows elements rs h)

include hrs hk

theorem insertAll_of_repeats (hco : e.Coherent) (hrep : e.repeats (r, rs.length) = true) :
    h.insertAll rs.length r.artifact (e.search elements r).findAll.found =
        { h with duplicates := h.duplicates + (e.search elements r).findAll.found.length } ∧
      e.Knows elements (rs ++ [r])
        (h.insertAll rs.length r.artifact (e.search elements r).findAll.found) := by
  obtain ⟨r', hr', hid⟩ := (repeats_append hrs).1 hrep
  have hp : r'.pattern = r.pattern := hco r' (by simp [hrs, hr']) r (by simp [hrs]) hid
  have hsame : e.search elements r' = e.search elements r := by rw [search, search, hp]
  have hmem : ∀ m ∈ (e.search elements r).findAll.found,
      ⟨m.span, r.artifact, m.score⟩ ∈ h.keys := fun m hm =>
    (hk _).2 ⟨r', hr', m, hsame ▸ hm,
      congrArg (MatchKey.mk m.span · m.score) (congrArg Prod.fst hid)⟩
  have heq := Harvest.insertAll_of_mem rs.length hmem
  refine ⟨heq, hk.snoc fun k => ?_⟩
  rw [heq]
  refine ⟨.inl, ?_⟩
  rintro (hk | ⟨m, hm, rfl⟩)
  · exact hk
  · exact hmem m hm

theorem insertAll_of_not_repeats (hrep : ¬ e.repeats (r, rs.length) = true) :
    (∃ keys, h.insertAll rs.length r.artifact (e.search elements r).findAll.found =
        { h with
          candidates := h.candidates ++ Match.numberedFrom h.candidates.length
            (e.matchesOf elements (r, rs.length))
          keys }) ∧
      e.Knows elements (rs ++ [r])
        (h.insertAll rs.length r.artifact (e.search elements r).findAll.found) := by
  have hmem : ∀ m ∈ (e.search elements r).findAll.found,
      ⟨m.span, r.artifact, m.score⟩ ∉ h.keys := by
    intro m hm hkey
    obtain ⟨r', hr', m', hm', heq⟩ := (hk _).1 hkey
    refine hrep ((repeats_append hrs).2 ⟨r', hr', Prod.ext (congrArg MatchKey.artifact heq) ?_⟩)
    have := congrArg MatchKey.score heq
    rwa [score_of_mem_findAll hm, score_of_mem_findAll hm'] at this
  have hspan : (e.search elements r).findAll.found.Pairwise fun a b => a.span ≠ b.span := by
    refine (Search.pairwise_start_take _ _).imp fun hlt heq => ?_
    rw [heq] at hlt
    exact Nat.lt_irrefl _ hlt
  have heq := Harvest.insertAll_of_not_mem rs.length hmem hspan
  refine ⟨⟨_, heq⟩, hk.snoc fun k => ?_⟩
  rw [heq, List.mem_append, List.mem_reverse, List.mem_map]
  exact or_comm

/-- What the matches of a registration make of a harvest, whether it repeats an earlier one or
not. -/
theorem exists_insertAll (hco : e.Coherent) : ∃ h',
    h.insertAll rs.length r.artifact (e.search elements r).findAll.found = h' ∧
    h'.search = h.search ∧
    h'.candidates = h.candidates ++ Match.numberedFrom h.candidates.length
      (if e.repeats (r, rs.length) then [] else e.matchesOf elements (r, rs.length)) ∧
    h'.duplicates = h.duplicates + (if e.repeats (r, rs.length) then
      (e.search elements r).findAll.found.length else 0) ∧
    e.Knows elements (rs ++ [r]) h' := by
  by_cases hrep : e.repeats (r, rs.length) = true
  · obtain ⟨heq, hknows⟩ := insertAll_of_repeats hrs hk hco hrep
    rw [if_pos hrep, if_pos hrep]
    exact ⟨_, rfl, by rw [heq], by rw [heq]; exact (List.append_nil _).symm, by rw [heq], hknows⟩
  · obtain ⟨⟨keys, heq⟩, hknows⟩ := insertAll_of_not_repeats hrs hk hrep
    rw [if_neg hrep, if_neg hrep]
    exact ⟨_, rfl, by rw [heq], by rw [heq], by rw [heq]; rfl, hknows⟩

end Registering

theorem collectFrom_cons {p : Registration × Nat} {ps : List (Registration × Nat)} {h : Harvest}
    (herr : (e.search elements p.1).findAll.error = none) :
    (e.collectFrom elements h (p :: ps)).1 =
      let f := (e.search elements p.1).findAll
      let h' := h.insertAll p.2 p.1.artifact f.found
      (e.collectFrom elements { h' with search := h'.search.add f.search.metrics } ps).1 := by
  rw [collectFrom]
  simp only [herr]
  rfl

theorem length_matchesOf (p : Registration × Nat) :
    (e.matchesOf elements p).length = (e.search elements p.1).findAll.found.length := by
  rw [matchesOf, List.length_map]

theorem length_repeats_cons (hb : r.pattern.root.boundsOrdered = true) {id : Nat}
    {ps : List (Registration × Nat)} :
    (((((r, id) :: ps).filter (asks elements)).filter e.repeats).flatMap
        (e.matchesOf elements)).length =
      (if e.repeats (r, id) then (e.search elements r).findAll.found.length else 0) +
        (((ps.filter (asks elements)).filter e.repeats).flatMap (e.matchesOf elements)).length := by
  by_cases ha : asks elements (r, id) = true
  · rw [List.filter_cons_of_pos ha]
    by_cases hrep : e.repeats (r, id) = true
    · rw [List.filter_cons_of_pos hrep, List.flatMap_cons, List.length_append, length_matchesOf,
        if_pos hrep]
    · rw [List.filter_cons_of_neg hrep, if_neg hrep, Nat.zero_add]
  · rw [List.filter_cons_of_neg ha, found_eq_nil hb ha, List.length_nil, ite_self, Nat.zero_add]

section Collecting

variable (hco : e.Coherent)
  (hb : ∀ r ∈ e.registrations, r.pattern.root.boundsOrdered = true)
  (herr : ∀ r ∈ e.registrations, (e.search elements r).findAll.error = none)
  {rs rs' : List Registration} {h : Harvest} (hk : e.Knows elements rs h)

include hco hb herr hk

theorem exists_collectFrom_cons (hrs : e.registrations = rs ++ r :: rs') :
    ∃ h', (∀ ps, (e.collectFrom elements h (((r, rs.length) :: ps).filter (asks elements))).1 =
        (e.collectFrom elements h' (ps.filter (asks elements))).1) ∧
      h'.candidates = h.candidates ++ Match.numberedFrom h.candidates.length
        (if e.repeats (r, rs.length) then [] else e.matchesOf elements (r, rs.length)) ∧
      h'.duplicates = h.duplicates + (if e.repeats (r, rs.length) then
        (e.search elements r).findAll.found.length else 0) ∧
      h'.search.found = h.search.found + (e.search elements r).findAll.found.length ∧
      e.Knows elements (rs ++ [r]) h' := by
  have hr : r ∈ e.registrations := by simp [hrs]
  obtain ⟨h₁, heq, hsearch, hcand, hdup, hknows⟩ := exists_insertAll hrs hk hco
  by_cases ha : asks elements (r, rs.length) = true
  · refine ⟨{ h₁ with search := h.search.add (e.search elements r).findAll.search.metrics },
      fun ps => ?_, hcand, hdup, ?_, hknows⟩
    · rw [List.filter_cons_of_pos ha, collectFrom_cons (p := (r, rs.length)) (herr r hr)]
      dsimp only
      rw [heq, hsearch]
    · dsimp only
      rw [Metrics.found_add, found_search (herr r hr)]
  · rw [found_eq_nil (hb r hr) ha] at heq hdup ⊢
    obtain rfl : h = h₁ := heq
    refine ⟨h, fun ps => ?_, hcand, hdup, rfl, hknows⟩
    rw [List.filter_cons_of_neg ha]

/-- **From any harvest on**, which knows the registrations before those that are left. -/
theorem exists_collectFrom (hrs : e.registrations = rs ++ rs')
    (hcount : h.search.found = h.candidates.length + h.duplicates) :
    let ps := rs'.zipIdx rs.length
    ∃ h', (e.collectFrom elements h (ps.filter (asks elements))).1 = .ok h' ∧
      h'.candidates = h.candidates ++ Match.numberedFrom h.candidates.length
        ((ps.filter fun p => !e.repeats p).flatMap (e.matchesOf elements)) ∧
      h'.duplicates = h.duplicates +
        (((ps.filter (asks elements)).filter e.repeats).flatMap (e.matchesOf elements)).length ∧
      h'.search.found = h'.candidates.length + h'.duplicates := by
  induction rs' generalizing rs h with
  | nil => exact ⟨h, rfl, (List.append_nil _).symm, rfl, hcount⟩
  | cons r rs' ih =>
    obtain ⟨h₁, hcollect, hcand, hdup, hfound, hknows⟩ :=
      exists_collectFrom_cons hco hb herr hk hrs
    have hcount₁ : h₁.search.found = h₁.candidates.length + h₁.duplicates := by
      rw [hfound, hcand, hdup, hcount, List.length_append, Match.length_numberedFrom]
      by_cases hrep : e.repeats (r, rs.length) = true
      · rw [if_pos hrep, if_pos hrep, List.length_nil]
        omega
      · rw [if_neg hrep, if_neg hrep, length_matchesOf]
        dsimp only
        omega
    obtain ⟨h', hok, hcand', hdup', hfound'⟩ :=
      ih hknows (by rw [hrs, List.append_assoc]; rfl) hcount₁
    rw [List.length_append, List.length_singleton] at hok hcand' hdup'
    refine ⟨h', ?_, ?_, ?_, hfound'⟩
    · rw [List.zipIdx_cons, hcollect, hok]
    · rw [hcand', hcand, List.append_assoc, List.length_append, Match.length_numberedFrom,
        ← Match.numberedFrom_append, List.zipIdx_cons]
      by_cases hrep : e.repeats (r, rs.length) = true
      · rw [if_pos hrep, List.filter_cons_of_neg (by rw [hrep]; decide), List.nil_append]
      · rw [if_neg hrep, List.filter_cons_of_pos (by simpa using hrep), List.flatMap_cons]
    · rw [hdup', hdup, Nat.add_assoc, List.zipIdx_cons, length_repeats_cons (hb r (by simp [hrs]))]

end Collecting

variable (e elements) in
/-- **Neither the index nor the keys of matches lose any** but those of registrations that repeat an
earlier one. -/
theorem collect_eq_plain (hco : e.Coherent)
    (hb : ∀ r ∈ e.registrations, r.pattern.root.boundsOrdered = true)
    (herr : ∀ r ∈ e.registrations, (e.search elements r).findAll.error = none) :
    (∃ h, (e.collect elements).1 = .ok h ∧
      h.candidates = e.plain elements ∧
      h.duplicates =
        (((e.active elements).filter e.repeats).flatMap (e.matchesOf elements)).length ∧
      h.search.found = h.candidates.length + h.duplicates ∧
      ∀ chain, ∃ run, (e.run chain elements).1 = .ok run ∧ run.candidates = h.candidates ∧
        run.metrics.candidates = h.candidates.length ∧ run.metrics.duplicates = h.duplicates ∧
        run.metrics.search = h.search) ∧
    ∀ ps texts, ps.Perm e.index.postings →
      ({ e.index with postings := ps } : TriggerIndex).active texts = e.index.active texts := by
  refine ⟨?_, fun ps texts hps => TriggerIndex.active_of_perm hps⟩
  have hk : e.Knows elements [] {} := by
    intro k
    simp only [List.not_mem_nil, false_and, exists_false]
  obtain ⟨h, hok, hcand, hdup, hfound⟩ := exists_collectFrom hco hb herr hk rfl rfl
  have hcollect : (e.collect elements).1 = .ok h := by
    rw [collect, active_eq]
    exact hok
  refine ⟨h, hcollect, ?_, ?_, hfound, fun chain => ?_⟩
  · rw [hcand]
    exact List.nil_append _
  · rw [hdup, active_eq]
    exact Nat.zero_add _
  · rw [run]
    dsimp only
    rw [hcollect]
    exact ⟨_, rfl, rfl, rfl, rfl, rfl⟩

/-- A word that is registered twice, and one that does not occur. -/
theorem collect_eq_plain_of_repeated_word :
    let word (w : String) : Pattern := .build "" (.node (.attr .text (.equals w false))) [] 1
    let e : Ensemble := { registrations := [⟨word "a", 0⟩, ⟨word "z", 1⟩, ⟨word "a", 0⟩] }
    let elements : Array Element := #[⟨"a", fun _ => none⟩, ⟨"b", fun _ => none⟩]
    e.Coherent ∧ (∀ r ∈ e.registrations, r.pattern.root.boundsOrdered = true) ∧
      (∀ r ∈ e.registrations, (e.search elements r).findAll.error = none) ∧
      ∃ h, (e.collect elements).1 = .ok h ∧ h.candidates = e.plain elements ∧
        h.search.found = h.candidates.length + h.duplicates := by
  intro word e elements
  have hword : ∀ r ∈ e.registrations, ∃ w i, r = ⟨word w, i⟩ := by
    intro r hr
    simp only [e, List.mem_cons, List.not_mem_nil, or_false] at hr
    obtain rfl | rfl | rfl := hr <;> exact ⟨_, _, rfl⟩
  have hco : e.Coherent := by
    intro r hr r' hr' hid
    simp only [e, List.mem_cons, List.not_mem_nil, or_false] at hr hr'
    obtain rfl | rfl | rfl := hr <;> obtain rfl | rfl | rfl := hr' <;> first | rfl | cases hid
  have hb : ∀ r ∈ e.registrations, r.pattern.root.boundsOrdered = true := by
    intro r hr
    obtain ⟨w, i, rfl⟩ := hword r hr
    rfl
  have herr : ∀ r ∈ e.registrations, (e.search elements r).findAll.error = none := by
    intro r hr
    obtain ⟨w, i, rfl⟩ := hword r hr
    refine Search.findAll_error_eq_none rfl fun p _ err hmem => ?_
    obtain ⟨_, _, ht⟩ := Trial.exists_of_error_mem_ofNode hmem
    cases ht
  obtain ⟨⟨h, hok, hcand, _, hfound, _⟩, _⟩ := collect_eq_plain e elements hco hb herr
  exact ⟨hco, hb, herr, h, hok, hcand, hfound⟩

end Ensemble

end Motif
