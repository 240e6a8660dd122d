import Motif.Proofs.Answers
import Motif.Proofs.Failures
import Mathlib

/-!
# Greed

Greed says which path through a repetition is preferred. It changes the order in which paths are
tried, but neither adds a path nor takes one away, and so it decides which match is found, not
whether there is one.

* `Expr.allGreedy`: the same expression, greedy throughout.
* `Trial.iterations_perm`: the paths through a repetition in another order.
* **`Expr.paths_perm`**: greed only changes the order of paths.
* `Search.SameButGreed`: searches for patterns that differ only in greed.
* **`Search.greed_keeps_starts`**: they find matches at the same starts.
-/

namespace Motif

/-! ## Expressions -/

namespace Expr

mutual

/-- The same expression, in which all repetitions and all runs of elements are greedy. -/
def allGreedy : Expr → Expr
  | node p => node p
  | sequence es => sequence (allGreedyAll es)
  | choice es => choice (allGreedyAll es)
  | iterate e min max _ => iterate e.allGreedy min max true
  | group e id name => group e.allGreedy id name
  | backref id => backref id
  | multi min max text _ => multi min max text true
  | action e name target => action e.allGreedy name target
  | anchor a => anchor a

/-- The same expressions, greedy throughout. -/
def allGreedyAll : List Expr → List Expr
  | [] => []
  | e :: es => e.allGreedy :: allGreedyAll es

end

mutual

theorem groups_allGreedy (e : Expr) : e.allGreedy.groups = e.groups := by
  match e with
  | node _ | backref _ | multi .. | anchor _ => rfl
  | sequence es | choice es => exact groupsOfAll_allGreedyAll es
  | iterate e _ _ _ | action e _ _ => exact groups_allGreedy e
  | group e id name => rw [allGreedy, groups, groups, groups_allGreedy e]

theorem groupsOfAll_allGreedyAll (es : List Expr) :
    groupsOfAll (allGreedyAll es) = groupsOfAll es := by
  match es with
  | [] => rfl
  | e :: es =>
    rw [allGreedyAll, groupsOfAll, groupsOfAll, groups_allGreedy e, groupsOfAll_allGreedyAll es]

end

end Expr

/-! ## Paths in another order -/

section Paths

variable {elements : Array Element} {render : List Element → String}

namespace Trial

theorem onward_perm {ts ts' : List Trial} {f f' : Path → List Trial} (h : ts.Perm ts')
    (hf : ∀ q, (f q).Perm (f' q)) : (onward ts f).Perm (onward ts' f') :=
  h.flatMap fun t _ => by
    cases t with
    | error e => exact .refl _
    | ok q => exact hf q

theorem ofMulti_perm {min : Nat} {max : Option Nat} {text : Regex} (greedy greedy' : Bool)
    (q : Path) : (ofMulti elements render min max text greedy q).Perm
      (ofMulti elements render min max text greedy' q) := by
  have order (greedy : Bool) (l : List Nat) : (if greedy then l.reverse else l).Perm l := by
    cases greedy
    · exact .refl _
    · exact l.reverse_perm
  exact ((order greedy _).trans (order greedy' _).symm).map _

theorem iterations_perm {body body' : Path → List Trial} {min : Nat} {max : Option Nat}
    (hbody : ∀ q, (body q).Perm (body' q)) (greedy greedy' : Bool) (count : Nat) (q : Path) :
    (iterations elements body min max greedy count q).Perm
      (iterations elements body' min max greedy' count q) := by
  induction count, q using iterations_induction elements min with
  | step count q ih =>
    have hmore : (iteration elements body min count
          (iterations elements body min max greedy (count + 1)) q).Perm
        (iteration elements body' min count
          (iterations elements body' min max greedy' (count + 1)) q) := by
      refine onward_perm (hbody q) fun r => ?_
      by_cases hr : count < min ∨ q.pos < r.pos ∧ r.pos ≤ elements.size
      · rw [if_pos hr, if_pos hr]
        exact ih r hr
      · rw [if_neg hr, if_neg hr]
    rw [iterations_eq, iterations_eq]
    dsimp only
    by_cases hc : count < min
    · rw [if_pos hc, if_pos hc]
      exact hmore
    · rw [if_neg hc, if_neg hc]
      by_cases hm : max = some count
      · rw [if_pos hm, if_pos hm]
      · rw [if_neg hm, if_neg hm]
        -- whether the path that stops here comes first or last does not matter
        have order (greedy : Bool) (ts : List Trial) :
            (if greedy then ts ++ [.ok q] else .ok q :: ts).Perm (.ok q :: ts) := by
          cases greedy
          · exact .refl _
          · exact List.perm_append_singleton _ _
        exact (order greedy _).trans ((hmore.cons _).trans (order greedy' _).symm)

end Trial

namespace Expr

mutual

/-- **Greed only changes the order of the paths through an expression.** -/
theorem paths_perm (greedy greedy' : Bool) (e : Expr) (q : Path) :
    (e.paths elements render greedy q).Perm (e.allGreedy.paths elements render greedy' q) := by
  match e with
  | node p | backref id | anchor a => exact .refl _
  | sequence es => exact pathsOfAll_perm greedy greedy' es q
  | choice [] => exact .refl _
  | choice (e :: es) => exact pathsOfSome_perm greedy greedy' (e :: es) q
  | iterate e min max own =>
    rw [allGreedy, paths, paths]
    by_cases hm : max = some 0
    · rw [if_pos hm, if_pos hm]
    · rw [if_neg hm, if_neg hm]
      exact Trial.iterations_perm (fun r => paths_perm _ _ e r) own true 0 q
  | group e none name => exact paths_perm greedy greedy' e q
  | group e (some id) name =>
    exact Trial.onward_perm (paths_perm greedy greedy' e _) fun _ => .refl _
  | multi min max text own => exact Trial.ofMulti_perm _ _ q
  | action e name target =>
    exact Trial.onward_perm (paths_perm greedy greedy' e q) fun _ => .refl _

theorem pathsOfAll_perm (greedy greedy' : Bool) (es : List Expr) (q : Path) :
    (pathsOfAll elements render greedy es q).Perm
      (pathsOfAll elements render greedy' (allGreedyAll es) q) := by
  match es with
  | [] => exact .refl _
  | e :: es =>
    exact Trial.onward_perm (paths_perm greedy greedy' e q)
      fun r => pathsOfAll_perm greedy greedy' es r

theorem pathsOfSome_perm (greedy greedy' : Bool) (es : List Expr) (q : Path) :
    (pathsOfSome elements render greedy es q).Perm
      (pathsOfSome elements render greedy' (allGreedyAll es) q) := by
  match es with
  | [] => exact .refl _
  | e :: es => exact (paths_perm greedy greedy' e q).append (pathsOfSome_perm greedy greedy' es q)

end

end Expr

end Paths

/-! ## Searches -/

theorem Pattern.groupCount_eq_of_allGreedy_eq {source source' : String} {root root' : Expr}
    {p p' : Pattern} (h : root.allGreedy = root'.allGreedy) (hp : ofExpr source root = .ok p)
    (hp' : ofExpr source' root' = .ok p') : p.groupCount = p'.groupCount := by
  have hgroups : root.groups = root'.groups := by
    rw [← root.groups_allGreedy, h, root'.groups_allGreedy]
  have bound {source : String} {root : Expr} {p : Pattern}
      (hp : ofExpr source root = .ok p) : p.groupCount = groupBound root.groups := by
    unfold ofExpr ofCounted at hp
    split at hp
    · cases hp
    · cases hp
      rfl
  rw [bound hp, bound hp', hgroups]

namespace Answer

/-- A function of the caller failed. -/
def Fails (a : Answer) : Prop := ∃ err, a.result = .error (.predicate err)

/-- The start of the match if there is one. -/
def start? (a : Answer) : Except MatchError (Option Nat) :=
  a.result.map (Option.map fun m => m.span.start)

theorem start_eq_none_iff {a : Answer} : a.start? = .ok none ↔ a.result = .ok none := by
  unfold start?
  obtain e | _ | m := a.result
  · constructor <;> intro h <;> cases h
  · exact ⟨fun _ => rfl, fun _ => rfl⟩
  · constructor <;> intro h <;> cases h

end Answer

namespace Search

/-- Searches in one sequence, for patterns that differ only in greed. -/
structure SameButGreed (s s' : Search) : Prop where
  root_eq : s.pattern.root.allGreedy = s'.pattern.root.allGreedy
  groupCount_eq : s.pattern.groupCount = s'.pattern.groupCount
  elements_eq : s.elements = s'.elements
  render_eq : s.render = s'.render

variable {s s' : Search}

theorem SameButGreed.pathsFrom_perm (h : s.SameButGreed s') (p : Nat) :
    (s.pattern.pathsFrom s.elements s.render p).Perm
      (s'.pattern.pathsFrom s'.elements s'.render p) := by
  rw [Pattern.pathsFrom, Pattern.pathsFrom, h.groupCount_eq, h.elements_eq, h.render_eq]
  refine (Expr.paths_perm true true _ _).trans ?_
  rw [h.root_eq]
  exact (Expr.paths_perm true true _ _).symm

/-! ### Answers -/

section Answers

variable {stop : Option Nat} {p : Nat} {ps : List Nat}

theorem attempts_cons_of_none (hs : s.options.maxSteps = none)
    (h : (s.attempts stop [p]).result = .ok none) :
    (s.attempts stop (p :: ps)).result = (s.attempts stop ps).result := by
  rw [attempts_result_cons hs, h]

theorem attempts_cons_of_ne_none (hs : s.options.maxSteps = none)
    (h : (s.attempts stop [p]).result ≠ .ok none) :
    (s.attempts stop (p :: ps)).result = (s.attempts stop [p]).result := by
  rw [attempts_result_cons hs]
  revert h
  generalize (s.attempts stop [p]).result = r
  obtain e | _ | m := r
  · exact fun _ => rfl
  · exact fun h => absurd rfl h
  · exact fun _ => rfl

theorem not_fails_head (hs : s.options.maxSteps = none) (hf : ¬ (s.attempts stop (p :: ps)).Fails) :
    ¬ (s.attempts stop [p]).Fails := by
  rintro ⟨err, he⟩
  have hne : (s.attempts stop [p]).result ≠ .ok none := by
    rw [he]
    exact fun h => by cases h
  exact hf ⟨err, (attempts_cons_of_ne_none hs hne).trans he⟩

variable (h : s.SameButGreed s') (hs : s.options.maxSteps = none)
  (hs' : s'.options.maxSteps = none)

include h hs hs'

theorem start_attempts_singleton (hf : ¬ (s.attempts stop [p]).Fails)
    (hf' : ¬ (s'.attempts stop [p]).Fails) :
    (s.attempts stop [p]).start? = (s'.attempts stop [p]).start? := by
  have hperm := h.pathsFrom_perm p
  rw [Answer.Fails, attempts_singleton hs] at hf
  rw [Answer.Fails, attempts_singleton hs'] at hf'
  rw [Answer.start?, Answer.start?, attempts_singleton hs, attempts_singleton hs']
  cases hfind : (s.pattern.pathsFrom s.elements s.render p).find? (Trial.decides stop) with
  | none =>
    have hfind' : (s'.pattern.pathsFrom s'.elements s'.render p).find? (Trial.decides stop) =
        none := by
      rw [List.find?_eq_none] at hfind ⊢
      exact fun t ht => hfind t (hperm.mem_iff.2 ht)
    rw [hfind']
  | some t =>
    cases hfind' : (s'.pattern.pathsFrom s'.elements s'.render p).find? (Trial.decides stop) with
    | none =>
      have ht := hperm.mem_iff.1 (List.mem_of_find?_eq_some hfind)
      exact absurd (List.find?_some hfind) (List.find?_eq_none.1 hfind' t ht)
    | some t' =>
      rw [hfind] at hf
      rw [hfind'] at hf'
      obtain e | q := t
      · exact absurd ⟨e, rfl⟩ hf
      · obtain e | q' := t'
        · exact absurd ⟨e, rfl⟩ hf'
        · rfl

/-- **Whatever positions are tried, greed does not decide where there is a match.** -/
theorem start_attempts (hf : ¬ (s.attempts stop ps).Fails) (hf' : ¬ (s'.attempts stop ps).Fails) :
    (s.attempts stop ps).start? = (s'.attempts stop ps).start? := by
  induction ps with
  | nil => rfl
  | cons p ps ih =>
    have hhead := start_attempts_singleton h hs hs' (not_fails_head hs hf) (not_fails_head hs' hf')
    by_cases hn : (s.attempts stop [p]).result = .ok none
    · have hn' := Answer.start_eq_none_iff.1 (hhead.symm.trans (Answer.start_eq_none_iff.2 hn))
      rw [Answer.Fails, attempts_cons_of_none hs hn] at hf
      rw [Answer.Fails, attempts_cons_of_none hs' hn'] at hf'
      rw [Answer.start?, Answer.start?, attempts_cons_of_none hs hn, attempts_cons_of_none hs' hn']
      exact ih hf hf'
    · have hn' : (s'.attempts stop [p]).result ≠ .ok none := fun hn' =>
        hn (Answer.start_eq_none_iff.1 (hhead.trans (Answer.start_eq_none_iff.2 hn')))
      rw [Answer.start?, Answer.start?, attempts_cons_of_ne_none hs hn,
        attempts_cons_of_ne_none hs' hn']
      exact hhead

end Answers

/-! ### Operations -/

theorem error_not_mem_pathsFrom
    (hf : ∀ f ∈ s.pattern.root.functions, ∀ x ∈ s.elements, ∃ v, f.eval x = .ok v) (p : Nat)
    (err : PredicateError) : .error err ∉ s.pattern.pathsFrom s.elements s.render p := by
  intro hmem
  obtain ⟨f, hmem, i, x, -, hx, he⟩ := Expr.failsFrom_of_error true _ hmem
  obtain ⟨v, hv⟩ := hf f hmem x (Array.mem_of_getElem? hx)
  rw [hv] at he
  cases he

theorem not_fails_attempts (hs : s.options.maxSteps = none)
    (hno : ∀ p err, .error err ∉ s.pattern.pathsFrom s.elements s.render p) (stop : Option Nat)
    (ps : List Nat) : ¬ (s.attempts stop ps).Fails := by
  rintro ⟨err, he⟩
  obtain ⟨p, -, err, -, hmem⟩ := exists_error_of_attempts hs he
  exact hno p err hmem

section Unfailing

variable (h : s.SameButGreed s') (hs : s.options.maxSteps = none)
  (hs' : s'.options.maxSteps = none)
  (hf : ∀ f ∈ s.pattern.root.functions, ∀ x ∈ s.elements, ∃ v, f.eval x = .ok v)

include h hs hs' hf

theorem start_attempts_of_unfailing (stop : Option Nat) (ps : List Nat) :
    (s.attempts stop ps).start? = (s'.attempts stop ps).start? := by
  have hno := error_not_mem_pathsFrom hf
  have hno' (p : Nat) (err : PredicateError) :
      .error err ∉ s'.pattern.pathsFrom s'.elements s'.render p :=
    fun hmem => hno p err ((h.pathsFrom_perm p).mem_iff.2 hmem)
  exact start_attempts h hs hs' (not_fails_attempts hs hno stop ps)
    (not_fails_attempts hs' hno' stop ps)

theorem start_find (hx : s.exhausted = false) (hx' : s'.exhausted = false)
    (hc : s.cursor = s'.cursor) : s.find.start? = s'.find.start? := by
  have hlen : s.length = s'.length := congrArg Array.size h.elements_eq
  rw [Answer.start?, Answer.start?, find_result hx, find_result hx', hc, hlen]
  exact start_attempts_of_unfailing h hs hs' hf _ _

end Unfailing

/-- **Greed decides which match is found, not whether there is one.** -/
theorem greed_keeps_starts (h : s.SameButGreed s') (hs : s.options.maxSteps = none)
    (hs' : s'.options.maxSteps = none) :
    ((∀ f ∈ s.pattern.root.functions, ∀ x ∈ s.elements, ∃ v, f.eval x = .ok v) →
      (∀ p, (s.matchAt p).start? = (s'.matchAt p).start?) ∧
        s.matchWhole.start? = s'.matchWhole.start? ∧
        ∀ p, (s.findFrom p).start? = (s'.findFrom p).start?) ∧
    ∀ stop ps, ¬ (s.attempts stop ps).Fails → ¬ (s'.attempts stop ps).Fails →
      (s.attempts stop ps).start? = (s'.attempts stop ps).start? := by
  refine ⟨fun hf => ⟨fun p => ?_, ?_, fun p => ?_⟩, fun stop ps => start_attempts h hs hs'⟩
  all_goals have hlen : s.length = s'.length := congrArg Array.size h.elements_eq
  · rw [matchAt, matchAt, hlen]
    by_cases hp : s'.length < p
    · rw [if_pos hp, if_pos hp]
      rfl
    · rw [if_neg hp, if_neg hp]
      exact start_attempts_of_unfailing h hs hs' hf _ _
  · rw [matchWhole, matchWhole, hlen]
    exact start_attempts_of_unfailing h hs hs' hf _ _
  · rw [findFrom, findFrom, hlen]
    by_cases hp : s'.length < p
    · rw [if_pos hp, if_pos hp]
      rfl
    · rw [if_neg hp, if_neg hp]
      have h₀ : SameButGreed { s with cursor := p, exhausted := false }
        { s' with cursor := p, exhausted := false } := ⟨h.1, h.2, h.3, h.4⟩
      exact start_find h₀ hs hs' hf rfl rfl rfl

/-- As many elements as possible in one pattern, and as few as possible in the other. -/
theorem greed_keeps_starts_of_run :
    let f : NodeFunction := ⟨"f", fun _ => .ok .accept, false⟩
    let root (greedy : Bool) : Expr :=
      .group (.iterate (.node (.custom f)) 1 none greedy) (some 1) none
    let s (greedy : Bool) : Search := {
      pattern := .build "" (root greedy) [] 2
      elements := #[⟨"a", fun _ => none⟩, ⟨"b", fun _ => none⟩] }
    (s true).SameButGreed (s false) ∧
      (∀ g ∈ (root true).functions, ∀ x ∈ (s true).elements, ∃ v, g.eval x = .ok v) ∧
      ((s true).matchAt 0).result.map (Option.map (·.span)) = .ok (some ⟨0, 2⟩) ∧
      ((s false).matchAt 0).result.map (Option.map (·.span)) = .ok (some ⟨0, 1⟩) ∧
      (∀ p, ((s true).matchAt p).start? = ((s false).matchAt p).start?) ∧
      (s true).matchWhole.start? = (s false).matchWhole.start? ∧
      ∀ p, ((s true).findFrom p).start? = ((s false).findFrom p).start? := by
  intro f root s
  have hp (greedy : Bool) : Pattern.ofExpr "" (root greedy) = .ok (s greedy).pattern := rfl
  have hroot : (root true).allGreedy = (root false).allGreedy := rfl
  have h : (s true).SameButGreed (s false) :=
    ⟨hroot, Pattern.groupCount_eq_of_allGreedy_eq hroot (hp true) (hp false), rfl, rfl⟩
  have hf : ∀ g ∈ (root true).functions, ∀ x ∈ (s true).elements, ∃ v, g.eval x = .ok v := by
    intro g hg x _
    cases List.mem_singleton.1 hg
    exact ⟨.accept, rfl⟩
  exact ⟨h, hf, by cbv, by cbv, (greed_keeps_starts h rfl rfl).1 hf⟩

end Search

end Motif
