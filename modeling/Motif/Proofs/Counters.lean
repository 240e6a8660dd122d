import Motif.Proofs.Alone
import Motif.Proofs.Choices

/-!
# Counters

A step may take many choices from the stack, but it puts at most one there, and the last step of a
run puts none. So a run takes more steps than it takes up choices, however often the lengths of one
run of elements are tried, and the counters of a search stay in proportion, whatever it is asked and
wherever it fails.

* `Step.Pays`, **`Task.pays_step`**: what a step takes from the stack, and what it leaves there.
* `Account.Outruns`, **`Task.outruns_run`**: a run takes more steps than choices.
* `Metrics.Consistent`, `Search.Tries.consistent`: the counters of a search.
* `Harvest.Balanced`: those of several searches.
* **`counters_are_consistent`**: the counters after all operations, and those of an ensemble.
-/

namespace Motif

/-! ## Steps -/

/-- Where `n` choices are open, a step takes no more of them than there are. If the run goes on, it
has left one at most. -/
def Step.Pays (n : Nat) (st : Step) : Prop :=
  match st.progress with
  | .running c => st.backtracks + c.stack.length ≤ n + 1
  | .finished _ => st.backtracks ≤ n

/-- **Every step pays** for the choices that it takes up with those that were open. -/
theorem Task.pays_step (t : Task) (c : Config) : (t.step c).Pays c.stack.length := by
  unfold Step.Pays
  split
  · next c' h =>
    obtain ⟨hle, hgrows⟩ := grows_step h
    have hlen := hgrows.length_le
    rw [resumed, Config.length_stack_iterate_back] at hlen
    omega
  · next o h =>
    have := backtracks_of_finished h
    omega

/-! ## Runs -/

/-- From one account to a later one, more steps were added than choices, by `k` at least. -/
def Account.Outruns (k : Nat) (a b : Account) : Prop :=
  b.backtracks + a.steps + k ≤ b.steps + a.backtracks

theorem Account.Outruns.trans {k l : Nat} {a b c : Account} (h : a.Outruns k b)
    (h' : b.Outruns l c) : a.Outruns (k + l) c := by
  unfold Outruns at *
  omega

/-- **A run takes more steps than it takes up choices**, but for those that were open before. -/
theorem Task.outruns_run {t : Task} (limit : Option Nat) (a : Account)
    (c : { c : Config // t.Halts c }) :
    let r := t.run limit a c
    r.account.backtracks + a.steps + 1 ≤ r.account.steps + a.backtracks + c.1.stack.length := by
  obtain ⟨c, hc⟩ := c
  induction hc generalizing a with
  | intro c hc ih =>
    have hpays := t.pays_step c
    unfold Step.Pays at hpays
    by_cases hl : limit.any (· < a.steps + 1) = true
    · rw [run_of_limit hl]
      dsimp only
      omega
    · cases hp : (t.step c).progress with
      | running c' =>
        have := ih c' hp (a.add (t.step c))
        rw [hp] at hpays
        rw [run_of_running hl hp]
        simp only [Account.add] at this hpays ⊢
        omega
      | finished o =>
        rw [hp] at hpays
        rw [run_of_finished hl hp]
        simp only [Account.add] at hpays ⊢
        omega

theorem Pattern.outruns_attempt (p : Pattern) (elements : Array Element)
    (render : List Element → String) (stop limit : Option Nat) (a : Account) (start : Nat)
    (b : Buffers) :
    a.Outruns 1 (p.attempt elements render stop limit a start b).account := by
  have h := Task.outruns_run (t := p.task elements render stop) limit a
    ⟨p.entry start b, p.halts_entry elements render stop start b⟩
  have hstack : (p.entry start b).stack = [] := by rw [entry_eq]
  dsimp only at h
  rw [hstack] at h
  exact h

/-! ## Searches -/

/-- Counts that fit each other: positions that were tried and choices that were taken up took steps,
and matches took positions. -/
structure Metrics.Consistent (m : Metrics) : Prop where
  attempts_le : m.attempts + m.backtracks ≤ m.steps
  found_le : m.found ≤ m.attempts

namespace Metrics.Consistent

theorem zero : Consistent {} := ⟨Nat.le_refl 0, Nat.le_refl 0⟩

theorem add {a b : Metrics} (h : a.Consistent) (h' : b.Consistent) : (a.add b).Consistent := by
  obtain ⟨hsteps, hfound⟩ := h
  obtain ⟨hsteps', hfound'⟩ := h'
  constructor <;> simp only [Metrics.add] <;> omega

end Metrics.Consistent

namespace Search

variable {s s' : Search}

/-- **Each position that is tried takes a step more than choices**, and a match is found at one of
them. -/
theorem outruns_tryAll (stop : Option Nat) (n : Nat) (a : Account) (b : Buffers) (ps : List Nat) :
    let t := s.tryAll stop n a b ps
    ∃ k, t.attempts = n + k ∧ a.Outruns k t.account ∧ ∀ x, t.result = .ok (some x) → 0 < k := by
  induction ps generalizing n a b with
  | nil =>
    have hnone : a.Outruns 0 a := Nat.le_of_eq (Nat.add_comm a.backtracks a.steps)
    exact ⟨0, rfl, hnone, fun x hx => by cases hx⟩
  | cons p ps ih =>
    have hrun := s.pattern.outruns_attempt s.elements s.render stop s.options.maxSteps a p {}
    rw [tryAll_cons]
    dsimp only
    split
    · exact ⟨1, rfl, hrun, fun _ _ => Nat.one_pos⟩
    · obtain ⟨k, hk, hrest, -⟩ := ih (n + 1)
        (s.pattern.attempt s.elements s.render stop s.options.maxSteps a p).account
        (s.pattern.attempt s.elements s.render stop s.options.maxSteps a p).buffers
      exact ⟨1 + k, by rw [hk, Nat.add_assoc], hrun.trans hrest, fun _ _ => by omega⟩
    · exact ⟨1, rfl, hrun, fun _ _ => Nat.one_pos⟩
    · exact ⟨1, rfl, hrun, fun _ _ => Nat.one_pos⟩

theorem exists_cost_attempts (s : Search) (stop : Option Nat) (ps : List Nat) :
    ∃ cost : Metrics, (s.attempts stop ps).search.metrics = s.metrics.add cost ∧
      cost.Consistent ∧ cost.found = (s.attempts stop ps).found.length := by
  obtain ⟨k, hk, houtruns, hfound⟩ := s.outruns_tryAll stop 0 {} s.buffers ps
  unfold attempts conclude
  dsimp only [Account.Outruns] at hk houtruns hfound ⊢
  generalize s.tryAll stop 0 {} s.buffers ps = t at hk houtruns hfound ⊢
  have hcost : t.attempts + t.account.backtracks ≤ t.account.steps := by omega
  split
  · exact ⟨_, rfl, ⟨hcost, Nat.zero_le _⟩, rfl⟩
  · exact ⟨_, rfl, ⟨hcost, Nat.zero_le _⟩, rfl⟩
  · next hr =>
    have := hfound _ hr
    refine ⟨⟨t.account.steps, t.account.backtracks, t.attempts, 1⟩, rfl, ⟨hcost, ?_⟩, rfl⟩
    change 1 ≤ t.attempts
    omega

/-- **Trying positions keeps the counters in proportion**, and each match is counted. -/
theorem Tries.consistent {as : List Answer} (h : s.Tries as s') (hs : s.metrics.Consistent) :
    s'.metrics.Consistent ∧
      s'.metrics.found = s.metrics.found + (as.flatMap (·.found)).length := by
  induction h with
  | nil => exact ⟨hs, rfl⟩
  | move h _ ih =>
    rw [h.metrics_eq] at hs ⊢
    exact ih hs
  | @attempt s s' as stop ps _ _ ih =>
    obtain ⟨cost, hadd, hcost, hfound⟩ := s.exists_cost_attempts stop ps
    rw [hadd] at ih
    obtain ⟨hconsistent, htotal⟩ := ih (hs.add hcost)
    refine ⟨hconsistent, ?_⟩
    rw [htotal, Metrics.found_add, hfound, List.flatMap_cons, List.length_append, Nat.add_assoc]

/-- **The counters of a search fit each other after all operations**, and each match is counted,
also as a number that is used up. -/
theorem consistent_after (hs : s.metrics.Consistent) (ops : List Operation) :
    (s.after ops).metrics.Consistent ∧
      (s.after ops).metrics.found =
        s.metrics.found + ((s.session ops).flatMap (·.found)).length ∧
      (s.after ops).produced = s.produced + ((s.session ops).flatMap (·.found)).length := by
  induction ops generalizing s with
  | nil => exact ⟨hs, rfl, rfl⟩
  | cons op ops ih =>
    obtain ⟨as, ht, hfound, -⟩ := s.comes_perform op
    obtain ⟨hconsistent, hcount⟩ := ht.consistent hs
    obtain ⟨hlast, htotal, hproduced⟩ := ih hconsistent
    rw [after_cons, session, List.flatMap_cons, List.length_append, hfound]
    refine ⟨hlast, ?_, ?_⟩
    · rw [htotal, hcount, Nat.add_assoc]
    · rw [hproduced, ht.order.2, Nat.add_assoc]

theorem consistent_findAll (hs : s.metrics.Consistent) :
    s.findAll.search.metrics.Consistent ∧
      s.findAll.search.metrics.found = s.metrics.found + s.findAll.found.length := by
  obtain ⟨as, ht, hfound, -⟩ := comes_take (s.length + 2) s.reset
  rw [findAll, hfound]
  exact ht.consistent hs

end Search

/-! ## Ensembles -/

/-- The counters of a harvest fit each other, and every match that was counted has been added or was
known. -/
structure Harvest.Balanced (h : Harvest) : Prop where
  consistent : h.search.Consistent
  found_eq : h.search.found = h.candidates.length + h.duplicates

theorem Harvest.length_insertAll (h : Harvest) (id artifact : Nat) (ms : List Match) :
    (h.insertAll id artifact ms).candidates.length + (h.insertAll id artifact ms).duplicates =
        h.candidates.length + h.duplicates + ms.length ∧
      (h.insertAll id artifact ms).search = h.search := by
  induction ms generalizing h with
  | nil => exact ⟨rfl, rfl⟩
  | cons m ms ih =>
    obtain ⟨hlength, hsearch⟩ := ih (h.insert id artifact m)
    have hone : (h.insert id artifact m).candidates.length + (h.insert id artifact m).duplicates =
        h.candidates.length + h.duplicates + 1 ∧ (h.insert id artifact m).search = h.search := by
      unfold insert
      dsimp only
      split
      · exact ⟨rfl, rfl⟩
      · refine ⟨?_, rfl⟩
        simp only [List.length_append, List.length_singleton]
        omega
    rw [List.length_cons]
    refine ⟨?_, hsearch.trans hone.2⟩
    change ((h.insert id artifact m).insertAll id artifact ms).candidates.length +
      ((h.insert id artifact m).insertAll id artifact ms).duplicates = _
    omega

/-- **Adding the matches of one pattern after the other keeps the balance.** -/
theorem Ensemble.balanced_collectFrom {e : Ensemble} {elements : Array Element}
    {ps : List (Registration × Nat)} {h h' : Harvest} (hb : h.Balanced)
    (hok : (e.collectFrom elements h ps).1 = .ok h') : h'.Balanced := by
  induction ps generalizing h with
  | nil =>
    cases hok
    exact hb
  | cons p ps ih =>
    obtain ⟨r, id⟩ := p
    rw [collectFrom] at hok
    dsimp only at hok
    split at hok
    · cases hok
    · obtain ⟨hconsistent, hfound⟩ :=
        Search.consistent_findAll (s := e.search elements r) .zero
      obtain ⟨hlength, hsearch⟩ :=
        h.length_insertAll id r.artifact (e.search elements r).findAll.found
      -- The counters of the new search start at zero, and its matches are those that are added.
      refine ih ⟨?_, ?_⟩ hok
      · change ((h.insertAll id r.artifact _).search.add _).Consistent
        rw [hsearch]
        exact hb.consistent.add hconsistent
      · change (h.insertAll id r.artifact _).search.found + _ =
          (h.insertAll id r.artifact _).candidates.length +
            (h.insertAll id r.artifact _).duplicates
        rw [hlength, hsearch, hfound, hb.found_eq]
        exact congrArg (_ + ·) (Nat.zero_add _)

/-- **The counters are consistent**, whatever was asked, under any limits and with any failures, for
a search and for an ensemble. -/
theorem counters_are_consistent (pattern : Pattern) (elements : Array Element) (options : Options)
    (render : List Element → String) (ops : List Operation) :
    let s : Search := { pattern, elements, options, render }
    (s.after ops).metrics.Consistent ∧
    (s.after ops).metrics.found = ((s.session ops).flatMap (·.found)).length ∧
    (s.after ops).produced = (s.after ops).metrics.found ∧
    ∀ (e : Ensemble) (chain : Chain) (elements : Array Element) (run : EnsembleRun),
      (e.run chain elements).1 = .ok run →
        run.metrics.search.Consistent ∧
        run.metrics.search.found = run.metrics.candidates + run.metrics.duplicates := by
  intro s
  obtain ⟨hconsistent, hfound, hproduced⟩ := Search.consistent_after (s := s) .zero ops
  refine ⟨hconsistent, ?_, hproduced.trans hfound.symm, ?_⟩
  · rw [hfound]
    exact Nat.zero_add _
  · intro e chain elements run hrun
    rw [Ensemble.run] at hrun
    cases hcollect : (e.collect elements).1 with
    | error err =>
      simp only [hcollect] at hrun
      cases hrun
    | ok h =>
      simp only [hcollect] at hrun
      cases hrun
      have hb : h.Balanced := Ensemble.balanced_collectFrom ⟨.zero, rfl⟩ hcollect
      exact ⟨hb.consistent, hb.found_eq⟩

/-- A word that repeats in front of another one: all matches, asked for again with too few steps, and
the same pattern registered twice. -/
theorem counters_are_consistent_of_repeated_word :
    let word (w : String) : Expr := .node (.attr .text (.equality w false))
    let root : Expr := .sequence [.iterate (word "a") 0 none true, word "b"]
    let pattern : Pattern := .build "" root [] 1
    let elements : Array Element :=
      #[⟨"a", fun _ => none⟩, ⟨"a", fun _ => none⟩, ⟨"b", fun _ => none⟩]
    let s : Search := { pattern, elements }
    let ops : List Operation := [.findAll none, .setOptions { maxSteps := some 3 }, .findAll none]
    let e : Ensemble := { registrations := [⟨pattern, 0⟩, ⟨pattern, 0⟩] }
    (s.after ops).metrics = ⟨19, 2, 3, 1⟩ ∧ (s.after ops).metrics.Consistent ∧
      ∃ run, (e.run .standard elements).1 = .ok run ∧
        run.metrics.search = ⟨30, 4, 4, 2⟩ ∧ run.metrics.search.Consistent := by
  intro word root pattern elements s ops e
  have hmetrics : (s.after ops).metrics = ⟨19, 2, 3, 1⟩ := by cbv
  have hsearch : (e.run .standard elements).1.map (·.metrics.search) = .ok ⟨30, 4, 4, 2⟩ := by cbv
  obtain ⟨hconsistent, -, -, hsums⟩ := counters_are_consistent pattern elements {} joinTexts ops
  cases h : (e.run .standard elements).1 with
  | error err => rw [h] at hsearch; cases hsearch
  | ok run =>
    rw [h] at hsearch
    exact ⟨hmetrics, hconsistent, run, rfl, Except.ok.inj hsearch,
      (hsums e .standard elements run h).1⟩

end Motif
