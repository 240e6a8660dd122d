import Motif.Machine.Layout
import Motif.Path

/-!
# The machine explores the paths of an expression

A run of a lowered expression ends, and it ends with the first of the expression's paths that may
end the match. The argument goes through the code part by part: from the start of a part the run
finds what comes of the paths of the part, one after the other, provided that it does so from the
end of the part on, and that it finds a given `last` once the part has failed. Within a repetition
each iteration either counts towards the minimum or consumes an element.

* `Task.Yields`, `Task.Halts`: how a run ends, and that it does.
* `Task.Falls`: whatever happens, the open choices lead to a given end.
* `explore`: what comes of trying paths one after the other.
* `Task.Delivers`: the argument for one part of the code.
* `Task.finds_lower`, `Task.halts_lower`: every run of a lowered expression ends, and how.
-/

namespace Motif

/-- The path that an outcome reports, or the failure. -/
def Outcome.trial? : Outcome → Option Trial
  | accepted stop s => some (.ok ⟨stop, s.slots, s.trail⟩)
  | rejected => none
  | failed e => some (.error e)

/-- The configuration stands where a path has come to. -/
structure Config.At (c : Config) (q : Path) : Prop where
  pos_eq : c.pos = q.pos
  slots_eq : c.store.slots = q.slots
  trail_eq : c.store.trail = q.notes

/-! ## Trying paths one after the other -/

/-- What comes of trying paths one after the other, if `k` comes of a path and `last` of none. -/
def explore (k : Path → Option Trial → Option Trial) (last : Option Trial) :
    List Trial → Option Trial
  | [] => last
  | .error e :: _ => some (.error e)
  | .ok q :: ts => k q (explore k last ts)

section Explore

variable (k : Path → Option Trial → Option Trial) (last : Option Trial)

theorem explore_append (ts us : List Trial) :
    explore k last (ts ++ us) = explore k (explore k last us) ts := by
  induction ts with
  | nil => rfl
  | cons t ts ih =>
    cases t with
    | error e => rfl
    | ok q => rw [List.cons_append, explore, explore, ih]

theorem explore_onward (f : Path → List Trial) (ts : List Trial) :
    explore k last (Trial.onward ts f) = explore (fun q l => explore k l (f q)) last ts := by
  induction ts with
  | nil => rfl
  | cons t ts ih =>
    cases t with
    | error e => rfl
    | ok q =>
      have : Trial.onward (.ok q :: ts) f = f q ++ Trial.onward ts f := rfl
      rw [this, explore_append, ih, explore]

theorem explore_decides (stop : Option Nat) (ts : List Trial) :
    explore (fun q l => if stop.all (· == q.pos) then some (.ok q) else l) none ts =
      ts.find? (Trial.decides stop) := by
  induction ts with
  | nil => rfl
  | cons t ts ih =>
    cases t with
    | error e => rfl
    | ok q =>
      rw [explore, ih, List.find?_cons]
      cases h : stop.all (· == q.pos) <;> simp [Trial.decides, h]

end Explore

namespace Task

variable (t : Task)

/-! ## How runs end -/

/-- The machine goes from `c` to `c'` in one step. -/
def Follows (c' c : Config) : Prop := (t.step c).progress = .running c'

/-- The run from a configuration ends. -/
def Halts (c : Config) : Prop := Acc t.Follows c

/-- The run from a configuration ends with an outcome. -/
inductive Yields : Config → Outcome → Prop where
  | finish {c : Config} {o : Outcome} (h : (t.step c).progress = .finished o) : Yields c o
  | proceed {c c' : Config} {o : Outcome} (h : (t.step c).progress = .running c')
    (h' : Yields c' o) : Yields c o

/-- The run from a configuration ends, and reports a trial or nothing. -/
def Finds (c : Config) (r : Option Trial) : Prop := ∃ o, t.Yields c o ∧ o.trial? = r

/-- What a run finds that has come so far. -/
def Leads (p : Progress) (r : Option Trial) : Prop :=
  match p with
  | .running c => t.Finds c r
  | .finished o => o.trial? = r

/-- Whatever happens from the store `s` on, the open choices lead to `r`. -/
def Falls (s : Store) (stack : List Choice) (r : Option Trial) : Prop :=
  ∀ s', s.Prior s' → t.Leads (t.backtrack s' stack).progress r

variable {t} {c c' : Config} {o o' : Outcome} {r : Option Trial}

theorem Halts.next (h : t.Halts c) (hc : (t.step c).progress = .running c') : t.Halts c' :=
  h.inv hc

theorem Yields.halts (h : t.Yields c o) : t.Halts c := by
  induction h with
  | finish h => exact Acc.intro _ fun c' hc' => by rw [Follows, h] at hc'; cases hc'
  | proceed h _ ih => exact Acc.intro _ fun c' hc' => by rw [Follows, h] at hc'; cases hc'; exact ih

/-- **A run ends in one way only.** -/
theorem Yields.unique (h : t.Yields c o) (h' : t.Yields c o') : o = o' := by
  induction h with
  | finish h =>
    cases h' with
    | finish h₁ => rw [h] at h₁; cases h₁; rfl
    | proceed h₁ _ => rw [h] at h₁; cases h₁
  | proceed h _ ih =>
    cases h' with
    | finish h₁ => rw [h] at h₁; cases h₁
    | proceed h₁ h₂ => rw [h] at h₁; cases h₁; exact ih h₂

theorem finds_of_leads (h : t.Leads (t.step c).progress r) : t.Finds c r := by
  cases hp : (t.step c).progress with
  | running c' =>
    rw [hp] at h
    obtain ⟨o, ho, hr⟩ := h
    exact ⟨o, .proceed hp ho, hr⟩
  | finished o =>
    rw [hp] at h
    exact ⟨o, .finish hp, h⟩

theorem falls_nil (s : Store) : t.Falls s [] none := fun _ _ => rfl

theorem Falls.mono {s s' : Store} {stack : List Choice} (h : t.Falls s stack r) (hs : s.Prior s') :
    t.Falls s' stack r := fun s'' hs' => h s'' (hs.trans hs')

theorem Falls.fail (h : t.Falls c.store c.stack r) : t.Leads (t.fail c).progress r :=
  h c.store (.refl _)

theorem Falls.push (re : Resume) {go : Config → Config} (ho : t.offer? c.pos re = some go)
    (h : t.Finds (go ⟨0, c.pos, c.store, c.stack⟩) r) :
    t.Falls (c.push re).store (c.push re).stack r := by
  intro s' hs
  have hs : s'.rollback c.store.undo.size c.store.trail.size = c.store :=
    Store.Prior.rollback_self hs
  simp only [Config.push, Config.choice, backtrack, hs, ho]
  exact h

theorem Falls.push_none (re : Resume) (ho : t.offer? c.pos re = none)
    (h : t.Falls c.store c.stack r) : t.Falls (c.push re).store (c.push re).stack r := by
  intro s' hs
  have hs : s'.rollback c.store.undo.size c.store.trail.size = c.store :=
    Store.Prior.rollback_self hs
  simp only [Config.push, Config.choice, backtrack, hs, ho]
  exact h.fail

/-! ## The lengths of a run of elements -/

section Lengths

variable (t)

/-- The lengths that are tried from a first one on. -/
def lengths (pos min : Nat) (max : Option Nat) (greedy : Bool) (bound : Option Nat) :
    List Nat :=
  if greedy then spanLengths min (bound.elim (t.reach pos max) (Min.min · (t.reach pos max))) true
  else spanLengths (bound.elim min (Max.max · min)) (t.reach pos max) false

/-- The text of a run matches. -/
def suits (pos : Nat) (text : Regex) (len : Nat) : Bool :=
  text.matchesIn (t.render (t.slice pos len))

variable {t}

theorem spanLength?_eq {pos min : Nat} {max : Option Nat} {text : Regex} {greedy : Bool}
    {bound : Option Nat} :
    t.spanLength? pos min max text greedy bound =
      ((t.lengths pos min max greedy bound).filter (t.suits pos text)).head? := by
  rw [List.head?_filter]
  rfl

theorem tail_spanLengths {lo hi len : Nat} {greedy : Bool} {l₁ l₂ : List Nat}
    (h : spanLengths lo hi greedy = l₁ ++ len :: l₂) :
    lo ≤ len ∧ len ≤ hi ∧
      l₂ = if greedy then (List.range' lo (len - lo)).reverse
        else List.range' (len + 1) (hi - len) := by
  cases greedy with
  | true =>
    have h : List.range' lo (hi + 1 - lo) = l₂.reverse ++ len :: l₁.reverse := by
      have := congrArg List.reverse h
      simpa [spanLengths] using this
    obtain ⟨k, hk, h₂, h₁⟩ := List.range'_eq_append_iff.1 h
    obtain ⟨rfl, hpos, -⟩ := List.range'_eq_cons_iff.1 h₁.symm
    refine ⟨by omega, by omega, ?_⟩
    rw [if_pos rfl, ← List.reverse_reverse l₂, h₂]
    congr 2
    omega
  | false =>
    have h : List.range' lo (hi + 1 - lo) = l₁ ++ len :: l₂ := h
    obtain ⟨k, hk, -, h₂⟩ := List.range'_eq_append_iff.1 h
    obtain ⟨rfl, hpos, h₂⟩ := List.range'_eq_cons_iff.1 h₂.symm
    refine ⟨by omega, by omega, ?_⟩
    rw [h₂, if_neg Bool.false_ne_true]
    congr 1
    omega

theorem filter_lengths {pos min len : Nat} {max : Option Nat} {greedy : Bool} {bound : Option Nat}
    {p : Nat → Bool} {rest : List Nat}
    (h : (t.lengths pos min max greedy bound).filter p = len :: rest) :
    rest = if greedy then
        if min < len then (t.lengths pos min max greedy (some (len - 1))).filter p else []
      else (t.lengths pos min max greedy (some (len + 1))).filter p := by
  obtain ⟨l₁, l₂, hl, -, -, rfl⟩ := List.filter_eq_cons_iff.1 h
  cases greedy with
  | true =>
    rw [lengths, if_pos rfl] at hl
    obtain ⟨hlo, hhi, rfl⟩ := tail_spanLengths hl
    have hhi : len ≤ t.reach pos max := by
      cases bound <;> simp at hhi <;> omega
    rw [if_pos rfl, if_pos rfl]
    by_cases hlt : min < len
    · rw [if_pos hlt]
      have : Min.min (len - 1) (t.reach pos max) + 1 - min = len - min := by omega
      simp [lengths, spanLengths, this]
    · rw [if_neg hlt, show len - min = 0 by omega]
      rfl
  | false =>
    rw [lengths, if_neg Bool.false_ne_true] at hl
    obtain ⟨hlo, hhi, rfl⟩ := tail_spanLengths hl
    have hlo : min ≤ len := by
      cases bound <;> simp at hlo <;> omega
    rw [if_neg Bool.false_ne_true, if_neg Bool.false_ne_true]
    have : Max.max (len + 1) min = len + 1 := by omega
    simp [lengths, spanLengths, this]

theorem filter_lengths_none {pos min : Nat} {max : Option Nat} {text : Regex} {greedy : Bool} :
    (t.lengths pos min max greedy none).filter (t.suits pos text) =
      if greedy then (Trial.spanLengths t.elements t.render min max text pos).reverse
      else Trial.spanLengths t.elements t.render min max text pos := by
  have h : (List.range' min (t.reach pos max + 1 - min)).filter (t.suits pos text) =
      Trial.spanLengths t.elements t.render min max text pos := by
    refine @List.Perm.eq_of_pairwise Nat (· < ·) _ _
      (fun a b _ _ h h' => absurd (Nat.lt_trans h h') (Nat.lt_irrefl _))
      (List.Pairwise.filter _ List.pairwise_lt_range')
      (List.Pairwise.filter _ List.pairwise_lt_range)
      ((List.perm_ext_iff_of_nodup (List.Pairwise.filter _ List.nodup_range')
        (List.Pairwise.filter _ List.nodup_range)).2 fun len => ?_)
    change len ∈ _ ↔ len ∈ Trial.spanLengths t.elements t.render min max text pos
    have hreach : min ≤ len ∧ len < min + (t.reach pos max + 1 - min) ↔
        len ≤ t.elements.size - pos ∧ min ≤ len ∧ max.all (len ≤ ·) = true := by
      cases max <;> simp [reach] <;> omega
    rw [Trial.mem_spanLengths, List.mem_filter, List.mem_range'_1, hreach]
    simp only [suits, slice, and_assoc]
  cases greedy with
  | true => rw [if_pos rfl, ← h, ← List.filter_reverse]; rfl
  | false => exact h

end Lengths

/-! ## A part of the code -/

variable (t)

/-- From an address on, the run finds `k` of the path so far, which is one of some trials, and of
what is found after a failure. -/
def Continues (pc r : Nat) (s : Store) (ts : List Trial)
    (k : Path → Option Trial → Option Trial) : Prop :=
  ∀ (c : Config) (q : Path) (last : Option Trial), .ok q ∈ ts → c.pc = pc → c.At q →
    s.Framed r c.store → t.Falls c.store c.stack last → t.Finds c (k q last)

/-- From where the run enters the part of the code from `pc` to `pc'`, it finds what comes of trying
the paths `f`. -/
def Delivers (pc pc' r r' : Nat) (f : Path → List Trial) : Prop :=
  ∀ (c : Config) (q : Path) (k : Path → Option Trial → Option Trial) (last : Option Trial),
    c.pc = pc → c.At q → r' ≤ c.store.counters.size → t.Falls c.store c.stack last →
    t.Continues pc' r c.store (f q) k → t.Finds c (explore k last (f q))

variable {t}

theorem Continues.mono {pc r : Nat} {s : Store} {ts us : List Trial}
    {k : Path → Option Trial → Option Trial} (h : t.Continues pc r s ts k)
    (hsub : ∀ q, .ok q ∈ us → .ok q ∈ ts) : t.Continues pc r s us k :=
  fun c q last hq => h c q last (hsub q hq)

namespace Delivers

theorem empty (pc r r' : Nat) : t.Delivers pc pc r r' fun q => [.ok q] := by
  intro c q k last hpc hat _ hf hk
  exact hk c q last (List.mem_singleton.2 rfl) hpc hat (.refl _ _) hf

theorem congr {pc p p' r r₁ r₂ : Nat} {f g : Path → List Trial} (h : t.Delivers pc p r r₁ f)
    (hp : p = p') (hr : r₁ = r₂) (hf : ∀ q, f q = g q) : t.Delivers pc p' r r₂ g := by
  subst hp hr
  rwa [← funext hf]

theorem append {p p' p'' r r' r'' : Nat} {f g : Path → List Trial} (h : t.Delivers p p' r r' f)
    (h' : t.Delivers p' p'' r' r'' g) (hr : r ≤ r') (hr' : r' ≤ r'') :
    t.Delivers p p'' r r'' fun q => Trial.onward (f q) g := by
  intro c q k last hpc hat hsz hf hk
  rw [explore_onward]
  refine h c q _ last hpc hat (Nat.le_trans hr' hsz) hf ?_
  intro c' q' last' hq' hpc' hat' hfr hf'
  refine h' c' q' k last' hpc' hat' (hfr.size_eq ▸ hsz) hf' ?_
  intro c'' q'' last'' hq'' hpc'' hat'' hfr' hf''
  exact hk c'' q'' last'' (Trial.ok_mem_onward.2 ⟨q', hq', hq''⟩) hpc'' hat''
    (hfr.trans (hfr'.mono hr)) hf''

theorem single {pc r : Nat} {i : Instruction} {f : Path → List Trial}
    (hi : t.program.code[pc]? = some i)
    (h : ∀ (c : Config) (q : Path) (k : Path → Option Trial → Option Trial) (last : Option Trial),
      c.pc = pc → c.At q → t.Falls c.store c.stack last →
      t.Continues (pc + 1) r c.store (f q) k →
      t.Leads (t.execute c i).progress (explore k last (f q))) :
    t.Delivers pc (pc + 1) r r f := by
  intro c q k last hpc hat _ hf hk
  apply finds_of_leads
  rw [step_eq (hpc ▸ hi)]
  exact h c q k last hpc hat hf hk

theorem change {pc r : Nat} {i : Instruction} {f : Path → Path} {g : Config → Store}
    (hi : t.program.code[pc]? = some i)
    (hx : ∀ c : Config, (t.execute c i).progress = .running { c.advance 0 with store := g c })
    (hg : ∀ (c : Config) (q : Path), c.At q → Config.At { c.advance 0 with store := g c } (f q))
    (hfr : ∀ c : Config, c.store.Framed r (g c)) :
    t.Delivers pc (pc + 1) r r fun q => [.ok (f q)] := by
  refine single hi ?_
  intro c q k last hpc hat hf hk
  rw [hx]
  exact hk _ (f q) last (List.mem_singleton.2 rfl) (by simp [Config.advance, hpc]) (hg c q hat)
    (hfr c) (hf.mono (hfr c).prior)

/-! ### Single instructions -/

theorem node {pc r : Nat} {p : NodePattern} (hi : t.program.code[pc]? = some (.node p)) :
    t.Delivers pc (pc + 1) r r (Trial.ofNode t.elements p) := by
  refine single hi ?_
  intro c q k last hpc hat hf hk
  unfold Trial.ofNode at hk ⊢
  rw [← hat.pos_eq] at hk ⊢
  unfold execute testNode
  cases he : t.elements[c.pos]? with
  | none => exact hf.fail
  | some e =>
    rw [he] at hk
    dsimp only at hk ⊢
    cases hv : (p.test e).verdict with
    | error err => rfl
    | ok v =>
      rw [hv] at hk
      cases v with
      | reject => exact hf.fail
      | accept =>
        refine hk _ _ last (List.mem_singleton.2 rfl) ?_ ⟨?_, hat.slots_eq, hat.trail_eq⟩
          (.refl _ _) hf
        · simp [Config.advance, hpc]
        · simp [Config.advance, Path.advance, hat.pos_eq]
      | acceptWith v =>
        refine hk _ _ last (List.mem_singleton.2 rfl) ?_ ⟨?_, hat.slots_eq, ?_⟩ (.note _ _ _)
          (hf.mono (.note _ _))
        · simp [Config.advance, hpc]
        · simp [Config.advance, Path.advance, Path.note, hat.pos_eq]
        · simp [Path.advance, Path.note, Store.note, hat.trail_eq]

theorem openGroup {pc r id : Nat} (hi : t.program.code[pc]? = some (.openGroup id)) :
    t.Delivers pc (pc + 1) r r fun q => [.ok (q.openGroup id)] := by
  refine change (g := fun c => (c.store.setSlot (2 * id) (some c.pos)).setSlot (2 * id + 1) none)
    hi (fun _ => rfl) (fun c q hat => ⟨hat.pos_eq, ?_, hat.trail_eq⟩) fun c => ?_
  · simp [Store.setSlot, Path.openGroup, hat.slots_eq, hat.pos_eq]
  · exact (Store.Framed.setSlot r c.store _ _).trans (.setSlot r _ _ _)

theorem closeGroup {pc r id : Nat} (hi : t.program.code[pc]? = some (.closeGroup id)) :
    t.Delivers pc (pc + 1) r r fun q => [.ok (q.closeGroup id)] := by
  refine change (g := fun c => c.store.setSlot (2 * id + 1) (some c.pos)) hi (fun _ => rfl)
    (fun c q hat => ⟨hat.pos_eq, ?_, hat.trail_eq⟩) fun c => .setSlot r c.store _ _
  simp [Store.setSlot, Path.closeGroup, hat.slots_eq, hat.pos_eq]

theorem mark {pc r target : Nat} {action : String}
    (hi : t.program.code[pc]? = some (.mark action target)) :
    t.Delivers pc (pc + 1) r r fun q => [.ok (q.note (.fire action target))] := by
  refine change (g := fun c => c.store.note (.fire action target)) hi (fun _ => rfl)
    (fun c q hat => ⟨hat.pos_eq, hat.slots_eq, ?_⟩) fun c => .note r c.store _
  simp [Store.note, Path.note, hat.trail_eq]

theorem consume {pc r : Nat} {i : Instruction} {f : Path → List Trial} (g : Config → Option Nat)
    (hi : t.program.code[pc]? = some i)
    (hx : ∀ c : Config, t.execute c i = t.proceed c ((g c).map c.advance))
    (hg : ∀ (c : Config) (q : Path), c.At q →
      f q = ((g c).map fun len => .ok (q.advance len)).toList) :
    t.Delivers pc (pc + 1) r r f := by
  refine single hi ?_
  intro c q k last hpc hat hf hk
  rw [hg c q hat] at hk ⊢
  rw [hx]
  cases hl : g c with
  | none => exact hf.fail
  | some len =>
    rw [hl] at hk
    refine hk _ (q.advance len) last (List.mem_singleton.2 rfl) (by simp [Config.advance, hpc])
      ⟨?_, hat.slots_eq, hat.trail_eq⟩ (.refl _ _) hf
    simp [Config.advance, Path.advance, hat.pos_eq]

theorem assert {pc r : Nat} {a : Anchor} (hi : t.program.code[pc]? = some (.assert a)) :
    t.Delivers pc (pc + 1) r r (Trial.ofAnchor t.elements a) := by
  refine consume (fun c => if t.asserts c.pos a then some 0 else none) hi (fun c => ?_)
    fun c q hat => ?_
  · simp only [execute]
    split <;> rfl
  · have hiff : Trial.ofAnchor t.elements a q = if t.asserts c.pos a then [.ok q] else [] := by
      rw [hat.pos_eq]
      cases a <;> rfl
    rw [hiff]
    split <;> rfl

theorem backref {pc r id : Nat} (hi : t.program.code[pc]? = some (.backref id)) :
    t.Delivers pc (pc + 1) r r (Trial.ofBackref t.elements id) := by
  refine consume (fun c => t.repeated? c.store c.pos id) hi (fun _ => rfl) fun c q hat => ?_
  unfold Trial.ofBackref Path.captured? repeated? Store.slot
  rw [hat.slots_eq, hat.pos_eq]
  cases q.slots[2 * id]?.getD none with
  | none => rfl
  | some b =>
    cases q.slots[2 * id + 1]?.getD none with
    | none => rfl
    | some e =>
      dsimp only
      by_cases hbe : b ≤ e
      · have he : b + (e - b) = e := by omega
        have hiff : (q.pos + Span.length ⟨b, e⟩ ≤ t.elements.size ∧
            Trial.texts t.elements ⟨b, e⟩ =
              Trial.texts t.elements ⟨q.pos, q.pos + Span.length ⟨b, e⟩⟩) ↔
            b ≤ e ∧ q.pos + (e - b) ≤ t.elements.size ∧
              (t.slice b (e - b)).map Element.text = (t.slice q.pos (e - b)).map Element.text := by
          simp [hbe, Span.length, Trial.texts, slice, he]
        rw [if_pos hbe]
        dsimp only
        by_cases h : b ≤ e ∧ q.pos + (e - b) ≤ t.elements.size ∧
            (t.slice b (e - b)).map Element.text = (t.slice q.pos (e - b)).map Element.text
        · rw [if_pos h, if_pos (hiff.2 h)]
          rfl
        · rw [if_neg h, if_neg (mt hiff.1 h)]
          rfl
      · rw [if_neg hbe, if_neg fun h => hbe h.1]
        rfl

/-! ### Runs of elements -/

/-- From a length that was taken on, the run finds what comes of it and then, by the choice left
behind, of the later lengths. -/
theorem finds_takeSpan_of_retry {pc r min : Nat} {max : Option Nat} {text : Regex} {greedy : Bool}
    {c : Config} {q : Path} {k : Path → Option Trial → Option Trial} {last : Option Trial}
    (hpc : c.pc = pc) (hat : c.At q) (hf : t.Falls c.store c.stack last) {lens : List Nat}
    {len : Nat} {bound : Option Nat}
    (hlens : (t.lengths c.pos min max greedy bound).filter (t.suits c.pos text) = len :: lens)
    (hk : t.Continues (pc + 1) r c.store ((len :: lens).map fun len => .ok (q.advance len)) k)
    (hretry : ∀ b, lens = (t.lengths c.pos min max greedy (some b)).filter (t.suits c.pos text) →
      t.Falls c.store (c.choice (.retry c.pc b) :: c.stack)
        (explore k last (lens.map fun len => .ok (q.advance len)))) :
    t.Finds (c.takeSpan min greedy len)
      (explore k last ((len :: lens).map fun len => .ok (q.advance len))) := by
  have hgo (stack : List Choice) (last' : Option Trial) (hs : t.Falls c.store stack last') :
      t.Finds ({ c with stack }.advance len) (k (q.advance len) last') := by
    refine hk _ (q.advance len) last' (by simp) (by simp [Config.advance, hpc])
      ⟨?_, hat.slots_eq, hat.trail_eq⟩ (.refl _ _) hs
    simp [Config.advance, Path.advance, hat.pos_eq]
  have hrest := filter_lengths hlens
  cases greedy with
  | true =>
    simp only [Config.takeSpan, if_true] at hrest ⊢
    by_cases hlt : min < len
    · rw [if_pos hlt] at hrest ⊢
      exact hgo _ _ (hretry _ hrest)
    · rw [if_neg hlt] at hrest ⊢
      rw [hrest]
      exact hgo c.stack last hf
  | false =>
    simp only [Config.takeSpan, Bool.false_eq_true, if_false] at hrest ⊢
    exact hgo _ _ (hretry _ hrest)

theorem finds_takeSpan {pc r min : Nat} {max : Option Nat} {text : Regex} {greedy : Bool}
    (hi : t.program.code[pc]? = some (.multi min max text greedy)) {c : Config} {q : Path}
    {k : Path → Option Trial → Option Trial} {last : Option Trial} (hpc : c.pc = pc) (hat : c.At q)
    (hf : t.Falls c.store c.stack last) {lens : List Nat} {len : Nat} {bound : Option Nat}
    (hlens : (t.lengths c.pos min max greedy bound).filter (t.suits c.pos text) = len :: lens)
    (hk : t.Continues (pc + 1) r c.store ((len :: lens).map fun len => .ok (q.advance len)) k) :
    t.Finds (c.takeSpan min greedy len)
      (explore k last ((len :: lens).map fun len => .ok (q.advance len))) := by
  have hoffer {lens : List Nat} (b : Nat)
      (hb : lens = (t.lengths c.pos min max greedy (some b)).filter (t.suits c.pos text)) :
      t.offer? c.pos (.retry c.pc b) =
        lens.head?.map fun l c' => { c' with pc := c.pc }.takeSpan min greedy l := by
    simp only [offer?, hpc, hi, spanLength?_eq, ← hb]
  induction lens generalizing len bound with
  | nil => exact finds_takeSpan_of_retry hpc hat hf hlens hk fun b hb =>
      .push_none _ (hoffer b hb) hf
  | cons l ls ih =>
    refine finds_takeSpan_of_retry hpc hat hf hlens hk fun b hb => .push _ (hoffer b hb) ?_
    exact ih hb.symm (hk.mono fun q' hq' => List.mem_cons_of_mem _ hq')

theorem multi {pc r min : Nat} {max : Option Nat} {text : Regex} {greedy : Bool}
    (hi : t.program.code[pc]? = some (.multi min max text greedy)) :
    t.Delivers pc (pc + 1) r r (Trial.ofMulti t.elements t.render min max text greedy) := by
  refine single hi ?_
  intro c q k last hpc hat hf hk
  have heq : Trial.ofMulti t.elements t.render min max text greedy q =
      ((t.lengths c.pos min max greedy none).filter (t.suits c.pos text)).map
        fun len => .ok (q.advance len) := by
    rw [filter_lengths_none, hat.pos_eq]
    rfl
  rw [heq] at hk ⊢
  simp only [execute, spanLength?_eq]
  cases hl : (t.lengths c.pos min max greedy none).filter (t.suits c.pos text) with
  | nil => exact hf.fail
  | cons len lens =>
    rw [hl] at hk
    exact finds_takeSpan hi hpc hat hf hl hk

/-! ### Repetitions and alternatives -/

section Repetition

variable {pc w r r' min : Nat} {max : Option Nat} {greedy : Bool} {f : Path → List Trial}
  (hbody : t.Delivers (pc + 2) (pc + 2 + w) (r + 1) r' f)
  (hloop : t.program.code[pc + 1]? = some (.loop r min max greedy (pc + w + 3)))
  (hnext : t.program.code[pc + 2 + w]? = some (.next r min (pc + 1))) (hr : r < r')

include hbody hnext hr

/-- One iteration, and what comes behind it. Here the machine asks whether the position has changed,
and the paths whether it has moved on within the sequence. -/
theorem finds_iteration (hahead : ∀ q q', .ok q' ∈ f q → q.Ahead t.elements q')
    {c : Config} {q : Path} {k : Path → Option Trial → Option Trial} {last : Option Trial}
    {count : Nat} {rest : Path → List Trial} (hat : c.At q)
    (hcount : (c.store.counter r).count = count) (hsz : r' ≤ c.store.counters.size)
    {stack : List Choice} (hf : t.Falls c.store stack last)
    (hrest : ∀ (c' : Config) (q' : Path) (last' : Option Trial), .ok q' ∈ f q →
      (count < min ∨ q.pos < q'.pos ∧ q'.pos ≤ t.elements.size) → c'.pc = pc + 1 → c'.At q' →
      (c'.store.counter r).count = count + 1 → c.store.Framed r c'.store →
      t.Falls c'.store c'.stack last' → t.Finds c' (explore k last' (rest q'))) :
    t.Finds ⟨pc + 2, c.pos, c.store.beginIteration r c.pos, stack⟩
      (explore k last (Trial.iteration t.elements f min count rest q)) := by
  have hfr₀ := Store.Framed.beginIteration r c.store c.pos
  unfold Trial.iteration
  rw [explore_onward]
  refine hbody _ q _ last rfl ⟨hat.pos_eq, hat.slots_eq, hat.trail_eq⟩ (hfr₀.size_eq ▸ hsz)
    (hf.mono hfr₀.prior) ?_
  intro c' q' last' hq' hpc' hat' hfr hf'
  have hcounter : c'.store.counter r = ⟨count, c.pos⟩ := by
    rw [hfr.counter_eq r (Nat.lt_succ_self r), ← hcount]
    exact Store.counter_setCounter_self (Nat.lt_of_lt_of_le hr hsz)
  have hfr₁ := hfr₀.trans (hfr.mono (Nat.le_succ r))
  have hsz' : r < c'.store.counters.size := Nat.lt_of_lt_of_le hr (hfr₁.size_eq ▸ hsz)
  have hdead : c'.pos = c.pos ∧ min ≤ count ↔
      ¬ (count < min ∨ q.pos < q'.pos ∧ q'.pos ≤ t.elements.size) := by
    have := hahead q q' hq'
    rw [hat'.pos_eq, hat.pos_eq]
    unfold Path.Ahead at this
    omega
  apply finds_of_leads
  rw [step_eq (hpc' ▸ hnext)]
  simp only [execute, endIteration, hcounter]
  by_cases hgo : count < min ∨ q.pos < q'.pos ∧ q'.pos ≤ t.elements.size
  · rw [if_neg (fun h => hdead.1 h hgo), if_pos hgo]
    refine hrest _ q' last' hq' hgo rfl ⟨hat'.pos_eq, hat'.slots_eq, hat'.trail_eq⟩ ?_
      (hfr₁.trans (.setCounter r _ _)) (hf'.mono (.setCounter _ _ _))
    exact congrArg Counter.count (Store.counter_setCounter_self hsz')
  · rw [if_pos (hdead.2 hgo), if_neg hgo]
    exact hf'.fail

include hloop

theorem finds_head (hahead : ∀ q q', .ok q' ∈ f q → q.Ahead t.elements q')
    {c : Config} {q : Path} {k : Path → Option Trial → Option Trial} {last : Option Trial}
    {count : Nat} (hpc : c.pc = pc + 1) (hat : c.At q)
    (hcount : (c.store.counter r).count = count) (hsz : r' ≤ c.store.counters.size)
    (hf : t.Falls c.store c.stack last)
    (hk : t.Continues (pc + w + 3) r c.store
      (Trial.iterations t.elements f min max greedy count q) k) :
    t.Finds c (explore k last (Trial.iterations t.elements f min max greedy count q)) := by
  have hmem {s : Path} : .ok s ∈ Trial.iterations t.elements f min max greedy count q ↔
      ¬ count < min ∧ s = q ∨ (count < min ∨ max ≠ some count) ∧
        .ok s ∈ Trial.iteration t.elements f min count
          (Trial.iterations t.elements f min max greedy (count + 1)) q := Trial.ok_mem_iterations
  have iteration (hmore : count < min ∨ max ≠ some count) (stack : List Choice)
      (last' : Option Trial) (hs : t.Falls c.store stack last') :
      t.Finds ⟨pc + 2, c.pos, c.store.beginIteration r c.pos, stack⟩
        (explore k last' (Trial.iteration t.elements f min count
          (Trial.iterations t.elements f min max greedy (count + 1)) q)) := by
    refine finds_iteration hbody hnext hr hahead hat hcount hsz hs ?_
    intro c' q' last'' hq' hgo hpc' hat' hcount' hfr hf'
    refine finds_head hahead hpc' hat' hcount' (hfr.size_eq ▸ hsz) hf' ?_
    intro c'' q'' last₂ hq'' hpc'' hat'' hfr' hf''
    exact hk c'' q'' last₂ (hmem.2 (.inr ⟨hmore, Trial.ok_mem_iteration.2 ⟨q', hq', hgo, hq''⟩⟩))
      hpc'' hat'' (hfr.trans hfr') hf''
  have exit (hc : ¬ count < min) (stack : List Choice) (last' : Option Trial)
      (hs : t.Falls c.store stack last') :
      t.Finds ⟨pc + w + 3, c.pos, c.store, stack⟩ (k q last') :=
    hk _ q last' (hmem.2 (.inl ⟨hc, rfl⟩)) rfl ⟨hat.pos_eq, hat.slots_eq, hat.trail_eq⟩ (.refl _ _)
      hs
  have hpc₂ : c.pc + 1 = pc + 2 := by omega
  apply finds_of_leads
  rw [step_eq (hpc ▸ hloop), Trial.iterations_eq]
  simp only [execute, Task.iteration, hcount]
  by_cases hc : count < min
  · rw [if_pos hc, if_pos hc]
    change t.Finds _ _
    simpa [Config.advance, hpc₂] using iteration (.inl hc) _ _ hf
  · rw [if_neg hc, if_neg hc]
    by_cases hm : max = some count
    · rw [if_pos hm, if_pos hm]
      exact exit hc _ _ hf
    · rw [if_neg hm, if_neg hm]
      cases greedy with
      | true =>
        rw [if_pos rfl, if_pos rfl, explore_append]
        have := iteration (.inr hm) _ _ (Falls.push (.goto (pc + w + 3)) rfl
          (exit hc _ _ hf))
        change t.Finds _ (explore k (k q last) _)
        simpa [Config.advance, Config.push, hpc₂] using this
      | false =>
        rw [if_neg Bool.false_ne_true, if_neg Bool.false_ne_true]
        refine exit hc _ _ (Falls.push (.iterate c.pc r) rfl ?_)
        simpa [hpc₂] using iteration (.inr hm) _ _ hf
termination_by (min - count, t.elements.size - q.pos)
decreasing_by
  by_cases hc : count < min
  · exact .left _ _ (by omega)
  · have : min - (count + 1) = min - count := by omega
    rw [this]
    exact .right _ (by omega)

theorem iterate (hahead : ∀ q q', .ok q' ∈ f q → q.Ahead t.elements q')
    (henter : t.program.code[pc]? = some (.enter r)) :
    t.Delivers pc (pc + w + 3) r r' (Trial.iterations t.elements f min max greedy 0) := by
  intro c q k last hpc hat hsz hf hk
  have hfr := Store.Framed.setCounter r c.store ⟨0, c.pos⟩
  apply finds_of_leads
  rw [step_eq (hpc ▸ henter)]
  refine finds_head hbody hloop hnext hr hahead (by simp [Config.advance, hpc])
    ⟨hat.pos_eq, hat.slots_eq, hat.trail_eq⟩ ?_ (hfr.size_eq ▸ hsz) (hf.mono hfr.prior) ?_
  · exact congrArg Counter.count (Store.counter_setCounter_self (Nat.lt_of_lt_of_le hr hsz))
  · intro c' q' last' hq' hpc' hat' hfr' hf'
    exact hk c' q' last' hq' hpc' hat' (hfr.trans hfr') hf'

end Repetition

theorem split {pc w p r₀ r₁ r₂ : Nat} {f g : Path → List Trial}
    (hsplit : t.program.code[pc]? = some (.split (pc + 1) (pc + w + 2)))
    (hfirst : t.Delivers (pc + 1) (pc + 1 + w) r₀ r₁ f)
    (hjump : t.program.code[pc + 1 + w]? = some (.jump p))
    (hrest : t.Delivers (pc + w + 2) p r₁ r₂ g) (h₀ : r₀ ≤ r₁) (h₁ : r₁ ≤ r₂) :
    t.Delivers pc p r₀ r₂ fun q => f q ++ g q := by
  intro c q k last hpc hat hsz hf hk
  subst hpc
  rw [explore_append]
  apply finds_of_leads
  rw [step_eq hsplit]
  have halternate : t.Falls c.store (c.choice (.goto (c.pc + w + 2)) :: c.stack)
      (explore k last (g q)) := by
    refine Falls.push (.goto (c.pc + w + 2)) rfl ?_
    refine hrest _ q k last rfl ⟨hat.pos_eq, hat.slots_eq, hat.trail_eq⟩ hsz hf ?_
    intro c' q' last' hq' hpc' hat' hfr hf'
    exact hk c' q' last' (List.mem_append_right _ hq') hpc' hat' (hfr.mono h₀) hf'
  refine hfirst _ q _ _ rfl ⟨hat.pos_eq, hat.slots_eq, hat.trail_eq⟩ (Nat.le_trans h₁ hsz)
    halternate ?_
  intro c' q' last' hq' hpc' hat' hfr hf'
  apply finds_of_leads
  rw [step_eq (hpc' ▸ hjump)]
  exact hk _ q' last' (List.mem_append_left _ hq') rfl
    ⟨hat'.pos_eq, hat'.slots_eq, hat'.trail_eq⟩ hfr hf'

/-! ### Expressions -/

mutual

theorem code (greedy : Bool) (pc r : Nat) (e : Expr) (h : t.CodeAt pc (e.code greedy pc r)) :
    t.Delivers pc (pc + e.width) r (r + e.registers) (e.paths t.elements t.render greedy) := by
  match e with
  | .node _ => exact node h.head
  | .backref _ => exact backref h.head
  | .multi .. => exact multi h.head
  | .anchor _ => exact assert h.head
  | .sequence es => exact codeOfAll greedy pc r es h
  | .choice es => exact codeOfChoice greedy pc r es rfl h
  | .group e none _ => exact code greedy pc r e h
  | .group e (some id) _ =>
    have h₁ := h.tail.right.head
    rw [Expr.length_code] at h₁
    have := (openGroup (r := r) h.head).append ((code greedy (pc + 1) r e h.tail.left).append
      (closeGroup h₁) (by omega) (by omega)) (Nat.le_refl r) (by omega)
    exact this.congr (by rw [Expr.width, Option.isSome_some, if_pos rfl]; omega) rfl
      fun _ => List.append_nil _
  | .action e name target =>
    have h₁ := h.right.head
    rw [Expr.length_code] at h₁
    have := (code greedy pc r e h.left).append (mark h₁) (by omega) (by omega)
    rwa [Nat.add_assoc] at this
  | .iterate e min max own =>
    have hp : Expr.paths t.elements t.render greedy (.iterate e min max own) = fun q =>
        if max = some 0 then [.ok q]
        else Trial.iterations t.elements
          (e.paths t.elements t.render (Expr.bodyPreference min max own greedy)) min max own 0 q :=
      rfl
    rw [hp]
    unfold Expr.code at h
    unfold Expr.width Expr.registers
    by_cases hv : Expr.isVoid max = true
    · have hv' : max = some 0 := by simpa [Expr.isVoid] using hv
      simp only [hv', if_true]
      exact empty pc r r
    · have hv' : ¬ max = some 0 := by simpa [Expr.isVoid] using hv
      simp only [hv, hv', if_false] at h ⊢
      by_cases ho : Expr.isOnce min max = true
      · obtain ⟨rfl, rfl⟩ : min = 1 ∧ max = some 1 := by simpa [Expr.isOnce] using ho
        simp only [ho, if_true, Trial.iterations_once, Expr.bodyPreference, and_self] at h ⊢
        exact code greedy pc r e h
      · have ho' : ¬ (min = 1 ∧ max = some 1) := by simpa [Expr.isOnce] using ho
        simp only [ho, if_false, Expr.bodyPreference, ho'] at h ⊢
        have hn := h.tail.tail.right.head
        rw [Expr.length_code] at hn
        have := iterate (code (own && greedy) (pc + 2) (r + 1) e h.tail.tail.left) h.tail.head
          (by simpa using hn) (by omega) (fun _ _ => Expr.ahead_of_mem_paths _ e) h.head
        rwa [Nat.add_assoc, Nat.add_assoc r, Nat.add_comm 1] at this

theorem codeOfAll (greedy : Bool) (pc r : Nat) (es : List Expr)
    (h : t.CodeAt pc (Expr.codeOfAll greedy pc r es)) :
    t.Delivers pc (pc + Expr.widthOfAll es) r (r + Expr.registersOfAll es)
      (Expr.pathsOfAll t.elements t.render greedy es) := by
  match es with
  | [] => exact empty pc r r
  | e :: es =>
    have h₁ := h.right
    rw [Expr.length_code] at h₁
    have := (code greedy pc r e h.left).append (codeOfAll greedy _ _ es h₁) (by omega) (by omega)
    rwa [Nat.add_assoc, Nat.add_assoc] at this

theorem codeOfChoice (greedy : Bool) (pc r : Nat) (es : List Expr) {p : Nat}
    (hp : p = pc + Expr.widthOfChoice es) (h : t.CodeAt pc (Expr.codeOfChoice greedy pc r p es)) :
    t.Delivers pc p r (r + Expr.registersOfAll es)
      (Expr.paths t.elements t.render greedy (.choice es)) := by
  match es with
  | [] => rw [show p = pc from hp]; exact empty pc r r
  | [e] =>
    rw [show p = pc + e.width from hp]
    exact (code greedy pc r e h).congr rfl rfl fun _ => (List.append_nil _).symm
  | e :: e' :: es =>
    have h₁ := h.tail.right
    rw [Expr.length_code] at h₁
    have hrest := codeOfChoice greedy (pc + e.width + 2) (r + e.registers) (e' :: es) (p := p)
      (by simp only [hp, Expr.widthOfChoice]; omega)
      (by have := h₁.tail; rwa [show pc + 1 + e.width + 1 = pc + e.width + 2 by omega] at this)
    have := split h.head (code greedy (pc + 1) r e h.tail.left) h₁.head hrest (by omega) (by omega)
    rwa [Nat.add_assoc] at this

end

end Delivers

/-! ## Whole programs -/

theorem Delivers.finds {pc pc' r r' : Nat} {f : Path → List Trial} (h : t.Delivers pc pc' r r' f)
    (haccept : t.program.code[pc']? = some .accept) {c : Config} {q : Path} (hpc : c.pc = pc)
    (hat : c.At q) (hstack : c.stack = []) (hsz : r' ≤ c.store.counters.size) :
    t.Finds c ((f q).find? (Trial.decides t.stop)) := by
  rw [← explore_decides]
  refine h c q _ none hpc hat hsz ?_ ?_
  · rw [hstack]
    exact falls_nil _
  · intro c' q' last' _ hpc' hat' _ hf'
    apply finds_of_leads
    rw [step_eq (hpc' ▸ haccept)]
    simp only [execute]
    by_cases hs : t.stop.all (· == c'.pos) = true
    · rw [if_pos hs, if_pos (hat'.pos_eq ▸ hs)]
      change some (Except.ok (⟨c'.pos, c'.store.slots, c'.store.trail⟩ : Path)) = some (.ok q')
      rw [hat'.pos_eq, hat'.slots_eq, hat'.trail_eq]
    · rw [if_neg hs, if_neg (hat'.pos_eq ▸ hs)]
      exact hf'.fail

/-- **A run of a lowered expression finds the first of its paths that decides**, from any path on,
with a counter for each register. -/
theorem finds_lower {e : Expr} (h : t.program = .lower e) {c : Config} {q : Path} (hpc : c.pc = 0)
    (hat : c.At q) (hstack : c.stack = []) (hsz : e.registers ≤ c.store.counters.size) :
    t.Finds c ((e.paths t.elements t.render true q).find? (Trial.decides t.stop)) := by
  have hc := codeAt_lower e h
  have hi := hc.right.head
  rw [Expr.length_code] at hi
  exact (Delivers.code true 0 0 e hc.left).finds hi hpc hat hstack (by rwa [Nat.zero_add])

theorem halts_lower {e : Expr} (h : t.program = .lower e) (pos : Nat) (s : Store)
    (hs : e.registers ≤ s.counters.size) : t.Halts ⟨0, pos, s, []⟩ := by
  obtain ⟨o, ho, -⟩ := finds_lower (c := ⟨0, pos, s, []⟩) (q := ⟨pos, s.slots, s.trail⟩) h rfl
    ⟨rfl, rfl, rfl⟩ rfl hs
  exact ho.halts

end Task

end Motif
