import Motif.Proofs.Registers
import Motif.Proofs.Shifting
import Motif.Proofs.Slice

/-!
# The same elements behind others

Unless a pattern asks for the start of the sequence, it cannot tell at which position it is tried. If
other elements are put in front of a sequence, the machine takes the same steps behind them, with
every position that it stores moved to the right. Only the starts of iterations that it finds in a
new store are not moved, but it reads none of them: a register in use has been set.

* `Store.Translated`, `Choice.Translated`, `Config.Translated`: stores, open choices and
  configurations behind other elements.
* `Task.Translated`: the same task behind other elements.
* **`Task.Translated.step`**, **`Task.Translated.run`**: one step, and a whole run.
* `Expr.anchors`, `Expr.anchors_of_mem_code`: the anchors of an expression, and of its code.
* `Pattern.attempt_translated`: an attempt.
* **`Search.matchAt_translated`**: matching at a position behind other elements.
-/

namespace Motif

variable {d n : Nat} {K : Nat → List Nat → Prop} {rs rs' : List Nat}

/-! ## Stores -/

/-- The state of a repetition behind `d` elements. -/
def Counter.shift (d : Nat) (c : Counter) : Counter := ⟨c.count, c.start + d⟩

/-- A store with `n` registers, and the same store behind `d` elements. The states of repetitions
agree in the registers `rs`. -/
structure Store.Translated (d n : Nat) (rs : List Nat) (s s' : Store) : Prop where
  slots_eq : s'.slots = s.slots.map (Option.map (· + d))
  trail_eq : s'.trail = s.trail.map (Note.shift d)
  size_eq : s.counters.size = n
  size_eq' : s'.counters.size = n
  counter_eq : ∀ r ∈ rs, s'.counter r = (s.counter r).shift d

namespace Store.Translated

theorem initial (d groups n : Nat) :
    Translated d n [] (.initial groups n) (.initial groups n) where
  slots_eq := by simp [Store.initial]
  trail_eq := by simp [Store.initial]
  size_eq := by simp [Store.initial]
  size_eq' := by simp [Store.initial]
  counter_eq r hr := by cases hr

variable {s s' : Store} (h : Translated d n rs s s')

include h

theorem mono (hrs : rs' ⊆ rs) : Translated d n rs' s s' :=
  ⟨h.slots_eq, h.trail_eq, h.size_eq, h.size_eq', fun r hr => h.counter_eq r (hrs hr)⟩

theorem slot_eq (i : Nat) : s'.slot i = (s.slot i).map (· + d) := by
  rw [slot, slot, h.slots_eq, Array.getElem?_map]
  cases s.slots[i]? <;> rfl

theorem note (m : Note) : Translated d n rs (s.note m) (s'.note (m.shift d)) :=
  ⟨h.slots_eq, by simp only [Store.note, h.trail_eq, Array.map_push], h.size_eq, h.size_eq',
    h.counter_eq⟩

theorem setSlot (i : Nat) (v : Option Nat) :
    Translated d n rs (s.setSlot i v) (s'.setSlot i (v.map (· + d))) :=
  ⟨by simp only [Store.setSlot, h.slots_eq, Array.map_setIfInBounds], h.trail_eq, h.size_eq,
    h.size_eq', h.counter_eq⟩

theorem setCounter {r : Nat} (hr : r < n) (c : Counter) :
    Translated d n (r :: rs) (s.setCounter r c) (s'.setCounter r (c.shift d)) where
  slots_eq := h.slots_eq
  trail_eq := h.trail_eq
  size_eq := size_counters_setCounter.trans h.size_eq
  size_eq' := size_counters_setCounter.trans h.size_eq'
  counter_eq q hq := by
    by_cases heq : r = q
    · subst heq
      rw [counter_setCounter_self (h.size_eq' ▸ hr), counter_setCounter_self (h.size_eq ▸ hr)]
    · rw [counter_setCounter_of_ne heq, counter_setCounter_of_ne heq]
      obtain rfl | hq := List.mem_cons.1 hq
      · exact absurd rfl heq
      · exact h.counter_eq q hq

theorem beginIteration {r : Nat} (hr : r < n) (hmem : r ∈ rs) (pos : Nat) :
    Translated d n rs (s.beginIteration r pos) (s'.beginIteration r (pos + d)) := by
  unfold Store.beginIteration
  rw [h.counter_eq r hmem]
  exact (h.setCounter hr _).mono (List.subset_cons_self _ _)

end Store.Translated

/-! ## Open choices -/

/-- Where the registers `rs` are in use, a choice goes on where `K` allows them to be. -/
def Resume.Fits (K : Nat → List Nat → Prop) (n : Nat) (rs : List Nat) : Resume → Prop
  | goto pc => K pc rs
  | iterate head reg => reg < n ∧ reg ∈ rs ∧ K (head + 1) rs
  | retry pc _ => K (pc + 1) rs

/-- The choices that are open at two stores are the same but for their positions, and fit the
earlier stores at which they were made. -/
inductive Choice.Translated (K : Nat → List Nat → Prop) (d n : Nat) :
    Store → Store → List Choice → List Choice → Prop where
  | nil (s s' : Store) : Translated K d n s s' [] []
  | cons {s s' t t' : Store} {rs : List Nat} {r : Resume} (pos : Nat) {stack stack' : List Choice}
    (hr : r.Fits K n rs) (ht : t.Translated d n rs t') (hs : t.Prior s) (hs' : t'.Prior s')
    (rest : Translated K d n t t' stack stack') :
    Translated K d n s s' (⟨r, pos, t.undo.size, t.trail.size⟩ :: stack)
      (⟨r, pos + d, t'.undo.size, t'.trail.size⟩ :: stack')

theorem Choice.Translated.mono {s s' t t' : Store} {stack stack' : List Choice}
    (h : Choice.Translated K d n s s' stack stack') (hs : s.Prior t) (hs' : s'.Prior t') :
    Choice.Translated K d n t t' stack stack' := by
  cases h with
  | nil => exact .nil t t'
  | cons pos hr ht h h' rest => exact .cons pos hr ht (h.trans hs) (h'.trans hs') rest

/-! ## Configurations -/

/-- The same configuration behind `d` elements, where the registers `rs` are in use. -/
structure Config.Translated (K : Nat → List Nat → Prop) (d n : Nat) (rs : List Nat)
    (c c' : Config) : Prop where
  pc_eq : c'.pc = c.pc
  pos_eq : c'.pos = c.pos + d
  store : c.store.Translated d n rs c'.store
  stack : Choice.Translated K d n c.store c'.store c.stack c'.stack

/-- Two runs end in the same way, one of them behind `d` elements. -/
inductive Outcome.Translated (d n : Nat) : Outcome → Outcome → Prop where
  | accepted (stop : Nat) {s s' : Store} (h : s.Translated d n [] s') :
    Translated d n (accepted stop s) (accepted (stop + d) s')
  | rejected : Translated d n rejected rejected
  | failed (e : PredicateError) : Translated d n (failed e) (failed e)

/-- Two runs go on, or end, in the same way, one of them behind `d` elements. -/
inductive Progress.Translated (K : Nat → List Nat → Prop) (d n : Nat) :
    Progress → Progress → Prop where
  | running {c c' : Config} {rs : List Nat} (hK : K c.pc rs) (h : c.Translated K d n rs c') :
    Translated K d n (running c) (running c')
  | finished {o o' : Outcome} (h : o.Translated d n o') :
    Translated K d n (finished o) (finished o')

/-- Two steps are the same, one of them behind `d` elements. -/
structure Step.Translated (K : Nat → List Nat → Prop) (d n : Nat) (st st' : Step) : Prop where
  progress : st.progress.Translated K d n st'.progress
  backtracks_eq : st'.backtracks = st.backtracks
  calls_eq : st'.calls = st.calls

namespace Config.Translated

variable {c c' : Config} (h : c.Translated K d n rs c')

include h

theorem mono (hrs : rs' ⊆ rs) : c.Translated K d n rs' c' :=
  ⟨h.pc_eq, h.pos_eq, h.store.mono hrs, h.stack⟩

theorem advance (k : Nat) : (c.advance k).Translated K d n rs (c'.advance k) :=
  ⟨congrArg (· + 1) h.pc_eq, by
    simp only [Config.advance, h.pos_eq, Nat.add_right_comm], h.store, h.stack⟩

theorem goto (pc : Nat) : Config.Translated K d n rs { c with pc } { c' with pc } :=
  ⟨rfl, h.pos_eq, h.store, h.stack⟩

theorem withStore {s s' : Store} (hs : s.Translated d n rs' s') (hp : c.store.Prior s)
    (hp' : c'.store.Prior s') :
    Config.Translated K d n rs' { c with store := s } { c' with store := s' } :=
  ⟨h.pc_eq, h.pos_eq, hs, h.stack.mono hp hp'⟩

theorem push {r : Resume} (hr : r.Fits K n rs) : (c.push r).Translated K d n rs (c'.push r) where
  pc_eq := h.pc_eq
  pos_eq := h.pos_eq
  store := h.store
  stack := by
    have := Choice.Translated.cons c.pos hr h.store (.refl _) (.refl _) h.stack
    simpa only [Config.push, choice, h.pos_eq] using this

theorem takeSpan (hK : K (c.pc + 1) rs) (min : Nat) (greedy : Bool) (len : Nat) :
    (c.takeSpan min greedy len).Translated K d n rs (c'.takeSpan min greedy len) ∧
      (c.takeSpan min greedy len).pc = c.pc + 1 := by
  have retry (len : Nat) : (Resume.retry c.pc len).Fits K n rs := hK
  unfold Config.takeSpan
  rw [h.pc_eq]
  split
  · split
    · exact ⟨(h.push (retry _)).advance len, rfl⟩
    · exact ⟨h.advance len, rfl⟩
  · exact ⟨(h.push (retry _)).advance len, rfl⟩

theorem iteration {reg exit : Nat} (hreg : reg < n) (hmem : reg ∈ rs) (hbody : K (c.pc + 1) rs)
    {rs' : List Nat} (hsub : rs' ⊆ rs) (hexit : K exit rs') (min : Nat) (max : Option Nat)
    (greedy : Bool) :
    (Progress.running (Task.iteration c reg min max greedy exit)).Translated K d n
      (.running (Task.iteration c' reg min max greedy exit)) := by
  have body {c c' : Config} (h : c.Translated K d n rs c') (hbody : K (c.pc + 1) rs) :
      (Progress.running { c.advance 0 with store := c.store.beginIteration reg c.pos }).Translated
        K d n (.running { c'.advance 0 with store := c'.store.beginIteration reg c'.pos }) := by
    have hs := h.store.beginIteration hreg hmem c.pos
    rw [← h.pos_eq] at hs
    exact .running hbody ((h.advance 0).withStore hs (.setCounter _ _ _) (.setCounter _ _ _))
  have leave {c c' : Config} (h : c.Translated K d n rs c') :
      (Progress.running { c with pc := exit }).Translated K d n (.running { c' with pc := exit }) :=
    .running hexit ((h.mono hsub).goto exit)
  have hcount : (c'.store.counter reg).count = (c.store.counter reg).count := by
    rw [h.store.counter_eq reg hmem]
    rfl
  unfold Task.iteration
  rw [hcount, h.pc_eq]
  dsimp only
  split
  · exact body h hbody
  · split
    · exact leave h
    · split
      · have hpush : (c.push (.goto exit)).Translated K d n rs (c'.push (.goto exit)) := by
          have := (h.mono hsub).push (r := .goto exit) hexit
          exact ⟨this.pc_eq, this.pos_eq, h.store, this.stack⟩
        exact body hpush hbody
      · exact leave (h.push ⟨hreg, hmem, hbody⟩)

end Config.Translated

/-! ## Steps -/

/-- The same task with other elements in front. No instruction asks for the start of the
sequence. -/
structure Task.Translated (u : Array Element) (t t' : Task) : Prop where
  program_eq : t'.program = t.program
  elements_eq : t'.elements = u ++ t.elements
  render_eq : t'.render = t.render
  stop_eq : t'.stop = t.stop.map (· + u.size)
  startFree : ∀ pc : Nat, t.program.code[pc]? ≠ some (.assert .start)

namespace Task.Translated

variable {u : Array Element} {t t' : Task} (ht : t.Translated u t')

include ht

theorem element_eq (pos : Nat) : t'.elements[pos + u.size]? = t.elements[pos]? := by
  rw [ht.elements_eq, Array.getElem?_append_right (Nat.le_add_left _ _), Nat.add_sub_cancel]

theorem size_eq : t'.elements.size = t.elements.size + u.size := by
  rw [ht.elements_eq, Array.size_append, Nat.add_comm]

theorem slice_eq (pos len : Nat) : t'.slice (pos + u.size) len = t.slice pos len := by
  have hbefore : u.extract (pos + u.size) (pos + u.size + len) = #[] :=
    Array.extract_empty_of_size_le_start (Nat.le_add_left _ _)
  rw [slice, slice, ht.elements_eq, Array.extract_append, hbefore, Array.empty_append,
    Nat.add_sub_cancel, Nat.add_right_comm, Nat.add_sub_cancel]

theorem reach_eq (pos : Nat) (max : Option Nat) : t'.reach (pos + u.size) max = t.reach pos max := by
  rw [reach, reach, ht.size_eq, Nat.add_sub_add_right]

theorem spanLength?_eq (pos min : Nat) (max : Option Nat) (text : Regex) (greedy : Bool)
    (bound : Option Nat) : t'.spanLength? (pos + u.size) min max text greedy bound =
      t.spanLength? pos min max text greedy bound := by
  simp only [spanLength?, ht.reach_eq, ht.render_eq, ht.slice_eq]

theorem asserts_eq (pos : Nat) : t'.asserts (pos + u.size) .stop = t.asserts pos .stop := by
  rw [asserts, asserts, ht.size_eq, Bool.eq_iff_iff, beq_iff_eq, beq_iff_eq, Nat.add_right_cancel_iff]

theorem stop_all_eq (pos : Nat) :
    t'.stop.all (· == pos + u.size) = t.stop.all (· == pos) := by
  rw [ht.stop_eq]
  cases t.stop with
  | none => rfl
  | some stop =>
    rw [Option.map_some, Option.all_some, Option.all_some, Bool.eq_iff_iff, beq_iff_eq, beq_iff_eq,
      Nat.add_right_cancel_iff]

theorem repeated?_eq {s s' : Store} (hs : s.Translated u.size n rs s') (pos id : Nat) :
    t'.repeated? s' (pos + u.size) id = t.repeated? s pos id := by
  have hroom (len : Nat) : pos + u.size + len ≤ t.elements.size + u.size ↔
      pos + len ≤ t.elements.size := by omega
  unfold repeated?
  rw [hs.slot_eq, hs.slot_eq]
  cases s.slot (2 * id) with
  | none => rfl
  | some b =>
    cases s.slot (2 * id + 1) with
    | none => rfl
    | some e =>
      simp only [Option.map_some, Nat.add_sub_add_right, ht.slice_eq, ht.size_eq,
        Nat.add_le_add_iff_right, hroom]

theorem offer? {s s' : Store} {stack stack' : List Choice} {r : Resume} (hr : r.Fits K n rs)
    (hs : s.Translated u.size n rs s') (hstack : Choice.Translated K u.size n s s' stack stack')
    (pos : Nat) : Option.Rel (fun go go' => (Progress.running (go ⟨0, pos, s, stack⟩)).Translated K
      u.size n (.running (go' ⟨0, pos + u.size, s', stack'⟩))) (t.offer? pos r)
        (t'.offer? (pos + u.size) r) := by
  have hc : Config.Translated K u.size n rs ⟨0, pos, s, stack⟩ ⟨0, pos + u.size, s', stack'⟩ :=
    ⟨rfl, rfl, hs, hstack⟩
  cases r with
  | goto pc => exact .some (.running hr (hc.goto pc))
  | iterate head reg =>
    obtain ⟨hreg, hmem, hbody⟩ := hr
    exact .some (.running hbody ((hc.goto _).withStore (hs.beginIteration hreg hmem pos)
      (.setCounter _ _ _) (.setCounter _ _ _)))
  | retry pc len =>
    unfold Task.offer?
    dsimp only
    rw [ht.program_eq]
    split
    · rw [ht.spanLength?_eq]
      cases t.spanLength? pos _ _ _ _ (some len) with
      | none => exact .none
      | some l =>
        have hspan := (hc.goto pc).takeSpan hr
        refine .some (.running ?_ (hspan _ _ l).1)
        rw [(hspan _ _ l).2]
        exact hr
    · exact .none

theorem backtrack {s s' : Store} {stack stack' : List Choice}
    (hstack : Choice.Translated K u.size n s s' stack stack') :
    (t.backtrack s stack).Translated K u.size n (t'.backtrack s' stack') := by
  induction hstack with
  | nil s s' => exact ⟨.finished .rejected, rfl, rfl⟩
  | @cons s s' s₀ s₀' rs r pos stack stack' hr hs₀ hs hs' rest ih =>
    have ho := ht.offer? hr hs₀ rest pos
    simp only [Task.backtrack, hs.rollback_self, hs'.rollback_self]
    generalize t.offer? pos r = o at ho
    generalize t'.offer? (pos + u.size) r = o' at ho
    cases ho with
    | some h => exact ⟨h, rfl, rfl⟩
    | none => exact ⟨ih.progress, congrArg (· + 1) ih.backtracks_eq, ih.calls_eq⟩

variable {c c' : Config} (hc : c.Translated K u.size n rs c')

include hc

theorem fail : (t.fail c).Translated K u.size n (t'.fail c') := ht.backtrack hc.stack

theorem proceed {d d' : Option Config}
    (hd : Option.Rel (fun e e' => (Progress.running e).Translated K u.size n (.running e')) d d') :
    (t.proceed c d).Translated K u.size n (t'.proceed c' d') := by
  cases hd with
  | some h => exact ⟨h, rfl, rfl⟩
  | none => exact ht.fail hc

theorem testNode (hK : K (c.pc + 1) rs) (p : NodePattern) :
    (t.testNode c p).Translated K u.size n (t'.testNode c' p) := by
  unfold Task.testNode
  rw [hc.pos_eq, ht.element_eq]
  cases t.elements[c.pos]? with
  | none => exact ht.fail hc
  | some e =>
    dsimp only
    cases (p.test e).verdict with
    | error err => exact ⟨.finished (.failed err), rfl, rfl⟩
    | ok v =>
      cases v with
      | reject =>
        have := ht.fail hc
        exact ⟨this.progress, this.backtracks_eq, rfl⟩
      | accept => exact ⟨.running hK (hc.advance 1), rfl, rfl⟩
      | acceptWith v =>
        exact ⟨.running hK ((hc.advance 1).withStore (hc.store.note (.payload c.pos v))
          (.note _ _) (.note _ _)), rfl, rfl⟩

theorem execute {i : Instruction} (hi : i.Fits K n rs c.pc) (hstart : i ≠ .assert .start) :
    (t.execute c i).Translated K u.size n (t'.execute c' i) := by
  cases i with
  | node p => exact ht.testNode hc hi p
  | split primary alternate =>
    exact ⟨.running hi.1 ((hc.push (r := .goto alternate) hi.2).goto primary), rfl, rfl⟩
  | jump target => exact ⟨.running hi (hc.goto target), rfl, rfl⟩
  | openGroup id =>
    have hs := (hc.store.setSlot (2 * id) (some c.pos)).setSlot (2 * id + 1) none
    simp only [Task.execute, hc.pos_eq]
    exact ⟨.running hi ((hc.advance 0).withStore hs ((Store.Prior.setSlot _ _ _).trans (.setSlot _ _ _))
      ((Store.Prior.setSlot _ _ _).trans (.setSlot _ _ _))), rfl, rfl⟩
  | closeGroup id =>
    have hs := hc.store.setSlot (2 * id + 1) (some c.pos)
    simp only [Task.execute, hc.pos_eq]
    exact ⟨.running hi ((hc.advance 0).withStore hs (.setSlot _ _ _) (.setSlot _ _ _)), rfl, rfl⟩
  | backref id =>
    refine ht.proceed hc ?_
    rw [hc.pos_eq, ht.repeated?_eq hc.store]
    cases t.repeated? c.store c.pos id with
    | none => exact .none
    | some k => exact .some (.running hi (hc.advance k))
  | enter reg =>
    have hs := hc.store.setCounter hi.1 ⟨0, c.pos⟩
    simp only [Task.execute, hc.pos_eq]
    exact ⟨.running hi.2 ((hc.advance 0).withStore hs (.setCounter _ _ _) (.setCounter _ _ _)), rfl,
      rfl⟩
  | loop reg min max greedy exit =>
    obtain ⟨hreg, hmem, hbody, rs', hsub, hexit⟩ := hi
    exact ⟨hc.iteration hreg hmem hbody hsub hexit min max greedy, rfl, rfl⟩
  | next reg min head =>
    obtain ⟨hreg, hmem, hhead⟩ := hi
    have hdead : c'.pos = (c'.store.counter reg).start ∧ min ≤ (c'.store.counter reg).count ↔
        c.pos = (c.store.counter reg).start ∧ min ≤ (c.store.counter reg).count := by
      rw [hc.store.counter_eq reg hmem, hc.pos_eq]
      exact and_congr_left' Nat.add_right_cancel_iff
    simp only [Task.execute, Task.endIteration, hdead]
    split
    · exact ht.fail hc
    · have hs := (hc.store.setCounter hreg ⟨(c.store.counter reg).count + 1,
        (c.store.counter reg).start⟩).mono (List.subset_cons_self reg rs)
      rw [hc.store.counter_eq reg hmem]
      exact ⟨.running hhead ((hc.goto head).withStore hs (.setCounter _ _ _) (.setCounter _ _ _)),
        rfl, rfl⟩
  | multi min max text greedy =>
    refine ht.proceed hc ?_
    rw [hc.pos_eq, ht.spanLength?_eq]
    cases t.spanLength? c.pos min max text greedy none with
    | none => exact .none
    | some len =>
      have hspan := hc.takeSpan hi min greedy len
      refine .some (.running ?_ hspan.1)
      rw [hspan.2]
      exact hi
  | mark action target =>
    exact ⟨.running hi ((hc.advance 0).withStore (hc.store.note (.fire action target)) (.note _ _)
      (.note _ _)), rfl, rfl⟩
  | assert a =>
    cases a with
    | start => exact absurd rfl hstart
    | stop =>
      refine ht.proceed hc ?_
      rw [hc.pos_eq, ht.asserts_eq]
      split
      · exact .some (.running hi (hc.advance 0))
      · exact .none
  | accept =>
    simp only [Task.execute, hc.pos_eq, ht.stop_all_eq]
    split
    · exact ⟨.finished (.accepted c.pos (hc.store.mono (List.nil_subset _))), rfl, rfl⟩
    · exact ht.fail hc

/-- **One step is the same behind other elements.** -/
theorem step (hfits : t.Fits K n) (hK : K c.pc rs) :
    (t.step c).Translated K u.size n (t'.step c') := by
  obtain ⟨i, hi, hif⟩ := hfits c.pc rs hK
  have hi' : t'.program.code[c'.pc]? = some i := by rw [ht.program_eq, hc.pc_eq, hi]
  rw [step_eq hi, step_eq hi']
  exact ht.execute hc hif fun h => ht.startFree c.pc (h ▸ hi)

end Task.Translated

/-! ## Runs -/

/-- Two runs cost the same and end in the same way, one of them behind `d` elements. -/
structure Ran.Translated (d n : Nat) (r r' : Ran) : Prop where
  outcome : Option.Rel (Outcome.Translated d n) r.outcome r'.outcome
  account_eq : r'.account = r.account

/-- **A whole run is the same behind other elements**, step by step and under any limit. -/
theorem Task.Translated.run {u : Array Element} {t t' : Task} (ht : t.Translated u t')
    (hfits : t.Fits K n) (limit : Option Nat) (a : Account) (c : { c : Config // t.Halts c })
    (c' : { c : Config // t'.Halts c }) (hK : K c.1.pc rs)
    (hc : c.1.Translated K u.size n rs c'.1) :
    (t.run limit a c).Translated u.size n (t'.run limit a c') := by
  obtain ⟨c, hhalts⟩ := c
  induction hhalts generalizing a c' rs with
  | intro c hhalts ih =>
    by_cases hl : limit.any (· < a.steps + 1) = true
    · rw [run_of_limit hl, run_of_limit hl]
      exact ⟨.none, rfl⟩
    · have hstep := ht.step hc hfits hK
      have hadd : a.add (t'.step c'.1) = a.add (t.step c) := by
        rw [Account.add, Account.add, hstep.backtracks_eq, hstep.calls_eq]
      have hprogress := hstep.progress
      generalize hp' : (t'.step c'.1).progress = p' at hprogress
      cases hp : (t.step c).progress with
      | running d =>
        rw [hp] at hprogress
        cases hprogress with
        | @running _ d' _ hKd hd =>
          rw [run_of_running hl hp, run_of_running hl hp', hadd]
          exact ih d hp (a.add (t.step c)) ⟨d', c'.2.next hp'⟩ hKd hd
      | finished o =>
        rw [hp] at hprogress
        cases hprogress with
        | finished ho =>
          rw [run_of_finished hl hp, run_of_finished hl hp']
          exact ⟨.some ho, hadd⟩

/-! ## Patterns -/

namespace Expr

mutual

/-- The anchors of an expression. -/
def anchors : Expr → List Anchor
  | node _ | backref _ | multi .. => []
  | sequence es | choice es => anchorsOfAll es
  | iterate e _ _ _ | group e _ _ | action e _ _ => e.anchors
  | anchor a => [a]

/-- The anchors of several expressions. -/
def anchorsOfAll : List Expr → List Anchor
  | [] => []
  | e :: es => e.anchors ++ anchorsOfAll es

end

variable {a : Anchor}

mutual

theorem anchors_of_mem_code (greedy : Bool) (pc reg : Nat) (e : Expr)
    (h : .assert a ∈ e.code greedy pc reg) : a ∈ e.anchors := by
  match e with
  | node _ | multi .. | backref _ => cases List.mem_singleton.1 h
  | anchor _ =>
    cases List.mem_singleton.1 h
    exact List.mem_cons_self
  | sequence es => exact anchors_of_mem_codeOfAll greedy pc reg es h
  | choice es => exact anchors_of_mem_codeOfChoice greedy pc reg _ es h
  | iterate e min max own =>
    rw [code] at h
    split at h
    · cases h
    · split at h
      · exact anchors_of_mem_code greedy pc reg e h
      · simp only [List.mem_cons, List.mem_append, List.not_mem_nil, or_false, reduceCtorEq,
          false_or] at h
        exact anchors_of_mem_code _ _ _ e h
  | group e none _ => exact anchors_of_mem_code greedy pc reg e h
  | group e (some id) _ =>
    simp only [code, List.mem_cons, List.mem_append, List.not_mem_nil, or_false, reduceCtorEq,
      false_or] at h
    exact anchors_of_mem_code _ _ _ e h
  | action e _ _ =>
    simp only [code, List.mem_cons, List.mem_append, List.not_mem_nil, or_false, reduceCtorEq] at h
    exact anchors_of_mem_code _ _ _ e h

theorem anchors_of_mem_codeOfAll (greedy : Bool) (pc reg : Nat) (es : List Expr)
    (h : .assert a ∈ codeOfAll greedy pc reg es) : a ∈ anchorsOfAll es := by
  match es with
  | [] => cases h
  | e :: es =>
    obtain h | h := List.mem_append.1 h
    · exact List.mem_append_left _ (anchors_of_mem_code _ _ _ e h)
    · exact List.mem_append_right _ (anchors_of_mem_codeOfAll _ _ _ es h)

theorem anchors_of_mem_codeOfChoice (greedy : Bool) (pc reg exit : Nat) (es : List Expr)
    (h : .assert a ∈ codeOfChoice greedy pc reg exit es) : a ∈ anchorsOfAll es := by
  match es with
  | [] => cases h
  | [e] => exact List.mem_append_left _ (anchors_of_mem_code _ _ _ e h)
  | e :: e' :: es =>
    simp only [codeOfChoice, List.mem_cons, List.mem_append, reduceCtorEq, false_or] at h
    obtain h | h := h
    · exact List.mem_append_left _ (anchors_of_mem_code _ _ _ e h)
    · exact List.mem_append_right _ (anchors_of_mem_codeOfChoice _ _ _ exit (e' :: es) h)

end

end Expr

/-- **An attempt is the same behind other elements**, under any limit and with any required end. -/
theorem Pattern.attempt_translated {p : Pattern} (hfree : .start ∉ p.root.anchors)
    (u elements : Array Element) (render : List Element → String) (stop limit : Option Nat)
    (a : Account) (start : Nat) :
    (p.attempt elements render stop limit a start).Translated u.size p.root.registers
      (p.attempt (u ++ elements) render (stop.map (· + u.size)) limit a (start + u.size)) := by
  have htask : (p.task elements render stop).Translated u
      (p.task (u ++ elements) render (stop.map (· + u.size))) := by
    refine ⟨rfl, rfl, rfl, rfl, fun pc hpc => hfree ?_⟩
    change p.program.code[pc]? = _ at hpc
    rw [p.program_eq, Program.lower, List.getElem?_toArray] at hpc
    obtain h | h := List.mem_append.1 (List.mem_of_getElem? hpc)
    · exact Expr.anchors_of_mem_code true 0 0 p.root h
    · cases List.mem_singleton.1 h
  obtain ⟨hK, hfits⟩ := Expr.fits_lower (t := p.task elements render stop) p.program_eq
  have hpc : p.root.Live (p.entry start).pc [] := by rwa [entry_eq]
  have hentry : (p.entry start).Translated p.root.Live u.size p.root.registers []
      (p.entry (start + u.size)) := by
    rw [entry_eq, entry_eq, p.program_eq]
    exact ⟨rfl, rfl, .initial _ _ _, .nil _ _⟩
  exact htask.run hfits limit a _ _ hpc hentry

/-! ## Matches -/

/-- The same match behind other elements. -/
structure Match.Translated (u : Array Element) (m m' : Match) : Prop where
  elements_eq : m'.elements = u ++ m.elements
  spans_eq : m'.spans = m.spans.map (Option.map (Span.shift u.size))
  names_eq : m'.names = m.names
  payloads_eq : m'.payloads = m.payloads.map fun x => (x.1 + u.size, x.2)
  render_eq : m'.render = m.render
  score_eq : m'.score = m.score
  pattern_eq : m'.pattern = m.pattern

/-- The same event behind other elements. -/
inductive Event.Translated (u : Array Element) : Event → Event → Prop where
  | called (call : Call) : Translated u (called call) (called call)
  | fired (action : String) (group : Nat) {m m' : Match} (h : m.Translated u m') :
    Translated u (fired action group m) (fired action group m')

theorem Store.Translated.spans_eq {s s' : Store} (h : s.Translated d n rs s') (whole : Span)
    (groupCount : Nat) : s'.spans (whole.shift d) groupCount =
      (s.spans whole groupCount).map (Option.map (Span.shift d)) := by
  rw [Store.spans, Store.spans, List.map_cons, List.map_map]
  refine congrArg (_ :: ·) (List.map_congr_left fun g _ => ?_)
  rw [h.slot_eq, h.slot_eq]
  cases hb : s.slot (2 * g) with
  | none => simp [hb]
  | some b =>
    cases he : s.slot (2 * g + 1) with
    | none => simp [hb, he]
    | some e => by_cases hle : b ≤ e <;> simp [hb, he, hle, Span.shift]

theorem Metrics.add_add (a b c : Metrics) : (a.add b).add c = a.add (b.add c) := by
  simp only [Metrics.add, Nat.add_assoc]

namespace Search

/-- Two searches for one pattern under one limit, one of them in the sequence of the other one
behind other elements. -/
structure Translated (u : Array Element) (s s' : Search) : Prop where
  pattern_eq : s'.pattern = s.pattern
  elements_eq : s'.elements = u ++ s.elements
  render_eq : s'.render = s.render
  maxSteps_eq : s'.options.maxSteps = s.options.maxSteps

namespace Translated

variable {u : Array Element} {s s' : Search} (h : s.Translated u s')

include h

theorem length_eq : s'.length = u.size + s.length := by
  rw [length, h.elements_eq, Array.size_append, length]

theorem result (span : Span) {store store' : Store} (hs : store.Translated u.size n rs store') :
    (s.result span store).Translated u (s'.result (span.shift u.size) store') where
  elements_eq := h.elements_eq
  spans_eq := by rw [Search.result, Search.result, h.pattern_eq, hs.spans_eq]
  names_eq := congrArg Pattern.names h.pattern_eq
  payloads_eq := by
    rw [Search.result, Search.result, hs.trail_eq, Array.toList_map, Note.payloads_shift]
  render_eq := h.render_eq
  score_eq := congrArg Pattern.score h.pattern_eq
  pattern_eq := rfl

theorem tryAll_singleton (hfree : .start ∉ s.pattern.root.anchors) (stop : Option Nat) (k : Nat)
    (a : Account) (b b' : Buffers) (p : Nat) :
    SameButFor (fun x y => y.1 = x.1.shift u.size ∧
        x.2.Translated u.size s.pattern.root.registers [] y.2)
        (s.tryAll stop k a b [p]).result
        (s'.tryAll (stop.map (· + u.size)) k a b' [p + u.size]).result ∧
      (s'.tryAll (stop.map (· + u.size)) k a b' [p + u.size]).attempts =
        (s.tryAll stop k a b [p]).attempts ∧
      (s'.tryAll (stop.map (· + u.size)) k a b' [p + u.size]).account =
        (s.tryAll stop k a b [p]).account := by
  obtain ⟨ho, ha⟩ := Pattern.attempt_translated hfree u s.elements s.render stop
    s.options.maxSteps a p
  rw [tryAll_cons, tryAll_cons, h.pattern_eq, h.elements_eq, h.render_eq, h.maxSteps_eq]
  generalize s.pattern.attempt s.elements s.render stop s.options.maxSteps a p = r at ho ha ⊢
  generalize s.pattern.attempt (u ++ s.elements) s.render (stop.map (· + u.size))
    s.options.maxSteps a (p + u.size) = r' at ho ha ⊢
  obtain ⟨o, acc, _⟩ := r
  obtain ⟨o', acc', _⟩ := r'
  obtain rfl : acc' = acc := ha
  cases ho with
  | none => exact ⟨.error _, rfl, rfl⟩
  | some ho =>
    cases ho with
    | accepted stop hs => exact ⟨.some ⟨rfl, hs⟩, rfl, rfl⟩
    | rejected => exact ⟨.none, rfl, rfl⟩
    | failed e => exact ⟨.error _, rfl, rfl⟩

end Translated

/-- **Matching at a position does not depend on what stands in front**, if the pattern does not ask
for the start of the sequence. -/
theorem matchAt_translated {u : Array Element} {s s' : Search} (h : s.Translated u s')
    (hfree : .start ∉ s.pattern.root.anchors) {p : Nat} (hp : p ≤ s.length) :
    let a := s.matchAt p
    let a' := s'.matchAt (u.size + p)
    SameButFor (Match.Translated u) a.result a'.result ∧
      (∃ cost : Metrics, a.search.metrics = s.metrics.add cost ∧
        a'.search.metrics = s'.metrics.add cost) ∧
      List.Forall₂ (Event.Translated u) a.events a'.events := by
  intro a a'
  have hp' : p + u.size ≤ s'.length := by
    rw [h.length_eq]
    omega
  have hcalls (calls : Array Call) : List.Forall₂ (Event.Translated u)
      (calls.toList.map .called) (calls.toList.map .called) :=
    List.forall₂_same.2 fun e he => by
      obtain ⟨call, -, rfl⟩ := List.mem_map.1 he
      exact .called call
  have htry := h.tryAll_singleton hfree none 0 {} s.buffers s'.buffers p
  rw [Option.map_none] at htry
  obtain ⟨hr, hn, ha⟩ := htry
  have heq : a = s.attempts none [p] := matchAt_of_le hp
  have heq' : a' = s'.attempts none [p + u.size] := by
    rw [← matchAt_of_le hp', Nat.add_comm]
  rw [heq, heq']
  unfold Search.attempts Search.conclude
  generalize s.tryAll none 0 {} s.buffers [p] = t at hr hn ha ⊢
  generalize s'.tryAll none 0 {} s'.buffers [p + u.size] = t' at hr hn ha ⊢
  obtain ⟨r, k, acc, b⟩ := t
  obtain ⟨r', k', acc', b'⟩ := t'
  obtain rfl : acc' = acc := ha
  obtain rfl : k' = k := hn
  cases hr with
  | error e => exact ⟨.error e, ⟨_, rfl, rfl⟩, hcalls _⟩
  | none => exact ⟨.none, ⟨_, rfl, rfl⟩, hcalls _⟩
  | @some x y hxy =>
    obtain ⟨span, store⟩ := x
    obtain ⟨span', store'⟩ := y
    obtain ⟨rfl, hs⟩ := hxy
    have hm := h.result span hs
    refine ⟨.some hm, ⟨_, Metrics.add_add _ _ _, Metrics.add_add _ _ _⟩,
      List.rel_append (hcalls _) ?_⟩
    rw [hs.trail_eq, Array.toList_map, Note.actions_shift, List.forall₂_map_left_iff,
      List.forall₂_map_right_iff]
    exact List.forall₂_same.2 fun x _ => .fired x.1 x.2 hm

/-- A reference to a repeated group takes the last element, after the last iteration has been
undone. -/
theorem matchAt_translated_of_reference :
    let word (text : String) : Element := ⟨text, fun _ => none⟩
    let f : NodeFunction := ⟨"f", fun x => .ok (.acceptWith (.text x.text)), true⟩
    let root : Expr := .action (.sequence [
      .iterate (.group (.node (.custom f)) (some 1) none) 0 none true, .backref 1, .anchor .stop])
      "act" 1
    let u : Array Element := #[word "x", word "y"]
    let s : Search := {
      pattern := .build "" root [] 2
      elements := #[word "a", word "b", word "b"] }
    let s' : Search := { s with elements := u ++ s.elements }
    s.Translated u s' ∧ .start ∉ s.pattern.root.anchors ∧ 1 ≤ s.length ∧
      (s.matchAt 1).result.map (Option.map (·.spans)) = .ok (some [some ⟨1, 3⟩, some ⟨1, 2⟩]) ∧
      (s'.matchAt (u.size + 1)).result.map (Option.map (·.spans)) =
        .ok (some [some ⟨3, 5⟩, some ⟨3, 4⟩]) ∧
      SameButFor (Match.Translated u) (s.matchAt 1).result (s'.matchAt (u.size + 1)).result ∧
      (∃ cost : Metrics, (s.matchAt 1).search.metrics = s.metrics.add cost ∧
        (s'.matchAt (u.size + 1)).search.metrics = s'.metrics.add cost) ∧
      List.Forall₂ (Event.Translated u) (s.matchAt 1).events (s'.matchAt (u.size + 1)).events := by
  intro word f root u s s'
  have h : s.Translated u s' := ⟨rfl, rfl, rfl, rfl⟩
  have hfree : .start ∉ s.pattern.root.anchors := by
    rw [show s.pattern.root.anchors = [.stop] from rfl]
    decide
  have hp : 1 ≤ s.length := by decide
  refine ⟨h, hfree, hp, ?_, ?_, matchAt_translated h hfree hp⟩
  · rw [matchAt_of_le hp, attempts_singleton rfl]
    cbv
  · rw [matchAt_of_le (by decide), attempts_singleton rfl]
    cbv

end Search

end Motif
