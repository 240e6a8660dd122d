import Motif.Proofs.Shifting
import Motif.Proofs.Slice
import Motif.Proofs.Travels

/-!
# Rounds of repetitions

The head of a repetition asks first whether the minimum has been reached and then whether the count
is equal to the maximum. It counts its own rounds: the register is set when the repetition is entered
and nothing in the body touches it. So where the bounds are in order no travel to the end of the
program makes fewer rounds than the minimum, nor more than the maximum. Where they are not, a count
that has reached the minimum is past the maximum, and nothing ends the rounds.

* `InBounds`, `lt_max_of_goes_on`: a number of rounds that a repetition may make, and one more.
* `Expr.Tours`: the addresses of a travel through the code of an expression.
* `Task.Passes`: whatever comes to the end of the program goes through a part of the code first.
* **`Task.exists_rounds`**: the rounds from the head of a repetition on.
* **`Pattern.rounds_of_travels`**: every travel to the end keeps to the bounds of all repetitions.
* `Pattern.rounds_of_crossed_bounds`: a pattern whose bounds are not in order.
-/

namespace Motif

/-- A number of rounds that is not below the minimum, and not above the maximum if that is not below
the minimum. -/
def InBounds (min : Nat) (max : Option Nat) (rounds : Nat) : Prop :=
  (max ≠ some 0 → min ≤ rounds) ∧ ∀ m, max = some m → min ≤ m → rounds ≤ m

/-- A test by equality keeps a count from passing the maximum, if the minimum does not bring it past
the maximum first. -/
theorem lt_max_of_goes_on {min m count : Nat} {max : Option Nat} (hm : max = some m) (hle : min ≤ m)
    (hc : count ≤ m) (hmore : count < min ∨ max ≠ some count) : count < m := by
  rcases hmore with hlt | hne
  · exact Nat.lt_of_lt_of_le hlt hle
  · exact Nat.lt_of_le_of_ne hc fun heq => hne (heq ▸ hm)

/-! ## Tours -/

namespace Expr

/-- The addresses of one round of a repetition: its head, those of its body, and its end. -/
def lap (pc width : Nat) (round : List Nat) : List Nat := (pc + 1) :: (round ++ [pc + 2 + width])

mutual

/-- The addresses of a travel through the code of an expression at `pc`, with a number of rounds in
bounds for each repetition. -/
def Tours (pc : Nat) : Expr → List Nat → Prop
  | node _ | backref _ | multi .. | anchor _ => fun tour => tour = [pc]
  | sequence es => ToursOfAll pc es
  | choice es => ToursOfChoice pc es
  | iterate e min max _ => fun tour => ∃ rounds : List (List Nat),
    InBounds min max rounds.length ∧
      if isVoid max then rounds = [] ∧ tour = []
      else if isOnce min max then rounds = [tour] ∧ e.Tours pc tour
      else (∀ round ∈ rounds, e.Tours (pc + 2) round) ∧
        tour = pc :: (rounds.flatMap (lap pc e.width) ++ [pc + 1])
  | group e none _ => e.Tours pc
  | group e (some _) _ => fun tour =>
    ∃ inner, e.Tours (pc + 1) inner ∧ tour = pc :: (inner ++ [pc + 1 + e.width])
  | action e _ _ => fun tour => ∃ inner, e.Tours pc inner ∧ tour = inner ++ [pc + e.width]

/-- The addresses of a travel through the code of several expressions in a row. -/
def ToursOfAll (pc : Nat) : List Expr → List Nat → Prop
  | [] => fun tour => tour = []
  | e :: es => fun tour => ∃ first rest, e.Tours pc first ∧ ToursOfAll (pc + e.width) es rest ∧
      tour = first ++ rest

/-- The addresses of a travel through the code of one of several alternatives. -/
def ToursOfChoice (pc : Nat) : List Expr → List Nat → Prop
  | [] => fun tour => tour = []
  | [e] => e.Tours pc
  | e :: e' :: es => fun tour =>
    (∃ inner, e.Tours (pc + 1) inner ∧ tour = pc :: (inner ++ [pc + 1 + e.width])) ∨
      ∃ rest, ToursOfChoice (pc + e.width + 2) (e' :: es) rest ∧ tour = pc :: rest

end

end Expr

/-! ## A part of the code -/

/-- An instruction that does no more than go on to the next one. -/
def Instruction.isPlain : Instruction → Bool
  | .node _ | .openGroup _ | .closeGroup _ | .backref _ | .multi .. | .mark .. | .assert _ => true
  | .split .. | .jump _ | .enter _ | .loop .. | .next .. | .accept => false

namespace Task

variable (t : Task)

/-- A travel to the end of the program that comes to `pc` goes from there to `pc'` first, by
addresses that make a tour. -/
def Passes (pc pc' r r' : Nat) (tours : List Nat → Prop) : Prop :=
  ∀ x track y, t.Travels x track y → t.program.code[y.pc]? = some .accept → x.pc = pc →
    r' ≤ x.store.counters.size → ∃ tour z rest, track = tour ++ rest ∧ tours tour ∧ z.pc = pc' ∧
      x.store.Framed r z.store ∧ t.Travels z rest y

variable {t}

/-- A travel to the end begins with the instruction at which it is, unless that is the end. -/
theorem Travels.exists_first {x y : Point} {track : List Nat} {pc : Nat} {i : Instruction}
    (h : t.Travels x track y) (hend : t.program.code[y.pc]? = some .accept) (hpc : x.pc = pc)
    (hi : t.program.code[pc]? = some i) (hne : i ≠ .accept) :
    ∃ z rest, track = pc :: rest ∧ t.Performs x z i ∧ t.Travels z rest y := by
  subst hpc
  cases h with
  | nil =>
    rw [hi] at hend
    exact absurd (Option.some.inj hend) hne
  | cons hm rest =>
    obtain ⟨i', hi', hp⟩ := hm
    rw [hi] at hi'
    cases hi'
    exact ⟨_, _, rfl, hp, rest⟩

theorem Performs.framed {x y : Point} {i : Instruction} (h : t.Performs x y i)
    (hi : i.isPlain = true) (r : Nat) : y.pc = x.pc + 1 ∧ x.store.Framed r y.store := by
  cases i with
  | node p =>
    obtain ⟨e, -, ⟨-, rfl⟩ | ⟨v, -, rfl⟩⟩ := h
    · exact ⟨rfl, .refl _ _⟩
    · exact ⟨rfl, .note _ _ _⟩
  | openGroup id =>
    obtain rfl := h
    exact ⟨rfl, (Store.Framed.setSlot r _ _ _).trans (.setSlot r _ _ _)⟩
  | closeGroup id =>
    obtain rfl := h
    exact ⟨rfl, .setSlot _ _ _ _⟩
  | backref id =>
    obtain ⟨len, -, rfl⟩ := h
    exact ⟨rfl, .refl _ _⟩
  | multi min max text greedy =>
    obtain ⟨len, -, -, -, rfl⟩ := h
    exact ⟨rfl, .refl _ _⟩
  | mark action target =>
    obtain rfl := h
    exact ⟨rfl, .note _ _ _⟩
  | assert a =>
    obtain ⟨-, rfl⟩ := h
    exact ⟨rfl, .refl _ _⟩
  | split _ _ | jump _ | enter _ | loop _ _ _ _ _ | next _ _ _ | accept => cases hi

namespace Passes

theorem empty (pc r r' : Nat) : t.Passes pc pc r r' fun tour => tour = [] :=
  fun x track _ h _ hpc _ => ⟨[], x, track, rfl, rfl, hpc, .refl _ _, h⟩

theorem congr {pc p p' r r₁ r₂ : Nat} {f g : List Nat → Prop} (h : t.Passes pc p r r₁ f)
    (hp : p = p') (hr : r₁ = r₂) (hfg : ∀ tour, f tour → g tour) : t.Passes pc p' r r₂ g := by
  subst hp hr
  intro x track y htr hend hpc hsz
  obtain ⟨tour, z, rest, heq, htour, hz⟩ := h x track y htr hend hpc hsz
  exact ⟨tour, z, rest, heq, hfg tour htour, hz⟩

theorem plain {pc r : Nat} {i : Instruction} (hi : t.program.code[pc]? = some i)
    (hplain : i.isPlain = true) : t.Passes pc (pc + 1) r r fun tour => tour = [pc] := by
  intro x track y h hend hpc _
  have hne : i ≠ .accept := fun hne => by
    rw [hne] at hplain
    cases hplain
  obtain ⟨z, rest, rfl, hp, hrest⟩ := h.exists_first hend hpc hi hne
  obtain ⟨hz, hfr⟩ := hp.framed hplain r
  exact ⟨[pc], z, rest, rfl, rfl, hpc ▸ hz, hfr, hrest⟩

theorem append {p p' p'' r r' r'' : Nat} {f g : List Nat → Prop} (h : t.Passes p p' r r' f)
    (h' : t.Passes p' p'' r' r'' g) (hr : r ≤ r') (hr' : r' ≤ r'') :
    t.Passes p p'' r r'' fun tour => ∃ first rest, f first ∧ g rest ∧ tour = first ++ rest := by
  intro x track y htr hend hpc hsz
  obtain ⟨first, z, track', rfl, hf, hz, hfr, htr'⟩ := h x track y htr hend hpc (by omega)
  obtain ⟨second, z', rest, rfl, hg, hz', hfr', hrest⟩ :=
    h' z track' y htr' hend hz (hfr.size_eq ▸ hsz)
  exact ⟨first ++ second, z', rest, (List.append_assoc _ _ _).symm, ⟨first, second, hf, hg, rfl⟩,
    hz', hfr.trans (hfr'.mono hr), hrest⟩

theorem split {pc w p r₀ r₁ r₂ : Nat} {f g : List Nat → Prop}
    (hsplit : t.program.code[pc]? = some (.split (pc + 1) (pc + w + 2)))
    (hfirst : t.Passes (pc + 1) (pc + 1 + w) r₀ r₁ f)
    (hjump : t.program.code[pc + 1 + w]? = some (.jump p))
    (hrest : t.Passes (pc + w + 2) p r₁ r₂ g) (h₀ : r₀ ≤ r₁) (h₁ : r₁ ≤ r₂) :
    t.Passes pc p r₀ r₂ fun tour =>
      (∃ inner, f inner ∧ tour = pc :: (inner ++ [pc + 1 + w])) ∨
        ∃ rest, g rest ∧ tour = pc :: rest := by
  intro x track y h hend hpc hsz
  obtain ⟨z, track, rfl, hz, htr⟩ := h.exists_first hend hpc hsplit nofun
  rcases hz with rfl | rfl
  · obtain ⟨inner, z, track, rfl, hf, hz, hfr, htr⟩ :=
      hfirst _ _ _ htr hend rfl (Nat.le_trans h₁ hsz)
    obtain ⟨_, rest, rfl, rfl, hrest⟩ := htr.exists_first hend hz hjump nofun
    exact ⟨pc :: (inner ++ [pc + 1 + w]), ⟨p, z.pos, z.store⟩, rest, by simp, .inl ⟨inner, hf, rfl⟩,
      rfl, hfr, hrest⟩
  · obtain ⟨tour, z, rest, rfl, hg, hz, hfr, htr⟩ := hrest _ _ _ htr hend rfl hsz
    exact ⟨pc :: tour, z, rest, rfl, .inr ⟨tour, hg, rfl⟩, hz, hfr.mono h₀, htr⟩

end Passes

/-! ### Repetitions -/

section Repetition

variable {pc w r r' min : Nat} {max : Option Nat} {greedy : Bool} {tours : List Nat → Prop}
  (hbody : t.Passes (pc + 2) (pc + 2 + w) (r + 1) r' tours)
  (hloop : t.program.code[pc + 1]? = some (.loop r min max greedy (pc + w + 3)))
  (hnext : t.program.code[pc + 2 + w]? = some (.next r min (pc + 1))) (hr : r < r')

include hbody hloop hnext hr

/-- Below the minimum, and while the maximum is not met, there is a round with a count of one more.
-/
theorem leaves_or_comes_round {x y : Point} {track : List Nat} {count : Nat}
    (h : t.Travels x track y) (hend : t.program.code[y.pc]? = some .accept) (hpc : x.pc = pc + 1)
    (hsz : r' ≤ x.store.counters.size) (hcount : (x.store.counter r).count = count) :
    (¬ count < min ∧ ∃ (z : Point) (rest : List Nat), track = (pc + 1) :: rest ∧
      z.pc = pc + w + 3 ∧ x.store.Framed r z.store ∧ t.Travels z rest y) ∨
    ((count < min ∨ max ≠ some count) ∧ ∃ (round : List Nat) (z : Point) (rest : List Nat),
      track = Expr.lap pc w round ++ rest ∧ tours round ∧ z.pc = pc + 1 ∧
      (z.store.counter r).count = count + 1 ∧ x.store.Framed r z.store ∧ t.Travels z rest y) := by
  obtain ⟨z, track, rfl, hz, h⟩ := h.exists_first hend hpc hloop nofun
  dsimp only [Performs] at hz
  rw [hcount] at hz
  rcases hz with ⟨hmore, rfl⟩ | ⟨hdone, rfl⟩
  · have hfr := Store.Framed.beginIteration r x.store x.pos
    obtain ⟨round, z, track, rfl, htour, hz, hfr', h⟩ :=
      hbody _ _ _ h hend (by simp only [hpc]) (hfr.size_eq ▸ hsz)
    -- the body leaves the register of the repetition alone
    have hcounter : z.store.counter r = ⟨count, x.pos⟩ := by
      rw [hfr'.counter_eq r (Nat.lt_succ_self r), ← hcount]
      exact Store.counter_setCounter_self (Nat.lt_of_lt_of_le hr hsz)
    obtain ⟨z', rest, rfl, hz', hrest⟩ := h.exists_first hend hz hnext nofun
    simp only [Performs, hcounter] at hz'
    obtain ⟨-, rfl⟩ := hz'
    have hfr := hfr.trans (hfr'.mono (Nat.le_succ r))
    have hsz' : r < z.store.counters.size := Nat.lt_of_lt_of_le hr (hfr.size_eq ▸ hsz)
    refine .inr ⟨hmore, round, ⟨pc + 1, z.pos, z.store.setCounter r ⟨count + 1, x.pos⟩⟩, rest, ?_,
      htour, rfl, ?_, hfr.trans (.setCounter r _ _), hrest⟩
    · simp [Expr.lap]
    · exact congrArg Counter.count (Store.counter_setCounter_self hsz')
  · exact .inl ⟨hdone, ⟨pc + w + 3, x.pos, x.store⟩, track, rfl, rfl, .refl _ _, h⟩

/-- **From the head of a repetition on there are so many rounds** that the count comes to be in the
bounds. -/
theorem exists_rounds {x y : Point} {track : List Nat} {count : Nat} (h : t.Travels x track y)
    (hend : t.program.code[y.pc]? = some .accept) (hpc : x.pc = pc + 1)
    (hsz : r' ≤ x.store.counters.size) (hcount : (x.store.counter r).count = count) :
    ∃ (rounds : List (List Nat)) (z : Point) (rest : List Nat),
      track = rounds.flatMap (Expr.lap pc w) ++ (pc + 1) :: rest ∧ (∀ round ∈ rounds, tours round) ∧
      min ≤ count + rounds.length ∧
      (∀ m, max = some m → min ≤ m → count ≤ m → count + rounds.length ≤ m) ∧
      z.pc = pc + w + 3 ∧ x.store.Framed r z.store ∧ t.Travels z rest y := by
  rcases leaves_or_comes_round hbody hloop hnext hr h hend hpc hsz hcount with
    ⟨hdone, z, rest, heq, hz, hfr, hrest⟩ |
      ⟨hmore, round, z, track', heq, htour, hz, hcount', hfr, h'⟩
  · exact ⟨[], z, rest, heq, nofun, Nat.le_of_not_lt hdone, fun _ _ _ hc => hc, hz, hfr, hrest⟩
  · have hshorter : track'.length < track.length := by
      rw [heq, Expr.lap, List.cons_append, List.length_cons, List.length_append]
      omega
    obtain ⟨rounds, z, rest, heq', hrounds, hmin, hmax, hz, hfr', hrest⟩ :=
      exists_rounds h' hend hz (hfr.size_eq ▸ hsz) hcount'
    refine ⟨round :: rounds, z, rest, by simp [heq, heq'], List.forall_mem_cons.2 ⟨htour, hrounds⟩,
      by rw [List.length_cons]; omega, fun m hm hle hc => ?_, hz, hfr.trans hfr', hrest⟩
    have := hmax m hm hle (lt_max_of_goes_on hm hle hc hmore)
    rw [List.length_cons]
    omega
termination_by track.length

theorem passes_iterate (henter : t.program.code[pc]? = some (.enter r)) :
    t.Passes pc (pc + w + 3) r r' fun tour => ∃ rounds : List (List Nat),
      (min ≤ rounds.length ∧ ∀ m, max = some m → min ≤ m → rounds.length ≤ m) ∧
      (∀ round ∈ rounds, tours round) ∧
      tour = pc :: (rounds.flatMap (Expr.lap pc w) ++ [pc + 1]) := by
  intro x track y h hend hpc hsz
  obtain ⟨z, track₁, rfl, rfl, h₁⟩ := h.exists_first hend hpc henter nofun
  have hfr := Store.Framed.setCounter r x.store ⟨0, x.pos⟩
  have hcount : (x.store.setCounter r ⟨0, x.pos⟩).counter r = ⟨0, x.pos⟩ :=
    Store.counter_setCounter_self (Nat.lt_of_lt_of_le hr hsz)
  obtain ⟨rounds, z, rest, rfl, hrounds, hmin, hmax, hz, hfr', hrest⟩ :=
    exists_rounds hbody hloop hnext hr h₁ hend (by simp only [hpc])
      (hfr.size_eq ▸ hsz) (congrArg Counter.count hcount)
  rw [Nat.zero_add] at hmin hmax
  exact ⟨_, z, rest, by simp, ⟨rounds, ⟨hmin, fun m hm hle => hmax m hm hle (Nat.zero_le m)⟩,
    hrounds, rfl⟩, hz, hfr.trans hfr', hrest⟩

end Repetition

/-! ### Expressions -/

mutual

theorem passes_code (greedy : Bool) (pc r : Nat) (e : Expr) (h : t.CodeAt pc (e.code greedy pc r)) :
    t.Passes pc (pc + e.width) r (r + e.registers) (e.Tours pc) := by
  match e with
  | .node _ | .backref _ | .multi .. | .anchor _ => exact .plain h.head rfl
  | .sequence es => exact passes_codeOfAll greedy pc r es h
  | .choice es => exact passes_codeOfChoice greedy pc r es rfl h
  | .group e none _ => exact passes_code greedy pc r e h
  | .group e (some id) _ =>
    have hclose := h.tail.right.head
    rw [Expr.length_code] at hclose
    have := (Passes.plain (r := r) h.head rfl).append
      ((passes_code greedy (pc + 1) r e h.tail.left).append (.plain hclose rfl) (by omega)
        (by omega)) (Nat.le_refl r) (by omega)
    refine this.congr (by rw [Expr.width, Option.isSome_some, if_pos rfl]; omega) rfl ?_
    rintro _ ⟨_, _, rfl, ⟨inner, _, hinner, rfl, rfl⟩, rfl⟩
    exact ⟨inner, hinner, rfl⟩
  | .action e name target =>
    have hmark := h.right.head
    rw [Expr.length_code] at hmark
    have := (passes_code greedy pc r e h.left).append (.plain hmark rfl) (by omega) (by omega)
    refine this.congr rfl rfl ?_
    rintro _ ⟨inner, _, hinner, rfl, rfl⟩
    exact ⟨inner, hinner, rfl⟩
  | .iterate e min max own =>
    unfold Expr.code at h
    unfold Expr.width Expr.registers Expr.Tours
    by_cases hv : Expr.isVoid max = true
    · have hmax : max = some 0 := by simpa [Expr.isVoid] using hv
      simp only [hv, if_true]
      refine (Passes.empty pc r r).congr rfl rfl ?_
      rintro _ rfl
      exact ⟨[], ⟨fun hne => absurd hmax hne, fun m _ _ => Nat.zero_le m⟩, rfl, rfl⟩
    · simp only [hv] at h ⊢
      by_cases ho : Expr.isOnce min max = true
      · obtain ⟨rfl, rfl⟩ : min = 1 ∧ max = some 1 := by simpa [Expr.isOnce] using ho
        simp only [ho, if_true] at h ⊢
        refine (passes_code greedy pc r e h).congr rfl rfl fun tour htour => ?_
        exact ⟨[tour], ⟨fun _ => Nat.le_refl 1, fun _ _ hle => hle⟩, rfl, htour⟩
      · simp only [ho] at h ⊢
        have hn := h.tail.tail.right.head
        rw [Expr.length_code] at hn
        have := passes_iterate (passes_code (own && greedy) (pc + 2) (r + 1) e h.tail.tail.left)
          h.tail.head (by simpa using hn) (by omega) h.head
        refine this.congr rfl (by simp only [Bool.false_eq_true, if_false]; omega) ?_
        rintro tour ⟨rounds, ⟨hmin, hmax⟩, htours⟩
        exact ⟨rounds, ⟨fun _ => hmin, hmax⟩, htours⟩

theorem passes_codeOfAll (greedy : Bool) (pc r : Nat) (es : List Expr)
    (h : t.CodeAt pc (Expr.codeOfAll greedy pc r es)) :
    t.Passes pc (pc + Expr.widthOfAll es) r (r + Expr.registersOfAll es)
      (Expr.ToursOfAll pc es) := by
  match es with
  | [] => exact .empty pc r r
  | e :: es =>
    have hrest := h.right
    rw [Expr.length_code] at hrest
    have := (passes_code greedy pc r e h.left).append (passes_codeOfAll greedy _ _ es hrest)
      (by omega) (by omega)
    rwa [Nat.add_assoc, Nat.add_assoc] at this

theorem passes_codeOfChoice (greedy : Bool) (pc r : Nat) (es : List Expr) {exit : Nat}
    (hexit : exit = pc + Expr.widthOfChoice es)
    (h : t.CodeAt pc (Expr.codeOfChoice greedy pc r exit es)) :
    t.Passes pc exit r (r + Expr.registersOfAll es) (Expr.ToursOfChoice pc es) := by
  match es with
  | [] => exact hexit ▸ .empty pc r r
  | [e] => exact hexit ▸ passes_code greedy pc r e h
  | e :: e' :: es =>
    have hrest := h.tail.right
    rw [Expr.length_code] at hrest
    have hexit' : exit = pc + e.width + 2 + Expr.widthOfChoice (e' :: es) := by
      rw [hexit, Expr.widthOfChoice]
      omega
    have := passes_codeOfChoice greedy (pc + e.width + 2) (r + e.registers) (e' :: es) hexit'
      (by simpa [Nat.add_right_comm _ 1] using hrest.tail)
    have := Passes.split h.head (passes_code greedy (pc + 1) r e h.tail.left) hrest.head this
      (by omega) (by omega)
    rwa [Nat.add_assoc] at this

end

end Task

/-! ## Patterns -/

/-- Where each iteration consumes one element and the bounds are in order, no path through the
repetition covers more elements than the maximum. -/
theorem Trial.pos_le_of_mem_iterations {elements : Array Element} {body : Path → List Trial}
    (hbody : ∀ q r, .ok r ∈ body q → r.pos = q.pos + 1) {min m : Nat} {greedy : Bool}
    (hle : min ≤ m) {count : Nat} {q s : Path} (hc : count ≤ m)
    (h : .ok s ∈ iterations elements body min (some m) greedy count q) :
    s.pos + count ≤ q.pos + m := by
  induction count, q using iterations_induction elements min with
  | step count q ih =>
    rcases ok_mem_iterations.1 h with ⟨-, rfl⟩ | ⟨hmore, hit⟩
    · omega
    · obtain ⟨r, hr, hgo, hs⟩ := ok_mem_iteration.1 hit
      have := ih r hgo (lt_max_of_goes_on rfl hle hc hmore) hs
      have := hbody q r hr
      omega

namespace Pattern

variable {source : String} {root : Expr} {p : Pattern}

/-- A travel from the beginning to the end is a tour of the expression, with nothing behind it. -/
theorem tours_of_travels {elements : Array Element} {render : List Element → String}
    {stop : Option Nat} {start : Nat} {track : List Nat} {y : Point}
    (h : (p.task elements render stop).Travels (p.origin start) track y)
    (hend : p.program.code[y.pc]? = some .accept) : p.root.Tours 0 track := by
  have hcode := Task.codeAt_lower (t := p.task elements render stop) p.root p.program_eq
  obtain ⟨tour, z, rest, rfl, htour, hz, -, hrest⟩ :=
    Task.passes_code true 0 0 p.root hcode.left _ _ _ h hend rfl
      (by simp [origin, Store.initial, p.program_eq, Program.lower])
  have haccept := hcode.right.head
  rw [Expr.length_code, ← hz] at haccept
  cases hrest with
  | nil => rwa [List.append_nil]
  | cons hm _ =>
    obtain ⟨i, hi, hp⟩ := hm
    rw [haccept] at hi
    cases hi
    exact hp.elim

/-- **Every travel to the end keeps to the bounds of all repetitions**, if these do not require more
iterations than they allow. -/
theorem rounds_of_travels (hp : ofExpr source root = .ok p) (elements : Array Element)
    (render : List Element → String) (stop : Option Nat) (start : Nat) :
    (∀ track y, (p.task elements render stop).Travels (p.origin start) track y →
      p.program.code[y.pc]? = some .accept → root.Tours 0 track) ∧
    ∀ limit a b stop' store,
      (p.attempt elements render stop limit a start b).outcome = some (.accepted stop' store) →
      (∃ track pc, p.program.code[pc]? = some .accept ∧
        (p.task elements render stop).Travels (p.origin start) track ⟨pc, stop', store⟩) ∧
      ∀ np min m greedy, root = .iterate (.node np) min (some m) greedy → min ≤ m →
        stop' ≤ start + m := by
  obtain ⟨rfl, -⟩ := eq_of_ofExpr hp
  refine ⟨fun track y h hend => tours_of_travels h hend, fun limit a b stop' store h =>
    ⟨exists_travels_of_attempt h, fun np min m greedy hroot hle => ?_⟩⟩
  subst hroot
  rw [attempt_eq] at h
  have hpath := mem_pathsFrom_of_attempt h
  change .ok _ ∈ Expr.paths elements render true (.iterate (.node np) min (some m) greedy) _ at hpath
  rw [Expr.paths] at hpath
  split at hpath
  · have hpos : stop' = start := congrArg Path.pos (Except.ok.inj (List.mem_singleton.1 hpath))
    omega
  · exact Trial.pos_le_of_mem_iterations (fun _ _ hr => Trial.pos_of_mem_ofNode hr) hle
      (Nat.zero_le m) hpath

/-- One or two elements, tried on three. -/
theorem rounds_of_travels_of_two :
    let root : Expr := .iterate (.node .any) 1 (some 2) true
    let elements : Array Element :=
      #[⟨"a", fun _ => none⟩, ⟨"b", fun _ => none⟩, ⟨"c", fun _ => none⟩]
    ∃ p store track pc, ofExpr "" root = .ok p ∧
      (p.attempt elements joinTexts none none {} 0).outcome = some (.accepted 2 store) ∧
      p.program.code[pc]? = some .accept ∧
      (p.task elements joinTexts none).Travels (p.origin 0) track ⟨pc, 2, store⟩ ∧
      root.Tours 0 track ∧ 2 ≤ 0 + 2 := by
  intro root elements
  let p : Pattern := .build "" root [] 1
  have hp : ofExpr "" root = .ok p := rfl
  have hfirst : (p.pathsFrom elements joinTexts 0).find? (Trial.decides none) =
      some (.ok ⟨2, #[none, none], #[]⟩) := by cbv
  obtain ⟨store, h⟩ := exists_accepted_of_first hfirst
  have hrounds := rounds_of_travels hp elements joinTexts none 0
  obtain ⟨⟨track, pc, hend, htr⟩, hle⟩ := hrounds.2 none {} {} 2 store h
  exact ⟨p, store, track, pc, hp, h, hend, htr, hrounds.1 track _ htr hend,
    hle .any 1 2 true rfl (by decide)⟩

/-- Where the maximum is below the minimum, it is not kept: a repetition of at least two elements
and at most one takes three. -/
theorem rounds_of_crossed_bounds :
    let root : Expr := .iterate (.node .any) 2 (some 1) true
    let elements : Array Element :=
      #[⟨"a", fun _ => none⟩, ⟨"b", fun _ => none⟩, ⟨"c", fun _ => none⟩]
    ∃ p store, ofExpr "" root = .ok p ∧
      (p.attempt elements joinTexts none none {} 0).outcome = some (.accepted 3 store) ∧
      ¬ 3 ≤ 0 + 1 := by
  intro root elements
  let p : Pattern := .build "" root [] 1
  have hfirst : (p.pathsFrom elements joinTexts 0).find? (Trial.decides none) =
      some (.ok ⟨3, #[none, none], #[]⟩) := by cbv
  obtain ⟨store, h⟩ := exists_accepted_of_first hfirst
  exact ⟨p, store, rfl, h, by decide⟩

end Pattern

end Motif
