import Motif.Listing
import Motif.Machine.Layout

/-!
# What a listing is linked to

The walk over an expression appends instructions that cannot be read yet: some refer to tables that
are still growing, and some go on at addresses that are replaced later. In the end they are the
instructions of the program of the expression: every number that stands for a predicate, a text or
an action is that of an entry of its table, and every address that was left open has been filled in.

* `Listing.Emits`: what has been appended stands for some instructions.
* `Listing.Emits.trans`, `Listing.Emits.emit`, `Listing.Emits.patch`: rows of instructions, one more
  of them, and one that is replaced.
* `Listing.emits_emitExpr`: the code of an expression is appended.
* **`Listing.link_lower`**: the listing of an expression is linked to its program.
* `Entry.InTables`, `Listing.inTables_of_link`: the entries of what can be linked.
-/

namespace Motif

namespace Listing

/-- What was appended between two listings stands for the instructions `is`. What stood for an
instruction before still does, and `k` registers were handed out. -/
structure Emits (l l' : Listing) (is : List Instruction) (k : Nat) : Prop where
  entries : ∃ xs, l'.entries.toList = l.entries.toList ++ xs ∧ xs.map l'.resolve = is.map some
  keeps : ∀ x i, l.resolve x = some i → l'.resolve x = some i
  registers_eq : l'.registers = l.registers + k

variable {l l' l'' : Listing} {is js : List Instruction} {i j : Instruction} {k m pc : Nat}
  {x : Entry} {pcs : List Nat}

/-! ## Replacing -/

@[simp] theorem here_patch : (l.patch pc x).here = l.here := Array.size_setIfInBounds

theorem patchAll_cons : l.patchAll (pc :: pcs) x = (l.patch pc x).patchAll pcs x := rfl

@[simp] theorem here_patchAll : (l.patchAll pcs x).here = l.here := by
  induction pcs generalizing l with
  | nil => rfl
  | cons pc pcs ih => rw [patchAll_cons, ih, here_patch]

theorem patch_comm (pc pc' : Nat) : (l.patch pc x).patch pc' x = (l.patch pc' x).patch pc x := by
  by_cases h : pc = pc'
  · rw [h]
  · unfold patch
    dsimp only
    rw [Array.setIfInBounds_comm _ _ h]

theorem patchAll_patch : (l.patch pc x).patchAll pcs x = (l.patchAll pcs x).patch pc x := by
  induction pcs generalizing l with
  | nil => rfl
  | cons pc' pcs ih => rw [patchAll_cons, patch_comm, ih, patchAll_cons]

/-! ## Appending -/

namespace Emits

theorem refl (l : Listing) : Emits l l [] 0 where
  entries := ⟨[], (List.append_nil _).symm, rfl⟩
  keeps _ _ h := h
  registers_eq := rfl

theorem here_eq (h : Emits l l' is k) : l'.here = l.here + is.length := by
  obtain ⟨xs, hxs, hmap⟩ := h.entries
  have hlen : xs.length = is.length := by simpa using congrArg List.length hmap
  rw [here, here, ← Array.length_toList, ← Array.length_toList, hxs, List.length_append, hlen]

theorem map_resolve (hkeeps : ∀ x i, l.resolve x = some i → l'.resolve x = some i)
    {xs : List Entry} (h : xs.map l.resolve = is.map some) : xs.map l'.resolve = is.map some := by
  induction xs generalizing is with
  | nil => exact h
  | cons x xs ih =>
    cases is with
    | nil => cases h
    | cons i is =>
      obtain ⟨hx, hxs⟩ := List.cons.inj h
      exact congr (congrArg List.cons (hkeeps x i hx)) (ih hxs)

/-- **What is appended one after the other stands in a row.** -/
theorem trans (h : Emits l l' is k) (h' : Emits l' l'' js m) : Emits l l'' (is ++ js) (k + m) where
  entries := by
    obtain ⟨xs, hxs, hmap⟩ := h.entries
    obtain ⟨ys, hys, hmap'⟩ := h'.entries
    refine ⟨xs ++ ys, ?_, ?_⟩
    · rw [hys, hxs, List.append_assoc]
    · rw [List.map_append, List.map_append, map_resolve h'.keeps hmap, hmap']
  keeps x i hx := h'.keeps x i (h.keeps x i hx)
  registers_eq := by rw [h'.registers_eq, h.registers_eq, Nat.add_assoc]

theorem single (hkeeps : ∀ x i, l.resolve x = some i → l'.resolve x = some i)
    (hentries : l'.entries = l.entries) (hregisters : l'.registers = l.registers + k)
    (hx : l'.resolve x = some i) : Emits l (l'.emit x) [i] k where
  entries := ⟨[x], by rw [← hentries]; exact Array.toList_push, congrArg ([·]) hx⟩
  keeps := hkeeps
  registers_eq := hregisters

theorem emit (h : Emits l l' is k) (hx : l'.resolve x = some i) :
    Emits l (l'.emit x) (is ++ [i]) k :=
  h.trans (.single (k := 0) (fun _ _ h => h) rfl rfl hx)

/-- **Replacing an entry that was appended** replaces the instruction that it stands for. -/
theorem patch (h : Emits l l' (is ++ i :: js) k) (hpc : pc = l.here + is.length)
    (hx : l'.resolve x = some j) : Emits l (l'.patch pc x) (is ++ j :: js) k where
  entries := by
    obtain ⟨xs, hxs, hmap⟩ := h.entries
    refine ⟨xs.set is.length x, ?_, ?_⟩
    · have hpc' : pc = l.entries.toList.length + is.length := by rw [Array.length_toList]; exact hpc
      rw [Listing.patch, Array.toList_setIfInBounds, hxs, hpc',
        List.set_append_right _ _ (Nat.le_add_right _ _), Nat.add_sub_cancel_left]
    · have hset : (is ++ i :: js).set is.length j = is ++ j :: js := by
        rw [List.set_append_right _ _ (Nat.le_refl _), Nat.sub_self, List.set_cons_zero]
      rw [List.map_set, ← hset, List.map_set]
      exact congr (congrArg (List.set · _) hmap) hx
  keeps := h.keeps
  registers_eq := h.registers_eq

end Emits

/-! ## Tables -/

theorem getElem?_push {α : Type} {ys : Array α} {n : Nat} {y : α} (h : ys[n]? = some y) (z : α) :
    (ys.push z)[n]? = some y := by
  have hn := (Array.getElem?_eq_some_iff.1 h).1
  rw [Array.getElem?_push, if_neg (Nat.ne_of_lt hn), h]

theorem resolve_mono (l l' : Listing)
    (hnodes : ∀ (n : Nat) y, l.nodes[n]? = some y → l'.nodes[n]? = some y)
    (htexts : ∀ (n : Nat) y, l.texts[n]? = some y → l'.texts[n]? = some y)
    (hactions : ∀ (n : Nat) y, l.actions[n]? = some y → l'.actions[n]? = some y) (x : Entry)
    (i : Instruction) (h : l.resolve x = some i) : l'.resolve x = some i := by
  cases x with
  | node n =>
    obtain ⟨y, hy, rfl⟩ := Option.map_eq_some_iff.1 h
    exact Option.map_eq_some_iff.2 ⟨y, hnodes n y hy, rfl⟩
  | multi min max n greedy =>
    obtain ⟨y, hy, rfl⟩ := Option.map_eq_some_iff.1 h
    exact Option.map_eq_some_iff.2 ⟨y, htexts n y hy, rfl⟩
  | mark n target =>
    obtain ⟨y, hy, rfl⟩ := Option.map_eq_some_iff.1 h
    exact Option.map_eq_some_iff.2 ⟨y, hactions n y hy, rfl⟩
  | _ => exact h

/-! ## The walk -/

mutual

/-- **The walk appends the code of an expression.** -/
theorem emits_emitExpr (l : Listing) (greedy : Bool) (e : Expr) :
    Emits l (l.emitExpr greedy e) (e.code greedy l.here l.registers) e.registers := by
  match e with
  | .node p =>
    have hkeeps := resolve_mono l { l with nodes := l.nodes.push p }
      (fun _ _ h => getElem?_push h p) (fun _ _ h => h) fun _ _ h => h
    exact .single hkeeps rfl rfl
      (by simp only [resolve, Array.getElem?_push_size, Option.map_some])
  | .sequence es => exact emits_emitAll l greedy es
  | .choice es =>
    have hchoice := emits_emitChoice l greedy es (l.emitChoice greedy es).1.here
    have hhere := hchoice.here_eq
    rw [here_patchAll, Expr.length_codeOfChoice] at hhere
    change Emits l ((l.emitChoice greedy es).1.patchAll (l.emitChoice greedy es).2
      (.jump (l.emitChoice greedy es).1.here)) _ _
    rw [Expr.code, ← hhere]
    exact hchoice
  | .iterate e min max own =>
    unfold emitExpr Expr.code Expr.registers
    by_cases hv : Expr.isVoid max = true
    · simp only [hv, if_true]
      exact .refl l
    by_cases ho : Expr.isOnce min max = true
    · simp only [hv, ho, Bool.false_eq_true, if_false, if_true]
      exact emits_emitExpr l greedy e
    simp only [hv, ho, Bool.false_eq_true, if_false]
    -- The head is appended without its exit, which is known only behind the body.
    let entered := { l with registers := l.registers + 1 }.emit (.enter l.registers)
    let begun := entered.emit (.loop l.registers min max own 0)
    let done := (begun.emitExpr (own && greedy) e).emit (.next l.registers min entered.here)
    have henter : Emits l entered [.enter l.registers] 1 := .single (fun _ _ h => h) rfl rfl rfl
    have hhead : entered.here = l.here + 1 := henter.here_eq
    have hbegun : Emits l begun [.enter l.registers, .loop l.registers min max own 0] 1 :=
      henter.emit rfl
    have hbody := emits_emitExpr begun (own && greedy) e
    rw [hbegun.here_eq, hbegun.registers_eq] at hbody
    have hdone : Emits l done ([.enter l.registers] ++ .loop l.registers min max own 0 ::
        (e.code (own && greedy) (l.here + 2) (l.registers + 1) ++
          [.next l.registers min entered.here])) (1 + e.registers) := (hbegun.trans hbody).emit rfl
    have hexit : done.here = l.here + e.width + 3 := by
      rw [hdone.here_eq]
      simp only [List.length_append, List.length_cons, List.length_nil, Expr.length_code]
      omega
    rw [← hhead, ← hexit, Nat.add_comm e.registers]
    exact hdone.patch hhead rfl
  | .group e none _ => exact emits_emitExpr l greedy e
  | .group e (some id) _ =>
    have hopen : Emits l (l.emit (.openGroup id)) [.openGroup id] 0 := (Emits.refl l).emit rfl
    have hbody := emits_emitExpr (l.emit (.openGroup id)) greedy e
    rw [hopen.here_eq, hopen.registers_eq] at hbody
    have := (hopen.trans hbody).emit (x := .closeGroup id) rfl
    rwa [Nat.zero_add] at this
  | .backref id => exact (Emits.refl l).emit rfl
  | .multi min max text own =>
    have hkeeps := resolve_mono l { l with texts := l.texts.push text }
      (fun _ _ h => h) (fun _ _ h => getElem?_push h text) fun _ _ h => h
    exact .single hkeeps rfl rfl
      (by simp only [resolve, Array.getElem?_push_size, Option.map_some])
  | .action e name target =>
    let body := l.emitExpr greedy e
    have hkeeps := resolve_mono body { body with actions := body.actions.push name }
      (fun _ _ h => h) (fun _ _ h => h) fun _ _ h => getElem?_push h name
    exact (emits_emitExpr l greedy e).trans (m := 0) (.single (k := 0) hkeeps rfl rfl
      (by simp only [resolve, Array.getElem?_push_size, Option.map_some]))
  | .anchor a => exact (Emits.refl l).emit rfl

theorem emits_emitAll (l : Listing) (greedy : Bool) (es : List Expr) :
    Emits l (l.emitAll greedy es) (Expr.codeOfAll greedy l.here l.registers es)
      (Expr.registersOfAll es) := by
  match es with
  | [] => exact .refl l
  | e :: es =>
    have hfirst := emits_emitExpr l greedy e
    have hrest := emits_emitAll (l.emitExpr greedy e) greedy es
    rw [hfirst.here_eq, Expr.length_code, hfirst.registers_eq] at hrest
    exact hfirst.trans hrest

theorem emits_emitChoice (l : Listing) (greedy : Bool) (es : List Expr) (exit : Nat) :
    Emits l ((l.emitChoice greedy es).1.patchAll (l.emitChoice greedy es).2 (.jump exit))
      (Expr.codeOfChoice greedy l.here l.registers exit es) (Expr.registersOfAll es) := by
  match es with
  | [] => exact .refl l
  | [e] =>
    rw [Expr.registersOfAll, Expr.registersOfAll, Nat.add_zero]
    exact emits_emitExpr l greedy e
  | e :: e' :: es =>
    let begun := l.emit (.split 0 0)
    let first := begun.emitExpr greedy e
    let behind := first.emit (.jump 0)
    let patched := behind.patch l.here (.split begun.here behind.here)
    let others := patched.emitChoice greedy (e' :: es)
    have hbegun : Emits l begun [.split 0 0] 0 := (Emits.refl l).emit rfl
    have hprimary : begun.here = l.here + 1 := hbegun.here_eq
    have hfirst := emits_emitExpr begun greedy e
    rw [hbegun.registers_eq] at hfirst
    have hexit : first.here = l.here + (e.width + 1) := by
      rw [hfirst.here_eq, hprimary, Expr.length_code, Nat.add_assoc, Nat.add_comm 1]
    have halternate : behind.here = l.here + e.width + 2 :=
      (Array.size_push _).trans (congrArg (· + 1) hexit)
    have hbehind : Emits l behind ([] ++ .split 0 0 ::
        (e.code greedy begun.here l.registers ++ [.jump 0])) e.registers := by
      have := (hbegun.trans hfirst).emit (x := .jump 0) rfl
      rwa [Nat.zero_add] at this
    have hpatched : Emits l patched (.split (l.here + 1) (l.here + e.width + 2) ::
        (e.code greedy (l.here + 1) l.registers ++ [.jump 0])) e.registers := by
      rw [← hprimary, ← halternate]
      exact hbehind.patch (x := .split begun.here behind.here) rfl rfl
    have hothers := emits_emitChoice patched greedy (e' :: es) exit
    rw [here_patch, halternate, hpatched.registers_eq] at hothers
    -- The jump behind the first alternative may as well be replaced last.
    change Emits l ((others.1.patch first.here (.jump exit)).patchAll others.2 (.jump exit)) _ _
    rw [patchAll_patch, Expr.codeOfChoice]
    have hall := hpatched.trans hothers
    rw [List.cons_append, List.append_assoc, ← List.cons_append] at hall
    rw [← List.cons_append]
    exact hall.patch (by rw [List.length_cons, Expr.length_code, hexit]) rfl

end

theorem mapM_resolve_iff {xs : List Entry} :
    xs.mapM l.resolve = some is ↔ xs.map l.resolve = is.map some := by
  induction xs generalizing is with
  | nil => cases is <;> simp
  | cons x xs ih => cases is <;> simp [List.mapM_cons, Option.bind_eq_some_iff, ← ih]

/-- **The listing of an expression is linked to its program.** -/
theorem link_lower (e : Expr) : (lower e).link = some (.lower e) := by
  have h : Emits {} (lower e) (e.code true 0 0 ++ [.accept]) e.registers :=
    (emits_emitExpr {} true e).emit (x := .accept) rfl
  obtain ⟨xs, hxs, hmap⟩ := h.entries
  have hregisters : (lower e).registers = e.registers := h.registers_eq.trans (Nat.zero_add _)
  have hentries : (lower e).entries.toList = xs := hxs
  rw [link, hentries, mapM_resolve_iff.2 hmap, hregisters]
  rfl

end Listing

/-! ## Entries -/

/-- What an entry refers to is in the tables. -/
def Entry.InTables (l : Listing) : Entry → Prop
  | node index => index < l.nodes.size
  | multi _ _ text _ => text < l.texts.size
  | mark action _ => action < l.actions.size
  | _ => True

theorem Entry.inTables_of_resolve {l : Listing} {x : Entry} {i : Instruction}
    (h : l.resolve x = some i) : x.InTables l := by
  cases x with
  | node | multi | mark =>
    obtain ⟨y, hy, -⟩ := Option.map_eq_some_iff.1 h
    exact (Array.getElem?_eq_some_iff.1 hy).1
  | _ => trivial

/-- **What can be linked refers to its tables only within their bounds.** -/
theorem Listing.inTables_of_link {l : Listing} {p : Program} (h : l.link = some p) :
    ∀ x ∈ l.entries, x.InTables l := by
  intro x hx
  obtain ⟨is, his, -⟩ := Option.map_eq_some_iff.1 h
  have hmem : l.resolve x ∈ is.map some := by
    rw [← mapM_resolve_iff.1 his]
    exact List.mem_map_of_mem (Array.mem_toList_iff.2 hx)
  obtain ⟨i, -, hi⟩ := List.mem_map.1 hmem
  exact Entry.inTables_of_resolve hi.symm

end Motif
