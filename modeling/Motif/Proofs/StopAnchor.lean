import Motif.Proofs.Actions
import Motif.Proofs.Shifting

/-!
# An anchor at the end

A match of the whole sequence has to end where the sequence does. The same is asked for by an anchor
behind the expression, although it rejects a path while it is being read, and the other demand one
that has come to its end.

* `Trial.find?_ofAnchor_stop`: the first path that the anchor lets through is the first one that
  ends where it has to.
* `Search.fired_attempts_singleton`: what fires at one position, without a limit.
* `Pattern.exists_anchored`, `Pattern.pathsFrom_anchored`: the pattern with the anchor.
* **`Search.matchAt_anchored`**: it matches from the start as the expression matches as a whole.
-/

namespace Motif

namespace Trial

variable (elements : Array Element)

theorem find?_ofAnchor_stop (q : Path) :
    (ofAnchor elements .stop q).find? (decides none) =
      if decides (some elements.size) (.ok q) then some (.ok q) else none := by
  have hdecides : decides (some elements.size) (.ok q) = (q.pos == elements.size) := by
    simp only [decides, Option.all_some]
    exact Bool.beq_comm
  rw [hdecides]
  unfold ofAnchor
  dsimp only
  by_cases h : (q.pos == elements.size) = true
  · rw [if_pos h, if_pos h]
    rfl
  · rw [if_neg h, if_neg h]
    rfl

/-- **The first path that the anchor lets through** is the first one that ends with the sequence. A
failure on the way comes first in both cases. -/
theorem find?_onward_ofAnchor_stop (ts : List Trial) :
    (onward ts (ofAnchor elements .stop)).find? (decides none) =
      ts.find? (decides (some elements.size)) := by
  induction ts with
  | nil => rfl
  | cons t ts ih =>
    cases t with
    | error e => rfl
    | ok q =>
      have hcons : onward (.ok q :: ts) (ofAnchor elements .stop) =
          ofAnchor elements .stop q ++ onward ts (ofAnchor elements .stop) := rfl
      rw [hcons, List.find?_append, find?_ofAnchor_stop, ih]
      by_cases h : decides (some elements.size) (.ok q) = true
      · rw [if_pos h, List.find?_cons_of_pos h, Option.some_or]
      · rw [if_neg h, List.find?_cons_of_neg h, Option.none_or]

end Trial

namespace Pattern

/-- An expression with an anchor behind it has the same groups and the same references, so it makes
a pattern as well. -/
theorem exists_anchored {source : String} {e : Expr} {p : Pattern} (hp : ofExpr source e = .ok p)
    (source' : String) : ∃ p', ofExpr source' (.sequence [e, .anchor .stop]) = .ok p' ∧
      p'.root = .sequence [p.root, .anchor .stop] ∧ p'.names = p.names ∧
      p'.groupCount = p.groupCount ∧ p'.score = p.score := by
  obtain ⟨rfl, hrefs⟩ := eq_of_ofExpr hp
  have hgroups : (Expr.sequence [e, .anchor .stop]).groups = e.groups := by
    simp [Expr.groups, Expr.groupsOfAll]
  have hbackrefs : (Expr.sequence [e, .anchor .stop]).backrefs = e.backrefs := by
    simp [Expr.backrefs, Expr.backrefsOfAll]
  refine ⟨_, ofExpr_eq_ok (hbackrefs ▸ hgroups ▸ hrefs), rfl, ?_, ?_, rfl⟩
  · exact congrArg namedGroups hgroups
  · exact congrArg groupBound hgroups

theorem pathsFrom_anchored {p p' : Pattern} (hroot : p'.root = .sequence [p.root, .anchor .stop])
    (hcount : p'.groupCount = p.groupCount) (elements : Array Element)
    (render : List Element → String) (start : Nat) :
    p'.pathsFrom elements render start =
      Trial.onward (p.pathsFrom elements render start) (Trial.ofAnchor elements .stop) := by
  simp only [pathsFrom, hroot, hcount, Expr.paths, Expr.pathsOfAll, Trial.onward_ok]

end Pattern

namespace Search

variable {s : Search}

/-- **Without a limit the first path that may end tells what fires at a position.** -/
theorem fired_attempts_singleton (hs : s.options.maxSteps = none) (stop : Option Nat) (p : Nat) :
    (s.attempts stop [p]).events.filterMap Event.fired? =
      match (s.pattern.pathsFrom s.elements s.render p).find? (Trial.decides stop) with
      | some (.ok q) => (Note.actions q.notes.toList).map fun (action, group) =>
          (action, group, s.report p q)
      | _ => [] := by
  obtain ⟨o, ho⟩ := s.pattern.exists_outcome s.elements s.render stop p
  rw [← Pattern.trial_of_attempt (ho {}), fired_attempts, tryAll_cons, hs]
  simp only [ho]
  cases o <;> rfl

/-- **An anchor at the end asks for a match of the whole sequence**: the same outcome, and the same
actions. -/
theorem matchAt_anchored {source : String} {e : Expr} {p : Pattern}
    (hp : Pattern.ofExpr source e = .ok p) (source' : String) :
    ∃ p', Pattern.ofExpr source' (.sequence [e, .anchor .stop]) = .ok p' ∧
      ∀ s s' : Search, s.pattern = p → s'.pattern = p' → s'.elements = s.elements →
        s'.render = s.render → s'.produced = s.produced →
        s.options.maxSteps = none → s'.options.maxSteps = none →
        (s'.matchAt 0).result = s.matchWhole.result ∧
          (s'.matchAt 0).events.filterMap Event.fired? =
            s.matchWhole.events.filterMap Event.fired? := by
  obtain ⟨p', hp', hroot, hnames, hcount, hscore⟩ := Pattern.exists_anchored hp source'
  refine ⟨p', hp', fun s s' hs hs' helements hrender hproduced hmax hmax' => ?_⟩
  have hfind : (s'.pattern.pathsFrom s'.elements s'.render 0).find? (Trial.decides none) =
      (s.pattern.pathsFrom s.elements s.render 0).find? (Trial.decides (some s.length)) := by
    rw [hs', helements, hrender, Pattern.pathsFrom_anchored hroot hcount, hs]
    exact Trial.find?_onward_ofAnchor_stop _ _
  have hreport (q : Path) : s'.report 0 q = s.report 0 q := by
    simp only [report, hs, hs', helements, hrender, hproduced, hnames, hcount, hscore]
  have hmatch : s'.matchAt 0 = s'.attempts none [0] := by
    rw [matchAt, if_neg (Nat.not_lt_zero _)]
  rw [hmatch, matchWhole]
  constructor
  · rw [attempts_singleton hmax', attempts_singleton hmax, hfind]
    simp only [hreport]
  · rw [fired_attempts_singleton hmax', fired_attempts_singleton hmax, hfind]
    simp only [hreport]

/-- A group that takes one element where it can and has to take two, with payloads and an action. -/
theorem matchAt_anchored_of_lazy :
    let word : Expr := .node (.custom ⟨"f", fun e => .ok (.acceptWith (.text e.text)), false⟩)
    let e : Expr := .action (.group (.iterate word 1 none false) (some 1) (some "x")) "seen" 1
    let s : Search := {
      pattern := .build "" e [("x", 1)] 2
      elements := #[⟨"a", fun _ => none⟩, ⟨"b", fun _ => none⟩] }
    Pattern.ofExpr "" e = .ok s.pattern ∧ s.options.maxSteps = none ∧
      s.matchWhole.result.map (Option.map (·.spans)) = .ok (some [some ⟨0, 2⟩, some ⟨0, 2⟩]) ∧
      (s.matchWhole.events.filterMap Event.fired?).length = 1 ∧
      ∃ p', Pattern.ofExpr "" (.sequence [e, .anchor .stop]) = .ok p' ∧
        ((({ s with pattern := p' } : Search).matchAt 0).result = s.matchWhole.result ∧
          (({ s with pattern := p' } : Search).matchAt 0).events.filterMap Event.fired? =
            s.matchWhole.events.filterMap Event.fired?) := by
  intro word e s
  have hp : Pattern.ofExpr "" e = .ok s.pattern := rfl
  obtain ⟨p', hp', h⟩ := matchAt_anchored hp ""
  exact ⟨hp, rfl, by cbv, by cbv, p', hp', h s _ rfl rfl rfl rfl rfl rfl rfl⟩

end Search

end Motif
