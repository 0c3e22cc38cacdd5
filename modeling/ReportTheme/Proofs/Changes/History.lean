import Mathlib.Algebra.BigOperators.Group.Finset.Basic
import Mathlib.Data.List.DropRight
import ReportTheme.Proofs.Changes

/-!
Trackers by their history. A tracker shows the paths that were tracked since the last baseline, each
once and in order; and what it counts under a path is the path itself, if it is tracked, and what it
counts under each of the paths one segment longer.
-/
namespace ReportTheme

namespace Path

/-- The segment with which a path goes on after `top`. -/
def next? (top p : Path) : Option String := if p.isUnder top then p[top.length]? else none

theorem isUnder_iff {p top : Path} : p.isUnder top = true ↔ ∃ rest, top ++ rest = p :=
  List.isPrefixOf_iff_prefix

theorem next?_self (top : Path) : next? top top = none := by simp [next?]

theorem next?_eq_some_iff {top p : Path} {s : String} :
    next? top p = some s ↔ ∃ rest, top ++ s :: rest = p := by
  constructor
  · intro h
    obtain ⟨hunder, hget⟩ := Option.ite_none_right_eq_some.mp h
    obtain ⟨rest, rfl⟩ := isUnder_iff.mp hunder
    cases rest with
    | nil => simp at hget
    | cons t rest =>
      rw [List.getElem?_append_right le_rfl, Nat.sub_self, List.getElem?_cons_zero] at hget
      exact ⟨rest, by rw [Option.some.inj hget]⟩
  · rintro ⟨rest, rfl⟩
    rw [next?, if_pos (isUnder_iff.mpr ⟨s :: rest, rfl⟩), List.getElem?_append_right le_rfl,
      Nat.sub_self, List.getElem?_cons_zero]

/-- A path is under a child just if the child's whole segment comes next in it; that the segment
begins like the child's does not count. -/
theorem isUnder_child_iff {p top : Path} {s : String} :
    p.isUnder (top.child s) = true ↔ next? top p = some s := by
  rw [isUnder_iff, next?_eq_some_iff, child]
  simp only [List.append_assoc, List.singleton_append]

example : isUnder ["visualStyles", "cards"] (child ["visualStyles"] "card") = false := by decide

theorem isUnder_iff_eq_or_next? {p top : Path} :
    p.isUnder top = true ↔ p = top ∨ (next? top p).isSome = true := by
  simp only [Option.isSome_iff_exists, next?_eq_some_iff]
  rw [isUnder_iff]
  constructor
  · rintro ⟨rest, rfl⟩
    cases rest with
    | nil => exact .inl (List.append_nil top)
    | cons s rest => exact .inr ⟨s, rest, rfl⟩
  · rintro (rfl | ⟨s, rest, rfl⟩)
    · exact ⟨[], List.append_nil p⟩
    · exact ⟨s :: rest, rfl⟩

/-- The segments with which paths go on after `top`, each once. -/
def following (paths : List Path) (top : Path) : Finset String :=
  (paths.filterMap (next? top)).toFinset

theorem mem_following {paths : List Path} {top : Path} {s : String} :
    s ∈ following paths top ↔ ∃ rest, top ++ s :: rest ∈ paths := by
  simp only [following, List.mem_toFinset, List.mem_filterMap, next?_eq_some_iff]
  constructor
  · rintro ⟨p, hp, rest, rfl⟩
    exact ⟨rest, hp⟩
  · rintro ⟨rest, hp⟩
    exact ⟨_, hp, rest, rfl⟩

theorem countP_isUnder_eq_add_countP_next? (paths : List Path) (top : Path) :
    paths.countP (·.isUnder top) =
      paths.count top + paths.countP fun p => (next? top p).isSome := by
  induction paths with
  | nil => rfl
  | cons p paths ih =>
    simp only [List.countP_cons, List.count_cons, ih, isUnder_iff_eq_or_next?, beq_iff_eq]
    -- `top` itself does not go on, so it is not counted twice
    by_cases hp : p = top
    · subst hp
      simp only [next?_self, Option.isSome_none, Bool.false_eq_true, or_false, if_true, if_false]
      omega
    · simp only [hp, false_or, if_false]
      omega

/-- The paths under one are the path itself and, by their next segment, the paths under its
children. -/
theorem countP_isUnder (paths : List Path) (top : Path) :
    paths.countP (·.isUnder top) =
      paths.count top + ∑ s ∈ following paths top, paths.countP (·.isUnder (top.child s)) := by
  have hchild : ∀ s, (paths.filterMap (next? top)).count s =
      paths.countP (·.isUnder (top.child s)) := by
    intro s
    rw [List.count_filterMap]
    refine List.countP_congr fun p _ => ?_
    rw [beq_iff_eq, isUnder_child_iff]
  calc paths.countP (·.isUnder top)
    _ = paths.count top + (paths.filterMap (next? top)).length := by
      rw [countP_isUnder_eq_add_countP_next?, List.length_filterMap_eq_countP]
    _ = paths.count top +
        ∑ s ∈ following paths top, (paths.filterMap (next? top)).count s := by
      rw [following, List.sum_toFinset_count_eq_length]
    _ = paths.count top +
        ∑ s ∈ following paths top, paths.countP (·.isUnder (top.child s)) := by
      simp only [hchild]

end Path

namespace Changes

theorem count_eq_has_add_sum {c : Changes} (h : c.paths.Nodup) (top : Path) :
    c.count top = (if c.has top then 1 else 0) +
      ∑ s ∈ Path.following c.paths top, c.count (top.child s) := by
  rw [count, Path.countP_isUnder, h.count]
  simp only [has_iff, count]

inductive Event where
  | track (p : Path)
  | clear
  | setBaseline (t : Theme)
  deriving Repr

def Event.isTrack : Event → Bool
  | .track _ => true
  | .clear | .setBaseline _ => false

def perform (c : Changes) : Event → Changes
  | .track p => c.track p
  | .clear => c.clear
  | .setBaseline t => c.setBaseline t

def run (c : Changes) (history : List Event) : Changes := history.foldl perform c

theorem run_concat (c : Changes) (history : List Event) (e : Event) :
    c.run (history ++ [e]) = (c.run history).perform e := by
  rw [run, List.foldl_concat, ← run]

/-- The end of a history after its last baseline or clearing. -/
def sinceBaseline (history : List Event) : List Event := history.rtakeWhile Event.isTrack

/-- A path was tracked, and there was neither a baseline nor a clearing since. -/
def Recorded (history : List Event) (p : Path) : Prop := .track p ∈ sinceBaseline history

theorem recorded_concat_iff {history : List Event} {e : Event} {p : Path} :
    Recorded (history ++ [e]) p ↔ e = .track p ∨ e.isTrack = true ∧ Recorded history p := by
  unfold Recorded sinceBaseline
  rw [List.rtakeWhile_concat]
  by_cases he : e.isTrack = true
  · rw [if_pos he, and_iff_right he, List.mem_append, List.mem_singleton, eq_comm (a := e)]
    exact or_comm
  · have hne : e ≠ .track p := fun h => he (h ▸ rfl)
    simp [he, hne]

theorem mem_paths_perform {c : Changes} {e : Event} {p : Path} :
    p ∈ (c.perform e).paths ↔ p ≠ [] ∧ e = .track p ∨ e.isTrack = true ∧ p ∈ c.paths := by
  cases e with
  | track q =>
    simp only [perform, Event.isTrack, Event.track.injEq, true_and]
    by_cases hq : q = []
    · subst hq
      have hnot : ¬(p ≠ [] ∧ [] = p) := fun h => h.1 h.2.symm
      rw [or_iff_right hnot]
      rfl
    · have hsame : p = q ↔ p ≠ [] ∧ q = p := ⟨fun h => ⟨h ▸ hq, h.symm⟩, fun h => h.2.symm⟩
      rw [mem_track hq, hsame]
  | clear => simp [perform, clear, Event.isTrack]
  | setBaseline t => simp [perform, setBaseline, Event.isTrack]

theorem increasing_perform {c : Changes} (h : Path.Increasing c.paths) (e : Event) :
    Path.Increasing (c.perform e).paths := by
  cases e with
  | track p => exact increasing_track h p
  | clear => exact List.Pairwise.nil
  | setBaseline t => exact List.Pairwise.nil

theorem mem_paths_run {history : List Event} {p : Path} :
    p ∈ (empty.run history).paths ↔ p ≠ [] ∧ Recorded history p := by
  induction history using List.reverseRecOn with
  | nil => simp [run, empty, Recorded, sinceBaseline]
  | append_singleton history e ih =>
    rw [run_concat, mem_paths_perform, recorded_concat_iff, ih, and_or_left,
      and_left_comm (a := p ≠ [])]

theorem increasing_run (history : List Event) : Path.Increasing (empty.run history).paths := by
  induction history using List.reverseRecOn with
  | nil => exact List.Pairwise.nil
  | append_singleton history e ih =>
    rw [run_concat]
    exact increasing_perform ih e

/-- A tracker answers everything it is asked by what was recorded in a history. -/
structure Reflects (c : Changes) (history : List Event) : Prop where
  has : ∀ p, c.has p = true ↔ p ≠ [] ∧ Recorded history p
  listed : ∀ p, p ∈ c.paths ↔ p ≠ [] ∧ Recorded history p
  nodup : c.paths.Nodup
  increasing : c.paths.Pairwise Path.Precedes
  hasUnder : ∀ top, c.hasUnder top = true ↔ 0 < c.count top
  following : ∀ top s, s ∈ Path.following c.paths top ↔ ∃ rest, top ++ s :: rest ∈ c.paths
  count : ∀ top, c.count top = (if c.has top then 1 else 0) +
    ∑ s ∈ Path.following c.paths top, c.count (top.child s)

/-- After any events a tracker is the ordered set of the paths recorded since the last baseline, and
its counts add up segment by segment. -/
theorem paths_reflect_history (history : List Event) : (empty.run history).Reflects history where
  has _ := has_iff.trans mem_paths_run
  listed _ := mem_paths_run
  nodup := (increasing_run history).nodup
  increasing := increasing_run history
  hasUnder _ := hasUnder_iff
  following _ _ := Path.mem_following
  count := count_eq_has_add_sum (increasing_run history).nodup

end Changes

end ReportTheme
