import Mathlib.Data.List.Lex
import ReportTheme.Changes

/-!
Tracked paths. They stand in the order of their segments, and a path that is tracked takes its place
among them without standing there twice.
-/
namespace ReportTheme

namespace Path

/-- The first different segment decides, and a path comes before its extensions. -/
def Precedes (p q : Path) : Prop := List.Lex (· < ·) p q

theorem before_iff {p q : Path} : before p q = true ↔ p.Precedes q := by
  unfold Precedes
  induction p generalizing q with
  | nil => cases q <;> simp [before]
  | cons s p ih =>
    cases q with
    | nil => simp [before]
    | cons t q =>
      simp only [before, Bool.or_eq_true, Bool.and_eq_true, decide_eq_true_eq, beq_iff_eq, ih,
        List.cons_lex_cons_iff]

theorem Precedes.trans {p q r : Path} (h : p.Precedes q) (k : q.Precedes r) : p.Precedes r :=
  List.lex_trans (fun hst htu => String.lt_trans hst htu) h k

theorem not_precedes_self (p : Path) : ¬p.Precedes p := List.lex_irrefl String.lt_irrefl p

theorem precedes_of_not_precedes {p q : Path} (hne : p ≠ q) (h : ¬p.Precedes q) :
    q.Precedes p := by
  by_contra k
  exact hne (Std.Trichotomous.trichotomous (r := List.Lex (· < ·)) p q h k)

/-- From one path to the next the paths increase. -/
def Increasing (paths : List Path) : Prop := paths.Pairwise Precedes

theorem Increasing.nodup {paths : List Path} (h : Increasing paths) : paths.Nodup := by
  refine List.Pairwise.imp ?_ h
  rintro p _ hpq rfl
  exact not_precedes_self p hpq

theorem mem_insertInto {p q : Path} {paths : List Path} :
    q ∈ p.insertInto paths ↔ q = p ∨ q ∈ paths := by
  induction paths with
  | nil => simp [insertInto]
  | cons r paths ih =>
    rw [insertInto]
    split
    · rename_i h
      simp [h]
    · split
      · simp
      · simp only [List.mem_cons, ih]
        exact or_left_comm

theorem Increasing.insertInto {paths : List Path} (h : Increasing paths) (p : Path) :
    Increasing (p.insertInto paths) := by
  induction paths with
  | nil => exact List.pairwise_singleton _ p
  | cons q paths ih =>
    obtain ⟨hfirst, hrest⟩ := List.pairwise_cons.mp h
    rw [Path.insertInto]
    by_cases hsame : p = q
    · rw [if_pos hsame]
      exact h
    · rw [if_neg hsame]
      by_cases hless : before p q = true
      · rw [if_pos hless]
        have hpq : p.Precedes q := before_iff.mp hless
        refine List.pairwise_cons.mpr ⟨fun r hr => ?_, h⟩
        rcases List.mem_cons.mp hr with rfl | hr
        · exact hpq
        · exact hpq.trans (hfirst r hr)
      · rw [if_neg hless]
        have hqp : q.Precedes p := precedes_of_not_precedes hsame (mt before_iff.mpr hless)
        refine List.pairwise_cons.mpr ⟨fun r hr => ?_, ih hrest⟩
        rcases mem_insertInto.mp hr with rfl | hr
        · exact hqp
        · exact hfirst r hr

end Path

namespace Changes

theorem mem_track {c : Changes} {p q : Path} (hp : p ≠ []) :
    q ∈ (c.track p).paths ↔ q = p ∨ q ∈ c.paths := by
  have he : p.isEmpty = false := by simpa using hp
  rw [track, he]
  exact Path.mem_insertInto

theorem increasing_track {c : Changes} (h : Path.Increasing c.paths) (p : Path) :
    Path.Increasing (c.track p).paths := by
  rw [track]
  split
  · exact h
  · exact h.insertInto p

theorem has_iff {c : Changes} {p : Path} : c.has p = true ↔ p ∈ c.paths := List.contains_iff_mem

theorem hasUnder_iff {c : Changes} {top : Path} : c.hasUnder top = true ↔ 0 < c.count top := by
  rw [hasUnder, count, List.any_eq_true, List.countP_pos_iff]

end Changes

end ReportTheme
