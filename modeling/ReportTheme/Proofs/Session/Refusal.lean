import ReportTheme.Proofs.Session.Tracking

/-!
Edits of a property are done or leave the session untouched. One that is refused, or that finds
nothing to remove, makes no visual type, variant or group on its way and tracks no path.
-/
namespace ReportTheme.Editor

/-- New styles are taken over together with the path that is tracked for them. -/
theorem mem_paths_setStyles (e : Editor) (styles : StyleTree) {p : Path} (hp : p ≠ []) :
    p ∈ (e.setStyles styles [p]).changes.paths :=
  (edit_reconcile _).kept p ((mem_paths_track hp).mpr (Or.inl rfl))

theorem styles_setStyles (e : Editor) (styles : StyleTree) (paths : List Path) :
    (e.setStyles styles paths).theme.styles = styles := by
  rw [theme_setStyles, Theme.reconciled]

/-- In every state a write of a property is refused and leaves all as it was, or the value stands
at its path; a removal is refused or finds nothing and leaves all as it was, or it gives what stood
at the path. Whenever something was done, the property counts as changed. -/
theorem edit_done_or_nothing (e : Editor) (visual variant : String) (path : List String) :
    (∀ v, (((e.theme.styles.bag? visual variant).getD []).Refuses path ∧
        e.setProperty visual variant path v = (.error (.invalidPath path), e)) ∨
      ∃ d, e.setProperty visual variant path v = (.ok (), d) ∧
        (d.theme.styles.bag? visual variant).bind (·.getPath? path) = some v ∧
        stylePath visual variant ++ path.take 1 ∈ d.changes.paths) ∧
    ((path = [] ∧ e.removeProperty visual variant path = (.error (.invalidPath path), e)) ∨
      (path ≠ [] ∧ (e.theme.styles.bag? visual variant).bind (·.getPath? path) = none ∧
        e.removeProperty visual variant path = (.ok none, e)) ∨
      ∃ old d, e.removeProperty visual variant path = (.ok (some old), d) ∧
        (e.theme.styles.bag? visual variant).bind (·.getPath? path) = some old ∧
        stylePath visual variant ++ path.take 1 ∈ d.changes.paths) := by
  have htracked : ∀ styles key,
      stylePath visual variant ++ [key] ∈
        (e.setStyles styles [stylePath visual variant ++ [key]]).changes.paths := fun styles key =>
    mem_paths_setStyles e styles (by simp [stylePath])
  constructor
  · intro v
    rcases e.setProperty_eq visual variant path v with
      hrefused | ⟨key, rest, rfl, hget, he⟩
    · exact Or.inl hrefused
    · refine Or.inr ⟨_, he, ?_, htracked _ key⟩
      rw [styles_setStyles]
      exact hget
  · rcases e.removeProperty_eq visual variant path with
      hrefused | hnothing | ⟨key, rest, bag, old, rfl, hbag, hget, he⟩
    · exact Or.inl hrefused
    · exact Or.inr (Or.inl hnothing)
    · refine Or.inr (Or.inr ⟨old, _, he, ?_, htracked _ key⟩)
      rw [hbag]
      exact hget

end ReportTheme.Editor
