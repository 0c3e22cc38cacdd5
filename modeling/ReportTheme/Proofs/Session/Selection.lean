import ReportTheme.Proofs.Session.Operation

/-!
Stored choices are only ever a view of the styles: in no session is a choice stored that the styles
do not match, neither in the theme nor in the baseline that `Editor.reset` goes back to.
-/
namespace ReportTheme

/-- Whether every stored choice is the one that the styles match. -/
def Theme.Settled (t : Theme) : Prop := t.selection.IsView t.styles

namespace Theme

theorem settled_reconciled (t : Theme) : t.reconciled.Settled :=
  t.selection.isView_reconcile t.styles

theorem Settled.reconciled_eq {t : Theme} (h : t.Settled) : t.reconciled = t := by
  rw [reconciled, h.reconcile_eq]

end Theme

/-- The theme is settled, and there is a baseline, which is settled too. -/
structure Editor.Settled (e : Editor) : Prop where
  theme : e.theme.Settled
  baseline : ∃ b, e.changes.baseline = some b ∧ b.Settled

namespace Editor

theorem settled_new (t : Theme) : (new t).Settled :=
  ⟨t.settled_reconciled, t.reconciled, rfl, t.settled_reconciled⟩

theorem Settled.edited {d e : Editor} (h : d.Settled) (ht : e.theme.Settled)
    (hb : e.changes.baseline = d.changes.baseline) : e.Settled :=
  ⟨ht, hb ▸ h.baseline⟩

theorem Settled.setStyles {e : Editor} (h : e.Settled) (styles : StyleTree) (paths : List Path) :
    (e.setStyles styles paths).Settled := by
  refine h.edited ?_ (baseline_setStyles e styles paths)
  rw [theme_setStyles]
  exact Theme.settled_reconciled _

theorem Settled.applyChoice {e : Editor} (h : e.Settled) (c : Choice) :
    (e.applyChoice c).Settled := by
  refine h.edited ?_ (baseline_applyChoice e c)
  rw [theme_applyChoice]
  exact Theme.settled_reconciled _

/-- Going back to a settled baseline drops no choice. -/
theorem Settled.theme_reset {e : Editor} (h : e.Settled) :
    e.changes.baseline = some e.reset.theme := by
  obtain ⟨b, hb, hs⟩ := h.baseline
  rw [Editor.reset, hb, Option.map_some, Option.getD_some, hs.reconciled_eq]

theorem Settled.perform {e : Editor} (h : e.Settled) (op : Operation) :
    (e.perform op).Settled := by
  cases op with
  | load t => exact ⟨t.settled_reconciled, t.reconciled, rfl, t.settled_reconciled⟩
  | markSaved => exact ⟨h.theme, e.theme, rfl, h.theme⟩
  | reset =>
    obtain ⟨b, hb, hs⟩ := h.baseline
    have ht : e.reset.theme = b := Option.some.inj (h.theme_reset.symm.trans hb)
    exact ⟨ht ▸ hs, b, hb, hs⟩
  | setProperty visual variant path v =>
    rw [Editor.perform]
    rcases e.setProperty_cases visual variant path v with he | ⟨key, rest, -, he⟩ <;> rw [he]
    · exact h
    · exact h.setStyles _ _
  | removeProperty visual variant path =>
    rw [Editor.perform]
    rcases e.removeProperty_cases visual variant path with
      he | ⟨key, rest, bag, -, -, he⟩ <;> rw [he]
    · exact h
    · exact h.setStyles _ _
  | setBag visual variant bag => exact h.setStyles _ _
  | removeBag visual variant => exact h.setStyles _ _
  | applyChoice c => exact h.applyChoice c
  -- The rest touches neither the styles nor the stored choices.
  | _ => exact h.edited h.theme rfl

/-- In every session each stored choice is unset or the one that the styles match, and so is each
of the baseline. -/
theorem selection_is_view (t : Theme) (ops : List Operation) :
    (∀ c, ((new t).run ops).theme.selection.get? c = none ∨
      ((new t).run ops).theme.selection.get? c = ((new t).run ops).detected.get? c) ∧
    ∃ b, ((new t).run ops).changes.baseline = some b ∧
      ∀ c, b.selection.get? c = none ∨ b.selection.get? c = b.styles.detect.get? c := by
  have h : ((new t).run ops).Settled :=
    run_invariant (fun e he op _ => he.perform op) (settled_new t)
  exact ⟨h.theme, h.baseline⟩

end Editor

end ReportTheme
