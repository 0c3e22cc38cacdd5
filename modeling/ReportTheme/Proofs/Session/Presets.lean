import ReportTheme.Proofs.Preset.Background
import ReportTheme.Proofs.Session.Content
import ReportTheme.Proofs.Session.Selection

/-!
Applying a choice in a session: it stays stored just if the styles match it afterwards, which fails
only for a hidden border over a background in the color of a drawn border. A background preset costs
no stored border style.
-/
namespace ReportTheme

/-- Whether the styles that an operation brings in repeat no key. -/
def Operation.Keyed : Operation → Prop
  | .load t => t.styles.Keyed
  | .setProperty _ _ _ v => v.keyed = true
  | .setBag _ _ bag => bag.Keyed
  | _ => True

/-- No key stands twice in the styles of the theme or of the baseline. -/
structure Editor.Keyed (e : Editor) : Prop where
  styles : e.theme.styles.Keyed
  baseline : ∀ b, e.changes.baseline = some b → b.styles.Keyed

namespace Editor

theorem keyed_new {t : Theme} (h : t.styles.Keyed) : (new t).Keyed :=
  ⟨h, fun _ hb => Option.some.inj hb ▸ h⟩

theorem Keyed.saved {e : Editor} (h : e.Keyed) : e.saved.styles.Keyed := by
  rw [Editor.saved]
  cases hb : e.changes.baseline with
  | none => exact h.styles
  | some b => exact h.baseline b hb

theorem Keyed.perform {e : Editor} (h : e.Keyed) {op : Operation} (hop : op.Keyed) :
    (e.perform op).Keyed := by
  have hstyles : op.StylesHold fun v => v.keyed = true := by cases op <;> exact hop
  refine ⟨?_, fun b hb => ?_⟩
  · rw [styles_perform]
    exact h.saved.holds.perform Value.hereditary_keyed Value.keyed_ofPresets h.styles hstyles
  · rw [baseline_perform] at hb
    cases op with
    | load t => exact Option.some.inj hb ▸ hop
    | markSaved => exact Option.some.inj hb ▸ h.styles
    | _ => exact h.baseline b hb

/-- Reconciliation keeps an applied choice just if the styles match it. -/
theorem selected_applyChoice_iff (e : Editor) (c : Choice) :
    (e.applyChoice c).theme.selection.get? c.category = some c ↔
      (e.theme.styles.applyChoice c).1.detect.get? c.category = some c := by
  rw [theme_applyChoice, Theme.reconciled, Selection.get?_reconcile, Selection.get?_set, if_pos rfl]
  dsimp only
  split
  · rename_i h
    simp [← h]
  · rename_i h
    simp [Ne.symm h]

/-- A stored choice stays when another category is chosen and the styles still match it. -/
theorem selected_applyChoice_of_ne {e : Editor} {c choice : Choice}
    (hne : c.category ≠ choice.category)
    (hstored : e.theme.selection.get? choice.category = some choice)
    (hmatched : (e.theme.styles.applyChoice c).1.detect.get? choice.category = some choice) :
    (e.applyChoice c).theme.selection.get? choice.category = some choice := by
  have hset : (e.theme.selection.set c).get? choice.category = some choice := by
    rw [Selection.get?_set, if_neg hne, hstored]
  rw [theme_applyChoice, Theme.reconciled, Selection.get?_reconcile]
  dsimp only
  rw [hset, hmatched, if_pos rfl]

end Editor

/-- Applying a choice to a tree, and applying it in any session: the tree matches the choice, and
the session keeps it, in all cases but that of a hidden border that looks like a drawn one. -/
theorem choice_consistent_iff (c : Choice) :
    (∀ t : KeyedTree, (t.applyChoice c).1.detect.get? c.category = some c ↔
      ¬(c = .border .none ∧ t.HiddenLooksDrawn)) ∧
    (∀ (t : Theme) (ops : List Operation), t.styles.Keyed → (∀ op ∈ ops, op.Keyed) →
      ((((Editor.new t).run ops).applyChoice c).theme.selection.get? c.category = some c ↔
        ¬(c = .border .none ∧ ((Editor.new t).run ops).theme.styles.HiddenLooksDrawn))) := by
  refine ⟨fun t => StyleTree.detect_applyChoice t c, fun t ops ht hops => ?_⟩
  have h : ((Editor.new t).run ops).Keyed :=
    Editor.run_invariant (fun e he op hop => he.perform (hops op hop)) (Editor.keyed_new ht)
  rw [Editor.selected_applyChoice_iff]
  exact StyleTree.detect_applyChoice ⟨_, h.styles⟩ c

theorem not_hiddenLooksDrawn_empty : ¬StyleTree.empty.HiddenLooksDrawn := by decide

/-- Over no background of its own the hidden border is found again, and the session keeps it. -/
theorem hidden_border_kept :
    (StyleTree.empty.applyChoice (.border .none)).1.detect.get? .border = some (.border .none) ∧
    (((Editor.new (Theme.new "id" "name")).run [.setMode .dark]).applyChoice
      (.border .none)).theme.selection.get? .border = some (.border .none) :=
  ⟨((choice_consistent_iff (.border .none)).1 KeyedTree.empty).mpr
      fun h => not_hiddenLooksDrawn_empty h.2,
    ((choice_consistent_iff (.border .none)).2 (Theme.new "id" "name") [.setMode .dark]
      StyleTree.keyed_empty (by simp [Operation.Keyed])).mpr
      fun h => not_hiddenLooksDrawn_empty h.2⟩

/-- Styles with a background in the color of the default border. -/
def outlinedStyles : StyleTree :=
  StyleTree.empty.setBag globalVisual defaultVariant
    [("background", .list [.group [("color", fill .borderPrimary)]])]

/-- Over the color of the default border it is taken for that one, and the session drops it. -/
theorem hidden_border_lost :
    outlinedStyles.Keyed ∧
    (outlinedStyles.applyChoice (.border .none)).1.detect.get? .border =
      some (.border .default) ∧
    ((Editor.new { Theme.new "id" "name" with styles := outlinedStyles }).applyChoice
      (.border .none)).theme.selection.get? .border = none := by
  decide

/-- No background preset loses the border style: neither does a tree that matches one, where a
hidden border takes the color of the new background, nor a session that has one stored. -/
theorem border_outlives_background (b : Background) :
    (∀ (t : StyleTree) (s : Border), t.detect.get? .border = some (.border s) →
      (t.applyChoice (.background b)).1.detect.get? .border = some (.border s) ∧
      (s = .none → (t.applyChoice (.background b)).1.valueAt? (globalVisual, "border", "color") =
        some (t.applyChoice (.background b)).1.backgroundFill)) ∧
    (∀ (t : Theme) (ops : List Operation) (s : Border),
      ((Editor.new t).run ops).theme.selection.get? .border = some (.border s) →
      (((Editor.new t).run ops).applyChoice (.background b)).theme.selection.get? .border =
        some (.border s)) := by
  have htree : ∀ (t : StyleTree) (s : Border), t.detect.get? .border = some (.border s) →
      (t.applyChoice (.background b)).1.detect.get? .border = some (.border s) := by
    intro t s h
    rw [StyleTree.get?_detect] at h ⊢
    exact StyleTree.detectIn_border_applyChoice_background h b
  refine ⟨fun t s h => ⟨htree t s h, ?_⟩, fun t ops s hstored => ?_⟩
  · rintro rfl
    rw [StyleTree.get?_detect] at h
    exact StyleTree.border_color_applyChoice_background h b
  · have hsettled : ((Editor.new t).run ops).Settled :=
      Editor.run_invariant (fun e he op _ => he.perform op) (Editor.settled_new t)
    have hmatched : ((Editor.new t).run ops).theme.styles.detect.get? .border =
        some (.border s) := by
      rcases hsettled.theme .border with hnone | hview
      · rw [hstored] at hnone
        cases hnone
      · rw [← hview, hstored]
    have hne : (Choice.background b).category ≠ (Choice.border s).category := fun he => nomatch he
    exact Editor.selected_applyChoice_of_ne hne hstored (htree _ s hmatched)

/-- A session with a background of no preset and the border hidden over it. -/
def hiddenOverPaper : Editor :=
  (Editor.new (Theme.new "id" "name")).run
    [.setBag globalVisual defaultVariant
        [("background", .list [.group [("color", .solid (.hex "#FAFAFA"))]])],
      .applyChoice (.border .none)]

theorem border_outlives_tinted :
    hiddenOverPaper.detected.get? .border = some (.border .none) ∧
    (hiddenOverPaper.theme.styles.applyChoice (.background .tinted)).1.detect.get? .border =
      some (.border .none) ∧
    (hiddenOverPaper.theme.styles.applyChoice (.background .tinted)).1.valueAt?
        (globalVisual, "border", "color") =
      some (hiddenOverPaper.theme.styles.applyChoice (.background .tinted)).1.backgroundFill ∧
    hiddenOverPaper.theme.selection.get? .border = some (.border .none) ∧
    (hiddenOverPaper.applyChoice (.background .tinted)).theme.selection.get? .border =
      some (.border .none) := by
  have hmatched : hiddenOverPaper.detected.get? .border = some (.border .none) := by decide
  have hstored : hiddenOverPaper.theme.selection.get? .border = some (.border .none) := by decide
  obtain ⟨htree, hsession⟩ := border_outlives_background .tinted
  obtain ⟨hfound, hmoved⟩ := htree hiddenOverPaper.theme.styles .none hmatched
  exact ⟨hmatched, hfound, hmoved rfl, hstored, hsession _ _ .none hstored⟩

end ReportTheme
