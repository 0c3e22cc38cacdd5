import ReportTheme.Proofs.Preset.Detect

/-!
Background presets and the border. Whatever a tree holds, a border style that it matches it matches
after a background preset too: a drawn border is not touched, and a hidden one moves to the new
background, where no drawn border has its color.
-/
namespace ReportTheme

namespace StyleTree

/-- Every background preset writes the same fill behind the visuals. -/
theorem backgroundFill_applyWrites_background (t u : StyleTree) (b : Background) :
    (t.applyWrites ((Choice.background b).writes u)).backgroundFill = fill .surface := by
  have hlanded : (⟨globalVisual, "background", "color", fill .surface⟩ : Write).Landed
      (t.applyWrites ((Choice.background b).writes u)) :=
    landed_writes t u _ _ (by simp [Choice.writes])
  exact congrArg (Option.getD · (fill .surface)) hlanded.valueAt?

/-- The writes of a drawn border do not depend on the tree. -/
theorem writes_border_of_drawn {s : Border} (h : s ≠ .none) (t u : StyleTree) :
    (Choice.border s).writes t = (Choice.border s).writes u := by
  cases s with
  | none => exact absurd rfl h
  | _ => rfl

/-- The writes of a background preset are elsewhere. -/
theorem property?_border_applyWrites_background (t u : StyleTree) (b : Background)
    (visual : String) :
    (t.applyWrites ((Choice.background b).writes u)).property? visual defaultVariant "border" =
      t.property? visual defaultVariant "border" := by
  refine property?_applyWrites fun w hw hp => ?_
  have hback : ∀ p ∈ Category.background.targets, p.2.1 ≠ "border" := by decide
  exact hback w.target (Choice.target_mem hw) hp.2.2

theorem valueAt?_border_applyWrites_background (t u : StyleTree) (b : Background)
    {place : String × String × String} (h : place.2.1 = "border") :
    (t.applyWrites ((Choice.background b).writes u)).valueAt? place = t.valueAt? place := by
  rw [valueAt?_eq, valueAt?_eq, h, property?_border_applyWrites_background]

/-- Writes elsewhere leave a border as satisfied as it was. -/
theorem isSatisfied_applyWrites_background (t u : StyleTree) (b : Background) {w : Write}
    (hw : w.property = "border") :
    w.isSatisfied (t.applyWrites ((Choice.background b).writes u)) = w.isSatisfied t := by
  rw [Write.isSatisfied_eq, valueAt?_border_applyWrites_background t u b hw,
    Write.isSatisfied_eq]

theorem all_isSatisfied_border_of_drawn {s : Border} (h : s ≠ .none) (t u : StyleTree)
    (b : Background) :
    ((Choice.border s).writes (t.applyWrites ((Choice.background b).writes u))).all
        (·.isSatisfied (t.applyWrites ((Choice.background b).writes u))) =
      ((Choice.border s).writes t).all (·.isSatisfied t) := by
  have hborder : ∀ p ∈ Category.border.targets, p.2.1 = "border" := by decide
  rw [writes_border_of_drawn h _ t, Bool.eq_iff_iff, List.all_eq_true, List.all_eq_true]
  refine forall₂_congr fun w hw => ?_
  rw [isSatisfied_applyWrites_background t u b (hborder w.target (Choice.target_mem hw))]

/-- A drawn border is tried before the hidden one, so only drawn ones decide whether it is found. -/
theorem detectIn_border_of_drawn {s : Border} (hs : s ≠ .none) {t : StyleTree}
    (h : t.detectIn .border = some (.border s)) (u : StyleTree) (b : Background) :
    (t.applyWrites ((Choice.background b).writes u)).detectIn .border = some (.border s) := by
  have hdefault := all_isSatisfied_border_of_drawn (s := .default) (by simp) t u b
  have hsubtle := all_isSatisfied_border_of_drawn (s := .subtle) (by simp) t u b
  simp only [detectIn, Category.choices, Border.variants, List.map_cons, List.map_nil,
    List.find?_cons] at h ⊢
  rw [hdefault, hsubtle]
  cases hd : ((Choice.border .default).writes t).all (·.isSatisfied t) with
  | true =>
    rw [hd] at h
    exact h
  | false =>
    cases hb : ((Choice.border .subtle).writes t).all (·.isSatisfied t) with
    | true =>
      rw [hd, hb] at h
      exact h
    | false =>
      rw [hd, hb] at h
      dsimp only at h
      split at h
      · exact absurd (Choice.border.inj (Option.some.inj h)).symm hs
      · cases h

theorem hidesBorder_background (t : StyleTree) (b : Background) :
    t.hidesBorder (.background b) = true ↔ t.detectIn .border = some (.border .none) := by
  simp [hidesBorder, Choice.category]

/-- A border hidden over the background of the presets is found to be hidden, and has its color. -/
theorem hidden_applyChoice_border {t : StyleTree} (h : t.backgroundFill = fill .surface) :
    (t.applyChoice (.border .none)).1.detectIn .border = some (.border .none) ∧
    (t.applyChoice (.border .none)).1.valueAt? (globalVisual, "border", "color") =
      some (fill .surface) := by
  have hfill := (backgroundFill_applyChoice_border t .none).trans h
  constructor
  · have hfound := detectIn_applyChoice t (.border .none)
    rw [Choice.category, find?_border_none _ (hfill ▸ rfl), hfill] at hfound
    exact hfound
  · have hcolor : (⟨globalVisual, "border", "color", fill .surface⟩ : Write).Landed
        (t.applyChoice (.border .none)).1 :=
      landed_applyChoice t (.border .none) _ (by simp [Choice.writes, Border.color, hfill])
    exact hcolor.valueAt?

/-- A border style that the tree matches, it matches after a background preset too. -/
theorem detectIn_border_applyChoice_background {t : StyleTree} {s : Border}
    (h : t.detectIn .border = some (.border s)) (b : Background) :
    (t.applyChoice (.background b)).1.detectIn .border = some (.border s) := by
  have hfill := backgroundFill_applyWrites_background t t b
  by_cases hs : s = .none
  · subst hs
    rw [applyChoice_of_hidesBorder ((hidesBorder_background t b).mpr h)]
    exact (hidden_applyChoice_border hfill).1
  · have hdrawn : t.hidesBorder (.background b) = false := by
      rw [Bool.eq_false_iff, ne_eq, hidesBorder_background, h]
      exact fun he => hs (Choice.border.inj (Option.some.inj he))
    rw [applyChoice_of_not_hidesBorder hdrawn]
    exact detectIn_border_of_drawn hs h t b

/-- The border moves to the background that the preset has put there. -/
theorem border_color_applyChoice_background {t : StyleTree}
    (h : t.detectIn .border = some (.border .none)) (b : Background) :
    (t.applyChoice (.background b)).1.valueAt? (globalVisual, "border", "color") =
      some (t.applyChoice (.background b)).1.backgroundFill := by
  have hfill := backgroundFill_applyWrites_background t t b
  rw [applyChoice_of_hidesBorder ((hidesBorder_background t b).mpr h),
    (hidden_applyChoice_border hfill).2, backgroundFill_applyChoice_border, hfill]

end StyleTree

end ReportTheme
