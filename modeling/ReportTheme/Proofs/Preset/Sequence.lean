import ReportTheme.Proofs.Preset.Detect

/-!
Choices applied one after another to a tree without styles. The tree then matches, in each category,
the choice that was applied last, and none where none was applied. The invariant `Selection.Stands`
says which selection the tree is the picture of: no preset leaves a background in another color than
its own, so a hidden border always has the one color that no drawn border has.
-/
namespace ReportTheme

/-- The tree after applying choices in turn. -/
def StyleTree.applyChoices (t : StyleTree) (cs : List Choice) : StyleTree :=
  cs.foldl (fun t c => (t.applyChoice c).1) t

namespace Selection

theorem category_of_get? {s : Selection} {c : Category} {choice : Choice}
    (h : s.get? c = some choice) : choice.category = c := by
  cases c <;>
    · obtain ⟨v, -, rfl⟩ := Option.map_eq_some_iff.mp h
      rfl

theorem set_eq_self {s : Selection} {choice : Choice} (h : s.get? choice.category = some choice) :
    s.set choice = s := by
  refine ext_get? fun c => ?_
  rw [get?_set]
  split
  · rename_i hc
    rw [← h, hc]
  · rfl

theorem get?_foldl_set (cs : List Choice) (s : Selection) (c : Category) :
    (cs.foldl set s).get? c = ((cs.filter fun d => d.category = c).getLast?).or (s.get? c) := by
  induction cs generalizing s with
  | nil => rfl
  | cons d cs ih =>
    rw [List.foldl_cons, ih, get?_set]
    by_cases hd : d.category = c
    · rw [if_pos hd, List.filter_cons_of_pos (by simpa using hd), List.getLast?_cons]
      cases (cs.filter fun d => d.category = c).getLast? <;> rfl
    · rw [if_neg hd, List.filter_cons_of_neg (by simpa using hd)]

/-- The writes of every choice of a selection stand in the tree, with the border hidden in the color
of the background presets, and no category without a choice has anything in its places. -/
structure Stands (s : Selection) (t : StyleTree) : Prop where
  written : ∀ c choice, s.get? c = some choice → ∀ w ∈ choice.writes .empty, w.Landed t
  vacant : ∀ c, s.get? c = none → ∀ place ∈ c.targets, t.valueAt? place = none

theorem stands_unset : unset.Stands .empty where
  written c choice h := by cases c <;> cases h
  vacant _ _ _ _ := rfl

namespace Stands

variable {s : Selection} {t : StyleTree}

theorem backgroundFill_eq (h : s.Stands t) : t.backgroundFill = fill .surface := by
  rw [StyleTree.backgroundFill]
  change (t.valueAt? (globalVisual, "background", "color")).getD _ = _
  cases hs : s.get? .background with
  | none =>
    have hnone := h.vacant .background hs (globalVisual, "background", "color") (by decide)
    rw [hnone, Option.getD_none]
  | some choice =>
    obtain ⟨b, -, rfl⟩ := Option.map_eq_some_iff.mp hs
    have hcolor : (⟨globalVisual, "background", "color", fill .surface⟩ : Write).Landed t :=
      h.written .background _ hs _ (by simp [Choice.writes])
    exact congrArg (Option.getD · _) hcolor.valueAt?

/-- In such a tree a choice writes what it writes in the empty one. -/
theorem writes_eq (h : s.Stands t) (c : Choice) : c.writes t = c.writes .empty :=
  Choice.writes_congr (h.backgroundFill_eq.trans rfl) c

theorem applyWrites (h : s.Stands t) (c : Choice) :
    (s.set c).Stands (t.applyWrites (c.writes t)) := by
  -- Another category has its places for itself.
  have hother : ∀ d, c.category ≠ d → ∀ place ∈ d.targets, ∀ w ∈ c.writes t, w.target ≠ place := by
    intro d hd place hplace w hw he
    exact Category.targets_disjoint hd _ (Choice.target_mem hw) (he ▸ hplace)
  constructor
  · intro d choice hchoice w hw
    rw [get?_set] at hchoice
    split at hchoice
    · obtain rfl := Option.some.inj hchoice
      rw [h.writes_eq c]
      exact StyleTree.landed_writes t .empty c w hw
    · rename_i hd
      have hplace : w.target ∈ d.targets := category_of_get? hchoice ▸ Choice.target_mem hw
      exact StyleTree.landed_applyWrites_of_landed (h.written d choice hchoice w hw)
        (hother d hd w.target hplace)
  · intro d hnone place hplace
    rw [get?_set] at hnone
    split at hnone
    · cases hnone
    · rename_i hd
      exact StyleTree.valueAt?_applyWrites_of_none (h.vacant d hnone place hplace)
        (hother d hd place hplace)

end Stands

end Selection

/-- Of the choices of a category only a choice itself agrees with what it writes. -/
theorem Choice.find?_agrees_empty (c : Choice) :
    c.category.choices.find? (c.agrees .empty) = some c := by
  rcases c with p | r | b | b
  · cases p <;> rfl
  · cases r <;> rfl
  · cases b <;> rfl
  · cases b <;> rfl

namespace Selection.Stands

variable {s : Selection} {t : StyleTree}

theorem detectIn_eq (h : s.Stands t) (c : Category) : t.detectIn c = s.get? c := by
  cases hs : s.get? c with
  | none =>
    rw [StyleTree.detectIn, List.find?_eq_none]
    intro d hd hall
    rw [List.all_eq_true] at hall
    obtain ⟨w, hw⟩ : ∃ w, w ∈ d.writes t := by
      cases d <;> exact ⟨_, List.mem_cons_self⟩
    have hplace : w.target ∈ c.targets :=
      Category.category_of_mem_choices hd ▸ Choice.target_mem hw
    have hsatisfied := hall w hw
    rw [Write.isSatisfied_eq, h.vacant c hs w.target hplace] at hsatisfied
    cases hsatisfied
  | some choice =>
    obtain rfl := category_of_get? hs
    have hlanded : ∀ w ∈ choice.writes t, w.Landed t := by
      rw [h.writes_eq choice]
      exact h.written _ choice hs
    have hagrees : choice.agrees t = choice.agrees .empty := by
      funext d
      rw [Choice.agrees, Choice.agrees, h.writes_eq choice, h.writes_eq d]
    rw [StyleTree.detectIn_of_landed hlanded, hagrees, choice.find?_agrees_empty]

theorem detect_eq (h : s.Stands t) : t.detect = s :=
  ext_get? fun c => (t.get?_detect c).trans (h.detectIn_eq c)

theorem applyChoice (h : s.Stands t) (c : Choice) : (s.set c).Stands (t.applyChoice c).1 := by
  have hchanged := h.applyWrites c
  cases hhidden : t.hidesBorder c with
  | false =>
    rw [StyleTree.applyChoice_of_not_hidesBorder hhidden]
    exact hchanged
  | true =>
    -- The border that is hidden once more was hidden before, so the selection is the same.
    have hmoved := hchanged.applyWrites (.border .none)
    rw [StyleTree.applyChoice_of_hidesBorder hhidden,
      StyleTree.applyChoice_of_not_hidesBorder rfl]
    rw [StyleTree.hidesBorder, Bool.and_eq_true, decide_eq_true_eq, decide_eq_true_eq,
      h.detectIn_eq] at hhidden
    obtain ⟨hcategory, hborder⟩ := hhidden
    have hkept : (s.set c).get? .border = some (.border .none) := by
      rw [get?_set, hcategory, if_neg (by decide), hborder]
    rwa [set_eq_self hkept] at hmoved

theorem applyChoices (h : s.Stands t) (cs : List Choice) :
    (cs.foldl set s).Stands (t.applyChoices cs) := by
  induction cs generalizing s t with
  | nil => exact h
  | cons c cs ih => exact ih (h.applyChoice c)

end Selection.Stands

/-- After choices in turn, on a tree without styles, each category is found to have its last choice,
and none if no choice was of that category. -/
theorem detect_applyChoices (cs : List Choice) (c : Category) :
    (StyleTree.empty.applyChoices cs).detect.get? c =
      (cs.filter fun d => d.category = c).getLast? := by
  have hstands := Selection.stands_unset.applyChoices cs
  have hunset : Selection.unset.get? c = none := by cases c <;> rfl
  rw [hstands.detect_eq, Selection.get?_foldl_set, hunset, Option.or_none]

example :
    (StyleTree.empty.applyChoices [.border .none, .radius .small, .background .tinted,
      .radius .large]).detect = ⟨none, some .large, some .none, some .tinted⟩ := by
  decide

end ReportTheme
