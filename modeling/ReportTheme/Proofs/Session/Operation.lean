import ReportTheme.Editor
import ReportTheme.Proofs.Preset.Detect

/-!
Everything that can be done to an editing session, as one type, and the sessions that come of doing
it in any order. What holds at the start and is kept by every operation holds of all of them.
-/
namespace ReportTheme

/-- What can change a session. Readers, `Editor.previewVariant` among them, are left out. -/
inductive Operation where
  | load (t : Theme)
  | markSaved
  | reset
  | setName (name : String)
  | setMode (mode : Mode)
  | toggleMode
  | setColorPalette (id : String)
  | setNeutralPalette (id : String)
  | setFontFamily (fontFamily : String)
  | setProperty (visual variant : String) (path : List String) (v : Value)
  | removeProperty (visual variant : String) (path : List String)
  | setBag (visual variant : String) (bag : Bag)
  | removeBag (visual variant : String)
  | setStructuralColor (key : String) (v : Value)
  | removeStructuralColor (key : String)
  | setTextClassProperty (textClass property : String) (v : Value)
  | applyChoice (c : Choice)
  | document (store : PaletteStore)
  deriving Repr

namespace Editor

/-- The session after an operation; what the operation answers is left out. -/
def perform (e : Editor) : Operation → Editor
  | .load t => e.load t
  | .markSaved => e.markSaved
  | .reset => e.reset
  | .setName name => e.setName name
  | .setMode mode => e.setMode mode
  | .toggleMode => e.toggleMode
  | .setColorPalette id => e.setColorPalette id
  | .setNeutralPalette id => e.setNeutralPalette id
  | .setFontFamily fontFamily => e.setFontFamily fontFamily
  | .setProperty visual variant path v => (e.setProperty visual variant path v).2
  | .removeProperty visual variant path => (e.removeProperty visual variant path).2
  | .setBag visual variant bag => e.setBag visual variant bag
  | .removeBag visual variant => (e.removeBag visual variant).2
  | .setStructuralColor key v => e.setStructuralColor key v
  | .removeStructuralColor key => (e.removeStructuralColor key).2
  | .setTextClassProperty textClass property v => e.setTextClassProperty textClass property v
  | .applyChoice c => e.applyChoice c
  | .document store => (e.document store).2

def run (e : Editor) (ops : List Operation) : Editor := ops.foldl perform e

theorem run_invariant {P : Editor → Prop} {ops : List Operation}
    (hstep : ∀ e, P e → ∀ op ∈ ops, P (e.perform op)) {e : Editor} (h : P e) : P (e.run ops) := by
  induction ops generalizing e with
  | nil => exact h
  | cons op ops ih =>
    exact ih (fun d hd o ho => hstep d hd o (by simp [ho])) (hstep e h op (by simp))

theorem theme_track (e : Editor) (p : Path) : (e.track p).theme = e.theme := rfl

theorem theme_foldl_track {α : Type} (f : α → Path) (items : List α) (e : Editor) :
    (items.foldl (fun e a => e.track (f a)) e).theme = e.theme := by
  induction items generalizing e with
  | nil => rfl
  | cons a items ih => exact ih (e.track (f a))

theorem theme_reconcile (e : Editor) : e.reconcile.theme = e.theme.reconciled := by
  unfold reconcile
  dsimp only
  split
  · rename_i h
    rw [Theme.reconciled, h]
  · rfl

theorem theme_setStyles (e : Editor) (styles : StyleTree) (paths : List Path) :
    (e.setStyles styles paths).theme = { e.theme with styles }.reconciled := by
  rw [setStyles, theme_reconcile]
  exact congrArg Theme.reconciled (theme_foldl_track id paths _)

theorem theme_applyChoice (e : Editor) (c : Choice) :
    (e.applyChoice c).theme =
      { e.theme with
        styles := (e.theme.styles.applyChoice c).1
        selection := e.theme.selection.set c }.reconciled := by
  rw [applyChoice, theme_reconcile, theme_track]
  dsimp only
  rw [theme_foldl_track]

theorem baseline_track (e : Editor) (p : Path) :
    (e.track p).changes.baseline = e.changes.baseline := by
  rw [track, Changes.track]
  split <;> rfl

theorem baseline_foldl_track {α : Type} (f : α → Path) (items : List α) (e : Editor) :
    (items.foldl (fun e a => e.track (f a)) e).changes.baseline = e.changes.baseline := by
  induction items generalizing e with
  | nil => rfl
  | cons a items ih => exact (ih (e.track (f a))).trans (baseline_track e (f a))

theorem baseline_reconcile (e : Editor) : e.reconcile.changes.baseline = e.changes.baseline := by
  unfold reconcile
  dsimp only
  split <;> rfl

theorem baseline_setStyles (e : Editor) (styles : StyleTree) (paths : List Path) :
    (e.setStyles styles paths).changes.baseline = e.changes.baseline := by
  rw [setStyles, baseline_reconcile]
  exact baseline_foldl_track id paths _

theorem baseline_applyChoice (e : Editor) (c : Choice) :
    (e.applyChoice c).changes.baseline = e.changes.baseline := by
  rw [applyChoice, baseline_reconcile, baseline_track]
  exact baseline_foldl_track (fun w : Write => stylePath w.visual defaultVariant ++ [w.property])
    _ _

/-- A write is refused and leaves the session as it is, or the styles take over the written bag. -/
theorem setProperty_eq (e : Editor) (visual variant : String) (path : List String) (v : Value) :
    (((e.theme.styles.bag? visual variant).getD []).Refuses path ∧
        e.setProperty visual variant path v = (.error (.invalidPath path), e)) ∨
      ∃ key rest, path = key :: rest ∧
        ((e.theme.styles.setPath visual variant path v).2.bag? visual variant).bind
          (·.getPath? path) = some v ∧
        e.setProperty visual variant path v =
          (.ok (), e.setStyles (e.theme.styles.setPath visual variant path v).2
            [stylePath visual variant ++ [key]]) := by
  cases path with
  | nil => exact Or.inl ⟨Or.inl rfl, rfl⟩
  | cons key rest =>
    have hpath : key :: rest ≠ [] := List.cons_ne_nil key rest
    rcases e.theme.styles.setPath_cases visual variant hpath v with
      ⟨hrefuses, hrefused⟩ | ⟨hdone, hget⟩
    · refine Or.inl ⟨hrefuses, ?_⟩
      rw [setProperty, hrefused]
    · have hstyles : e.theme.styles.setPath visual variant (key :: rest) v =
          (.ok (), (e.theme.styles.setPath visual variant (key :: rest) v).2) := Prod.ext hdone rfl
      refine Or.inr ⟨key, rest, rfl, hget, ?_⟩
      rw [setProperty, hstyles]

theorem setProperty_cases (e : Editor) (visual variant : String) (path : List String) (v : Value) :
    (e.setProperty visual variant path v).2 = e ∨ ∃ key rest, path = key :: rest ∧
      (e.setProperty visual variant path v).2 =
        e.setStyles (e.theme.styles.setPath visual variant path v).2
          [stylePath visual variant ++ [key]] := by
  rcases e.setProperty_eq visual variant path v with
    ⟨-, he⟩ | ⟨key, rest, hpath, -, he⟩
  · exact Or.inl (by rw [he])
  · exact Or.inr ⟨key, rest, hpath, by rw [he]⟩

/-- A removal is refused or finds nothing and leaves the session as it is, or it gives what stood at
the path and the styles take over what is left of the bag. -/
theorem removeProperty_eq (e : Editor) (visual variant : String) (path : List String) :
    (path = [] ∧ e.removeProperty visual variant path = (.error (.invalidPath path), e)) ∨
      (path ≠ [] ∧ (e.theme.styles.bag? visual variant).bind (·.getPath? path) = none ∧
        e.removeProperty visual variant path = (.ok none, e)) ∨
      ∃ key rest bag old, path = key :: rest ∧ e.theme.styles.bag? visual variant = some bag ∧
        bag.getPath? path = some old ∧
        e.removeProperty visual variant path =
          (.ok (some old), e.setStyles (e.theme.styles.setBag visual variant (bag.removePath path).2)
            [stylePath visual variant ++ [key]]) := by
  cases path with
  | nil => exact Or.inl ⟨rfl, rfl⟩
  | cons key rest =>
    right
    cases hb : e.theme.styles.bag? visual variant with
    | none => exact Or.inl ⟨List.cons_ne_nil key rest, rfl, by rw [removeProperty, hb]⟩
    | some bag =>
      have hget := bag.removePath_fst (key :: rest)
      rcases Bag.removePath_cases bag key rest with hr | ⟨old, left, -, hr⟩ <;> rw [hr] at hget
      · refine Or.inl ⟨List.cons_ne_nil key rest, hget.symm, ?_⟩
        simp [removeProperty, hb, hr, StyleTree.setBag_self hb]
      · exact Or.inr ⟨key, rest, bag, old, rfl, rfl, hget.symm, by simp [removeProperty, hb, hr]⟩

theorem removeProperty_cases (e : Editor) (visual variant : String) (path : List String) :
    (e.removeProperty visual variant path).2 = e ∨ ∃ key rest bag, path = key :: rest ∧
      e.theme.styles.bag? visual variant = some bag ∧
      (e.removeProperty visual variant path).2 =
        e.setStyles (e.theme.styles.setBag visual variant (bag.removePath path).2)
          [stylePath visual variant ++ [key]] := by
  rcases e.removeProperty_eq visual variant path with
    ⟨-, he⟩ | ⟨-, -, he⟩ | ⟨key, rest, bag, old, hpath, hbag, -, he⟩
  · exact Or.inl (by rw [he])
  · exact Or.inl (by rw [he])
  · exact Or.inr ⟨key, rest, bag, hpath, hbag, by rw [he]⟩

end Editor

end ReportTheme
