import ReportTheme.Proofs.Session.Operation
import ReportTheme.Proofs.Theme

/-!
What an operation makes of the styles, the document colors and the text classes of a session, each
by one equation; and properties of their values that sessions keep, as long as no value without the
property is brought in.
-/
namespace ReportTheme

namespace Operation

/-- The styles after an operation, where `saved` are those of the baseline. -/
def styles (saved current : StyleTree) : Operation → StyleTree
  | .load t => t.styles
  | .reset => saved
  | .setProperty visual variant path v =>
    if path = [] then current else (current.setPath visual variant path v).2
  | .removeProperty visual variant path =>
    match current.bag? visual variant with
    | some bag => current.setBag visual variant (bag.removePath path).2
    | none => current
  | .setBag visual variant bag => current.setBag visual variant bag
  | .removeBag visual variant => current.removeBag visual variant
  | .applyChoice c => (current.applyChoice c).1
  | _ => current

/-- Whether an operation works on the styles. -/
def restyles : Operation → Bool
  | .setProperty .. | .removeProperty .. | .setBag .. | .removeBag .. | .applyChoice _ => true
  | _ => false

/-- The document colors after an operation. -/
def structuralColors (saved current : Entries Value) : Operation → Entries Value
  | .load t => t.structuralColors
  | .reset => saved
  | .setStructuralColor key v => Entries.insert current key v
  | .removeStructuralColor key => Entries.erase current key
  | _ => current

/-- The text classes after an operation. -/
def textClasses (saved current : Entries Bag) : Operation → Entries Bag
  | .load t => t.textClasses
  | .reset => saved
  | .setTextClassProperty textClass property v =>
    Entries.upsert current textClass fun bag => Entries.insert (bag.getD []) property v
  | _ => current

end Operation

namespace Editor

/-- The theme that a reset goes back to, before its selection is reconciled. -/
def saved (e : Editor) : Theme := e.changes.baseline.getD e.theme

/-- What new styles and presets keep, every operation on the styles keeps. -/
theorem kept_restyled {α : Type} {f : Editor → α} {e : Editor}
    (hset : ∀ styles paths, f (e.setStyles styles paths) = f e)
    (hpreset : ∀ c, f (e.perform (.applyChoice c)) = f e) {op : Operation}
    (h : op.restyles = true) : f (e.perform op) = f e := by
  cases op with
  | setProperty visual variant path v =>
    rw [perform]
    rcases e.setProperty_cases visual variant path v with he | ⟨key, rest, -, he⟩ <;> rw [he]
    exact hset _ _
  | removeProperty visual variant path =>
    rw [perform]
    rcases e.removeProperty_cases visual variant path with
      he | ⟨key, rest, bag, -, -, he⟩ <;> rw [he]
    exact hset _ _
  | setBag visual variant bag => exact hset _ _
  | removeBag visual variant => exact hset _ _
  | applyChoice c => exact hpreset c
  | _ => cases h

/-- Only a load or a save takes a new baseline. -/
theorem baseline_perform (e : Editor) (op : Operation) :
    (e.perform op).changes.baseline =
      match op with
      | .load t => some t.reconciled
      | .markSaved => some e.theme
      | _ => e.changes.baseline := by
  cases op with
  | setProperty | removeProperty | setBag | removeBag | applyChoice =>
    exact kept_restyled (f := fun e => e.changes.baseline) (fun _ _ => baseline_setStyles _ _ _)
      (baseline_applyChoice e) rfl
  | load t => rfl
  | markSaved => rfl
  | reset => rfl
  | document store => rfl
  | _ => exact baseline_track _ _

theorem styles_perform (e : Editor) (op : Operation) :
    (e.perform op).theme.styles = op.styles e.saved.styles e.theme.styles := by
  cases op with
  | setProperty visual variant path v =>
    rcases path with _ | ⟨key, rest⟩
    · rfl
    · rw [perform, Operation.styles, if_neg (List.cons_ne_nil key rest), setProperty]
      cases e.theme.styles.setPath visual variant (key :: rest) v with
      | mk outcome styles =>
        cases outcome with
        | error error => rfl
        | ok =>
          dsimp only
          rw [theme_setStyles, Theme.reconciled]
  | removeProperty visual variant path =>
    rw [perform, Operation.styles]
    rcases path with _ | ⟨key, rest⟩
    · cases hb : e.theme.styles.bag? visual variant with
      | none => rfl
      | some bag => exact (StyleTree.setBag_self hb).symm
    · cases hb : e.theme.styles.bag? visual variant with
      | none => simp [removeProperty, hb]
      | some bag =>
        rcases Bag.removePath_cases bag key rest with hr | ⟨old, left, -, hr⟩
        · simp [removeProperty, hb, hr]
        · simp [removeProperty, hb, hr, theme_setStyles, Theme.reconciled]
  | setBag visual variant bag => rw [perform, setBag, theme_setStyles]; rfl
  | removeBag visual variant => rw [perform, removeBag, theme_setStyles]; rfl
  | applyChoice c => rw [perform, theme_applyChoice]; rfl
  | reset =>
    rw [perform, reset, saved, Operation.styles]
    cases e.changes.baseline <;> rfl
  | _ => rfl

theorem structuralColors_perform (e : Editor) (op : Operation) :
    (e.perform op).theme.structuralColors =
      op.structuralColors e.saved.structuralColors e.theme.structuralColors := by
  cases op with
  | reset =>
    rw [perform, reset, saved, Operation.structuralColors]
    cases e.changes.baseline <;> rfl
  | setProperty | removeProperty | setBag | removeBag | applyChoice =>
    exact kept_restyled (f := fun e => e.theme.structuralColors)
      (fun styles paths => congrArg (·.structuralColors) (e.theme_setStyles styles paths))
      (fun c => congrArg (·.structuralColors) (e.theme_applyChoice c)) rfl
  | _ => rfl

theorem textClasses_perform (e : Editor) (op : Operation) :
    (e.perform op).theme.textClasses = op.textClasses e.saved.textClasses e.theme.textClasses := by
  cases op with
  | reset =>
    rw [perform, reset, saved, Operation.textClasses]
    cases e.changes.baseline <;> rfl
  | setProperty | removeProperty | setBag | removeBag | applyChoice =>
    exact kept_restyled (f := fun e => e.theme.textClasses)
      (fun styles paths => congrArg (·.textClasses) (e.theme_setStyles styles paths))
      (fun c => congrArg (·.textClasses) (e.theme_applyChoice c)) rfl
  | _ => rfl

end Editor

/-- Whether what an operation brings in has the property. -/
def Operation.Brings (P : Value → Prop) : Operation → Prop
  | .load t => t.Holds P
  | .setProperty _ _ _ v | .setStructuralColor _ v | .setTextClassProperty _ _ v => P v
  | .setBag _ _ bag => Entries.Keyed P bag
  | _ => True

/-- Whether the styles that an operation brings in have the property. -/
def Operation.StylesHold (P : Value → Prop) : Operation → Prop
  | .load t => t.styles.Holds P
  | .setProperty _ _ _ v => P v
  | .setBag _ _ bag => Entries.Keyed P bag
  | _ => True

structure Editor.Holds (P : Value → Prop) (e : Editor) : Prop where
  theme : e.theme.Holds P
  baseline : ∀ b, e.changes.baseline = some b → b.Holds P

section
variable {P : Value → Prop}

theorem Operation.Brings.stylesHold {op : Operation} (h : op.Brings P) : op.StylesHold P := by
  cases op with
  | load t => exact h.styles
  | setProperty | setBag => exact h
  | _ => trivial

theorem StyleTree.Holds.perform (hP : Value.Hereditary P) (hpresets : Value.OfPresets P)
    {saved current : StyleTree} (hs : saved.Holds P) (h : current.Holds P) {op : Operation}
    (hop : op.StylesHold P) : (op.styles saved current).Holds P := by
  cases op with
  | load t => exact hop
  | reset => exact hs
  | setProperty visual variant path v =>
    rw [Operation.styles]
    split
    · exact h
    · exact h.setPath hP visual variant path hop
  | removeProperty visual variant path =>
    rw [Operation.styles]
    split
    · rename_i bag hb
      exact h.setBag visual variant (hP.removePath (h.bag? hb) path)
    · exact h
  | setBag visual variant bag => exact h.setBag visual variant hop
  | removeBag visual variant => exact h.removeBag visual variant
  | applyChoice c => exact h.applyChoice hP hpresets c
  | _ => exact h

theorem Theme.Holds.perform (hP : Value.Hereditary P) (hpresets : Value.OfPresets P) {e : Editor}
    (hs : e.saved.Holds P) (h : e.theme.Holds P) {op : Operation} (hop : op.Brings P) :
    (e.perform op).theme.Holds P where
  styles := by
    rw [Editor.styles_perform]
    exact hs.styles.perform hP hpresets h.styles hop.stylesHold
  structuralColors := by
    rw [Editor.structuralColors_perform]
    cases op with
    | load t => exact hop.structuralColors
    | reset => exact hs.structuralColors
    | setStructuralColor key v => exact h.structuralColors.insert key hop
    | removeStructuralColor key => exact h.structuralColors.erase key
    | _ => exact h.structuralColors
  textClasses := by
    rw [Editor.textClasses_perform]
    cases op with
    | load t => exact hop.textClasses
    | reset => exact hs.textClasses
    | setTextClassProperty textClass property v =>
      refine h.textClasses.upsert (Entries.Keyed.insert ?_ property hop)
      cases hbag : Entries.get? e.theme.textClasses textClass with
      | none => exact Entries.keyed_nil P
      | some bag => exact h.textClasses.get? hbag
    | _ => exact h.textClasses

namespace Editor

theorem holds_new {t : Theme} (h : t.Holds P) : (new t).Holds P :=
  ⟨⟨h.styles, h.structuralColors, h.textClasses⟩, fun _ hb => Option.some.inj hb ▸
    ⟨h.styles, h.structuralColors, h.textClasses⟩⟩

theorem Holds.saved {e : Editor} (h : e.Holds P) : e.saved.Holds P := by
  rw [Editor.saved]
  cases hb : e.changes.baseline with
  | none => exact h.theme
  | some b => exact h.baseline b hb

theorem Holds.perform (hP : Value.Hereditary P) (hpresets : Value.OfPresets P) {e : Editor}
    (h : e.Holds P) {op : Operation} (hop : op.Brings P) : (e.perform op).Holds P := by
  refine ⟨Theme.Holds.perform hP hpresets h.saved h.theme hop, fun b hb => ?_⟩
  rw [baseline_perform] at hb
  cases op with
  | load t =>
    obtain rfl := Option.some.inj hb
    exact ⟨hop.styles, hop.structuralColors, hop.textClasses⟩
  | markSaved => exact Option.some.inj hb ▸ h.theme
  | _ => exact h.baseline b hb

end Editor

end

end ReportTheme
