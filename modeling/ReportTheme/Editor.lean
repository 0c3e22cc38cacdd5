import ReportTheme.Changes
import ReportTheme.Memo

/-!
Editing sessions. Every change of the theme records the path it touched, and after every change of
the styles the selection is reconciled with them. The palettes are handed in with each request for a
document, so an edited palette store shows up at once.
-/
namespace ReportTheme

structure Editor where
  theme : Theme
  changes : Changes
  memo : Memo
  deriving Repr

namespace Editor

/-- Starts editing; the reconciled theme is the saved baseline. -/
def new (t : Theme) : Editor := ⟨t.reconciled, Changes.empty.setBaseline t.reconciled, .empty⟩

def hasUnsavedChanges (e : Editor) : Bool := !e.changes.isEmpty

def track (e : Editor) (p : Path) : Editor := { e with changes := e.changes.track p }

def load (e : Editor) (t : Theme) : Editor :=
  { e with theme := t.reconciled, changes := e.changes.setBaseline t.reconciled }

def markSaved (e : Editor) : Editor := { e with changes := e.changes.setBaseline e.theme }

/-- Goes back to the baseline. -/
def reset (e : Editor) : Editor :=
  { e with
    theme := (e.changes.baseline.map Theme.reconciled).getD e.theme
    changes := e.changes.clear }

def setName (e : Editor) (name : String) : Editor :=
  { e with theme := { e.theme with name } }.track ["name"]

def setMode (e : Editor) (mode : Mode) : Editor :=
  { e with theme := { e.theme with mode } }.track ["mode"]

def toggleMode (e : Editor) : Editor := e.setMode e.theme.mode.toggle

def setColorPalette (e : Editor) (colorPaletteId : String) : Editor :=
  { e with theme := { e.theme with colorPaletteId } }.track ["colorPaletteId"]

def setNeutralPalette (e : Editor) (neutralPaletteId : String) : Editor :=
  { e with theme := { e.theme with neutralPaletteId } }.track ["neutralPaletteId"]

def setFontFamily (e : Editor) (fontFamily : String) : Editor :=
  { e with theme := { e.theme with fontFamily } }.track ["fontFamily"]

/-- Reconciles the selection; a change of it is tracked too. -/
def reconcile (e : Editor) : Editor :=
  let selection := e.theme.selection.reconcile e.theme.styles
  if selection = e.theme.selection then e
  else { e with theme := { e.theme with selection } }.track ["quickCustomizations"]

/-- Takes over changed styles, tracking the given paths. -/
def setStyles (e : Editor) (styles : StyleTree) (paths : List Path) : Editor :=
  (paths.foldl track { e with theme := { e.theme with styles } }).reconcile

def stylePath (visual variant : String) : Path := ["visualStyles", visual, variant]

/-- Writes a property; `path` leads into the bag, and its first segment is what is tracked. A write
that is refused leaves an editor too. -/
def setProperty (e : Editor) (visual variant : String) (path : List String) (v : Value) :
    Except Error Unit × Editor :=
  match path with
  | [] => (.error (.invalidPath []), e)
  | property :: _ =>
    match e.theme.styles.setPath visual variant path v with
    | (.ok (), styles) => (.ok (), e.setStyles styles [stylePath visual variant ++ [property]])
    | (.error error, styles) => (.error error, { e with theme := { e.theme with styles } })

/-- Removes a property and gives it. -/
def removeProperty (e : Editor) (visual variant : String) (path : List String) :
    Except Error (Option Value) × Editor :=
  match path with
  | [] => (.error (.invalidPath []), e)
  | property :: _ =>
    match e.theme.styles.bag? visual variant with
    | none => (.ok none, e)
    | some bag =>
      match Bag.removePath bag path with
      | (some removed, bag) =>
        (.ok (some removed), e.setStyles (e.theme.styles.setBag visual variant bag)
          [stylePath visual variant ++ [property]])
      | (none, bag) =>
        let styles := e.theme.styles.setBag visual variant bag
        (.ok none, { e with theme := { e.theme with styles } })

def setBag (e : Editor) (visual variant : String) (bag : Bag) : Editor :=
  e.setStyles (e.theme.styles.setBag visual variant bag) [stylePath visual variant]

def removeBag (e : Editor) (visual variant : String) : Option Bag × Editor :=
  (e.theme.styles.bag? visual variant,
    e.setStyles (e.theme.styles.removeBag visual variant) [stylePath visual variant])

def setStructuralColor (e : Editor) (key : String) (v : Value) : Editor :=
  let structuralColors := Entries.insert e.theme.structuralColors key v
  { e with theme := { e.theme with structuralColors } }.track ["structuralColors", key]

def removeStructuralColor (e : Editor) (key : String) : Option Value × Editor :=
  let structuralColors := Entries.erase e.theme.structuralColors key
  (Entries.get? e.theme.structuralColors key,
    { e with theme := { e.theme with structuralColors } }.track ["structuralColors", key])

def setTextClassProperty (e : Editor) (textClass property : String) (v : Value) : Editor :=
  let textClasses := Entries.upsert e.theme.textClasses textClass fun bag =>
    Entries.insert (bag.getD []) property v
  { e with theme := { e.theme with textClasses } }.track ["textClasses", textClass, property]

/-- Applies a choice and selects it. -/
def applyChoice (e : Editor) (c : Choice) : Editor :=
  let (styles, writes) := e.theme.styles.applyChoice c
  let written := writes.foldl
    (fun e w => e.track (stylePath w.visual defaultVariant ++ [w.property]))
    { e with theme := { e.theme with styles } }
  let selection := e.theme.selection.set c
  let selected := { written with theme := { written.theme with selection } }
  (selected.track ["quickCustomizations", c.category.name]).reconcile

def detected (e : Editor) : Selection := e.theme.styles.detect

def palettes (e : Editor) (store : PaletteStore) : PalettePair :=
  store.resolve e.theme.colorPaletteId e.theme.neutralPaletteId

def source (e : Editor) (store : PaletteStore) : Source := .ofTheme e.theme (e.palettes store)

/-- The document of the theme as it is, for preview and for export alike. -/
def document (e : Editor) (store : PaletteStore) : Document × Editor :=
  let (d, memo) := e.memo.get (e.source store)
  (d, { e with memo })

/-- The exported document as text. -/
def exportText (e : Editor) (store : PaletteStore) (pretty : Bool) : String × Editor :=
  let (d, e) := e.document store
  (d.text pretty, e)

/-- The document of the theme if a variant were the default of its visual type. -/
def previewVariant (e : Editor) (store : PaletteStore) (visual variant : String) : Document :=
  let source := e.source store
  { source with
    styles := source.styles.setBag visual defaultVariant
      (source.styles.effective visual variant) }.compile

end Editor

end ReportTheme
