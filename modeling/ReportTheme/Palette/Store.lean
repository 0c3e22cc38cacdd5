import ReportTheme.Palette.BuiltIn

/-!
The palette collection: for either kind at most one palette an id, the last one inserted. A theme
whose palette is not there gets the built-in default of that kind.
-/
namespace ReportTheme

/-- Palettes of one kind, sorted by id. -/
abbrev Shelf := List Palette

namespace Shelf

def find? (shelf : Shelf) (id : String) : Option Palette := List.find? (fun p => p.id == id) shelf

/-- Puts a palette in its place, instead of the one with its id. -/
def insert : Shelf → Palette → Shelf
  | [], p => [p]
  | q :: shelf, p =>
    if p.id = q.id then p :: shelf
    else if p.id < q.id then p :: q :: shelf
    else q :: insert shelf p

def remove (shelf : Shelf) (id : String) : Shelf := shelf.filter fun p => p.id ≠ id

end Shelf

structure PaletteStore where
  colors : Shelf
  neutrals : Shelf
  deriving DecidableEq, Repr

/-- The palettes a theme is compiled with. -/
structure PalettePair where
  color : Palette
  neutral : Palette
  deriving DecidableEq, Repr

namespace PaletteStore

def empty : PaletteStore := ⟨[], []⟩

/-- Like every change it also gives the palette that it displaces. -/
def insertColor (s : PaletteStore) (p : Palette) : Option Palette × PaletteStore :=
  (s.colors.find? p.id, { s with colors := s.colors.insert p })

def insertNeutral (s : PaletteStore) (p : Palette) : Option Palette × PaletteStore :=
  (s.neutrals.find? p.id, { s with neutrals := s.neutrals.insert p })

def removeColor (s : PaletteStore) (id : String) : Option Palette × PaletteStore :=
  (s.colors.find? id, { s with colors := s.colors.remove id })

def removeNeutral (s : PaletteStore) (id : String) : Option Palette × PaletteStore :=
  (s.neutrals.find? id, { s with neutrals := s.neutrals.remove id })

def addColors (s : PaletteStore) (ps : List Palette) : PaletteStore :=
  ps.foldl (fun s p => (s.insertColor p).2) s

def addNeutrals (s : PaletteStore) (ps : List Palette) : PaletteStore :=
  ps.foldl (fun s p => (s.insertNeutral p).2) s

def builtIn : PaletteStore :=
  (empty.addColors (ColorPreset.all.map ColorPreset.palette)).addNeutrals
    (NeutralPreset.all.map NeutralPreset.palette)

/-- The palettes with the given ids, the built-in defaults for ids that are not there. -/
def resolve (s : PaletteStore) (colorId neutralId : String) : PalettePair where
  color := (s.colors.find? colorId).getD ColorPreset.default.palette
  neutral := (s.neutrals.find? neutralId).getD NeutralPreset.gray.palette

end PaletteStore

/-- Palettes that a file adds to a store. -/
structure PaletteRecords where
  color : List Palette
  neutral : List Palette
  deriving DecidableEq, Repr

namespace PaletteRecords

def shape : RecordShape PaletteRecords where
  name := "struct PalettesConfig"
  fields := [
    .mkOptional "color" (Decoder.list (Palette.decode .color)) fun color r => { r with color },
    .mkOptional "neutral" (Decoder.list (Palette.decode .neutral))
      fun neutral r => { r with neutral }]
  blank := ⟨[], []⟩

def decode : Decoder PaletteRecords := shape.decode

/-- Inserts every record in order. -/
def addTo (r : PaletteRecords) (s : PaletteStore) : PaletteStore :=
  (s.addColors r.color).addNeutrals r.neutral

end PaletteRecords

end ReportTheme
