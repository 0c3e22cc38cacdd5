import ReportTheme.Preset.Apply
import ReportTheme.Json.Printer

/-!
The theme record: what is stored of a theme between sessions. Colors are symbolic; nothing in it is
resolved against a palette. Malformed style bags are dropped on reading, everything else that does
not fit is refused.
-/
namespace ReportTheme

structure Theme where
  id : String
  name : String
  mode : Mode
  colorPaletteId : String
  neutralPaletteId : String
  fontFamily : String
  styles : StyleTree
  /-- Colors of the document as a whole. -/
  structuralColors : Entries Value
  textClasses : Entries Bag
  selection : Selection
  deriving Repr

namespace Theme

def blank : Theme := ⟨"", "", .light, "", "", "", .empty, [], [], .unset⟩

/-- A theme without styles that uses the built-in default palettes. -/
def new (id name : String) : Theme :=
  { blank with
    id, name, colorPaletteId := "default", neutralPaletteId := "neutral-gray",
    fontFamily := "Segoe UI" }

def shape : RecordShape Theme where
  name := "struct Theme"
  fields := [
    .mkOptional "id" Decoder.string fun id t => { t with id },
    .mkOptional "name" Decoder.string fun name t => { t with name },
    .mkOptional "mode" Mode.decode fun mode t => { t with mode },
    .mkOptional "colorPaletteId" Decoder.string fun colorPaletteId t => { t with colorPaletteId },
    .mkOptional "neutralPaletteId" Decoder.string
      fun neutralPaletteId t => { t with neutralPaletteId },
    .mkOptional "fontFamily" Decoder.string fun fontFamily t => { t with fontFamily },
    .mkOptional "visualStyles" Decoder.json fun j t => { t with styles := .ofJson j },
    .mkOptional "structuralColors" Bag.decode
      fun structuralColors t => { t with structuralColors },
    .mkOptional "textClasses" Decoder.json fun j t => { t with textClasses := bagsOfJson j },
    .mkOptional "quickCustomizations" Selection.decode fun selection t => { t with selection }]
  blank := blank

def decode : Decoder Theme := shape.decode

def ofText (text : String) : Except DecodeError Theme := Decoder.ofText decode text

/-- Reads a theme from a JSON value. -/
def ofJson? (j : Json) : Option Theme := (decode (.ofJson j)).toOption

/-- Structural colors, text classes and the selection are left out when there are none. -/
def toJson (t : Theme) : Json :=
  .object <|
    [("id", .string t.id), ("name", .string t.name), ("mode", t.mode.toJson),
      ("colorPaletteId", .string t.colorPaletteId),
      ("neutralPaletteId", .string t.neutralPaletteId),
      ("fontFamily", .string t.fontFamily), ("visualStyles", t.styles.toJson)] ++
    (if t.structuralColors.isEmpty then []
      else [("structuralColors", Bag.toJson t.structuralColors)]) ++
    (if t.textClasses.isEmpty then [] else [("textClasses", bagsToJson t.textClasses)]) ++
    (if t.selection.isUnset then [] else [("quickCustomizations", t.selection.toJson)])

def text (t : Theme) : String := t.toJson.pretty

/-- Equality in which the order of keys does not count. -/
def equal (s t : Theme) : Bool :=
  s.id == t.id && s.name == t.name && s.mode == t.mode &&
    s.colorPaletteId == t.colorPaletteId && s.neutralPaletteId == t.neutralPaletteId &&
    s.fontFamily == t.fontFamily && s.styles.equal t.styles &&
    Bag.equal s.structuralColors t.structuralColors &&
    Entries.equalBy Bag.equal s.textClasses t.textClasses && s.selection == t.selection

/-- Drops from the selection what the styles do not match. -/
def reconciled (t : Theme) : Theme := { t with selection := t.selection.reconcile t.styles }

end Theme

end ReportTheme
