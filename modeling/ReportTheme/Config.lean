import ReportTheme.Palette.Store
import ReportTheme.Mode
import ReportTheme.Toml.Document
import ReportTheme.Toml.Printer

/-!
Configuration: how documents are written, the mode of themes that have none, and palettes besides
the built-in ones. Everything may be left out, and keys of other programs are passed over.
-/
namespace ReportTheme

structure Config where
  pretty : Bool
  mode : Option Mode
  logLevel : Option String
  palettes : PaletteRecords
  deriving DecidableEq, Repr

namespace Config

def default : Config := ⟨true, none, none, ⟨[], []⟩⟩

/-- A field that may be missing; one that is there must fit. -/
def optional {α : Type} (field : Option Toml) (missing : α) (read : Toml → Option α) : Option α :=
  match field with
  | none => some missing
  | some v => read v

/-- A section in the form of a record. -/
def readSection {α : Type} (field : Option Toml) (missing : α) (read : Toml → Option α) :
    Option α :=
  optional field missing fun record => if record.isRecord then read record else none

/-- A mode is read by its name only, not in the form of a table such as `{ dark = {} }`. -/
def readMode (v : Toml) : Option Mode := v.asString?.bind (Entries.get? Mode.variants)

def readPalette (v : Toml) : Option Palette := do
  let id ← (← v.field? 0 "id").asString?
  let name ← (← v.field? 1 "name").asString?
  let colors ← (← (← v.field? 2 "colors").asList?).mapM Toml.asString?
  let isBuiltIn ← optional (v.field? 3 "isBuiltIn") false Toml.asBool?
  return ⟨id, name, colors, isBuiltIn⟩

def readPalettes (field : Option Toml) : Option (List Palette) :=
  optional field [] fun v => v.asList?.bind fun items => items.mapM readPalette

def ofToml? (v : Toml) : Option Config := do
  let pretty ← readSection (v.field? 0 "output") true fun s =>
    optional (s.field? 0 "pretty") true Toml.asBool?
  let mode ← readSection (v.field? 1 "defaults") none fun s =>
    optional (s.field? 0 "mode") none fun m => (readMode m).map some
  let logLevel ← readSection (v.field? 2 "log") none fun s =>
    optional (s.field? 0 "level") none fun l => l.asString?.map some
  let palettes ← readSection (v.field? 3 "palettes") ⟨[], []⟩ fun s => do
    let color ← readPalettes (s.field? 0 "color")
    let neutral ← readPalettes (s.field? 1 "neutral")
    return (⟨color, neutral⟩ : PaletteRecords)
  return ⟨pretty, mode, logLevel, palettes⟩

/-- Narrower than the format in two points: a text with a date or a time is refused, even where it
stands under a key that is passed over, and so is one whose mode is written as a table. -/
def ofText? (text : String) : Option Config := (Toml.ofText? text).bind ofToml?

def writePalette (p : Palette) : Toml :=
  .table [("id", .string p.id), ("name", .string p.name),
    ("colors", .list (p.colors.map .string)), ("isBuiltIn", .bool p.isBuiltIn)]

/-- What is not set is left out. -/
def toToml (c : Config) : Entries Toml :=
  [("output", .table [("pretty", .bool c.pretty)]),
    ("defaults", .table (c.mode.map fun m => ("mode", Toml.string m.name)).toList),
    ("log", .table (c.logLevel.map fun l => ("level", Toml.string l)).toList),
    ("palettes", .table [("color", .list (c.palettes.color.map writePalette)),
      ("neutral", .list (c.palettes.neutral.map writePalette))])]

def text (c : Config) : String := Toml.text c.toToml

/-- The built-in palettes and over them the ones of the configuration. -/
def store (c : Config) : PaletteStore := c.palettes.addTo .builtIn

end Config

end ReportTheme
