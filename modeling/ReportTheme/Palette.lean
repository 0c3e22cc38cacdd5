import ReportTheme.Json.Record

/-!
Palettes: named lists of colors, either for data series or as a neutral scale from light to dark.
-/
namespace ReportTheme

structure Palette where
  id : String
  name : String
  colors : List String
  isBuiltIn : Bool
  deriving DecidableEq, Repr

inductive PaletteKind where
  | color
  | neutral
  deriving DecidableEq, Repr

namespace PaletteKind

def recordName : PaletteKind → String
  | .color => "struct ColorPalette"
  | .neutral => "struct NeutralPalette"

end PaletteKind

namespace Palette

/-- The number of shades that tokens may refer to. -/
def shadeCount : Nat := 12

/-- Whether a neutral scale has every shade that tokens may refer to. -/
def isComplete (p : Palette) : Bool := shadeCount ≤ p.colors.length

def shape (kind : PaletteKind) : RecordShape Palette where
  name := kind.recordName
  fields := [
    .mkRequired "id" Decoder.string fun id p => { p with id },
    .mkRequired "name" Decoder.string fun name p => { p with name },
    .mkRequired "colors" (Decoder.list Decoder.string) fun colors p => { p with colors },
    .mkOptional "isBuiltIn" Decoder.bool fun isBuiltIn p => { p with isBuiltIn }]
  blank := ⟨"", "", [], false⟩

def decode (kind : PaletteKind) : Decoder Palette := (shape kind).decode

def toJson (p : Palette) : Json :=
  .object [("id", .string p.id), ("name", .string p.name), ("colors", .ofStrings p.colors),
    ("isBuiltIn", .bool p.isBuiltIn)]

end Palette

end ReportTheme
