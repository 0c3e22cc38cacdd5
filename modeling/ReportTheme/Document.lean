import ReportTheme.Theme
import ReportTheme.Palette.Store
import ReportTheme.Style.Merge

/-!
Compiling: every token in the styles, the structural colors and the text classes becomes a color of
the active palettes. Compiling never fails; a token without a color gets its fallback, and a
diagnostic says where.
-/
namespace ReportTheme

/-- Everything that a document is compiled from. -/
structure Source where
  name : String
  mode : Mode
  dataColors : List String
  neutralColors : List String
  fontFamily : String
  styles : StyleTree
  structuralColors : Entries Value
  textClasses : Entries Bag
  deriving Repr

/-- A token that fell back, with the dotted place of the field that holds it. -/
structure Diagnostic where
  path : String
  token : String
  fallback : String
  deriving DecidableEq, Repr

/-- A theme document in which every color is concrete. The diagnostics are not part of its text. -/
structure Document where
  name : String
  dataColors : List String
  structuralColors : Entries Value
  styles : StyleTree
  textClasses : Entries Bag
  diagnostics : List Diagnostic
  deriving Repr

/-- Keys of the document that no structural color may take. -/
def reservedKeys : List String := ["name", "dataColors", "visualStyles", "textClasses"]

namespace Source

def ofTheme (t : Theme) (palettes : PalettePair) : Source where
  name := t.name
  mode := t.mode
  dataColors := palettes.color.colors
  neutralColors := palettes.neutral.colors
  fontFamily := t.fontFamily
  styles := t.styles
  structuralColors := t.structuralColors
  textClasses := t.textClasses

def swatches (s : Source) : Swatches := ⟨s.neutralColors, s.dataColors⟩

def resolve (s : Source) (reference : String) : String :=
  Token.resolve reference s.mode s.swatches

/-- The diagnostics of a token at a path. -/
def fallbackAt (s : Source) (path : List String) (reference : String) : List Diagnostic :=
  if (Token.resolve? reference s.mode s.swatches).isSome then []
  else [⟨dotted path, reference, s.resolve reference⟩]

mutual

/-- The value with every token replaced by its color. -/
def value (s : Source) : Value → Value
  | .color (.token reference) => .color (.hex (s.resolve reference))
  | .list items => .list (valueItems s items)
  | .group entries => .group (valueEntries s entries)
  | v => v

def valueItems (s : Source) : List Value → List Value
  | [] => []
  | v :: vs => value s v :: valueItems s vs

def valueEntries (s : Source) : List (String × Value) → List (String × Value)
  | [] => []
  | (k, v) :: es => (k, value s v) :: valueEntries s es

end

mutual

/-- The diagnostics of the tokens in a value, in the order of writing. -/
def fallbacks (s : Source) (path : List String) : Value → List Diagnostic
  | .color (.token reference) => s.fallbackAt path reference
  | .list items => fallbacksItems s path 0 items
  | .group entries => fallbacksEntries s path entries
  | _ => []

def fallbacksItems (s : Source) (path : List String) (index : Nat) : List Value → List Diagnostic
  | [] => []
  | v :: vs =>
    fallbacks s (path ++ [Nat.repr index]) v ++ fallbacksItems s path (index + 1) vs

def fallbacksEntries (s : Source) (path : List String) : List (String × Value) → List Diagnostic
  | [] => []
  | (k, v) :: es => fallbacks s (path ++ [k]) v ++ fallbacksEntries s path es

end

def bag (s : Source) (b : Bag) : Bag := s.valueEntries b

/-- A text class gets the font of the theme unless it has one. -/
def textClass (s : Source) (b : Bag) : Bag :=
  let compiled := s.bag b
  if s.fontFamily.isEmpty || Entries.contains compiled "fontFace" then compiled
  else Entries.insert compiled "fontFace" (.text s.fontFamily)

/-- The structural colors that become keys of the document. -/
def freeColors (s : Source) : Entries Value :=
  s.structuralColors.filter fun e => !reservedKeys.contains e.1

def diagnostics (s : Source) : List Diagnostic :=
  (s.styles.bags.flatMap fun b => s.fallbacksEntries ["visualStyles", b.1, b.2.1] b.2.2) ++
    (s.freeColors.flatMap fun e => s.fallbacks [e.1] e.2) ++
    (s.textClasses.flatMap fun e => s.fallbacksEntries ["textClasses", e.1] e.2)

def compile (s : Source) : Document where
  name := s.name
  dataColors := s.dataColors
  structuralColors := s.freeColors.map fun e => (e.1, s.value e.2)
  styles := .ofBags (s.styles.bags.map fun b => (b.1, b.2.1, s.bag b.2.2))
  textClasses := s.textClasses.map fun e => (e.1, s.textClass e.2)
  diagnostics := s.diagnostics

/-- Whether two sources look alike: everything but the name, and the order of keys counts. -/
def looksLike (s t : Source) : Bool :=
  s.mode == t.mode && s.fontFamily == t.fontFamily && s.dataColors == t.dataColors &&
    s.neutralColors == t.neutralColors &&
    Bag.identical s.structuralColors t.structuralColors &&
    Entries.identicalBy Bag.identical s.textClasses t.textClasses && s.styles.identical t.styles

end Source

namespace Document

def toJson (d : Document) : Json :=
  .object <|
    [("name", .string d.name), ("dataColors", .ofStrings d.dataColors)] ++
    (d.structuralColors.filter fun e => !reservedKeys.contains e.1).map
      (fun e => (e.1, e.2.toJson)) ++
    [("visualStyles", d.styles.toJson)] ++
    (if d.textClasses.isEmpty then [] else [("textClasses", bagsToJson d.textClasses)])

def text (d : Document) (pretty : Bool) : String :=
  if pretty then d.toJson.pretty else d.toJson.compact

/-- Equality in which the order of keys does not count. -/
def equal (d e : Document) : Bool :=
  d.name == e.name && d.dataColors == e.dataColors &&
    Bag.equal d.structuralColors e.structuralColors && d.styles.equal e.styles &&
    Entries.equalBy Bag.equal d.textClasses e.textClasses && d.diagnostics == e.diagnostics

end Document

end ReportTheme
