import ReportTheme.Mode

/-!
Color tokens: names for the role of a color, each bound for either mode to a slot of the neutral
scale or of the data colors. A slot that the palettes at hand do not have leaves a fixed fallback.
-/
namespace ReportTheme

/-- A place in the active palettes: a shade of the neutral scale, counted from the lightest, or a
data color. -/
inductive Slot where
  | shade (index : Nat)
  | data (index : Nat)
  deriving DecidableEq, Repr

/-- The colors that tokens stand for. -/
structure Swatches where
  neutral : List String
  data : List String
  deriving DecidableEq, Repr

namespace Slot

def text : Slot → String
  | .shade i => s!"shade {i}"
  | .data i => s!"data {i}"

def color? (s : Slot) (swatches : Swatches) : Option String :=
  match s with
  | .shade i => swatches.neutral[i]?
  | .data i => swatches.data[i]?

end Slot

inductive TokenCategory where
  | surface
  | text
  | border
  | interactive
  | accent
  deriving DecidableEq, Repr

def TokenCategory.name : TokenCategory → String
  | .surface => "surface"
  | .text => "text"
  | .border => "border"
  | .interactive => "interactive"
  | .accent => "accent"

inductive Token where
  | background
  | backgroundSecondary
  | backgroundTertiary
  | surface
  | surfaceElevated
  | textPrimary
  | textSecondary
  | textTertiary
  | textInverse
  | borderPrimary
  | borderSecondary
  | borderSubtle
  | hover
  | pressed
  | selected
  | disabled
  | accent
  | accentSecondary
  | accentTertiary
  deriving DecidableEq, Repr

namespace Token

/-- Every token, in catalog order. -/
def all : List Token :=
  [.background, .backgroundSecondary, .backgroundTertiary, .surface, .surfaceElevated,
    .textPrimary, .textSecondary, .textTertiary, .textInverse,
    .borderPrimary, .borderSecondary, .borderSubtle,
    .hover, .pressed, .selected, .disabled,
    .accent, .accentSecondary, .accentTertiary]

def name : Token → String
  | .background => "@background"
  | .backgroundSecondary => "@background-secondary"
  | .backgroundTertiary => "@background-tertiary"
  | .surface => "@surface"
  | .surfaceElevated => "@surface-elevated"
  | .textPrimary => "@text-primary"
  | .textSecondary => "@text-secondary"
  | .textTertiary => "@text-tertiary"
  | .textInverse => "@text-inverse"
  | .borderPrimary => "@border-primary"
  | .borderSecondary => "@border-secondary"
  | .borderSubtle => "@border-subtle"
  | .hover => "@hover"
  | .pressed => "@pressed"
  | .selected => "@selected"
  | .disabled => "@disabled"
  | .accent => "@accent"
  | .accentSecondary => "@accent-secondary"
  | .accentTertiary => "@accent-tertiary"

def ofName? (name : String) : Option Token := all.find? fun t => t.name == name

def category : Token → TokenCategory
  | .background | .backgroundSecondary | .backgroundTertiary | .surface | .surfaceElevated =>
    .surface
  | .textPrimary | .textSecondary | .textTertiary | .textInverse => .text
  | .borderPrimary | .borderSecondary | .borderSubtle => .border
  | .hover | .pressed | .selected | .disabled => .interactive
  | .accent | .accentSecondary | .accentTertiary => .accent

/-- The slots in light and in dark mode. -/
def slots : Token → Slot × Slot
  | .background => (.shade 0, .shade 11)
  | .backgroundSecondary => (.shade 1, .shade 10)
  | .backgroundTertiary => (.shade 2, .shade 9)
  | .surface => (.shade 0, .shade 10)
  | .surfaceElevated => (.shade 0, .shade 9)
  | .textPrimary => (.shade 9, .shade 1)
  | .textSecondary => (.shade 7, .shade 3)
  | .textTertiary => (.shade 6, .shade 5)
  | .textInverse => (.shade 0, .shade 11)
  | .borderPrimary => (.shade 3, .shade 8)
  | .borderSecondary => (.shade 4, .shade 7)
  | .borderSubtle => (.shade 2, .shade 9)
  | .hover => (.shade 1, .shade 10)
  | .pressed => (.shade 2, .shade 9)
  | .selected => (.shade 3, .shade 8)
  | .disabled => (.shade 5, .shade 6)
  | .accent => (.data 0, .data 0)
  | .accentSecondary => (.data 1, .data 1)
  | .accentTertiary => (.data 2, .data 2)

def slot (t : Token) : Mode → Slot
  | .light => t.slots.1
  | .dark => t.slots.2

/-- The color that stands in where a slot is missing. -/
def fallback (t : Token) (mode : Mode) : String :=
  match t.category, mode with
  | .surface, .light => "#FFFFFF"
  | .surface, .dark => "#1B1A19"
  | .text, .light => "#252423"
  | .text, .dark => "#F3F2F1"
  | .border, .light => "#E1DFDD"
  | .border, .dark => "#3B3A39"
  | .interactive, .light => "#F3F2F1"
  | .interactive, .dark => "#323130"
  | .accent, _ => "#118DFF"

/-- A text is a token reference when it starts with the sigil, registered or not. -/
def isReference (s : String) : Bool := s.toList.head? = some '@'

/-- The fallback for references to no registered token. -/
def unknownFallback : String := "#808080"

/-- The color a reference resolves to: nothing for other texts, unknown names and missing slots. -/
def resolve? (reference : String) (mode : Mode) (swatches : Swatches) : Option String := do
  let t ← ofName? reference
  (t.slot mode).color? swatches

def resolve (reference : String) (mode : Mode) (swatches : Swatches) : String :=
  (resolve? reference mode swatches).getD
    (((ofName? reference).map fun t => t.fallback mode).getD unknownFallback)

theorem ofName?_name (t : Token) : ofName? t.name = some t := by cases t <;> decide

theorem isReference_name (t : Token) : isReference t.name = true := by cases t <;> decide

end Token

end ReportTheme
