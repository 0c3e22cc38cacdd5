import ReportTheme.Error
import ReportTheme.Text.Blank

/-!
Presets: four categories of quick customization, each with a few choices, and a selection of at most
one choice a category. A choice is written `category=value`.
-/
namespace ReportTheme

inductive Padding where
  | compact
  | default
  | spacious
  deriving DecidableEq, Repr

inductive Radius where
  | none
  | small
  | medium
  | large
  deriving DecidableEq, Repr

inductive Border where
  | default
  | subtle
  | none
  deriving DecidableEq, Repr

inductive Background where
  | default
  | tinted
  | transparent
  deriving DecidableEq, Repr

def Padding.variants : List (String × Padding) :=
  [("compact", .compact), ("default", .default), ("spacious", .spacious)]

def Radius.variants : List (String × Radius) :=
  [("none", .none), ("small", .small), ("medium", .medium), ("large", .large)]

def Border.variants : List (String × Border) :=
  [("default", .default), ("subtle", .subtle), ("none", .none)]

def Background.variants : List (String × Background) :=
  [("default", .default), ("tinted", .tinted), ("transparent", .transparent)]

def Padding.name : Padding → String
  | .compact => "compact"
  | .default => "default"
  | .spacious => "spacious"

def Radius.name : Radius → String
  | .none => "none"
  | .small => "small"
  | .medium => "medium"
  | .large => "large"

def Border.name : Border → String
  | .default => "default"
  | .subtle => "subtle"
  | .none => "none"

def Background.name : Background → String
  | .default => "default"
  | .tinted => "tinted"
  | .transparent => "transparent"

inductive Category where
  | padding
  | radius
  | border
  | background
  deriving DecidableEq, Repr

inductive Choice where
  | padding (p : Padding)
  | radius (r : Radius)
  | border (b : Border)
  | background (b : Background)
  deriving DecidableEq, Repr

namespace Category

def all : List Category := [.padding, .radius, .border, .background]

def name : Category → String
  | .padding => "paddingStyle"
  | .radius => "borderRadius"
  | .border => "borderStyle"
  | .background => "backgroundStyle"

def parse (name : String) : Except Error Category :=
  match all.find? fun c => c.name == name with
  | some c => .ok c
  | none => .error (.unknownCategory name)

/-- Every choice of a category, in the order in which they are tried. -/
def choices : Category → List Choice
  | .padding => Padding.variants.map fun v => .padding v.2
  | .radius => Radius.variants.map fun v => .radius v.2
  | .border => Border.variants.map fun v => .border v.2
  | .background => Background.variants.map fun v => .background v.2

def toJson (c : Category) : Json := .string c.name

theorem mem_all (c : Category) : c ∈ all := by cases c <;> decide

end Category

namespace Choice

def all : List Choice := Category.all.flatMap Category.choices

def category : Choice → Category
  | .padding _ => .padding
  | .radius _ => .radius
  | .border _ => .border
  | .background _ => .background

def value : Choice → String
  | .padding p => p.name
  | .radius r => r.name
  | .border b => b.name
  | .background b => b.name

def text (c : Choice) : String := c.category.name ++ "=" ++ c.value

def ofNames (category value : String) : Except Error Choice := do
  let c ← Category.parse category
  match c.choices.find? fun choice => choice.value == value with
  | some choice => return choice
  | none => throw (.unknownChoice c.name value)

/-- Reads `category=value`, split at the first equals sign, with blanks around either name. -/
def parse (s : String) : Except Error Choice :=
  let cs := s.toList
  let name := cs.takeWhile (· ≠ '=')
  if name.length = cs.length then .error (.unknownCategory s)
  else ofNames (String.ofList (Text.trimList name))
    (String.ofList (Text.trimList (cs.drop (name.length + 1))))

end Choice

/-- At most one choice a category. -/
structure Selection where
  padding : Option Padding
  radius : Option Radius
  border : Option Border
  background : Option Background
  deriving DecidableEq, Repr

namespace Selection

def unset : Selection := ⟨none, none, none, none⟩

def isUnset (s : Selection) : Bool := s = unset

def get? (s : Selection) : Category → Option Choice
  | .padding => s.padding.map .padding
  | .radius => s.radius.map .radius
  | .border => s.border.map .border
  | .background => s.background.map .background

def set (s : Selection) : Choice → Selection
  | .padding p => { s with padding := some p }
  | .radius r => { s with radius := some r }
  | .border b => { s with border := some b }
  | .background b => { s with background := some b }

def clear (s : Selection) : Category → Selection
  | .padding => { s with padding := none }
  | .radius => { s with radius := none }
  | .border => { s with border := none }
  | .background => { s with background := none }

theorem get?_set (s : Selection) (c : Choice) (d : Category) :
    (s.set c).get? d = if c.category = d then some c else s.get? d := by
  cases c <;> cases d <;> simp [set, get?, Choice.category]

theorem get?_clear (s : Selection) (c d : Category) :
    (s.clear c).get? d = if c = d then none else s.get? d := by
  cases c <;> cases d <;> simp [clear, get?]

theorem ext_get? {s t : Selection} (h : ∀ c, s.get? c = t.get? c) : s = t := by
  have hp : s.padding = t.padding :=
    (Option.map_inj_right fun _ _ => Choice.padding.inj).1 (h .padding)
  have hr : s.radius = t.radius :=
    (Option.map_inj_right fun _ _ => Choice.radius.inj).1 (h .radius)
  have hb : s.border = t.border :=
    (Option.map_inj_right fun _ _ => Choice.border.inj).1 (h .border)
  have hg : s.background = t.background :=
    (Option.map_inj_right fun _ _ => Choice.background.inj).1 (h .background)
  cases s
  cases t
  simp_all

def shape : RecordShape Selection where
  name := "struct QuickCustomizations"
  fields := [
    .mkOptional Category.padding.name (Decoder.optional (Decoder.choice Padding.variants))
      fun padding s => { s with padding },
    .mkOptional Category.radius.name (Decoder.optional (Decoder.choice Radius.variants))
      fun radius s => { s with radius },
    .mkOptional Category.border.name (Decoder.optional (Decoder.choice Border.variants))
      fun border s => { s with border },
    .mkOptional Category.background.name (Decoder.optional (Decoder.choice Background.variants))
      fun background s => { s with background }]
  blank := unset

def decode : Decoder Selection := shape.decode

/-- Categories without a choice are left out. -/
def toJson (s : Selection) : Json :=
  .object (Category.all.filterMap fun c =>
    (s.get? c).map fun choice => (c.name, .string choice.value))

end Selection

end ReportTheme
