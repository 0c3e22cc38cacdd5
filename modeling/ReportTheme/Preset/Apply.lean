import ReportTheme.Preset.Choice
import ReportTheme.Style.Tree

/-!
What a choice writes into the style tree, and which choices a tree matches. A selection is only a
view of the tree: `Selection.reconcile` drops what the tree no longer matches.
-/
namespace ReportTheme

/-- Puts `value` into a field of the first entry of a property, in the default bag of a visual. -/
structure Write where
  visual : String
  property : String
  field : String
  value : Value
  deriving Repr

namespace Write

def apply (t : StyleTree) (w : Write) : StyleTree :=
  t.modify w.visual defaultVariant fun bag => bag.setField w.property w.field w.value

def isSatisfied (t : StyleTree) (w : Write) : Bool :=
  match (t.defaultBag? w.visual).bind fun bag => bag.field? w.property w.field with
  | some v => v.equal w.value
  | none => false

end Write

def whole (n : UInt64) : Value := .number (.ofUInt64 n)

def fill (t : Token) : Value := .solid (.ofToken t)

def Padding.inset : Padding → UInt64
  | .compact => 4
  | .default => 8
  | .spacious => 16

def Radius.size : Radius → UInt64
  | .none => 0
  | .small => 4
  | .medium => 8
  | .large => 16

def Background.transparency : Background → UInt64
  | .default => 0
  | .tinted => 0
  | .transparent => 100

def Background.pageToken : Background → Token
  | .default => .background
  | .tinted => .backgroundSecondary
  | .transparent => .background

namespace StyleTree

/-- The fill behind all visuals, or the one that the background choices write. -/
def backgroundFill (t : StyleTree) : Value :=
  ((t.defaultBag? globalVisual).bind fun bag => bag.field? "background" "color").getD
    (fill .surface)

end StyleTree

/-- The color that a border is drawn in; a hidden border has the color of the background. -/
def Border.color (t : StyleTree) : Border → Value
  | .default => fill .borderPrimary
  | .subtle => fill .borderSubtle
  | .none => t.backgroundFill

namespace Choice

/-- The writes of a choice. Only those of a hidden border depend on the tree. -/
def writes (t : StyleTree) : Choice → List Write
  | .padding p =>
    ["top", "bottom", "left", "right"].map fun side =>
      ⟨globalVisual, "padding", side, whole p.inset⟩
  | .radius r => [⟨globalVisual, "border", "radius", whole r.size⟩]
  | .border b =>
    [⟨globalVisual, "border", "show", .bool true⟩,
      ⟨globalVisual, "border", "width", whole 1⟩,
      ⟨globalVisual, "border", "color", b.color t⟩]
  | .background b =>
    [⟨globalVisual, "background", "show", .bool true⟩,
      ⟨globalVisual, "background", "color", fill .surface⟩,
      ⟨globalVisual, "background", "transparency", whole b.transparency⟩,
      ⟨pageVisual, "background", "color", fill b.pageToken⟩,
      ⟨pageVisual, "background", "transparency", whole 0⟩]

end Choice

namespace StyleTree

def detectIn (t : StyleTree) (c : Category) : Option Choice :=
  c.choices.find? fun choice => (choice.writes t).all (·.isSatisfied t)

/-- The choices that a tree matches. -/
def detect (t : StyleTree) : Selection :=
  Category.all.foldl (fun s c =>
    match t.detectIn c with
    | some choice => s.set choice
    | none => s) .unset

def applyWrites (t : StyleTree) (writes : List Write) : StyleTree := writes.foldl Write.apply t

/-- Whether applying a choice must move a hidden border to the new background. -/
def hidesBorder (t : StyleTree) (c : Choice) : Bool :=
  c.category = .background && t.detectIn .border = some (.border .none)

/-- Applies a choice; also every write performed, in order. A hidden border follows the
background. -/
def applyChoice (t : StyleTree) (c : Choice) : StyleTree × List Write :=
  let planned := c.writes t
  let changed := t.applyWrites planned
  if t.hidesBorder c then
    let again := (Choice.border .none).writes changed
    (changed.applyWrites again, planned ++ again)
  else (changed, planned)

end StyleTree

/-- Clears the choices that the tree does not match. -/
def Selection.reconcile (s : Selection) (t : StyleTree) : Selection :=
  Category.all.foldl (fun r c => if s.get? c = t.detect.get? c then r else r.clear c) s

end ReportTheme
