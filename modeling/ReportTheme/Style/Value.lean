import ReportTheme.Double.Extended
import ReportTheme.Json.Basic
import ReportTheme.Token

/-!
Style values: the JSON values of a theme with its colors told apart from other text. `Value.equal`
ignores the order of keys, `Value.identical` does not.
-/
namespace ReportTheme

/-- A color is a token reference with its sigil, a hex literal, or a data color of the surface that
shows the report, by its index and a shade in percent. -/
inductive Color where
  | token (reference : String)
  | hex (literal : String)
  | themeData (index : UInt64) (percent : Number)
  deriving DecidableEq, Repr

inductive Value where
  | color (c : Color)
  | number (n : Number)
  | bool (b : Bool)
  | text (s : String)
  | list (items : List Value)
  | group (entries : List (String × Value))
  | null
  deriving Repr, Inhabited

/-- Properties by name. -/
abbrev Bag := Entries Value

namespace Color

def ofToken (t : Token) : Color := .token t.name

def isToken : Color → Bool
  | .token _ => true
  | _ => false

def equal : Color → Color → Bool
  | .token s, .token t => s == t
  | .hex s, .hex t => s == t
  | .themeData i p, .themeData j q => i == j && p.equal q
  | _, _ => false

end Color

namespace Value

/-- A fill with the given color. -/
def solid (c : Color) : Value := .group [("solid", .group [("color", .color c)])]

/-- A number as a double; what is not finite is null. -/
def ofExtended (x : Extended) : Value := (x.finite?.map fun x => .number (.double x)).getD .null

/-- The color of a fill, or of a bare color. -/
def solidColor? : Value → Option Color
  | .color c => some c
  | .group entries =>
    match Entries.get? entries "solid" with
    | some (.group inner) =>
      match Entries.get? inner "color" with
      | some (.color c) => some c
      | _ => none
    | _ => none
  | _ => none

mutual

def equal : Value → Value → Bool
  | .color c, .color d => c.equal d
  | .number m, .number n => m.equal n
  | .bool a, .bool b => a == b
  | .text s, .text t => s == t
  | .list xs, .list ys => equalItems xs ys
  | .group a, .group b => a.length == b.length && equalEntries a b
  | .null, .null => true
  | _, _ => false

def equalItems : List Value → List Value → Bool
  | [], [] => true
  | x :: xs, y :: ys => equal x y && equalItems xs ys
  | _, _ => false

/-- Whether every entry has its equal in `b`. -/
def equalEntries : List (String × Value) → Bag → Bool
  | [], _ => true
  | (k, v) :: a, b =>
    (match Entries.get? b k with
      | some w => equal v w
      | none => false) && equalEntries a b

end

mutual

def identical : Value → Value → Bool
  | .color c, .color d => c.equal d
  | .number m, .number n => m.equal n
  | .bool a, .bool b => a == b
  | .text s, .text t => s == t
  | .list xs, .list ys => identicalItems xs ys
  | .group a, .group b => identicalEntries a b
  | .null, .null => true
  | _, _ => false

def identicalItems : List Value → List Value → Bool
  | [], [] => true
  | x :: xs, y :: ys => identical x y && identicalItems xs ys
  | _, _ => false

def identicalEntries : List (String × Value) → List (String × Value) → Bool
  | [], [] => true
  | (k, v) :: a, (l, w) :: b => k == l && identical v w && identicalEntries a b
  | _, _ => false

end

end Value

namespace Bag

def equal (a b : Bag) : Bool := (Value.group a).equal (.group b)

def identical (a b : Bag) : Bool := Value.identicalEntries a b

end Bag

end ReportTheme
