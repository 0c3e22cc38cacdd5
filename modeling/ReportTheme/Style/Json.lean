import ReportTheme.Style.Value

/-!
Style values as JSON. Text is a color when it has the form of a token reference or of a hex literal,
and so is an object of exactly the form of a data color reference.
-/
namespace ReportTheme

def isHexDigit (c : Char) : Bool :=
  ('0' ≤ c && c ≤ '9') || ('a' ≤ c && c ≤ 'f') || ('A' ≤ c && c ≤ 'F')

/-- A number sign and 3, 4, 6 or 8 hexadecimal digits. -/
def isHexLiteral (s : String) : Bool :=
  match s.toList with
  | '#' :: digits => [3, 4, 6, 8].contains digits.length && digits.all isHexDigit
  | _ => false

namespace Color

/-- Recognizes an object with the one key `expr`, in it the one key `ThemeDataColor`, and in this
exactly a whole non-negative `ColorId` and a number `Percent`. -/
def ofJson? : Entries Json → Option Color
  | [(outer, .object [(inner, .object data)])] =>
    if outer = "expr" ∧ inner = "ThemeDataColor" ∧ data.length = 2 then
      match Entries.get? data "ColorId", Entries.get? data "Percent" with
      | some (.number (.integer i _)), some (.number percent) =>
        if 0 ≤ i then some (.themeData (.ofNat i.toNat) percent) else none
      | _, _ => none
    else none
  | _ => none

def toJson : Color → Json
  | .token s => .string s
  | .hex s => .string s
  | .themeData index percent =>
    .object [("expr", .object [("ThemeDataColor", .object
      [("ColorId", .number (.ofUInt64 index)), ("Percent", .number percent)])])]

end Color

namespace Value

def ofString (s : String) : Value :=
  if Token.isReference s then .color (.token s)
  else if isHexLiteral s then .color (.hex s)
  else .text s

mutual

def ofJson : Json → Value
  | .null => .null
  | .bool b => .bool b
  | .number n => .number n
  | .string s => ofString s
  | .list items => .list (ofItems items)
  | .object entries =>
    match Color.ofJson? entries with
    | some c => .color c
    | none => .group (ofEntries entries)

def ofItems : List Json → List Value
  | [] => []
  | j :: js => ofJson j :: ofItems js

def ofEntries : List (String × Json) → List (String × Value)
  | [] => []
  | (k, j) :: es => (k, ofJson j) :: ofEntries es

end

mutual

def toJson : Value → Json
  | .color c => c.toJson
  | .number n => .number n
  | .bool b => .bool b
  | .text s => .string s
  | .list items => .list (toItems items)
  | .group entries => .object (toEntries entries)
  | .null => .null

def toItems : List Value → List Json
  | [] => []
  | v :: vs => toJson v :: toItems vs

def toEntries : List (String × Value) → List (String × Json)
  | [] => []
  | (k, v) :: es => (k, toJson v) :: toEntries es

end

end Value

namespace Bag

def ofEntries (entries : Entries Json) : Bag := Value.ofEntries entries

def toJson (b : Bag) : Json := .object (Value.toEntries b)

def decode : Decoder Bag := fun r => (Decoder.entries r).map ofEntries

end Bag

/-- Bags by name; entries that are not objects are left out. -/
def bagsOfEntries : Entries Json → Entries Bag
  | [] => []
  | (name, .object entries) :: es => (name, Bag.ofEntries entries) :: bagsOfEntries es
  | _ :: es => bagsOfEntries es

def bagsOfJson : Json → Entries Bag
  | .object entries => bagsOfEntries entries
  | _ => []

def bagsToJson (bags : Entries Bag) : Json := .object (bags.map fun e => (e.1, Bag.toJson e.2))

end ReportTheme
