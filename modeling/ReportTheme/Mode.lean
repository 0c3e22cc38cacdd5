import ReportTheme.Error

/-!
Light and dark appearance.
-/
namespace ReportTheme

inductive Mode where
  | light
  | dark
  deriving DecidableEq, Repr

namespace Mode

def name : Mode → String
  | .light => "light"
  | .dark => "dark"

def toggle : Mode → Mode
  | .light => .dark
  | .dark => .light

def variants : List (String × Mode) := [("light", .light), ("dark", .dark)]

/-- Reads a mode, ASCII letters in either case. -/
def parse (s : String) : Except Error Mode :=
  match Entries.get? variants (String.ofList (s.toList.map Char.toLower)) with
  | some m => .ok m
  | none => .error (.unknownMode s)

def decode : Decoder Mode := Decoder.choice variants

def toJson (m : Mode) : Json := .string m.name

end Mode

end ReportTheme
