import ReportTheme.Json.Record

/-!
What can go wrong at the edges of the library. Compiling never fails; reading records, parsing names
and addressing values by path do.
-/
namespace ReportTheme

inductive Error where
  | unknownMode (given : String)
  | unknownCategory (given : String)
  | unknownChoice (category given : String)
  | invalidPath (path : List String)
  | json (e : DecodeError)
  deriving DecidableEq, Repr

/-- A path as shown: its segments with dots between them. -/
def dotted (path : List String) : String := ".".intercalate path

namespace Error

/-- Faults of a JSON text have no message of their own. -/
def message? : Error → Option String
  | .unknownMode given => some s!"unknown color mode: {given}"
  | .unknownCategory given => some s!"unknown quick customization category: {given}"
  | .unknownChoice category given =>
    some s!"unknown value {Text.quote given} for quick customization {category}"
  | .invalidPath path => some s!"invalid property path: {dotted path}"
  | .json e => e.message?.map ("invalid theme JSON: " ++ ·)

end Error

end ReportTheme
