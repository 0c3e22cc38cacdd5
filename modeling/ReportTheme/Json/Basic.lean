import ReportTheme.Entries
import ReportTheme.Json.Number

/-!
JSON values. Objects keep their entries in the order of writing.
-/
namespace ReportTheme

inductive Json where
  | null
  | bool (b : Bool)
  | number (n : Number)
  | string (s : String)
  | list (items : List Json)
  | object (entries : List (String × Json))
  deriving Repr, Inhabited

namespace Json

def ofStrings (items : List String) : Json := .list (items.map .string)

def entries? : Json → Option (Entries Json)
  | .object es => some es
  | _ => none

def get? : Json → String → Option Json
  | .object es, key => Entries.get? es key
  | _, _ => none

end Json

end ReportTheme
