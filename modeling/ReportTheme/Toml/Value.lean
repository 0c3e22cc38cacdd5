import ReportTheme.Entries

/-!
Values of the configuration language, which is TOML without dates.
-/
namespace ReportTheme

/-- Floats are kept as written. -/
inductive Toml where
  | string (s : String)
  | integer (n : Int)
  | float (written : String)
  | bool (b : Bool)
  | list (items : List Toml)
  | table (entries : List (String × Toml))
  deriving Repr, Inhabited

namespace Toml

def asString? : Toml → Option String
  | .string s => some s
  | _ => none

def asBool? : Toml → Option Bool
  | .bool b => some b
  | _ => none

def asList? : Toml → Option (List Toml)
  | .list items => some items
  | _ => none

/-- Whether a value has the form of a record: a table of its fields, or a list of them in order. -/
def isRecord : Toml → Bool
  | .table _ | .list _ => true
  | _ => false

/-- The field with the given name and place in the order. -/
def field? (record : Toml) (place : Nat) (name : String) : Option Toml :=
  match record with
  | .table entries => Entries.get? entries name
  | .list items => items[place]?
  | _ => none

end Toml

end ReportTheme
