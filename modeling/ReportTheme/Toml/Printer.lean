import ReportTheme.Toml.Value
import ReportTheme.Json.Quoted

/-!
TOML as text: one line for every key of the root that is no table, and a section for every table.
Deeper values stand on the line of their key.
-/
namespace ReportTheme.Toml

/-- Quotes, backslashes and controls are escaped. -/
def escape (c : Char) : List Char :=
  if c = '"' then ['\\', '"']
  else if c = '\\' then ['\\', '\\']
  else if c.toNat < 32 ∨ c.toNat = 127 then
    ['\\', 'u', '0', '0', Quoted.hexDigit (c.toNat / 16), Quoted.hexDigit (c.toNat % 16)]
  else [c]

def quoted (s : String) : String := String.ofList ('"' :: (s.toList.flatMap escape ++ ['"']))

mutual

def valueText : Toml → String
  | .string s => quoted s
  | .integer n => toString n
  | .float written => written
  | .bool b => if b then "true" else "false"
  | .list items => "[" ++ itemsText items ++ "]"
  | .table entries => "\x7b" ++ entriesText entries ++ "\x7d"

def itemsText : List Toml → String
  | [] => ""
  | [v] => valueText v
  | v :: vs => valueText v ++ ", " ++ itemsText vs

def entriesText : List (String × Toml) → String
  | [] => ""
  | [(k, v)] => quoted k ++ " = " ++ valueText v
  | (k, v) :: es => quoted k ++ " = " ++ valueText v ++ ", " ++ entriesText es

end

def line (key : String) (v : Toml) : String := quoted key ++ " = " ++ valueText v ++ "\n"

/-- The lines of a key of the root: none for a table. -/
def rootLine : String × Toml → String
  | (_, .table _) => ""
  | (key, v) => line key v

/-- The section of a key of the root, if it holds a table. -/
def section? : String × Toml → Option String
  | (key, .table entries) =>
    some ("[" ++ quoted key ++ "]\n" ++ String.join (entries.map fun e => line e.1 e.2))
  | _ => none

def text (root : Entries Toml) : String :=
  String.join (root.map rootLine) ++ "\n".intercalate (root.filterMap section?)

end ReportTheme.Toml
