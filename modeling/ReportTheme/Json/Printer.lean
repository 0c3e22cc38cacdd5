import ReportTheme.Json.Basic
import ReportTheme.Json.Quoted

/-!
The two written forms of a JSON value: compact, without spaces, and pretty, one entry a line.
-/
namespace ReportTheme.Json

mutual

def compact : Json → String
  | .null => "null"
  | .bool b => if b then "true" else "false"
  | .number n => n.text
  | .string s => Quoted.text s
  | .list items => "[" ++ compactItems items ++ "]"
  | .object entries => "\x7b" ++ compactEntries entries ++ "\x7d"

def compactItems : List Json → String
  | [] => ""
  | [j] => compact j
  | j :: js => compact j ++ "," ++ compactItems js

def compactEntries : List (String × Json) → String
  | [] => ""
  | [(k, j)] => Quoted.text k ++ ":" ++ compact j
  | (k, j) :: es => Quoted.text k ++ ":" ++ compact j ++ "," ++ compactEntries es

end

/-- The break before a line at the given depth. -/
def newLine (depth : Nat) : String := "\n" ++ String.ofList (List.replicate (2 * depth) ' ')

mutual

/-- The pretty form of a value whose own brackets stand at `depth`. -/
def prettyAt (depth : Nat) : Json → String
  | .null => "null"
  | .bool b => if b then "true" else "false"
  | .number n => n.text
  | .string s => Quoted.text s
  | .list [] => "[]"
  | .list items => "[" ++ prettyItems (depth + 1) items ++ newLine depth ++ "]"
  | .object [] => "\x7b\x7d"
  | .object entries => "\x7b" ++ prettyEntries (depth + 1) entries ++ newLine depth ++ "\x7d"

def prettyItems (depth : Nat) : List Json → String
  | [] => ""
  | [j] => newLine depth ++ prettyAt depth j
  | j :: js => newLine depth ++ prettyAt depth j ++ "," ++ prettyItems depth js

def prettyEntries (depth : Nat) : List (String × Json) → String
  | [] => ""
  | [(k, j)] => newLine depth ++ Quoted.text k ++ ": " ++ prettyAt depth j
  | (k, j) :: es =>
    newLine depth ++ Quoted.text k ++ ": " ++ prettyAt depth j ++ "," ++ prettyEntries depth es

end

def pretty (j : Json) : String := prettyAt 0 j

end ReportTheme.Json
