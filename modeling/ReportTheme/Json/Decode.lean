import ReportTheme.Json.Reading

/-!
Decoding a reading into a JSON value. A key that occurs again keeps its first place and takes the
later value.
-/
namespace ReportTheme

def Lexeme.value : Lexeme → Except Fault Json
  | .null => .ok .null
  | .bool b => .ok (.bool b)
  | .number (some n) => .ok (.number n)
  | .string (some s) => .ok (.string s)
  | .broken _ f _ => .error f
  | .absent => .error .truncated
  | _ => .error .malformed

/-- The text of a lexeme that stands as a key. -/
def Lexeme.keyText : Lexeme → Except Fault String
  | .string (some s) => .ok s
  | .broken '"' f _ => .error f
  | .absent => .error .truncated
  | _ => .error .malformed

namespace Json

mutual

def ofReading : Reading → Except Fault Json
  | .leaf l => l.value
  | .list items ending => (ofItems items ending).map .list
  | .object members ending => (ofMembers members ending []).map .object
  | .deep _ => .error .malformed

def ofItems : List Reading → Option Fault → Except Fault (List Json)
  | [], none => .ok []
  | [], some f => .error f
  | r :: rs, ending => do
    let j ← ofReading r
    let js ← ofItems rs ending
    return j :: js

/-- Adds the members to the entries read before them. -/
def ofMembers : List (Lexeme × Reading) → Option Fault → Entries Json → Except Fault (Entries Json)
  | [], none, es => .ok es
  | [], some f, _ => .error f
  | (k, r) :: ms, ending, es => do
    let key ← k.keyText
    let j ← ofReading r
    ofMembers ms ending (Entries.insert es key j)

end

/-- Decodes a whole text, after which only blanks may follow. -/
def ofText (text : String) : Except Fault Json := do
  let s := Scanned.ofText text
  let j ← ofReading s.root
  if s.trailing then throw .malformed else return j

end Json

end ReportTheme
