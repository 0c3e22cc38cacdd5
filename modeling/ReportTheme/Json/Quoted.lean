/-!
Quoted text in JSON: what a character is written as between the quotes.
-/
namespace ReportTheme.Quoted

/-- A lower-case hexadecimal digit. -/
def hexDigit (n : Nat) : Char := if n < 10 then Char.ofNat (48 + n) else Char.ofNat (87 + n)

/-- Quote, backslash and the characters below U+0020 are escaped; all others stand as they are. -/
def escape (c : Char) : List Char :=
  if c = '"' then ['\\', '"']
  else if c = '\\' then ['\\', '\\']
  else if c = '\n' then ['\\', 'n']
  else if c = '\r' then ['\\', 'r']
  else if c = '\t' then ['\\', 't']
  else if c = '\x08' then ['\\', 'b']
  else if c = '\x0c' then ['\\', 'f']
  else if c.toNat < 32 then ['\\', 'u', '0', '0', hexDigit (c.toNat / 16), hexDigit (c.toNat % 16)]
  else [c]

def encode (s : List Char) : List Char := '"' :: (s.flatMap escape ++ ['"'])

def text (s : String) : String := String.ofList (encode s.toList)

end ReportTheme.Quoted
