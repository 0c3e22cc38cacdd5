import ReportTheme.Text.Unprintable

/-!
Text shown in a message: in double quotes, with all that is not plainly visible escaped.
-/
namespace ReportTheme.Text

def visible (c : Char) : List Char :=
  if c = '"' then ['\\', '"']
  else if c = '\\' then ['\\', '\\']
  else if c = '\n' then ['\\', 'n']
  else if c = '\r' then ['\\', 'r']
  else if c = '\t' then ['\\', 't']
  else if c.toNat = 0 then ['\\', '0']
  else if isUnprintable c then ['\\', 'u', '\x7b'] ++ Nat.toDigits 16 c.toNat ++ ['\x7d']
  else [c]

def quote (s : String) : String :=
  String.ofList ('"' :: (s.toList.flatMap visible ++ ['"']))

end ReportTheme.Text
