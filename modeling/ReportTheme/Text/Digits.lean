/-!
Numbers written in decimal digits. Only the ASCII digits count.
-/
namespace ReportTheme.Text

/-- The value of a run of digits, of which there must be one at least. -/
def natural? (cs : List Char) : Option Nat :=
  if cs.isEmpty || !cs.all Char.isDigit then none
  else some (cs.foldl (fun n c => n * 10 + (c.toNat - '0'.toNat)) 0)

/-- Splits off a sign; true stands for minus. -/
def splitSign : List Char → Bool × List Char
  | '-' :: cs => (true, cs)
  | '+' :: cs => (false, cs)
  | cs => (false, cs)

/-- The value of digits after at most one sign. -/
def integer? (cs : List Char) : Option Int :=
  let (negative, digits) := splitSign cs
  (natural? digits).map fun n => if negative then -(n : Int) else n

end ReportTheme.Text
