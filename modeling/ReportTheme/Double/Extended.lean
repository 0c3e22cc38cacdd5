import ReportTheme.Double
import ReportTheme.Text.Digits

/-!
Doubles with the values that are not finite, and how decimal text stands for them: a sign, digits
with a point among them or at either end, and an exponent; or a word.
-/
namespace ReportTheme

/-- A double, or a value that is not finite. -/
inductive Extended where
  | finite (x : Double)
  | infinite (negative : Bool)
  | undefined
  deriving DecidableEq, Repr

namespace Extended

def finite? : Extended → Option Double
  | .finite x => some x
  | _ => none

/-- The double nearest to `digits · 10 ^ exponent`, or an infinity past the largest one. -/
def ofDecimal (negative : Bool) (digits : Nat) (exponent : Int) : Extended :=
  match Double.ofDecimal? negative digits exponent with
  | some x => .finite x
  | none => .infinite negative

/-- What may follow the digits of a number. -/
def exponent? : List Char → Option Int
  | [] => some 0
  | c :: cs => if c = 'e' ∨ c = 'E' then Text.integer? cs else none

/-- Splits off the digits after a point, if there is one. -/
def splitFraction : List Char → List Char × List Char
  | '.' :: cs => (cs.takeWhile Char.isDigit, cs.dropWhile Char.isDigit)
  | cs => ([], cs)

/-- A number without its sign; a digit must stand on one side of the point. -/
def decimal? (negative : Bool) (cs : List Char) : Option Extended := do
  let whole := cs.takeWhile Char.isDigit
  let (fraction, rest) := splitFraction (cs.dropWhile Char.isDigit)
  let digits ← Text.natural? (whole ++ fraction)
  let exponent ← exponent? rest
  return ofDecimal negative digits (exponent - fraction.length)

/-- Reads a number; the case of letters does not matter. -/
def ofText? (text : String) : Option Extended :=
  let (negative, cs) := Text.splitSign text.toList
  let word := String.ofList (cs.map Char.toLower)
  if word = "inf" ∨ word = "infinity" then some (.infinite negative)
  else if word = "nan" then some .undefined
  else decimal? negative cs

end Extended

end ReportTheme
