import ReportTheme.Double.Shortest

/-!
JSON numbers: whole numbers of 64 bits, with or without sign, and doubles. The two kinds are kept
apart, so `1` and `1.0` differ. `Number.text` is the written form.
-/
namespace ReportTheme

/-- Whole numbers reach from `-2 ^ 63` to `2 ^ 64 - 1`. -/
inductive Number where
  | integer (n : Int) (fits : -9223372036854775808 ≤ n ∧ n < 18446744073709551616)
  | double (x : Double)
  deriving DecidableEq, Repr

namespace Number

def ofInt? (n : Int) : Option Number :=
  if fits : -9223372036854775808 ≤ n ∧ n < 18446744073709551616 then some (.integer n fits)
  else none

def ofUInt64 (n : UInt64) : Number :=
  .integer n.toNat (by have := n.toNat_lt; omega)

/-- Where the written form of a double changes: the least and the greatest decimal exponent of a
number in plain notation. -/
structure Layout where
  plainFrom : Int
  plainTo : Int
  deriving DecidableEq, Repr

def layout : Layout := ⟨-5, 15⟩

def zeros (n : Int) : List Char := List.replicate n.toNat '0'

/-- Plain notation keeps a digit after the point; scientific notation signs its exponent. -/
def layOut (format : Layout) (decimal : Decimal) : List Char :=
  let digits := (Nat.repr decimal.digits).toList
  let exponent := decimal.exponent + digits.length - 1
  if format.plainFrom ≤ exponent ∧ exponent ≤ format.plainTo then
    if 0 ≤ decimal.exponent then digits ++ zeros decimal.exponent ++ ['.', '0']
    else if exponent < 0 then ['0', '.'] ++ zeros (-exponent - 1) ++ digits
    else digits.take (exponent + 1).toNat ++ ['.'] ++ digits.drop (exponent + 1).toNat
  else
    let fraction := if digits.length = 1 then [] else '.' :: digits.drop 1
    let sign := if exponent < 0 then '-' else '+'
    digits.take 1 ++ fraction ++ ['e', sign] ++ (Nat.repr exponent.natAbs).toList

def doubleText (x : Double) : List Char :=
  let digits := if x.isZero then ['0', '.', '0'] else layOut layout x.shortest
  if x.negative then '-' :: digits else digits

def chars : Number → List Char
  | .integer n _ => (if n < 0 then ['-'] else []) ++ (Nat.repr n.natAbs).toList
  | .double x => doubleText x

def text (n : Number) : String := String.ofList n.chars

/-- A whole number equals only a whole number; the two zeros among the doubles are equal. -/
def equal : Number → Number → Bool
  | .integer m _, .integer n _ => m == n
  | .double x, .double y => x.equal y
  | _, _ => false

theorem equal_refl (n : Number) : n.equal n = true := by
  cases n <;> simp [equal, Double.equal_refl]

end Number

end ReportTheme
