import ReportTheme.Double

/-!
The shortest decimal that reads back as a given double. All numbers below are naturals in units of
a quarter of `10 ^ -1074`, in which every double and every midpoint between two doubles is whole.
-/
namespace ReportTheme

/-- The number `digits · 10 ^ exponent`. -/
structure Decimal where
  digits : Nat
  exponent : Int
  deriving DecidableEq, Repr

namespace Double

/-- Four times the number of `10 ^ -1074` in the absolute value. -/
def quarters (x : Double) : Nat := 4 * (x.units * Nat.pow 5 1074)

/-- The distances to the midpoints below and above; the doubles under a power of two lie closer. -/
def halfGaps (x : Double) : Nat × Nat :=
  let gap := Nat.pow 5 1074 <<< x.scale
  (if x.mantissa = 1 <<< 52 ∧ 0 < x.scale then gap else 2 * gap, 2 * gap)

/-- Whether a number of quarters rounds to `x`: a midpoint belongs to the even mantissa. -/
def Attracts (x : Double) (n : Nat) : Prop :=
  let low := x.quarters - x.halfGaps.1
  let high := x.quarters + x.halfGaps.2
  if x.mantissa % 2 = 0 then low ≤ n ∧ n ≤ high else low < n ∧ n < high

instance (x : Double) (n : Nat) : Decidable (x.Attracts n) := by
  unfold Attracts; infer_instance

/-- The multiple of `step` that rounds to `x` and is nearest to it, of two the even one. -/
def onGrid? (x : Double) (step : Nat) : Option Nat :=
  let below := x.quarters / step
  let rest := 2 * (x.quarters % step)
  let first := if rest < step ∨ (rest = step ∧ below % 2 = 0) then below else below + 1
  let second := if first = below then below + 1 else below
  if x.Attracts (first * step) then some first
  else if x.Attracts (second * step) then some second
  else none

/-- Drops final zeros, at most `fuel` of them. -/
def dropZeros : Nat → Nat → Int → Decimal
  | 0, digits, exponent => ⟨digits, exponent⟩
  | fuel + 1, digits, exponent =>
    if digits % 10 = 0 then dropZeros fuel (digits / 10) (exponent + 1) else ⟨digits, exponent⟩

/-- The decimal with the fewest digits that rounds to the absolute value of `x`, and of those the
nearest; seventeen digits always suffice. -/
def shortest (x : Double) : Decimal :=
  if x.isZero then ⟨0, 0⟩
  else
    let places := (Nat.repr (x.quarters / 4)).length
    let found := (List.range 17).findSome? fun n =>
      (x.onGrid? (4 * Nat.pow 10 (places - (n + 1)))).map fun digits =>
        dropZeros 17 digits ((places : Int) - (n + 1 : Nat) - 1074)
    found.getD ⟨x.quarters / 4, -1074⟩

end Double

end ReportTheme
