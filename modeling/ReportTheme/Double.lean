/-!
Finite binary64 numbers, held exactly: sign, mantissa and binary scale in the one canonical form.
Arithmetic is exact on naturals and rounds once, to the nearest number and from a half to the even
mantissa.
-/
namespace ReportTheme

/-- The number `± mantissa · 2 ^ (scale - 1074)`. -/
structure Double where
  negative : Bool
  mantissa : Nat
  scale : Nat
  canonical : mantissa < 1 <<< 53 ∧ scale ≤ 2045 ∧ (scale = 0 ∨ 1 <<< 52 ≤ mantissa)
  deriving DecidableEq, Repr

/-- The integer nearest to `num / den`; a half goes to the even neighbour. -/
def roundDiv (num den : Nat) : Nat :=
  let low := num / den
  let rest := 2 * (num % den)
  if rest < den ∨ (rest = den ∧ low % 2 = 0) then low else low + 1

namespace Double

def zero (negative : Bool) : Double := ⟨negative, 0, 0, by decide⟩

def isZero (x : Double) : Bool := x.mantissa == 0

/-- The absolute value in units of the smallest positive double. -/
def units (x : Double) : Nat := x.mantissa <<< x.scale

def withSign (x : Double) (negative : Bool) : Double := { x with negative }

/-- The double nearest to `num / den`, or nothing where that lies past the largest one. -/
def ofRatio? (negative : Bool) (num den : Nat) : Option Double :=
  let units := num <<< 1074
  let scale := (units / den).log2 - 52
  let rounded := roundDiv units (den <<< scale)
  let mantissa := if rounded = 1 <<< 53 then 1 <<< 52 else rounded
  let scale := if rounded = 1 <<< 53 then scale + 1 else scale
  if h : mantissa < 1 <<< 53 ∧ scale ≤ 2045 ∧ (scale = 0 ∨ 1 <<< 52 ≤ mantissa) then
    some ⟨negative, mantissa, scale, h⟩
  else
    none

def ofNat? (n : Nat) : Option Double := ofRatio? false n 1

def mul? (x y : Double) : Option Double :=
  ofRatio? (x.negative != y.negative) (x.units * y.units) (1 <<< 2148)

/-- The quotient of `x` by a non-zero `y`. -/
def div? (x y : Double) : Option Double :=
  ofRatio? (x.negative != y.negative) x.units y.units

/-- The double nearest to `digits · 10 ^ exponent`. -/
def ofDecimal? (negative : Bool) (digits : Nat) (exponent : Int) : Option Double :=
  if digits = 0 then some (zero negative)
  else if 400 < exponent then none
  else if exponent + (Nat.repr digits).length < -400 then some (zero negative)
  else ofRatio? negative (digits * Nat.pow 10 exponent.toNat) (Nat.pow 10 (-exponent).toNat)

/-- Equality of values: the two zeros are equal. -/
def equal (x y : Double) : Bool := x = y || (x.isZero && y.isZero)

theorem equal_refl (x : Double) : x.equal x = true := by simp [equal]

end Double

end ReportTheme
