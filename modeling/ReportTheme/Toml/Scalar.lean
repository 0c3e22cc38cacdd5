import ReportTheme.Toml.Value
import ReportTheme.Json.Lexeme
import ReportTheme.Double.Extended

/-!
Words that stand for a value: the two truth values, integers in four radices, and floats. Dates and
times are not among them: the format has them, but no setting here is one.
-/
namespace ReportTheme.Toml

/-- The digits of a number, in groups with an underscore between them. -/
def digits? (isDigit : Char → Bool) (word : String) : Option (List Char) :=
  let groups := (word.splitOn "_").map String.toList
  if groups.all fun g => !g.isEmpty && g.all isDigit then some groups.flatten else none

/-- Splits off a sign; true stands for minus. -/
def splitSign (word : String) : Bool × String :=
  let (negative, cs) := Text.splitSign word.toList
  (negative, String.ofList cs)

/-- Decimal digits without an idle zero before them. -/
def decimal? (word : String) : Option Nat := do
  let ds ← digits? Lexeme.isDigit word
  if ds.head? = some '0' ∧ ds.length ≠ 1 then none else Text.natural? ds

def inRadix? (radix : Nat) (word : String) : Option Nat := do
  let isDigit := fun c => (Lexeme.hexValue? c).any (· < radix)
  let ds ← digits? isDigit word
  some (ds.foldl (fun n c => n * radix + (Lexeme.hexValue? c).getD 0) 0)

/-- Integers must fit 64 bits. -/
def integer? (word : String) : Option Int := do
  let n ← match word.toList with
    | '0' :: 'x' :: cs => (inRadix? 16 (String.ofList cs)).map Int.ofNat
    | '0' :: 'o' :: cs => (inRadix? 8 (String.ofList cs)).map Int.ofNat
    | '0' :: 'b' :: cs => (inRadix? 2 (String.ofList cs)).map Int.ofNat
    | _ =>
      let (negative, digits) := splitSign word
      (decimal? digits).map fun n => if negative then -(n : Int) else n
  if -9223372036854775808 ≤ n ∧ n < 9223372036854775808 then some n else none

def isExponent (word : String) : Bool := (digits? Lexeme.isDigit (splitSign word).2).isSome

/-- A decimal with a fraction, an exponent or both, or one of the values that are not finite. -/
def isFloat (word : String) : Bool :=
  let unsigned := (splitSign word).2
  let isFraction := fun s => (digits? Lexeme.isDigit s).isSome
  match (unsigned.map fun c => if c = 'E' then 'e' else c).splitOn "e" with
  | [mantissa] =>
    match mantissa.splitOn "." with
    | [whole, fraction] => (decimal? whole).isSome && isFraction fraction
    | _ => unsigned = "inf" || unsigned = "nan"
  | [mantissa, exponent] =>
    isExponent exponent &&
      match mantissa.splitOn "." with
      | [whole] => (decimal? whole).isSome
      | [whole, fraction] => (decimal? whole).isSome && isFraction fraction
      | _ => false
  | _ => false

/-- Whether a decimal lies past the largest double. -/
def isTooLarge (word : String) : Bool :=
  let (negative, cs) := Text.splitSign (word.toList.filter (· ≠ '_'))
  Extended.decimal? negative cs = some (.infinite false)

/-- The value of a word, none for a date or a time. -/
def scalar? (word : String) : Option Toml :=
  if word = "true" then some (.bool true)
  else if word = "false" then some (.bool false)
  else
    match integer? word with
    | some n => some (.integer n)
    | none => if isFloat word && !isTooLarge word then some (.float word) else none

end ReportTheme.Toml
