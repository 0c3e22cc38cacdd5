import ReportTheme.Json.Number

/-!
Lexemes of a JSON text. Each is read where it starts; the characters it covers are then passed
over. Reading stops at the first lexeme that does not come to its end.
-/
namespace ReportTheme

/-- How a text fails to be JSON: by a wrong character, or by ending too early. -/
inductive Fault where
  | malformed
  | truncated
  deriving DecidableEq, Repr

/-- A number out of range and a string with half a surrogate pair are lexemes without a value.
A broken lexeme names the character it starts with, and what is met on decoding it and on merely
passing over it. `absent` stands for the end of the text. -/
inductive Lexeme where
  | openList
  | closeList
  | openObject
  | closeObject
  | comma
  | colon
  | null
  | bool (b : Bool)
  | number (value : Option Number)
  | string (text : Option String)
  | broken (start : Char) (decoded passed : Fault)
  | absent
  deriving DecidableEq, Repr

namespace Lexeme

def isDigit (c : Char) : Bool := '0' ≤ c && c ≤ '9'

def digitValue (c : Char) : Nat := c.toNat - '0'.toNat

/-- The parts of a number as written. -/
structure Numeral where
  negative : Bool
  whole : List Nat
  fraction : Option (List Nat)
  /-- Whether the exponent is negative, and its digits. -/
  exponent : Option (Bool × List Nat)
  deriving DecidableEq, Repr

/-- The largest significand that is collected from the digits of a double. -/
def significandLimit : Nat := UInt64.size - 1

/-- Appends digits as long as the significand fits; also the number of digits left over. -/
def collect : Nat → List Nat → Nat × Nat
  | m, [] => (m, 0)
  | m, d :: ds =>
    if m * 10 + d ≤ significandLimit then collect (m * 10 + d) ds else (m, ds.length + 1)

def digitsValue (ds : List Nat) : Nat := ds.foldl (fun n d => n * 10 + d) 0

def powerOfTen? (n : Nat) : Option Double := Double.ofNat? (Nat.pow 10 n)

/-- Scales a significand by one power of ten, rounding once for each step. Exponents below -308
are taken in steps, of which two leave nothing of any significand. -/
def scaled? (significand : Nat) (exponent : Int) : Option Double := do
  let m ← Double.ofNat? significand
  if 308 < exponent then
    if significand = 0 then some m else none
  else if 0 ≤ exponent then
    m.mul? (← powerOfTen? exponent.toNat)
  else if -308 ≤ exponent then
    m.div? (← powerOfTen? (-exponent).toNat)
  else if -616 ≤ exponent then
    (← m.div? (← powerOfTen? 308)).div? (← powerOfTen? (-exponent - 308).toNat)
  else
    some (Double.zero false)

/-- The value of a number. Whole digits past the significand raise the exponent, fraction digits
past it are dropped. A whole number outside the 64-bit ranges is a double, and so is `-0`. -/
def Numeral.value? (n : Numeral) : Option Number :=
  let (whole, left) := collect 0 n.whole
  match n.fraction, n.exponent with
  | none, none =>
    if left ≠ 0 then (scaled? whole left).map fun x => .double (x.withSign n.negative)
    else if !n.negative then Number.ofInt? whole
    else if 0 < whole ∧ whole ≤ 1 <<< 63 then Number.ofInt? (-whole)
    else (Double.ofNat? whole).map fun x => .double (x.withSign true)
  | fraction, exponent =>
    let (significand, dropped) := collect whole (fraction.getD [])
    let shift := match exponent with
      | none => 0
      | some (negative, ds) => if negative then -(digitsValue ds : Int) else digitsValue ds
    let places := (fraction.getD []).length - dropped
    (scaled? significand ((left : Int) - places + shift)).map fun x =>
      .double (x.withSign n.negative)

/-- A number cut off before a digit that must follow. -/
def cutNumber (start : Char) (rest : List Char) : Lexeme :=
  if rest.isEmpty then .broken start .truncated .malformed
  else .broken start .malformed .malformed

/-- A number whose first character, covered already, is `start`; `cs` begins with its digits. -/
def readNumber (start : Char) (negative : Bool) (covered : Nat) (cs : List Char) : Lexeme × Nat :=
  let whole := cs.takeWhile isDigit
  let cs := cs.drop whole.length
  let covered := covered + whole.length
  if whole.isEmpty then (cutNumber start cs, 0)
  else if whole.head? = some '0' ∧ whole.length ≠ 1 then (.broken start .malformed .malformed, 0)
  else
    let pointed := cs.head? = some '.'
    let fraction := if pointed then (cs.drop 1).takeWhile isDigit else []
    let cs := if pointed then cs.drop (fraction.length + 1) else cs
    let covered := if pointed then covered + fraction.length + 1 else covered
    if pointed ∧ fraction.isEmpty then (cutNumber start cs, 0)
    else
      let numeral : Numeral :=
        ⟨negative, whole.map digitValue, if pointed then some (fraction.map digitValue) else none,
          none⟩
      if cs.head? = some 'e' ∨ cs.head? = some 'E' then
        let cs := cs.drop 1
        let signed := cs.head? = some '-' ∨ cs.head? = some '+'
        let down := cs.head? = some '-'
        let cs := if signed then cs.drop 1 else cs
        let digits := cs.takeWhile isDigit
        if digits.isEmpty then (cutNumber start cs, 0)
        else
          (.number { numeral with exponent := some (down, digits.map digitValue) }.value?,
            covered + 1 + (if signed then 1 else 0) + digits.length)
      else (.number numeral.value?, covered)

/-- A character of a string, or a UTF-16 unit written as an escape. -/
inductive Piece where
  | char (c : Char)
  | unit (n : Nat)
  deriving DecidableEq, Repr

structure StringBody where
  pieces : List Piece
  /-- Characters covered, the closing quote included. -/
  size : Nat
  fault : Option Fault
  deriving DecidableEq, Repr

def hexValue? (c : Char) : Option Nat :=
  if isDigit c then some (digitValue c)
  else if 'a' ≤ c ∧ c ≤ 'f' then some (c.toNat - 87)
  else if 'A' ≤ c ∧ c ≤ 'F' then some (c.toNat - 55)
  else none

def unit? (a b c d : Char) : Option Nat := do
  some ((((← hexValue? a) * 16 + (← hexValue? b)) * 16 + (← hexValue? c)) * 16 + (← hexValue? d))

/-- What a one-character escape stands for. -/
def escaped? (c : Char) : Option Char :=
  if c = '"' ∨ c = '\\' ∨ c = '/' then some c
  else if c = 'n' then some '\n'
  else if c = 't' then some '\t'
  else if c = 'r' then some '\r'
  else if c = 'b' then some '\x08'
  else if c = 'f' then some '\x0c'
  else none

def StringBody.cons (p : Piece) (covered : Nat) (b : StringBody) : StringBody :=
  { b with pieces := p :: b.pieces, size := b.size + covered }

/-- Reads up to the closing quote. An escape is short when fewer than four bytes are left. -/
def stringBody : List Char → StringBody
  | [] => ⟨[], 0, some .truncated⟩
  | c :: cs =>
    if c = '"' then ⟨[], 1, none⟩
    else if c = '\\' then
      match cs with
      | [] => ⟨[], 0, some .truncated⟩
      | e :: cs =>
        if e = 'u' then
          match cs with
          | h₁ :: h₂ :: h₃ :: h₄ :: cs =>
            match unit? h₁ h₂ h₃ h₄ with
            | some n => (stringBody cs).cons (.unit n) 6
            | none => ⟨[], 0, some .malformed⟩
          | short =>
            if (String.ofList short).utf8ByteSize < 4 then ⟨[], 0, some .truncated⟩
            else ⟨[], 0, some .malformed⟩
        else
          match escaped? e with
          | some c => (stringBody cs).cons (.char c) 2
          | none => ⟨[], 0, some .malformed⟩
    else if c.toNat < 32 then ⟨[], 0, some .malformed⟩
    else (stringBody cs).cons (.char c) 1

def isHigh (n : Nat) : Bool := 0xD800 ≤ n && n ≤ 0xDBFF

def isLow (n : Nat) : Bool := 0xDC00 ≤ n && n ≤ 0xDFFF

/-- The characters of the pieces; every surrogate must belong to a pair. -/
def characters? : List Piece → Option (List Char)
  | [] => some []
  | .char c :: ps => (characters? ps).map (c :: ·)
  | .unit n :: ps =>
    if isHigh n then
      match ps with
      | .unit m :: ps =>
        if isLow m then
          (characters? ps).map (Char.ofNat (0x10000 + (n - 0xD800) * 0x400 + (m - 0xDC00)) :: ·)
        else none
      | _ => none
    else if isLow n then none
    else (characters? ps).map (Char.ofNat n :: ·)

/-- Leaves out a first half of a pair at the very end. -/
def dropOpenPair : List Piece → List Piece
  | [] => []
  | [.unit n] => if isHigh n then [] else [.unit n]
  | p :: ps => p :: dropOpenPair ps

/-- A string after its opening quote; a lone surrogate is met before a fault further on. -/
def readString (cs : List Char) : Lexeme × Nat :=
  let body := stringBody cs
  match body.fault with
  | none => (.string ((characters? body.pieces).map String.ofList), body.size)
  | some f =>
    let decoded := if (characters? (dropOpenPair body.pieces)).isNone then .malformed else f
    (.broken '"' decoded f, 0)

/-- Compares with a word letter by letter. -/
def wordFault : List Char → List Char → Option Fault
  | [], _ => none
  | _ :: _, [] => some .truncated
  | w :: ws, c :: cs => if w = c then wordFault ws cs else some .malformed

/-- A word whose first letter, covered already, is `start`. -/
def readWord (start : Char) (others : List Char) (meaning : Lexeme) (cs : List Char) :
    Lexeme × Nat :=
  match wordFault others cs with
  | none => (meaning, others.length)
  | some f => (.broken start f f, 0)

/-- The lexeme that starts with `c`, and how many of the characters after `c` it covers. -/
def read (c : Char) (cs : List Char) : Lexeme × Nat :=
  if c = '[' then (.openList, 0)
  else if c = ']' then (.closeList, 0)
  else if c = '\x7b' then (.openObject, 0)
  else if c = '\x7d' then (.closeObject, 0)
  else if c = ',' then (.comma, 0)
  else if c = ':' then (.colon, 0)
  else if c = '"' then readString cs
  else if c = 'n' then readWord c ['u', 'l', 'l'] .null cs
  else if c = 't' then readWord c ['r', 'u', 'e'] (.bool true) cs
  else if c = 'f' then readWord c ['a', 'l', 's', 'e'] (.bool false) cs
  else if c = '-' then readNumber c true 0 cs
  else if isDigit c then
    let (l, covered) := readNumber c false 0 (c :: cs)
    (l, covered - 1)
  else (.broken c .malformed .malformed, 0)

def isBroken : Lexeme → Bool
  | .broken .. => true
  | _ => false

def isBlank (c : Char) : Bool := c = ' ' || c = '\n' || c = '\t' || c = '\r'

/-- The lexemes of a text of which the first `skip` characters are covered already. -/
def scanFrom : Nat → List Char → List Lexeme
  | _, [] => []
  | skip + 1, _ :: cs => scanFrom skip cs
  | 0, c :: cs =>
    if isBlank c then scanFrom 0 cs
    else
      let (l, covered) := read c cs
      if l.isBroken then [l] else l :: scanFrom covered cs

def scan (text : List Char) : List Lexeme := scanFrom 0 text

end Lexeme

end ReportTheme
