import ReportTheme.Json.Decode
import ReportTheme.Text.Quote

/-!
Decoding readings of an expected kind. A record is written as an object, whose unknown keys are
passed over, or as a list of its fields in order, of which optional ones may be left out at the end.
-/
namespace ReportTheme

/-- What a reading holds, as far as a message names it. -/
inductive Found where
  | null
  | bool (b : Bool)
  | number (n : Number)
  | string (s : String)
  | list
  | object
  deriving DecidableEq, Repr

inductive DecodeError where
  | fault (f : Fault)
  | wrongKind (found : Found) (expected : String)
  | missingField (name : String)
  | duplicateField (name : String)
  | unknownVariant (given : String) (variants : List String)
  | wrongLength (given : Nat) (record : String) (fields : Nat)
  deriving DecidableEq, Repr

def Found.text : Found → String
  | .null => "null"
  | .bool b => "boolean `" ++ (if b then "true" else "false") ++ "`"
  | .number n =>
    (match n with
      | .integer .. => "integer "
      | .double _ => "floating point ") ++ "`" ++ n.text ++ "`"
  | .string s => "string " ++ Text.quote s
  | .list => "sequence"
  | .object => "map"

def marked (s : String) : String := "`" ++ s ++ "`"

/-- The admissible variants as a message lists them. -/
def variantsText : List String → String
  | [a, b] => marked a ++ " or " ++ marked b
  | variants => "one of " ++ ", ".intercalate (variants.map marked)

namespace DecodeError

/-- A fault of the text itself has no message. -/
def message? : DecodeError → Option String
  | .fault _ => none
  | .wrongKind found expected => some s!"invalid type: {found.text}, expected {expected}"
  | .missingField name => some s!"missing field {marked name}"
  | .duplicateField name => some s!"duplicate field {marked name}"
  | .unknownVariant given variants =>
    some s!"unknown variant {marked given}, expected {variantsText variants}"
  | .wrongLength given record fields =>
    some s!"invalid length {given}, expected {record} with {fields} elements"

end DecodeError

abbrev Decoder (α : Type) := Reading → Except DecodeError α

namespace Decoder

variable {α : Type}

def ofFault : Except Fault α → Except DecodeError α := Except.mapError .fault

def foundLeaf : Lexeme → Except Fault Found
  | .null => .ok .null
  | .bool b => .ok (.bool b)
  | .number (some n) => .ok (.number n)
  | .string (some s) => .ok (.string s)
  | .openList => .ok .list
  | .openObject => .ok .object
  | .broken _ f _ => .error f
  | .absent => .error .truncated
  | _ => .error .malformed

/-- Brackets are told by the first of them; anything else is read before it is refused. -/
def found : Reading → Except Fault Found
  | .leaf l => foundLeaf l
  | .list .. => .ok .list
  | .object .. => .ok .object
  | .deep r => found r

/-- Refuses a reading of the wrong kind. -/
def refuse (expected : String) (r : Reading) : Except DecodeError α := do
  throw (.wrongKind (← ofFault (found r)) expected)

def json : Decoder Json := fun r => ofFault (Json.ofReading r)

def string : Decoder String
  | .leaf (.string (some s)) => .ok s
  | r => refuse "a string" r

def bool : Decoder Bool
  | .leaf (.bool b) => .ok b
  | r => refuse "a boolean" r

def items (item : Decoder α) : List Reading → Option Fault → Except DecodeError (List α)
  | [], none => .ok []
  | [], some f => .error (.fault f)
  | r :: rs, ending => do
    let a ← item r
    let as ← items item rs ending
    return a :: as

def list (item : Decoder α) : Decoder (List α)
  | .list rs ending => items item rs ending
  | r => refuse "a sequence" r

def entries : Decoder (Entries Json)
  | .object members ending => ofFault (Json.ofMembers members ending [])
  | r => refuse "a map" r

def variant (variants : List (String × α)) (given : String) : Except DecodeError α :=
  match Entries.get? variants given with
  | some a => .ok a
  | none => .error (.unknownVariant given (variants.map Prod.fst))

/-- One of finitely many variants: its name, or an object with the name as its only key and null
as the value. -/
def choice (variants : List (String × α)) : Decoder α
  | .leaf (.string (some s)) => variant variants s
  | .leaf (.broken '"' f _) => .error (.fault f)
  | .leaf .absent => .error (.fault .truncated)
  | .object [] (some f) => .error (.fault f)
  | .object ((k, r) :: others) ending => do
    let a ← variant variants (← ofFault k.keyText)
    match r with
    | .leaf .null => pure ()
    | r => refuse "unit" r
    match others, ending with
    | [], none => return a
    | [], some f => throw (.fault f)
    | _ :: _, _ => throw (.fault .malformed)
  | _ => .error (.fault .malformed)

def optional (value : Decoder α) : Decoder (Option α)
  | .leaf .null => .ok none
  | .leaf (.broken 'n' f _) => .error (.fault f)
  | r => (value r).map some

end Decoder

/-- A field of a record `σ` that is filled in step by step. -/
structure Field (σ : Type) where
  name : String
  required : Bool
  read : Reading → σ → Except DecodeError σ

namespace Field

variable {σ α : Type}

/-- A field that is decoded on its own and then put into the record. -/
def mkOptional (name : String) (value : Decoder α) (put : α → σ → σ) : Field σ :=
  ⟨name, false, fun r s => (value r).map (put · s)⟩

def mkRequired (name : String) (value : Decoder α) (put : α → σ → σ) : Field σ :=
  ⟨name, true, fun r s => (value r).map (put · s)⟩

end Field

/-- How a record is written: its name in messages, its fields in order, and its value when no
field is given. -/
structure RecordShape (σ : Type) where
  name : String
  fields : List (Field σ)
  blank : σ

namespace RecordShape

variable {σ : Type}

def ofMembers (shape : RecordShape σ) :
    List (Lexeme × Reading) → Option Fault → List String → σ → Except DecodeError σ
  | [], some f, _, _ => .error (.fault f)
  | [], none, seen, s =>
    match shape.fields.find? fun field => field.required && !seen.contains field.name with
    | some field => .error (.missingField field.name)
    | none => .ok s
  | (k, r) :: members, ending, seen, s => do
    let key ← Decoder.ofFault k.keyText
    match shape.fields.find? fun field => field.name == key with
    | some field =>
      if seen.contains key then throw (.duplicateField key)
      else ofMembers shape members ending (key :: seen) (← field.read r s)
    | none =>
      match r.passed with
      | some f => throw (.fault f)
      | none => ofMembers shape members ending seen s

/-- Reads the fields from the one at `index` on; anything after the last one is malformed. -/
def ofItems (shape : RecordShape σ) :
    List (Field σ) → Nat → List Reading → Option Fault → σ → Except DecodeError σ
  | [], _, [], none, s => .ok s
  | [], _, [], some f, _ => .error (.fault f)
  | [], _, _ :: _, _, _ => .error (.fault .malformed)
  | _ :: _, _, [], some f, _ => .error (.fault f)
  | field :: fields, index, [], none, s =>
    if field.required then .error (.wrongLength index shape.name shape.fields.length)
    else ofItems shape fields (index + 1) [] none s
  | field :: fields, index, r :: rs, ending, s => do
    ofItems shape fields (index + 1) rs ending (← field.read r s)

def decode (shape : RecordShape σ) : Decoder σ
  | .list rs ending => shape.ofItems shape.fields 0 rs ending shape.blank
  | .object members ending => shape.ofMembers members ending [] shape.blank
  | r => Decoder.refuse shape.name r

end RecordShape

/-- Decodes a whole text, after which only blanks may follow. -/
def Decoder.ofText {α : Type} (decode : Decoder α) (text : String) : Except DecodeError α := do
  let s := Scanned.ofText text
  let a ← decode s.root
  if s.trailing then throw (.fault .malformed) else return a

end ReportTheme
