import ReportTheme.Style.Value
import ReportTheme.Error
import ReportTheme.Text.Digits

/-!
Addressing values inside a bag. A segment is a key where a group stands and a decimal index where a
list stands. Writing creates groups on its way and puts one in the place of a scalar, but never
makes a list longer.
-/
namespace ReportTheme

/-- Decimal digits after at most one plus sign, below `2 ^ 64`. -/
def listIndex? (segment : String) : Option Nat := do
  let n ← Text.natural? (match segment.toList with
    | '+' :: cs => cs
    | cs => cs)
  if n < UInt64.size then some n else none

namespace Value

def child? (v : Value) (segment : String) : Option Value :=
  match v with
  | .group entries => Entries.get? entries segment
  | .list items => (listIndex? segment).bind fun i => items[i]?
  | _ => none

def get? (v : Value) : List String → Option Value
  | [] => some v
  | segment :: path => (v.child? segment).bind (get? · path)

/-- Writes `new` at the path: whether all indices on the way were there, and what stands there then,
with all that was made before a missing index was met. -/
def write (new : Value) (v : Value) : List String → Bool × Value
  | [] => (true, new)
  | segment :: path =>
    match v with
    | .list items =>
      match (listIndex? segment).bind fun i => items[i]?.map fun item => (i, item) with
      | some (i, item) =>
        let (done, item) := write new item path
        (done, .list (items.set i item))
      | none => (false, v)
    | .group entries =>
      let (done, child) := write new ((Entries.get? entries segment).getD .null) path
      (done, .group (Entries.insert entries segment child))
    | _ =>
      let (done, child) := write new .null path
      (done, .group [(segment, child)])

/-- Takes out the value at a non-empty path; what held it stays. -/
def take? (v : Value) : List String → Option (Value × Value)
  | [] => none
  | [segment] => do
    let old ← v.child? segment
    match v with
    | .group entries => return (old, .group (Entries.erase entries segment))
    | .list items => return (old, .list (items.eraseIdx (← listIndex? segment)))
    | _ => none
  | segment :: path => do
    let child ← v.child? segment
    let (old, child) ← take? child path
    match v with
    | .group entries => return (old, .group (Entries.insert entries segment child))
    | .list items => return (old, .list (items.set (← listIndex? segment) child))
    | _ => none

end Value

namespace Bag

def getPath? (b : Bag) (path : List String) : Option Value :=
  if path.isEmpty then none else (Value.group b).get? path

/-- Writes a value at a path. A write that is refused leaves a bag too. -/
def setPath (b : Bag) (path : List String) (v : Value) : Except Error Unit × Bag :=
  match path with
  | [] => (.error (.invalidPath []), b)
  | key :: rest =>
    let (done, child) := Value.write v ((Entries.get? b key).getD .null) rest
    (if done then .ok () else .error (.invalidPath path), Entries.insert b key child)

/-- The value removed, and what is left. -/
def removePath (b : Bag) (path : List String) : Option Value × Bag :=
  match (Value.group b).take? path with
  | some (old, .group rest) => (some old, rest)
  | _ => (none, b)

/-- The field of the first entry of a list-valued property. -/
def field? (b : Bag) (property field : String) : Option Value := b.getPath? [property, "0", field]

/-- Writes a field into the first entry of a list-valued property; anything else that stands there
gives way to a list of one group. -/
def setField (b : Bag) (property field : String) (v : Value) : Bag :=
  Entries.upsert b property fun
    | some (.list (.group entry :: items)) => .list (.group (Entries.insert entry field v) :: items)
    | some (.list (_ :: items)) => .list (.group [(field, v)] :: items)
    | _ => .list [.group [(field, v)]]

end Bag

end ReportTheme
