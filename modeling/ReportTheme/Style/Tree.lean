import ReportTheme.Style.Json
import ReportTheme.Style.Path

/-!
Style trees: visual type, then variant, then property bag. The variant `*` is the default of its
visual type, the visual type `*` stands for every visual, and `page` for the page.
-/
namespace ReportTheme

def defaultVariant : String := "*"

def globalVisual : String := "*"

def pageVisual : String := "page"

structure StyleTree where
  visuals : Entries (Entries Bag)
  deriving Repr, Inhabited

namespace StyleTree

def empty : StyleTree := ⟨[]⟩

def isEmpty (t : StyleTree) : Bool := t.visuals.isEmpty

def size (t : StyleTree) : Nat := t.visuals.length

def visualTypes (t : StyleTree) : List String := Entries.keys t.visuals

/-- The variants of a visual type, the default one first. -/
def variantNames (t : StyleTree) (visual : String) : List String :=
  let names := Entries.keys ((Entries.get? t.visuals visual).getD [])
  names.filter (· == defaultVariant) ++ names.filter (· != defaultVariant)

def bag? (t : StyleTree) (visual variant : String) : Option Bag :=
  (Entries.get? t.visuals visual).bind (Entries.get? · variant)

def defaultBag? (t : StyleTree) (visual : String) : Option Bag := t.bag? visual defaultVariant

/-- Changes a bag, which is empty if it was not there. -/
def modify (t : StyleTree) (visual variant : String) (f : Bag → Bag) : StyleTree :=
  ⟨Entries.upsert t.visuals visual fun variants =>
    Entries.upsert (variants.getD []) variant fun bag => f (bag.getD [])⟩

def setBag (t : StyleTree) (visual variant : String) (bag : Bag) : StyleTree :=
  t.modify visual variant fun _ => bag

/-- Writes a value at a path in a bag, which is made first if it was not there. -/
def setPath (t : StyleTree) (visual variant : String) (path : List String) (v : Value) :
    Except Error Unit × StyleTree :=
  let (outcome, bag) := Bag.setPath ((t.bag? visual variant).getD []) path v
  (outcome, t.setBag visual variant bag)

/-- Removes a bag; a visual type left without variants goes with it. -/
def removeBag (t : StyleTree) (visual variant : String) : StyleTree :=
  match Entries.get? t.visuals visual with
  | none => t
  | some variants =>
    let left := Entries.erase variants variant
    if left.isEmpty then ⟨Entries.erase t.visuals visual⟩
    else ⟨Entries.insert t.visuals visual left⟩

/-- Every bag with its visual type and variant, in order. -/
def bags (t : StyleTree) : List (String × String × Bag) :=
  t.visuals.flatMap fun v => v.2.map fun w => (v.1, w.1, w.2)

def ofBags (bags : List (String × String × Bag)) : StyleTree :=
  bags.foldl (fun t b => t.setBag b.1 b.2.1 b.2.2) empty

def ofEntries : Entries Json → Entries (Entries Bag)
  | [] => []
  | (visual, variants) :: es =>
    let bags := bagsOfJson variants
    if bags.isEmpty then ofEntries es else (visual, bags) :: ofEntries es

/-- Reads what is a tree of objects and leaves out all else; one malformed bag costs no other. -/
def ofJson (j : Json) : StyleTree := ⟨ofEntries (j.entries?.getD [])⟩

def toJson (t : StyleTree) : Json := .object (t.visuals.map fun v => (v.1, bagsToJson v.2))

/-- Equality in which the order of keys does not count. -/
def equal (s t : StyleTree) : Bool :=
  Entries.equalBy (Entries.equalBy Bag.equal) s.visuals t.visuals

def identical (s t : StyleTree) : Bool :=
  Entries.identicalBy (Entries.identicalBy Bag.identical) s.visuals t.visuals

end StyleTree

end ReportTheme
