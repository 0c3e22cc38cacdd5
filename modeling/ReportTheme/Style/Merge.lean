import ReportTheme.Style.Tree

/-!
Variant inheritance: a variant is laid over the default of its visual type. Groups merge key by key;
lists and scalars of the variant replace what they meet.
-/
namespace ReportTheme

mutual

/-- A value laid over what stood in its place. -/
def Value.over (old : Option Value) : Value → Value
  | .group overlay =>
    match old with
    | some (.group base) => .group (Bag.mergeFrom base overlay)
    | _ => .group overlay
  | v => v

def Bag.mergeFrom (base : Bag) : List (String × Value) → Bag
  | [] => base
  | (k, v) :: overlay =>
    Bag.mergeFrom (Entries.insert base k (Value.over (Entries.get? base k) v)) overlay

end

def Bag.merge (base overlay : Bag) : Bag := Bag.mergeFrom base overlay

/-- The effective style of a variant; a missing bag counts as empty. -/
def StyleTree.effective (t : StyleTree) (visual variant : String) : Bag :=
  let base := (t.defaultBag? visual).getD []
  if variant = defaultVariant then base
  else
    match t.bag? visual variant with
    | some overlay => base.merge overlay
    | none => base

end ReportTheme
