import ReportTheme.Toml.Value

/-!
Tables while they are being defined. A table is defined once: by its header, by the dotted keys of
one table, or as a value; a table that a longer header merely implies may still get a header.
-/
namespace ReportTheme.Toml

/-- What has defined a table so far. -/
inductive Origin where
  | implied
  | dotted
  | header
  deriving DecidableEq, Repr

/-- Tables of a list stand latest first. -/
inductive Node where
  | value (v : Toml)
  | table (origin : Origin) (entries : List (String × Node))
  | tables (items : List (List (String × Node)))
  deriving Repr, Inhabited

namespace Node

mutual

def toToml : Node → Toml
  | .value v => v
  | .table _ entries => .table (entriesToToml entries)
  | .tables items => .list (itemsToToml items).reverse

def entriesToToml : List (String × Node) → List (String × Toml)
  | [] => []
  | (k, n) :: es => (k, toToml n) :: entriesToToml es

def itemsToToml : List (List (String × Node)) → List Toml
  | [] => []
  | es :: items => .table (entriesToToml es) :: itemsToToml items

end

/-- Changes the table at a path from here. Missing tables on the way get the origin `made`; a dotted
key may not lead through a table with a header. -/
def within (made : Origin) (change : Origin → Entries Node → Option (Entries Node)) :
    List String → Origin → Entries Node → Option (Entries Node)
  | [], origin, es => change origin es
  | key :: path, _, es =>
    match Entries.get? es key with
    | none =>
      (within made change path made []).map fun inner => Entries.insert es key (.table made inner)
    | some (.table origin inner) =>
      if made = .dotted ∧ origin = .header then none
      else
        (within made change path origin inner).map fun inner =>
          Entries.insert es key (.table origin inner)
    | some (.tables (last :: others)) =>
      (within made change path .header last).map fun last =>
        Entries.insert es key (.tables (last :: others))
    | some _ => none

/-- Gives a dotted key its value. -/
def assign (path : List String) (v : Toml) (es : Entries Node) : Option (Entries Node) :=
  match path.getLast? with
  | none => none
  | some key =>
    let place := path.dropLast
    within .dotted (fun origin es =>
      if Entries.contains es key ∨ (place ≠ [] ∧ origin ≠ .dotted) then none
      else some (Entries.insert es key (.value v))) place .header es

/-- Opens the table that a header names. -/
def openTable (path : List String) (root : Entries Node) : Option (Entries Node) :=
  match path.getLast? with
  | none => none
  | some key =>
    within .implied (fun _ es =>
      match Entries.get? es key with
      | none => some (Entries.insert es key (.table .header []))
      | some (.table .implied inner) => some (Entries.insert es key (.table .header inner))
      | some _ => none) path.dropLast .header root

/-- Opens one more table of the list that a double header names. -/
def openItem (path : List String) (root : Entries Node) : Option (Entries Node) :=
  match path.getLast? with
  | none => none
  | some key =>
    within .implied (fun _ es =>
      match Entries.get? es key with
      | none => some (Entries.insert es key (.tables [[]]))
      | some (.tables items) => some (Entries.insert es key (.tables ([] :: items)))
      | some _ => none) path.dropLast .header root

/-- The table of the given dotted keys. -/
def ofPairs? (pairs : List (List String × Toml)) : Option Toml :=
  (pairs.foldlM (fun es p => assign p.1 p.2 es) []).map fun es => .table (entriesToToml es)

end Node

end ReportTheme.Toml
