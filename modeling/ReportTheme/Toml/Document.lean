import ReportTheme.Toml.Part

/-!
TOML documents: lines that open tables and lines that give a key of the open table its value. Any
line that does neither makes the whole text void.
-/
namespace ReportTheme.Toml

/-- The root table so far and the path of the table that is open. -/
structure Draft where
  root : Entries Node
  current : List String

namespace Draft

/-- Takes one line, of which the blanks are left out. -/
def addLine (d : Draft) (line : List Part) : Option Draft :=
  match line with
  | [] => some d
  | [.list [.list inner]] => do
    let path ← Part.key? inner
    return ⟨← Node.openItem path d.root, path⟩
  | [.list inner] => do
    let path ← Part.key? inner
    return ⟨← Node.openTable path d.root, path⟩
  | line => do
    let key := line.takeWhile fun p => !p.isMark .equals
    let path ← Part.key? key
    match line.drop key.length with
    | [_, value] =>
      let v ← value.value?
      let root ← Node.within .implied (fun _ es => Node.assign path v es) d.current .header d.root
      return { d with root }
    | _ => none

end Draft

/-- Splits at the line ends outside of brackets. -/
def lines : List Part → List (List Part)
  | [] => [[]]
  | p :: parts =>
    match lines parts with
    | [] => [[p]]
    | line :: others => if p.isMark .newline then [] :: line :: others else (p :: line) :: others

/-- Reads a whole text. One with a date or a time anywhere is refused as a whole. -/
def ofText? (text : String) : Option Toml := do
  let marks ← Mark.scan text
  let parts ← Part.ofMarks? marks
  let draft ← (lines parts).foldlM
    (fun (d : Draft) line => d.addLine (line.filter fun p => !p.isMark .blank)) ⟨[], []⟩
  return .table (Node.entriesToToml draft.root)

end ReportTheme.Toml
