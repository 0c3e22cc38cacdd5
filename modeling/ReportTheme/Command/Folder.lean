import ReportTheme.Command.Report

/-!
A folder of text files as a value, and what a command makes of it. Of what lies around the folder
only what every system has is known: the folders above it, the null device, and where that and
passing files are kept.
-/
namespace ReportTheme.Command

/-- Files by the segments of their paths; the folders are those that hold a file. -/
abbrev Folder := List (List String × String)

/-- Where a path leads. -/
inductive Place where
  | inner (segments : List String)
  /-- One of the folders that the folder is in. -/
  | above
  /-- A name in one of those folders. -/
  | beside
  /-- By the segments from the root of the system. -/
  | system (segments : List String)
  deriving DecidableEq, Repr

namespace Place

def parent : Place → Place
  | .inner [] => .above
  | .inner segments => .inner segments.dropLast
  | .above | .beside => .above
  | .system segments => .system segments.dropLast

def child (p : Place) (name : String) : Place :=
  match p with
  | .inner segments => .inner (segments ++ [name])
  | .above | .beside => .beside
  | .system segments => .system (segments ++ [name])

/-- Is empty, and keeps nothing. -/
def nullDevice : Place := .system ["dev", "null"]

end Place

namespace Folder

def text? (f : Folder) (p : Place) : Option String :=
  match p with
  | .inner segments => (f.find? fun e => e.1 = segments).map Prod.snd
  | p => if p = .nullDevice then some "" else none

def isFolder (f : Folder) : Place → Bool
  | .inner segments =>
    segments.isEmpty || f.any fun e => segments.isPrefixOf e.1 && e.1 ≠ segments
  | .above => true
  | .beside => false
  | .system segments => segments ∈ [[], ["dev"], ["tmp"]]

/-- Follows segments from a place. Only folders lead on. -/
def follow (f : Folder) : Place → List String → Option Place
  | p, [] => some p
  | p, segment :: rest =>
    if !f.isFolder p then none
    else if segment = "" ∨ segment = "." then follow f p rest
    else if segment = ".." then follow f p.parent rest
    else follow f (p.child segment) rest

/-- The place that a path leads to, whether anything is there or not. -/
def place? (f : Folder) (path : String) : Option Place :=
  f.follow (if path.toList.head? = some '/' then .system [] else .inner []) (path.splitOn "/")

def look (f : Folder) : Look := fun path =>
  match f.place? path with
  | none => .absent
  | some p =>
    match f.text? p with
    | some text => .file text
    | none => if f.isFolder p then .folder else .absent

/-- Puts a text into a file, old or new, of a folder that is there. What is written elsewhere is not
kept. -/
def write? (f : Folder) (path text : String) : Option Folder := do
  let p ← f.place? path
  if f.isFolder p then none
  else
    match p with
    | .inner segments => some ((segments, text) :: f.filter fun e => e.1 ≠ segments)
    | _ => some f

/-- Runs a command line in a folder. -/
def perform (f : Folder) (args : List String) : Report × Folder :=
  match parse args with
  | .error stop => (.ofStop stop, f)
  | .ok i =>
    match run f.look i with
    | .error failure => (.ofFailure failure, f)
    | .ok output =>
      match output.file with
      | none => (.ofText output.text, f)
      | some path =>
        match f.write? path output.text with
        | some f => (.ofText "", f)
        | none => (.ofFailure (.unwritable path), f)

end Folder

end ReportTheme.Command
