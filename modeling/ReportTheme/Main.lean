import ReportTheme.Command.Report

/-!
The program: looks at the files that a run may need, runs, and prints or saves.
-/
namespace ReportTheme.Command

/-- The error code of reading a directory. -/
def isDirectory : UInt32 := 21

def lookAt (path : String) : IO Found := do
  try
    return .file (← IO.FS.readFile path)
  catch
    | .noFileOrDirectory .. => return .absent
    | .inappropriateType _ code _ => return if code = isDirectory then .folder else .absent
    | _ => return .unreadable

def finish (r : Report) : IO UInt32 := do
  IO.print r.printed
  if let some message := r.message then
    IO.eprintln s!"Error: {message}"
  return r.code.toUInt32

def save (o : Output) : IO Report := do
  match o.file with
  | none => return .ofText o.text
  | some path =>
    try
      IO.FS.writeFile path o.text
      return .ofText ""
    catch _ => return .ofFailure (.unwritable path)

def execute (i : Invocation) : IO Report := do
  let seen ← i.paths.mapM fun path => do return (path, ← lookAt path)
  match run (fun path => (Entries.get? seen path).getD .absent) i with
  | .error failure => return .ofFailure failure
  | .ok output =>
    if i.verbosity ≠ 0 then
      for note in output.notes do
        IO.eprintln s!"{note.path}: {note.token} stands for {note.fallback}"
    save output

end ReportTheme.Command

open ReportTheme.Command in
def main (args : List String) : IO UInt32 := do
  match parse args with
  | .error stop => finish (.ofStop stop)
  | .ok i => finish (← execute i)
