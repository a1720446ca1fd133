import TypedImp.Command.Report

/-!
# The program

`main` reads the file that the command line names, lets `Command.report` say what
is to be done with it, and does it.
-/

namespace TypedImp

def FileFault.ofError : IO.Error → FileFault
  | .noFileOrDirectory .. => missing
  | .permissionDenied .. => denied
  | .inappropriateType _ code _ => if code = 20 then notDirectory else directory
  | error => other (toString error)

/-- The text of a file. -/
def contents (path : String) : IO (Except FileFault String) := do
  try
    let bytes ← IO.FS.readBinFile path
    match String.fromUTF8? bytes with
    | some text => pure (.ok text)
    | none => pure (.error .notText)
  catch error => pure (.error (.ofError error))

/-- Writes a file, and says what hindered it if it is not written. -/
def store (path text : String) : IO (Option FileFault) := do
  try
    IO.FS.writeFile path text
    pure none
  catch error => pure (some (.ofError error))

/-- The report of a command, with its file written. -/
def Command.perform (command : Command) : IO Report := do
  let content ← match command.input? with
    | some path => contents path
    | none => pure (.error .missing)
  let report := command.report ⟨fun _ => content, fun _ => none⟩
  match report.written with
  | none => pure report
  | some (path, text) => match ← store path text with
    | none => pure report
    | some fault => pure (command.report ⟨fun _ => content, fun _ => some fault⟩)

end TypedImp

def main (arguments : List String) : IO UInt32 := do
  match TypedImp.Command.parse arguments with
  | none =>
    IO.eprintln "error: the arguments are not understood"
    return 2
  | some command =>
    let report ← command.perform
    IO.print report.stdout
    IO.eprint report.stderr
    return report.exit.toUInt32
