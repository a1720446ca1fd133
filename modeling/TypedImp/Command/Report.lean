import TypedImp.Command.Arguments
import TypedImp.Compile
import TypedImp.Program.Dump
import TypedImp.Program.Printing

/-!
# What a run does

`Command.run` reads a file, compiles it, makes a text of the program and delivers the
text.  On its way a run leaves traces: texts on standard output and on standard
error, and files that it writes.  It may fail at any step, with a message or for want
of a row in a table, and what it has left behind until then stays.

What surrounds a run is its `Host`: the files, given as two answers, what is read from
a path and what hinders writing to it; the writer of JSON documents, which may fail;
and the log, whose records go to standard error.  A log that is not asked for anything
writes nothing.

`Command.ending` is what a run leaves behind, with its exit status.
-/

namespace TypedImp

/-! ### Hosts -/

/-- Why a file cannot be read or written. -/
inductive FileFault where
  | missing
  | denied
  | directory
  | notDirectory
  /-- Its content is not text. -/
  | notText
  | other (reason : String)
deriving DecidableEq, Repr

def FileFault.text : FileFault → String
  | missing => "No such file or directory (os error 2)"
  | denied => "Permission denied (os error 13)"
  | notDirectory => "Not a directory (os error 20)"
  | directory => "Is a directory (os error 21)"
  | notText => "stream did not contain valid UTF-8"
  | other reason => reason

/-- The files that a run can reach. -/
structure Files where
  read : String → Except FileFault String
  /-- What hinders writing to a path, if anything does. -/
  hindrance? : String → Option FileFault

/-- What a run has to say to the log. -/
inductive Notice where
  | compiling (path : String)
  /-- What the stages of a compilation record, one behind the other. -/
  | stages (source : String) (simplify : Bool)
  | wrote (path : String)
deriving DecidableEq, Repr

/-- What surrounds a run. -/
structure Host extends Files where
  /-- The text of a document, or the reason why there is none. -/
  serialize : Json → Except String String
  /-- What the log writes on a notice. -/
  log : Notice → String

/-! ### Runs -/

/-- What a run has left behind so far. -/
structure Traces where
  stdout : String := ""
  stderr : String := ""
  /-- The paths and texts of the files that were written. -/
  written : List (String × String) := []
deriving DecidableEq, Repr

/-- Why a run cannot go on. -/
inductive Failure where
  | message (text : String)
  | noRow (missing : NoRow)
deriving DecidableEq, Repr

def Failure.exit : Failure → Nat
  | message _ => 1
  | noRow _ => 101

def Failure.text : Failure → String
  | message text => text
  | noRow missing => missing.text

/-- The steps of a run. -/
abbrev Run := EStateM Failure Traces

namespace Run

def print (text : String) : Run Unit := modify fun t => { t with stdout := t.stdout ++ text }

def fail {α : Type} (message : String) : Run α := throw (.message message)

/-- What is looked up in tables. -/
def look {α : Type} (x : Lookup α) : Run α :=
  match x with
  | .ok a => pure a
  | .error missing => throw (.noRow missing)

end Run

namespace Host

def note (host : Host) (notice : Notice) : Run Unit :=
  modify fun t => { t with stderr := t.stderr ++ host.log notice }

/-- The text of a file. -/
def source (host : Host) (input : String) : Run String :=
  match host.read input with
  | .ok text => pure text
  | .error fault => .fail ("Error reading file: " ++ input ++ ": " ++ fault.text)

/-- Writes a file, or leaves it as it is if something hinders this. -/
def write (host : Host) (path text : String) : Run Unit :=
  match host.hindrance? path with
  | none => modify fun t => { t with written := t.written ++ [(path, text)] }
  | some fault => .fail ("Error writing file: " ++ path ++ ": " ++ fault.text)

def compileFile (host : Host) (input : String) (simplify : Bool) : Run Program := do
  let source ← host.source input
  host.note (.compiling input)
  host.note (.stages source simplify)
  match compile source simplify with
  | .ok p => pure p
  | .error d => .fail d.text

/-- A program in the form that is asked for. -/
def textOf (host : Host) (p : Program) : Emit → Run String
  | .listing => .look p.print
  | .json =>
    match host.serialize p.dump with
    | .ok text => pure (text ++ "\n")
    | .error reason => .fail ("Error serializing AST: " ++ reason)

/-- Puts a text on standard output, or into a file if one is named. -/
def deliver (host : Host) (output : Option String) (text : String) : Run Unit :=
  match output with
  | some path => do
    host.write path text
    host.note (.wrote path)
  | none => .print text

def build (host : Host) (input : String) (options : BuildOptions) : Run Unit := do
  let p ← host.compileFile input options.simplify
  let text ← host.textOf p options.emit
  host.deliver options.output text

def check (host : Host) (input : String) : Run Unit := do
  let _ ← host.compileFile input false
  .print (input ++ ": no errors found\n")

end Host

def Command.run (host : Host) : Command → Run Unit
  | version => .print "quillc 0.1.0\n"
  | nothing => .fail "Error: No input file specified\nUsage: quillc <FILE> or quillc build <FILE>"
  | build input options => host.build input options
  | check input => host.check input

/-- The file that a command reads. -/
def Command.input? : Command → Option String
  | version => none
  | nothing => none
  | build input _ => some input
  | check input => some input

/-! ### Endings -/

/-- How a run ends: its exit status, and all that it leaves behind. -/
structure Ending extends Traces where
  exit : Nat
deriving DecidableEq, Repr

/-- A run that fails writes why on standard error. -/
def Run.ending (x : Run Unit) : Ending :=
  match x {} with
  | .ok _ t => ⟨t, 0⟩
  | .error failure t =>
    ⟨{ t with stderr := t.stderr ++ failure.text ++ "\n" }, failure.exit⟩

def Command.ending (host : Host) (command : Command) : Ending := (command.run host).ending

/-- The files and the writer of documents that come with the project, and no log. -/
def Host.ofFiles (files : Files) : Host :=
  { files with serialize := fun document => .ok document.text, log := fun _ => "" }

/-- What is to be put on standard output and standard error, and into a file. -/
structure Report where
  exit : Nat
  stdout : String
  stderr : String
  written : Option (String × String)
deriving DecidableEq, Repr

/-- The file that was written last is the one to be written. -/
def Ending.report (e : Ending) : Report := ⟨e.exit, e.stdout, e.stderr, e.written.getLast?⟩

def Command.report (files : Files) (command : Command) : Report :=
  (command.ending (.ofFiles files)).report

end TypedImp
