import TypedImp.Decimal.Numeral

/-!
# Command lines

What the command line asks for.  `Command.parse` reads the arguments from left to
right, and what is decided first stands: a mistake refuses the whole command line,
and a request for the version is granted, whatever comes behind it.  A request for
help is no command either.

A run begins without a mode; the words `build` and `check` choose one, and what
was given before them is forgotten.  Each mode takes one file, and each option at
most once.  The value of an option is attached to it or is the next argument,
which then must not look like an option itself.  Behind `--` every argument is a
file.
-/

namespace TypedImp

/-- What a build writes. -/
inductive Emit where
  /-- The listing of the program. -/
  | listing
  /-- The dump of the program, as a JSON document. -/
  | json
deriving DecidableEq, Repr

/-- How a program is built, and where to; without an `output`, to standard output. -/
structure BuildOptions where
  output : Option String
  emit : Emit
  simplify : Bool
deriving DecidableEq, Repr

/-- What a run is asked to do. -/
inductive Command where
  | version
  /-- Nothing, as no file is named. -/
  | nothing
  | build (input : String) (options : BuildOptions)
  | check (input : String)
deriving DecidableEq, Repr

namespace CommandLine

/-! ### Single arguments -/

/-- The options that take a value. -/
inductive Flag where
  | output
  | emit
  | level
deriving DecidableEq, Repr

/-- What an argument is by its look. -/
inductive Argument where
  /-- A file, a mode, or the value of an option. -/
  | word (text : String)
  /-- The mark behind which there are only files. -/
  | escape
  | version
  | flag (flag : Flag) (attached : Option String)
  | unknown
deriving DecidableEq, Repr

/-- The value attached to a one-letter option, perhaps by an equals sign. -/
def attachedValue? : List Char → Option String
  | [] => none
  | '=' :: value => some (String.ofList value)
  | value => some (String.ofList value)

/-- An argument that begins with one hyphen, of which `letter` and `rest` are left. -/
def Argument.ofShort (letter : Char) (rest : List Char) : Argument :=
  match letter with
  | 'V' => version
  | 'o' => flag .output (attachedValue? rest)
  | 'O' => flag .level (attachedValue? rest)
  | _ => unknown

/-- An argument that begins with two hyphens, of which a name and perhaps a value
behind an equals sign are left. -/
def Argument.ofLong (text : List Char) : Argument :=
  let attached := match text.dropWhile (· != '=') with
    | [] => none
    | _ :: value => some (String.ofList value)
  match String.ofList (text.takeWhile (· != '=')), attached with
  | "output", _ => flag .output attached
  | "emit", _ => flag .emit attached
  | "version", none => version
  | _, _ => unknown

/-- An argument where options are read; a hyphen alone is a word. -/
def Argument.ofText (text : String) : Argument :=
  match text.toList with
  | ['-'] => word text
  | ['-', '-'] => escape
  | '-' :: '-' :: rest => ofLong rest
  | '-' :: letter :: rest => ofShort letter rest
  | _ => word text

def Argument.word? : Argument → Option String
  | word text => some text
  | _ => none

/-! ### Values -/

def emitOf? : String → Option Emit
  | "ast" => some .listing
  | "json" => some .json
  | _ => none

/-- Whether a level asks for simplification.  A level is a whole number, which may
have a sign; there are the levels zero and one. -/
def levelOf? (text : String) : Option Bool :=
  let (negative, digits) := match text.toList with
    | '-' :: digits => (true, digits)
    | '+' :: digits => (false, digits)
    | digits => (false, digits)
  if digits.isEmpty || !digits.all Char.isDigit then none
  else match Decimal.digitsValue digits with
    | 0 => some false
    | 1 => if negative then none else some true
    | _ => none

/-! ### Whole command lines -/

/-- What has been read in the present mode. -/
structure Draft where
  input : Option String := none
  output : Option String := none
  emit : Option Emit := none
  simplify : Option Bool := none

/-- A value for a place that is still free. -/
def Draft.once {α : Type} (place value : Option α) : Option (Option α) :=
  if place.isSome || value.isNone then none else some value

/-- The name of a file, which is not empty. -/
def fileOf? (text : String) : Option String := if text.isEmpty then none else some text

def Draft.addFile? (d : Draft) (text : String) : Option Draft :=
  (once d.input (fileOf? text)).map fun input => { d with input }

def Draft.set? (d : Draft) (flag : Flag) (value : String) : Option Draft :=
  match flag with
  | .output => (once d.output (fileOf? value)).map fun output => { d with output }
  | .emit => (once d.emit (emitOf? value)).map fun emit => { d with emit }
  | .level => (once d.simplify (levelOf? value)).map fun simplify => { d with simplify }

def Draft.options (d : Draft) : BuildOptions :=
  ⟨d.output, d.emit.getD .listing, d.simplify.getD true⟩

/-- The mode that a run is in. -/
inductive Mode where
  /-- No mode has been chosen, which is a build as well. -/
  | unchosen
  | build
  | check
deriving DecidableEq, Repr

def Mode.ofWord? : String → Option Mode
  | "build" => some .build
  | "check" => some .check
  | _ => none

/-- The command at the end of the arguments.  A chosen mode needs its file. -/
def Mode.finish? (mode : Mode) (d : Draft) : Option Command :=
  match mode, d.input with
  | .unchosen, none => some .nothing
  | .check, some input => some (.check input)
  | _, some input => some (.build input d.options)
  | _, none => none

/-- Reads arguments that are all files. -/
def readFiles? (mode : Mode) : Draft → List String → Option Command
  | d, [] => mode.finish? d
  | d, text :: rest => (d.addFile? text).bind fun d => readFiles? mode d rest

/-- Reads the arguments left in a mode. -/
def read? : Mode → Draft → List String → Option Command
  | mode, d, [] => mode.finish? d
  | mode, d, argument :: rest =>
    match Argument.ofText argument with
    | .word text =>
      match mode, Mode.ofWord? text with
      | .unchosen, some chosen => read? chosen {} rest
      | _, _ =>
        if mode = .unchosen ∧ text = "help" then none
        else (d.addFile? text).bind fun d => read? mode d rest
    | .escape => readFiles? mode d rest
    | .version => if mode = .unchosen then some .version else none
    | .flag flag attached =>
      if mode = .check then none
      else match attached, rest with
        | some value, rest => (d.set? flag value).bind fun d => read? mode d rest
        | none, value :: rest =>
          (Argument.ofText value).word?.bind fun value =>
            (d.set? flag value).bind fun d => read? mode d rest
        | none, [] => none
    | .unknown => none

end CommandLine

/-- What the arguments of a run ask for; nothing if they have a mistake or ask for help. -/
def Command.parse (arguments : List String) : Option Command :=
  CommandLine.read? .unchosen {} arguments

end TypedImp
