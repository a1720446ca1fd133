import TypedImp.Builtin

/-!
# Scopes

A scope is a stack of frames.  Each frame binds names; a name means what the
innermost frame that binds it says, and within a frame what was bound last.  A
frame also says whether a loop is around, and which function's body this is; a
new frame takes both over from the one around it unless it is told otherwise.

`Scope.root` is where every program starts: the names of the four primitive types
and all that comes with the language.
-/

namespace TypedImp

/-- What a name stands for. -/
inductive Binding where
  | var (id : VariableId)
  | func (id : FunctionId)
  /-- A struct or class: the name of a type and of the function that makes its values. -/
  | struct (id : StructId)
  /-- A primitive type. -/
  | type (ty : Ty)
deriving DecidableEq, Repr

structure Frame where
  /-- The names bound here, the last one first. -/
  bindings : List (String × Binding)
  inLoop : Bool
  function : Option FunctionId
deriving DecidableEq, Repr

/-- What a new frame does not take over from the frame around it. -/
structure Overrides where
  inLoop : Option Bool := none
  function : Option (Option FunctionId) := none
deriving DecidableEq, Repr

structure Scope where
  current : Frame
  /-- The frames around the current one, the innermost first. -/
  outer : List Frame
deriving DecidableEq, Repr

def Frame.find? (frame : Frame) (name : String) : Option Binding := frame.bindings.lookup name

namespace Scope

/-- What a name stands for. -/
def find? (s : Scope) (name : String) : Option Binding :=
  (s.current :: s.outer).findSome? (·.find? name)

/-- Whether the current frame itself binds a name. -/
def declares (s : Scope) (name : String) : Bool := (s.current.find? name).isSome

/-- Binds a name in the current frame. -/
def bind (s : Scope) (name : String) (binding : Binding) : Scope :=
  { s with current := { s.current with bindings := (name, binding) :: s.current.bindings } }

/-- Whether a loop is around. -/
def inLoop (s : Scope) : Bool := s.current.inLoop

/-- The function whose body this is. -/
def function (s : Scope) : Option FunctionId := s.current.function

/-- A new frame within the current one. -/
def enter (s : Scope) (o : Overrides) : Scope :=
  ⟨⟨[], o.inLoop.getD s.inLoop, o.function.getD s.function⟩, s.current :: s.outer⟩

/-- The scope around the current frame, unless that is the outermost one. -/
def leave? (s : Scope) : Option Scope :=
  match s.outer with
  | [] => none
  | frame :: frames => some ⟨frame, frames⟩

/-- A block takes everything over. -/
def enterBlock (s : Scope) : Scope := s.enter {}

/-- A loop is around its body. -/
def enterLoop (s : Scope) : Scope := s.enter { inLoop := some true }

/-- The body of a function has no loop around it. -/
def enterFunction (s : Scope) (id : FunctionId) : Scope :=
  s.enter { inLoop := some false, function := some (some id) }

@[simp] theorem leave?_enter (s : Scope) (o : Overrides) : (s.enter o).leave? = some s := rfl

end Scope

/-- Gives a builtin its row and binds its names, the main one last. -/
def Builtin.install (b : Builtin) (start : Entities × Scope) : Entities × Scope :=
  let (e, s) := start
  let (e, binding) : Entities × Binding := match b.meaning with
    | .constant ty => (e.addVariable ⟨b.name, true, ty⟩, .var e.nextVariable)
    | .function signature => (e.addFunction ⟨b.name, signature, true⟩, .func e.nextFunction)
  (e, (b.aliases ++ [b.name]).foldl (fun s name => s.bind name binding) s)

/-- The names of the primitive types. -/
def Ty.primitives : List (String × Ty) :=
  [("number", .number), ("string", .string), ("boolean", .bool), ("void", .void)]

/-- The outermost frame without the builtins. -/
def Scope.primitive : Scope :=
  Ty.primitives.foldl (fun s (name, ty) => s.bind name (.type ty)) ⟨⟨[], false, none⟩, []⟩

/-- The tables and the scope at the start of every program. -/
def Builtin.installAll : Entities × Scope :=
  Builtin.all.foldl (fun start b => b.install start) ({}, .primitive)

/-- The tables at the start of every program. -/
def Entities.initial : Entities := Builtin.installAll.1

/-- The scope at the start of every program. -/
def Scope.root : Scope := Builtin.installAll.2

end TypedImp
