import TypedImp.Entities

/-!
# What comes with the language

The constants and functions that every program can use without declaring them,
in the order of their rows.
-/

namespace TypedImp

namespace Builtin

/-- What a name that comes with the language stands for. -/
inductive Meaning where
  | constant (ty : Ty)
  | function (signature : Signature)
deriving DecidableEq, Repr

end Builtin

structure Builtin where
  name : String
  /-- Other names for the same thing. -/
  aliases : List String
  meaning : Builtin.Meaning
deriving DecidableEq, Repr

namespace Builtin

private def ofNumber (name : String) : Builtin := ⟨name, [], .function ⟨[.number], .number⟩⟩

/-- All that comes with the language. -/
def all : List Builtin :=
  [⟨"π", ["pi"], .constant .number⟩,
    ofNumber "sqrt", ofNumber "sin", ofNumber "cos", ofNumber "exp", ofNumber "ln",
    ⟨"hypot", [], .function ⟨[.number, .number], .number⟩⟩,
    ⟨"length", [], .function ⟨[.any], .number⟩⟩,
    ⟨"toString", [], .function ⟨[.any], .string⟩⟩]

end Builtin

end TypedImp
