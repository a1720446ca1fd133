/-!
# Types

The types of values.  A struct or class type is known by its identity, an index
into the table of structs, so a type is a finite tree even where a struct can
reach itself; all other types are known by their structure.

`Ty.equivalent` compares two types, and `equivalent_iff` says that it is
equality.  A value can be stored where its own type is wanted, or any type at
all; the latter, `Ty.any`, is the type of some parameters of the standard
functions and is never the type of a value.
-/

namespace TypedImp

/-- The identity of a struct or class. -/
structure StructId where
  index : Nat
deriving DecidableEq, Repr, Inhabited

inductive Ty where
  | number
  | string
  | bool
  | void
  | any
  | array (element : Ty)
  | struct (id : StructId)
  | function (params : List Ty) (result : Ty)
deriving Repr, Inhabited

/-- The parameters and the result of a function. -/
structure Signature where
  params : List Ty
  result : Ty
deriving Repr, Inhabited

namespace Ty

def isNumber : Ty → Bool
  | number => true
  | _ => false

def isBool : Ty → Bool
  | bool => true
  | _ => false

def isVoid : Ty → Bool
  | void => true
  | _ => false

def isAny : Ty → Bool
  | any => true
  | _ => false

/-- Numbers and strings can be added and have an order. -/
def isNumberOrString : Ty → Bool
  | number | string => true
  | _ => false

/-- The type of the elements of an array. -/
def element? : Ty → Option Ty
  | array element => some element
  | _ => none

/-- The signature of a function. -/
def signature? : Ty → Option Signature
  | function params result => some ⟨params, result⟩
  | _ => none

mutual

/-- Whether two types are the same. -/
def equivalent : Ty → Ty → Bool
  | number, number | string, string | bool, bool | void, void | any, any => true
  | array a, array b => equivalent a b
  | struct i, struct j => i == j
  | function params a, function others b => equivalentAll params others && equivalent a b
  | _, _ => false

/-- Whether two lists of types are the same. -/
def equivalentAll : List Ty → List Ty → Bool
  | [], [] => true
  | a :: as, b :: bs => equivalent a b && equivalentAll as bs
  | _, _ => false

end

mutual

theorem equivalent_refl : ∀ a : Ty, equivalent a a = true
  | number | string | bool | void | any => by simp [equivalent]
  | array a => by simp [equivalent, equivalent_refl a]
  | struct i => by simp [equivalent]
  | function params a => by simp [equivalent, equivalentAll_refl params, equivalent_refl a]

theorem equivalentAll_refl : ∀ as : List Ty, equivalentAll as as = true
  | [] => by simp [equivalentAll]
  | a :: as => by simp [equivalentAll, equivalent_refl a, equivalentAll_refl as]

end

mutual

theorem eq_of_equivalent : ∀ a b : Ty, equivalent a b = true → a = b
  | number, b => by cases b <;> simp [equivalent]
  | string, b => by cases b <;> simp [equivalent]
  | bool, b => by cases b <;> simp [equivalent]
  | void, b => by cases b <;> simp [equivalent]
  | any, b => by cases b <;> simp [equivalent]
  | array a, b => by
    cases b with
    | array b => simpa [equivalent] using eq_of_equivalent a b
    | _ => simp [equivalent]
  | struct i, b => by cases b <;> simp [equivalent]
  | function params a, b => by
    cases b with
    | function others b =>
      simp only [equivalent, Bool.and_eq_true, function.injEq]
      exact fun h => ⟨eq_of_equivalentAll params others h.1, eq_of_equivalent a b h.2⟩
    | _ => simp [equivalent]

theorem eq_of_equivalentAll : ∀ as bs : List Ty, equivalentAll as bs = true → as = bs
  | [], bs => by cases bs <;> simp [equivalentAll]
  | a :: as, bs => by
    cases bs with
    | nil => simp [equivalentAll]
    | cons b bs =>
      simp only [equivalentAll, Bool.and_eq_true, List.cons.injEq]
      exact fun h => ⟨eq_of_equivalent a b h.1, eq_of_equivalentAll as bs h.2⟩

end

/-- **Two types are equivalent exactly when they are equal.** -/
theorem equivalent_iff {a b : Ty} : equivalent a b = true ↔ a = b :=
  ⟨eq_of_equivalent a b, fun h => h ▸ equivalent_refl a⟩

instance : DecidableEq Ty := fun _ _ => decidable_of_iff _ equivalent_iff

/-- Whether a value of type `source` can be stored where `target` is wanted. -/
def assignableTo (source target : Ty) : Bool := target.isAny || equivalent source target

end Ty

deriving instance DecidableEq for Signature

/-- The type of a function value with this signature. -/
def Signature.ty (s : Signature) : Ty := .function s.params s.result

end TypedImp
