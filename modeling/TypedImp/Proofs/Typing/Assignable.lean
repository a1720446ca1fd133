import TypedImp.Proofs.Typing.Concrete

/-!
# Assignable types

The types of two values are compared by a recursion of their own, along arrays and functions and
down to the identity of structs.  That it finds exactly the equal types is `equivalent_iff`; here it
is said what this makes of assignments.  A value can be stored where its own type is wanted, or any
type at all, and nothing in between: a type that fits another one does not fit it as the element of
an array, or as a parameter or the result of a function (**`assignableTo_invariant`**).

Parameters are compared one by one.  To look only at those that stand opposite each other would not
see that one of two functions has more of them, so that there are equally many is part of it
(`equivalent_function`).
-/

namespace TypedImp.Ty

/-- Two lists of types are the same if they are equally long, with the same types opposite each
other. -/
theorem equivalentAll_eq_zip (as bs : List Ty) :
    equivalentAll as bs =
      (as.length == bs.length && (as.zip bs).all fun p => p.1.equivalent p.2) := by
  induction as generalizing bs with
  | nil => cases bs <;> rfl
  | cons a as ih =>
    cases bs with
    | nil => rfl
    | cons b bs =>
      have hlength : ((a :: as).length == (b :: bs).length) = (as.length == bs.length) := by simp
      rw [equivalentAll, ih, hlength, List.zip_cons_cons, List.all_cons]
      exact Bool.and_left_comm _ _ _

/-- Functions are compared parameter by parameter, as many as they have. -/
theorem equivalent_function (params others : List Ty) (a b : Ty) :
    (function params a).equivalent (function others b) =
      (params.length == others.length && (params.zip others).all (fun p => p.1.equivalent p.2) &&
        a.equivalent b) := by
  rw [equivalent, equivalentAll_eq_zip]

/-- A value can be stored where any type or its own is wanted. -/
theorem assignableTo_eq_true_iff {source target : Ty} :
    source.assignableTo target = true ↔ target = any ∨ source = target := by
  rw [assignableTo, Bool.or_eq_true, isAny_iff, equivalent_iff]

/-- Where something other than any type is wanted, only that type will do. -/
theorem assignableTo_iff_of_ne_any {source target : Ty} (h : target ≠ any) :
    source.assignableTo target = true ↔ source = target := by
  rw [assignableTo_eq_true_iff]
  exact ⟨fun hor => hor.resolve_left h, .inr⟩

theorem assignableTo_refl (a : Ty) : a.assignableTo a = true :=
  assignableTo_eq_true_iff.mpr (.inr rfl)

theorem assignableTo_trans {a b c : Ty} (hab : a.assignableTo b = true)
    (hbc : b.assignableTo c = true) : a.assignableTo c = true := by
  rw [assignableTo_eq_true_iff] at hbc
  obtain hc | rfl := hbc
  · exact assignableTo_eq_true_iff.mpr (.inl hc)
  · exact hab

/-- **Equivalence is equality, and assigning knows nothing beyond it but `any`.**  Two types are
equivalent exactly if they are equal, whatever they are made of; functions are compared by the
number of their parameters, by the parameters opposite each other and by their results.  So each
type is assignable to itself, what is assignable to a type is assignable to all that the type is
assignable to, and the types that one is assignable to are `any` and itself.  An array is assignable
to another one only if their elements have the same type, and a function to another one only if
their parameters and their results do, also where one of these types is assignable to the
other. -/
theorem assignableTo_invariant :
    (∀ a b : Ty, a.equivalent b = true ↔ a = b) ∧
    (∀ (params others : List Ty) (a b : Ty),
      (function params a).equivalent (function others b) =
        (params.length == others.length && (params.zip others).all (fun p => p.1.equivalent p.2) &&
          a.equivalent b)) ∧
    (∀ a : Ty, a.assignableTo a = true) ∧
    (∀ a b c : Ty, a.assignableTo b = true → b.assignableTo c = true → a.assignableTo c = true) ∧
    (∀ a b : Ty, a.assignableTo b = true ↔ b = any ∨ a = b) ∧
    (∀ a b : Ty, (array a).assignableTo (array b) = true ↔ a = b) ∧
    ∀ (params others : List Ty) (a b : Ty),
      (function params a).assignableTo (function others b) = true ↔ params = others ∧ a = b := by
  refine ⟨fun _ _ => equivalent_iff, equivalent_function, assignableTo_refl,
    fun _ _ _ => assignableTo_trans, fun _ _ => assignableTo_eq_true_iff, fun a b => ?_,
    fun params others a b => ?_⟩
  · have hne : array b ≠ any := by simp
    rw [assignableTo_iff_of_ne_any hne, array.injEq]
  · have hne : function others b ≠ any := by simp
    rw [assignableTo_iff_of_ne_any hne, function.injEq]

/-- A function that takes anything is not one that takes a number, nor the other way round. -/
example : (function [any] number).assignableTo (function [number] number) = false ∧
    (function [number] number).assignableTo (function [any] number) = false ∧
    (function [number, string] bool).assignableTo (function [number] bool) = false := by
  decide

end TypedImp.Ty
