import TypedImp.Program.Agreement
import TypedImp.Proofs.Parts

/-!
# Programs that agree with themselves

A comparison of a node with itself comes down to comparisons of its parts with themselves
(`Expr.agrees_self`, `Stmt.agrees_self`), and at the bottom only a literal can fail, one that is not
a number.  **`Program.agrees_self_iff`**: a program agrees with itself just if all its number
literals are numbers.
-/

namespace TypedImp

namespace Expr

theorem agreeAll_self (es : List Expr) : agreeAll es es = es.all fun e => e.agrees e := by
  induction es with
  | nil => rfl
  | cons e es ih => rw [agreeAll, ih, List.all_cons]

theorem agrees_self (e : Expr) :
    e.agrees e = (e.number?.all (fun x => x == x) && e.parts.all fun part => part.agrees part) := by
  cases e <;> simp [agrees, number?, parts, agreeAll_self]

theorem optionsAgree_self (e : Option Expr) :
    optionsAgree e e = e.toList.all fun x => x.agrees x := by
  cases e <;> simp [optionsAgree]

/-- An expression agrees with itself if all literals within it do. -/
theorem agrees_self_iff (e : Expr) :
    e.agrees e = true ↔ ∀ e' ∈ e.nested, ∀ x ∈ e'.number?, (x == x) = true := by
  induction e using parts_induction with
  | step e ih =>
    rw [agrees_self, Bool.and_eq_true, Option.all_eq_true, List.all_eq_true, nested_eq_cons,
      List.forall_mem_cons, List.forall_mem_flatMap]
    exact and_congr_right fun _ => forall₂_congr ih

end Expr

namespace Stmt

theorem agreeAll_self (ss : List Stmt) : agreeAll ss ss = ss.all fun s => s.agrees s := by
  induction ss with
  | nil => rfl
  | cons s ss ih => rw [agreeAll, ih, List.all_cons]

theorem agrees_self (s : Stmt) :
    s.agrees s =
      (s.exprs.all (fun e => e.agrees e) && s.parts.all fun part => part.agrees part) := by
  cases s <;> simp [agrees, exprs, parts, agreeAll_self, Expr.optionsAgree_self, Bool.and_assoc]

theorem agrees_self_iff (s : Stmt) :
    s.agrees s = true ↔ ∀ s' ∈ s.nested, ∀ e ∈ s'.exprs, e.agrees e = true := by
  induction s using parts_induction with
  | step s ih =>
    rw [agrees_self, Bool.and_eq_true, List.all_eq_true, List.all_eq_true, nested_eq_cons,
      List.forall_mem_cons, List.forall_mem_flatMap]
    exact and_congr_right fun _ => forall₂_congr ih

end Stmt

/-- **A program agrees with itself just if all its number literals are numbers.** -/
theorem Program.agrees_self_iff (p : Program) :
    p.agrees p = true ↔ ∀ e ∈ p.exprs, ∀ x ∈ e.number?, (x == x) = true := by
  rw [agrees, BEq.rfl, Bool.and_true, Stmt.agreeAll_self, List.all_eq_true]
  simp only [exprs, stmts, Stmt.nestedAll_eq_flatMap, List.forall_mem_flatMap,
    Stmt.agrees_self_iff, Expr.agrees_self_iff]

end TypedImp
