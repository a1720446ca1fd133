import TypedImp.Proofs.Parts
import TypedImp.Proofs.Simplify.Value

/-!
# The types within a simplified expression

A rule yields an operand, or an operand with a sign in front of it, or the literal of a number or
a truth value.  So what the types of numbers and truth values and all types within an expression
have in common, the types within its simplified form have as well (`AllTypes.simplify`).
-/

namespace TypedImp.Expr

def AllTypes (P : Ty → Prop) (e : Expr) : Prop := ∀ e' ∈ e.nested, P e'.ty

variable {P : Ty → Prop}

theorem allTypes_iff {e : Expr} :
    e.AllTypes P ↔ P e.ty ∧ ∀ part ∈ e.parts, part.AllTypes P := by
  constructor
  · intro h
    exact ⟨h e e.mem_nested_self, fun part hp x hx => h x (mem_nested_of_part hp hx)⟩
  · rintro ⟨hself, hparts⟩ x hx
    rcases mem_nested_iff.mp hx with rfl | ⟨part, hp, hx⟩
    · exact hself
    · exact hparts part hp x hx

theorem AllTypes.ty {e : Expr} (h : e.AllTypes P) : P e.ty := h e e.mem_nested_self

theorem allTypes_of_leaf {e : Expr} (hparts : e.parts = []) (hty : P e.ty) : e.AllTypes P :=
  allTypes_iff.mpr ⟨hty, hparts ▸ List.forall_mem_nil _⟩

theorem allTypes_ofNumber (number : P .number) (x : Float) : (ofNumber x).AllTypes P :=
  allTypes_of_leaf rfl number

theorem allTypes_ofBool (bool : P .bool) (b : Bool) : (ofBool b).AllTypes P :=
  allTypes_of_leaf rfl bool

/-- A rule yields nothing with another type than those of the operands and of literals. -/
theorem AllTypes.simplify? (number : P .number) (bool : P .bool) {op : BinaryOp} {l r e : Expr}
    (hl : l.AllTypes P) (hr : r.AllTypes P) (h : op.simplify? l r = some e) : e.AllTypes P := by
  rcases BinaryOp.simplify?_cases h with rfl | rfl | rfl | ⟨x, rfl⟩ | ⟨b, rfl⟩
  · exact hl
  · exact hr
  · exact allTypes_iff.mpr ⟨number, List.forall_mem_singleton.mpr hr⟩
  · exact allTypes_ofNumber number x
  · exact allTypes_ofBool bool b

/-- **Simplifying brings in no types but those of numbers and truth values.** -/
theorem AllTypes.simplify (number : P .number) (bool : P .bool) {e : Expr} (h : e.AllTypes P) :
    e.simplify.value.AllTypes P := by
  have all {es : List Expr} (h : ∀ e ∈ es, e.simplify.value.AllTypes P) :
      ∀ part ∈ es.map (·.simplify.value), part.AllTypes P := by
    intro part hp
    obtain ⟨e, he, rfl⟩ := List.mem_map.mp hp
    exact h e he
  induction e with
  | number | string | bool | var | func | struct => exact h
  | binary op l r ty ihl ihr =>
    obtain ⟨hty, hparts⟩ := allTypes_iff.mp h
    have hl := ihl (hparts l (by simp [parts]))
    have hr := ihr (hparts r (by simp [parts]))
    rw [value_simplify_binary]
    cases hs : op.simplify? l.simplify.value r.simplify.value with
    | none => exact allTypes_iff.mpr ⟨hty, by simpa [parts] using ⟨hl, hr⟩⟩
    | some e => exact hl.simplify? number bool hr hs
  | unary op x ty ih =>
    obtain ⟨hty, hparts⟩ := allTypes_iff.mp h
    have hx := ih (hparts x (by simp [parts]))
    rw [value_simplify_unary]
    cases hs : op.fold? x.simplify.value with
    | none => exact allTypes_iff.mpr ⟨hty, by simpa [parts] using hx⟩
    | some e =>
      rcases UnaryOp.fold?_cases hs with ⟨y, rfl⟩ | ⟨b, rfl⟩
      · exact allTypes_ofNumber number y
      · exact allTypes_ofBool bool b
  | array es ty ih =>
    obtain ⟨hty, hparts⟩ := allTypes_iff.mp h
    rw [value_simplify_array]
    exact allTypes_iff.mpr ⟨hty, all fun e he => ih e he (hparts e he)⟩
  | call f args ty ihf ihargs =>
    obtain ⟨hty, hparts⟩ := allTypes_iff.mp h
    have hargs := all fun e he => ihargs e he (hparts e (List.mem_cons_of_mem f he))
    rw [value_simplify_call]
    exact allTypes_iff.mpr
      ⟨hty, List.forall_mem_cons.mpr ⟨ihf (hparts f List.mem_cons_self), hargs⟩⟩
  | member o field ty ih =>
    obtain ⟨hty, hparts⟩ := allTypes_iff.mp h
    have ho := ih (hparts o (by simp [parts]))
    exact allTypes_iff.mpr ⟨hty, by simpa [parts] using ho⟩
  | subscript a i ty iha ihi =>
    obtain ⟨hty, hparts⟩ := allTypes_iff.mp h
    have ha := iha (hparts a (by simp [parts]))
    have hi := ihi (hparts i (by simp [parts]))
    exact allTypes_iff.mpr ⟨hty, by simpa [parts] using ⟨ha, hi⟩⟩

end TypedImp.Expr
