import TypedImp.Proofs.Listing.Spelled
import TypedImp.Proofs.Simplify.Normal
import TypedImp.Proofs.Simplify.Origin
import TypedImp.Proofs.Simplify.Types

/-!
# Programs that can be shown

Typing says of a program that all ids have a row, and that only what takes a suffix has one.
`Program.Regular` adds what else a listing needs: all structs in the types of a program have a
row, and no sign stands in front of a number that has a sign itself.

A program that passes checking is regular (`Program.regular_of_analyze`), since no number of
a source has a sign.  So is its simplified form (**`Program.Regular.simplify`**), which may well
have numbers below zero: a sign in front of a literal is folded into it.
**`Program.Regular.printable`**: a regular program can be shown.
-/

namespace TypedImp

open Listing Token

/-! ### Names -/

namespace Entities

variable {E : Entities}

theorem Named.isName_structAt (h : E.Named) {id : StructId} (hid : id.index < E.structs.size) :
    IsName (E.structAt id).name := by
  rw [structAt, Array.getElem?_eq_getElem hid]
  exact (h.structs (Array.getElem?_eq_getElem hid)).1

theorem Named.readableType (h : E.Named) (ty : Ty) (hty : ty.Known E) : E.ReadableType ty :=
  readableType_of_known (fun _ hid => h.isName_structAt hid) ty hty

theorem Named.readable_variable (h : E.Named) {id : VariableId} {ty : Ty}
    (hv : E.HasVariable id ty) : E.ReadableVariable id := by
  obtain ⟨row, hr, -⟩ := hv
  have hrow : E.variableAt id = row := by rw [variableAt, hr, Option.getD_some]
  rw [ReadableVariable, ofVariable, hrow]
  exact ⟨(h.vars hr).1.indexed _, h.readableType _ (h.vars hr).2⟩

theorem Named.readable_function (h : E.Named) {id : FunctionId} {signature : Signature}
    (hf : E.HasFunction id signature) : IsName (ofFunction E id) ∧ id.index < E.funcs.size ∧
      E.ReadableType (E.functionAt id).signature.result := by
  obtain ⟨row, hr, -⟩ := hf
  have hrow : E.functionAt id = row := by rw [functionAt, hr, Option.getD_some]
  rw [ofFunction, hrow]
  refine ⟨?_, (Array.getElem?_eq_some_iff.mp hr).1, h.readableType _ (h.funcs hr).2.2⟩
  split
  · exact (h.funcs hr).1
  · exact (h.funcs hr).1.indexed _

theorem Named.readable_struct (h : E.Named) {id : StructId} {fields : List Field}
    (hs : E.HasStruct id fields) : E.ReadableStruct id := by
  obtain ⟨row, hr, -⟩ := hs
  have hrow : E.structAt id = row := by rw [structAt, hr, Option.getD_some]
  obtain ⟨hname, hfields⟩ := h.structs hr
  rw [ReadableStruct, ofStruct, hrow]
  refine ⟨hname.indexed _, fun field hf => ?_⟩
  exact ⟨(hfields field hf).1, h.readableType _ (hfields field hf).2⟩

end Entities

/-! ### Expressions -/

namespace Expr

variable {E : Entities}

/-- **What a listing needs of an expression beyond its typing**, apart from those within it. -/
structure Regular (E : Entities) (e : Expr) : Prop where
  known : e.ty.Known E
  unsigned : ∀ x ty, e = .unary .neg x ty → x.isSigned = false

/-- What has the type of a function, a struct or an array takes a suffix. -/
theorem Typed.takesSuffix {e : Expr} (h : e.Typed E) (hnumber : e.ty ≠ .number)
    (hbool : e.ty ≠ .bool) : e.takesSuffix = true := by
  cases h with
  | number => exact absurd rfl hnumber
  | neg => exact absurd rfl hnumber
  | not => exact absurd rfl hbool
  | _ => rfl

/-- **A typed expression can be shown** if it is regular. -/
theorem Typed.printable (hE : E.Named) {e : Expr} (ht : e.Typed E) (hr : e.Regular E) :
    e.Printable E := by
  cases ht with
  | number | string | bool | binary => trivial
  | neg => exact hr.unsigned _ _ rfl
  | not hx hty =>
    cases hx with
    | number => cases hty
    | _ => rfl
  | var hv => exact (hE.readable_variable hv).1
  | func hf =>
    obtain ⟨hname, hsize, -⟩ := hE.readable_function hf
    exact ⟨hname, hsize⟩
  | struct hd => exact (hE.readable_struct hd).1
  | @array es ty =>
    cases es with
    | nil => exact ⟨ty, rfl, hE.readableType ty hr.known⟩
    | cons => trivial
  | @call f args signature hf _ hty =>
    have hfunction : f.ty = .function signature.params signature.result := hty
    refine ⟨hf.takesSuffix (by simp [hfunction]) (by simp [hfunction]), ?_⟩
    cases hf with
    | array => cases hfunction
    | _ => rfl
  | @member o id name field ho hty hfield =>
    refine ⟨ho.takesSuffix (by simp [hty]) (by simp [hty]), ?_⟩
    obtain ⟨row, hrow, hfields⟩ := Entities.hasStruct_of_field? hfield
    have hmem : field ∈ row.fields := hfields ▸ List.mem_of_find?_eq_some hfield
    have hname : field.name = name := by simpa using List.find?_some hfield
    rw [← hname]
    exact ((hE.structs hrow).2 field hmem).1
  | subscript ha _ hty => exact ha.takesSuffix (by simp [hty]) (by simp [hty])

theorem AllSpelled.of_nested {e : Expr} (h : e.AllSpelled E) : ∀ e' ∈ e.nested, e'.AllSpelled E :=
  forall_nested (fun _ h _ hp x hx => h x (mem_nested_of_part hp hx)) h

/-- No number of a source has a sign. -/
theorem AllSpelled.isSigned {e : Expr} (h : e.AllSpelled E) : e.isSigned = false := by
  cases e with
  | number x ty =>
    exact Decimal.isSigned_eq_false_iff.mpr ((h _ (mem_nested_self _)).number x ty rfl)
  | _ => rfl

theorem AllSpelled.regular {e : Expr} (h : e.AllSpelled E) : ∀ e' ∈ e.nested, e'.Regular E := by
  intro e' he'
  have hspelled := h.of_nested e' he'
  refine ⟨hspelled.known, ?_⟩
  rintro x ty rfl
  have hx : x ∈ (unary .neg x ty).nested :=
    mem_nested_of_part (List.mem_singleton_self x) x.mem_nested_self
  exact (hspelled.of_nested x hx).isSigned

/-! ### Simplified expressions -/

def AllKnown (E : Entities) (e : Expr) : Prop := ∀ e' ∈ e.nested, e'.ty.Known E

theorem AllKnown.simplify {e : Expr} (h : e.AllKnown E) : e.simplify.value.AllKnown E :=
  AllTypes.simplify (P := (·.Known E)) trivial trivial h

/-- **A simplified expression is regular**: a sign in front of a number has been folded into
it. -/
theorem AllKnown.regular_simplify {e : Expr} (h : e.AllKnown E) :
    ∀ e' ∈ e.simplify.value.nested, e'.Regular E := by
  intro e' he'
  refine ⟨h.simplify e' he', ?_⟩
  rintro x ty rfl
  have hredex := e.normal_simplify _ he'
  cases x with
  | number y ty' => cases hredex
  | _ => rfl

end Expr

/-! ### Statements -/

namespace Stmt

variable {E : Entities}

theorem Typed.readable (hE : E.Named) {fn : Option FunctionId} {s : Stmt}
    (ht : s.Typed E fn) (hs : s.Spelled E) : s.Readable E := by
  cases ht with
  | declareVariable hv => exact hE.readable_variable hv
  | @declareFunction _ id params body signature hf hparams =>
    have hread : List.Forall₂ (fun p ty => E.ReadableVariable p ∧ E.HasVariable p ty) params
        signature.params := hparams.imp fun p ty hv => ⟨hE.readable_variable hv, hv⟩
    obtain ⟨hname, hsize, hresult⟩ := hE.readable_function hf
    exact ⟨hname, hsize, ((List.forall₂_and_left params _).mp hread).1, hresult⟩
  | declareStruct hd | declareClass hd => exact ⟨hE.readable_struct hd, hs.2⟩
  | ifElseIf | call => exact hs
  | rangeLoop _ _ _ _ hv | collectionLoop _ _ hv => exact (hE.readable_variable hv).1
  | tryCatch _ he => exact fun id hid => (hE.readable_variable (he id hid)).1
  | _ => trivial

/-- A rebuilt node has the form of the old one. -/
theorem Spelled.of_becomes {s s' : Stmt} (hs : s.Spelled E) (h : s.Becomes s') : s'.Spelled E := by
  cases h with
  | declareStruct | declareClass => exact hs
  | ifElseIfOne _ ha => exact ha
  | call => exact Expr.isCall_simplify hs
  | _ => trivial

end Stmt

/-! ### Programs -/

/-- **What a listing needs of a program**: names, typing, and what typing leaves open. -/
structure Program.Regular (p : Program) : Prop where
  named : p.entities.Named
  typed : p.WellTyped
  nodes : ∀ s ∈ p.stmts, s.Spelled p.entities ∧
    ∀ e ∈ s.exprs, ∀ e' ∈ e.nested, e'.Regular p.entities

namespace Program

variable {p : Program}

/-- **A regular program can be shown.** -/
theorem Regular.printable (h : p.Regular) : p.Printable := by
  intro s hs s' hs'
  have hmem : s' ∈ p.stmts := Stmt.mem_nestedAll.mpr ⟨s, hs, hs'⟩
  obtain ⟨hform, hexprs⟩ := h.nodes s' hmem
  obtain ⟨fn, hstmt⟩ := h.typed.stmt hmem
  refine ⟨hstmt.readable h.named hform, fun e he e' he' => ?_⟩
  have hmem' : e' ∈ p.exprs := mem_exprs_iff.mpr ⟨s', hmem, e, he, he'⟩
  exact (h.typed.expr hmem').printable h.named (hexprs e he e' he')

/-- **The simplified form of a regular program is regular.** -/
theorem Regular.simplify (h : p.Regular) : p.simplify.value.Regular := by
  refine ⟨h.named, h.typed.simplify, fun s' hs' => ?_⟩
  obtain ⟨s, hs, hb⟩ := p.exists_becomes hs'
  obtain ⟨hform, hexprs⟩ := h.nodes s hs
  refine ⟨hform.of_becomes hb, fun e' he' => ?_⟩
  obtain ⟨e, he, rfl⟩ := hb.of_expr he'
  have hknown : e.AllKnown p.entities := fun x hx => (hexprs e he x hx).known
  exact hknown.regular_simplify

/-- What checking leaves of the tree of a source, with the names in its tables. -/
theorem spelled_of_analyze {tree : List Tree.Stmt} (htree : ∀ s ∈ tree, s.Built Kind.IsLexed)
    (hp : analyze tree = .ok p) :
    p.entities.Named ∧ ∀ s ∈ p.statements, s.AllSpelled p.entities := by
  obtain ⟨last, hcheck, hlast⟩ := analyze_eq_ok hp
  obtain ⟨hbehind, hspelled⟩ := Checking.checkStmts_spelled Checking.Env.named_root tree
    (Tree.Stmt.builtAll_iff.mpr htree) hcheck
  rw [hlast]
  exact ⟨hbehind.named.tables, hspelled⟩

/-- **A program that passes checking is regular.** -/
theorem regular_of_analyze {tree : List Tree.Stmt} (htree : ∀ s ∈ tree, s.Built Kind.IsLexed)
    (hp : analyze tree = .ok p) : p.Regular := by
  obtain ⟨hnamed, hspelled⟩ := spelled_of_analyze htree hp
  refine ⟨hnamed, wellTyped_of_analyze hp, fun s' hs' => ?_⟩
  obtain ⟨s, hs, hs'⟩ := Stmt.mem_nestedAll.mp hs'
  obtain ⟨hform, hexprs⟩ := hspelled s hs s' hs'
  exact ⟨hform, fun e he => (hexprs e he).regular⟩

end Program

end TypedImp
