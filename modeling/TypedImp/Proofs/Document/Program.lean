import TypedImp.Program.Dump
import TypedImp.Proofs.Document.Text
import TypedImp.Proofs.Parts

/-!
# Programs are known by their documents

Everything that a program holds stands in its document, with a name for each form: types and
tables (`Entities.eq_of_dump`), expressions and statements.  Only a number that is not finite is
lost, since it is written as `null`.  `Program.blurred` has one and the same number in place of
all these, and **two programs are written as one document exactly if they are the same when
blurred** (`Program.written_dump_eq_iff`).
-/

namespace TypedImp

/-! ### Documents of nodes -/

namespace Json

section

variable {form form' name name' : String} {j j' : Json} {items items' : List Json}
  {parts parts' : List (String × Json)}

@[simp] theorem string_inj : (string name).written = (string name').written ↔ name = name' := by
  rw [written, written, string.injEq]

@[simp] theorem bool_inj {b b' : Bool} : (bool b).written = (bool b').written ↔ b = b' := by
  rw [written, written, bool.injEq]

@[simp] theorem nat_inj {n n' : Nat} : (nat n).written = (nat n').written ↔ n = n' := by
  rw [written, written, nat.injEq]

@[simp] theorem array_inj : (array items).written = (array items').written ↔
    writtenItems items = writtenItems items' := by
  rw [written, written, array.injEq]

@[simp] theorem object_inj : (object parts).written = (object parts').written ↔
    writtenMembers parts = writtenMembers parts' := by
  rw [written, written, object.injEq]

@[simp] theorem members_inj : writtenMembers ((name, j) :: parts) =
    writtenMembers ((name', j') :: parts') ↔
      (name = name' ∧ j.written = j'.written) ∧ writtenMembers parts = writtenMembers parts' := by
  rw [writtenMembers, writtenMembers, List.cons.injEq, Prod.mk.injEq]

@[simp] theorem tagged_inj : (tagged form j).written = (tagged form' j').written ↔
    form = form' ∧ j.written = j'.written := by
  rw [tagged, tagged, object_inj, members_inj, eq_self, and_true]

@[simp] theorem node_inj : (node form parts).written = (node form' parts').written ↔
    form = form' ∧ writtenMembers parts = writtenMembers parts' := by
  rw [node, node, tagged_inj, object_inj]

end

section

variable {α β : Type} {dump : α → Json} {sense : α → β}

/-- **The document of a value says what it is**, as far as `sense` goes. -/
def Determines (dump : α → Json) (sense : α → β) (a : α) : Prop :=
  ∀ b, (dump a).written = (dump b).written → sense a = sense b

theorem Determines.map {as bs : List α} (h : ∀ a ∈ as, Determines dump sense a)
    (heq : writtenItems (as.map dump) = writtenItems (bs.map dump)) :
    as.map sense = bs.map sense := by
  induction as generalizing bs with
  | nil =>
    cases bs with
    | nil => rfl
    | cons b bs => cases heq
  | cons a as ih =>
    cases bs with
    | nil => cases heq
    | cons b bs =>
      obtain ⟨ha, has⟩ := List.cons.inj heq
      rw [List.map_cons, List.map_cons, h a List.mem_cons_self b ha,
        ih (fun a ha => h a (List.mem_cons_of_mem _ ha)) has]

theorem Determines.option {o o' : Option α} (h : ∀ a ∈ o, Determines dump sense a)
    (hnull : ∀ a, (dump a).written ≠ .null)
    (heq : (ofOption dump o).written = (ofOption dump o').written) :
    o.map sense = o'.map sense := by
  cases o with
  | none =>
    cases o' with
    | none => rfl
    | some b => exact absurd heq.symm (hnull b)
  | some a =>
    cases o' with
    | none => exact absurd heq (hnull a)
    | some b => exact congrArg some (h a rfl b heq)

/-- Lists of values that are known by their documents are known by theirs. -/
theorem eq_of_ofList {as bs : List α} (h : ∀ a b, (dump a).written = (dump b).written → a = b)
    (heq : (ofList dump as).written = (ofList dump bs).written) : as = bs := by
  have hmap : as.map id = bs.map id := Determines.map (fun a _ => h a) (array_inj.mp heq)
  rwa [List.map_id, List.map_id] at hmap

end

end Json

open Json

/-! ### Indices -/

theorem VariableId.eq_of_index {id id' : VariableId} (h : id.index = id'.index) : id = id' := by
  cases id
  cases id'
  exact congrArg VariableId.mk h

theorem FunctionId.eq_of_index {id id' : FunctionId} (h : id.index = id'.index) : id = id' := by
  cases id
  cases id'
  exact congrArg FunctionId.mk h

theorem StructId.eq_of_index {id id' : StructId} (h : id.index = id'.index) : id = id' := by
  cases id
  cases id'
  exact congrArg StructId.mk h

/-! ### Types and tables -/

mutual

theorem Ty.eq_of_dump (t u : Ty) (h : t.dump.written = u.dump.written) : t = u := by
  cases t with
  | number | string | bool | void | any =>
    cases u <;> first | rfl | simp [Ty.dump, tagged, node, written] at h
  | array element =>
    cases u with
    | array element' => rw [Ty.eq_of_dump element element' (tagged_inj.mp h).2]
    | _ => simp [Ty.dump, tagged, node, written] at h
  | struct id =>
    cases u with
    | struct id' => rw [StructId.eq_of_index (nat_inj.mp (tagged_inj.mp h).2)]
    | _ => simp [Ty.dump, tagged, node, written] at h
  | function params result =>
    cases u with
    | function params' result' =>
      simp only [Ty.dump, node_inj, members_inj, array_inj, true_and, and_true] at h
      rw [Ty.eq_of_dumpAll params params' h.1, Ty.eq_of_dump result result' h.2]
    | _ => simp [Ty.dump, tagged, node, written] at h
termination_by structural t

theorem Ty.eq_of_dumpAll (ts us : List Ty)
    (h : writtenItems (Ty.dumpAll ts) = writtenItems (Ty.dumpAll us)) : ts = us := by
  cases ts with
  | nil =>
    cases us with
    | nil => rfl
    | cons u us => cases h
  | cons t ts =>
    cases us with
    | nil => cases h
    | cons u us =>
      obtain ⟨ht, hts⟩ := List.cons.inj h
      rw [Ty.eq_of_dump t u ht, Ty.eq_of_dumpAll ts us hts]
termination_by structural ts

end

theorem Signature.eq_of_dump (s t : Signature) (h : s.dump.written = t.dump.written) : s = t := by
  obtain ⟨params, result⟩ := s
  obtain ⟨params', result'⟩ := t
  simp only [Signature.dump, object_inj, members_inj, array_inj, true_and, and_true] at h
  rw [Ty.eq_of_dumpAll _ _ h.1, Ty.eq_of_dump _ _ h.2]

theorem Variable.eq_of_dump (v w : Variable) (h : v.dump.written = w.dump.written) : v = w := by
  obtain ⟨name, readOnly, ty⟩ := v
  obtain ⟨name', readOnly', ty'⟩ := w
  simp only [Variable.dump, object_inj, members_inj, true_and, and_true] at h
  obtain ⟨hname, hreadOnly, hty⟩ := h
  rw [string_inj.mp hname, bool_inj.mp hreadOnly, Ty.eq_of_dump _ _ hty]

theorem Function.eq_of_dump (f g : Function) (h : f.dump.written = g.dump.written) : f = g := by
  obtain ⟨name, signature, builtin⟩ := f
  obtain ⟨name', signature', builtin'⟩ := g
  simp only [Function.dump, object_inj, members_inj, true_and, and_true] at h
  obtain ⟨hname, hsignature, hbuiltin⟩ := h
  rw [string_inj.mp hname, Signature.eq_of_dump _ _ hsignature, bool_inj.mp hbuiltin]

theorem Field.eq_of_dump (f g : Field) (h : f.dump.written = g.dump.written) : f = g := by
  obtain ⟨name, ty⟩ := f
  obtain ⟨name', ty'⟩ := g
  simp only [Field.dump, object_inj, members_inj, true_and, and_true] at h
  rw [string_inj.mp h.1, Ty.eq_of_dump _ _ h.2]

theorem Struct.eq_of_dump (s t : Struct) (h : s.dump.written = t.dump.written) : s = t := by
  obtain ⟨name, fields, isClass⟩ := s
  obtain ⟨name', fields', isClass'⟩ := t
  simp only [Struct.dump, object_inj, members_inj, true_and, and_true] at h
  obtain ⟨hname, hfields, hisClass⟩ := h
  rw [string_inj.mp hname, eq_of_ofList Field.eq_of_dump hfields, bool_inj.mp hisClass]

/-- **Tables are known by their document.** -/
theorem Entities.eq_of_dump (E E' : Entities) (h : E.dump.written = E'.dump.written) : E = E' := by
  obtain ⟨vars, funcs, structs⟩ := E
  obtain ⟨vars', funcs', structs'⟩ := E'
  simp only [Entities.dump, object_inj, members_inj, true_and, and_true] at h
  obtain ⟨hvars, hfuncs, hstructs⟩ := h
  rw [Array.toList_inj.mp (eq_of_ofList Variable.eq_of_dump hvars),
    Array.toList_inj.mp (eq_of_ofList Function.eq_of_dump hfuncs),
    Array.toList_inj.mp (eq_of_ofList Struct.eq_of_dump hstructs)]

/-! ### Operators -/

theorem BinaryOp.eq_of_dump {op op' : BinaryOp} (h : op.dump.written = op'.dump.written) :
    op = op' := by
  cases op <;> cases op' <;> first | rfl | simp [BinaryOp.dump, written] at h

theorem UnaryOp.eq_of_dump {op op' : UnaryOp} (h : op.dump.written = op'.dump.written) :
    op = op' := by
  cases op <;> cases op' <;> first | rfl | simp [UnaryOp.dump, written] at h

theorem RangeOp.eq_of_dump {op op' : RangeOp} (h : op.dump.written = op'.dump.written) :
    op = op' := by
  cases op <;> cases op' <;> first | rfl | simp [RangeOp.dump, written] at h

/-! ### Expressions -/

namespace Expr

/-- A number as far as a document tells it: those that are not finite are all one. -/
def blurredNumber (x : Float) : Float := if x.isFinite then x else 0 / 0

mutual

/-- **An expression as far as a document tells it**. -/
def blurred : Expr → Expr
  | number x ty => .number (blurredNumber x) ty
  | string s ty => .string s ty
  | bool b ty => .bool b ty
  | var id ty => .var id ty
  | func id ty => .func id ty
  | struct id ty => .struct id ty
  | binary op l r ty => .binary op l.blurred r.blurred ty
  | unary op e ty => .unary op e.blurred ty
  | array es ty => .array (blurredAll es) ty
  | call f args ty => .call f.blurred (blurredAll args) ty
  | member o field ty => .member o.blurred field ty
  | subscript a i ty => .subscript a.blurred i.blurred ty

def blurredAll : List Expr → List Expr
  | [] => []
  | e :: es => e.blurred :: blurredAll es

end

theorem blurredAll_eq_map (es : List Expr) : blurredAll es = es.map blurred := by
  induction es with
  | nil => rfl
  | cons e es ih => rw [blurredAll, ih, List.map_cons]

theorem dumpAll_eq_map (es : List Expr) : dumpAll es = es.map dump := by
  induction es with
  | nil => rfl
  | cons e es ih => rw [dumpAll, ih, List.map_cons]

@[simp] theorem typed_inj {kind kind' : Json} {ty ty' : Ty} :
    (typed kind ty).written = (typed kind' ty').written ↔
      kind.written = kind'.written ∧ ty = ty' := by
  rw [typed, typed, object_inj, members_inj, members_inj]
  constructor
  · rintro ⟨⟨-, hkind⟩, ⟨-, hty⟩, -⟩
    exact ⟨hkind, Ty.eq_of_dump ty ty' hty⟩
  · rintro ⟨hkind, rfl⟩
    exact ⟨⟨rfl, hkind⟩, ⟨rfl, rfl⟩, rfl⟩

theorem blurredNumber_of_written {x y : Float}
    (h : (Json.float x).written = (Json.float y).written) : blurredNumber x = blurredNumber y := by
  rw [written, written] at h
  rw [blurredNumber, blurredNumber]
  split at h <;> rename_i hx
  · split at h <;> rename_i hy
    · rw [if_pos hx, if_pos hy, Json.float.inj h]
    · cases h
  · split at h <;> rename_i hy
    · cases h
    · rw [if_neg hx, if_neg hy]

theorem blurredAll_of_dump {es es' : List Expr} (h : ∀ e ∈ es, Determines dump blurred e)
    (heq : writtenItems (dumpAll es) = writtenItems (dumpAll es')) :
    blurredAll es = blurredAll es' := by
  rw [dumpAll_eq_map, dumpAll_eq_map] at heq
  rw [blurredAll_eq_map, blurredAll_eq_map, Determines.map h heq]

/-- **An expression is known by its document**, up to numbers that are not finite. -/
theorem determines_dump (e : Expr) : Determines dump blurred e := by
  induction e with
  | number x ty =>
    intro e' h
    cases e' with
    | number y ty' =>
      simp only [dump, typed_inj, tagged_inj, true_and] at h
      rw [blurred, blurred, blurredNumber_of_written h.1, h.2]
    | _ => simp [dump, node] at h
  | string s ty =>
    intro e' h
    cases e' with
    | string s' ty' =>
      simp only [dump, typed_inj, tagged_inj, true_and] at h
      rw [string_inj.mp h.1, h.2]
    | _ => simp [dump, node] at h
  | bool b ty =>
    intro e' h
    cases e' with
    | bool b' ty' =>
      simp only [dump, typed_inj, tagged_inj, true_and] at h
      rw [bool_inj.mp h.1, h.2]
    | _ => simp [dump, node] at h
  | var id ty =>
    intro e' h
    cases e' with
    | var id' ty' =>
      simp only [dump, typed_inj, tagged_inj, true_and] at h
      rw [VariableId.eq_of_index (nat_inj.mp h.1), h.2]
    | _ => simp [dump, node] at h
  | func id ty =>
    intro e' h
    cases e' with
    | func id' ty' =>
      simp only [dump, typed_inj, tagged_inj, true_and] at h
      rw [FunctionId.eq_of_index (nat_inj.mp h.1), h.2]
    | _ => simp [dump, node] at h
  | struct id ty =>
    intro e' h
    cases e' with
    | struct id' ty' =>
      simp only [dump, typed_inj, tagged_inj, true_and] at h
      rw [StructId.eq_of_index (nat_inj.mp h.1), h.2]
    | _ => simp [dump, node] at h
  | binary op l r ty ihl ihr =>
    intro e' h
    cases e' with
    | binary op' l' r' ty' =>
      simp only [dump, typed_inj, node_inj, members_inj, true_and, and_true] at h
      obtain ⟨⟨hop, hl, hr⟩, hty⟩ := h
      rw [blurred, blurred, BinaryOp.eq_of_dump hop, ihl l' hl, ihr r' hr, hty]
    | _ => simp [dump, node] at h
  | unary op e ty ih =>
    intro e' h
    cases e' with
    | unary op' e' ty' =>
      simp only [dump, typed_inj, node_inj, members_inj, true_and, and_true] at h
      obtain ⟨⟨hop, he⟩, hty⟩ := h
      rw [blurred, blurred, UnaryOp.eq_of_dump hop, ih e' he, hty]
    | _ => simp [dump, node] at h
  | array es ty ih =>
    intro e' h
    cases e' with
    | array es' ty' =>
      simp only [dump, typed_inj, tagged_inj, array_inj, true_and] at h
      rw [blurred, blurred, blurredAll_of_dump ih h.1, h.2]
    | _ => simp [dump, node] at h
  | call f args ty ihf ihargs =>
    intro e' h
    cases e' with
    | call f' args' ty' =>
      simp only [dump, typed_inj, node_inj, members_inj, array_inj, true_and, and_true] at h
      obtain ⟨⟨hf, hargs⟩, hty⟩ := h
      rw [blurred, blurred, ihf f' hf, blurredAll_of_dump ihargs hargs, hty]
    | _ => simp [dump, node] at h
  | member o field ty ih =>
    intro e' h
    cases e' with
    | member o' field' ty' =>
      simp only [dump, typed_inj, node_inj, members_inj, true_and, and_true] at h
      obtain ⟨⟨ho, hfield⟩, hty⟩ := h
      rw [blurred, blurred, ih o' ho, string_inj.mp hfield, hty]
    | _ => simp [dump, node] at h
  | subscript a i ty iha ihi =>
    intro e' h
    cases e' with
    | subscript a' i' ty' =>
      simp only [dump, typed_inj, node_inj, members_inj, true_and, and_true] at h
      obtain ⟨⟨ha, hi⟩, hty⟩ := h
      rw [blurred, blurred, iha a' ha, ihi i' hi, hty]
    | _ => simp [dump, node] at h

theorem written_blurredNumber (x : Float) :
    (Json.float (blurredNumber x)).written = (Json.float x).written := by
  rw [blurredNumber]
  split
  · rfl
  · rename_i hx
    rw [written, written, if_neg hx]
    rfl

theorem writtenItems_blurredAll {es : List Expr}
    (h : ∀ e ∈ es, e.blurred.dump.written = e.dump.written) :
    writtenItems (dumpAll (blurredAll es)) = writtenItems (dumpAll es) := by
  rw [dumpAll_eq_map, dumpAll_eq_map, blurredAll_eq_map, writtenItems_eq_map, writtenItems_eq_map,
    List.map_map, List.map_map, List.map_map]
  exact List.map_congr_left h

/-- Nothing else is lost in a document. -/
theorem written_dump_blurred (e : Expr) : e.blurred.dump.written = e.dump.written := by
  induction e with
  | number x ty =>
    rw [blurred, dump, dump, typed_inj, tagged_inj]
    exact ⟨⟨rfl, written_blurredNumber x⟩, rfl⟩
  | string | bool | var | func | struct => rfl
  | binary op l r ty ihl ihr => simp [blurred, dump, ihl, ihr]
  | unary op e ty ih => simp [blurred, dump, ih]
  | array es ty ih => simp [blurred, dump, writtenItems_blurredAll ih]
  | call f args ty ihf ihargs => simp [blurred, dump, ihf, writtenItems_blurredAll ihargs]
  | member o field ty ih => simp [blurred, dump, ih]
  | subscript a i ty iha ihi => simp [blurred, dump, iha, ihi]

end Expr

/-! ### Statements -/

theorem VariableId.eq_of_dump (id id' : VariableId) (h : id.dump.written = id'.dump.written) :
    id = id' := eq_of_index (nat_inj.mp h)

namespace Stmt

/-- **A statement as far as a document tells it.** -/
def blurred : Stmt → Stmt := mapExprs Expr.blurred

theorem dumpAll_eq_map (ss : List Stmt) : dumpAll ss = ss.map dump := by
  induction ss with
  | nil => rfl
  | cons s ss ih => rw [dumpAll, ih, List.map_cons]

theorem blurredAll_of_dump {ss ss' : List Stmt} (h : ∀ s ∈ ss, Determines dump blurred s)
    (heq : writtenItems (dumpAll ss) = writtenItems (dumpAll ss')) :
    mapExprsAll Expr.blurred ss = mapExprsAll Expr.blurred ss' := by
  rw [dumpAll_eq_map, dumpAll_eq_map] at heq
  rw [mapExprsAll_eq_map, mapExprsAll_eq_map]
  exact Determines.map h heq

theorem option_blurred_of_dump {e e' : Option Expr}
    (h : (ofOption Expr.dump e).written = (ofOption Expr.dump e').written) :
    e.map Expr.blurred = e'.map Expr.blurred := by
  refine Determines.option (fun e _ => e.determines_dump) (fun e => ?_) h
  cases e <;> simp [Expr.dump, Expr.typed, written]

theorem option_of_dump {id id' : Option VariableId}
    (h : (ofOption VariableId.dump id).written = (ofOption VariableId.dump id').written) :
    id = id' := by
  have hmap : id.map (fun i => i) = id'.map (fun i => i) :=
    Determines.option (fun id _ => id.eq_of_dump) (fun id => by simp [VariableId.dump, written]) h
  rwa [Option.map_id', Option.map_id'] at hmap

/-- **A statement is known by its document**, up to numbers that are not finite. -/
theorem determines_dump (s : Stmt) : Determines dump blurred s := by
  induction s with
  | declareVariable id e =>
    intro s' h
    cases s' with
    | declareVariable id' e' =>
      simp only [dump, node_inj, members_inj, true_and, and_true] at h
      rw [blurred, mapExprs, mapExprs, id.eq_of_dump id' h.1, option_blurred_of_dump h.2]
    | _ => simp [dump, node, tagged, written] at h
  | declareFunction id params body ih =>
    intro s' h
    cases s' with
    | declareFunction id' params' body' =>
      simp only [dump, node_inj, members_inj, array_inj, nat_inj, true_and, and_true] at h
      obtain ⟨hid, hparams, hbody⟩ := h
      rw [blurred, mapExprs, mapExprs, FunctionId.eq_of_index hid,
        eq_of_ofList VariableId.eq_of_dump hparams, blurredAll_of_dump ih hbody]
    | _ => simp [dump, node, tagged, written] at h
  | declareStruct id =>
    intro s' h
    cases s' with
    | declareStruct id' => rw [StructId.eq_of_index (nat_inj.mp (tagged_inj.mp h).2)]
    | _ => simp [dump, node, tagged, written] at h
  | declareClass id =>
    intro s' h
    cases s' with
    | declareClass id' => rw [StructId.eq_of_index (nat_inj.mp (tagged_inj.mp h).2)]
    | _ => simp [dump, node, tagged, written] at h
  | ifThen test c ih =>
    intro s' h
    cases s' with
    | ifThen test' c' =>
      simp only [dump, node_inj, members_inj, array_inj, true_and, and_true] at h
      rw [blurred, mapExprs, mapExprs, test.determines_dump test' h.1, blurredAll_of_dump ih h.2]
    | _ => simp [dump, node, tagged, written] at h
  | ifElse test c a ihc iha =>
    intro s' h
    cases s' with
    | ifElse test' c' a' =>
      simp only [dump, node_inj, members_inj, array_inj, true_and, and_true] at h
      obtain ⟨htest, hc, ha⟩ := h
      rw [blurred, mapExprs, mapExprs, test.determines_dump test' htest,
        blurredAll_of_dump ihc hc, blurredAll_of_dump iha ha]
    | _ => simp [dump, node, tagged, written] at h
  | ifElseIf test c a ihc iha =>
    intro s' h
    cases s' with
    | ifElseIf test' c' a' =>
      simp only [dump, node_inj, members_inj, array_inj, true_and, and_true] at h
      obtain ⟨htest, hc, ha⟩ := h
      have halternate : a.mapExprs Expr.blurred = a'.mapExprs Expr.blurred := iha a' ha
      rw [blurred, mapExprs, mapExprs, test.determines_dump test' htest,
        blurredAll_of_dump ihc hc, halternate]
    | _ => simp [dump, node, tagged, written] at h
  | whileLoop test body ih =>
    intro s' h
    cases s' with
    | whileLoop test' body' =>
      simp only [dump, node_inj, members_inj, array_inj, true_and, and_true] at h
      rw [blurred, mapExprs, mapExprs, test.determines_dump test' h.1, blurredAll_of_dump ih h.2]
    | _ => simp [dump, node, tagged, written] at h
  | rangeLoop id low op high body ih =>
    intro s' h
    cases s' with
    | rangeLoop id' low' op' high' body' =>
      simp only [dump, node_inj, members_inj, array_inj, true_and, and_true] at h
      obtain ⟨hid, hlow, hop, hhigh, hbody⟩ := h
      rw [blurred, mapExprs, mapExprs, id.eq_of_dump id' hid, low.determines_dump low' hlow,
        RangeOp.eq_of_dump hop, high.determines_dump high' hhigh, blurredAll_of_dump ih hbody]
    | _ => simp [dump, node, tagged, written] at h
  | collectionLoop id e body ih =>
    intro s' h
    cases s' with
    | collectionLoop id' e' body' =>
      simp only [dump, node_inj, members_inj, array_inj, true_and, and_true] at h
      obtain ⟨hid, he, hbody⟩ := h
      rw [blurred, mapExprs, mapExprs, id.eq_of_dump id' hid, e.determines_dump e' he,
        blurredAll_of_dump ih hbody]
    | _ => simp [dump, node, tagged, written] at h
  | ret e =>
    intro s' h
    cases s' with
    | ret e' =>
      rw [blurred, mapExprs, mapExprs, option_blurred_of_dump (tagged_inj.mp h).2]
    | _ => simp [dump, node, tagged, written] at h
  | breakLoop | continueLoop =>
    intro s' h
    cases s' <;> first | rfl | simp [dump, node, tagged, written] at h
  | tryCatch body error handler ihb ihh =>
    intro s' h
    cases s' with
    | tryCatch body' error' handler' =>
      simp only [dump, node_inj, members_inj, array_inj, true_and, and_true] at h
      obtain ⟨hbody, herror, hhandler⟩ := h
      rw [blurred, mapExprs, mapExprs, blurredAll_of_dump ihb hbody, option_of_dump herror,
        blurredAll_of_dump ihh hhandler]
    | _ => simp [dump, node, tagged, written] at h
  | print e =>
    intro s' h
    cases s' with
    | print e' => rw [blurred, mapExprs, mapExprs, e.determines_dump e' (tagged_inj.mp h).2]
    | _ => simp [dump, node, tagged, written] at h
  | increment e =>
    intro s' h
    cases s' with
    | increment e' => rw [blurred, mapExprs, mapExprs, e.determines_dump e' (tagged_inj.mp h).2]
    | _ => simp [dump, node, tagged, written] at h
  | decrement e =>
    intro s' h
    cases s' with
    | decrement e' => rw [blurred, mapExprs, mapExprs, e.determines_dump e' (tagged_inj.mp h).2]
    | _ => simp [dump, node, tagged, written] at h
  | assign t e =>
    intro s' h
    cases s' with
    | assign t' e' =>
      simp only [dump, node_inj, members_inj, true_and, and_true] at h
      rw [blurred, mapExprs, mapExprs, t.determines_dump t' h.1, e.determines_dump e' h.2]
    | _ => simp [dump, node, tagged, written] at h
  | call e =>
    intro s' h
    cases s' with
    | call e' => rw [blurred, mapExprs, mapExprs, e.determines_dump e' (tagged_inj.mp h).2]
    | _ => simp [dump, node, tagged, written] at h

theorem writtenItems_mapExprsAll {ss : List Stmt}
    (h : ∀ s ∈ ss, (s.mapExprs Expr.blurred).dump.written = s.dump.written) :
    writtenItems (dumpAll (mapExprsAll Expr.blurred ss)) = writtenItems (dumpAll ss) := by
  rw [dumpAll_eq_map, dumpAll_eq_map, mapExprsAll_eq_map, writtenItems_eq_map,
    writtenItems_eq_map, List.map_map, List.map_map, List.map_map]
  exact List.map_congr_left h

theorem written_dump_blurred (s : Stmt) : s.blurred.dump.written = s.dump.written := by
  have option (e : Option Expr) : (ofOption Expr.dump (e.map Expr.blurred)).written =
      (ofOption Expr.dump e).written := by
    cases e with
    | none => rfl
    | some e => exact e.written_dump_blurred
  rw [blurred]
  induction s with
  | declareStruct | declareClass | breakLoop | continueLoop => rfl
  | declareVariable id e => simp [mapExprs, dump, option]
  | ret e => simp [mapExprs, dump, option]
  | declareFunction id params body ih | collectionLoop id e body ih
  | rangeLoop id low op high body ih | ifThen test body ih | whileLoop test body ih =>
    simp [mapExprs, dump, Expr.written_dump_blurred, writtenItems_mapExprsAll ih]
  | ifElse test c a ihc iha | tryCatch c error a ihc iha =>
    simp [mapExprs, dump, Expr.written_dump_blurred, writtenItems_mapExprsAll ihc,
      writtenItems_mapExprsAll iha]
  | ifElseIf test c a ihc iha =>
    simp [mapExprs, dump, Expr.written_dump_blurred, writtenItems_mapExprsAll ihc, iha]
  | print e | increment e | decrement e | assign t e | call e =>
    simp [mapExprs, dump, Expr.written_dump_blurred]

end Stmt

/-! ### Programs -/

namespace Program

variable {p q : Program}

/-- **A program as far as its document tells it**: with one and the same number in place of all
that are not finite. -/
def blurred (p : Program) : Program := ⟨p.statements.map Stmt.blurred, p.entities⟩

/-- **The document of a program says all of it** but which numbers are not finite. -/
theorem written_dump_eq_iff : p.dump.written = q.dump.written ↔ p.blurred = q.blurred := by
  rw [dump, dump, object_inj, members_inj, members_inj, array_inj, Stmt.dumpAll_eq_map,
    Stmt.dumpAll_eq_map]
  constructor
  · rintro ⟨⟨-, hstatements⟩, ⟨-, hentities⟩, -⟩
    rw [blurred, blurred, Entities.eq_of_dump _ _ hentities,
      Determines.map (fun s _ => s.determines_dump) hstatements]
  · intro h
    obtain ⟨hstatements, hentities⟩ := Program.mk.inj h
    have hwritten (p : Program) : writtenItems (p.statements.map Stmt.dump) =
        writtenItems ((p.statements.map Stmt.blurred).map Stmt.dump) := by
      rw [writtenItems_eq_map, writtenItems_eq_map, List.map_map, List.map_map, List.map_map]
      exact List.map_congr_left fun s _ => s.written_dump_blurred.symm
    exact ⟨⟨rfl, by rw [hwritten p, hstatements, ← hwritten q]⟩, ⟨rfl, by rw [hentities]⟩, rfl⟩

end Program

end TypedImp
