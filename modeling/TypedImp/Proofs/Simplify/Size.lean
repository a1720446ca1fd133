import Mathlib.Algebra.GroupWithZero.Nat
import TypedImp.Proofs.Simplify.Value

/-!
# What the count of the rules says

The size of an expression is the number of expressions within it, and that of a statement is the
number of statements and of expressions within it, where `ifElseIf` counts for two: it is a
conditional and the `else` that another one stands behind.

**`simplify_count`**: the count of the rules that were applied is `0` exactly if nothing was
changed, and it is at most what the result is smaller by.  So every node that is rebuilt without a
rule is rebuilt as it was (`Counted.Keeps`), and every rule makes the node smaller that it is
applied to (`Counted.Within`), which is where the weight of `ifElseIf` is needed: the list that
takes the place of its conditional may be as large as that was, and then only the braces around
it are new.
-/

namespace TypedImp

/-! ### Sizes -/

namespace Expr

def size (e : Expr) : Nat := e.nested.length

def sizeAll (es : List Expr) : Nat := (es.map size).sum

@[simp] theorem sizeAll_nil : sizeAll [] = 0 := rfl

@[simp] theorem sizeAll_cons (e : Expr) (es : List Expr) :
    sizeAll (e :: es) = e.size + sizeAll es := List.sum_cons

theorem size_eq (e : Expr) : e.size = 1 + sizeAll e.parts := by
  rw [size, nested_eq_cons, List.length_cons, List.length_flatMap, Nat.add_comm]
  rfl

theorem size_pos (e : Expr) : 0 < e.size := by
  rw [size_eq]
  exact Nat.lt_add_right _ Nat.one_pos

@[simp] theorem size_ofNumber (x : Float) : (ofNumber x).size = 1 := rfl

@[simp] theorem size_ofBool (b : Bool) : (ofBool b).size = 1 := rfl

@[simp] theorem size_binary (op : BinaryOp) (l r : Expr) (ty : Ty) :
    (binary op l r ty).size = 1 + (l.size + r.size) := size_eq _

@[simp] theorem size_unary (op : UnaryOp) (e : Expr) (ty : Ty) :
    (unary op e ty).size = 1 + e.size := size_eq _

@[simp] theorem size_array (es : List Expr) (ty : Ty) :
    (array es ty).size = 1 + sizeAll es := size_eq _

@[simp] theorem size_call (f : Expr) (args : List Expr) (ty : Ty) :
    (call f args ty).size = 1 + (f.size + sizeAll args) := by
  rw [size_eq, parts, sizeAll_cons]

@[simp] theorem size_member (o : Expr) (field : String) (ty : Ty) :
    (member o field ty).size = 1 + o.size := size_eq _

@[simp] theorem size_subscript (a i : Expr) (ty : Ty) :
    (subscript a i ty).size = 1 + (a.size + i.size) := size_eq _

end Expr

namespace Stmt

/-- What a statement counts for apart from its parts. -/
def weight : Stmt → Nat
  | ifElseIf .. => 2
  | _ => 1

def size (s : Stmt) : Nat := (s.nested.map fun s' => s'.weight + Expr.sizeAll s'.exprs).sum

def sizeAll (ss : List Stmt) : Nat := (ss.map size).sum

@[simp] theorem sizeAll_nil : sizeAll [] = 0 := rfl

@[simp] theorem sizeAll_cons (s : Stmt) (ss : List Stmt) :
    sizeAll (s :: ss) = s.size + sizeAll ss := List.sum_cons

@[simp] theorem sizeAll_append (ss ss' : List Stmt) :
    sizeAll (ss ++ ss') = sizeAll ss + sizeAll ss' := by
  rw [sizeAll, List.map_append, List.sum_append]
  rfl

theorem size_eq (s : Stmt) : s.size = s.weight + Expr.sizeAll s.exprs + sizeAll s.parts := by
  have hparts : ∀ ss : List Stmt,
      ((ss.flatMap nested).map fun s' => s'.weight + Expr.sizeAll s'.exprs).sum = sizeAll ss := by
    intro ss
    induction ss with
    | nil => rfl
    | cons s ss ih =>
      rw [List.flatMap_cons, List.map_append, List.sum_append, ih]
      rfl
  rw [size, nested_eq_cons, List.map_cons, List.sum_cons, hparts]

@[simp] theorem size_declareVariable (id : VariableId) (e : Option Expr) :
    (declareVariable id e).size = 1 + Expr.sizeAll e.toList := by
  simp [size_eq (declareVariable id e), weight, exprs, parts]

@[simp] theorem size_declareFunction (id : FunctionId) (params : List VariableId)
    (body : List Stmt) : (declareFunction id params body).size = 1 + sizeAll body := by
  simp [size_eq (declareFunction id params body), weight, exprs, parts]

@[simp] theorem size_ifThen (test : Expr) (c : List Stmt) :
    (ifThen test c).size = 1 + (test.size + sizeAll c) := by
  simp [size_eq (ifThen test c), weight, exprs, parts, Nat.add_assoc]

@[simp] theorem size_ifElse (test : Expr) (c a : List Stmt) :
    (ifElse test c a).size = 1 + (test.size + (sizeAll c + sizeAll a)) := by
  simp [size_eq (ifElse test c a), weight, exprs, parts, Nat.add_assoc]

@[simp] theorem size_ifElseIf (test : Expr) (c : List Stmt) (a : Stmt) :
    (ifElseIf test c a).size = 2 + (test.size + (sizeAll c + a.size)) := by
  simp [size_eq (ifElseIf test c a), weight, exprs, parts, Nat.add_assoc]

@[simp] theorem size_whileLoop (test : Expr) (body : List Stmt) :
    (whileLoop test body).size = 1 + (test.size + sizeAll body) := by
  simp [size_eq (whileLoop test body), weight, exprs, parts, Nat.add_assoc]

@[simp] theorem size_rangeLoop (id : VariableId) (low : Expr) (op : RangeOp) (high : Expr)
    (body : List Stmt) :
    (rangeLoop id low op high body).size = 1 + (low.size + (high.size + sizeAll body)) := by
  simp [size_eq (rangeLoop id low op high body), weight, exprs, parts, Nat.add_assoc]

@[simp] theorem size_collectionLoop (id : VariableId) (e : Expr) (body : List Stmt) :
    (collectionLoop id e body).size = 1 + (e.size + sizeAll body) := by
  simp [size_eq (collectionLoop id e body), weight, exprs, parts, Nat.add_assoc]

@[simp] theorem size_ret (e : Option Expr) : (ret e).size = 1 + Expr.sizeAll e.toList := by
  simp [size_eq (ret e), weight, exprs, parts]

@[simp] theorem size_tryCatch (body : List Stmt) (error : Option VariableId)
    (handler : List Stmt) :
    (tryCatch body error handler).size = 1 + (sizeAll body + sizeAll handler) := by
  simp [size_eq (tryCatch body error handler), weight, exprs, parts]

@[simp] theorem size_print (e : Expr) : (print e).size = 1 + e.size := by
  simp [size_eq (print e), weight, exprs, parts]

@[simp] theorem size_increment (e : Expr) : (increment e).size = 1 + e.size := by
  simp [size_eq (increment e), weight, exprs, parts]

@[simp] theorem size_decrement (e : Expr) : (decrement e).size = 1 + e.size := by
  simp [size_eq (decrement e), weight, exprs, parts]

@[simp] theorem size_assign (t e : Expr) : (assign t e).size = 1 + (t.size + e.size) := by
  simp [size_eq (assign t e), weight, exprs, parts]

@[simp] theorem size_call (e : Expr) : (call e).size = 1 + e.size := by
  simp [size_eq (call e), weight, exprs, parts]

theorem weight_pos (s : Stmt) : 0 < s.weight := by
  cases s <;> exact Nat.succ_pos _

theorem size_pos (s : Stmt) : 0 < s.size := by
  have := s.weight_pos
  rw [size_eq]
  omega

end Stmt

/-! ### Nothing counted, nothing changed -/

namespace Counted

variable {α β : Type} {a : α} {b : β} {c : Counted α} {f : α → Counted β}

/-- Unless a rule was applied, the result is the given one. -/
def Keeps (a : α) (c : Counted α) : Prop := c.count = 0 → c.value = a

theorem keeps_pure (a : α) : Keeps a (pure a) := fun _ => rfl

theorem keeps_once (a a' : α) : Keeps a (once a') := by
  intro h
  cases h

/-- What is kept is handed on. -/
theorem Keeps.bind (hc : c.Keeps a) (hf : (f a).Keeps b) : (c >>= f).Keeps b := by
  intro h
  rw [count_bind, Nat.add_eq_zero_iff] at h
  rw [value_bind]
  rw [hc h.1] at h ⊢
  exact hf h.2

theorem keeps_orElse (outcome : Option α) (node : α) : Keeps node (.orElse outcome node) := by
  cases outcome with
  | none => exact keeps_pure node
  | some a => exact keeps_once node a

end Counted

open Counted

namespace Expr

theorem keeps_simplifyAll {es : List Expr} (h : ∀ e ∈ es, e.simplify.Keeps e) :
    (simplifyAll es).Keeps es := by
  induction es with
  | nil => exact keeps_pure []
  | cons e es ih =>
    have hfirst := h e List.mem_cons_self
    have hothers := ih fun x hx => h x (List.mem_cons_of_mem e hx)
    exact hfirst.bind (hothers.bind (keeps_pure _))

/-- **An expression to which no rule was applied is rebuilt as it was.** -/
theorem keeps_simplify (e : Expr) : e.simplify.Keeps e := by
  induction e with
  | number | string | bool | var | func | struct => exact keeps_pure _
  | binary op l r ty hl hr => exact hl.bind (hr.bind (keeps_orElse _ _))
  | unary op e ty ih => exact ih.bind (keeps_orElse _ _)
  | array es ty ih => exact (keeps_simplifyAll ih).bind (keeps_pure _)
  | call f args ty hf hargs => exact hf.bind ((keeps_simplifyAll hargs).bind (keeps_pure _))
  | member o field ty ih => exact ih.bind (keeps_pure _)
  | subscript a i ty ha hi => exact ha.bind (hi.bind (keeps_pure _))

theorem keeps_simplifyOption (e : Option Expr) : (simplifyOption e).Keeps e := by
  cases e with
  | none => exact keeps_pure none
  | some e => exact e.keeps_simplify.bind (keeps_pure _)

end Expr

namespace Stmt

variable {test : Expr} {c a ss : List Stmt} {k : Counted (List Stmt)}

/-- A side is only chosen by a rule. -/
theorem keeps_choose (hk : k.Keeps ss) : (choose test c a k).Keeps ss := by
  unfold choose
  split
  · exact keeps_once ss c
  · exact keeps_once ss a
  · exact hk

/-- What stands behind `else` stays there if it is still a single conditional. -/
theorem keeps_joinElse (test : Expr) (c : List Stmt) (s : Stmt) :
    (joinElse test c [s]).Keeps [.ifElseIf test c s] := by
  rw [joinElse]
  split
  · exact keeps_pure _
  · exact keeps_once _ _

theorem keeps_dropIf (idle : Bool) (s : Stmt) : (dropIf idle s).Keeps [s] := by
  cases idle with
  | true => exact keeps_once _ _
  | false => exact keeps_pure _

theorem keeps_simplifyAll {ss : List Stmt} (h : ∀ s ∈ ss, s.simplify.Keeps [s]) :
    (simplifyAll ss).Keeps ss := by
  induction ss with
  | nil => exact keeps_pure []
  | cons s ss ih =>
    have hfirst := h s List.mem_cons_self
    have hothers := ih fun x hx => h x (List.mem_cons_of_mem s hx)
    exact hfirst.bind (hothers.bind (keeps_pure _))

/-- **A statement to which no rule was applied is rebuilt as it was.** -/
theorem keeps_simplify (s : Stmt) : s.simplify.Keeps [s] := by
  induction s with
  | declareStruct | declareClass | breakLoop | continueLoop => exact keeps_pure _
  | declareVariable id e => exact (Expr.keeps_simplifyOption e).bind (keeps_pure _)
  | ret e => exact (Expr.keeps_simplifyOption e).bind (keeps_pure _)
  | declareFunction id params body ih => exact (keeps_simplifyAll ih).bind (keeps_pure _)
  | ifThen test c ih =>
    exact test.keeps_simplify.bind ((keeps_simplifyAll ih).bind (keeps_choose (keeps_pure _)))
  | ifElse test c a ihc iha =>
    exact test.keeps_simplify.bind ((keeps_simplifyAll ihc).bind
      ((keeps_simplifyAll iha).bind (keeps_choose (keeps_pure _))))
  | ifElseIf test c a ihc iha =>
    exact test.keeps_simplify.bind ((keeps_simplifyAll ihc).bind
      (iha.bind (keeps_choose (keeps_joinElse test c a))))
  | whileLoop test body ih =>
    exact test.keeps_simplify.bind ((keeps_simplifyAll ih).bind (keeps_dropIf _ _))
  | rangeLoop id low op high body ih =>
    exact low.keeps_simplify.bind (high.keeps_simplify.bind
      ((keeps_simplifyAll ih).bind (keeps_dropIf _ _)))
  | collectionLoop id e body ih =>
    exact e.keeps_simplify.bind ((keeps_simplifyAll ih).bind (keeps_dropIf _ _))
  | tryCatch body error handler ihb ihh =>
    exact (keeps_simplifyAll ihb).bind ((keeps_simplifyAll ihh).bind (keeps_pure _))
  | print e | increment e | decrement e | call e => exact e.keeps_simplify.bind (keeps_pure _)
  | assign t e => exact t.keeps_simplify.bind (e.keeps_simplify.bind (keeps_dropIf _ _))

end Stmt

/-! ### Every rule makes the tree smaller -/

namespace Counted

variable {α : Type} {size : α → Nat} {bound : Nat} {a : α}

/-- The result is smaller than the bound, by one at least for every rule that was applied. -/
def Within (size : α → Nat) (bound : Nat) (c : Counted α) : Prop :=
  c.count + size c.value ≤ bound

theorem within_pure (h : size a ≤ bound) : Within size bound (pure a) := by
  rw [Within, count_pure, Nat.zero_add]
  exact h

theorem within_once (h : size a < bound) : Within size bound (once a) := by
  rw [Within, count_once, Nat.add_comm]
  exact h

end Counted

namespace BinaryOp

variable {op : BinaryOp} {l r e : Expr}

/-- A rule on a binary node leaves less than the node.  The negated operand of `0 - x` stands in
the place of three nodes or more. -/
theorem size_of_simplify? (h : op.simplify? l r = some e) : e.size < 1 + (l.size + r.size) := by
  have hl := l.size_pos
  have hr := r.size_pos
  rcases simplify?_cases h with rfl | rfl | rfl | ⟨x, rfl⟩ | ⟨b, rfl⟩
  · omega
  · omega
  · rw [Expr.size_unary]
    omega
  · rw [Expr.size_ofNumber]
    omega
  · rw [Expr.size_ofBool]
    omega

end BinaryOp

theorem UnaryOp.size_of_fold? {op : UnaryOp} {e x : Expr} (h : op.fold? e = some x) :
    x.size < 1 + e.size := by
  have he := e.size_pos
  rcases fold?_cases h with ⟨y, rfl⟩ | ⟨b, rfl⟩
  · rw [Expr.size_ofNumber]
    omega
  · rw [Expr.size_ofBool]
    omega

namespace Expr

theorem within_orElse {outcome : Option Expr} {node : Expr}
    (h : ∀ e, outcome = some e → e.size < node.size) :
    (Counted.orElse outcome node).Within size node.size := by
  cases outcome with
  | none => exact within_pure (Nat.le_refl _)
  | some e => exact within_once (h e rfl)

theorem within_simplifyAll {es : List Expr} (h : ∀ e ∈ es, e.simplify.Within size e.size) :
    (simplifyAll es).Within sizeAll (sizeAll es) := by
  induction es with
  | nil => exact within_pure (Nat.le_refl _)
  | cons e es ih =>
    have hfirst := h e List.mem_cons_self
    have hothers := ih fun x hx => h x (List.mem_cons_of_mem e hx)
    simp only [Within, simplifyAll, count_bind, count_pure, value_bind, value_pure,
      sizeAll_cons] at *
    omega

/-- **Every rule that was applied has made the expression smaller.**  What the parts have lost is
lost to the node as well, whatever a rule makes of it. -/
theorem within_simplify (e : Expr) : e.simplify.Within size e.size := by
  induction e with
  | number | string | bool | var | func | struct => exact within_pure (Nat.le_refl _)
  | binary op l r ty hl hr =>
    have hnode : (Counted.orElse (op.simplify? l.simplify.value r.simplify.value)
        (binary op l.simplify.value r.simplify.value ty)).Within size _ :=
      within_orElse fun e h => by
        rw [size_binary]
        exact BinaryOp.size_of_simplify? h
    simp only [Within, simplify, count_bind, value_bind, size_binary] at *
    omega
  | unary op e ty ih =>
    have hnode : (Counted.orElse (op.fold? e.simplify.value)
        (unary op e.simplify.value ty)).Within size _ :=
      within_orElse fun e h => by
        rw [size_unary]
        exact UnaryOp.size_of_fold? h
    simp only [Within, simplify, count_bind, value_bind, size_unary] at *
    omega
  | array es ty ih =>
    have hes := within_simplifyAll ih
    simp only [Within, simplify, count_bind, count_pure, value_bind, value_pure, size_array] at *
    omega
  | call f args ty hf hargs =>
    have hargs := within_simplifyAll hargs
    simp only [Within, simplify, count_bind, count_pure, value_bind, value_pure, size_call] at *
    omega
  | member o field ty ih =>
    simp only [Within, simplify, count_bind, count_pure, value_bind, value_pure, size_member] at *
    omega
  | subscript a i ty ha hi =>
    simp only [Within, simplify, count_bind, count_pure, value_bind, value_pure,
      size_subscript] at *
    omega

theorem within_simplifyOption (e : Option Expr) :
    (simplifyOption e).Within (fun e => sizeAll e.toList) (sizeAll e.toList) := by
  cases e with
  | none => exact within_pure (Nat.le_refl _)
  | some e =>
    have h := e.within_simplify
    simp only [Within, simplifyOption, count_bind, count_pure, value_bind, value_pure,
      Option.toList_some, sizeAll_cons, sizeAll_nil] at *
    omega

end Expr

namespace Stmt

variable {c a : List Stmt} {k : Counted (List Stmt)} {bound : Nat}

/-- The sides of a conditional are smaller than the conditional. -/
theorem within_choose (test : Expr) (hk : k.Within sizeAll bound) (hc : sizeAll c < bound)
    (ha : sizeAll a < bound) : (choose test c a k).Within sizeAll bound := by
  unfold choose
  split
  · exact within_once hc
  · exact within_once ha
  · exact hk

theorem within_single (s : Stmt) : Within sizeAll s.size (pure [s]) :=
  within_pure (Nat.le_of_eq (by rw [sizeAll_cons, sizeAll_nil, Nat.add_zero]))

theorem within_dropIf (idle : Bool) (s : Stmt) : (dropIf idle s).Within sizeAll s.size := by
  cases idle with
  | true => exact within_once s.size_pos
  | false => exact within_single s

/-- Where a rule picks the form, the weight of `ifElseIf` is gone. -/
theorem within_joinElse (test : Expr) (c a : List Stmt) :
    (joinElse test c a).Within sizeAll (2 + (test.size + (sizeAll c + sizeAll a))) := by
  have hmany : ∀ a, sizeAll [ifElse test c a] < 2 + (test.size + (sizeAll c + sizeAll a)) := by
    intro a
    rw [sizeAll_cons, size_ifElse, sizeAll_nil]
    omega
  match a with
  | [] =>
    refine within_once ?_
    rw [sizeAll_cons, size_ifThen, sizeAll_nil]
    omega
  | [s] =>
    rw [joinElse]
    split
    · refine within_pure (Nat.le_of_eq ?_)
      rw [sizeAll_cons, size_ifElseIf, sizeAll_cons, sizeAll_nil, Nat.add_zero, Nat.add_zero]
    · exact within_once (hmany _)
  | s :: s' :: ss => exact within_once (hmany _)

theorem within_simplifyAll {ss : List Stmt} (h : ∀ s ∈ ss, s.simplify.Within sizeAll s.size) :
    (simplifyAll ss).Within sizeAll (sizeAll ss) := by
  induction ss with
  | nil => exact within_pure (Nat.le_refl _)
  | cons s ss ih =>
    have hfirst := h s List.mem_cons_self
    have hothers := ih fun x hx => h x (List.mem_cons_of_mem s hx)
    simp only [Within, simplifyAll, count_bind, count_pure, value_bind, value_pure,
      sizeAll_cons, sizeAll_append] at *
    omega

/-- **Every rule that was applied has made the statement smaller.** -/
theorem within_simplify (s : Stmt) : s.simplify.Within sizeAll s.size := by
  induction s with
  | declareStruct | declareClass | breakLoop | continueLoop => exact within_single _
  | declareVariable id e =>
    have he := Expr.within_simplifyOption e
    simp only [Within, simplify, count_bind, count_pure, value_bind, value_pure, sizeAll_cons,
      sizeAll_nil, size_declareVariable] at *
    omega
  | ret e =>
    have he := Expr.within_simplifyOption e
    simp only [Within, simplify, count_bind, count_pure, value_bind, value_pure, sizeAll_cons,
      sizeAll_nil, size_ret] at *
    omega
  | declareFunction id params body ih =>
    have hbody := within_simplifyAll ih
    simp only [Within, simplify, count_bind, count_pure, value_bind, value_pure, sizeAll_cons,
      sizeAll_nil, size_declareFunction] at *
    omega
  | ifThen test c ih =>
    have ht := test.within_simplify
    have hc := within_simplifyAll ih
    have hnode := within_choose test.simplify.value
      (within_single (.ifThen test.simplify.value (simplifyAll c).value))
      (c := (simplifyAll c).value) (by rw [size_ifThen]; omega) (a := []) (size_pos _)
    simp only [Within, simplify, count_bind, value_bind, size_ifThen] at *
    omega
  | ifElse test c a ihc iha =>
    have ht := test.within_simplify
    have hc := within_simplifyAll ihc
    have ha := within_simplifyAll iha
    have hnode := within_choose test.simplify.value
      (within_single (.ifElse test.simplify.value (simplifyAll c).value (simplifyAll a).value))
      (c := (simplifyAll c).value) (by rw [size_ifElse]; omega)
      (a := (simplifyAll a).value) (by rw [size_ifElse]; omega)
    simp only [Within, simplify, count_bind, value_bind, size_ifElse] at *
    omega
  | ifElseIf test c a ihc iha =>
    have ht := test.within_simplify
    have hc := within_simplifyAll ihc
    have hnode := within_choose test.simplify.value
      (within_joinElse test.simplify.value (simplifyAll c).value a.simplify.value)
      (c := (simplifyAll c).value) (by omega) (a := a.simplify.value) (by omega)
    simp only [Within, simplify, count_bind, value_bind, size_ifElseIf] at *
    omega
  | whileLoop test body ih =>
    have ht := test.within_simplify
    have hbody := within_simplifyAll ih
    have hnode := within_dropIf (test.simplify.value.bool? == some false)
      (.whileLoop test.simplify.value (simplifyAll body).value)
    simp only [Within, simplify, count_bind, value_bind, size_whileLoop] at *
    omega
  | rangeLoop id low op high body ih =>
    have hl := low.within_simplify
    have hh := high.within_simplify
    have hbody := within_simplifyAll ih
    have hnode := within_dropIf (isEmptyRange low.simplify.value high.simplify.value)
      (.rangeLoop id low.simplify.value op high.simplify.value (simplifyAll body).value)
    simp only [Within, simplify, count_bind, value_bind, size_rangeLoop] at *
    omega
  | collectionLoop id e body ih =>
    have he := e.within_simplify
    have hbody := within_simplifyAll ih
    have hnode := within_dropIf e.simplify.value.isEmptyArray
      (.collectionLoop id e.simplify.value (simplifyAll body).value)
    simp only [Within, simplify, count_bind, value_bind, size_collectionLoop] at *
    omega
  | tryCatch body error handler ihb ihh =>
    have hb := within_simplifyAll ihb
    have hh := within_simplifyAll ihh
    simp only [Within, simplify, count_bind, count_pure, value_bind, value_pure, sizeAll_cons,
      sizeAll_nil, size_tryCatch] at *
    omega
  | print e | increment e | decrement e | call e =>
    have he := e.within_simplify
    simp only [Within, simplify, count_bind, count_pure, value_bind, value_pure, sizeAll_cons,
      sizeAll_nil, size_print, size_increment, size_decrement, size_call] at *
    omega
  | assign t e =>
    have ht := t.within_simplify
    have he := e.within_simplify
    have hnode := within_dropIf (isSelfAssignment t.simplify.value e.simplify.value)
      (.assign t.simplify.value e.simplify.value)
    simp only [Within, simplify, count_bind, value_bind, size_assign] at *
    omega

end Stmt

/-- A count that is nothing only where nothing has changed, and that the result has become smaller
by at least, is nothing exactly there. -/
theorem Counted.Keeps.count_eq_zero_iff {α : Type} {size : α → Nat} {a : α} {c : Counted α}
    (hkeeps : c.Keeps a) (hwithin : c.Within size (size a)) : c.count = 0 ↔ c.value = a := by
  refine ⟨hkeeps, fun h => ?_⟩
  rw [Within, h] at hwithin
  omega

/-- **The count of the rules is faithful.**  For an expression, a statement and a list of
statements, whatever they are made of: the count is `0` exactly if the result is what was there
before, and count and size of the result together are at most the size of what was there before.
So no rule makes a program larger. -/
theorem simplify_count :
    (∀ e : Expr, (e.simplify.count = 0 ↔ e.simplify.value = e) ∧
      e.simplify.count + e.simplify.value.size ≤ e.size) ∧
    (∀ s : Stmt, (s.simplify.count = 0 ↔ s.simplify.value = [s]) ∧
      s.simplify.count + Stmt.sizeAll s.simplify.value ≤ s.size) ∧
    ∀ ss : List Stmt, ((Stmt.simplifyAll ss).count = 0 ↔ (Stmt.simplifyAll ss).value = ss) ∧
      (Stmt.simplifyAll ss).count + Stmt.sizeAll (Stmt.simplifyAll ss).value ≤
        Stmt.sizeAll ss := by
  refine ⟨fun e => ?_, fun s => ?_, fun ss => ?_⟩
  · exact ⟨e.keeps_simplify.count_eq_zero_iff e.within_simplify, e.within_simplify⟩
  · have hwithin : s.simplify.Within Stmt.sizeAll (Stmt.sizeAll [s]) := by
      rw [Stmt.sizeAll_cons, Stmt.sizeAll_nil, Nat.add_zero]
      exact s.within_simplify
    exact ⟨s.keeps_simplify.count_eq_zero_iff hwithin, s.within_simplify⟩
  · have hkeeps := Stmt.keeps_simplifyAll fun s (_ : s ∈ ss) => s.keeps_simplify
    have hwithin := Stmt.within_simplifyAll fun s (_ : s ∈ ss) => s.within_simplify
    exact ⟨hkeeps.count_eq_zero_iff hwithin, hwithin⟩

/-- Only the weight of `ifElseIf` pays for the rule that puts braces behind `else`. -/
example :
    let s : Stmt := .ifElseIf (.var ⟨0⟩ .bool) [] .breakLoop
    s.simplify = ⟨[.ifElse (.var ⟨0⟩ .bool) [] [.breakLoop]], 1⟩ ∧
      s.size = 4 ∧ Stmt.sizeAll s.simplify.value = 3 :=
  ⟨rfl, rfl, rfl⟩

end TypedImp
