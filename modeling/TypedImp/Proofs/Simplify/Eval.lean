import TypedImp.Proofs.Meaning.Typed
import TypedImp.Proofs.Simplify.Typing

/-!
# Simplifying keeps the meaning of expressions

Where no identity applies, an expression and its simplified form do the same.  An
identity is excluded because it may well change what happens: with `x * 0` all that
happens in `x` is lost, and `x * 0` is not `0` for every `x`.

A folded node is literally the same behavior as its literal.  `e || false` and
`e && true` are `e` only because the value of `e` is a truth value, so this needs types;
`Alike` carries them.  `Expr.Typed.eval_simplify` is about the value of an expression and
`Expr.Typed.place_simplify` about the place that it stands for.
-/

namespace TypedImp

open Behavior

variable {E : Entities} {m : Machine}

/-! ### Literals -/

theorem Expr.eval_of_number? {e : Expr} {x : Float} (h : e.number? = some x) :
    e.eval m = pure (.number x) := by
  cases e with
  | number => cases h; rfl
  | _ => simp [number?] at h

theorem Expr.eval_of_bool? {e : Expr} {b : Bool} (h : e.bool? = some b) :
    e.eval m = pure (.bool b) := by
  cases e with
  | bool => cases h; rfl
  | _ => simp [bool?] at h

/-! ### Rules -/

/-- What comes after a behavior can be left out if it changes none of its values. -/
theorem Alike.bind_eq_self {α : Type} {P : α → Prop} {f : Behavior α} {k : α → Behavior α}
    (hf : Alike E P f f) (hk : ∀ a, P a → k a = Pure.pure a) : Alike E P (f >>= k) f := by
  have h : Alike E P (f >>= k) (f >>= Pure.pure) := hf.bind fun a ha => by
    rw [hk a ha]
    exact .pure ha
  rwa [bind_pure] at h

namespace BinaryOp

variable {op : BinaryOp} {l r e : Expr} {ty t : Ty}

/-- The literal that two numbers come to is that of what the operator makes of them. -/
theorem eval_of_onNumbers? {x y : Float} (h : op.onNumbers? x y = some e) :
    op.decide? (.number x) = none ∧
      e.eval m = ofOption (m.outcome? op (.number x) (.number y)) := by
  cases op with
  | or | and => cases h
  | _ => cases h; exact ⟨rfl, rfl⟩

theorem eval_of_fold? (h : op.fold? l r = some e) : (Expr.binary op l r t).eval m = e.eval m := by
  obtain ⟨x, y, hx, hy, h⟩ := exists_onNumbers?_of_fold? h
  obtain ⟨hd, he⟩ := eval_of_onNumbers? (m := m) h
  rw [Expr.eval, Expr.eval_of_number? hx, Expr.eval_of_number? hy, pure_bind, hd, pure_bind, he]

/-- The literal without influence on a truth value. -/
theorem eval_of_absorb? (hl : Alike E (·.HasTy E l.ty) (l.eval m) (l.eval m))
    (hr : Alike E (·.HasTy E r.ty) (r.eval m) (r.eval m)) (hj : op.Joins l.ty r.ty ty)
    (h : op.absorb? l r = some e) :
    Alike E (·.HasTy E ty) ((Expr.binary op l r t).eval m) (e.eval m) := by
  cases op with
  | or | and =>
    obtain ⟨hlt, hrt, rfl⟩ := hj
    rw [hlt] at hl
    rw [hrt] at hr
    simp only [absorb?] at h
    split at h
    · rename_i hb
      cases h
      rw [Expr.eval, Expr.eval_of_bool? hb, pure_bind]
      refine hr.bind_eq_self fun w hw => ?_
      obtain ⟨b, rfl⟩ := hw.exists_bool
      cases b <;> rfl
    · split at h
      · rename_i hb
        cases h
        rw [Expr.eval, Expr.eval_of_bool? hb]
        refine hl.bind_eq_self fun v hv => ?_
        obtain ⟨b, rfl⟩ := hv.exists_bool
        simp only [pure_bind]
        cases b <;> rfl
      · cases h
  | _ => cases h

/-- **A rule on a binary node that is no identity** does not change its behavior. -/
theorem eval_simplify? (hl : Alike E (·.HasTy E l.ty) (l.eval m) (l.eval m))
    (hr : Alike E (·.HasTy E r.ty) (r.eval m) (r.eval m)) (hj : op.Joins l.ty r.ty ty)
    (hid : op.fold? l r = none → op.identity? l r = none) :
    Alike E (·.HasTy E ty) ((Expr.binary op l r ty).eval m)
      (((op.simplify? l r).getD (.binary op l r ty)).eval m) := by
  have same : Alike E (·.HasTy E ty) ((Expr.binary op l r ty).eval m)
      ((Expr.binary op l r ty).eval m) := .eval_binary hl hr hj
  rw [simplify?]
  cases hf : op.fold? l r with
  | some e =>
    have he := eval_of_fold? (m := m) (t := ty) hf
    rw [he] at same ⊢
    exact same
  | none =>
    cases ha : op.absorb? l r with
    | some e => exact eval_of_absorb? hl hr hj ha
    | none =>
      rw [hid hf]
      exact same

end BinaryOp

/-! ### Expressions -/

def Expr.meetsIdentity : Expr → Bool
  | binary op l r _ => (op.fold? l.simplify.value r.simplify.value).isNone &&
      (op.identity? l.simplify.value r.simplify.value).isSome
  | _ => false

def Expr.NoIdentity (e : Expr) : Prop := ∀ e' ∈ e.nested, e'.meetsIdentity = false

theorem Expr.NoIdentity.of_part {e part : Expr} (h : e.NoIdentity) (hp : part ∈ e.parts) :
    part.NoIdentity := fun e' he' => h e' (mem_nested_of_part hp he')

theorem Expr.NoIdentity.identity? {op : BinaryOp} {l r : Expr} {ty : Ty}
    (h : (binary op l r ty).NoIdentity)
    (hf : op.fold? l.simplify.value r.simplify.value = none) :
    op.identity? l.simplify.value r.simplify.value = none := by
  have hself := h _ (mem_nested_self _)
  rw [meetsIdentity, hf] at hself
  simpa using hself

/-- **An expression and its simplified form do the same** and come to values of the type
of the expression, if no identity applies. -/
theorem Expr.Typed.eval_simplify (hm : m.Respects E) {e : Expr} (h : e.Typed E)
    (hid : e.NoIdentity) :
    Alike E (·.HasTy E e.ty) (e.eval m) (e.simplify.value.eval m) := by
  induction h with
  | number => exact .pure .number
  | string => exact .pure .string
  | bool => exact .pure .bool
  | var hv => exact .load hv
  | func hf => exact .pure (.func hf)
  | @struct id fields hs =>
    refine .pure ?_
    show Value.HasTy E (.maker id) (.function ((E.structAt id).fields.map Field.ty) (.struct id))
    rw [hs.structAt_fields]
    exact .maker hs
  | @binary op l r ty hl hr hj ihl ihr =>
    have hla := ihl (hid.of_part (by simp [parts]))
    have hra := ihr (hid.of_part (by simp [parts]))
    have node := Alike.eval_binary (t := ty) (u := ty) hla hra hj
    rw [← hl.simplify.2, ← hr.simplify.2] at hj
    rw [← hl.simplify.2] at hla
    rw [← hr.simplify.2] at hra
    rw [value_simplify_binary]
    exact node.trans (BinaryOp.eval_simplify? hla.right hra.right hj hid.identity?)
  | @neg e _ ht ih =>
    have he := ih (hid.of_part (by simp [parts]))
    rw [ht] at he
    have node := Alike.eval_neg (t := .number) (u := .number) he
    rw [value_simplify_unary, UnaryOp.fold?_neg]
    cases hn : e.simplify.value.number? with
    | none => exact node
    | some x =>
      refine node.trans ?_
      rw [eval, eval_of_number? hn, pure_bind]
      exact Alike.pure Value.HasTy.number
  | @not e _ ht ih =>
    have he := ih (hid.of_part (by simp [parts]))
    rw [ht] at he
    have node := Alike.eval_not (t := .bool) (u := .bool) he
    rw [value_simplify_unary, UnaryOp.fold?_not]
    cases hb : e.simplify.value.bool? with
    | none => exact node
    | some b =>
      refine node.trans ?_
      rw [eval, eval_of_bool? hb, pure_bind]
      exact Alike.pure Value.HasTy.bool
  | array _ ht ih =>
    rw [value_simplify_array]
    exact .eval_array (fun e he => ih e he (hid.of_part he)) ht
  | call _ _ ht hp ihf ihargs =>
    have hf := ihf (hid.of_part List.mem_cons_self)
    rw [ht] at hf
    rw [value_simplify_call]
    exact .eval_call hm hf (fun e he => ihargs e he (hid.of_part (List.mem_cons_of_mem _ he))) hp
  | member _ ht hf ih =>
    have ho := ih (hid.of_part (by simp [parts]))
    rw [ht] at ho
    exact .eval_member ho hf
  | subscript _ _ ha hi iha ihi =>
    have haa := iha (hid.of_part (by simp [parts]))
    have hia := ihi (hid.of_part (by simp [parts]))
    rw [ha] at haa
    rw [hi] at hia
    exact .eval_subscript haa hia

/-! ### Targets -/

def Expr.isOperator : Expr → Bool
  | binary .. | unary .. => true
  | _ => false

/-- What an operator gives has no parts. -/
theorem Expr.Typed.ty_of_isOperator {e : Expr} (h : e.Typed E) (ho : e.isOperator = true) :
    e.ty = .number ∨ e.ty = .string ∨ e.ty = .bool := by
  cases h with
  | @binary op l r ty _ _ hj =>
    show ty = .number ∨ ty = .string ∨ ty = .bool
    cases op with
    | or | and => exact .inr (.inr hj.2.2)
    | sub | mul | div | pow => exact .inl hj.2.2
    | add =>
      obtain ⟨hl, _, rfl⟩ := hj
      exact hl.imp_right .inl
    | lt | le | gt | ge => exact .inr (.inr hj.2.2)
    | eq | ne => exact .inr (.inr hj.2)
  | neg => exact .inl rfl
  | not => exact .inr (.inr rfl)
  | _ => simp [isOperator] at ho

theorem Expr.isOperator_of_isPlace {e : Expr} (h : e.isPlace = true) : e.isOperator = false := by
  cases e with
  | var | member | subscript => rfl
  | _ => simp [isPlace] at h

theorem Expr.Typed.isOperator_of_ty {e : Expr} (h : e.Typed E) (hn : e.ty ≠ .number)
    (hs : e.ty ≠ .string) (hb : e.ty ≠ .bool) : e.isOperator = false := by
  cases ho : e.isOperator with
  | false => rfl
  | true =>
    rcases h.ty_of_isOperator ho with ht | ht | ht
    · exact absurd ht hn
    · exact absurd ht hs
    · exact absurd ht hb

/-- **A target and its simplified form are the same place**, if no identity applies.  A
node with an operator would be another matter: it may become a variable. -/
theorem Expr.Typed.place_simplify (hm : m.Respects E) {e : Expr} (h : e.Typed E)
    (hid : e.NoIdentity) (ho : e.isOperator = false) :
    Alike E (·.HasTy E e.ty) (e.place m) (e.simplify.value.place m) := by
  have temporary : ∀ {e e' : Expr} {ty : Ty}, Alike E (·.HasTy E ty) (e.eval m) (e'.eval m) →
      Alike E (Place.HasTy E · ty) (e.eval m >>= fun v => pure (Place.temporary v))
        (e'.eval m >>= fun v => pure (Place.temporary v)) :=
    fun he => he.bind fun v hv => .pure (.temporary hv)
  have heval := h.eval_simplify hm hid
  induction h with
  | var hv => exact .pure (.var hv)
  | binary | neg | not => cases ho
  | number | string | bool | func | struct => exact temporary heval
  | array | call =>
    simp only [value_simplify_array, value_simplify_call] at heval ⊢
    exact temporary heval
  | member hot ht hf ih =>
    have hoid := hid.of_part List.mem_cons_self
    have hop := hot.isOperator_of_ty (by simp [ht]) (by simp [ht]) (by simp [ht])
    refine (ih hoid hop (hot.eval_simplify hm hoid)).bind fun p hp => ?_
    rw [ht] at hp
    exact .pure (.field hp hf)
  | @subscript a i ty hat hit ha hi iha _ =>
    have haid := hid.of_part List.mem_cons_self
    have hiid : i.NoIdentity := hid.of_part (by simp [parts])
    have hop := hat.isOperator_of_ty (by simp [ha]) (by simp [ha]) (by simp [ha])
    refine (iha haid hop (hat.eval_simplify hm haid)).bind fun p hp => ?_
    refine (hit.eval_simplify hm hiid).bind fun v hv => ?_
    rw [ha] at hp
    rw [hi] at hv
    obtain ⟨x, rfl⟩ := hv.exists_number
    exact .pure (.element hp)

end TypedImp
