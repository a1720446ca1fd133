import TypedImp.Proofs.Meaning.Run

/-!
# Running keeps types

Operators, parts of values, calls and places go by types: from operands that fit they
make a value of the type that the typing rules give, and they leave a typed store
typed.  Each such fact is stated as a behavior that is like itself.  Where a node is
made of behaviors, as the nodes of an expression are, the lemma takes two versions of
each of them, so that it says at the same time that like parts make like nodes.
-/

namespace TypedImp

open Behavior

variable {E : Entities} {m : Machine}

/-! ### Operators -/

theorem BinaryOp.Joins.decide?_typed {op : BinaryOp} {left right ty : Ty}
    (hj : op.Joins left right ty) {v u : Value} (h : op.decide? v = some u) : u.HasTy E ty := by
  cases op with
  | or | and =>
    obtain ⟨_, _, rfl⟩ := hj
    simp only [decide?] at h
    split at h
    · cases h; exact .bool
    · cases h; exact .bool
    · cases h
  | _ => cases h

/-- **Operands that fit can be joined**, and what they make has the type it should. -/
theorem BinaryOp.Joins.outcome?_typed {op : BinaryOp} {left right ty : Ty}
    (hj : op.Joins left right ty) {v w : Value} (hv : v.HasTy E left) (hw : w.HasTy E right) :
    ∃ u, m.outcome? op v w = some u ∧ u.HasTy E ty := by
  cases op with
  | or | and =>
    obtain ⟨rfl, rfl, rfl⟩ := hj
    obtain ⟨b, rfl⟩ := hv.exists_bool
    obtain ⟨c, rfl⟩ := hw.exists_bool
    exact ⟨_, rfl, .bool⟩
  | sub | mul | div | pow =>
    obtain ⟨rfl, rfl, rfl⟩ := hj
    obtain ⟨x, rfl⟩ := hv.exists_number
    obtain ⟨y, rfl⟩ := hw.exists_number
    exact ⟨_, rfl, .number⟩
  | add =>
    obtain ⟨rfl | rfl, rfl, rfl⟩ := hj
    · obtain ⟨x, rfl⟩ := hv.exists_number
      obtain ⟨y, rfl⟩ := hw.exists_number
      exact ⟨_, rfl, .number⟩
    · obtain ⟨x, rfl⟩ := hv.exists_string
      obtain ⟨y, rfl⟩ := hw.exists_string
      exact ⟨_, rfl, .string⟩
  | lt | le | gt | ge =>
    obtain ⟨rfl | rfl, rfl, rfl⟩ := hj
    · obtain ⟨x, rfl⟩ := hv.exists_number
      obtain ⟨y, rfl⟩ := hw.exists_number
      exact ⟨_, rfl, .bool⟩
    · obtain ⟨x, rfl⟩ := hv.exists_string
      obtain ⟨y, rfl⟩ := hw.exists_string
      exact ⟨_, rfl, .bool⟩
  | eq | ne =>
    obtain ⟨_, rfl⟩ := hj
    unfold Machine.outcome?
    split <;> exact ⟨_, rfl, .bool⟩

/-! ### Values of a list of expressions -/

/-- An argument fits its parameter, and so does its value. -/
theorem hasTy_of_fits {args : List Expr} {params : List Ty} {vs : List Value}
    (hp : List.Forall₂ Expr.Fits args params)
    (hv : List.Forall₂ (fun e v => Value.HasTy E v e.ty) args vs) :
    List.Forall₂ (Value.HasTy E) vs params := by
  induction hp generalizing vs with
  | nil => cases hv; exact .nil
  | cons hfit _ ih =>
    obtain _ | ⟨hv, hvs⟩ := hv
    refine .cons ?_ (ih hvs)
    rcases hfit with rfl | rfl
    · exact .any
    · exact hv

theorem hasTy_of_ty_eq {es : List Expr} {ty : Ty} (hty : ∀ e ∈ es, e.ty = ty) {vs : List Value}
    (hv : List.Forall₂ (fun e v => Value.HasTy E v e.ty) es vs) : ∀ v ∈ vs, v.HasTy E ty := by
  induction hv with
  | nil => simp
  | @cons e v es vs hv _ ih =>
    intro w hw
    rcases List.mem_cons.mp hw with rfl | hw
    · rw [← hty e List.mem_cons_self]
      exact hv
    · exact ih (fun x hx => hty x (List.mem_cons_of_mem e hx)) w hw

namespace Alike

variable {α σ : Type} {P : α → Prop}

theorem ofOption {o : Option α} (h : ∃ a, o = some a ∧ P a) :
    Alike E P (Behavior.ofOption o) (Behavior.ofOption o) := by
  obtain ⟨a, rfl, ha⟩ := h
  exact .pure ha

/-! ### Expressions -/

theorem eval_binary {op : BinaryOp} {l l' r r' : Expr} {left right ty t u : Ty}
    (hl : Alike E (·.HasTy E left) (l.eval m) (l'.eval m))
    (hr : Alike E (·.HasTy E right) (r.eval m) (r'.eval m)) (hj : op.Joins left right ty) :
    Alike E (·.HasTy E ty) ((Expr.binary op l r t).eval m) ((Expr.binary op l' r' u).eval m) := by
  refine hl.bind fun v hv => ?_
  cases hd : op.decide? v with
  | some u => exact .pure (hj.decide?_typed hd)
  | none => exact hr.bind fun w hw => .ofOption (hj.outcome?_typed hv hw)

theorem eval_neg {e e' : Expr} {t u : Ty}
    (he : Alike E (·.HasTy E .number) (e.eval m) (e'.eval m)) :
    Alike E (·.HasTy E .number) ((Expr.unary .neg e t).eval m) ((Expr.unary .neg e' u).eval m) := by
  refine he.bind fun v hv => ?_
  obtain ⟨x, rfl⟩ := hv.exists_number
  exact .pure .number

theorem eval_not {e e' : Expr} {t u : Ty} (he : Alike E (·.HasTy E .bool) (e.eval m) (e'.eval m)) :
    Alike E (·.HasTy E .bool) ((Expr.unary .not e t).eval m) ((Expr.unary .not e' u).eval m) := by
  refine he.bind fun v hv => ?_
  obtain ⟨b, rfl⟩ := hv.exists_bool
  exact .pure .bool

/-- The values of a list of expressions have the types of the expressions. -/
theorem evalAll {es : List Expr} {change : Expr → Expr}
    (h : ∀ e ∈ es, Alike E (·.HasTy E e.ty) (e.eval m) ((change e).eval m)) :
    Alike E (List.Forall₂ (fun e v => Value.HasTy E v e.ty) es) (Expr.evalAll m es)
      (Expr.evalAll m (es.map change)) := by
  induction es with
  | nil => exact .pure .nil
  | cons e es ih =>
    refine (h e List.mem_cons_self).bind fun v hv => ?_
    refine (ih fun x hx => h x (List.mem_cons_of_mem e hx)).bind fun vs hvs => ?_
    exact .pure (.cons hv hvs)

theorem answer (hm : m.Respects E) {f : Value} {args : List Value} {signature : Signature}
    (hf : f.HasTy E signature.ty) (hargs : List.Forall₂ (Value.HasTy E) args signature.params) :
    Alike E (·.HasTy E signature.result) (m.answer f args) (m.answer f args) where
  iff _ := .rfl
  typed hs := by
    rintro ⟨q, hq, _⟩
    exact (hm.call hf hargs hs hq).1
  value hs := by
    rintro ⟨q, hq, hr⟩
    cases q with
    | error message => cases hr
    | ok v =>
      cases hr
      exact (hm.call hf hargs hs hq).2 _ rfl

theorem eval_call (hm : m.Respects E) {f f' : Expr} {args : List Expr} {change : Expr → Expr}
    {signature : Signature} {t u : Ty}
    (hf : Alike E (·.HasTy E signature.ty) (f.eval m) (f'.eval m))
    (hargs : ∀ e ∈ args, Alike E (·.HasTy E e.ty) (e.eval m) ((change e).eval m))
    (hp : List.Forall₂ Expr.Fits args signature.params) :
    Alike E (·.HasTy E signature.result) ((Expr.call f args t).eval m)
      ((Expr.call f' (args.map change) u).eval m) :=
  hf.bind fun _ hv => (evalAll hargs).bind fun _ hvs => answer hm hv (hasTy_of_fits hp hvs)

theorem eval_array {es : List Expr} {change : Expr → Expr} {ty t u : Ty}
    (h : ∀ e ∈ es, Alike E (·.HasTy E e.ty) (e.eval m) ((change e).eval m))
    (hty : ∀ e ∈ es, e.ty = ty) :
    Alike E (·.HasTy E (.array ty)) ((Expr.array es t).eval m)
      ((Expr.array (es.map change) u).eval m) := by
  exact (evalAll h).bind fun vs hvs => .pure (.array (hasTy_of_ty_eq hty hvs))

theorem eval_member {o o' : Expr} {id : StructId} {name : String} {field : Field} {t u : Ty}
    (ho : Alike E (·.HasTy E (.struct id)) (o.eval m) (o'.eval m))
    (hf : E.field? id name = some field) :
    Alike E (·.HasTy E field.ty) ((Expr.member o name t).eval m)
      ((Expr.member o' name u).eval m) := by
  refine ho.bind fun v hv => ?_
  obtain ⟨fields, rfl, hfields⟩ := hv.exists_record
  exact .pure (hfields name field hf)

theorem slot (vs : List Value) (x : Float) :
    Alike E (fun _ => True) (Behavior.slot vs x) (Behavior.slot vs x) := by
  rw [Behavior.slot]
  cases slot? vs x with
  | some i => exact .pure trivial
  | none => exact .jump _

theorem element {v : Value} {ty : Ty} (hv : v.HasTy E (.array ty)) (x : Float) :
    Alike E (·.HasTy E ty) (Behavior.element v (.number x)) (Behavior.element v (.number x)) := by
  obtain ⟨vs, rfl, hvs⟩ := hv.exists_array
  exact (slot vs x).bind fun i _ => .pure (hvs _ (vs.get_mem i))

theorem eval_subscript {a a' i i' : Expr} {ty t u : Ty}
    (ha : Alike E (·.HasTy E (.array ty)) (a.eval m) (a'.eval m))
    (hi : Alike E (·.HasTy E .number) (i.eval m) (i'.eval m)) :
    Alike E (·.HasTy E ty) ((Expr.subscript a i t).eval m) ((Expr.subscript a' i' u).eval m) := by
  refine ha.bind fun v hv => hi.bind fun w hw => ?_
  obtain ⟨x, rfl⟩ := hw.exists_number
  exact element hv x

end Alike

/-! ### Places -/

inductive Place.HasTy (E : Entities) : Place → Ty → Prop
  | var {id : VariableId} {ty : Ty} : E.HasVariable id ty → HasTy E (.var id) ty
  | temporary {v : Value} {ty : Ty} : v.HasTy E ty → HasTy E (.temporary v) ty
  | field {p : Place} {id : StructId} {name : String} {field : Field} :
      HasTy E p (.struct id) → E.field? id name = some field → HasTy E (.field p name) field.ty
  | element {p : Place} {ty : Ty} {x : Float} :
      HasTy E p (.array ty) → HasTy E (.element p x) ty

namespace Alike

theorem read {p : Place} {ty : Ty} (hp : p.HasTy E ty) : Alike E (·.HasTy E ty) p.read p.read := by
  induction hp with
  | var hid => exact .load hid
  | temporary hv => exact .pure hv
  | field _ hf ih =>
    refine ih.bind fun v hv => ?_
    obtain ⟨fields, rfl, hfields⟩ := hv.exists_record
    exact .pure (hfields _ _ hf)
  | element _ ih => exact ih.bind fun v hv => element hv _

theorem write {p : Place} {ty : Ty} (hp : p.HasTy E ty) {v : Value} (hv : v.HasTy E ty) :
    Alike E (fun _ => True) (p.write v) (p.write v) := by
  induction hp generalizing v with
  | var hid => exact .save hid hv
  | temporary => exact .pure trivial
  | field hp hf ih =>
    refine (read hp).bind fun w hw => ?_
    obtain ⟨fields, rfl, hfields⟩ := hw.exists_record
    exact ih (.set_field hfields hf hv)
  | element hp ih =>
    refine (read hp).bind fun w hw => ?_
    obtain ⟨vs, rfl, hvs⟩ := hw.exists_array
    exact (slot vs _).bind fun i _ => ih (.set_element hvs hv i)

theorem change {p : Place} (hp : p.HasTy E .number) (f : Float → Float) :
    Alike E (fun _ => True) (p.change f) (p.change f) := by
  refine (read hp).bind fun v hv => ?_
  obtain ⟨x, rfl⟩ := hv.exists_number
  exact write hp .number

/-! ### Statements -/

variable {α σ : Type} {P : α → Prop}

theorem branch {test test' : Behavior Value} {c c' a a' : Behavior α}
    (ht : Alike E (·.HasTy E .bool) test test') (hc : Alike E P c c') (ha : Alike E P a a') :
    Alike E P (Behavior.branch test c a) (Behavior.branch test' c' a') := by
  refine ht.bind fun v hv => ?_
  obtain ⟨b, rfl⟩ := hv.exists_bool
  cases b with
  | true => exact hc
  | false => exact ha

theorem body {f g : Behavior Unit} {I : σ → Prop} {next : σ} (hfg : Alike E (fun _ => True) f g)
    (hnext : I next) :
    Alike E (fun x => ∀ y ∈ x, I y) (Behavior.body f next) (Behavior.body g next) := by
  have more : Alike E (fun x => ∀ y ∈ x, I y) (Pure.pure (some next)) (Pure.pure (some next)) :=
    .pure fun y hy => by rwa [← Option.some.inj hy]
  refine hfg.handle fun r _ => ?_
  cases r with
  | ok => exact more
  | error j =>
    cases j with
    | continueLoop => exact more
    | breakLoop => exact .pure (by simp)
    | ret | throw => exact .jump _

theorem rescue {f g : Behavior Unit} {k l : String → Behavior Unit}
    (hfg : Alike E (fun _ => True) f g) (hkl : ∀ message, Alike E (fun _ => True) (k message)
      (l message)) : Alike E (fun _ => True) (Behavior.rescue f k) (Behavior.rescue g l) := by
  refine hfg.handle fun r _ => ?_
  cases r with
  | ok => exact .done fun _ _ => trivial
  | error j =>
    cases j with
    | throw message => exact hkl message
    | _ => exact .jump _

theorem receive {error : Option VariableId} (he : ∀ id ∈ error, E.HasVariable id .string)
    (message : String) :
    Alike E (fun _ => True) (Behavior.receive error message) (Behavior.receive error message) := by
  cases error with
  | some id => exact save (he id rfl) .string
  | none => exact .pure trivial

theorem rangeTurn {id : VariableId} (hid : E.HasVariable id .number) (op : RangeOp) (high : Float)
    {f g : Behavior Unit} (hfg : Alike E (fun _ => True) f g) (x : Float) :
    Alike E (fun next => ∀ y ∈ next, True) (TypedImp.rangeTurn id op high f x)
      (TypedImp.rangeTurn id op high g x) := by
  rw [TypedImp.rangeTurn, TypedImp.rangeTurn]
  split
  · exact (save hid .number).bind fun _ _ => body hfg trivial
  · exact .pure (by simp)

theorem collectionTurn {id : VariableId} {ty : Ty} (hid : E.HasVariable id ty)
    {f g : Behavior Unit} (hfg : Alike E (fun _ => True) f g) {vs : List Value}
    (hvs : ∀ v ∈ vs, v.HasTy E ty) :
    Alike E (fun next => ∀ ws ∈ next, ∀ v ∈ ws, v.HasTy E ty) (TypedImp.collectionTurn id f vs)
      (TypedImp.collectionTurn id g vs) := by
  cases vs with
  | nil => exact .pure (by simp)
  | cons v vs =>
    exact (save hid (hvs v List.mem_cons_self)).bind fun _ _ =>
      body (I := fun ws => ∀ v ∈ ws, v.HasTy E ty) hfg fun w hw => hvs w (List.mem_cons_of_mem v hw)

end Alike

end TypedImp
