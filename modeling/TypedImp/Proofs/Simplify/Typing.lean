import TypedImp.Proofs.Simplify.Value
import TypedImp.Proofs.Typing.Judgement

/-!
# Simplifying keeps types

`Expr.Typed.simplify`: the simplified form of a typed expression is typed and has
the same type.  Each rule on a binary node is looked at once, for operands that fit
the operator: `fold?` and the identities that yield a literal yield one of the type
that the operator gives, and all other rules yield an operand of that type.

`Stmt.Typed.simplify` carries this to statements.
-/

namespace TypedImp

variable {E : Entities}

/-! ### Literals -/

theorem Expr.Typed.ty_of_number? {e : Expr} (h : e.Typed E) {x : Float} (hx : e.number? = some x) :
    e.ty = .number := by
  cases h with
  | number => rfl
  | _ => simp [number?] at hx

/-! ### Rules -/

namespace BinaryOp

variable {op : BinaryOp} {l r e : Expr} {ty : Ty}

theorem typed_of_onNumbers? {x y : Float} (hj : op.Joins .number .number ty)
    (h : op.onNumbers? x y = some e) : e.Typed E ∧ e.ty = ty := by
  cases op with
  | or | and => cases h
  | add | sub | mul | div | pow => cases h; exact ⟨.number, hj.2.2.symm⟩
  | lt | le | gt | ge => cases h; exact ⟨.bool, hj.2.2.symm⟩
  | eq | ne => cases h; exact ⟨.bool, hj.2.symm⟩

theorem typed_of_fold? (hl : l.Typed E) (hr : r.Typed E) (hj : op.Joins l.ty r.ty ty)
    (h : op.fold? l r = some e) : e.Typed E ∧ e.ty = ty := by
  obtain ⟨x, y, hx, hy, h⟩ := exists_onNumbers?_of_fold? h
  rw [hl.ty_of_number? hx, hr.ty_of_number? hy] at hj
  exact typed_of_onNumbers? hj h

theorem typed_of_absorb? (hl : l.Typed E) (hr : r.Typed E) (hj : op.Joins l.ty r.ty ty)
    (h : op.absorb? l r = some e) : e.Typed E ∧ e.ty = ty := by
  cases op with
  | or | and =>
    obtain ⟨hlb, hrb, rfl⟩ := hj
    simp only [absorb?] at h
    split at h
    · cases h; exact ⟨hr, hrb⟩
    · split at h
      · cases h; exact ⟨hl, hlb⟩
      · cases h
  | _ => cases h

/-- An identity needs a literal of a number on one side, so `+` is that on numbers. -/
theorem typed_of_identity? (hl : l.Typed E) (hr : r.Typed E) (hj : op.Joins l.ty r.ty ty)
    (h : op.identity? l r = some e) : e.Typed E ∧ e.ty = ty := by
  cases op with
  | add =>
    obtain ⟨_, hrl, rfl⟩ := hj
    simp only [identity?] at h
    split at h
    · cases h; exact ⟨hl, rfl⟩
    · split at h
      · cases h; exact ⟨hr, hrl⟩
      · cases h
  | sub =>
    obtain ⟨hln, hrn, rfl⟩ := hj
    simp only [identity?] at h
    split at h
    · cases h; exact ⟨hl, hln⟩
    · split at h
      · cases h; exact ⟨.neg hr hrn, rfl⟩
      · cases h
  | mul =>
    obtain ⟨hln, hrn, rfl⟩ := hj
    simp only [identity?] at h
    split at h
    · cases h; exact ⟨hl, hln⟩
    · split at h
      · cases h; exact ⟨hr, hrn⟩
      · split at h
        · cases h; exact ⟨.number, rfl⟩
        · cases h
  | div =>
    obtain ⟨hln, _, rfl⟩ := hj
    simp only [identity?] at h
    split at h
    · cases h; exact ⟨.number, rfl⟩
    · split at h
      · cases h; exact ⟨hl, hln⟩
      · cases h
  | pow =>
    obtain ⟨_, _, rfl⟩ := hj
    simp only [identity?] at h
    split at h
    · cases h; exact ⟨.number, rfl⟩
    · split at h
      · cases h; exact ⟨.number, rfl⟩
      · cases h
  | _ => cases h

/-- **A rule on a binary node yields what the operator gives.** -/
theorem typed_of_simplify? (hl : l.Typed E) (hr : r.Typed E) (hj : op.Joins l.ty r.ty ty)
    (h : op.simplify? l r = some e) : e.Typed E ∧ e.ty = ty := by
  rw [simplify?, Option.or_eq_some_iff, Option.or_eq_some_iff] at h
  rcases h with h | ⟨_, h | ⟨_, h⟩⟩
  · exact typed_of_fold? hl hr hj h
  · exact typed_of_absorb? hl hr hj h
  · exact typed_of_identity? hl hr hj h

end BinaryOp

/-! ### Expressions -/

/-- **The simplified form of a typed expression is typed and has the same type.** -/
theorem Expr.Typed.simplify {e : Expr} (h : e.Typed E) :
    e.simplify.value.Typed E ∧ e.simplify.value.ty = e.ty := by
  induction h with
  | number => exact ⟨.number, rfl⟩
  | string => exact ⟨.string, rfl⟩
  | bool => exact ⟨.bool, rfl⟩
  | var hv => exact ⟨.var hv, rfl⟩
  | func hf => exact ⟨.func hf, rfl⟩
  | struct hs => exact ⟨.struct hs, rfl⟩
  | @binary op l r ty _ _ hj ihl ihr =>
    rw [value_simplify_binary]
    rw [← ihl.2, ← ihr.2] at hj
    cases hs : op.simplify? l.simplify.value r.simplify.value with
    | none => exact ⟨.binary ihl.1 ihr.1 hj, rfl⟩
    | some x => exact BinaryOp.typed_of_simplify? ihl.1 ihr.1 hj hs
  | @neg e _ ht ih =>
    rw [value_simplify_unary, UnaryOp.fold?_neg]
    cases e.simplify.value.number? with
    | none => exact ⟨.neg ih.1 (ih.2.trans ht), rfl⟩
    | some x => exact ⟨.number, rfl⟩
  | @not e _ ht ih =>
    rw [value_simplify_unary, UnaryOp.fold?_not]
    cases e.simplify.value.bool? with
    | none => exact ⟨.not ih.1 (ih.2.trans ht), rfl⟩
    | some b => exact ⟨.bool, rfl⟩
  | array _ ht ih =>
    rw [value_simplify_array]
    refine ⟨.array (fun x hx => ?_) (fun x hx => ?_), rfl⟩ <;>
      obtain ⟨e, he, rfl⟩ := List.mem_map.mp hx
    · exact (ih e he).1
    · exact (ih e he).2.trans (ht e he)
  | @call f args signature _ _ ht hp ihf ihargs =>
    rw [value_simplify_call]
    refine ⟨.call ihf.1 (fun x hx => ?_) (ihf.2.trans ht) ?_, rfl⟩
    · obtain ⟨e, he, rfl⟩ := List.mem_map.mp hx
      exact (ihargs e he).1
    · rw [List.forall₂_map_left_iff]
      have hsame : ∀ e ∈ args, e.simplify.value.ty = e.ty := fun e he => (ihargs e he).2
      refine ((List.forall₂_and_left _ _).mpr ⟨hsame, hp⟩).imp fun e param he => ?_
      rw [Fits, he.1]
      exact he.2
  | member _ ht hf ih => exact ⟨.member ih.1 (ih.2.trans ht) hf, rfl⟩
  | subscript _ _ ha hi iha ihi =>
    exact ⟨.subscript iha.1 ihi.1 (iha.2.trans ha) (ihi.2.trans hi), rfl⟩

theorem Expr.isPlace_simplify {e : Expr} (h : e.isPlace = true) :
    e.simplify.value.isPlace = true := by
  cases e with
  | var | member | subscript => rfl
  | _ => simp [isPlace] at h

theorem Expr.isCall_simplify {e : Expr} (h : e.isCall = true) :
    e.simplify.value.isCall = true := by
  cases e with
  | call => rw [value_simplify_call]; rfl
  | _ => simp [isCall] at h

/-- A place is a variable after simplifying only if it was that variable before. -/
theorem Expr.var?_simplify {e : Expr} (h : e.isPlace = true) :
    e.simplify.value.var? = e.var? := by
  cases e with
  | var | member | subscript => rfl
  | _ => simp [isPlace] at h

/-! ### Statements -/

/-- **The statements that take the place of a typed one are typed.** -/
theorem Stmt.Typed.simplify {fn : Option FunctionId} {s : Stmt} (h : s.Typed E fn) :
    ∀ s' ∈ s.simplify.value, s'.Typed E fn := by
  have one : ∀ {fn : Option FunctionId} {s : Stmt}, s.Typed E fn → ∀ s' ∈ [s], s'.Typed E fn := by
    intro fn s h s' hs'
    rw [List.mem_singleton.mp hs']
    exact h
  induction h with
  | @declareVariable fn id e ty hv he =>
    refine one (.declareVariable hv fun x hx => ?_)
    rw [Expr.value_simplifyOption] at hx
    obtain ⟨y, hy, rfl⟩ := Option.map_eq_some_iff.mp hx
    have hs := (he y hy).1.simplify
    exact ⟨hs.1, hs.2.trans (he y hy).2⟩
  | declareFunction hf hp _ ih => exact one (.declareFunction hf hp (forall_simplifyAll ih))
  | declareStruct hs => exact one (.declareStruct hs)
  | declareClass hs => exact one (.declareClass hs)
  | ifThen ht hb _ ih =>
    have hs := ht.simplify
    have hc := forall_simplifyAll ih
    exact forall_choose hc (by simp) (one (.ifThen hs.1 (hs.2.trans hb) hc))
  | ifElse ht hb _ _ ihc iha =>
    have hs := ht.simplify
    have hc := forall_simplifyAll ihc
    have ha := forall_simplifyAll iha
    exact forall_choose hc ha (one (.ifElse hs.1 (hs.2.trans hb) hc ha))
  | ifElseIf ht hb _ _ ihc iha =>
    have hs := ht.simplify
    have hb := hs.2.trans hb
    have hc := forall_simplifyAll ihc
    refine forall_choose hc iha (forall_joinElse (fun _ => .ifThen hs.1 hb hc) (fun x hx _ => ?_)
      (.ifElse hs.1 hb hc iha))
    exact .ifElseIf hs.1 hb hc (iha x (by rw [hx]; exact List.mem_singleton_self x))
  | whileLoop ht hb _ ih =>
    have hs := ht.simplify
    exact forall_dropIf (.whileLoop hs.1 (hs.2.trans hb) (forall_simplifyAll ih))
  | rangeLoop hl hln hh hhn hv _ ih =>
    have hls := hl.simplify
    have hhs := hh.simplify
    exact forall_dropIf (.rangeLoop hls.1 (hls.2.trans hln) hhs.1 (hhs.2.trans hhn) hv
      (forall_simplifyAll ih))
  | collectionLoop he ht hv _ ih =>
    have hs := he.simplify
    exact forall_dropIf (.collectionLoop hs.1 (hs.2.trans ht) hv (forall_simplifyAll ih))
  | ret hf hr he ht =>
    have hs := he.simplify
    exact one (.ret hf hr hs.1 (hs.2.trans ht))
  | retVoid hf hr => exact one (.retVoid hf hr)
  | breakLoop => exact one .breakLoop
  | continueLoop => exact one .continueLoop
  | tryCatch _ he _ ihb ihh =>
    exact one (.tryCatch (forall_simplifyAll ihb) he (forall_simplifyAll ihh))
  | print he => exact one (.print he.simplify.1)
  | increment he ht hp =>
    have hs := he.simplify
    exact one (.increment hs.1 (hs.2.trans ht) (Expr.isPlace_simplify hp))
  | decrement he ht hp =>
    have hs := he.simplify
    exact one (.decrement hs.1 (hs.2.trans ht) (Expr.isPlace_simplify hp))
  | assign ht hp he hty =>
    have hts := ht.simplify
    have hes := he.simplify
    exact forall_dropIf (.assign hts.1 (Expr.isPlace_simplify hp) hes.1
      (hes.2.trans (hty.trans hts.2.symm)))
  | call he => exact one (.call he.simplify.1)

theorem Program.WellTyped.simplify {p : Program} (h : p.WellTyped) :
    p.simplify.value.WellTyped :=
  Stmt.forall_simplifyAll fun s hs => (h s hs).simplify

end TypedImp
