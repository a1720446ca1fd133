import TypedImp.Proofs.Scoping.Judgement
import TypedImp.Proofs.Simplify.Value

/-!
# Simplifying keeps scopes

A rule on a binary node leaves an operand, the negated right operand or a literal, so
a simplified expression uses nothing new (`Expr.uses_simplify`).

A statement is left out only if it declares nothing, and the side that a conditional
leaves behind comes to stand one list further out.  What it declares is then visible
to more statements than before, never to fewer: `Stmt.declared_simplify` says that all
that a statement declares is declared by the statements in its place, and
`Stmt.Scoped.simplify` that these see all they use.  That ids differ plays no part in
it.  `Stmt.bound_simplifyAll` says that no id is bound more often than before.
-/

namespace TypedImp

/-! ### Expressions -/

namespace BinaryOp

variable {op : BinaryOp} {l r e : Expr}

theorem uses_of_simplify? {V : List EntityId} (hl : l.uses ⊆ V) (hr : r.uses ⊆ V)
    (h : op.simplify? l r = some e) : e.uses ⊆ V := by
  rcases simplify?_cases h with rfl | rfl | rfl | ⟨x, rfl⟩ | ⟨b, rfl⟩
  · exact hl
  · exact hr
  · rw [Expr.uses_subset_iff]
    exact ⟨by simp [Expr.entity?], by simpa [Expr.parts] using hr⟩
  · exact List.nil_subset V
  · exact List.nil_subset V

end BinaryOp

/-- **A simplified expression uses nothing new.** -/
theorem Expr.uses_simplify_subset {V : List EntityId} {e : Expr} (h : e.uses ⊆ V) :
    e.simplify.value.uses ⊆ V := by
  induction e with
  | number | string | bool | var | func | struct => exact h
  | binary op l r ty ihl ihr =>
    obtain ⟨-, hparts⟩ := uses_subset_iff.mp h
    have hl := ihl (hparts l (by simp [parts]))
    have hr := ihr (hparts r (by simp [parts]))
    rw [value_simplify_binary]
    cases hs : op.simplify? l.simplify.value r.simplify.value with
    | some x => exact BinaryOp.uses_of_simplify? hl hr hs
    | none =>
      rw [Option.getD_none, uses_subset_iff]
      exact ⟨by simp [entity?], by simpa [parts] using ⟨hl, hr⟩⟩
  | unary op e ty ih =>
    obtain ⟨-, hparts⟩ := uses_subset_iff.mp h
    have he := ih (hparts e (by simp [parts]))
    rw [value_simplify_unary]
    cases hs : op.fold? e.simplify.value with
    | some x =>
      rcases UnaryOp.fold?_cases hs with ⟨y, rfl⟩ | ⟨b, rfl⟩
      · exact List.nil_subset V
      · exact List.nil_subset V
    | none =>
      rw [Option.getD_none, uses_subset_iff]
      exact ⟨by simp [entity?], by simpa [parts] using he⟩
  | array es ty ih =>
    obtain ⟨-, hparts⟩ := uses_subset_iff.mp h
    rw [value_simplify_array, uses_subset_iff]
    refine ⟨by simp [entity?], fun part hp => ?_⟩
    obtain ⟨e, he, rfl⟩ := List.mem_map.mp hp
    exact ih e he (hparts e he)
  | call f args ty ihf ihargs =>
    obtain ⟨-, hparts⟩ := uses_subset_iff.mp h
    rw [value_simplify_call, uses_subset_iff]
    refine ⟨by simp [entity?], fun part hp => ?_⟩
    rcases List.mem_cons.mp hp with rfl | hp
    · exact ihf (hparts f List.mem_cons_self)
    · obtain ⟨e, he, rfl⟩ := List.mem_map.mp hp
      exact ihargs e he (hparts e (List.mem_cons_of_mem _ he))
  | member o field ty ih =>
    obtain ⟨-, hparts⟩ := uses_subset_iff.mp h
    have ho := ih (hparts o (by simp [parts]))
    rw [value_simplify_member, uses_subset_iff]
    exact ⟨by simp [entity?], by simpa [parts] using ho⟩
  | subscript a i ty iha ihi =>
    obtain ⟨-, hparts⟩ := uses_subset_iff.mp h
    have ha := iha (hparts a (by simp [parts]))
    have hi := ihi (hparts i (by simp [parts]))
    rw [value_simplify_subscript, uses_subset_iff]
    exact ⟨by simp [entity?], by simpa [parts] using ⟨ha, hi⟩⟩

theorem Expr.uses_simplifyOption {V : List EntityId} {e : Option Expr}
    (h : ∀ x ∈ e, x.uses ⊆ V) : ∀ x ∈ (simplifyOption e).value, x.uses ⊆ V := by
  rw [value_simplifyOption]
  intro x hx
  obtain ⟨y, hy, rfl⟩ := Option.map_eq_some_iff.mp hx
  exact Expr.uses_simplify_subset (h y hy)

/-! ### What is declared -/

namespace Stmt

/-- Only statements that declare nothing are left out or taken apart. -/
theorem declared_simplify (s : Stmt) : s.declared ⊆ declaredAll s.simplify.value := by
  cases s with
  | declareVariable | declareFunction | declareStruct | declareClass =>
    exact List.subset_append_left _ _
  | _ => exact List.nil_subset _

/-! ### Scopes -/

theorem scopedAll_joinElse {V : List EntityId} {test : Expr} {c a : List Stmt}
    (ht : test.uses ⊆ V) (hc : ScopedAll V c) (ha : ScopedAll V a) :
    ScopedAll V (joinElse test c a).value := by
  match a with
  | [] => exact scopedAll_singleton.mpr ⟨ht, hc⟩
  | [s] =>
    simp only [joinElse]
    split
    · exact scopedAll_singleton.mpr ⟨ht, hc, scopedAll_singleton.mp ha⟩
    · exact scopedAll_singleton.mpr ⟨ht, hc, ha⟩
  | s :: t :: ss => exact scopedAll_singleton.mpr ⟨ht, hc, ha⟩

theorem scopedAll_dropIf {V : List EntityId} {idle : Bool} {s : Stmt} (h : s.Scoped V) :
    ScopedAll V (dropIf idle s).value := by
  rw [value_dropIf]
  cases idle with
  | true => trivial
  | false => exact scopedAll_singleton.mpr h

mutual

/-- **The statements in the place of a scoped one are scoped.** -/
theorem Scoped.simplify {V : List EntityId} (s : Stmt) (h : s.Scoped V) :
    ScopedAll V s.simplify.value := by
  cases s with
  | declareVariable | ret => exact scopedAll_singleton.mpr (Expr.uses_simplifyOption h)
  | declareStruct | declareClass | breakLoop | continueLoop => exact scopedAll_singleton.mpr trivial
  | declareFunction id params body => exact scopedAll_singleton.mpr (ScopedAll.simplify body h)
  | ifThen test c =>
    have hc := ScopedAll.simplify c h.2
    exact choose_cases (P := ScopedAll V) hc trivial
      (scopedAll_singleton.mpr ⟨Expr.uses_simplify_subset h.1, hc⟩)
  | ifElse test c a =>
    have hc := ScopedAll.simplify c h.2.1
    have ha := ScopedAll.simplify a h.2.2
    exact choose_cases (P := ScopedAll V) hc ha
      (scopedAll_singleton.mpr ⟨Expr.uses_simplify_subset h.1, hc, ha⟩)
  | ifElseIf test c a =>
    have hc := ScopedAll.simplify c h.2.1
    have ha := Scoped.simplify a h.2.2
    exact choose_cases (P := ScopedAll V) hc ha
      (scopedAll_joinElse (Expr.uses_simplify_subset h.1) hc ha)
  | whileLoop test body =>
    exact scopedAll_dropIf ⟨Expr.uses_simplify_subset h.1, ScopedAll.simplify body h.2⟩
  | rangeLoop id low op high body =>
    exact scopedAll_dropIf ⟨Expr.uses_simplify_subset h.1, Expr.uses_simplify_subset h.2.1,
      ScopedAll.simplify body h.2.2⟩
  | collectionLoop id e body =>
    exact scopedAll_dropIf ⟨Expr.uses_simplify_subset h.1, ScopedAll.simplify body h.2⟩
  | tryCatch body error handler =>
    exact scopedAll_singleton.mpr ⟨ScopedAll.simplify body h.1, ScopedAll.simplify handler h.2⟩
  | print e | increment e | decrement e | call e =>
    exact scopedAll_singleton.mpr (Expr.uses_simplify_subset h)
  | assign t e =>
    exact scopedAll_dropIf ⟨Expr.uses_simplify_subset h.1, Expr.uses_simplify_subset h.2⟩
termination_by structural s

theorem ScopedAll.simplify {V : List EntityId} (ss : List Stmt) (h : ScopedAll V ss) :
    ScopedAll V (simplifyAll ss).value := by
  cases ss with
  | nil => trivial
  | cons s ss =>
    have hs := Scoped.simplify s h.1
    have hss := ScopedAll.simplify ss h.2
    refine scopedAll_append hs (hss.mono ?_ _)
    -- The statements behind `s` see what stands in its place, and more than it declared.
    exact List.append_subset.mpr ⟨List.subset_append_of_subset_left _ s.declared_simplify,
      List.subset_append_right _ _⟩
termination_by structural ss

end

/-! ### Ids that are bound -/

def boundAll (ss : List Stmt) : List EntityId := (nestedAll ss).flatMap bound

theorem boundAll_append (ss ts : List Stmt) : boundAll (ss ++ ts) = boundAll ss ++ boundAll ts := by
  simp only [boundAll, nestedAll_eq_flatMap, List.flatMap_append]

theorem boundAll_singleton (s : Stmt) : boundAll [s] = s.bound ++ boundAll s.parts := by
  simp only [boundAll, nestedAll_eq_flatMap, List.flatMap_cons, List.flatMap_nil, List.append_nil,
    nested_eq_cons s]

theorem boundAll_cons (s : Stmt) (ss : List Stmt) :
    boundAll (s :: ss) = boundAll [s] ++ boundAll ss := boundAll_append [s] ss

/-- A node that binds nothing itself. -/
theorem boundAll_parts {s : Stmt} {ss : List Stmt} (hb : s.bound = []) (hp : s.parts = ss) :
    boundAll [s] = boundAll ss := by
  rw [boundAll_singleton, hb, hp, List.nil_append]

/-- A node that binds what it bound before. -/
theorem boundAll_rebuilt {s s' : Stmt} (hb : s'.bound = s.bound)
    (hp : (boundAll s'.parts).Sublist (boundAll s.parts)) :
    (boundAll [s']).Sublist (boundAll [s]) := by
  rw [boundAll_singleton, boundAll_singleton, hb]
  exact (List.Sublist.refl _).append hp

theorem boundAll_append_sublist {ss ss' ts ts' : List Stmt}
    (hs : (boundAll ss').Sublist (boundAll ss)) (ht : (boundAll ts').Sublist (boundAll ts)) :
    (boundAll (ss' ++ ts')).Sublist (boundAll (ss ++ ts)) := by
  rw [boundAll_append, boundAll_append]
  exact hs.append ht

theorem boundAll_joinElse (test : Expr) (c a : List Stmt) :
    boundAll (joinElse test c a).value = boundAll (c ++ a) := by
  match a with
  | [] => exact boundAll_parts (s := .ifThen test c) rfl (List.append_nil c).symm
  | [s] =>
    simp only [joinElse]
    split
    · exact boundAll_parts (s := .ifElseIf test c s) rfl rfl
    · exact boundAll_parts (s := .ifElse test c [s]) rfl rfl
  | s :: t :: ss => exact boundAll_parts (s := .ifElse test c (s :: t :: ss)) rfl rfl

theorem boundAll_dropIf (idle : Bool) (s : Stmt) :
    (boundAll (dropIf idle s).value).Sublist (boundAll [s]) := by
  rw [value_dropIf]
  cases idle with
  | true => exact List.nil_sublist _
  | false => exact List.Sublist.refl _

/-- Both sides of a conditional that binds nothing itself. -/
theorem boundAll_sides {s : Stmt} {c a c' a' : List Stmt} (hb : s.bound = [])
    (hp : s.parts = c ++ a) (hc : (boundAll c').Sublist (boundAll c))
    (ha : (boundAll a').Sublist (boundAll a)) {test : Expr} {k : Counted (List Stmt)}
    (hk : boundAll k.value = boundAll (c' ++ a')) :
    (boundAll (choose test c' a' k).value).Sublist (boundAll [s]) := by
  rw [boundAll_parts hb hp]
  refine choose_cases (P := fun ss => (boundAll ss).Sublist _) ?_ ?_ ?_
  · rw [boundAll_append]
    exact hc.trans (List.sublist_append_left _ _)
  · rw [boundAll_append]
    exact ha.trans (List.sublist_append_right _ _)
  · rw [hk]
    exact boundAll_append_sublist hc ha

mutual

theorem boundAll_simplify (s : Stmt) : (boundAll s.simplify.value).Sublist (boundAll [s]) := by
  cases s with
  | declareVariable | declareStruct | declareClass | ret | breakLoop | continueLoop | print
  | increment | decrement | call => exact boundAll_rebuilt rfl (List.Sublist.refl _)
  | assign => exact (boundAll_dropIf _ _).trans (boundAll_rebuilt rfl (List.Sublist.refl _))
  | declareFunction id params body => exact boundAll_rebuilt rfl (boundAll_simplifyAll body)
  | whileLoop test body | rangeLoop id low op high body | collectionLoop id e body =>
    exact (boundAll_dropIf _ _).trans (boundAll_rebuilt rfl (boundAll_simplifyAll body))
  | ifThen test c =>
    exact boundAll_sides (s := .ifThen test c) rfl (List.append_nil c).symm
      (boundAll_simplifyAll c) (List.Sublist.refl _)
      (boundAll_parts (s := .ifThen _ _) rfl (List.append_nil _).symm)
  | ifElse test c a =>
    exact boundAll_sides (s := .ifElse test c a) rfl rfl (boundAll_simplifyAll c)
      (boundAll_simplifyAll a) (boundAll_parts (s := .ifElse _ _ _) rfl rfl)
  | ifElseIf test c a =>
    exact boundAll_sides (s := .ifElseIf test c a) rfl rfl (boundAll_simplifyAll c)
      (boundAll_simplify a) (boundAll_joinElse _ _ _)
  | tryCatch body error handler =>
    exact boundAll_rebuilt rfl
      (boundAll_append_sublist (boundAll_simplifyAll body) (boundAll_simplifyAll handler))
termination_by structural s

/-- **Simplifying binds no id more often than before**, and binds them in the same
order. -/
theorem boundAll_simplifyAll (ss : List Stmt) :
    (boundAll (simplifyAll ss).value).Sublist (boundAll ss) := by
  cases ss with
  | nil => exact List.Sublist.refl _
  | cons s ss =>
    have h := (boundAll_simplify s).append (boundAll_simplifyAll ss)
    rw [← boundAll_cons, ← boundAll_append] at h
    exact h
termination_by structural ss

end

end Stmt

end TypedImp
