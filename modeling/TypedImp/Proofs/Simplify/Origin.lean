import TypedImp.Proofs.Simplify.Typing
import TypedImp.Proofs.Typing.Soundness

/-!
# Where the statements of a simplified program come from

Simplifying lays lists of statements into one another, so a statement of the
simplified program may stand at another depth than the one it was made from.
`Stmt.Becomes s s'` says how one node is rebuilt: each form becomes the same form
with simplified parts, only an `else if` may become another conditional.
`exists_becomes` says that no statement comes from anywhere else: each statement of
the simplified program, at any depth, is some statement of the program rebuilt.

So what a statement keeps when it is rebuilt, all statements of a simplified program
have: an `else if` is followed by a conditional, what is written to is a place, and a
statement that is a call stays one (`Program.simplify_wellFormed`).
-/

namespace TypedImp

namespace Stmt

/-- How a single node of a statement is rebuilt from its simplified parts. -/
inductive Becomes : Stmt → Stmt → Prop
  | declareVariable {id : VariableId} {e : Option Expr} :
      Becomes (.declareVariable id e) (.declareVariable id (e.map (·.simplify.value)))
  | declareFunction {id : FunctionId} {params : List VariableId} {body : List Stmt} :
      Becomes (.declareFunction id params body)
        (.declareFunction id params (simplifyAll body).value)
  | declareStruct {id : StructId} : Becomes (.declareStruct id) (.declareStruct id)
  | declareClass {id : StructId} : Becomes (.declareClass id) (.declareClass id)
  | ifThen {test : Expr} {c : List Stmt} :
      Becomes (.ifThen test c) (.ifThen test.simplify.value (simplifyAll c).value)
  | ifElse {test : Expr} {c a : List Stmt} :
      Becomes (.ifElse test c a)
        (.ifElse test.simplify.value (simplifyAll c).value (simplifyAll a).value)
  | ifElseIfNone {test : Expr} {c : List Stmt} {a : Stmt} :
      a.simplify.value = [] →
      Becomes (.ifElseIf test c a) (.ifThen test.simplify.value (simplifyAll c).value)
  | ifElseIfOne {test : Expr} {c : List Stmt} {a a' : Stmt} :
      a.simplify.value = [a'] → a'.isConditional = true →
      Becomes (.ifElseIf test c a) (.ifElseIf test.simplify.value (simplifyAll c).value a')
  | ifElseIfMany {test : Expr} {c : List Stmt} {a : Stmt} :
      Becomes (.ifElseIf test c a)
        (.ifElse test.simplify.value (simplifyAll c).value a.simplify.value)
  | whileLoop {test : Expr} {body : List Stmt} :
      Becomes (.whileLoop test body) (.whileLoop test.simplify.value (simplifyAll body).value)
  | rangeLoop {id : VariableId} {low high : Expr} {op : RangeOp} {body : List Stmt} :
      Becomes (.rangeLoop id low op high body)
        (.rangeLoop id low.simplify.value op high.simplify.value (simplifyAll body).value)
  | collectionLoop {id : VariableId} {e : Expr} {body : List Stmt} :
      Becomes (.collectionLoop id e body)
        (.collectionLoop id e.simplify.value (simplifyAll body).value)
  | ret {e : Option Expr} : Becomes (.ret e) (.ret (e.map (·.simplify.value)))
  | breakLoop : Becomes .breakLoop .breakLoop
  | continueLoop : Becomes .continueLoop .continueLoop
  | tryCatch {body handler : List Stmt} {error : Option VariableId} :
      Becomes (.tryCatch body error handler)
        (.tryCatch (simplifyAll body).value error (simplifyAll handler).value)
  | print {e : Expr} : Becomes (.print e) (.print e.simplify.value)
  | increment {e : Expr} : Becomes (.increment e) (.increment e.simplify.value)
  | decrement {e : Expr} : Becomes (.decrement e) (.decrement e.simplify.value)
  | assign {t e : Expr} : Becomes (.assign t e) (.assign t.simplify.value e.simplify.value)
  | call {e : Expr} : Becomes (.call e) (.call e.simplify.value)

/-- The parts of a rebuilt node are simplified forms of the parts of the old one. -/
theorem Becomes.of_part {s s' : Stmt} (h : s.Becomes s') {part' : Stmt} (hp : part' ∈ s'.parts) :
    ∃ part ∈ s.parts, part' ∈ part.simplify.value := by
  cases h with
  | declareFunction | ifThen | whileLoop | rangeLoop | collectionLoop => exact mem_simplifyAll.mp hp
  | ifElse | tryCatch =>
    rcases List.mem_append.mp hp with hp | hp
    · obtain ⟨part, hm, hp⟩ := mem_simplifyAll.mp hp
      exact ⟨part, List.mem_append_left _ hm, hp⟩
    · obtain ⟨part, hm, hp⟩ := mem_simplifyAll.mp hp
      exact ⟨part, List.mem_append_right _ hm, hp⟩
  | ifElseIfNone =>
    obtain ⟨part, hm, hp⟩ := mem_simplifyAll.mp hp
    exact ⟨part, List.mem_append_left _ hm, hp⟩
  | @ifElseIfOne _ _ a _ ha =>
    rcases List.mem_append.mp hp with hp | hp
    · obtain ⟨part, hm, hp⟩ := mem_simplifyAll.mp hp
      exact ⟨part, List.mem_append_left _ hm, hp⟩
    · exact ⟨a, List.mem_append_right _ (List.mem_singleton_self a), by rwa [ha]⟩
  | @ifElseIfMany _ _ a =>
    rcases List.mem_append.mp hp with hp | hp
    · obtain ⟨part, hm, hp⟩ := mem_simplifyAll.mp hp
      exact ⟨part, List.mem_append_left _ hm, hp⟩
    · exact ⟨a, List.mem_append_right _ (List.mem_singleton_self a), hp⟩
  | _ => simp [parts] at hp

/-- The expressions of a rebuilt node are those of the old one, simplified. -/
theorem Becomes.of_expr {s s' : Stmt} (h : s.Becomes s') {e' : Expr} (he : e' ∈ s'.exprs) :
    ∃ e ∈ s.exprs, e' = e.simplify.value := by
  cases h with
  | @declareVariable id e | @ret e =>
    obtain ⟨x, hx, rfl⟩ := Option.map_eq_some_iff.mp (Option.mem_toList.mp he)
    exact ⟨x, Option.mem_toList.mpr hx, rfl⟩
  | rangeLoop | assign =>
    rcases List.mem_cons.mp he with rfl | he
    · exact ⟨_, List.mem_cons_self, rfl⟩
    · exact ⟨_, List.mem_cons_of_mem _ List.mem_cons_self, List.mem_singleton.mp he⟩
  | declareFunction | declareStruct | declareClass | breakLoop | continueLoop | tryCatch =>
    cases he
  | _ => exact ⟨_, List.mem_singleton_self _, List.mem_singleton.mp he⟩

/-- **One statement**: what takes its place is the statement itself, rebuilt, or comes
from a branch of a conditional with a literal as its test. -/
theorem becomes_or_branch (s : Stmt) : ∀ s' ∈ s.simplify.value,
    s.Becomes s' ∨ s.isConditional = true ∧ ∃ part ∈ s.parts, s' ∈ part.simplify.value := by
  have rebuilt : ∀ {s s' : Stmt}, s.Becomes s' → ∀ x ∈ [s'],
      s.Becomes x ∨ s.isConditional = true ∧ ∃ part ∈ s.parts, x ∈ part.simplify.value := by
    intro s s' h x hx
    rw [List.mem_singleton.mp hx]
    exact .inl h
  have branch : ∀ {s : Stmt} {ss : List Stmt}, s.isConditional = true → (∀ x ∈ ss, x ∈ s.parts) →
      ∀ x ∈ (simplifyAll ss).value,
        s.Becomes x ∨ s.isConditional = true ∧ ∃ part ∈ s.parts, x ∈ part.simplify.value := by
    intro s ss hc hss x hx
    obtain ⟨part, hp, hx⟩ := mem_simplifyAll.mp hx
    exact .inr ⟨hc, part, hss part hp, hx⟩
  cases s with
  | declareVariable id e =>
    refine rebuilt ?_
    rw [Expr.value_simplifyOption]
    exact .declareVariable
  | declareFunction => exact rebuilt .declareFunction
  | declareStruct => exact rebuilt .declareStruct
  | declareClass => exact rebuilt .declareClass
  | ifThen test c => exact forall_choose (branch rfl fun x hx => hx) (by simp) (rebuilt .ifThen)
  | ifElse test c a =>
    exact forall_choose (branch rfl fun x hx => List.mem_append_left _ hx)
      (branch rfl fun x hx => List.mem_append_right _ hx) (rebuilt .ifElse)
  | ifElseIf test c a =>
    refine forall_choose (branch rfl fun x hx => List.mem_append_left _ hx)
      (fun x hx => .inr ⟨rfl, ?_⟩)
      (forall_joinElse (fun ha => .inl (.ifElseIfNone ha))
        (fun x ha hx => .inl (.ifElseIfOne ha hx)) (.inl .ifElseIfMany))
    exact ⟨a, List.mem_append_right _ (List.mem_singleton_self a), hx⟩
  | whileLoop => exact forall_dropIf (.inl .whileLoop)
  | rangeLoop => exact forall_dropIf (.inl .rangeLoop)
  | collectionLoop => exact forall_dropIf (.inl .collectionLoop)
  | ret e =>
    refine rebuilt ?_
    rw [Expr.value_simplifyOption]
    exact .ret
  | breakLoop => exact rebuilt .breakLoop
  | continueLoop => exact rebuilt .continueLoop
  | tryCatch => exact rebuilt .tryCatch
  | print => exact rebuilt .print
  | increment => exact rebuilt .increment
  | decrement => exact rebuilt .decrement
  | assign => exact forall_dropIf (.inl .assign)
  | call => exact rebuilt .call

/-- **No statement comes from anywhere else**: each statement within the simplified
form of a statement is one within that statement, rebuilt. -/
theorem exists_becomes_of_nested (s : Stmt) : ∀ x ∈ s.simplify.value, ∀ s' ∈ x.nested,
    ∃ s₀ ∈ s.nested, s₀.Becomes s' := by
  induction s using parts_induction with
  | step s ih =>
    intro x hx s' hs'
    have up : ∀ part ∈ s.parts, ∀ y ∈ part.simplify.value, s' ∈ y.nested →
        ∃ s₀ ∈ s.nested, s₀.Becomes s' := by
      intro part hp y hy hs'
      obtain ⟨s₀, hs₀, h⟩ := ih part hp y hy s' hs'
      exact ⟨s₀, mem_nested_of_part hp hs₀, h⟩
    rcases becomes_or_branch s x hx with h | ⟨_, part, hp, hx⟩
    · rcases mem_nested_iff.mp hs' with rfl | ⟨part', hp', hs'⟩
      · exact ⟨s, mem_nested_self s, h⟩
      · obtain ⟨part, hp, hy⟩ := h.of_part hp'
        exact up part hp part' hy hs'
    · exact up part hp x hx hs'

theorem exists_becomes {ss : List Stmt} {s' : Stmt} (h : s' ∈ nestedAll (simplifyAll ss).value) :
    ∃ s ∈ nestedAll ss, s.Becomes s' := by
  obtain ⟨x, hx, hs'⟩ := mem_nestedAll.mp h
  obtain ⟨s, hs, hx⟩ := mem_simplifyAll.mp hx
  obtain ⟨s₀, hs₀, hb⟩ := exists_becomes_of_nested s x hx s' hs'
  exact ⟨s₀, mem_nestedAll.mpr ⟨s, hs, hs₀⟩, hb⟩

end Stmt

/-- Each statement of a simplified program is a statement of the program, rebuilt. -/
theorem Program.exists_becomes {p : Program} {s' : Stmt} (h : s' ∈ p.simplify.value.stmts) :
    ∃ s ∈ p.stmts, s.Becomes s' := Stmt.exists_becomes h

/-! ### The form of a simplified program -/

namespace Stmt

def target? : Stmt → Option Expr
  | assign t _ | increment t | decrement t => some t
  | _ => none

theorem Typed.isPlace_of_target? {E : Entities} {fn : Option FunctionId} {s : Stmt}
    (h : s.Typed E fn) {t : Expr} (ht : s.target? = some t) : t.isPlace = true := by
  cases h with
  | increment _ _ hp | decrement _ _ hp => cases ht; exact hp
  | assign _ hp => cases ht; exact hp
  | _ => simp [target?] at ht

theorem Becomes.target? {s s' : Stmt} (h : s.Becomes s') {t' : Expr}
    (ht : s'.target? = some t') : ∃ t, s.target? = some t ∧ t' = t.simplify.value := by
  cases h with
  | increment | decrement | assign => cases ht; exact ⟨_, rfl, rfl⟩
  | _ => simp [Stmt.target?] at ht

theorem Becomes.of_call {s : Stmt} {c' : Expr} (h : s.Becomes (.call c')) :
    ∃ c, s = .call c ∧ c' = c.simplify.value := by
  cases h
  exact ⟨_, rfl, rfl⟩

theorem Becomes.isConditional_of_ifElseIf {s : Stmt} {test : Expr} {c : List Stmt} {a : Stmt}
    (h : s.Becomes (.ifElseIf test c a)) : a.isConditional = true := by
  cases h with
  | ifElseIfOne _ ha => exact ha

end Stmt

/-- **Simplifying keeps types and forms.**  A well typed program keeps its tables and stays
well typed, and each of its expressions keeps its type.  What is written to is still a
place, the same variable if it is one, and a call that is a statement is still a call.
Behind `else if` there is a conditional, whatever the statements were before. -/
theorem Program.simplify_wellFormed :
    (∀ p : Program, p.WellTyped →
      p.simplify.value.entities = p.entities ∧ p.simplify.value.WellTyped ∧
      (∀ e ∈ p.exprs, e.simplify.value.Typed p.entities ∧ e.simplify.value.ty = e.ty) ∧
      (∀ s' ∈ p.simplify.value.stmts, ∀ t', s'.target? = some t' →
        ∃ s ∈ p.stmts, s.Becomes s' ∧ ∃ t, s.target? = some t ∧ t' = t.simplify.value ∧
          t'.isPlace = true ∧ t'.var? = t.var?) ∧
      ∀ c', .call c' ∈ p.simplify.value.stmts →
        ∃ c, .call c ∈ p.stmts ∧ c' = c.simplify.value ∧ (c.isCall = true → c'.isCall = true)) ∧
    ∀ (ss : List Stmt) (test : Expr) (c : List Stmt) (a : Stmt),
      .ifElseIf test c a ∈ Stmt.nestedAll (Stmt.simplifyAll ss).value → a.isConditional = true := by
  constructor
  · intro p hp
    refine ⟨rfl, hp.simplify, fun e he => (hp.expr he).simplify, ?_, ?_⟩
    · intro s' hs' t' ht'
      obtain ⟨s, hs, hb⟩ := p.exists_becomes hs'
      obtain ⟨t, ht, rfl⟩ := hb.target? ht'
      obtain ⟨fn, hst⟩ := hp.stmt hs
      have hplace := hst.isPlace_of_target? ht
      exact ⟨s, hs, hb, t, ht, rfl, Expr.isPlace_simplify hplace, Expr.var?_simplify hplace⟩
    · intro c' hc'
      obtain ⟨s, hs, hb⟩ := p.exists_becomes hc'
      obtain ⟨c, rfl, rfl⟩ := hb.of_call
      exact ⟨c, hs, rfl, Expr.isCall_simplify⟩
  · intro ss test c a ha
    obtain ⟨s, _, hb⟩ := Stmt.exists_becomes ha
    exact hb.isConditional_of_ifElseIf

theorem Program.simplify_wellFormed_sample : sampleProgram.WellTyped ∧
    sampleProgram.simplify.value.entities = sampleProgram.entities ∧
    sampleProgram.simplify.value.WellTyped :=
  have h : sampleProgram.WellTyped :=
    wellTyped_of_analyze (show analyze sampleTree = .ok sampleProgram from rfl)
  have kept := simplify_wellFormed.1 sampleProgram h
  ⟨h, kept.1, kept.2.1⟩

end TypedImp
