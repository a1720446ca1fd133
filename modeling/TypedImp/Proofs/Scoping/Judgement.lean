import TypedImp.Proofs.Parts
import TypedImp.Scope

/-!
# Scoping rules

`Stmt.Scoped V s` says that a statement uses only what is visible where it uses it,
when the entities `V` are visible in front of it.  What a statement declares is
visible behind it up to the end of its list, which `Stmt.ScopedAll` says of a list;
nothing that is declared within braces is visible behind them.

* An initial value is looked at before its variable is visible.
* A function is visible in its own body.  The fields of a struct hold no expressions,
  so a struct asks for nothing.
* Parameters, iterators and the variable of a caught error are visible in the one list
  of statements that they belong to.

The rules speak of rows of tables only, so they make sense of a program whose names
are gone.  More that is visible does no harm (`ScopedAll.mono`).
-/

namespace TypedImp

/-- The identity of something that has a row in a table. -/
inductive EntityId where
  | var (id : VariableId)
  | func (id : FunctionId)
  | struct (id : StructId)
deriving DecidableEq, Repr

/-- What is visible stays so when more is. -/
theorem EntityId.append_subset_append (new : List EntityId) {V W : List EntityId} (h : V ⊆ W) :
    new ++ V ⊆ new ++ W :=
  List.append_subset.mpr ⟨List.subset_append_left _ _, List.subset_append_of_subset_right _ h⟩

def EntityId.builtins : List EntityId :=
  (List.range Entities.initial.vars.size).map (fun i => .var ⟨i⟩) ++
    (List.range Entities.initial.funcs.size).map fun i => .func ⟨i⟩

/-! ### What an expression uses -/

namespace Expr

def entity? : Expr → Option EntityId
  | var id _ => some (.var id)
  | func id _ => some (.func id)
  | struct id _ => some (.struct id)
  | _ => none

def uses (e : Expr) : List EntityId := e.nested.filterMap entity?

theorem uses_eq (e : Expr) : e.uses = e.entity?.toList ++ e.parts.flatMap uses := by
  rw [uses, nested_eq_cons, List.filterMap_cons, List.filterMap_flatMap]
  cases e.entity? <;> rfl

theorem mem_uses_iff {e : Expr} {i : EntityId} :
    i ∈ e.uses ↔ e.entity? = some i ∨ ∃ part ∈ e.parts, i ∈ part.uses := by
  rw [uses_eq, List.mem_append, Option.mem_toList, List.mem_flatMap]

theorem uses_subset_iff {e : Expr} {V : List EntityId} :
    e.uses ⊆ V ↔ (∀ i, e.entity? = some i → i ∈ V) ∧ ∀ part ∈ e.parts, part.uses ⊆ V := by
  constructor
  · intro h
    exact ⟨fun i hi => h (mem_uses_iff.mpr (.inl hi)),
      fun part hp i hi => h (mem_uses_iff.mpr (.inr ⟨part, hp, hi⟩))⟩
  · rintro ⟨hself, hparts⟩ i hi
    rcases mem_uses_iff.mp hi with hi | ⟨part, hp, hi⟩
    · exact hself i hi
    · exact hparts part hp hi

end Expr

/-! ### What a statement declares and uses -/

namespace Stmt

def declared : Stmt → List EntityId
  | declareVariable id _ => [.var id]
  | declareFunction id _ _ => [.func id]
  | declareStruct id | declareClass id => [.struct id]
  | _ => []

theorem declared_of_isConditional {s : Stmt} (h : s.isConditional = true) : s.declared = [] := by
  cases s with
  | ifThen | ifElse | ifElseIf => rfl
  | _ => simp [isConditional] at h

def declaredAll (ss : List Stmt) : List EntityId := ss.flatMap declared

mutual

/-- **The scoping rules of statements**: whatever is used is visible there. -/
def Scoped (V : List EntityId) : Stmt → Prop
  | declareVariable _ e | ret e => ∀ x ∈ e, x.uses ⊆ V
  | declareFunction id params body => ScopedAll (params.map .var ++ .func id :: V) body
  | declareStruct _ | declareClass _ | breakLoop | continueLoop => True
  | ifThen test c => test.uses ⊆ V ∧ ScopedAll V c
  | ifElse test c a => test.uses ⊆ V ∧ ScopedAll V c ∧ ScopedAll V a
  | ifElseIf test c a => test.uses ⊆ V ∧ ScopedAll V c ∧ Scoped V a
  | whileLoop test body => test.uses ⊆ V ∧ ScopedAll V body
  | rangeLoop id low _ high body =>
    low.uses ⊆ V ∧ high.uses ⊆ V ∧ ScopedAll (.var id :: V) body
  | collectionLoop id e body => e.uses ⊆ V ∧ ScopedAll (.var id :: V) body
  | tryCatch body error handler =>
    ScopedAll V body ∧ ScopedAll (error.toList.map .var ++ V) handler
  | print e | increment e | decrement e | call e => e.uses ⊆ V
  | assign t e => t.uses ⊆ V ∧ e.uses ⊆ V

/-- What a statement declares is visible in the statements behind it. -/
def ScopedAll (V : List EntityId) : List Stmt → Prop
  | [] => True
  | s :: ss => s.Scoped V ∧ ScopedAll (s.declared ++ V) ss

end

/-- What all statements of a list bind where it stands, be it for the statements behind
it or for those within it. -/
def bound : Stmt → List EntityId
  | declareVariable id _ | rangeLoop id .. | collectionLoop id .. => [.var id]
  | declareFunction id params _ => .func id :: params.map .var
  | declareStruct id | declareClass id => [.struct id]
  | tryCatch _ error _ => error.toList.map .var
  | _ => []

/-! ### More that is visible -/

mutual

theorem Scoped.mono {V W : List EntityId} (h : V ⊆ W) (s : Stmt) (hs : s.Scoped V) :
    s.Scoped W := by
  cases s with
  | declareVariable | ret => exact fun x hx => List.Subset.trans (hs x hx) h
  | declareStruct | declareClass | breakLoop | continueLoop => trivial
  | declareFunction id params body =>
    exact ScopedAll.mono (EntityId.append_subset_append _ (List.cons_subset_cons _ h)) body hs
  | ifThen test c | whileLoop test c => exact ⟨List.Subset.trans hs.1 h, ScopedAll.mono h c hs.2⟩
  | ifElse test c a =>
    exact ⟨List.Subset.trans hs.1 h, ScopedAll.mono h c hs.2.1, ScopedAll.mono h a hs.2.2⟩
  | ifElseIf test c a =>
    exact ⟨List.Subset.trans hs.1 h, ScopedAll.mono h c hs.2.1, Scoped.mono h a hs.2.2⟩
  | rangeLoop id low op high body =>
    exact ⟨List.Subset.trans hs.1 h, List.Subset.trans hs.2.1 h,
      ScopedAll.mono (List.cons_subset_cons _ h) body hs.2.2⟩
  | collectionLoop id e body =>
    exact ⟨List.Subset.trans hs.1 h, ScopedAll.mono (List.cons_subset_cons _ h) body hs.2⟩
  | tryCatch body error handler =>
    exact ⟨ScopedAll.mono h body hs.1,
      ScopedAll.mono (EntityId.append_subset_append _ h) handler hs.2⟩
  | print | increment | decrement | call => exact List.Subset.trans hs h
  | assign => exact ⟨List.Subset.trans hs.1 h, List.Subset.trans hs.2 h⟩
termination_by structural s

/-- **More that is visible does no harm.** -/
theorem ScopedAll.mono {V W : List EntityId} (h : V ⊆ W) (ss : List Stmt)
    (hss : ScopedAll V ss) : ScopedAll W ss := by
  cases ss with
  | nil => trivial
  | cons s ss =>
    exact ⟨Scoped.mono h s hss.1, ScopedAll.mono (EntityId.append_subset_append _ h) ss hss.2⟩
termination_by structural ss

end

theorem scopedAll_singleton {V : List EntityId} {s : Stmt} : ScopedAll V [s] ↔ s.Scoped V := by
  simp [ScopedAll]

/-- The second of two lists in a row sees what the first one declares. -/
theorem scopedAll_append {V : List EntityId} {ss ts : List Stmt} (hss : ScopedAll V ss)
    (hts : ScopedAll (declaredAll ss ++ V) ts) : ScopedAll V (ss ++ ts) := by
  induction ss generalizing V with
  | nil => exact hts
  | cons s ss ih =>
    refine ⟨hss.1, ih hss.2 (hts.mono ?_ ts)⟩
    rw [declaredAll, List.flatMap_cons, List.append_assoc]
    refine List.append_subset.mpr ⟨fun i hi => ?_, ?_⟩
    · exact List.mem_append_right _ (List.mem_append_left _ hi)
    · exact EntityId.append_subset_append _ (List.subset_append_right _ _)

end Stmt

/-! ### Programs -/

/-- Every use of a variable, function or struct in a program is one of something that is
visible there. -/
def Program.Scoped (p : Program) : Prop := Stmt.ScopedAll EntityId.builtins p.statements

def Program.bound (p : Program) : List EntityId := p.stmts.flatMap Stmt.bound

end TypedImp
