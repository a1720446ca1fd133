import TypedImp.Proofs.Simplify.Eval
import TypedImp.Proofs.Simplify.Origin

/-!
# Simplifying keeps the meaning of programs

What takes the place of a statement is a list, and a jump out of the list is one out of
the statement, since a list runs like its members one after another
(`Stmt.runAll_append`).  So a list of statements runs like the list in which each member
has been replaced (`Stmt.runAll_simplifyAll`), and this is all that the bodies of
conditionals and loops need.

`Stmt.Typed.run_simplify` is the statement on one statement, for all machines that go by
the types, and `Program.run_simplify_iff` the one on programs.
-/

namespace TypedImp

open Behavior

variable {E : Entities} {m : Machine}

/-! ### Lists of statements -/

namespace Stmt

theorem runAll_append (ss ts : List Stmt) :
    runAll m (ss ++ ts) = runAll m ss >>= fun _ => runAll m ts := by
  induction ss with
  | nil => rw [List.nil_append, runAll, pure_bind]
  | cons s ss ih => rw [List.cons_append, runAll, runAll, ih, bind_assoc]

theorem runAll_singleton (s : Stmt) : runAll m [s] = s.run m := bind_pure_unit

/-- A list runs like the list with other statements in place of each member, if each
member does. -/
theorem runAll_simplifyAll {ss : List Stmt}
    (h : ∀ s ∈ ss, Alike E (fun _ => True) (s.run m) (runAll m s.simplify.value)) :
    Alike E (fun _ => True) (runAll m ss) (runAll m (simplifyAll ss).value) := by
  rw [value_simplifyAll]
  induction ss with
  | nil => exact .pure trivial
  | cons s ss ih =>
    rw [List.flatMap_cons, runAll_append]
    exact (h s List.mem_cons_self).bind fun _ _ => ih fun x hx => h x (List.mem_cons_of_mem s hx)

/-! ### Statements that are left out -/

theorem runAll_choose {test : Expr} {c a : List Stmt} {k : Counted (List Stmt)}
    (hk : runAll m k.value = branch (test.eval m) (runAll m c) (runAll m a)) :
    runAll m (choose test c a k).value = branch (test.eval m) (runAll m c) (runAll m a) := by
  rw [value_choose]
  cases hb : test.bool? with
  | none => exact hk
  | some b =>
    rw [Expr.eval_of_bool? hb, branch, pure_bind]
    cases b <;> rfl

theorem runAll_joinElse (test : Expr) (c a : List Stmt) :
    runAll m (joinElse test c a).value = branch (test.eval m) (runAll m c) (runAll m a) := by
  match a with
  | [] => exact runAll_singleton _
  | [x] =>
    rw [joinElse]
    split
    · exact (runAll_singleton _).trans (by rw [runAll_singleton, run])
    · exact runAll_singleton _
  | x :: y :: zs => exact runAll_singleton _

theorem runAll_dropIf {idle : Bool} {s : Stmt} (h : idle = true → s.run m = pure ()) :
    runAll m (dropIf idle s).value = s.run m := by
  rw [value_dropIf]
  cases idle with
  | true => exact (h rfl).symm
  | false => exact runAll_singleton s

theorem run_whileLoop_of_false {test : Expr} {ss : List Stmt} (h : test.bool? = some false) :
    (whileLoop test ss).run m = pure () := by
  rw [run]
  refine loop_of_stop ?_
  rw [Expr.eval_of_bool? h, branch, pure_bind]

/-- A range whose low bound is above the high one is empty. -/
theorem run_rangeLoop_of_isEmptyRange {id : VariableId} {low high : Expr} {op : RangeOp}
    {ss : List Stmt} (h : isEmptyRange low high = true) :
    (rangeLoop id low op high ss).run m = pure () := by
  rw [isEmptyRange] at h
  cases hl : low.number? with
  | none => rw [hl] at h; cases h
  | some x =>
    cases hh : high.number? with
    | none => rw [hl, hh] at h; cases h
    | some y =>
      rw [hl, hh] at h
      rw [run, Expr.eval_of_number? hl, Expr.eval_of_number? hh, pure_bind, pure_bind]
      refine loop_of_stop ?_
      have hcovers : op.covers y x = false := by simp [RangeOp.covers, of_decide_eq_true h]
      rw [rangeTurn, hcovers]
      rfl

theorem run_collectionLoop_of_isEmptyArray {id : VariableId} {e : Expr} {ss : List Stmt}
    (h : e.isEmptyArray = true) : (collectionLoop id e ss).run m = pure () := by
  unfold Expr.isEmptyArray at h
  split at h
  · rw [run, Expr.eval, Expr.evalAll, pure_bind, pure_bind]
    exact loop_of_stop rfl
  · cases h

theorem run_assign_of_isSelfAssignment {t e : Expr} (h : isSelfAssignment t e = true) :
    (assign t e).run m = pure () := by
  cases t with
  | var id =>
    cases e with
    | var id' =>
      obtain rfl : id = id' := by simpa [isSelfAssignment, Expr.var?] using h
      rw [run, Expr.place, Expr.eval, pure_bind]
      exact load_bind_save id
    | _ => simp [isSelfAssignment, Expr.var?] at h
  | _ => simp [isSelfAssignment, Expr.var?] at h

/-! ### Statements -/

def NoIdentity (s : Stmt) : Prop := ∀ s' ∈ s.nested, ∀ e ∈ s'.exprs, e.NoIdentity

theorem NoIdentity.of_part {s part : Stmt} (h : s.NoIdentity) (hp : part ∈ s.parts) :
    part.NoIdentity := fun s' hs' => h s' (mem_nested_of_part hp hs')

theorem NoIdentity.of_exprs {s : Stmt} (h : s.NoIdentity) {e : Expr} (he : e ∈ s.exprs) :
    e.NoIdentity := h s (mem_nested_self s) e he

/-- A conditional runs like the side that is chosen when its parts are simplified. -/
theorem branch_simplify (hm : m.Respects E) {test : Expr} (ht : test.Typed E)
    (hb : test.ty = .bool) (hid : test.NoIdentity) {f g : Behavior Unit} {c a : List Stmt}
    {k : Counted (List Stmt)} (hc : Alike E (fun _ => True) f (runAll m c))
    (ha : Alike E (fun _ => True) g (runAll m a))
    (hk : runAll m k.value = branch (test.simplify.value.eval m) (runAll m c) (runAll m a)) :
    Alike E (fun _ => True) (branch (test.eval m) f g)
      (runAll m (choose test.simplify.value c a k).value) := by
  have htest := ht.eval_simplify hm hid
  rw [hb] at htest
  rw [runAll_choose hk]
  exact .branch htest hc ha

/-- **A statement and what takes its place do the same**, if no identity applies. -/
theorem Typed.run_simplify (hm : m.Respects E) {fn : Option FunctionId} {s : Stmt}
    (h : s.Typed E fn) (hid : s.NoIdentity) :
    Alike E (fun _ => True) (s.run m) (runAll m s.simplify.value) := by
  have one : ∀ {f : Behavior Unit} {s' : Stmt}, Alike E (fun _ => True) f (s'.run m) →
      Alike E (fun _ => True) f (runAll m [s']) := by
    intro f s' h
    rwa [runAll_singleton]
  induction h with
  | @declareVariable _ id e ty hv he =>
    cases e with
    | none => exact one (.save hv (hm.initial hv))
    | some e =>
      obtain ⟨het, rfl⟩ := he e rfl
      refine one ((het.eval_simplify hm (hid.of_exprs ?_)).bind fun v hval => .save hv hval)
      exact List.mem_singleton_self e
  | declareFunction | declareStruct | declareClass => exact one (.pure trivial)
  | @ifThen _ test c ht hb _ ih =>
    have htid := hid.of_exprs (List.mem_singleton_self test)
    have hc := runAll_simplifyAll fun s hs => ih s hs (hid.of_part hs)
    exact branch_simplify hm ht hb htid hc (.pure trivial) (runAll_singleton _)
  | @ifElse _ test c a ht hb _ _ ihc iha =>
    have htid := hid.of_exprs (List.mem_singleton_self test)
    have hc := runAll_simplifyAll fun s hs => ihc s hs (hid.of_part (List.mem_append_left a hs))
    have ha := runAll_simplifyAll fun s hs => iha s hs (hid.of_part (List.mem_append_right c hs))
    exact branch_simplify hm ht hb htid hc ha (runAll_singleton _)
  | @ifElseIf _ test c a ht hb _ _ ihc iha =>
    have htid := hid.of_exprs (List.mem_singleton_self test)
    have hc := runAll_simplifyAll fun s hs => ihc s hs (hid.of_part (List.mem_append_left [a] hs))
    have ha := iha (hid.of_part (List.mem_append_right c (List.mem_singleton_self a)))
    exact branch_simplify hm ht hb htid hc ha (runAll_joinElse ..)
  | @whileLoop _ test ss ht hb _ ih =>
    have htest := ht.eval_simplify hm (hid.of_exprs (List.mem_singleton_self test))
    have hss := runAll_simplifyAll fun s hs => ih s hs (hid.of_part hs)
    rw [hb] at htest
    have hkept : runAll m (Stmt.whileLoop test ss).simplify.value = _ :=
      runAll_dropIf fun h => run_whileLoop_of_false (by simpa using h)
    rw [hkept]
    refine .loop (I := fun _ => True) (fun _ _ => ?_) trivial
    exact .branch htest (.body hss trivial) (.pure (by simp))
  | @rangeLoop _ id low high op ss hl hln hh hhn hv _ ih =>
    have hlow := hl.eval_simplify hm (hid.of_exprs List.mem_cons_self)
    have hhigh := hh.eval_simplify hm (hid.of_exprs (e := high) (by simp [exprs]))
    have hss := runAll_simplifyAll fun s hs => ih s hs (hid.of_part hs)
    rw [hln] at hlow
    rw [hhn] at hhigh
    have hkept : runAll m (Stmt.rangeLoop id low op high ss).simplify.value = _ :=
      runAll_dropIf fun h => run_rangeLoop_of_isEmptyRange h
    rw [hkept]
    refine hlow.bind fun v hval => hhigh.bind fun w hwal => ?_
    obtain ⟨x, rfl⟩ := hval.exists_number
    obtain ⟨y, rfl⟩ := hwal.exists_number
    exact .loop (I := fun _ => True) (fun x _ => .rangeTurn hv op y hss x) trivial
  | @collectionLoop _ id e ss ty he ht hv _ ih =>
    have hcollection := he.eval_simplify hm (hid.of_exprs (List.mem_singleton_self e))
    have hss := runAll_simplifyAll fun s hs => ih s hs (hid.of_part hs)
    rw [ht] at hcollection
    have hkept : runAll m (Stmt.collectionLoop id e ss).simplify.value = _ :=
      runAll_dropIf fun h => run_collectionLoop_of_isEmptyArray h
    rw [hkept]
    refine hcollection.bind fun v hval => ?_
    obtain ⟨vs, rfl, hvs⟩ := hval.exists_array
    exact .loop (I := fun vs => ∀ v ∈ vs, v.HasTy E ty)
      (fun vs hvs => .collectionTurn hv hss hvs) hvs
  | @ret _ _ e _ _ he =>
    have hvalue := he.eval_simplify hm (hid.of_exprs (List.mem_singleton_self e))
    exact one (hvalue.bind fun _ _ => .jump _)
  | retVoid | breakLoop | continueLoop => exact one (.jump _)
  | @tryCatch _ ss handler error _ he _ ihs ihh =>
    have hss := runAll_simplifyAll fun s hs => ihs s hs
      (hid.of_part (List.mem_append_left handler hs))
    have hhandler := runAll_simplifyAll fun s hs => ihh s hs
      (hid.of_part (List.mem_append_right ss hs))
    exact one (.rescue hss fun message => (Alike.receive he message).bind fun _ _ => hhandler)
  | @print _ e he =>
    have hvalue := he.eval_simplify hm (hid.of_exprs (List.mem_singleton_self e))
    exact one (hvalue.bind fun v _ => .emit v)
  | @increment _ e he ht hp =>
    have hplace := he.place_simplify hm (hid.of_exprs (List.mem_singleton_self e))
      (Expr.isOperator_of_isPlace hp)
    rw [ht] at hplace
    exact one (hplace.bind fun p hpt => .change hpt _)
  | @decrement _ e he ht hp =>
    have hplace := he.place_simplify hm (hid.of_exprs (List.mem_singleton_self e))
      (Expr.isOperator_of_isPlace hp)
    rw [ht] at hplace
    exact one (hplace.bind fun p hpt => .change hpt _)
  | @assign _ t e ht hp he hty =>
    have hplace := ht.place_simplify hm (hid.of_exprs List.mem_cons_self)
      (Expr.isOperator_of_isPlace hp)
    have hvalue := he.eval_simplify hm (hid.of_exprs (e := e) (by simp [exprs]))
    rw [hty] at hvalue
    have hkept : runAll m (Stmt.assign t e).simplify.value = _ :=
      runAll_dropIf fun h => run_assign_of_isSelfAssignment h
    rw [hkept]
    exact hplace.bind fun p hpt => hvalue.bind fun v hvt => .write hpt hvt
  | @call _ e he =>
    have hvalue := he.eval_simplify hm (hid.of_exprs (List.mem_singleton_self e))
    exact one (hvalue.bind fun _ _ => .pure trivial)

end Stmt

/-! ### Programs -/

namespace Program

def NoIdentity (p : Program) : Prop := ∀ e ∈ p.exprs, e.meetsIdentity = false

theorem NoIdentity.stmt {p : Program} (h : p.NoIdentity) {s : Stmt} (hs : s ∈ p.stmts) :
    s.NoIdentity := fun _ hs' whole hw e he =>
  h e (mem_exprs_iff.mpr ⟨_, mem_stmts_of_nested hs hs', whole, hw, he⟩)

/-- **A program and its simplified form do the same**, and so do the bodies of their
functions, if no identity applies: from every typed store and for every machine that
goes by the types, one has an end exactly if the other has it. -/
theorem run_simplify_iff {tree : List Tree.Stmt} {p : Program} (h : analyze tree = .ok p)
    (hid : p.NoIdentity) {m : Machine} (hm : m.Respects p.entities) {s : Store}
    (hs : s.Typed p.entities) :
    (∀ r out s', Stmt.runAll m p.statements s r out s' ↔
      Stmt.runAll m p.simplify.value.statements s r out s') ∧
    (∀ id params body, .declareFunction id params body ∈ p.stmts →
      ∀ r out s', Stmt.runAll m body s r out s' ↔
        Stmt.runAll m (Stmt.simplifyAll body).value s r out s') ∧
    ∀ id params body', .declareFunction id params body' ∈ p.simplify.value.stmts →
      ∃ body, .declareFunction id params body ∈ p.stmts ∧
        body' = (Stmt.simplifyAll body).value := by
  have hp := wellTyped_of_analyze h
  have same : ∀ {fn : Option FunctionId} {ss : List Stmt}, (∀ x ∈ ss, x.Typed p.entities fn) →
      (∀ x ∈ ss, x ∈ p.stmts) → ∀ r out s', Stmt.runAll m ss s r out s' ↔
        Stmt.runAll m (Stmt.simplifyAll ss).value s r out s' := by
    intro fn ss ht hss r out s'
    have halike := Stmt.runAll_simplifyAll fun x hx =>
      (ht x hx).run_simplify hm (hid.stmt (hss x hx))
    exact halike.iff hs
  refine ⟨same hp fun x hx => ?_, fun id params body hf => ?_, fun id params body' hf => ?_⟩
  · exact Stmt.mem_nestedAll.mpr ⟨x, hx, x.mem_nested_self⟩
  · obtain ⟨fn, ht⟩ := hp.stmt hf
    cases ht with
    | declareFunction _ _ hbody =>
      refine same hbody fun x hx => mem_stmts_of_nested hf ?_
      exact Stmt.mem_nested_of_part hx x.mem_nested_self
  · obtain ⟨x, hx, hb⟩ := p.exists_becomes hf
    cases hb with
    | declareFunction => exact ⟨_, hx, rfl⟩

end Program

/-- A machine for `sampleProgram` on which `f` returns its argument and all other calls
throw. -/
def sampleMachine : Machine where
  initial id := if id.index = 1 then .record ⟨0⟩ fun _ => .array [] else .number 0
  call f args s r out s' := out = [] ∧ s' = s ∧
    match f, args with
    | .func ⟨8⟩, [v] => r = .ok v
    | _, _ => r = .error "Call of an unknown function"
  same _ _ := false

theorem sampleMachine_initial : Store.Typed sampleProgram.entities sampleMachine.initial := by
  rintro ⟨i⟩ ty ⟨row, hr, rfl⟩
  match i with
  | 0 => cases hr; exact .number
  | 1 =>
    cases hr
    refine .record fun name field hf => ?_
    obtain rfl : field = ⟨"next", .array (.struct ⟨0⟩)⟩ :=
      List.mem_singleton.mp (List.mem_of_find?_eq_some hf)
    exact .array (by simp)
  | 2 => cases hr; exact .number
  | i + 3 => cases hr

theorem sampleMachine_respects : sampleMachine.Respects sampleProgram.entities where
  initial := sampleMachine_initial
  call := by
    rintro f args signature s r out s' hf hargs hs ⟨_, rfl, hr⟩
    refine ⟨hs, ?_⟩
    split at hr
    · rintro v rfl
      cases hr
      obtain ⟨row, hrow, hsig⟩ : sampleProgram.entities.HasFunction ⟨8⟩ signature := by
        cases hf with
        | func hf => exact hf
      cases hrow
      subst hsig
      cases hargs with
      | cons hv _ => exact hv
    · rintro v rfl
      cases hr

/-- The sample prints `0`. -/
theorem sampleProgram_run : ∃ s', Stmt.runAll sampleMachine sampleProgram.statements
    sampleMachine.initial (.ok ()) [.number 0] s' := by
  simp only [sampleProgram, Stmt.runAll, Stmt.run, Expr.eval, pure_bind, bind_pure_unit]
  refine ⟨Function.update sampleMachine.initial ⟨2⟩ (.number 0), ?_⟩
  refine bind_of_silent ⟨rfl, rfl, rfl⟩ ?_
  refine bind_of_silent (a := .bool true) (bind_of_silent ⟨rfl, rfl, rfl⟩ ⟨rfl, rfl, rfl⟩) ?_
  exact bind_of_silent ⟨rfl, rfl, rfl⟩ ⟨rfl, rfl, rfl⟩

/-- In the sample a comparison is folded, a conditional loses its `else`, and an assignment
is left out; it still prints `0`. -/
theorem Program.run_simplify_iff_sample : sampleProgram.NoIdentity ∧
    sampleMachine.Respects sampleProgram.entities ∧
    Store.Typed sampleProgram.entities sampleMachine.initial ∧
    ∃ s', Stmt.runAll sampleMachine sampleProgram.simplify.value.statements sampleMachine.initial
      (.ok ()) [.number 0] s' :=
  have hid : sampleProgram.NoIdentity := by
    unfold NoIdentity
    decide
  have same := run_simplify_iff (show analyze sampleTree = .ok sampleProgram from rfl) hid
    sampleMachine_respects sampleMachine_initial
  have ⟨s', hs'⟩ := sampleProgram_run
  ⟨hid, sampleMachine_respects, sampleMachine_initial, s', (same.1 ..).mp hs'⟩

end TypedImp
