import TypedImp.Proofs.Simplify.Origin
import TypedImp.Proofs.Tables.Names

/-!
# Names in one list of statements

In a checked program no list of statements declares a name twice.  A list is checked in one frame,
which every declaration adds its name to, and a name that the frame has is refused
(`Env.Leads.distinct`).  That a declaration is known by the index of its row makes no difference,
since rows keep their names (`Entities.KeepsNames`).

Simplifying does not keep this.  A conditional whose test is a literal leaves the statements of
one side behind, and what they declare comes to stand in the list around the conditional.
`Stmt.laidOpenAll` is what a list declares after that, and `Program.distinct_simplify_iff` the
condition for the names to differ: they have to differ among what is laid open.  There are
programs that do not meet it (`exists_name_repeated`).
-/

namespace TypedImp

/-! ### Lists of statements -/

namespace Stmt

/-- The lists of statements directly in a statement; the alternate of an `else if` is one of
a single statement. -/
def lists : Stmt → List (List Stmt)
  | declareFunction _ _ body | ifThen _ body | whileLoop _ body | rangeLoop _ _ _ _ body
  | collectionLoop _ _ body => [body]
  | ifElse _ c a => [c, a]
  | ifElseIf _ c a => [c, [a]]
  | tryCatch body _ handler => [body, handler]
  | _ => []

def listsAll (ss : List Stmt) : List (List Stmt) := ss :: (nestedAll ss).flatMap lists

theorem flatten_lists (s : Stmt) : s.lists.flatten = s.parts := by
  cases s with
  | declareFunction _ _ body | ifThen _ body | whileLoop _ body | rangeLoop _ _ _ _ body
  | collectionLoop _ _ body => exact List.append_nil body
  | ifElse | ifElseIf | tryCatch => simp [lists, parts]
  | _ => rfl

/-- The lists within a list: it, those within the lists of the first statement, and those within
the other statements. -/
theorem mem_listsAll_cons {s : Stmt} {ss l : List Stmt} (h : l ∈ listsAll (s :: ss)) :
    l = s :: ss ∨ (∃ own ∈ s.lists, l ∈ listsAll own) ∨ l ∈ listsAll ss := by
  rcases List.mem_cons.mp h with h | h
  · exact .inl h
  obtain ⟨x, hx, hl⟩ := List.mem_flatMap.mp h
  have within {ts : List Stmt} (hx : x ∈ nestedAll ts) : l ∈ listsAll ts :=
    List.mem_cons_of_mem _ (List.mem_flatMap.mpr ⟨x, hx, hl⟩)
  rcases List.mem_append.mp hx with hx | hx
  · rcases mem_nested_iff.mp hx with rfl | ⟨part, hp, hx⟩
    · exact .inr (.inl ⟨l, hl, List.mem_cons_self⟩)
    · rw [← flatten_lists] at hp
      obtain ⟨own, hown, hp⟩ := List.mem_flatten.mp hp
      exact .inr (.inl ⟨own, hown, within (mem_nestedAll.mpr ⟨part, hp, hx⟩)⟩)
  · exact .inr (.inr (within hx))

theorem lists_of_isPlain {s : Stmt} (h : s.isPlain = true) : s.lists = [] ∧ s.declared = [] := by
  cases s with
  | ret | breakLoop | continueLoop | print | increment | decrement | assign | call =>
    exact ⟨rfl, rfl⟩
  | _ => cases h

end Stmt

def Program.lists (p : Program) : List (List Stmt) := Stmt.listsAll p.statements

/-! ### Names that are kept -/

namespace Entities

def KeepsNames (e e' : Entities) : Prop :=
  ∀ x, e.HasRow x → e'.HasRow x ∧ e'.nameAt x = e.nameAt x

theorem KeepsNames.refl (e : Entities) : e.KeepsNames e := fun _ h => ⟨h, rfl⟩

theorem KeepsNames.trans {e₁ e₂ e₃ : Entities} (h : e₁.KeepsNames e₂) (g : e₂.KeepsNames e₃) :
    e₁.KeepsNames e₃ := fun x hx =>
  ⟨(g x (h x hx).1).1, (g x (h x hx).1).2.trans (h x hx).2⟩

theorem Kept.keepsNames {e e' : Entities} (h : e.Kept e') : e.KeepsNames e' := by
  intro x hx
  have hsize := h.noShorter
  cases x with
  | var id =>
    refine ⟨Nat.lt_of_lt_of_le hx hsize.vars, ?_⟩
    rw [nameAt, nameAt, variableAt, variableAt, Array.getElem?_eq_getElem hx,
      h.vars (Array.getElem?_eq_getElem hx)]
  | func id =>
    refine ⟨Nat.lt_of_lt_of_le hx hsize.funcs, ?_⟩
    rw [nameAt, nameAt, functionAt, functionAt, Array.getElem?_eq_getElem hx,
      h.funcs (Array.getElem?_eq_getElem hx)]
  | struct id =>
    refine ⟨Nat.lt_of_lt_of_le hx hsize.structs, ?_⟩
    rw [nameAt, nameAt, structAt, structAt, Array.getElem?_eq_getElem hx,
      h.structs (Array.getElem?_eq_getElem hx)]

/-- A row that is completed keeps its name. -/
theorem keepsNames_setSignature (E : Entities) (target : FunctionId) (signature : Signature) :
    E.KeepsNames (E.setSignature target signature) := by
  intro x hx
  cases x with
  | var | struct => exact ⟨hx, rfl⟩
  | func id =>
    obtain ⟨signature', hrow⟩ := functionAt_setSignature E target signature id
    refine ⟨Nat.lt_of_lt_of_le hx (E.noShorter_setSignature target signature).funcs, ?_⟩
    rw [nameAt, nameAt, hrow]

theorem keepsNames_setFields (E : Entities) (target : StructId) (fields : List Field) :
    E.KeepsNames (E.setFields target fields) := by
  intro x hx
  cases x with
  | var | func => exact ⟨hx, rfl⟩
  | struct id =>
    refine ⟨Nat.lt_of_lt_of_le hx (E.noShorter_setFields target fields).structs, ?_⟩
    rw [nameAt, nameAt, structAt, structAt, setFields, Array.getElem?_modify,
      Array.getElem?_eq_getElem hx]
    split <;> rfl

/-- **No step takes away a row or its name.** -/
theorem Steps.keepsNames {S : Stmt → Prop} {E E' : Entities} (h : Steps S E E') :
    E.KeepsNames E' := by
  refine h.induction (.refl E) fun e e' _ hstep hnames => hnames.trans ?_
  cases hstep with
  | addVariable => exact (e.kept_addVariable _).keepsNames
  | addFunction => exact (e.kept_addFunction _).keepsNames
  | addStruct => exact (e.kept_addStruct _).keepsNames
  | setSignature => exact e.keepsNames_setSignature _ _
  | setFields => exact e.keepsNames_setFields _ _

theorem addVariable_row (E : Entities) (v : Variable) :
    (E.addVariable v).HasRow (.var E.nextVariable) ∧
      (E.addVariable v).nameAt (.var E.nextVariable) = v.name := by
  simp [HasRow, nameAt, variableAt, addVariable, nextVariable]

theorem addFunction_row (E : Entities) (f : Function) :
    (E.addFunction f).HasRow (.func E.nextFunction) ∧
      (E.addFunction f).nameAt (.func E.nextFunction) = f.name := by
  simp [HasRow, nameAt, functionAt, addFunction, nextFunction]

theorem addStruct_row (E : Entities) (s : Struct) :
    (E.addStruct s).HasRow (.struct E.nextStruct) ∧
      (E.addStruct s).nameAt (.struct E.nextStruct) = s.name := by
  simp [HasRow, nameAt, structAt, addStruct, nextStruct]

/-- The names that statements declare differ. -/
def Distinct (E : Entities) (ss : List Stmt) : Prop := ((Stmt.declaredAll ss).map E.nameAt).Nodup

instance (E : Entities) (ss : List Stmt) : Decidable (E.Distinct ss) :=
  inferInstanceAs (Decidable (List.Nodup _))

end Entities

/-! ### Checking -/

theorem Scope.declares_bind (s : Scope) (name x : String) (b : Binding) :
    (s.bind name b).declares x = (x == name || s.declares x) := by
  rw [declares, declares, Frame.find?, Frame.find?, bind, List.lookup_cons]
  cases x == name <;> rfl

namespace Checking

open Entities

/-- A name is declared that the frame did not have. -/
structure Env.Declares (env : Env) (x : EntityId) (next : Env) : Prop where
  row : next.entities.HasRow x
  new : env.scope.declares (next.entities.nameAt x) = false
  scope : ∃ b, next.scope = env.scope.bind (next.entities.nameAt x) b

variable {env env' : Env}

/-- A new row, and the tables when it has been completed. -/
theorem Env.declares_of_keepsNames {x : EntityId} {name : Tree.Name} {b : Binding}
    {start E : Entities} (hnew : env.scope.declares name.text = false) (hrow : start.HasRow x)
    (hname : start.nameAt x = name.text) (hkeeps : start.KeepsNames E) :
    env.Declares x ⟨env.scope.bind name.text b, E⟩ := by
  have hname' : E.nameAt x = name.text := (hkeeps x hrow).2.trans hname
  refine ⟨(hkeeps x hrow).1, ?_, b, ?_⟩
  · rw [hname', hnew]
  · rw [hname']

theorem declareVariable_declares {name : Tree.Name} {readOnly : Bool} {type : Option Tree.TypeExpr}
    {written : Option Tree.Expr} {span : Span} {s : Stmt}
    (h : declareVariable env name readOnly type written span = .ok (s, env')) :
    s.lists = [] ∧ ∃ x, s.declared = [x] ∧ env.Declares x env' := by
  obtain ⟨e, ty, hnew, _, _, _, rfl, rfl⟩ := declareVariable_eq_ok h
  obtain ⟨hrow, hname⟩ := env.entities.addVariable_row ⟨name.text, readOnly, ty⟩
  exact ⟨rfl, _, rfl, Env.declares_of_keepsNames hnew hrow hname (.refl _)⟩

theorem declareStruct_declares {name : Tree.Name} {fields : List Tree.Annotated} {isClass : Bool}
    {span : Span} {s : Stmt} (h : declareStruct env name fields isClass span = .ok (s, env')) :
    s.lists = [] ∧ ∃ x, s.declared = [x] ∧ env.Declares x env' := by
  obtain ⟨rows, _, hnew, _, _, rfl, rfl⟩ := declareStruct_eq_ok h
  obtain ⟨hrow, hname⟩ := env.entities.addStruct_row ⟨name.text, [], isClass⟩
  have hdeclares := Env.declares_of_keepsNames (b := .struct env.entities.nextStruct) hnew hrow
    hname (keepsNames_setFields _ env.entities.nextStruct rows)
  cases isClass with
  | false => exact ⟨rfl, _, rfl, hdeclares⟩
  | true => exact ⟨rfl, _, rfl, hdeclares⟩

theorem openFunction_declares {name : Tree.Name} {params : List Tree.Annotated}
    {result : Option Tree.TypeExpr} {f : OpenFunction}
    (h : openFunction env name params result = .ok f) :
    env.Declares (.func f.id) ⟨f.outer, f.inner.entities⟩ := by
  obtain ⟨ty, ids, tys, inner, hnew, _, hparams, rfl⟩ := openFunction_eq_ok h
  obtain ⟨hrow, hname⟩ := env.entities.addFunction_row ⟨name.text, ⟨[], .void⟩, false⟩
  have hsteps := (hparams.steps (S := fun _ => True)).keepsNames
  exact Env.declares_of_keepsNames hnew hrow hname (hsteps.trans (keepsNames_setSignature _ _ _))

/-! ### Statements -/

theorem Env.Declares.gained {x : EntityId} {next : Env} (h : env.Declares x next) :
    next.scope.declares (next.entities.nameAt x) = true := by
  obtain ⟨b, hscope⟩ := h.scope
  rw [hscope, Scope.declares_bind, beq_self_eq_true, Bool.true_or]

/-- No frame loses a name. -/
theorem Env.Declares.grows {x : EntityId} {next : Env} (h : env.Declares x next) {name : String}
    (hname : env.scope.declares name = true) : next.scope.declares name = true := by
  obtain ⟨b, hscope⟩ := h.scope
  rw [hscope, Scope.declares_bind, hname, Bool.or_true]

theorem Env.Leads.grows {env last : Env} {ss : List Stmt} (h : env.Leads ss last) {name : String}
    (hname : env.scope.declares name = true) : last.scope.declares name = true := by
  induction h with
  | nil => exact hname
  | plain _ _ _ ih => exact ih hname
  | declareVariable h _ ih =>
    obtain ⟨-, x, -, hx⟩ := declareVariable_declares h
    exact ih (hx.grows hname)
  | declareStruct h _ ih =>
    obtain ⟨-, x, -, hx⟩ := declareStruct_declares h
    exact ih (hx.grows hname)
  | declareFunction h _ _ _ ih => exact ih ((openFunction_declares h).grows hname)
  | ifThen _ _ _ _ ih | whileLoop _ _ _ _ ih | ifElse _ _ _ _ _ _ ih => exact ih hname
  | rangeLoop _ _ _ _ _ _ ih | collectionLoop _ _ _ _ _ _ ih => exact ih hname
  | tryCatch _ _ _ _ _ _ ih => exact ih hname
  | ifElseIf _ _ _ _ _ iha ih => exact ih (iha hname)

/-- The names of a list, in the tables at the end, are new to the frame in front of it, and those
of each list within it differ. -/
structure Env.Distinct (env : Env) (E : Entities) (ss : List Stmt) : Prop where
  new : ∀ x ∈ Stmt.declaredAll ss, env.scope.declares (E.nameAt x) = false
  lists : ∀ l ∈ Stmt.listsAll ss, E.Distinct l

variable {E : Entities} {s : Stmt} {ss : List Stmt} {next : Env}

/-- What the frame has gained by the first statement is no name of the others. -/
theorem Env.Distinct.cons (h : next.Distinct E ss)
    (hgrows : ∀ name, env.scope.declares name = true → next.scope.declares name = true)
    (hnew : ∀ x ∈ s.declared, env.scope.declares (E.nameAt x) = false ∧
      next.scope.declares (E.nameAt x) = true)
    (hone : (s.declared.map E.nameAt).Nodup)
    (hlists : ∀ own ∈ s.lists, ∀ l ∈ Stmt.listsAll own, E.Distinct l) :
    env.Distinct E (s :: ss) := by
  refine ⟨fun x hx => ?_, fun l hl => ?_⟩
  · rcases List.mem_append.mp hx with hx | hx
    · exact (hnew x hx).1
    · rw [← Bool.not_eq_true]
      intro hname
      have hgained := hgrows _ hname
      rw [h.new x hx] at hgained
      cases hgained
  · rcases Stmt.mem_listsAll_cons hl with rfl | ⟨own, hown, hl⟩ | hl
    · rw [Entities.Distinct, Stmt.declaredAll, List.flatMap_cons, List.map_append,
        List.nodup_append]
      refine ⟨hone, h.lists ss List.mem_cons_self, fun a ha b hb hab => ?_⟩
      obtain ⟨x, hx, rfl⟩ := List.mem_map.mp ha
      obtain ⟨y, hy, rfl⟩ := List.mem_map.mp hb
      have hx := (hnew x hx).2
      rw [hab, h.new y hy] at hx
      cases hx
    · exact hlists own hown l hl
    · exact h.lists l hl

/-- A statement that declares nothing. -/
theorem Env.Distinct.skip (h : next.Distinct E ss) (hs : s.declared = [])
    (hgrows : ∀ name, env.scope.declares name = true → next.scope.declares name = true)
    (hlists : ∀ own ∈ s.lists, ∀ l ∈ Stmt.listsAll own, E.Distinct l) :
    env.Distinct E (s :: ss) := by
  refine h.cons hgrows ?_ ?_ hlists
  · rw [hs]
    exact List.forall_mem_nil _
  · rw [hs]
    exact List.nodup_nil

/-- A statement that declares a name, which the tables at the end still have. -/
theorem Env.Distinct.declare (h : next.Distinct E ss) {x : EntityId} (hs : s.declared = [x])
    {mid : Env} (hx : env.Declares x mid) (hscope : next.scope = mid.scope)
    (hkeeps : mid.entities.KeepsNames E)
    (hlists : ∀ own ∈ s.lists, ∀ l ∈ Stmt.listsAll own, E.Distinct l) :
    env.Distinct E (s :: ss) := by
  have hname : E.nameAt x = mid.entities.nameAt x := (hkeeps x hx.row).2
  refine h.cons (fun name => hscope ▸ hx.grows) ?_ ?_ hlists
  · rw [hs, List.forall_mem_singleton, hname, hscope]
    exact ⟨hx.new, hx.gained⟩
  · rw [hs]
    exact List.nodup_singleton _

/-- **The names that a list declares are new to the frame and differ**, and those of each list
within it differ. -/
theorem Env.Leads.distinct {env last : Env} {ss : List Stmt} (h : env.Leads ss last)
    (hE : last.entities.KeepsNames E) : env.Distinct E ss := by
  induction h with
  | nil =>
    refine ⟨List.forall_mem_nil _, fun l hl => ?_⟩
    rw [List.mem_singleton.mp hl]
    exact List.nodup_nil
  | plain hs _ _ ih =>
    obtain ⟨hlists, hdeclared⟩ := Stmt.lists_of_isPlain hs
    exact (ih hE).skip hdeclared (fun _ => id) (hlists ▸ List.forall_mem_nil _)
  | declareVariable h hrest ih =>
    obtain ⟨hlists, x, hs, hx⟩ := declareVariable_declares h
    have hkeeps := hrest.steps.keepsNames.trans hE
    exact (ih hE).declare hs hx rfl hkeeps (hlists ▸ List.forall_mem_nil _)
  | declareStruct h hrest ih =>
    obtain ⟨hlists, x, hs, hx⟩ := declareStruct_declares h
    have hkeeps := hrest.steps.keepsNames.trans hE
    exact (ih hE).declare hs hx rfl hkeeps (hlists ▸ List.forall_mem_nil _)
  | declareFunction h hbody hrest ihbody ih =>
    have hinner := hrest.steps.keepsNames.trans hE
    have hkeeps := hbody.steps.keepsNames.trans hinner
    exact (ih hE).declare rfl (openFunction_declares h) rfl hkeeps
      (List.forall_mem_singleton.mpr (ihbody hinner).lists)
  | ifThen _ _ hrest ihc ih | whileLoop _ _ hrest ihc ih | rangeLoop _ _ _ _ hrest ihc ih
  | collectionLoop _ _ _ _ hrest ihc ih =>
    have hinner := hrest.steps.keepsNames.trans hE
    exact (ih hE).skip rfl (fun _ => id) (List.forall_mem_singleton.mpr (ihc hinner).lists)
  | ifElse _ _ ha hrest ihc iha ih =>
    have hinner := hrest.steps.keepsNames.trans hE
    have hmid := ha.steps.keepsNames.trans hinner
    exact (ih hE).skip rfl (fun _ => id) (List.forall_mem_cons.mpr
      ⟨(ihc hmid).lists, List.forall_mem_singleton.mpr (iha hinner).lists⟩)
  | ifElseIf _ _ ha hrest ihc iha ih =>
    have hnext := hrest.steps.keepsNames.trans hE
    have hmid := ha.steps.keepsNames.trans hnext
    exact (ih hE).skip rfl (fun _ => ha.grows) (List.forall_mem_cons.mpr
      ⟨(ihc hmid).lists, List.forall_mem_singleton.mpr (iha hnext).lists⟩)
  | tryCatch _ herror hhandler hrest ihbody ihhandler ih =>
    have hinner := hrest.steps.keepsNames.trans hE
    have hstart := hhandler.steps.keepsNames.trans hinner
    have hmid := (declareError_steps (S := fun _ => True) herror).keepsNames.trans hstart
    exact (ih hE).skip rfl (fun _ => id) (List.forall_mem_cons.mpr
      ⟨(ihbody hmid).lists, List.forall_mem_singleton.mpr (ihhandler hinner).lists⟩)

end Checking

/-! ### Simplifying -/

namespace Stmt

mutual

/-- What is declared by the statements in the place of a statement: a conditional whose test
becomes a literal lays the declarations of one side open. -/
def laidOpen : Stmt → List EntityId
  | declareVariable id _ => [.var id]
  | declareFunction id _ _ => [.func id]
  | declareStruct id | declareClass id => [.struct id]
  | ifThen test c =>
    match test.simplify.value.bool? with
    | some true => laidOpenAll c
    | some false => []
    | none => []
  | ifElse test c a =>
    match test.simplify.value.bool? with
    | some true => laidOpenAll c
    | some false => laidOpenAll a
    | none => []
  | ifElseIf test c a =>
    match test.simplify.value.bool? with
    | some true => laidOpenAll c
    | some false => laidOpen a
    | none => []
  | _ => []

def laidOpenAll : List Stmt → List EntityId
  | [] => []
  | s :: ss => laidOpen s ++ laidOpenAll ss

end

theorem declaredAll_append (ss ts : List Stmt) :
    declaredAll (ss ++ ts) = declaredAll ss ++ declaredAll ts := List.flatMap_append

theorem declaredAll_choose (test : Expr) (c a : List Stmt) (k : Counted (List Stmt)) :
    declaredAll (choose test c a k).value =
      match test.bool? with
      | some true => declaredAll c
      | some false => declaredAll a
      | none => declaredAll k.value := by
  rw [value_choose]
  cases test.bool? with
  | none => rfl
  | some b => cases b <;> rfl

theorem declaredAll_joinElse (test : Expr) (c a : List Stmt) :
    declaredAll (joinElse test c a).value = [] := by
  match a with
  | [] => rfl
  | [s] =>
    simp only [joinElse]
    split <;> rfl
  | s :: t :: ss => rfl

theorem declaredAll_dropIf (idle : Bool) {s : Stmt} (h : s.declared = []) :
    declaredAll (dropIf idle s).value = [] := by
  rw [value_dropIf]
  cases idle with
  | true => rfl
  | false => simpa [declaredAll] using h

mutual

theorem declaredAll_simplify (s : Stmt) : declaredAll s.simplify.value = s.laidOpen := by
  cases s with
  | declareVariable | declareFunction | declareStruct | declareClass | ret | breakLoop
  | continueLoop | tryCatch | print | increment | decrement | call => rfl
  | whileLoop | rangeLoop | collectionLoop | assign => exact declaredAll_dropIf _ rfl
  | ifThen test c =>
    refine (declaredAll_choose _ _ _ _).trans ?_
    rw [declaredAll_simplifyAll c]
    rfl
  | ifElse test c a =>
    refine (declaredAll_choose _ _ _ _).trans ?_
    rw [declaredAll_simplifyAll c, declaredAll_simplifyAll a]
    rfl
  | ifElseIf test c a =>
    refine (declaredAll_choose _ _ _ _).trans ?_
    rw [declaredAll_simplifyAll c, declaredAll_simplify a, declaredAll_joinElse]
    rfl
termination_by structural s

/-- **What a list declares when it is simplified** is what is laid open in it. -/
theorem declaredAll_simplifyAll (ss : List Stmt) :
    declaredAll (simplifyAll ss).value = laidOpenAll ss := by
  cases ss with
  | nil => rfl
  | cons s ss =>
    have h := declaredAll_append s.simplify.value (simplifyAll ss).value
    rw [declaredAll_simplify s, declaredAll_simplifyAll ss] at h
    exact h
termination_by structural ss

end

/-- The lists of a rebuilt node are those of the old one, simplified. -/
theorem Becomes.of_list {s s' : Stmt} (h : s.Becomes s') {l' : List Stmt} (hl : l' ∈ s'.lists) :
    ∃ l ∈ s.lists, l' = (simplifyAll l).value := by
  have alternate (a : Stmt) : a.simplify.value = (simplifyAll [a]).value := by
    rw [value_simplifyAll, List.flatMap_singleton]
  cases h with
  | declareFunction | ifThen | whileLoop | rangeLoop | collectionLoop | ifElseIfNone =>
    exact ⟨_, List.mem_cons_self, List.mem_singleton.mp hl⟩
  | ifElse | tryCatch =>
    rcases List.mem_cons.mp hl with rfl | hl
    · exact ⟨_, List.mem_cons_self, rfl⟩
    · exact ⟨_, List.mem_cons_of_mem _ List.mem_cons_self, List.mem_singleton.mp hl⟩
  | @ifElseIfOne _ _ a _ ha =>
    rcases List.mem_cons.mp hl with rfl | hl
    · exact ⟨_, List.mem_cons_self, rfl⟩
    · refine ⟨[a], List.mem_cons_of_mem _ List.mem_cons_self, ?_⟩
      rw [List.mem_singleton.mp hl, ← alternate, ha]
  | @ifElseIfMany _ _ a =>
    rcases List.mem_cons.mp hl with rfl | hl
    · exact ⟨_, List.mem_cons_self, rfl⟩
    · refine ⟨[a], List.mem_cons_of_mem _ List.mem_cons_self, ?_⟩
      rw [List.mem_singleton.mp hl, ← alternate]
  | _ => cases hl

end Stmt

namespace Program

variable {p : Program}

/-- Each list of a simplified program is a list of the program, simplified. -/
theorem exists_of_mem_lists {l' : List Stmt} (h : l' ∈ p.simplify.value.lists) :
    ∃ l ∈ p.lists, l' = (Stmt.simplifyAll l).value := by
  rcases List.mem_cons.mp h with rfl | h
  · exact ⟨p.statements, List.mem_cons_self, rfl⟩
  · obtain ⟨s', hs', hl'⟩ := List.mem_flatMap.mp h
    obtain ⟨s, hs, hb⟩ := p.exists_becomes hs'
    obtain ⟨l, hl, rfl⟩ := hb.of_list hl'
    exact ⟨l, List.mem_cons_of_mem _ (List.mem_flatMap.mpr ⟨s, hs, hl⟩), rfl⟩

/-- **Names differ in each list of a checked program, but not always when it is simplified.**
Each list of the simplified program is one of the program, simplified, and the names there differ
just if they do among the declarations that are laid open in it, which are its own and those of
the sides that conditionals with a literal for a test leave behind. -/
theorem distinct_simplify_iff {tree : List Tree.Stmt} (h : analyze tree = .ok p) :
    (∀ l ∈ p.lists, p.entities.Distinct l) ∧
    (∀ l' ∈ p.simplify.value.lists, ∃ l ∈ p.lists, l' = (Stmt.simplifyAll l).value) ∧
    ((∀ l' ∈ p.simplify.value.lists, p.simplify.value.entities.Distinct l') ↔
      ∀ l ∈ p.lists, (Stmt.simplifyAll l).value ∈ p.simplify.value.lists →
        ((Stmt.laidOpenAll l).map p.entities.nameAt).Nodup) := by
  obtain ⟨last, hleads, hlast⟩ := leads_of_analyze h
  have hdistinct := hleads.distinct (E := p.entities) (hlast ▸ .refl _)
  refine ⟨hdistinct.lists, fun l' => exists_of_mem_lists, fun hall l _ hl => ?_,
    fun hall l' hl' => ?_⟩
  · rw [← Stmt.declaredAll_simplifyAll]
    exact hall _ hl
  · obtain ⟨l, hl, rfl⟩ := exists_of_mem_lists hl'
    have hopen := hall l hl hl'
    rwa [← Stmt.declaredAll_simplifyAll] at hopen

end Program

/-! ### A name that is repeated -/

/-- `let x = π; if true { let x = π; }`, with all spans left blank. -/
def repeatedTree : List Tree.Stmt :=
  let blank : Span := ⟨.start, 0⟩
  let define : Tree.Stmt :=
    .declareVariable ⟨"x", blank⟩ false none (some (.name ⟨"π", blank⟩)) blank
  [define, .ifThen (.bool true blank) ⟨[define], blank⟩ blank]

def repeatedProgram : Program :=
  let define (i : Nat) : Stmt := .declareVariable ⟨i⟩ (some (.var ⟨0⟩ .number))
  { statements := [define 1, .ifThen (.bool true .bool) [define 2]]
    entities := (Entities.initial.addVariable ⟨"x", false, .number⟩).addVariable
      ⟨"x", false, .number⟩ }

theorem Program.distinct_simplify_iff_repeated : analyze repeatedTree = .ok repeatedProgram ∧
    (∀ l ∈ repeatedProgram.lists, repeatedProgram.entities.Distinct l) ∧
    ¬ ∀ l' ∈ repeatedProgram.simplify.value.lists,
      repeatedProgram.simplify.value.entities.Distinct l' := by
  have hanalyze : analyze repeatedTree = .ok repeatedProgram := rfl
  obtain ⟨hdistinct, -, hiff⟩ := distinct_simplify_iff hanalyze
  refine ⟨hanalyze, hdistinct, mt hiff.mp fun hall => ?_⟩
  exact absurd (hall _ List.mem_cons_self List.mem_cons_self) (by decide)

/-- **A program can declare a name twice in one list when it is simplified**, though as it was
checked it does not: the conditional in this source is a block of its own until its test is found
to be a literal. -/
theorem exists_name_repeated : ∃ (source : String) (p q : Program),
    compile source false = .ok p ∧ compile source true = .ok q ∧
      (∀ l ∈ p.lists, p.entities.Distinct l) ∧ (∃ l ∈ q.lists, ¬ q.entities.Distinct l) ∧
      q.listing = "let x_1: number = π_0;\nlet x_2: number = π_0;\n" := by
  refine ⟨"let x = π; if true \x7b let x = π; \x7d", repeatedProgram,
    repeatedProgram.simplify.value, by cbv, by cbv, by decide, ?_, by cbv⟩
  exact ⟨_, List.mem_cons_self, by decide⟩

end TypedImp
