import Mathlib.Data.List.Intervals
import TypedImp.Proofs.Checking.Course
import TypedImp.Proofs.Scoping.Judgement
import TypedImp.Proofs.Simplify.Value

/-!
# Declarations in the order of the rows

`Stmt.rows` goes through a statement from left to right and lists all that is declared on the
way.  A program lists every row beyond those that come with the language exactly once, and the
rows of one table in the order of their indices (`Program.rows_in_order`).

The rows are added at different moments: that of a function before its parameters are looked at,
that of a variable behind its initial value, that of a caught error between the two lists of a
`try`.  `Entities.Adds` ties what is listed to what the tables gain, one table at a time; it goes
along with the course of checking (`Env.Leads.adds`), since it can be put together of two
(`Adds.trans`) and does not see that a row is completed.

Simplifying leaves declarations out and changes the order of none (`Stmt.rowsAll_simplifyAll`).
-/

namespace TypedImp

/-! ### The three tables -/

/-- One of the tables of a program. -/
inductive Table where
  | vars
  | funcs
  | structs
deriving DecidableEq, Repr

def Table.entity : Table → Nat → EntityId
  | vars, i => .var ⟨i⟩
  | funcs, i => .func ⟨i⟩
  | structs, i => .struct ⟨i⟩

def EntityId.table : EntityId → Table
  | var _ => .vars
  | func _ => .funcs
  | struct _ => .structs

namespace Entities

def size (E : Entities) : Table → Nat
  | .vars => E.vars.size
  | .funcs => E.funcs.size
  | .structs => E.structs.size

/-- The rows that tables have and others had not, each table from its first new row to its last
one, are those of the given entities. -/
structure Adds (E E' : Entities) (new : List EntityId) : Prop where
  size_le : ∀ t, E.size t ≤ E'.size t
  filter : ∀ t, new.filter (·.table = t) = (List.Ico (E.size t) (E'.size t)).map t.entity

variable {E E' E'' : Entities} {new : List EntityId}

theorem Adds.of_size_eq (h : ∀ t, E'.size t = E.size t) : E.Adds E' [] := by
  refine ⟨fun t => Nat.le_of_eq (h t).symm, fun t => ?_⟩
  rw [h t, List.Ico.self_empty]
  rfl

theorem Adds.refl (E : Entities) : E.Adds E [] := .of_size_eq fun _ => rfl

/-- **What is added first stands in front.** -/
theorem Adds.trans {others : List EntityId} (h : E.Adds E' new) (g : E'.Adds E'' others) :
    E.Adds E'' (new ++ others) := by
  refine ⟨fun t => Nat.le_trans (h.size_le t) (g.size_le t), fun t => ?_⟩
  rw [List.filter_append, h.filter t, g.filter t, ← List.map_append,
    List.Ico.append_consecutive (h.size_le t) (g.size_le t)]

/-- One more row, at the end of its table. -/
theorem Adds.one {t : Table} (h : ∀ u, E'.size u = if u = t then E.size t + 1 else E.size u) :
    E.Adds E' [t.entity (E.size t)] := by
  have htable : (t.entity (E.size t)).table = t := by cases t <;> rfl
  refine ⟨fun u => ?_, fun u => ?_⟩
  · rw [h u]
    split
    · subst u
      exact Nat.le_succ _
    · exact Nat.le_refl _
  · rw [h u, List.filter_singleton, htable]
    by_cases hu : u = t
    · subst u
      simp [List.Ico.succ_singleton]
    · simp [hu, Ne.symm hu]

theorem adds_addVariable (E : Entities) (v : Variable) :
    E.Adds (E.addVariable v) [.var E.nextVariable] := by
  refine Adds.one (t := .vars) fun u => ?_
  cases u <;> simp [size, addVariable]

theorem adds_addFunction (E : Entities) (f : Function) :
    E.Adds (E.addFunction f) [.func E.nextFunction] := by
  refine Adds.one (t := .funcs) fun u => ?_
  cases u <;> simp [size, addFunction]

theorem adds_addStruct (E : Entities) (s : Struct) :
    E.Adds (E.addStruct s) [.struct E.nextStruct] := by
  refine Adds.one (t := .structs) fun u => ?_
  cases u <;> simp [size, addStruct]

/-- To complete a row adds none. -/
theorem Adds.setSignature (h : E.Adds E' new) (id : FunctionId) (signature : Signature) :
    E.Adds (E'.setSignature id signature) new := by
  have hsize : ∀ t, (E'.setSignature id signature).size t = E'.size t := by
    intro t
    cases t <;> simp [size, Entities.setSignature]
  have hset := h.trans (.of_size_eq hsize)
  rwa [List.append_nil] at hset

theorem Adds.setFields (h : E.Adds E' new) (id : StructId) (fields : List Field) :
    E.Adds (E'.setFields id fields) new := by
  have hsize : ∀ t, (E'.setFields id fields).size t = E'.size t := by
    intro t
    cases t <;> simp [size, Entities.setFields]
  have hset := h.trans (.of_size_eq hsize)
  rwa [List.append_nil] at hset

end Entities

/-! ### What a statement declares -/

namespace Stmt

mutual

/-- All that is declared by a statement and the statements within it, from left to right. -/
def rows : Stmt → List EntityId
  | declareVariable id _ => [.var id]
  | declareFunction id params body => .func id :: params.map .var ++ rowsAll body
  | declareStruct id | declareClass id => [.struct id]
  | ifThen _ c => rowsAll c
  | ifElse _ c a => rowsAll c ++ rowsAll a
  | ifElseIf _ c a => rowsAll c ++ rows a
  | whileLoop _ body => rowsAll body
  | rangeLoop id _ _ _ body | collectionLoop id _ body => .var id :: rowsAll body
  | tryCatch body error handler => rowsAll body ++ error.toList.map .var ++ rowsAll handler
  | ret _ | breakLoop | continueLoop | print _ | increment _ | decrement _ | assign .. | call _ =>
    []

def rowsAll : List Stmt → List EntityId
  | [] => []
  | s :: ss => rows s ++ rowsAll ss

end

theorem rowsAll_append (ss ts : List Stmt) : rowsAll (ss ++ ts) = rowsAll ss ++ rowsAll ts := by
  induction ss with
  | nil => rfl
  | cons s ss ih => rw [List.cons_append, rowsAll, rowsAll, ih, List.append_assoc]

theorem rowsAll_singleton (s : Stmt) : rowsAll [s] = s.rows := List.append_nil _

theorem rows_of_isPlain {s : Stmt} (h : s.isPlain = true) : s.rows = [] := by
  cases s with
  | ret | breakLoop | continueLoop | print | increment | decrement | assign | call => rfl
  | _ => cases h

end Stmt

def Program.rows (p : Program) : List EntityId := Stmt.rowsAll p.statements

/-! ### Checking -/

namespace Checking

open Entities

variable {env env' : Env}

theorem declareVariable_adds {name : Tree.Name} {readOnly : Bool} {type : Option Tree.TypeExpr}
    {written : Option Tree.Expr} {span : Span} {s : Stmt}
    (h : declareVariable env name readOnly type written span = .ok (s, env')) :
    env.entities.Adds env'.entities s.rows := by
  obtain ⟨e, ty, _, _, _, _, rfl, rfl⟩ := declareVariable_eq_ok h
  exact env.entities.adds_addVariable _

theorem Env.PassesParams.adds {params : List Tree.Annotated} {ids : List VariableId}
    {tys : List Ty} (h : env.PassesParams params ids tys env') :
    env.entities.Adds env'.entities (ids.map .var) := by
  induction h with
  | nil => exact .refl _
  | cons _ _ _ _ _ ih => exact (adds_addVariable _ _).trans ih

theorem openFunction_adds {name : Tree.Name} {params : List Tree.Annotated}
    {result : Option Tree.TypeExpr} {f : OpenFunction}
    (h : openFunction env name params result = .ok f) :
    env.entities.Adds f.inner.entities (.func f.id :: f.params.map .var) := by
  obtain ⟨ty, ids, tys, inner, _, _, hparams, rfl⟩ := openFunction_eq_ok h
  have hadd := env.entities.adds_addFunction ⟨name.text, ⟨[], .void⟩, false⟩
  exact (hadd.trans hparams.adds).setSignature _ _

theorem declareStruct_adds {name : Tree.Name} {fields : List Tree.Annotated} {isClass : Bool}
    {span : Span} {s : Stmt} (h : declareStruct env name fields isClass span = .ok (s, env')) :
    env.entities.Adds env'.entities s.rows := by
  obtain ⟨rows, _, _, _, _, rfl, rfl⟩ := declareStruct_eq_ok h
  have hadd := (env.entities.adds_addStruct ⟨name.text, [], isClass⟩).setFields
    env.entities.nextStruct rows
  cases isClass with
  | false => exact hadd
  | true => exact hadd

theorem declareError_adds {name : Option Tree.Name} {error : Option VariableId}
    (h : declareError env name = (error, env')) :
    env.entities.Adds env'.entities (error.toList.map .var) := by
  cases name with
  | none =>
    cases h
    exact .refl _
  | some name =>
    cases h
    exact env.entities.adds_addVariable _

/-- **What the tables gain by statements is what these declare**, in the order of the rows. -/
theorem Env.Leads.adds {env last : Env} {ss : List Stmt} (h : env.Leads ss last) :
    env.entities.Adds last.entities (Stmt.rowsAll ss) := by
  induction h with
  | nil => exact .refl _
  | plain hs _ _ ih =>
    rw [Stmt.rowsAll, Stmt.rows_of_isPlain hs]
    exact ih
  | declareVariable h _ ih => exact (declareVariable_adds h).trans ih
  | declareStruct h _ ih => exact (declareStruct_adds h).trans ih
  | declareFunction h _ _ ihbody ih => exact ((openFunction_adds h).trans ihbody).trans ih
  | ifThen _ _ _ ihc ih => exact ihc.trans ih
  | whileLoop _ _ _ ihbody ih => exact ihbody.trans ih
  | ifElse _ _ _ _ ihc iha ih => exact (ihc.trans iha).trans ih
  | ifElseIf _ _ _ _ ihc iha ih =>
    rw [Stmt.rowsAll_singleton] at iha
    exact (ihc.trans iha).trans ih
  | @rangeLoop env _ _ name _ _ _ _ _ _ _ _ _ ihbody ih =>
    exact ((env.entities.adds_addVariable ⟨name, true, .number⟩).trans ihbody).trans ih
  | @collectionLoop env _ _ name _ element _ _ _ _ _ _ ihbody ih =>
    exact ((env.entities.adds_addVariable ⟨name, true, element⟩).trans ihbody).trans ih
  | tryCatch _ herror _ _ ihbody ihhandler ih =>
    have hcaught := declareError_adds herror
    exact ((ihbody.trans hcaught).trans ihhandler).trans ih

end Checking

/-! ### Simplifying -/

namespace Stmt

theorem rowsAll_joinElse (test : Expr) (c a : List Stmt) :
    rowsAll (joinElse test c a).value = rowsAll c ++ rowsAll a := by
  match a with
  | [] => rfl
  | [s] =>
    simp only [joinElse]
    split
    · exact (rowsAll_singleton _).trans (by rw [rows, rowsAll_singleton])
    · exact rowsAll_singleton _
  | s :: t :: ss => exact rowsAll_singleton _

/-- A node in the place of another one. -/
theorem rowsAll_rebuilt {s t : Stmt} (h : t.rows.Sublist s.rows) :
    (rowsAll [t]).Sublist s.rows := by
  rw [rowsAll_singleton]
  exact h

theorem rowsAll_dropIf {idle : Bool} {s t : Stmt} (h : t.rows.Sublist s.rows) :
    (rowsAll (dropIf idle t).value).Sublist s.rows := by
  rw [value_dropIf]
  cases idle with
  | true => exact List.nil_sublist _
  | false => exact rowsAll_rebuilt h

/-- Of two sides one is left, or both in the same order. -/
theorem rowsAll_sides {test : Expr} {c a : List Stmt} {k : Counted (List Stmt)}
    {front back : List EntityId} (hc : (rowsAll c).Sublist front) (ha : (rowsAll a).Sublist back)
    (hk : rowsAll k.value = rowsAll c ++ rowsAll a) :
    (rowsAll (choose test c a k).value).Sublist (front ++ back) := by
  refine choose_cases (P := fun ss => (rowsAll ss).Sublist _) ?_ ?_ ?_
  · exact hc.trans (List.sublist_append_left _ _)
  · exact ha.trans (List.sublist_append_right _ _)
  · rw [hk]
    exact hc.append ha

mutual

theorem rows_simplify (s : Stmt) : (rowsAll s.simplify.value).Sublist s.rows := by
  cases s with
  | declareVariable | declareStruct | declareClass | ret | breakLoop | continueLoop | print
  | increment | decrement | call => exact List.Sublist.refl _
  | assign => exact rowsAll_dropIf (List.Sublist.refl [])
  | declareFunction id params body =>
    have hbody := rowsAll_simplifyAll body
    exact rowsAll_rebuilt (t := .declareFunction id params _) ((List.Sublist.refl _).append hbody)
  | whileLoop test body => exact rowsAll_dropIf (t := .whileLoop _ _) (rowsAll_simplifyAll body)
  | rangeLoop id low op high body =>
    exact rowsAll_dropIf (t := .rangeLoop id _ op _ _) ((rowsAll_simplifyAll body).cons_cons _)
  | collectionLoop id e body =>
    exact rowsAll_dropIf (t := .collectionLoop id _ _) ((rowsAll_simplifyAll body).cons_cons _)
  | ifThen test c =>
    rw [rows, ← List.append_nil (rowsAll c)]
    exact rowsAll_sides (rowsAll_simplifyAll c) (List.Sublist.refl []) rfl
  | ifElse test c a =>
    exact rowsAll_sides (rowsAll_simplifyAll c) (rowsAll_simplifyAll a) (rowsAll_singleton _)
  | ifElseIf test c a =>
    exact rowsAll_sides (rowsAll_simplifyAll c) (rows_simplify a) (rowsAll_joinElse _ _ _)
  | tryCatch body error handler =>
    have hbody := (rowsAll_simplifyAll body).append (List.Sublist.refl (error.toList.map .var))
    have hhandler := rowsAll_simplifyAll handler
    exact rowsAll_rebuilt (t := .tryCatch _ error _) (hbody.append hhandler)
termination_by structural s

/-- **Simplifying declares nothing twice and changes no order.** -/
theorem rowsAll_simplifyAll (ss : List Stmt) :
    (rowsAll (simplifyAll ss).value).Sublist (rowsAll ss) := by
  cases ss with
  | nil => exact List.Sublist.refl _
  | cons s ss =>
    have h := (rows_simplify s).append (rowsAll_simplifyAll ss)
    rw [← rowsAll_append] at h
    exact h
termination_by structural ss

end

end Stmt

/-! ### Programs -/

/-- **Declarations and rows match one to one.**  From left to right, a checked program declares
the variables from 1 on, the functions from 8 on and the structs from 0 on, each up to the last
row of its table.  When it is simplified, the tables stay as they are, and what is declared in
each of them is left out in places but never moved or repeated. -/
theorem Program.rows_in_order {tree : List Tree.Stmt} {p : Program} (h : analyze tree = .ok p) :
    ((1 ≤ p.entities.vars.size ∧ p.rows.filter (·.table = .vars) =
        (List.Ico 1 p.entities.vars.size).map fun i => .var ⟨i⟩) ∧
      (8 ≤ p.entities.funcs.size ∧ p.rows.filter (·.table = .funcs) =
        (List.Ico 8 p.entities.funcs.size).map fun i => .func ⟨i⟩) ∧
      p.rows.filter (·.table = .structs) =
        (List.range p.entities.structs.size).map fun i => .struct ⟨i⟩) ∧
    p.simplify.value.entities = p.entities ∧ p.simplify.value.rows.Sublist p.rows ∧
      ∀ t, (p.simplify.value.rows.filter (·.table = t)).Sublist
        (p.rows.filter (·.table = t)) := by
  obtain ⟨last, hleads, hlast⟩ := leads_of_analyze h
  have hadds : Entities.initial.Adds p.entities p.rows := by
    rw [hlast]
    exact hleads.adds
  have hsub : p.simplify.value.rows.Sublist p.rows := Stmt.rowsAll_simplifyAll p.statements
  refine ⟨⟨⟨hadds.size_le .vars, hadds.filter .vars⟩, ⟨hadds.size_le .funcs, hadds.filter .funcs⟩,
    ?_⟩, rfl, hsub, fun t => hsub.filter _⟩
  rw [← List.Ico.zero_bot]
  exact hadds.filter .structs

/-- `try { let a = π; } catch e { for i in π ..< π { struct S { } let b = i; } }
fn f(p: number) { if false { let c = p; } }`, with all spans left blank. -/
def caughtTree : List Tree.Stmt :=
  let blank : Span := ⟨.start, 0⟩
  let name (text : String) : Tree.Name := ⟨text, blank⟩
  let use (text : String) : Tree.Expr := .name (name text)
  let define (text source : String) : Tree.Stmt :=
    .declareVariable (name text) false none (some (use source)) blank
  [.tryCatch ⟨[define "a" "π"], blank⟩ (some (name "e"))
      ⟨[.rangeLoop (name "i") (use "π") .exclusive (use "π")
        ⟨[.declareStruct (name "S") [] false blank, define "b" "i"], blank⟩ blank], blank⟩ blank,
    .declareFunction (name "f") [⟨name "p", .named (name "number")⟩] none
      ⟨[.ifThen (.bool false blank) ⟨[define "c" "p"], blank⟩ blank], blank⟩ blank]

def caughtProgram : Program :=
  let number (i : Nat) : Expr := .var ⟨i⟩ .number
  { statements :=
      [.tryCatch [.declareVariable ⟨1⟩ (some (number 0))] (some ⟨2⟩)
          [.rangeLoop ⟨3⟩ (number 0) .exclusive (number 0)
            [.declareStruct ⟨0⟩, .declareVariable ⟨4⟩ (some (number 3))]],
        .declareFunction ⟨8⟩ [⟨5⟩]
          [.ifThen (.bool false .bool) [.declareVariable ⟨6⟩ (some (number 5))]]]
    entities :=
      { vars := Entities.initial.vars ++
          #[⟨"a", false, .number⟩, ⟨"e", true, .string⟩, ⟨"i", true, .number⟩,
            ⟨"b", false, .number⟩, ⟨"p", false, .number⟩, ⟨"c", false, .number⟩]
        funcs := Entities.initial.funcs.push ⟨"f", ⟨[.number], .void⟩, false⟩
        structs := #[⟨"S", [], false⟩] } }

/-- The variable of the error comes between those of the two lists, and the variable of the
iterator in front of those of its loop; the last one is left out when the program is simplified. -/
theorem Program.rows_in_order_caught : analyze caughtTree = .ok caughtProgram ∧
    caughtProgram.rows =
      [.var ⟨1⟩, .var ⟨2⟩, .var ⟨3⟩, .struct ⟨0⟩, .var ⟨4⟩, .func ⟨8⟩, .var ⟨5⟩, .var ⟨6⟩] ∧
    caughtProgram.rows.filter (·.table = .vars) =
      (List.Ico 1 caughtProgram.entities.vars.size).map (fun i => .var ⟨i⟩) ∧
    caughtProgram.simplify.value.rows.Sublist caughtProgram.rows := by
  have hanalyze : analyze caughtTree = .ok caughtProgram := rfl
  obtain ⟨⟨⟨-, hvars⟩, -⟩, -, hsub, -⟩ := rows_in_order hanalyze
  exact ⟨hanalyze, rfl, hvars, hsub⟩

end TypedImp
