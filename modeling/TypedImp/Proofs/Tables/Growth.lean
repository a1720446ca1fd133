import Mathlib.Data.List.Infix
import TypedImp.Proofs.Typing.Soundness

/-!
# Programs grow at the end

What is checked first is not touched by what is checked later.  `analyze_append` says this of
whole programs: if statements are put behind others, what the first ones stand for stays in
front, and a mistake among them is still the one that is reported.

Checking goes through a list from left to right, so that a list put together of two is checked
as the second one in the environment behind the first (`checkStmts_append`).  What is behind an
environment keeps all of its rows, since a row is completed by the declaration that adds it
(`Entities.Kept`), and a table that keeps its rows is a beginning (`Entities.beginning_of_kept`).
-/

namespace TypedImp

/-- A table whose rows are all in another one, each at the same place, is the beginning of it. -/
theorem Entities.beginning_of_kept {α : Type} {a b : Array α}
    (h : ∀ {i : Nat} {row : α}, a[i]? = some row → b[i]? = some row) :
    a.toList <+: b.toList := by
  rw [List.prefix_iff_getElem?]
  intro i hi
  rw [Array.getElem?_toList]
  exact h (Array.getElem?_eq_getElem (by simpa using hi))

/-- The statements of a program are the first ones of another, and so are the rows of each of
its tables. -/
structure Program.Begins (p q : Program) : Prop where
  statements : p.statements <+: q.statements
  vars : p.entities.vars.toList <+: q.entities.vars.toList
  funcs : p.entities.funcs.toList <+: q.entities.funcs.toList
  structs : p.entities.structs.toList <+: q.entities.structs.toList

theorem Program.begins_of_kept {p q : Program} (hs : p.statements <+: q.statements)
    (hk : p.entities.Kept q.entities) : p.Begins q :=
  ⟨hs, Entities.beginning_of_kept hk.vars, Entities.beginning_of_kept hk.funcs,
    Entities.beginning_of_kept hk.structs⟩

namespace Checking

/-- **Statements put behind others** are checked in the environment behind those. -/
theorem checkStmts_append (env : Env) (front back : List Tree.Stmt) :
    checkStmts env (front ++ back) = (do
      let (first, mid) ← checkStmts env front
      let (second, last) ← checkStmts mid back
      pure (first ++ second, last)) := by
  induction front generalizing env with
  | nil =>
    show checkStmts env back = (checkStmts env back >>= fun x => pure ([] ++ x.1, x.2))
    cases checkStmts env back with
    | error fault => rfl
    | ok x => rfl
  | cons s front ih =>
    rw [List.cons_append, checkStmts, checkStmts]
    cases checkStmt env s with
    | error fault => rfl
    | ok x =>
      obtain ⟨s, next⟩ := x
      show (checkStmts next (front ++ back) >>= _) = _
      rw [ih next]
      cases h : checkStmts next front with
      | error fault => simp only [bind, Except.bind, h]
      | ok y =>
        obtain ⟨first, mid⟩ := y
        cases h' : checkStmts mid back with
        | error fault => simp only [bind, Except.bind, h, h', pure, Except.pure]
        | ok z => simp only [bind, Except.bind, h, h', pure, Except.pure, List.cons_append]

theorem checkStmts_append_eq_ok {env last : Env} {front back : List Tree.Stmt} {ss : List Stmt}
    (h : checkStmts env (front ++ back) = .ok (ss, last)) :
    ∃ first mid second, checkStmts env front = .ok (first, mid) ∧
      checkStmts mid back = .ok (second, last) ∧ ss = first ++ second := by
  rw [checkStmts_append] at h
  obtain ⟨⟨first, mid⟩, hf, h⟩ := bind_eq_ok h
  obtain ⟨⟨second, last'⟩, hs, h⟩ := bind_eq_ok h
  cases h
  exact ⟨first, mid, second, hf, hs, rfl⟩

end Checking

theorem analyze_eq_ok_of_checkStmts {tree : List Tree.Stmt} {ss : List Stmt}
    {last : Checking.Env} (h : Checking.checkStmts ⟨.root, .initial⟩ tree = .ok (ss, last)) :
    analyze tree = .ok ⟨ss, last.entities⟩ := by
  rw [analyze, Program.ofTree, h]
  rfl

theorem analyze_eq_error_iff {tree : List Tree.Stmt} {d : Diagnostic} :
    analyze tree = .error d ↔ ∃ fault, Checking.checkStmts ⟨.root, .initial⟩ tree = .error fault ∧
      Diagnostic.ofChecking fault = d := by
  rw [analyze, Program.ofTree]
  cases h : Checking.checkStmts ⟨.root, .initial⟩ tree with
  | error fault => simp [bind, Except.bind, Except.mapError]
  | ok x => simp [bind, Except.bind, Except.mapError, pure, Except.pure]

/-- **Later statements change nothing that earlier ones gave.**  If a program has statements
behind others, the ones in front are a program of their own, whose statements and whose tables,
row for row, are those that the whole begins with.  And if the ones in front break a rule, the
whole breaks it at the same place, whatever stands behind. -/
theorem analyze_append (front back : List Tree.Stmt) :
    (∀ p, analyze (front ++ back) = .ok p → ∃ q, analyze front = .ok q ∧ q.Begins p) ∧
      ∀ d, analyze front = .error d → analyze (front ++ back) = .error d := by
  constructor
  · intro p h
    obtain ⟨last, hall, hp⟩ := analyze_eq_ok h
    obtain ⟨first, mid, second, hfront, hback, hss⟩ := Checking.checkStmts_append_eq_ok hall
    have hmid := (Checking.checkStmts_typed Checking.Env.sound_root front hfront).1
    have hlast := (Checking.checkStmts_typed hmid.sound back hback).1
    refine ⟨_, analyze_eq_ok_of_checkStmts hfront, Program.begins_of_kept ?_ ?_⟩
    · exact ⟨second, hss.symm⟩
    · rw [hp]
      exact hlast.kept
  · intro d h
    obtain ⟨fault, hfront, hd⟩ := analyze_eq_error_iff.mp h
    refine analyze_eq_error_iff.mpr ⟨fault, ?_, hd⟩
    rw [Checking.checkStmts_append, hfront]
    rfl

/-- The first two declarations of `sampleTree` are a program, and stay one in front of the rest:
the function that mentions itself keeps its signature.  A `break` outside a loop is reported
whether or not they stand behind it. -/
theorem analyze_append_sample :
    (∃ q, analyze (sampleTree.take 2) = .ok q ∧ q.Begins sampleProgram) ∧
      analyze (.breakLoop ⟨.start, 5⟩ :: sampleTree) =
        analyze [.breakLoop ⟨.start, 5⟩] := by
  constructor
  · exact (analyze_append (sampleTree.take 2) (sampleTree.drop 2)).1 sampleProgram rfl
  · exact (analyze_append [.breakLoop ⟨.start, 5⟩] sampleTree).2 _ rfl

end TypedImp
