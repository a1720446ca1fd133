import TypedImp.Proofs.Checking.Points
import TypedImp.Proofs.Tables.Structs

/-!
# Frames

A frame only ever gains names that it does not have.  So in every scope that checking goes through,
each frame binds each of its names once, the outermost one with what comes with the language
included, and a frame that is left is gone with all that it binds.

* `Scope.Change` is what may happen to a scope from one point of checking to the next one.
* **`scope_discipline`**: nothing else happens on the way through a program, and what a statement
  leaves behind of all this is the name that it declares, if it is a declaration.
-/

namespace TypedImp

def Frame.names (frame : Frame) : List String := frame.bindings.map Prod.fst

namespace Scope

/-- **One change of a scope**: a frame is opened or left, or the current one gains a name that it
does not have. -/
inductive Change (s : Scope) : Scope → Prop
  | same : Change s s
  | enter (o : Overrides) : Change s (s.enter o)
  | leave {outer : Scope} (h : s.leave? = some outer) : Change s outer
  | bind {name : String} (hnew : s.declares name = false) (b : Binding) :
      Change s (s.bind name b)

/-- Every frame binds each of its names once. -/
def Distinct (s : Scope) : Prop := ∀ frame ∈ s.frames, frame.names.Nodup

instance (s : Scope) : Decidable s.Distinct := inferInstanceAs (Decidable (∀ _ ∈ _, _))

theorem notMem_names_of_declares {s : Scope} {name : String} (h : s.declares name = false) :
    name ∉ s.current.names := by
  intro hmem
  obtain ⟨⟨_, b⟩, hb, rfl⟩ := List.mem_map.mp hmem
  rw [declares, Frame.find?, Option.isSome_eq_false_iff, Option.isNone_iff_eq_none,
    List.lookup_eq_none_iff] at h
  simpa using h _ hb

variable {s s' : Scope}

theorem Change.distinct (h : s.Change s') (hs : s.Distinct) : s'.Distinct := by
  cases h with
  | same => exact hs
  | enter o => exact List.forall_mem_cons.mpr ⟨List.nodup_nil, hs⟩
  | leave hleave =>
    rw [Distinct, frames_of_leave? hleave] at hs
    exact (List.forall_mem_cons.mp hs).2
  | bind hnew b =>
    obtain ⟨hcurrent, houter⟩ := List.forall_mem_cons.mp hs
    exact List.forall_mem_cons.mpr
      ⟨List.nodup_cons.mpr ⟨notMem_names_of_declares hnew, hcurrent⟩, houter⟩

/-- Also what comes with the language is bound only once. -/
theorem distinct_root : root.Distinct := by decide

end Scope

namespace Checking.Env

/-- No move changes a scope in another way. -/
theorem Move.change {env next : Env} (h : env.Move next) : env.scope.Change next.scope := by
  cases h with
  | enter o => exact .enter o
  | leave hleave => exact .leave hleave
  | addVariable hnew | addFunction hnew | addStruct hnew => exact .bind hnew _
  | setSignature | setFields => exact .same

theorem points_distinct (trees : List Tree.Stmt) :
    ∀ site ∈ points trees, site.scope.Distinct := by
  obtain ⟨last, hpath⟩ := (inRange_root.stmts trees).path
  exact (hpath.induction (P := fun site => site.scope.Distinct)
    (fun hsite hmove => hmove.change.distinct hsite) Scope.distinct_root).1

end Checking.Env

/-- **What becomes of scopes in checking.**  From each point to the next one a frame is opened or
left, or the current frame gains a name that it does not have; so at every point, the first one
included, each frame binds each of its names once.  If the statements pass checking, the last point
is the environment behind them.  A statement that passes checking at a point adds the name that it
declares to the frame there, and leaves all other names, all other frames and what they say of loops
and functions as they were; if it declares none, the scope is as it was.  In a tree that the grammar
builds only the declarations of variables, functions, structs and classes declare a name. -/
theorem scope_discipline (trees : List Tree.Stmt) :
    (Checking.Env.points trees).IsChain (fun site next => site.scope.Change next.scope) ∧
    (∀ (ss : List Stmt) (last : Checking.Env),
      Checking.checkStmts ⟨.root, .initial⟩ trees = .ok (ss, last) →
        (Checking.Env.points trees).getLast? = some last) ∧
    ∀ site ∈ Checking.Env.points trees, site.scope.Distinct ∧
      ∀ (tree : Tree.Stmt) (s : Stmt) (next : Checking.Env),
        Checking.checkStmt site tree = .ok (s, next) →
          site.scope.Turns tree.binds? next.scope ∧
          ∀ Q, tree.Built Q → tree.binds? = tree.name? := by
  refine ⟨(Checking.Env.points_moves trees).imp fun _ _ h => h.change,
    fun ss last h => Checking.Env.points_last h, fun site hsite => ?_⟩
  refine ⟨Checking.Env.points_distinct trees site hsite, fun tree s next h => ?_⟩
  exact ⟨Checking.checkStmt_turns tree h, fun Q hQ => hQ.binds?_eq⟩

/-- Within the braces of the second statement of `shadowedTree` a struct gets the name of the one
in front of them.  The frame of the statement does not see this. -/
theorem scope_discipline_shadowed : ∃ site ∈ Checking.Env.points shadowedTree,
    ∃ tree ∈ shadowedTree, ∃ s next, Checking.checkStmt site tree = .ok (s, next) ∧
      s.nested.length = 3 ∧ site.scope.declares "A" = true ∧ next.scope = site.scope := by
  have hrun : ∃ site ∈ Checking.Env.points shadowedTree, ∃ tree ∈ shadowedTree, ∃ s next,
      Checking.checkStmt site tree = .ok (s, next) ∧ s.nested.length = 3 ∧
        site.scope.declares "A" = true ∧ tree.binds? = none :=
    ⟨_, List.mem_cons_of_mem _ (List.mem_cons_of_mem _ List.mem_cons_self), _,
      List.mem_cons_of_mem _ List.mem_cons_self, _, _, rfl, rfl, rfl, rfl⟩
  obtain ⟨site, hsite, tree, htree, s, next, hcheck, hnested, hdeclares, hbinds⟩ := hrun
  obtain ⟨hturns, -⟩ := ((scope_discipline shadowedTree).2.2 site hsite).2 tree s next hcheck
  rw [hbinds] at hturns
  exact ⟨site, hsite, tree, htree, s, next, hcheck, hnested, hdeclares, hturns⟩

end TypedImp
