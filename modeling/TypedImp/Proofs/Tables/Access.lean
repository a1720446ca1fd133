import TypedImp.Proofs.Checking.Finds
import TypedImp.Proofs.Listing.Printed
import TypedImp.Proofs.Scoping.Simplify
import TypedImp.Proofs.Tables.Order
import TypedImp.Proofs.Tables.Void

/-!
# Every lookup finds its row

A lookup in a table fails where the index has no row, and a run that makes one ends there.
Checking looks rows up by what names stand for, by what its expressions and types mention, and by
the fields of structs; printing looks up what the statements of a program mention.

**`lookups_in_range`**: none of these lookups ever fails.  At every point of checking, be it one in
front of a broken rule, all is in range, so checking any tree there finds every row
(`checkStmt_finds`); what is made of the statements is in range as well, and stays so when it is
simplified, so printing a program finds every row too (`Program.InRange.print_eq`).  A listing does
not even change if other rows are put behind those of its tables (`Program.InRange.listing_eq`).
-/

namespace TypedImp

/-! ### What is declared -/

/-- What is added to tables has a row in them. -/
theorem Entities.Adds.hasRow {E E' : Entities} {new : List EntityId} (h : E.Adds E' new)
    {x : EntityId} (hx : x ∈ new) : E'.HasRow x := by
  have hmem : x ∈ new.filter (·.table = x.table) := List.mem_filter.mpr ⟨hx, by simp⟩
  rw [h.filter] at hmem
  obtain ⟨i, hi, hx⟩ := List.mem_map.mp hmem
  have hlt := (List.Ico.mem.mp hi).2
  cases x with
  | var | func | struct =>
    cases hx
    exact hlt

/-- What a statement binds where it stands is among all that is declared within it. -/
theorem Stmt.bound_subset_rows (s : Stmt) : s.bound ⊆ s.rows := by
  cases s <;> simp [bound, rows]

namespace Checking

variable {env mid next inside last : Env} {s : Stmt} {ss ts : List Stmt}

/-- **What is made of statements is in range** in the tables behind them. -/
structure Env.Makes (env : Env) (ss : List Stmt) (last : Env) : Prop where
  range : last.InRange
  grown : env.entities.NoShorter last.entities
  stmts : ∀ s ∈ ss, s.InRange last.entities

namespace Env.Makes

theorem nil (henv : env.InRange) : env.Makes [] env := ⟨henv, .refl _, List.forall_mem_nil _⟩

theorem append (h : env.Makes ss mid) (g : mid.Makes ts last) : env.Makes (ss ++ ts) last :=
  ⟨g.range, h.grown.trans g.grown,
    List.forall_mem_append.mpr ⟨fun s hs => (h.stmts s hs).mono g.grown, g.stmts⟩⟩

theorem cons (h : env.Makes [s] mid) (g : mid.Makes ss last) : env.Makes (s :: ss) last :=
  h.append g

/-- Behind braces the scope is the one in front of them. -/
theorem braces (henv : env.InRange) (hinside : env.entities.NoShorter inside.entities)
    (h : inside.Makes ss last) : env.Makes ss (last.around env.scope) :=
  have hgrown := hinside.trans h.grown
  ⟨⟨h.range.tables, henv.scope.mono hgrown⟩, hgrown, h.stmts⟩

/-- A statement is in range if its parts are. -/
theorem wrap (h : env.Makes s.parts next) (hexprs : ∀ e ∈ s.exprs, e.InRange env.entities)
    (hbound : ∀ x ∈ s.bound, next.entities.HasRow x) : env.Makes [s] next :=
  ⟨h.range, h.grown, List.forall_mem_singleton.mpr
    (Stmt.Throughout.of_parts hbound (fun e he => (hexprs e he).mono h.grown) h.stmts)⟩

end Env.Makes

/-! ### Declarations -/

theorem declareVariable_makes (henv : env.InRange) {name : Tree.Name} {readOnly : Bool}
    {type : Option Tree.TypeExpr} {written : Option Tree.Expr} {span : Span}
    (h : declareVariable env name readOnly type written span = .ok (s, next)) :
    env.Makes [s] next := by
  have hway := henv.declareVariable name readOnly type written span
  obtain ⟨-, hparts, hexprs⟩ := declareVariable_offers h
  have hmakes : env.Makes s.parts next :=
    ⟨hway.inRange henv h, (hway.last _ h).noShorter, hparts ▸ List.forall_mem_nil _⟩
  exact hmakes.wrap (fun e he => (hexprs e he).inRange henv)
    fun x hx => (declareVariable_adds h).hasRow (s.bound_subset_rows hx)

theorem declareStruct_makes (henv : env.InRange) {name : Tree.Name}
    {fields : List Tree.Annotated} {isClass : Bool} {span : Span}
    (h : declareStruct env name fields isClass span = .ok (s, next)) : env.Makes [s] next := by
  have hway := henv.declareStruct name fields isClass span
  obtain ⟨hparts, hexprs⟩ := declareStruct_leaf h
  have hmakes : env.Makes s.parts next :=
    ⟨hway.inRange henv h, (hway.last _ h).noShorter, hparts ▸ List.forall_mem_nil _⟩
  exact hmakes.wrap (hexprs ▸ List.forall_mem_nil _)
    fun x hx => (declareStruct_adds h).hasRow (s.bound_subset_rows hx)

/-- The frames behind a function are among those around its body. -/
theorem openFunction_inRange (henv : env.InRange) {name : Tree.Name} {params : List Tree.Annotated}
    {result : Option Tree.TypeExpr} {f : OpenFunction}
    (h : openFunction env name params result = .ok f) : f.outer.InRange f.inner.entities := by
  intro frame hf
  rw [← openFunction_outer h] at hf
  exact ((henv.openFunction name params result).inRange henv h).scope frame
    (List.mem_cons_of_mem _ hf)

/-! ### Statements -/

/-- **On the course of checking all statements are in range.** -/
theorem Env.Leads.makes {env last : Env} {ss : List Stmt} (h : env.Leads ss last)
    (henv : env.InRange) : env.Makes ss last := by
  induction h with
  | nil => exact .nil henv
  | @plain _ _ s _ hs he _ ih =>
    have hleaf : s.parts = [] ∧ s.bound = [] := by
      cases s with
      | ret | breakLoop | continueLoop | print | increment | decrement | assign | call =>
        exact ⟨rfl, rfl⟩
      | _ => cases hs
    refine .cons (.wrap ?_ (fun e hmem => (he e hmem).inRange henv) ?_) (ih henv)
    · exact hleaf.1 ▸ .nil henv
    · exact hleaf.2 ▸ List.forall_mem_nil _
  | declareVariable h _ ih =>
    have hmakes := declareVariable_makes henv h
    exact hmakes.cons (ih hmakes.range)
  | declareStruct h _ ih =>
    have hmakes := declareStruct_makes henv h
    exact hmakes.cons (ih hmakes.range)
  | @declareFunction env inner _ name params result f _ _ h _ _ ihbody ih =>
    have hopen := henv.openFunction name params result
    have hbody := ihbody (hopen.inRange henv h)
    have hgrown := (hopen.last f h).noShorter.trans hbody.grown
    have hmakes : env.Makes _ (inner.around f.outer) :=
      ⟨⟨hbody.range.tables, (openFunction_inRange henv h).mono hbody.grown⟩, hgrown, hbody.stmts⟩
    refine .cons (.wrap hmakes (List.forall_mem_nil _) fun x hx => ?_) (ih hmakes.range)
    exact ((openFunction_adds h).hasRow hx).mono hbody.grown
  | ifThen ht _ _ ihc ih =>
    obtain ⟨hmove, hinside⟩ := henv.enter (o := {}) rfl
    have hmakes := (ihc hinside).braces henv hmove.noShorter
    exact .cons (.wrap hmakes (List.forall_mem_singleton.mpr (ht.inRange henv))
      (List.forall_mem_nil _)) (ih hmakes.range)
  | whileLoop ht _ _ ihc ih =>
    obtain ⟨hmove, hinside⟩ := henv.enter (o := { inLoop := some true }) rfl
    have hmakes := (ihc hinside).braces henv hmove.noShorter
    exact .cons (.wrap hmakes (List.forall_mem_singleton.mpr (ht.inRange henv))
      (List.forall_mem_nil _)) (ih hmakes.range)
  | ifElse ht _ _ _ ihc iha ih =>
    obtain ⟨hmove, hinside⟩ := henv.enter (o := {}) rfl
    have hc := (ihc hinside).braces henv hmove.noShorter
    obtain ⟨hmove, hinside⟩ := hc.range.enter (o := {}) rfl
    have hmakes := hc.append ((iha hinside).braces hc.range hmove.noShorter)
    exact .cons (.wrap hmakes (List.forall_mem_singleton.mpr (ht.inRange henv))
      (List.forall_mem_nil _)) (ih hmakes.range)
  | ifElseIf ht _ _ _ ihc iha ih =>
    obtain ⟨hmove, hinside⟩ := henv.enter (o := {}) rfl
    have hc := (ihc hinside).braces henv hmove.noShorter
    have hmakes := hc.append (iha hc.range)
    exact .cons (.wrap hmakes (List.forall_mem_singleton.mpr (ht.inRange henv))
      (List.forall_mem_nil _)) (ih hmakes.range)
  | @rangeLoop env _ _ name _ _ _ _ _ hl hh _ _ ihbody ih =>
    obtain ⟨hadd, hinner⟩ := henv.iterator name .number trivial
    have hbody := ihbody hinner
    have hmakes := hbody.braces henv hadd.noShorter
    have hrow := (env.entities.addVariable_row ⟨name, true, .number⟩).1.mono hbody.grown
    refine .cons (.wrap hmakes ?_ (List.forall_mem_singleton.mpr hrow)) (ih hmakes.range)
    exact List.forall_mem_cons.mpr
      ⟨hl.inRange henv, List.forall_mem_singleton.mpr (hh.inRange henv)⟩
  | @collectionLoop env _ _ name _ element _ _ he hty _ _ ihbody ih =>
    have hknown := (he.inRange henv).ty
    rw [hty] at hknown
    obtain ⟨hadd, hinner⟩ := henv.iterator name element hknown
    have hbody := ihbody hinner
    have hmakes := hbody.braces henv hadd.noShorter
    have hrow := (env.entities.addVariable_row ⟨name, true, element⟩).1.mono hbody.grown
    exact .cons (.wrap hmakes (List.forall_mem_singleton.mpr (he.inRange henv))
      (List.forall_mem_singleton.mpr hrow)) (ih hmakes.range)
  | @tryCatch env mid start inner last name error body handler ss _ herror _ _ ihbody ihhandler
      ih =>
    obtain ⟨hmove, hinside⟩ := henv.enter (o := {}) rfl
    have hbody := (ihbody hinside).braces henv hmove.noShorter
    obtain ⟨hmove, hinside⟩ := hbody.range.enter (o := {}) rfl
    have hpath := (InRange.declareError (mid.around env.scope.enterBlock) (fun _ => rfl) name).1
    rw [herror] at hpath
    have hhandler := ihhandler (hpath.induction InRange.move hinside).2
    have hmakes := hbody.append (hhandler.braces hbody.range hpath.noShorter)
    refine .cons (.wrap hmakes (List.forall_mem_nil _) fun x hx => ?_) (ih hmakes.range)
    exact ((declareError_adds herror).hasRow hx).mono hhandler.grown

theorem checkStmt_inRange (henv : env.InRange) {tree : Tree.Stmt}
    (h : checkStmt env tree = .ok (s, next)) : s.InRange next.entities :=
  ((Env.Leads.of_checkStmt tree h .nil).makes henv).stmts s List.mem_cons_self

end Checking

/-! ### Programs -/

theorem Expr.InRange.simplify {E : Entities} {e : Expr} (he : e.InRange E) :
    e.simplify.value.InRange E := by
  obtain ⟨huses, htypes⟩ := inRange_iff.mp he
  have hrows : e.uses ⊆ E.rows := fun x hx => Entities.mem_rows.mpr (huses x hx)
  exact inRange_iff.mpr ⟨fun x hx => Entities.mem_rows.mp (uses_simplify_subset hrows hx),
    htypes.simplify trivial trivial⟩

/-- Simplifying brings nothing new into a program. -/
theorem Program.InRange.simplify {p : Program} (hp : p.InRange) : p.simplify.value.InRange := by
  have hstmts : ∀ s ∈ p.stmts, (∀ x ∈ s.bound, p.entities.HasRow x) ∧
      ∀ e ∈ s.exprs, e.InRange p.entities := by
    intro s hs
    obtain ⟨whole, hwhole, hs⟩ := Stmt.mem_nestedAll.mp hs
    exact hp.statements whole hwhole s hs
  refine ⟨hp.tables, fun whole hwhole s' hs' => ?_⟩
  have hs' : s' ∈ p.simplify.value.stmts := Stmt.mem_nestedAll.mpr ⟨whole, hwhole, hs'⟩
  refine ⟨fun x hx => ?_, fun e' he' => ?_⟩
  · have hbound : x ∈ Stmt.boundAll p.simplify.value.statements :=
      List.mem_flatMap.mpr ⟨s', hs', hx⟩
    have hold := (Stmt.boundAll_simplifyAll p.statements).subset hbound
    obtain ⟨s, hs, hx⟩ := List.mem_flatMap.mp hold
    exact (hstmts s hs).1 x hx
  · obtain ⟨s, hs, hbecomes⟩ := Program.exists_becomes hs'
    obtain ⟨e, he, rfl⟩ := hbecomes.of_expr he'
    exact ((hstmts s hs).2 e he).simplify

theorem Program.inRange_of_analyze {tree : List Tree.Stmt} {p : Program}
    (h : analyze tree = .ok p) : p.InRange := by
  obtain ⟨last, hleads, hlast⟩ := leads_of_analyze h
  have hmakes := hleads.makes Checking.Env.inRange_root
  exact ⟨hlast ▸ hmakes.range.tables, hlast ▸ hmakes.stmts⟩

theorem Program.inRange_of_compile {source : String} {simplify : Bool} {p : Program}
    (h : compile source simplify = .ok p) : p.InRange := by
  obtain ⟨tree, q, _, hanalyze, rfl⟩ := exists_of_compile h
  have hq := inRange_of_analyze hanalyze
  cases simplify with
  | true => exact hq.simplify
  | false => exact hq

/-- **No lookup ever fails.**

At every point of checking a list of trees, whether or not they break a rule later on, all that is
bound in a frame has a row, and so has all that is mentioned in the tables; the expressions that
pass checking there, the types that are written and what is made of a statement are in range, and
checking any expression or statement there misses no row.  From a point to the next one is a single
move, so a row that is completed is there as well; and what is in range once stays so at all later
points.  Checking the whole list misses no row.

A program that is made of a source, simplified or not, is in range.  Printing it misses no row and
yields its listing, and what stands behind the rows of its tables makes no difference to that. -/
theorem lookups_in_range :
    (∀ (trees : List Tree.Stmt) (site : Checking.Env), site ∈ Checking.Env.points trees →
      site.InRange ∧
      (∀ e, site.Accepts e → e.InRange site.entities) ∧
      (∀ type ty, Checking.resolveType site.scope type = .ok ty → ty.Known site.entities) ∧
      (∀ tree s next, Checking.checkStmt site tree = .ok (s, next) → s.InRange next.entities) ∧
      (∀ tree, (Checking.checkExpr site tree).Finds) ∧
      ∀ tree, (Checking.checkStmt site tree).Finds) ∧
    (∀ trees : List Tree.Stmt, (Checking.Env.points trees).IsChain Checking.Env.Move ∧
      ((Checking.Env.points trees).Pairwise fun earlier later =>
        (∀ e : Expr, e.InRange earlier.entities → e.InRange later.entities) ∧
        ∀ s : Stmt, s.InRange earlier.entities → s.InRange later.entities) ∧
      (Program.ofTree trees).Finds) ∧
    ∀ (source : String) (simplify : Bool) (p : Program), compile source simplify = .ok p →
      p.InRange ∧ p.print = .ok p.listing ∧
        ∀ E' : Entities, p.entities.Kept E' → Listing.render E' p.statements = p.listing := by
  refine ⟨fun trees site hsite => ?_, fun trees => ⟨?_, ?_, ?_⟩, fun source simplify p h => ?_⟩
  · have henv := Checking.Env.points_inRange trees site hsite
    exact ⟨henv, fun e he => he.inRange henv,
      fun type ty h => Checking.resolveType_keeps henv.keeps type h,
      fun tree s next h => Checking.checkStmt_inRange henv h,
      fun tree => Checking.checkExpr_finds henv tree,
      fun tree => Checking.checkStmt_finds henv tree⟩
  · exact Checking.Env.points_moves trees
  · exact (Checking.Env.points_noShorter trees).imp fun h =>
      ⟨fun e he => he.mono h, fun s hs => hs.mono h⟩
  · exact Checking.ofTree_finds trees
  · have hp := Program.inRange_of_compile h
    exact ⟨hp, hp.print_eq, fun E' hE => hp.listing_eq hE⟩

/-- `struct A { a: A }`, with all spans left blank. -/
def selfContainingTree : List Tree.Stmt :=
  let blank : Span := ⟨.start, 0⟩
  [.declareStruct ⟨"A", blank⟩ [⟨⟨"a", blank⟩, .named ⟨"A", blank⟩⟩] false blank]

/-- The struct is refused since it holds itself, and not for want of a row, although at the point in
front of this it is its own part, so that its row is looked up. -/
theorem lookups_in_range_selfContaining :
    (∃ fault, Program.ofTree selfContainingTree = .error fault ∧
      ∀ missing, fault.cause ≠ .noRow missing) ∧
    (∃ site ∈ Checking.Env.points selfContainingTree, ⟨0⟩ ∈ site.entities.parts ⟨0⟩ ∧
      site.InRange) ∧
    voidVariableProgram.InRange := by
  obtain ⟨hsites, hruns, hprograms⟩ := lookups_in_range
  refine ⟨?_, ?_, (hprograms _ _ _ compile_voidVariableSource).1⟩
  · obtain ⟨-, -, hfinds⟩ := hruns selfContainingTree
    obtain ⟨fault, hfault⟩ : ∃ fault, Program.ofTree selfContainingTree = .error fault := ⟨_, rfl⟩
    exact ⟨fault, hfault, fun missing h => hfinds missing fault.span (by rw [hfault, ← h])⟩
  · have hsite : ∃ site ∈ Checking.Env.points selfContainingTree,
        ⟨0⟩ ∈ site.entities.parts ⟨0⟩ :=
      ⟨_, List.mem_cons_of_mem _ (List.mem_cons_of_mem _ List.mem_cons_self), by decide⟩
    obtain ⟨site, hsite, hpart⟩ := hsite
    obtain ⟨henv, -⟩ := hsites selfContainingTree site hsite
    exact ⟨site, hsite, hpart, henv⟩

end TypedImp
