import TypedImp.Proofs.Listing.Named
import TypedImp.Proofs.Scoping.Checked
import TypedImp.Proofs.Token.Source

/-!
# What checking leaves of a parse tree

A listing needs more of a program than that it is well typed.  An array without elements may
have any element type as far as the rules of typing go, and a statement behind `else` may be
any statement.  What checking makes of the tree of a source is less arbitrary: all structs in
its types have a row, its numbers have no sign, and its statements have the forms that the
grammar builds.  `Expr.Spelled` and `Stmt.Spelled` say this of one node, relative to tables.

* `checkExpr_spelled`: an expression that passes checking is spelled, with all that is in it.
* `checkStmt_spelled`: so is a statement, relative to the tables behind it, and the names of
  the environment behind it are names again.
-/

namespace TypedImp

open Token

/-! ### Nodes -/

namespace Expr

variable {E : Entities}

/-- **What checking leaves of an expression**, apart from those within it. -/
structure Spelled (E : Entities) (e : Expr) : Prop where
  known : e.ty.Known E
  number : ∀ x ty, e = .number x ty → Binary64.NotNegative (Binary64.parts x)

def AllSpelled (E : Entities) (e : Expr) : Prop := ∀ e' ∈ e.nested, e'.Spelled E

theorem Spelled.mono {e e' : Entities} (h : e.KeepsForms e') {x : Expr} (hx : x.Spelled e) :
    x.Spelled e' :=
  ⟨hx.known.mono h, hx.number⟩

theorem AllSpelled.mono {e e' : Entities} (h : e.KeepsForms e') {x : Expr}
    (hx : x.AllSpelled e) : x.AllSpelled e' :=
  fun y hy => (hx y hy).mono h

theorem AllSpelled.known {e : Expr} (h : e.AllSpelled E) : e.ty.Known E :=
  (h e e.mem_nested_self).known

/-- A node that is no number, above nodes that are spelled. -/
theorem allSpelled_of_parts {e : Expr} (hty : e.ty.Known E) (hnum : ∀ x ty, e ≠ .number x ty)
    (hparts : ∀ part ∈ e.parts, part.AllSpelled E) : e.AllSpelled E := by
  intro e' he'
  rcases mem_nested_iff.mp he' with rfl | ⟨part, hp, he'⟩
  · exact ⟨hty, fun x ty h => absurd h (hnum x ty)⟩
  · exact hparts part hp e' he'

end Expr

namespace Stmt

variable {E : Entities}

/-- **What checking leaves of a statement**, apart from the expressions and the statements
within it. -/
def Spelled (E : Entities) : Stmt → Prop
  | declareStruct id => E.HasForm id false
  | declareClass id => E.HasForm id true
  | ifElseIf _ _ alternate => alternate.isConditional = true
  | call e => e.isCall = true
  | _ => True

def AllSpelled (E : Entities) (s : Stmt) : Prop :=
  ∀ s' ∈ s.nested, s'.Spelled E ∧ ∀ e ∈ s'.exprs, e.AllSpelled E

theorem Spelled.mono {e e' : Entities} (h : e.KeepsForms e') {s : Stmt} (hs : s.Spelled e) :
    s.Spelled e' := by
  cases s with
  | declareStruct id | declareClass id => exact h id _ hs
  | _ => exact hs

theorem AllSpelled.mono {e e' : Entities} (h : e.KeepsForms e') {s : Stmt}
    (hs : s.AllSpelled e) : s.AllSpelled e' :=
  fun s' hs' => ⟨(hs s' hs').1.mono h, fun x hx => ((hs s' hs').2 x hx).mono h⟩

theorem allSpelled_of_parts {s : Stmt} (hs : s.Spelled E) (hexprs : ∀ e ∈ s.exprs, e.AllSpelled E)
    (hparts : ∀ part ∈ s.parts, part.AllSpelled E) : s.AllSpelled E := by
  intro s' hs'
  rcases mem_nested_iff.mp hs' with rfl | ⟨part, hp, hs'⟩
  · exact ⟨hs, hexprs⟩
  · exact hparts part hp s' hs'

end Stmt

namespace Checking

variable {env : Env}

/-! ### Types -/

theorem resolveType_known {E : Entities} {s : Scope} (hs : s.Known E) (type : Tree.TypeExpr)
    {ty : Ty} (h : resolveType s type = .ok ty) : ty.Known E := by
  replace h := resolves_of_resolveType type h
  induction h with
  | type h | struct h => exact hs _ _ h
  | array _ ih => exact ih
  | function hlen _ _ ihparams ihresult =>
    exact ⟨Ty.knownAll_iff.mpr (forall_mem_of_zip hlen ihparams), ihresult⟩

/-! ### Expressions -/

theorem known_resultTy {E : Entities} {op : BinaryOp} {ty : Ty} (h : ty.Known E) :
    (resultTy op ty).Known E := by
  cases op with
  | add => exact h
  | _ => trivial

/-- **An expression that passes checking is spelled**, with all that is in it. -/
theorem checkExpr_spelled (henv : env.Named) (tree : Tree.Expr) (ht : tree.Built Kind.IsLexed)
    {e : Expr} (h : checkExpr env tree = .ok e) : e.AllSpelled env.entities := by
  replace h := passes_of_checkExpr tree h
  induction h with
  | number =>
    intro e' he'
    rw [List.mem_singleton.mp he']
    refine ⟨trivial, fun x ty hx => ?_⟩
    cases hx
    exact ht
  | string | bool => exact Expr.allSpelled_of_parts trivial nofun (List.forall_mem_nil _)
  | @var _ id h =>
    exact Expr.allSpelled_of_parts (henv.tables.known_variableAt id) nofun (List.forall_mem_nil _)
  | @func _ id h =>
    exact Expr.allSpelled_of_parts (henv.tables.known_functionAt id) nofun (List.forall_mem_nil _)
  | struct h =>
    exact Expr.allSpelled_of_parts (henv.tables.known_constructor (henv.scope _ _ h)) nofun
      (List.forall_mem_nil _)
  | binary _ _ _ ihl ihr =>
    have hl := ihl ht.1
    exact Expr.allSpelled_of_parts (known_resultTy hl.known) nofun
      (List.forall_mem_cons.mpr ⟨hl, List.forall_mem_singleton.mpr (ihr ht.2)⟩)
  | neg _ _ ih | not _ _ ih =>
    exact Expr.allSpelled_of_parts trivial nofun (List.forall_mem_singleton.mpr (ih ht))
  | @array _ _ _ first hlen _ hfirst _ ih =>
    have hes := forall_mem_of_zip_imp hlen ih (Tree.Expr.builtAll_iff.mp ht)
    have hknown : first.ty.Known env.entities := (hes first hfirst).known
    exact Expr.allSpelled_of_parts hknown nofun hes
  | @emptyArray _ _ ty h =>
    have hknown : ty.Known env.entities := resolveType_known henv.scope _ h
    exact Expr.allSpelled_of_parts hknown nofun (List.forall_mem_nil _)
  | call _ hty hlen _ _ ihf ihes =>
    have hf := ihf ht.1
    have hes := forall_mem_of_zip_imp hlen ihes (Tree.Expr.builtAll_iff.mp ht.2)
    have hknown := hf.known
    rw [hty] at hknown
    exact Expr.allSpelled_of_parts hknown.2 nofun (List.forall_mem_cons.mpr ⟨hf, hes⟩)
  | @member _ _ _ _ id row _ hty hrow ih =>
    have hknown := henv.tables.known_fields id row (List.mem_of_find?_eq_some hrow)
    exact Expr.allSpelled_of_parts hknown nofun (List.forall_mem_singleton.mpr (ih ht.1))
  | subscript _ hty _ _ iha ihi =>
    have ha := iha ht.1
    have hknown := ha.known
    rw [hty] at hknown
    exact Expr.allSpelled_of_parts hknown nofun
      (List.forall_mem_cons.mpr ⟨ha, List.forall_mem_singleton.mpr (ihi ht.2)⟩)

/-! ### Declarations -/

theorem declareVariable_spelled (henv : env.Named) {name : Tree.Name} (hname : IsName name.text)
    {readOnly : Bool} {type : Option Tree.TypeExpr} {written : Option Tree.Expr}
    (ht : ∀ tree ∈ written, tree.Built Kind.IsLexed) {span : Span} {s : Stmt} {env' : Env}
    (h : declareVariable env name readOnly type written span = .ok (s, env')) :
    env.NamedBehind env' ∧ s.AllSpelled env'.entities := by
  obtain ⟨e, ty, _, he, hty, _, rfl, rfl⟩ := declareVariable_eq_ok h
  obtain ⟨hsome, hes⟩ := checkOption_eq_ok he
  replace hes : ∀ x ∈ e, x.AllSpelled env.entities := fun x hx => by
    obtain ⟨tree, hmem, htree⟩ := hes x hx
    exact checkExpr_spelled henv tree (ht tree hmem) htree
  have hknown : ty.Known env.entities := by
    rcases variableTy_eq_ok hsome hty with ⟨type, _, ht, _⟩ | ⟨x, hx, rfl⟩
    · exact resolveType_known henv.scope type ht
    · exact (hes x hx).known
  have hbehind := henv.addVariable hname readOnly hknown
  refine ⟨hbehind, Stmt.allSpelled_of_parts trivial (fun x hx => ?_) (List.forall_mem_nil _)⟩
  exact (hes x (Option.mem_toList.mp hx)).mono hbehind.forms

theorem Env.PassesParams.named {params : List Tree.Annotated} {ids : List VariableId}
    {tys : List Ty} {env' : Env} (h : env.PassesParams params ids tys env') (henv : env.Named)
    (ht : ∀ p ∈ params, p.Built Kind.IsLexed) :
    env.NamedBehind env' ∧ ∀ ty ∈ tys, ty.Known env'.entities := by
  induction h with
  | nil => exact ⟨henv.behind, List.forall_mem_nil _⟩
  | cons param _ hty _ _ ih =>
    obtain ⟨hparam, hparams⟩ := List.forall_mem_cons.mp ht
    have hknown := resolveType_known henv.scope param.type hty
    have hadd := henv.addVariable hparam.1 false hknown
    obtain ⟨hbehind, htys⟩ := ih hadd.named hparams
    exact ⟨hadd.trans hbehind,
      List.forall_mem_cons.mpr ⟨hknown.mono (hadd.forms.trans hbehind.forms), htys⟩⟩

theorem resultType_known {E : Entities} {s : Scope} (hs : s.Known E)
    {type : Option Tree.TypeExpr} {ty : Ty} (h : resultType s type = .ok ty) : ty.Known E := by
  cases type with
  | none => cases h; trivial
  | some type => exact resolveType_known hs type h

/-- A function declared up to its body. -/
theorem openFunction_named (henv : env.Named) {name : Tree.Name} (hname : IsName name.text)
    {params : List Tree.Annotated} (ht : ∀ p ∈ params, p.Built Kind.IsLexed)
    {result : Option Tree.TypeExpr} {f : OpenFunction}
    (h : openFunction env name params result = .ok f) :
    env.NamedBehind f.inner ∧ f.outer.Known f.inner.entities := by
  obtain ⟨ty, ids, tys, inner, _, hty, hp, rfl⟩ := openFunction_eq_ok h
  have hadd : env.entities.KeepsForms (env.addFunction name.text).2.entities :=
    Entities.keepsForms_of_structs rfl
  have hopen : (env.addFunction name.text).2.Named :=
    ⟨henv.tables.addFunction ⟨hname, trivial, trivial⟩, (henv.scope.mono hadd).bind _ trivial⟩
  have hresult := resultType_known hopen.scope hty
  obtain ⟨hbehind, htys⟩ := hp.named (hopen.within (hopen.scope.enter _)) ht
  have hset : inner.entities.KeepsForms
      (inner.entities.setSignature env.entities.nextFunction ⟨tys, ty⟩) :=
    Entities.keepsForms_of_structs rfl
  have hsignature : (Signature.ty ⟨tys, ty⟩).Known inner.entities :=
    ⟨Ty.knownAll_iff.mpr htys, hresult.mono hbehind.forms⟩
  exact ⟨⟨⟨hbehind.named.tables.setSignature _ hsignature, hbehind.named.scope.mono hset⟩,
    (hadd.trans hbehind.forms).trans hset⟩, hopen.scope.mono (hbehind.forms.trans hset)⟩

theorem resolveFields_named {E : Entities} {s : Scope} (hs : s.Known E) {seen : List String}
    {trees : List Tree.Annotated} (ht : ∀ f ∈ trees, f.Built Kind.IsLexed) {fields : List Field}
    (h : resolveFields s seen trees = .ok fields) :
    ∀ field ∈ fields, E.KnownAnnotated field.name field.ty := by
  intro field hf
  obtain ⟨_, tree, hmem, hname, hty⟩ := (resolveFields_eq_ok h).2 field hf
  exact ⟨hname ▸ (ht tree hmem).1, resolveType_known hs tree.type hty⟩

theorem declareStruct_spelled (henv : env.Named) {name : Tree.Name} (hname : IsName name.text)
    {trees : List Tree.Annotated} (ht : ∀ f ∈ trees, f.Built Kind.IsLexed) {isClass : Bool}
    {span : Span} {s : Stmt} {env' : Env}
    (h : declareStruct env name trees isClass span = .ok (s, env')) :
    env.NamedBehind env' ∧ s.AllSpelled env'.entities := by
  obtain ⟨fields, _, _, hf, _, rfl, rfl⟩ := declareStruct_eq_ok h
  have hadd := env.entities.keepsForms_addStruct ⟨name.text, [], isClass⟩
  have hform := env.entities.hasForm_addStruct ⟨name.text, [], isClass⟩
  have hscope := (henv.scope.mono hadd).bind name.text (b := .struct env.entities.nextStruct)
    hform.1
  have hfields := resolveFields_named hscope ht hf
  have hset := (env.entities.addStruct ⟨name.text, [], isClass⟩).keepsForms_setFields
    env.entities.nextStruct fields
  refine ⟨⟨⟨(henv.tables.addStruct hname isClass).setFields _ hfields, hscope.mono hset⟩,
    hadd.trans hset⟩, ?_⟩
  have hform' := hset _ _ hform
  cases isClass with
  | false => exact Stmt.allSpelled_of_parts hform' (List.forall_mem_nil _) (List.forall_mem_nil _)
  | true => exact Stmt.allSpelled_of_parts hform' (List.forall_mem_nil _) (List.forall_mem_nil _)

theorem declareError_named (henv : env.Named) {name : Option Tree.Name}
    (hname : ∀ n ∈ name, IsName n.text) {error : Option VariableId} {env' : Env}
    (h : declareError env name = (error, env')) : env.NamedBehind env' := by
  cases name with
  | none => cases h; exact henv.behind
  | some name => cases h; exact henv.addVariable (hname name rfl) true trivial

/-! ### Statements -/

mutual

/-- **A statement that passes checking is spelled** relative to the tables behind it, and the
names there are names. -/
theorem checkStmt_spelled {env env' : Env} (henv : env.Named) (tree : Tree.Stmt)
    (ht : tree.Built Kind.IsLexed) {s : Stmt} (h : checkStmt env tree = .ok (s, env')) :
    env.NamedBehind env' ∧ s.AllSpelled env'.entities := by
  cases passesStmt_of_checkStmt h with
  | declareVariable h => exact declareVariable_spelled henv ht.1 ht.2.2 h
  | declareStruct h => exact declareStruct_spelled henv ht.1 ht.2 h
  | declareFunction hf hbody =>
    obtain ⟨hopen, hout⟩ := openFunction_named henv ht.1 ht.2.1 hf
    obtain ⟨hbehind, hbs⟩ := checkStmts_spelled hopen.named _ ht.2.2.2 hbody
    refine ⟨⟨⟨hbehind.named.tables, hout.mono hbehind.forms⟩, hopen.forms.trans hbehind.forms⟩, ?_⟩
    exact Stmt.allSpelled_of_parts trivial (List.forall_mem_nil _) hbs
  | ifThen htest _ hc =>
    have hts := checkExpr_spelled henv _ ht.1 htest
    obtain ⟨hbehind, hcs⟩ := checkStmts_spelled (henv.within (henv.scope.enter {})) _ ht.2 hc
    refine ⟨henv.around hbehind.named hbehind.forms, ?_⟩
    have htests := List.forall_mem_singleton.mpr (hts.mono hbehind.forms)
    exact Stmt.allSpelled_of_parts trivial htests hcs
  | ifElse htest _ hc ha =>
    have hts := checkExpr_spelled henv _ ht.1 htest
    obtain ⟨hbehind, hcs⟩ := checkStmts_spelled (henv.within (henv.scope.enter {})) _ ht.2.1 hc
    have hmid := henv.around hbehind.named hbehind.forms
    obtain ⟨hbehind', has⟩ :=
      checkStmts_spelled (hmid.named.within (hmid.named.scope.enter {})) _ ht.2.2 ha
    have hk := hbehind.forms.trans hbehind'.forms
    refine ⟨henv.around hbehind'.named hk, ?_⟩
    have htests := List.forall_mem_singleton.mpr (hts.mono hk)
    refine Stmt.allSpelled_of_parts trivial htests fun s hs => ?_
    rcases List.mem_append.mp hs with hs | hs
    · exact (hcs s hs).mono hbehind'.forms
    · exact has s hs
  | ifElseIf htest _ hc ha =>
    have hts := checkExpr_spelled henv _ ht.1 htest
    obtain ⟨hbehind, hcs⟩ := checkStmts_spelled (henv.within (henv.scope.enter {})) _ ht.2.1 hc
    have hmid := henv.around hbehind.named hbehind.forms
    obtain ⟨hbehind', has⟩ := checkStmt_spelled hmid.named _ ht.2.2.2 ha
    have hk := hbehind.forms.trans hbehind'.forms
    refine ⟨⟨hbehind'.named, hk⟩, ?_⟩
    have htests := List.forall_mem_singleton.mpr (hts.mono hk)
    refine Stmt.allSpelled_of_parts (isConditional_of_checkStmt ht.2.2.1 ha) htests fun s hs => ?_
    rcases List.mem_append.mp hs with hs | hs
    · exact (hcs s hs).mono hbehind'.forms
    · rw [List.mem_singleton.mp hs]
      exact has
  | whileLoop htest _ hbody =>
    have hts := checkExpr_spelled henv _ ht.1 htest
    obtain ⟨hbehind, hbs⟩ := checkStmts_spelled (henv.within (henv.scope.enter _)) _ ht.2 hbody
    refine ⟨henv.around hbehind.named hbehind.forms, ?_⟩
    have htests := List.forall_mem_singleton.mpr (hts.mono hbehind.forms)
    exact Stmt.allSpelled_of_parts trivial htests hbs
  | rangeLoop iterator hl _ hu _ hbody =>
    have hls := checkExpr_spelled henv _ ht.2.1 hl
    have hus := checkExpr_spelled henv _ ht.2.2.1 hu
    have hadd := (henv.within (henv.scope.enter { inLoop := some true })).addVariable ht.1 true
      (show Ty.number.Known env.entities from trivial)
    obtain ⟨hbehind, hbs⟩ := checkStmts_spelled hadd.named _ ht.2.2.2 hbody
    have hk := hadd.forms.trans hbehind.forms
    refine ⟨henv.around hbehind.named hk, ?_⟩
    exact Stmt.allSpelled_of_parts trivial
      (List.forall_mem_cons.mpr ⟨hls.mono hk, List.forall_mem_singleton.mpr (hus.mono hk)⟩) hbs
  | @collectionLoop iterator _ _ _ _ _ element _ _ he hty hbody =>
    have hes := checkExpr_spelled henv _ ht.2.1 he
    have hknown := hes.known
    rw [hty] at hknown
    have hadd := (henv.within (henv.scope.enter { inLoop := some true })).addVariable ht.1 true
      (show element.Known env.entities from hknown)
    obtain ⟨hbehind, hbs⟩ := checkStmts_spelled hadd.named _ ht.2.2 hbody
    have hk := hadd.forms.trans hbehind.forms
    refine ⟨henv.around hbehind.named hk, ?_⟩
    exact Stmt.allSpelled_of_parts trivial (List.forall_mem_singleton.mpr (hes.mono hk)) hbs
  | retNothing | breakLoop | continueLoop =>
    exact ⟨henv.behind,
      Stmt.allSpelled_of_parts trivial (List.forall_mem_nil _) (List.forall_mem_nil _)⟩
  | retValue _ _ he =>
    have hes := checkExpr_spelled henv _ (ht _ rfl) he
    exact ⟨henv.behind, Stmt.allSpelled_of_parts trivial (List.forall_mem_singleton.mpr hes)
      (List.forall_mem_nil _)⟩
  | tryCatch name hbody hhandler =>
    obtain ⟨hbehind, hbs⟩ := checkStmts_spelled (henv.within (henv.scope.enter {})) _ ht.1 hbody
    have hmid := henv.around hbehind.named hbehind.forms
    have herror := declareError_named (hmid.named.within (hmid.named.scope.enter {})) ht.2.1 rfl
    obtain ⟨hbehind', hhs⟩ := checkStmts_spelled herror.named _ ht.2.2 hhandler
    have hk := herror.forms.trans hbehind'.forms
    refine ⟨henv.around hbehind'.named (hbehind.forms.trans hk), ?_⟩
    refine Stmt.allSpelled_of_parts trivial (List.forall_mem_nil _) fun s hs => ?_
    rcases List.mem_append.mp hs with hs | hs
    · exact (hbs s hs).mono hk
    · exact hhs s hs
  | print he =>
    have hes := checkExpr_spelled henv _ ht he
    exact ⟨henv.behind, Stmt.allSpelled_of_parts trivial (List.forall_mem_singleton.mpr hes)
      (List.forall_mem_nil _)⟩
  | increment htarget | decrement htarget =>
    have hes := checkExpr_spelled henv _ ht (checkTarget_eq_ok htarget).1
    exact ⟨henv.behind, Stmt.allSpelled_of_parts trivial (List.forall_mem_singleton.mpr hes)
      (List.forall_mem_nil _)⟩
  | assign htarget he =>
    have hts := checkExpr_spelled henv _ ht.1 (checkTarget_eq_ok htarget).1
    have hes := checkExpr_spelled henv _ ht.2 he
    exact ⟨henv.behind, Stmt.allSpelled_of_parts trivial
      (List.forall_mem_cons.mpr ⟨hts, List.forall_mem_singleton.mpr hes⟩) (List.forall_mem_nil _)⟩
  | call he =>
    have hes := checkExpr_spelled henv _ ht.2 he
    exact ⟨henv.behind, Stmt.allSpelled_of_parts ((passes_of_checkExpr _ he).isCall ht.1)
      (List.forall_mem_singleton.mpr hes) (List.forall_mem_nil _)⟩
termination_by structural tree

theorem checkStmts_spelled {env env' : Env} (henv : env.Named) (trees : List Tree.Stmt)
    (ht : Tree.Stmt.BuiltAll Kind.IsLexed trees) {ss : List Stmt}
    (h : checkStmts env trees = .ok (ss, env')) :
    env.NamedBehind env' ∧ ∀ s ∈ ss, s.AllSpelled env'.entities := by
  cases trees with
  | nil => cases h; exact ⟨henv.behind, by simp⟩
  | cons tree trees =>
    obtain ⟨s, mid, others, hs, hothers, rfl⟩ := checkStmts_cons_eq_ok h
    obtain ⟨hmid, hspelled⟩ := checkStmt_spelled henv tree ht.1 hs
    obtain ⟨hlast, hos⟩ := checkStmts_spelled hmid.named trees ht.2 hothers
    exact ⟨hmid.trans hlast, List.forall_mem_cons.mpr ⟨hspelled.mono hlast.forms, hos⟩⟩
termination_by structural trees

end

end Checking

end TypedImp
