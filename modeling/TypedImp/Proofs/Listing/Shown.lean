import TypedImp.Proofs.Listing.ReadBack
import TypedImp.Proofs.Listing.Unusual

/-!
# Every listing can be read

A listing may hold what is not read as it was: a number below zero is read as a sign in front
of a number, one that is not finite as a name, and a code point in a string as its digits.
`Program.shown` has these in place of the numbers and strings of a program.  Its listing has the
same tokens (`Program.kinds_shown`), and it can be read again
(`Program.Printable.readable_shown`).

So every program that can be shown has a listing that can be read, and **every program that is
made of a source can be shown**, simplified or not: `Program.parse_listing_of_compile`.
-/

namespace TypedImp

open Listing Token

/-! ### Numbers that are not finite -/

namespace Entities

/-- Tables with two more functions of the language, which have the names of the numbers that are
not finite. -/
def withWords (E : Entities) : Entities :=
  (E.addFunction ⟨"inf", ⟨[], .number⟩, true⟩).addFunction ⟨"NaN", ⟨[], .number⟩, true⟩

def wordFor (E : Entities) (x : Float) : FunctionId :=
  if Decimal.text x = "inf" then ⟨E.funcs.size⟩ else ⟨E.funcs.size + 1⟩

variable (E : Entities)

theorem functionAt_withWords {id : FunctionId} (h : id.index < E.funcs.size) :
    E.withWords.functionAt id = E.functionAt id := by
  rw [withWords, functionAt_addFunction, addFunction, Array.size_push, if_neg (by omega)]
  exact (functionAt_addFunction E _ id).trans (if_neg (by omega))

theorem ofFunction_wordFor {x : Float} (hx : Decimal.isSigned x = false)
    (hfinite : x.isFinite = false) : ofFunction E.withWords (E.wordFor x) = Decimal.text x := by
  have hsize (f : Function) : (E.addFunction f).funcs.size = E.funcs.size + 1 := Array.size_push f
  rw [ofFunction, wordFor, withWords, functionAt_addFunction, functionAt_addFunction, hsize]
  rcases Decimal.text_of_not_isFinite hx hfinite with h | h
  · simp [h]
  · simp [h]

theorem size_withWords : E.withWords.funcs.size = E.funcs.size + 2 := by
  simp [withWords, addFunction]

theorem wordFor_lt (x : Float) : (E.wordFor x).index < E.withWords.funcs.size := by
  rw [wordFor, E.size_withWords]
  split
  · exact Nat.lt_add_of_pos_right (by omega)
  · exact Nat.lt_succ_self _

end Entities

/-! ### Types -/

namespace Entities

variable (E : Entities)

mutual

theorem typeKinds_withWords (ty : Ty) : E.withWords.typeKinds ty = E.typeKinds ty := by
  cases ty with
  | number | string | bool | void | any | struct => rfl
  | array element => rw [typeKinds, typeKinds, typeKinds_withWords element]
  | function params result =>
    rw [typeKinds, typeKinds, typeKindsAll_withWords params, typeKinds_withWords result]
termination_by structural ty

theorem typeKindsAll_withWords (tys : List Ty) :
    E.withWords.typeKindsAll tys = E.typeKindsAll tys := by
  cases tys with
  | nil => rfl
  | cons ty tys =>
    rw [typeKindsAll, typeKindsAll, typeKinds_withWords ty, typeKindsAll_withWords tys]
termination_by structural tys

end

mutual

theorem readableType_withWords (ty : Ty) : E.withWords.ReadableType ty ↔ E.ReadableType ty := by
  cases ty with
  | number | string | bool | void | any | struct => rfl
  | array element => rw [ReadableType, ReadableType, readableType_withWords element]
  | function params result =>
    rw [ReadableType, ReadableType, readableTypes_withWords params, readableType_withWords result]
termination_by structural ty

theorem readableTypes_withWords (tys : List Ty) :
    E.withWords.ReadableTypes tys ↔ E.ReadableTypes tys := by
  cases tys with
  | nil => rfl
  | cons ty tys =>
    rw [ReadableTypes, ReadableTypes, readableType_withWords ty, readableTypes_withWords tys]
termination_by structural tys

end

theorem variableKinds_withWords (id : VariableId) :
    E.withWords.variableKinds id = E.variableKinds id := by
  rw [variableKinds, variableKinds, annotatedKinds, annotatedKinds, typeKinds_withWords]
  rfl

theorem fieldKinds_withWords (id : StructId) : E.withWords.fieldKinds id = E.fieldKinds id := by
  refine List.map_congr_left fun field _ => ?_
  rw [annotatedKinds, annotatedKinds, typeKinds_withWords]

theorem readableVariable_withWords (id : VariableId) :
    E.withWords.ReadableVariable id ↔ E.ReadableVariable id :=
  and_congr_right fun _ => E.readableType_withWords _

theorem readableStruct_withWords (id : StructId) :
    E.withWords.ReadableStruct id ↔ E.ReadableStruct id :=
  and_congr_right fun _ => forall₂_congr fun _ _ =>
    and_congr_right fun _ => E.readableType_withWords _

end Entities

/-! ### Expressions -/

namespace Expr

section

variable (E : Entities)

def shownUnsigned (x : Float) (ty : Ty) : Expr :=
  if x.isFinite then .number x ty else .func (E.wordFor x) ty

def shownNumber (x : Float) (ty : Ty) : Expr :=
  if Decimal.isSigned x then .unary .neg (shownUnsigned E (-x) ty) ty else shownUnsigned E x ty

mutual

/-- **What an expression is read as**: its literals become what is read in their place. -/
def shown : Expr → Expr
  | number x ty => shownNumber E x ty
  | string s ty => .string (asRead s) ty
  | bool b ty => .bool b ty
  | var id ty => .var id ty
  | func id ty => .func id ty
  | struct id ty => .struct id ty
  | binary op l r ty => .binary op l.shown r.shown ty
  | unary op e ty => .unary op e.shown ty
  | array es ty => .array (shownAll es) ty
  | call f args ty => .call f.shown (shownAll args) ty
  | member o field ty => .member o.shown field ty
  | subscript a i ty => .subscript a.shown i.shown ty

def shownAll : List Expr → List Expr
  | [] => []
  | e :: es => e.shown :: shownAll es

end

end

variable {E : Entities}

theorem shownAll_eq_map (es : List Expr) : shownAll E es = es.map (shown E) := by
  induction es with
  | nil => rfl
  | cons e es ih => rw [shownAll, ih, List.map_cons]

/-! ### Forms -/

theorem isUnary_shownUnsigned (x : Float) (ty : Ty) : (shownUnsigned E x ty).isUnary = false := by
  rw [shownUnsigned]
  split <;> rfl

theorem isSigned_shownUnsigned {x : Float} (ty : Ty) (hx : Decimal.isSigned x = false) :
    (shownUnsigned E x ty).isSigned = false := by
  rw [shownUnsigned]
  split
  · exact hx
  · rfl

theorem isUnary_shown {e : Expr} (h : e.isSigned = false) : (e.shown E).isUnary = e.isUnary := by
  cases e with
  | number x ty =>
    have hx : Decimal.isSigned x = false := h
    rw [shown, shownNumber, hx, if_neg Bool.false_ne_true]
    exact isUnary_shownUnsigned x ty
  | _ => rfl

/-- What is read has no literal with a sign. -/
theorem isSigned_shown (e : Expr) : (e.shown E).isSigned = false := by
  cases e with
  | number x ty =>
    rw [shown, shownNumber]
    split
    · rfl
    · rename_i hx
      exact isSigned_shownUnsigned ty (Bool.not_eq_true _ ▸ hx)
  | _ => rfl

theorem takesSuffix_shown {e : Expr} (h : e.takesSuffix = true) :
    (e.shown E).takesSuffix = true := by
  cases e with
  | number | unary => cases h
  | _ => rfl

theorem isArray_shown {e : Expr} (h : e.takesSuffix = true) (harray : e.isArray = false) :
    (e.shown E).isArray = false := by
  cases e with
  | number => cases h
  | array => cases harray
  | _ => rfl

/-! ### Tokens -/

theorem kinds_shownUnsigned {x : Float} (ty : Ty) (hx : Decimal.isSigned x = false) :
    (shownUnsigned E x ty).kinds E.withWords = [unsignedKind x] := by
  rw [shownUnsigned, unsignedKind]
  split
  · rename_i hfinite
    have hplain := Decimal.plain_of_isFinite (Decimal.isSigned_eq_false_iff.mp hx) hfinite
    rw [kinds, numberKinds_of_plain hplain]
  · rename_i hfinite
    rw [kinds, E.ofFunction_wordFor hx (Bool.not_eq_true _ ▸ hfinite)]

theorem kinds_shownNumber (x : Float) (ty : Ty) :
    (shownNumber E x ty).kinds E.withWords = numberKinds x := by
  rw [shownNumber, numberKinds]
  split
  · rename_i hx
    have hkinds := kinds_shownUnsigned (E := E) ty (Decimal.isSigned_neg hx)
    rw [kinds, isUnary_shownUnsigned, if_neg Bool.false_ne_true, hkinds]
    rfl
  · rename_i hx
    exact kinds_shownUnsigned ty (Bool.not_eq_true _ ▸ hx)

/-- **What is read has the tokens of the expression.** -/
theorem kinds_shown (e : Expr) (h : ∀ e' ∈ e.nested, e'.Printable E) :
    (e.shown E).kinds E.withWords = e.kinds E := by
  have all {es : List Expr} (h : ∀ e ∈ es, (e.shown E).kinds E.withWords = e.kinds E) :
      kindsAll E.withWords (shownAll E es) = kindsAll E es := by
    rw [kindsAll_eq_map, kindsAll_eq_map, shownAll_eq_map, List.map_map]
    exact List.map_congr_left h
  induction e with
  | number x ty => exact kinds_shownNumber x ty
  | string s ty => rw [shown, kinds, kinds, asRead_eq_self (readsBack_asRead s)]
  | bool | var | struct => rfl
  | func id ty =>
    have hid := (h _ (mem_nested_self _)).2
    rw [shown, kinds, kinds, ofFunction, ofFunction, E.functionAt_withWords hid]
  | binary op l r ty ihl ihr =>
    have hparts := forall_nested_of_part h
    have hl := ihl (hparts l (by simp [parts]))
    have hr := ihr (hparts r (by simp [parts]))
    rw [shown, kinds, kinds, hl, hr]
  | unary op x ty ih =>
    have hx := ih (forall_nested_of_part h x (by simp [parts]))
    have hsigned : x.isSigned = false := h _ (mem_nested_self _)
    rw [shown, kinds, kinds, hx, isUnary_shown hsigned]
  | array es ty ih =>
    have hparts := forall_nested_of_part h
    have hes := all fun e he => ih e he (hparts e he)
    cases es with
    | nil => rw [shown, shownAll, kinds, kinds, E.typeKinds_withWords]
    | cons e es =>
      rw [shown, shownAll, kinds, kinds, ← kindsAll, ← kindsAll, ← shownAll, hes]
  | call f args ty ihf ihargs =>
    have hparts := forall_nested_of_part h
    have hf := ihf (hparts f (by simp [parts]))
    have hargs := all fun e he => ihargs e he (hparts e (by simp [parts, he]))
    rw [shown, kinds, kinds, hf, hargs]
  | member o field ty ih =>
    have ho := ih (forall_nested_of_part h o (by simp [parts]))
    rw [shown, kinds, kinds, ho]
  | subscript a i ty iha ihi =>
    have hparts := forall_nested_of_part h
    have ha := iha (hparts a (by simp [parts]))
    have hi := ihi (hparts i (by simp [parts]))
    rw [shown, kinds, kinds, ha, hi]

/-! ### Reading -/

theorem readable_of_parts {E : Entities} {e : Expr} (h : e.Readable E)
    (hparts : ∀ part ∈ e.parts, ∀ e' ∈ part.nested, e'.Readable E) :
    ∀ e' ∈ e.nested, e'.Readable E := by
  intro e' he'
  rcases mem_nested_iff.mp he' with rfl | ⟨part, hp, he'⟩
  · exact h
  · exact hparts part hp e' he'

theorem readable_shownUnsigned {x : Float} (ty : Ty) (hx : Decimal.isSigned x = false) :
    ∀ e ∈ (shownUnsigned E x ty).nested, e.Readable E.withWords := by
  rw [shownUnsigned]
  split
  · rename_i hfinite
    have hplain := Decimal.plain_of_isFinite (Decimal.isSigned_eq_false_iff.mp hx) hfinite
    exact readable_of_parts ⟨trivial, hplain⟩ (List.forall_mem_nil _)
  · rename_i hfinite
    have hfinite := Bool.not_eq_true _ ▸ hfinite
    refine readable_of_parts ⟨⟨?_, E.wordFor_lt x⟩, trivial⟩ (List.forall_mem_nil _)
    rw [E.ofFunction_wordFor hx hfinite]
    exact isName_text hx hfinite

theorem readable_shownNumber (x : Float) (ty : Ty) :
    ∀ e ∈ (shownNumber E x ty).nested, e.Readable E.withWords := by
  rw [shownNumber]
  split
  · rename_i hx
    have hneg := Decimal.isSigned_neg hx
    exact readable_of_parts ⟨isSigned_shownUnsigned ty hneg, trivial⟩
      (List.forall_mem_singleton.mpr (readable_shownUnsigned ty hneg))
  · rename_i hx
    exact readable_shownUnsigned ty (Bool.not_eq_true _ ▸ hx)

theorem parts_shown {e : Expr} (h : e.number? = none) :
    (e.shown E).parts = e.parts.map (shown E) := by
  cases e with
  | number => cases h
  | array es ty => exact shownAll_eq_map es
  | call f args ty => rw [shown, parts, parts, shownAll_eq_map, List.map_cons]
  | _ => rfl

/-- A node that is no number. -/
theorem readable_shown_node {e : Expr} (hnumber : e.number? = none) (h : e.Printable E) :
    (e.shown E).Readable E.withWords := by
  cases e with
  | number => cases hnumber
  | string s ty => exact ⟨trivial, readsBack_asRead s⟩
  | bool | var | struct | binary => exact ⟨h, trivial⟩
  | func id ty =>
    obtain ⟨hname, hid⟩ := h
    have hsize := E.size_withWords
    refine ⟨⟨?_, by omega⟩, trivial⟩
    rw [ofFunction, E.functionAt_withWords hid]
    exact hname
  | unary op x ty => exact ⟨isSigned_shown x, trivial⟩
  | array es ty =>
    cases es with
    | nil =>
      obtain ⟨element, rfl, htype⟩ := h
      exact ⟨⟨element, rfl, (E.readableType_withWords element).mpr htype⟩, trivial⟩
    | cons e es => exact ⟨trivial, trivial⟩
  | call f args ty => exact ⟨⟨takesSuffix_shown h.1, isArray_shown h.1 h.2⟩, trivial⟩
  | member o field ty => exact ⟨⟨takesSuffix_shown h.1, h.2⟩, trivial⟩
  | subscript a i ty => exact ⟨takesSuffix_shown h, trivial⟩

/-- **What is read of an expression can be read again.** -/
theorem readable_shown (e : Expr) (h : ∀ e' ∈ e.nested, e'.Printable E) :
    ∀ e' ∈ (e.shown E).nested, e'.Readable E.withWords := by
  induction e using parts_induction with
  | step e ih =>
    cases hnumber : e.number? with
    | some x =>
      cases e with
      | number y ty => exact readable_shownNumber y ty
      | _ => cases hnumber
    | none =>
      refine readable_of_parts (readable_shown_node hnumber (h e e.mem_nested_self)) ?_
      intro part hp
      rw [parts_shown hnumber] at hp
      obtain ⟨x, hx, rfl⟩ := List.mem_map.mp hp
      exact ih x hx (forall_nested_of_part h x hx)

end Expr

/-! ### Statements -/

namespace Stmt

variable {E : Entities}

/-- **What a statement is read as.** -/
def shown (E : Entities) : Stmt → Stmt := mapExprs (Expr.shown E)

theorem AllPrintable.kinds_expr {s : Stmt} (h : s.AllPrintable E) {e : Expr} (he : e ∈ s.exprs) :
    (e.shown E).kinds E.withWords = e.kinds E :=
  e.kinds_shown (h.expr he)

/-- **What is read has the tokens of the statement.** -/
theorem kinds_shown (s : Stmt) (h : s.AllPrintable E) :
    (s.shown E).kinds E.withWords = s.kinds E := by
  have all {ss : List Stmt} (h : ∀ s ∈ ss, (s.shown E).kinds E.withWords = s.kinds E) :
      kindsAll E.withWords (mapExprsAll (Expr.shown E) ss) = kindsAll E ss := by
    rw [kindsAll_eq_flatMap, kindsAll_eq_flatMap, mapExprsAll_eq_map, List.flatMap_map]
    exact List.flatMap_congr h
  induction s with
  | declareVariable id e =>
    cases e with
    | none =>
      rw [shown, mapExprs, kinds, kinds, E.variableKinds_withWords]
      rfl
    | some e =>
      have he := h.kinds_expr (List.mem_singleton_self e)
      rw [shown, mapExprs, kinds, kinds, E.variableKinds_withWords, Option.map_some,
        Option.elim_some, Option.elim_some, he]
      rfl
  | declareFunction id params body ih =>
    have hbody := all fun s hs => ih s hs (h.part hs)
    obtain ⟨-, hid, -⟩ := h.self
    have hparams : params.map E.withWords.variableKinds = params.map E.variableKinds :=
      List.map_congr_left fun id _ => E.variableKinds_withWords id
    rw [shown, mapExprs, kinds, kinds, hbody, hparams, ofFunction, ofFunction,
      E.functionAt_withWords hid, E.typeKinds_withWords]
  | declareStruct id | declareClass id =>
    rw [shown, mapExprs, kinds, kinds, E.fieldKinds_withWords]
    rfl
  | ifThen test c ih =>
    have hc := all fun s hs => ih s hs (h.part hs)
    rw [shown, mapExprs, kinds, kinds, hc, h.kinds_expr (List.mem_singleton_self test)]
  | ifElse test c a ihc iha =>
    have hc := all fun s hs => ihc s hs (h.part (List.mem_append_left _ hs))
    have ha := all fun s hs => iha s hs (h.part (List.mem_append_right _ hs))
    rw [shown, mapExprs, kinds, kinds, hc, ha, h.kinds_expr (List.mem_singleton_self test)]
  | ifElseIf test c a ihc iha =>
    have hc := all fun s hs => ihc s hs (h.part (List.mem_append_left _ hs))
    have ha := iha (h.part (List.mem_append_right _ (List.mem_singleton_self a)))
    rw [shown, mapExprs, kinds, kinds, hc, ← shown, ha, h.kinds_expr (List.mem_singleton_self test)]
  | whileLoop test body ih =>
    have hbody := all fun s hs => ih s hs (h.part hs)
    rw [shown, mapExprs, kinds, kinds, hbody, h.kinds_expr (List.mem_singleton_self test)]
  | rangeLoop id low op high body ih =>
    have hbody := all fun s hs => ih s hs (h.part hs)
    have hlow := h.kinds_expr (List.mem_cons_self (a := low))
    have hhigh : (high.shown E).kinds E.withWords = high.kinds E := h.kinds_expr (by simp [exprs])
    rw [shown, mapExprs, kinds, kinds, hbody, hlow, hhigh]
    rfl
  | collectionLoop id e body ih =>
    have hbody := all fun s hs => ih s hs (h.part hs)
    rw [shown, mapExprs, kinds, kinds, hbody, h.kinds_expr (List.mem_singleton_self e)]
    rfl
  | ret e =>
    cases e with
    | none => rfl
    | some e =>
      have he := h.kinds_expr (List.mem_singleton_self e)
      rw [shown, mapExprs, kinds, kinds, Option.map_some, Option.elim_some, Option.elim_some, he]
  | breakLoop | continueLoop => rfl
  | tryCatch body error handler ihb ihh =>
    have hbody := all fun s hs => ihb s hs (h.part (List.mem_append_left _ hs))
    have hhandler := all fun s hs => ihh s hs (h.part (List.mem_append_right _ hs))
    rw [shown, mapExprs, kinds, kinds, hbody, hhandler]
    rfl
  | print e | increment e | decrement e | call e =>
    rw [shown, mapExprs, kinds, kinds, h.kinds_expr (List.mem_singleton_self e)]
  | assign t e =>
    have ht := h.kinds_expr (List.mem_cons_self (a := t))
    have he : (e.shown E).kinds E.withWords = e.kinds E := h.kinds_expr (by simp [exprs])
    rw [shown, mapExprs, kinds, kinds, ht, he]

/-- A statement that is read is one that can be read again, apart from what is in it. -/
theorem Readable.shown {s : Stmt} (h : s.Readable E) : (s.shown E).Readable E.withWords := by
  cases s with
  | declareVariable id => exact (E.readableVariable_withWords id).mpr h
  | declareFunction id params body =>
    obtain ⟨hname, hid, hparams, hresult⟩ := h
    have hsize := E.size_withWords
    rw [ofFunction, ← E.functionAt_withWords hid] at hname
    refine ⟨hname, by omega, fun p hp => (E.readableVariable_withWords p).mpr (hparams p hp), ?_⟩
    rw [E.functionAt_withWords hid]
    exact (E.readableType_withWords _).mpr hresult
  | declareStruct id | declareClass id => exact ⟨(E.readableStruct_withWords id).mpr h.1, h.2⟩
  | ifElseIf test c a => exact (isConditional_mapExprs a).trans h
  | call e =>
    cases e with
    | call => exact h
    | _ => cases h
  | _ => exact h

/-- **What is read of a statement can be read again.** -/
theorem AllPrintable.shown {s : Stmt} (h : s.AllPrintable E) :
    (s.shown E).AllReadable E.withWords := by
  induction s using parts_induction with
  | step s ih =>
    refine .of_parts h.self.shown (fun e he => ?_) fun part hp => ?_
    · rw [Stmt.shown, exprs_mapExprs] at he
      obtain ⟨x, hx, rfl⟩ := List.mem_map.mp he
      exact x.readable_shown (h.expr hx)
    · rw [Stmt.shown, parts_mapExprs] at hp
      obtain ⟨x, hx, rfl⟩ := List.mem_map.mp hp
      exact ih x hx (h.part hx)

end Stmt

/-! ### Programs -/

namespace Program

variable {p : Program}

/-- **What a program is read as.** -/
def shown (p : Program) : Program :=
  ⟨p.statements.map (Stmt.shown p.entities), p.entities.withWords⟩

/-- **What is read can be read again.** -/
theorem Printable.readable_shown (h : p.Printable) : p.shown.Readable := by
  intro s hs
  obtain ⟨x, hx, rfl⟩ := List.mem_map.mp hs
  exact (h x hx).shown

/-- **What is read has the tokens of the program.** -/
theorem Printable.kinds_shown (h : p.Printable) : p.shown.kinds = p.kinds := by
  have hstmts :
      (p.statements.map (Stmt.shown p.entities)).flatMap (Stmt.kinds p.entities.withWords) =
        p.statements.flatMap (Stmt.kinds p.entities) := by
    rw [List.flatMap_map]
    exact List.flatMap_congr fun s hs => s.kinds_shown (h s hs)
  rw [kinds, kinds, Stmt.kindsAll_eq_flatMap, Stmt.kindsAll_eq_flatMap]
  exact congrArg (· ++ _) hstmts

/-- A program that is made of a source, simplified or not, is regular. -/
theorem regular_of_compile {source : String} {simplify : Bool}
    (h : compile source simplify = .ok p) : p.Regular := by
  obtain ⟨tree, q, hparse, hanalyze, rfl⟩ := exists_of_compile h
  have htree := Tree.ofTokens_built (isLexed_ofSource source) (parse_eq_ok hparse)
  have hq := regular_of_analyze htree hanalyze
  split
  · exact hq.simplify
  · exact hq

/-- **Every listing can be read.**  The listing of a program that is made of a source, simplified
or not, has the tokens of the program.  None of them is a character that is unknown or a string
that is not closed, and there is a `++` or `--` only where a statement counts up or down.  The
tokens are read as the statements and expressions of the program, with what numbers and strings
are read as in their places. -/
theorem parse_listing_of_compile {source : String} {simplify : Bool}
    (h : compile source simplify = .ok p) :
    (Token.ofSource p.listing).map Token.kind = p.kinds ∧
      unusual ((Token.ofSource p.listing).map Token.kind) =
        p.stmts.flatMap Stmt.unusual ++ [.eof] ∧
      ∃ trees, parse p.listing = .ok trees ∧
        trees.map Tree.Stmt.bare = p.shown.trees Tree.Expr.signedPower := by
  have hprintable := (regular_of_compile h).printable
  have hkinds : (Token.ofSource p.listing).map Token.kind = p.kinds := kinds_listing hprintable
  obtain ⟨trees, htrees, hbare⟩ :=
    ofTokens_eq hprintable.readable_shown (hkinds.trans hprintable.kinds_shown.symm)
  refine ⟨hkinds, by rw [hkinds, p.unusual_kinds], trees, ?_, hbare⟩
  rw [parse, Tree.ofSource, htrees]
  rfl

/-- A string with a control character, and a conditional that is always taken. -/
def bellSource : String := "let s = \"\x07\"; if !false \x7b print s; \x7d"

def bellProgram : Program :=
  { statements :=
      [.declareVariable ⟨1⟩ (some (.string "\x07" .string)), .print (.var ⟨1⟩ .string)]
    entities := Entities.initial.addVariable ⟨"s", false, .string⟩ }

/-- The character is read as the signs of its code point. -/
theorem parse_listing_of_compile_bell : compile bellSource true = .ok bellProgram ∧
    asRead "\x07" = "u\x7b7\x7d" ∧
    ∃ trees, parse bellProgram.listing = .ok trees ∧
      trees.map Tree.Stmt.bare = bellProgram.shown.trees Tree.Expr.signedPower := by
  have hcompile : compile bellSource true = .ok bellProgram := by cbv
  have hbell : asRead "\x07" = "u\x7b7\x7d" := by decide +kernel
  exact ⟨hcompile, hbell, (parse_listing_of_compile hcompile).2.2⟩

end Program

end TypedImp
