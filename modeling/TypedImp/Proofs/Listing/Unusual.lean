import TypedImp.Proofs.Listing.Kinds

/-!
# Ordinary and unusual tokens

Expressions, types and the headers of statements are made of ordinary tokens, whatever names,
numbers and strings are in them.  The others are unusual: `++` and `--`, the end of the input,
and what is no token of the language, a character that it does not know or a string that is
not closed.

**`Program.unusual_kinds`**: the only unusual tokens of a program are a `++` or `--` for every
statement that counts up or down, and the end of the input.
-/

namespace TypedImp

open Listing Token

/-! ### Tokens -/

namespace Token

/-- A token of which expressions, types and the headers of statements are made. -/
def Kind.isOrdinary : Kind → Bool
  | .name _ | .number _ | .string _ => true
  | .symbol s => s != .plusPlus && s != .minusMinus
  | _ => false

/-- All other tokens: `++`, `--`, the end of the input, and what is no token of the language. -/
def unusual (ks : List Kind) : List Kind := ks.filter fun k => !k.isOrdinary

@[simp] theorem unusual_nil : unusual [] = [] := rfl

@[simp] theorem unusual_append (ks ls : List Kind) :
    unusual (ks ++ ls) = unusual ks ++ unusual ls :=
  List.filter_append ks ls

@[simp] theorem unusual_name (text : String) (ks : List Kind) :
    unusual (.name text :: ks) = unusual ks := rfl

theorem unusual_symbol {s : Symbol} (hs : s ≠ .plusPlus ∧ s ≠ .minusMinus) (ks : List Kind) :
    unusual (.symbol s :: ks) = unusual ks := by
  have hordinary : (Kind.symbol s).isOrdinary = true := by simpa [Kind.isOrdinary] using hs
  rw [unusual, List.filter_cons, hordinary]
  rfl

theorem unusual_commas {kss : List (List Kind)} (h : ∀ ks ∈ kss, unusual ks = []) :
    unusual (commas kss) = [] := by
  induction kss with
  | nil => rfl
  | cons ks kss ih =>
    have hothers := ih fun ls hls => h ls (List.mem_cons_of_mem ks hls)
    cases kss with
    | nil => exact h ks List.mem_cons_self
    | cons ls kss =>
      rw [commas, unusual_append, h ks List.mem_cons_self, unusual_symbol (by decide), hothers]
      · rfl
      · exact List.cons_ne_nil ls kss

@[simp] theorem unusual_binary (op : BinaryOp) (ks : List Kind) :
    unusual (.symbol op.symbol :: ks) = unusual ks :=
  unusual_symbol (by cases op <;> decide) ks

@[simp] theorem unusual_unary (op : UnaryOp) (ks : List Kind) :
    unusual (.symbol op.symbol :: ks) = unusual ks :=
  unusual_symbol (by cases op <;> decide) ks

@[simp] theorem unusual_range (op : RangeOp) (ks : List Kind) :
    unusual (.symbol op.symbol :: ks) = unusual ks :=
  unusual_symbol (by cases op <;> decide) ks

@[simp] theorem unusual_numberKinds (x : Float) : unusual (numberKinds x) = [] := by
  have hunsigned (x : Float) : unusual [unsignedKind x] = [] := by
    rw [unsignedKind]
    split <;> rfl
  rw [numberKinds]
  split
  · exact hunsigned (-x)
  · exact hunsigned x

end Token

/-! ### Types -/

namespace Entities

variable (E : Entities)

mutual

/-- Types are made of ordinary tokens. -/
theorem unusual_typeKinds (ty : Ty) : unusual (E.typeKinds ty) = [] := by
  cases ty with
  | number | string | bool | void | any | struct => rfl
  | array element => simp [typeKinds, unusual_symbol, unusual_typeKinds element]
  | function params result =>
    have hparams := unusual_commas (unusual_typeKindsAll params)
    simp [typeKinds, unusual_symbol, hparams, unusual_typeKinds result]
termination_by structural ty

theorem unusual_typeKindsAll (tys : List Ty) : ∀ ks ∈ E.typeKindsAll tys, unusual ks = [] := by
  cases tys with
  | nil => exact List.forall_mem_nil _
  | cons ty tys =>
    exact List.forall_mem_cons.mpr ⟨unusual_typeKinds ty, unusual_typeKindsAll tys⟩
termination_by structural tys

end

theorem unusual_annotatedKinds (name : String) (ty : Ty) :
    unusual (E.annotatedKinds name ty) = [] := by
  rw [annotatedKinds, unusual_name, unusual_symbol (by decide), E.unusual_typeKinds]

theorem unusual_variableKinds (id : VariableId) : unusual (E.variableKinds id) = [] :=
  E.unusual_annotatedKinds _ _

end Entities

/-! ### Expressions -/

variable {E : Entities}

/-- Expressions are made of ordinary tokens. -/
theorem Expr.unusual_kinds (e : Expr) : unusual (e.kinds E) = [] := by
  have all {es : List Expr} (h : ∀ e ∈ es, unusual (e.kinds E) = []) :
      unusual (commas (kindsAll E es)) = [] := by
    rw [kindsAll_eq_map]
    exact unusual_commas (List.forall_mem_map.mpr h)
  induction e with
  | number x ty => exact unusual_numberKinds x
  | string | var | func | struct => rfl
  | bool b ty => cases b <;> rfl
  | binary op l r ty ihl ihr => simp [kinds, unusual_symbol, ihl, ihr]
  | unary op x ty ih =>
    rw [kinds, unusual_unary]
    split
    · simp [unusual_symbol, ih]
    · exact ih
  | array es ty ih =>
    cases es with
    | nil => simp [kinds, unusual_symbol, E.unusual_typeKinds]
    | cons e es =>
      have hes := all ih
      rw [kindsAll] at hes
      simp [kinds, unusual_symbol, hes]
  | call f args ty ihf ihargs => simp [kinds, unusual_symbol, ihf, all ihargs]
  | member o field ty ih => simp [kinds, unusual_symbol, ih]
  | subscript a i ty iha ihi => simp [kinds, unusual_symbol, iha, ihi]

/-! ### Statements -/

namespace Stmt

def unusual : Stmt → List Kind
  | increment _ => [.symbol .plusPlus]
  | decrement _ => [.symbol .minusMinus]
  | _ => []

/-- **A statement has no unusual tokens but those that count**, one for each statement that does. -/
theorem unusual_kinds (s : Stmt) : Token.unusual (s.kinds E) = s.nested.flatMap unusual := by
  have all {ss : List Stmt} (h : ∀ s ∈ ss, Token.unusual (s.kinds E) = s.nested.flatMap unusual) :
      Token.unusual (bracedKinds (kindsAll E ss)) = (nestedAll ss).flatMap unusual := by
    rw [bracedKinds, unusual_symbol (by decide), unusual_append, unusual_symbol (by decide),
      unusual_nil, List.append_nil]
    induction ss with
    | nil => rfl
    | cons s ss ih =>
      rw [kindsAll, unusual_append, nestedAll, List.flatMap_append, h s List.mem_cons_self,
        ih fun s hs => h s (List.mem_cons_of_mem _ hs)]
  have hkeyword (c : Bool) {s t : Symbol} (hs : s ≠ .plusPlus ∧ s ≠ .minusMinus)
      (ht : t ≠ .plusPlus ∧ t ≠ .minusMinus) :
      (if c then s else t) ≠ .plusPlus ∧ (if c then s else t) ≠ .minusMinus := by
    cases c
    · exact ht
    · exact hs
  induction s with
  | declareVariable id e =>
    have hword := hkeyword (s := .constWord) (t := .letWord) (E.variableAt id).readOnly
      (by decide) (by decide)
    rw [kinds, unusual_symbol hword, unusual_append, E.unusual_variableKinds]
    cases e with
    | none => rfl
    | some e =>
      simp [nested, unusual, unusual_symbol, e.unusual_kinds]
  | declareFunction id params body ih =>
    have hparams : Token.unusual (commas (params.map E.variableKinds)) = [] :=
      unusual_commas (List.forall_mem_map.mpr fun id _ => E.unusual_variableKinds id)
    simp [kinds, nested, unusual, unusual_symbol, hparams, E.unusual_typeKinds, all ih]
  | declareStruct id | declareClass id =>
    have hword := hkeyword (s := .classWord) (t := .structWord) (E.structAt id).isClass
      (by decide) (by decide)
    have hfields : Token.unusual (commas (E.fieldKinds id)) = [] :=
      unusual_commas (List.forall_mem_map.mpr fun field _ => E.unusual_annotatedKinds _ _)
    rw [kinds, unusual_symbol hword, unusual_name, bracedKinds, unusual_symbol (by decide),
      unusual_append, hfields]
    rfl
  | ifThen test c ih | whileLoop test c ih | collectionLoop id test c ih =>
    simp [kinds, nested, unusual, unusual_symbol, test.unusual_kinds, all ih]
  | ifElse test c a ihc iha =>
    simp [kinds, nested, unusual, unusual_symbol, test.unusual_kinds, all ihc, all iha]
  | ifElseIf test c a ihc iha =>
    simp [kinds, nested, unusual, unusual_symbol, test.unusual_kinds, all ihc, iha]
  | rangeLoop id low op high body ih =>
    simp [kinds, nested, unusual, unusual_symbol, low.unusual_kinds, high.unusual_kinds, all ih]
  | ret e =>
    cases e with
    | none => rfl
    | some e => simp [kinds, nested, unusual, unusual_symbol, e.unusual_kinds]
  | breakLoop | continueLoop => rfl
  | tryCatch body error handler ihb ihh =>
    cases error with
    | none => simp [kinds, nested, unusual, unusual_symbol, all ihb, all ihh]
    | some id => simp [kinds, nested, unusual, unusual_symbol, all ihb, all ihh]
  | print e | call e => simp [kinds, nested, unusual, unusual_symbol, e.unusual_kinds]
  | assign t e => simp [kinds, nested, unusual, unusual_symbol, t.unusual_kinds, e.unusual_kinds]
  | increment e | decrement e =>
    rw [kinds, unusual_append, e.unusual_kinds]
    rfl

end Stmt

/-- **The unusual tokens of a program**: those that count, and the end of the input. -/
theorem Program.unusual_kinds (p : Program) :
    Token.unusual p.kinds = p.stmts.flatMap Stmt.unusual ++ [.eof] := by
  have hstmts : Token.unusual (p.statements.flatMap (Stmt.kinds p.entities)) =
      (p.statements.flatMap Stmt.nested).flatMap Stmt.unusual := by
    induction p.statements with
    | nil => rfl
    | cons s ss ih =>
      rw [List.flatMap_cons, unusual_append, s.unusual_kinds, ih, List.flatMap_cons,
        List.flatMap_append]
  rw [kinds, stmts, unusual_append, Stmt.kindsAll_eq_flatMap, Stmt.nestedAll_eq_flatMap, hstmts]
  rfl

end TypedImp
