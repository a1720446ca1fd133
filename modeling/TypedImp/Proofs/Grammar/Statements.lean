import TypedImp.Proofs.Grammar.Built
import TypedImp.Proofs.Grammar.Derivation

/-!
# The grammar of statements

`IsStmt ks s` says that the tokens `ks` are a statement, with the tree `s`:

    stmt  = ('let' | 'const') name [':' type] ['=' expr] ';'
          | 'fn' name '(' [param (',' param)* [',']] ')' [':' type] block
          | ('struct' | 'class') name '{' (param [',' | ';'])* '}'
          | conditional
          | 'while' expr block
          | 'for' name 'in' expr [('...' | '..<') expr] block
          | 'return' [expr] ';' | 'break' ';' | 'continue' ';'
          | 'try' block 'catch' [name] block
          | 'print' expr ';'
          | expr '=' expr ';' | expr '++' ';' | expr '--' ';' | expr ';'
    conditional = 'if' expr block ['else' (block | conditional)]
    param = name ':' type
    block = '{' stmt* '}'

where `expr` are the expressions of the level `or` and `type` the types.  An expression that
stands as a statement is a call.  A program is any number of statements (`IsProgram`).

What may be left out is `Optional`, with the tokens that stand in front of it if it is there.
Statements one after the other are given as a list of pairs, the tokens and the tree of each;
`blockKinds` are their tokens between braces.
-/

namespace TypedImp

theorem Tree.Expr.bare_isCall (e : Expr) : e.bare.isCall = e.isCall := by
  cases e <;> rfl

namespace Grammar

open TypedImp.Token (Kind)

/-! ### Parts of statements -/

section

variable {α : Type}

/-- **What may be left out.**  If it is there, it comes behind the tokens `front`. -/
inductive Optional (P : List Kind → α → Prop) (front : List Kind) : List Kind → Option α → Prop where
  | none : Optional P front [] none
  | some {ks : List Kind} {value : α} (h : P ks value) : Optional P front (front ++ ks) (some value)

end

theorem Optional.cons {α : Type} {P : List Kind → α → Prop} {k : Kind} {ks : List Kind} {value : α}
    (h : P ks value) : Optional P [k] (k :: ks) (Option.some value) :=
  .some h

theorem Optional.bare {α : Type} {P : List Kind → α → Prop} {ks : List Kind} {value : α}
    (h : P ks value) : Optional P [] ks (Option.some value) :=
  .some h

inductive IsNamed : List Kind → Tree.Name → Prop where
  | of (name : String) : IsNamed [.name name] (.of name)

inductive IsAnnotated : List Kind → Tree.Annotated → Prop where
  | of {ks : List Kind} {type : Tree.TypeExpr} (name : String) (h : IsType ks type) :
    IsAnnotated (.name name :: .symbol .colon :: ks) ⟨.of name, type⟩

/-- A field of a struct, with the comma or the semicolon that may stand behind it. -/
inductive IsField : List Kind → Tree.Annotated → Prop where
  | last {ks : List Kind} {field : Tree.Annotated} (h : IsAnnotated ks field) : IsField ks field
  | comma {ks : List Kind} {field : Tree.Annotated} (h : IsAnnotated ks field) :
    IsField (ks ++ [.symbol .comma]) field
  | semicolon {ks : List Kind} {field : Tree.Annotated} (h : IsAnnotated ks field) :
    IsField (ks ++ [.symbol .semicolon]) field

def blockKinds (body : List (List Kind × Tree.Stmt)) : List Kind :=
  Listing.bracedKinds (body.flatMap Prod.fst)

def blockTree (body : List (List Kind × Tree.Stmt)) : Tree.Block Tree.Stmt :=
  ⟨body.map Prod.snd, default⟩

/-! ### Statements -/

/-- **The grammar of statements.** -/
inductive IsStmt : List Kind → Tree.Stmt → Prop where
  | declareVariable {ks ks' : List Kind} {type : Option Tree.TypeExpr}
    {initializer : Option Tree.Expr} (name : String) (readOnly : Bool)
    (htype : Optional IsType [.symbol .colon] ks type)
    (hinitializer : Optional (Derives .or) [.symbol .assign] ks' initializer) :
    IsStmt (.symbol (if readOnly then .constWord else .letWord) :: .name name ::
      (ks ++ (ks' ++ [.symbol .semicolon])))
      (.declareVariable (.of name) readOnly type initializer default)
  | declareFunction {params : List (List Kind × Tree.Annotated)} {ks ks' : List Kind}
    {result : Option Tree.TypeExpr} {body : List (List Kind × Tree.Stmt)} (name : String)
    (hparams : ∀ p ∈ params, IsAnnotated p.1 p.2) (hks : Separated (params.map Prod.fst) ks)
    (hresult : Optional IsType [.symbol .colon] ks' result) (hbody : ∀ p ∈ body, IsStmt p.1 p.2) :
    IsStmt (.symbol .fnWord :: .name name :: .symbol .leftParen ::
      (ks ++ .symbol .rightParen :: (ks' ++ blockKinds body)))
      (.declareFunction (.of name) (params.map Prod.snd) result (blockTree body) default)
  | declareStruct {fields : List (List Kind × Tree.Annotated)} (name : String) (isClass : Bool)
    (hfields : ∀ p ∈ fields, IsField p.1 p.2) :
    IsStmt (.symbol (if isClass then .classWord else .structWord) :: .name name ::
      Listing.bracedKinds (fields.flatMap Prod.fst))
      (.declareStruct (.of name) (fields.map Prod.snd) isClass default)
  | ifThen {ks : List Kind} {test : Tree.Expr} {consequent : List (List Kind × Tree.Stmt)}
    (htest : Derives .or ks test) (hconsequent : ∀ p ∈ consequent, IsStmt p.1 p.2) :
    IsStmt (.symbol .ifWord :: (ks ++ blockKinds consequent))
      (.ifThen test (blockTree consequent) default)
  | ifElse {ks : List Kind} {test : Tree.Expr}
    {consequent alternate : List (List Kind × Tree.Stmt)} (htest : Derives .or ks test)
    (hconsequent : ∀ p ∈ consequent, IsStmt p.1 p.2)
    (halternate : ∀ p ∈ alternate, IsStmt p.1 p.2) :
    IsStmt (.symbol .ifWord :: (ks ++ (blockKinds consequent ++
      .symbol .elseWord :: blockKinds alternate)))
      (.ifElse test (blockTree consequent) (blockTree alternate) default)
  /-- What stands behind `else` as it is begins with `if`. -/
  | ifElseIf {ks ks' : List Kind} {test : Tree.Expr} {consequent : List (List Kind × Tree.Stmt)}
    {alternate : Tree.Stmt} (htest : Derives .or ks test)
    (hconsequent : ∀ p ∈ consequent, IsStmt p.1 p.2) (halternate : IsStmt ks' alternate)
    (hif : alternate.isConditional = true) :
    IsStmt (.symbol .ifWord :: (ks ++ (blockKinds consequent ++ .symbol .elseWord :: ks')))
      (.ifElseIf test (blockTree consequent) alternate default)
  | whileLoop {ks : List Kind} {test : Tree.Expr} {body : List (List Kind × Tree.Stmt)}
    (htest : Derives .or ks test) (hbody : ∀ p ∈ body, IsStmt p.1 p.2) :
    IsStmt (.symbol .whileWord :: (ks ++ blockKinds body)) (.whileLoop test (blockTree body) default)
  | rangeLoop {ks ks' : List Kind} {low high : Tree.Expr} {body : List (List Kind × Tree.Stmt)}
    (iterator : String) (op : RangeOp) (hlow : Derives .or ks low) (hhigh : Derives .or ks' high)
    (hbody : ∀ p ∈ body, IsStmt p.1 p.2) :
    IsStmt (.symbol .forWord :: .name iterator :: .symbol .inWord ::
      (ks ++ .symbol op.symbol :: (ks' ++ blockKinds body)))
      (.rangeLoop (.of iterator) low op high (blockTree body) default)
  | collectionLoop {ks : List Kind} {collection : Tree.Expr} {body : List (List Kind × Tree.Stmt)}
    (iterator : String) (hcollection : Derives .or ks collection)
    (hbody : ∀ p ∈ body, IsStmt p.1 p.2) :
    IsStmt (.symbol .forWord :: .name iterator :: .symbol .inWord :: (ks ++ blockKinds body))
      (.collectionLoop (.of iterator) collection (blockTree body) default)
  | ret {ks : List Kind} {value : Option Tree.Expr} (hvalue : Optional (Derives .or) [] ks value) :
    IsStmt (.symbol .returnWord :: (ks ++ [.symbol .semicolon])) (.ret value default)
  | breakLoop : IsStmt [.symbol .breakWord, .symbol .semicolon] (.breakLoop default)
  | continueLoop : IsStmt [.symbol .continueWord, .symbol .semicolon] (.continueLoop default)
  | tryCatch {ks : List Kind} {body handler : List (List Kind × Tree.Stmt)}
    {error : Option Tree.Name} (hbody : ∀ p ∈ body, IsStmt p.1 p.2)
    (herror : Optional IsNamed [] ks error) (hhandler : ∀ p ∈ handler, IsStmt p.1 p.2) :
    IsStmt (.symbol .tryWord :: (blockKinds body ++
      .symbol .catchWord :: (ks ++ blockKinds handler)))
      (.tryCatch (blockTree body) error (blockTree handler) default)
  | print {ks : List Kind} {value : Tree.Expr} (hvalue : Derives .or ks value) :
    IsStmt (.symbol .printWord :: (ks ++ [.symbol .semicolon])) (.print value default)
  | assign {ks ks' : List Kind} {target value : Tree.Expr} (htarget : Derives .or ks target)
    (hvalue : Derives .or ks' value) :
    IsStmt (ks ++ .symbol .assign :: (ks' ++ [.symbol .semicolon])) (.assign target value default)
  | increment {ks : List Kind} {target : Tree.Expr} (htarget : Derives .or ks target) :
    IsStmt (ks ++ [.symbol .plusPlus, .symbol .semicolon]) (.increment target default)
  | decrement {ks : List Kind} {target : Tree.Expr} (htarget : Derives .or ks target) :
    IsStmt (ks ++ [.symbol .minusMinus, .symbol .semicolon]) (.decrement target default)
  | call {ks : List Kind} {e : Tree.Expr} (he : Derives .or ks e) (hcall : e.isCall = true) :
    IsStmt (ks ++ [.symbol .semicolon]) (.call e default)

/-- **The grammar of programs**: statements one after the other. -/
def IsProgram (ks : List Kind) (trees : List Tree.Stmt) : Prop :=
  ∃ items : List (List Kind × Tree.Stmt), items.flatMap Prod.fst = ks ∧
    items.map Prod.snd = trees ∧ ∀ p ∈ items, IsStmt p.1 p.2

/-! ### First tokens -/

theorem range?_eq_some_iff {k : Kind} {op : RangeOp} :
    k.range? = some op ↔ k = .symbol op.symbol := by
  cases k with
  | symbol s => rw [Kind.range?, RangeOp.ofSymbol?_eq_some_iff, Kind.symbol.injEq]
  | _ => simp [Kind.range?]

def startsStmt : Kind → Bool
  | .symbol s => Expr.startsExpr (.symbol s) || s ∈ Symbol.keywords && s != .elseWord
  | k => Expr.startsExpr k

theorem startsStmt_of_startsExpr {k : Kind} (h : Expr.startsExpr k = true) :
    startsStmt k = true := by
  cases k with
  | symbol s => exact Bool.or_eq_true_iff.mpr (.inl h)
  | _ => exact h

theorem IsField.eq_cons {ks : List Kind} {a : Tree.Annotated} (h : IsField ks a) :
    ∃ name others, ks = .name name :: others := by
  cases h with
  | last h | comma h | semicolon h => cases h with | of name => exact ⟨name, _, rfl⟩

/-- No statement begins with what ends a block. -/
theorem not_closes_of_startsStmt {k : Kind} (h : startsStmt k = true) :
    (k.isSymbol .rightBrace || k.isEof) = false := by
  cases k with
  | symbol s => cases s <;> first | rfl | cases h
  | eof => cases h
  | _ => rfl

theorem IsStmt.eq_cons {ks : List Kind} {s : Tree.Stmt} (h : IsStmt ks s) :
    ∃ k others, ks = k :: others ∧ startsStmt k = true := by
  have hexpr {ks others : List Kind} {e : Tree.Expr} (he : Derives .or ks e) :
      ∃ k others', ks ++ others = k :: others' ∧ startsStmt k = true := by
    obtain ⟨k, ks, rfl, hk, -⟩ := he.eq_cons
    exact ⟨k, _, rfl, startsStmt_of_startsExpr hk⟩
  cases h with
  | declareVariable name readOnly => cases readOnly <;> exact ⟨_, _, rfl, rfl⟩
  | declareStruct name isClass => cases isClass <;> exact ⟨_, _, rfl, rfl⟩
  | assign he | increment he | decrement he | call he => exact hexpr he
  | _ => exact ⟨_, _, rfl, rfl⟩

theorem IsStmt.ne_nil {ks : List Kind} {s : Tree.Stmt} (h : IsStmt ks s) : ks ≠ [] := by
  obtain ⟨k, others, rfl, -⟩ := h.eq_cons
  exact List.cons_ne_nil k others

/-- **The conditionals are the statements that begin with `if`.** -/
theorem IsStmt.head_eq_ifWord_iff {ks : List Kind} {s : Tree.Stmt} (h : IsStmt ks s) :
    ks.head? = some (.symbol .ifWord) ↔ s.isConditional = true := by
  have hexpr {ks others : List Kind} {e : Tree.Expr} (he : Derives .or ks e) :
      (ks ++ others).head? ≠ some (.symbol .ifWord) := by
    obtain ⟨k, ks, rfl, hk, -⟩ := he.eq_cons
    rintro hhead
    cases hhead
    cases hk
  cases h with
  | declareVariable name readOnly => cases readOnly <;> simp [Tree.Stmt.isConditional]
  | declareStruct name isClass => cases isClass <;> simp [Tree.Stmt.isConditional]
  | assign he | increment he | decrement he | call he =>
    exact iff_of_false (hexpr he) Bool.false_ne_true
  | _ => simp [Tree.Stmt.isConditional]

/-! ### What the rules pass -/

@[simp] def isPassed : Kind → Bool
  | .symbol _ | .name _ | .number _ | .string _ => true
  | .eof | .unknown _ | .unterminated => false

def AllPassed (ks : List Kind) : Prop := ∀ k ∈ ks, isPassed k = true

@[simp] theorem allPassed_nil : AllPassed [] := by simp [AllPassed]

@[simp] theorem allPassed_cons {k : Kind} {ks : List Kind} :
    AllPassed (k :: ks) ↔ isPassed k = true ∧ AllPassed ks := List.forall_mem_cons

@[simp] theorem allPassed_append {ks ks' : List Kind} :
    AllPassed (ks ++ ks') ↔ AllPassed ks ∧ AllPassed ks' := List.forall_mem_append

theorem Separated.allPassed {α : Type} {items : List (List Kind × α)} {ks : List Kind}
    (h : Separated (items.map Prod.fst) ks) (hitems : ∀ p ∈ items, AllPassed p.1) :
    AllPassed ks := by
  generalize hkss : items.map Prod.fst = kss at h
  have hall : ∀ ks ∈ kss, AllPassed ks := by
    rw [← hkss]
    exact List.forall_mem_map.mpr hitems
  clear hkss
  induction h with
  | nil => simp
  | last ks => exact hall ks List.mem_cons_self
  | cons ks h ih =>
    obtain ⟨hfirst, hothers⟩ := List.forall_mem_cons.mp hall
    simpa using ⟨hfirst, ih hothers⟩

theorem IsType.allPassed {ks : List Kind} {type : Tree.TypeExpr} (h : IsType ks type) :
    AllPassed ks := by
  induction h with
  | named name => simp
  | array h ih => simpa using ih
  | function hparams hks hresult ihparams ihresult =>
    simpa using ⟨hks.allPassed ihparams, ihresult⟩

theorem Derives.allPassed {l : Level} {ks : List Kind} {e : Tree.Expr} (h : Derives l ks e) :
    AllPassed ks := by
  induction h with
  | tighter h ih => exact ih
  | binary op hop hleft hright ihleft ihright => simpa using ⟨ihleft, ihright⟩
  | sign op h ih => simpa using ih
  | power hleft hright ihleft ihright => simpa using ⟨ihleft, ihright⟩
  | call hcallee hargs hinner hfirst ihcallee ihargs =>
    simpa using ⟨ihcallee, hinner.allPassed ihargs⟩
  | member field hobject ih => simpa using ih
  | subscript harray hindex iharray ihindex => simpa using ⟨iharray, ihindex⟩
  | number | string | bool | name => simp
  | parens h ih => simpa using ih
  | emptyArray h => simpa using h.allPassed
  | array helements hinner ih => simpa using hinner.allPassed ih

theorem Optional.allPassed {α : Type} {P : List Kind → α → Prop} {front ks : List Kind}
    {value : Option α} (h : Optional P front ks value) (hfront : AllPassed front)
    (hP : ∀ ks value, P ks value → AllPassed ks) : AllPassed ks := by
  cases h with
  | none => simp
  | some h => simpa using ⟨hfront, hP _ _ h⟩

theorem IsAnnotated.allPassed {ks : List Kind} {a : Tree.Annotated} (h : IsAnnotated ks a) :
    AllPassed ks := by
  cases h with
  | of name h => simpa using h.allPassed

theorem IsField.allPassed {ks : List Kind} {a : Tree.Annotated} (h : IsField ks a) :
    AllPassed ks := by
  cases h with
  | last h => exact h.allPassed
  | comma h | semicolon h => simpa using h.allPassed

theorem allPassed_flatMap {α : Type} {items : List (List Kind × α)}
    (h : ∀ p ∈ items, AllPassed p.1) : AllPassed (items.flatMap Prod.fst) := by
  intro k hk
  obtain ⟨p, hp, hk⟩ := List.mem_flatMap.mp hk
  exact h p hp k hk

theorem allPassed_bracedKinds {α : Type} {items : List (List Kind × α)}
    (h : ∀ p ∈ items, AllPassed p.1) :
    AllPassed (Listing.bracedKinds (items.flatMap Prod.fst)) := by
  simpa [Listing.bracedKinds] using allPassed_flatMap h

/-- **No statement holds the end of the input or a mistake.** -/
theorem IsStmt.allPassed {ks : List Kind} {s : Tree.Stmt} (h : IsStmt ks s) : AllPassed ks := by
  have htype {ks : List Kind} {type : Option Tree.TypeExpr}
      (h : Optional IsType [.symbol .colon] ks type) : AllPassed ks :=
    h.allPassed (by simp) fun _ _ h => h.allPassed
  induction h with
  | declareVariable name readOnly htype' hinitializer =>
    have hvalue := hinitializer.allPassed (by simp) fun _ _ h => h.allPassed
    simpa using ⟨htype htype', hvalue⟩
  | declareFunction name hparams hks hresult hbody ih =>
    have hinner := hks.allPassed fun p hp => (hparams p hp).allPassed
    simpa using ⟨hinner, htype hresult, allPassed_bracedKinds ih⟩
  | declareStruct name isClass hfields =>
    simpa using allPassed_bracedKinds fun p hp => (hfields p hp).allPassed
  | ifThen htest hconsequent ih => simpa using ⟨htest.allPassed, allPassed_bracedKinds ih⟩
  | ifElse htest hconsequent halternate ih ih' =>
    simpa using ⟨htest.allPassed, allPassed_bracedKinds ih, allPassed_bracedKinds ih'⟩
  | ifElseIf htest hconsequent halternate hif ih ih' =>
    simpa using ⟨htest.allPassed, allPassed_bracedKinds ih, ih'⟩
  | whileLoop htest hbody ih => simpa using ⟨htest.allPassed, allPassed_bracedKinds ih⟩
  | rangeLoop iterator op hlow hhigh hbody ih =>
    simpa using ⟨hlow.allPassed, hhigh.allPassed, allPassed_bracedKinds ih⟩
  | collectionLoop iterator hcollection hbody ih =>
    simpa using ⟨hcollection.allPassed, allPassed_bracedKinds ih⟩
  | ret hvalue => simpa using hvalue.allPassed (by simp) fun _ _ h => h.allPassed
  | breakLoop | continueLoop => simp
  | tryCatch hbody herror hhandler ih ih' =>
    have hname := herror.allPassed (by simp) fun _ _ h => by cases h; simp
    simpa using ⟨allPassed_bracedKinds ih, hname, allPassed_bracedKinds ih'⟩
  | print hvalue => simpa using hvalue.allPassed
  | assign htarget hvalue => simpa using ⟨htarget.allPassed, hvalue.allPassed⟩
  | increment htarget | decrement htarget => simpa using htarget.allPassed
  | call he hcall => simpa using he.allPassed

theorem IsProgram.allPassed {ks : List Kind} {trees : List Tree.Stmt} (h : IsProgram ks trees) :
    AllPassed ks := by
  obtain ⟨items, rfl, -, hall⟩ := h
  exact allPassed_flatMap fun p hp => (hall p hp).allPassed

theorem IsProgram.eof_notMem {ks : List Kind} {trees : List Tree.Stmt} (h : IsProgram ks trees) :
    Kind.eof ∉ ks :=
  fun hmem => Bool.false_ne_true (h.allPassed _ hmem)

end Grammar

end TypedImp
