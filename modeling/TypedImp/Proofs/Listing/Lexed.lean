import TypedImp.Proofs.Listing.Kinds

/-!
# The text of a listing

A listing is put together from the spellings of its tokens, with blanks between some of
them.  Where there is no blank, the next character cannot belong to the token in front of
it: behind a name or a number stands a sign, and behind the sign of a unary operator an
operand that begins with no sign.  So the tokens of the text are those that the program was
written in: **`kinds_ofExpr`** for expressions, **`kinds_ofStmt`** for statements, and
**`kinds_listing`** for the listing of a program.

Each statement about a piece of text is about any text behind it, up to what the last token
of the piece wants of it, so the pieces are laid end to end by rewriting.
-/

namespace TypedImp

open Listing Token

variable {E : Entities}

/-! ### Signs in a listing -/

theorem kinds_leftParen (cs : List Char) : kinds ('(' :: cs) = .symbol .leftParen :: kinds cs :=
  kinds_closed (s := .leftParen) (by decide) cs

theorem kinds_rightParen (cs : List Char) : kinds (')' :: cs) = .symbol .rightParen :: kinds cs :=
  kinds_closed (s := .rightParen) (by decide) cs

theorem kinds_leftBracket (cs : List Char) :
    kinds ('[' :: cs) = .symbol .leftBracket :: kinds cs :=
  kinds_closed (s := .leftBracket) (by decide) cs

theorem kinds_rightBracket (cs : List Char) :
    kinds (']' :: cs) = .symbol .rightBracket :: kinds cs :=
  kinds_closed (s := .rightBracket) (by decide) cs

theorem kinds_leftBrace (cs : List Char) : kinds ('\x7b' :: cs) = .symbol .leftBrace :: kinds cs :=
  kinds_closed (s := .leftBrace) (by decide) cs

theorem kinds_rightBrace (cs : List Char) :
    kinds ('\x7d' :: cs) = .symbol .rightBrace :: kinds cs :=
  kinds_closed (s := .rightBrace) (by decide) cs

theorem kinds_comma (cs : List Char) : kinds (',' :: cs) = .symbol .comma :: kinds cs :=
  kinds_closed (s := .comma) (by decide) cs

theorem kinds_colon (cs : List Char) : kinds (':' :: cs) = .symbol .colon :: kinds cs :=
  kinds_closed (s := .colon) (by decide) cs

theorem kinds_semicolon (cs : List Char) : kinds (';' :: cs) = .symbol .semicolon :: kinds cs :=
  kinds_closed (s := .semicolon) (by decide) cs

theorem kinds_arrow (cs : List Char) : kinds ('-' :: '>' :: cs) = .symbol .arrow :: kinds cs :=
  kinds_closed (s := .arrow) (by decide) cs

theorem kinds_plusPlus (cs : List Char) :
    kinds ('+' :: '+' :: cs) = .symbol .plusPlus :: kinds cs :=
  kinds_closed (s := .plusPlus) (by decide) cs

theorem kinds_minusMinus (cs : List Char) :
    kinds ('-' :: '-' :: cs) = .symbol .minusMinus :: kinds cs :=
  kinds_closed (s := .minusMinus) (by decide) cs

theorem kinds_space (cs : List Char) : kinds (' ' :: cs) = kinds cs := kinds_blank rfl cs

theorem kinds_newline (cs : List Char) : kinds ('\n' :: cs) = kinds cs := kinds_blank rfl cs

/-- A sign with a space behind it. -/
theorem kinds_sign_space {s : Symbol} (hs : s ∈ Symbol.signs) (cs : List Char) :
    kinds (s.spelling.toList ++ ' ' :: cs) = .symbol s :: kinds cs := by
  rw [kinds_sign hs (s.endsBefore_cons (by decide) cs), kinds_space]

theorem kinds_assign (cs : List Char) : kinds ('=' :: ' ' :: cs) = .symbol .assign :: kinds cs :=
  kinds_sign_space (s := .assign) (by decide) cs

/-- A keyword with a space behind it. -/
theorem kinds_keyword_space {s : Symbol} (hs : s ∈ Symbol.keywords) (cs : List Char) :
    kinds (s.spelling.toList ++ ' ' :: cs) = .symbol s :: kinds cs := by
  rw [kinds_keyword hs (apart_cons rfl cs), kinds_space]

/-! ### Lists -/

theorem commaSeparated_cons_cons (t u : String) (ts : List String) :
    (commaSeparated (t :: u :: ts)).toList =
      t.toList ++ ',' :: ' ' :: (commaSeparated (u :: ts)).toList := by
  simp [commaSeparated]

theorem commaSeparated_singleton (t : String) : commaSeparated [t] = t := by
  simp [commaSeparated]

/-- Texts with commas between them are read one by one. -/
theorem kinds_commaSeparated {α : Type} {text : α → String} {ks : α → List Kind} {as : List α}
    {c : Char} (h : ∀ a ∈ as, ∀ d, d = ',' ∨ d = c → ∀ cs,
      kinds ((text a).toList ++ d :: cs) = ks a ++ kinds (d :: cs)) (cs : List Char) :
    kinds ((commaSeparated (as.map text)).toList ++ c :: cs) =
      commas (as.map ks) ++ kinds (c :: cs) := by
  induction as with
  | nil => rfl
  | cons a as ih =>
    cases as with
    | nil =>
      rw [List.map_singleton, commaSeparated_singleton, h a List.mem_cons_self c (.inr rfl)]
      rfl
    | cons b as =>
      have hothers := ih fun a ha => h a (List.mem_cons_of_mem _ ha)
      rw [List.map_cons, List.map_cons, commaSeparated_cons_cons, List.append_assoc,
        List.cons_append, h a List.mem_cons_self ',' (.inl rfl), kinds_comma, List.cons_append,
        kinds_space, ← List.map_cons, hothers]
      simp [commas]

/-! ### Types -/

theorem isName_primitive {text : String}
    (h : text ∈ ["number", "string", "boolean", "void", "any"]) : IsName text := by
  revert text
  decide

mutual

/-- **The text of a type** is read as the tokens of the type. -/
theorem kinds_describe (ty : Ty) (h : E.ReadableType ty) {cs : List Char} (hcs : Apart cs) :
    kinds ((E.describe ty).toList ++ cs) = E.typeKinds ty ++ kinds cs := by
  cases ty with
  | number | string | bool | void | any =>
    exact kinds_name (isName_primitive (by simp [Entities.describe])) hcs
  | struct id => exact kinds_name h hcs
  | array element =>
    have hin := kinds_describe element h (apart_cons (c := ']') rfl cs)
    simp only [Entities.describe, Entities.typeKinds, String.toList_append, List.append_assoc]
    show kinds ('[' :: ((E.describe element).toList ++ ']' :: cs)) = _
    rw [kinds_leftBracket, hin, kinds_rightBracket]
    simp
  | function params result =>
    have hparams := kinds_describeAll params h.1 ('-' :: '>' :: ((E.describe result).toList ++ cs))
    have hresult := kinds_describe result h.2 hcs
    simp only [Entities.describe, Entities.typeKinds, String.toList_append, List.append_assoc]
    show kinds ('(' :: ((E.describeAll params).toList ++ ')' :: '-' :: '>' ::
      ((E.describe result).toList ++ cs))) = _
    rw [kinds_leftParen, hparams, kinds_rightParen, kinds_arrow, hresult]
    simp
termination_by structural ty

theorem kinds_describeAll (tys : List Ty) (h : E.ReadableTypes tys) (cs : List Char) :
    kinds ((E.describeAll tys).toList ++ ')' :: cs) =
      commas (E.typeKindsAll tys) ++ kinds (')' :: cs) := by
  cases tys with
  | nil => rfl
  | cons ty tys =>
    cases tys with
    | nil => exact kinds_describe ty h.1 (apart_cons rfl cs)
    | cons u tys =>
      have hfirst := kinds_describe ty h.1
        (apart_cons (c := ',') rfl ((E.describeAll (u :: tys)).toList ++ ')' :: cs))
      have hothers := kinds_describeAll (u :: tys) h.2 cs
      simp only [Entities.describeAll, String.toList_append, List.append_assoc] at hothers ⊢
      show kinds ((E.describe ty).toList ++ ',' ::
        ((E.describeAll (u :: tys)).toList ++ ')' :: cs)) = _
      rw [hfirst, kinds_comma, hothers]
      simp [Entities.typeKindsAll, commas]
termination_by structural tys

end

theorem kinds_annotated {name : String} {ty : Ty} (h : E.ReadableAnnotated name ty)
    {cs : List Char} (hcs : Apart cs) :
    kinds ((annotated E name ty).toList ++ cs) = E.annotatedKinds name ty ++ kinds cs := by
  have hname := kinds_name h.1 (apart_cons (c := ':') rfl (' ' :: ((E.describe ty).toList ++ cs)))
  have htype := kinds_describe ty h.2 hcs
  simp only [annotated, String.toList_append, List.append_assoc]
  show kinds (name.toList ++ ':' :: ' ' :: ((E.describe ty).toList ++ cs)) = _
  rw [hname, kinds_colon, kinds_space, htype]
  rfl

/-! ### Expressions -/

/-- The text behind an expression does not go on with its last token, nor with a suffix
where none may stand. -/
def Expr.EndsBefore (e : Expr) (cs : List Char) : Prop :=
  Apart cs ∧ (cs.head? = some '.' → e.takesSuffix = true)

theorem Expr.endsBefore_cons (e : Expr) {c : Char} (hc : isNamePart c = false) (hdot : c ≠ '.')
    (cs : List Char) : e.EndsBefore (c :: cs) :=
  ⟨apart_cons hc cs, fun h => absurd (Option.some.inj h) hdot⟩

theorem ofExprs_eq_map (es : List Expr) : ofExprs E es = es.map (ofExpr E) := by
  induction es with
  | nil => rfl
  | cons e es ih => rw [ofExprs, ih, List.map_cons]

theorem UnaryOp.mem_signs (op : UnaryOp) : op.symbol ∈ Symbol.signs := by
  cases op <;> decide

theorem BinaryOp.mem_signs (op : BinaryOp) : op.symbol ∈ Symbol.signs := by
  cases op <;> decide

theorem RangeOp.mem_signs (op : RangeOp) : op.symbol ∈ Symbol.signs := by
  cases op <;> decide

/-- What stands behind the sign of a unary operator does not begin with a sign. -/
theorem head_ofExpr (e : Expr) (h : ∀ e' ∈ e.nested, e'.Printable E)
    (hunary : e.isUnary = false) (hsigned : e.isSigned = false) :
    ∃ c, (ofExpr E e).toList.head? = some c ∧ c ∉ Symbol.further := by
  have hname : ∀ {text : String}, IsName text → ∃ c, text.toList.head? = some c ∧
      c ∉ Symbol.further := by
    rintro text ⟨⟨c, tail, htext, hc, -⟩, -⟩
    exact ⟨c, by rw [htext, List.head?_cons], Symbol.notMem_further_of_isNameStart hc⟩
  induction e with
  | number x ty => exact head_text hsigned
  | string s ty => exact ⟨'"', by simp [ofExpr, Text.quote], by decide⟩
  | bool b ty =>
    cases b with
    | true => exact ⟨'t', by simp [ofExpr], by decide⟩
    | false => exact ⟨'f', by simp [ofExpr], by decide⟩
  | var | struct => exact hname (h _ (Expr.mem_nested_self _))
  | func => exact hname (h _ (Expr.mem_nested_self _)).1
  | binary => exact ⟨'(', by simp [ofExpr], by decide⟩
  | unary => cases hunary
  | array es ty =>
    cases es with
    | nil =>
      obtain ⟨element, rfl, -⟩ := h _ (Expr.mem_nested_self _)
      exact ⟨'[', by simp [ofExpr, Entities.describe], by decide⟩
    | cons e es => exact ⟨'[', by simp [ofExpr], by decide⟩
  | call e _ _ ih | member e _ _ ih | subscript e _ _ ih =>
    have hself := h _ (Expr.mem_nested_self _)
    have hsuffix : e.takesSuffix = true := by
      first | exact hself.1 | exact hself
    have he : e.isUnary = false ∧ e.isSigned = false := by
      cases e <;> first | exact ⟨rfl, rfl⟩ | cases hsuffix
    obtain ⟨c, htext, hc⟩ := ih (Expr.forall_nested_of_part h e (by simp [Expr.parts])) he.1 he.2
    exact ⟨c, by simp [ofExpr, htext], hc⟩

/-- The sign of a unary operator in front of its operand. -/
theorem kinds_unary (op : UnaryOp) {c : Char} (hc : c ∉ Symbol.further) (cs : List Char) :
    kinds (op.spelling.toList ++ c :: cs) = .symbol op.symbol :: kinds (c :: cs) :=
  kinds_sign op.mem_signs (op.symbol.endsBefore_cons hc cs)

/-- **The text of an expression** is read as the tokens of the expression. -/
theorem kinds_ofExpr (e : Expr) (h : ∀ e' ∈ e.nested, e'.Printable E) {cs : List Char}
    (hcs : e.EndsBefore cs) : kinds ((ofExpr E e).toList ++ cs) = e.kinds E ++ kinds cs := by
  induction e generalizing cs with
  | number x ty =>
    refine kinds_number x ⟨hcs.1, fun hdot => ?_⟩
    cases hcs.2 hdot
  | string s ty => exact kinds_string s cs
  | bool b ty =>
    cases b with
    | true => exact kinds_keyword (s := .trueWord) (by decide) hcs.1
    | false => exact kinds_keyword (s := .falseWord) (by decide) hcs.1
  | var | struct => exact kinds_name (h _ (Expr.mem_nested_self _)) hcs.1
  | func => exact kinds_name (h _ (Expr.mem_nested_self _)).1 hcs.1
  | binary op l r ty hl hr =>
    have hparts := Expr.forall_nested_of_part h
    have hleft := hl (hparts l (by simp [Expr.parts])) (l.endsBefore_cons (c := ' ') rfl (by decide)
      (op.symbol.spelling.toList ++ ' ' :: ((ofExpr E r).toList ++ ')' :: cs)))
    have hright := hr (hparts r (by simp [Expr.parts]))
      (r.endsBefore_cons (c := ')') rfl (by decide) cs)
    simp only [ofExpr, String.toList_append, List.append_assoc]
    show kinds ('(' :: ((ofExpr E l).toList ++ ' ' ::
      (op.symbol.spelling.toList ++ ' ' :: ((ofExpr E r).toList ++ ')' :: cs)))) = _
    rw [kinds_leftParen, hleft, kinds_space, kinds_sign_space op.mem_signs, hright,
      kinds_rightParen]
    simp [Expr.kinds]
  | unary op x ty ih =>
    have hx := Expr.forall_nested_of_part h x (by simp [Expr.parts])
    rw [ofExpr, Expr.kinds]
    by_cases hunary : x.isUnary = true
    · have hin := ih hx (x.endsBefore_cons (c := ')') rfl (by decide) cs)
      rw [if_pos hunary, if_pos hunary]
      simp only [String.toList_append, List.append_assoc]
      show kinds (op.spelling.toList ++ '(' :: ((ofExpr E x).toList ++ ')' :: cs)) = _
      rw [kinds_unary op (by decide), kinds_leftParen, hin, kinds_rightParen]
      simp
    · have hin := ih hx ⟨hcs.1, fun hdot => by cases hcs.2 hdot⟩
      obtain ⟨c, hhead, hc⟩ := head_ofExpr x hx (by simpa using hunary)
        (h _ (Expr.mem_nested_self _))
      obtain ⟨tail, htext⟩ := List.head?_eq_some_iff.mp hhead
      rw [if_neg hunary, if_neg hunary, String.toList_append, List.append_assoc]
      rw [htext, List.cons_append] at hin ⊢
      rw [kinds_unary op hc, hin]
      rfl
  | array es ty ih =>
    cases es with
    | nil =>
      obtain ⟨element, rfl, hreadable⟩ := h _ (Expr.mem_nested_self _)
      have htype := kinds_describe (.array element) hreadable
        (apart_cons (c := '(') rfl (')' :: cs))
      simp only [ofExpr, String.toList_append, List.append_assoc]
      show kinds ((E.describe (.array element)).toList ++ '(' :: ')' :: cs) = _
      rw [htype, kinds_leftParen, kinds_rightParen]
      simp [Expr.kinds]
    | cons e es =>
      have hes : ∀ x ∈ e :: es, ∀ d, d = ',' ∨ d = ']' → ∀ ds,
          kinds ((ofExpr E x).toList ++ d :: ds) = x.kinds E ++ kinds (d :: ds) := by
        intro x hx d hd ds
        refine ih x hx (Expr.forall_nested_of_part h x hx) (x.endsBefore_cons ?_ ?_ ds) <;>
          rcases hd with rfl | rfl <;> decide
      have hitems := kinds_commaSeparated hes cs
      simp only [ofExpr, ofExprs_eq_map, String.toList_append, List.append_assoc]
      rw [← List.map_cons]
      show kinds ('[' :: ((commaSeparated ((e :: es).map (ofExpr E))).toList ++ ']' :: cs)) = _
      rw [kinds_leftBracket, hitems, kinds_rightBracket]
      simp [Expr.kinds, Expr.kindsAll_eq_map]
  | call f args ty hf hargs =>
    have hself := h _ (Expr.mem_nested_self _)
    have hparts := Expr.forall_nested_of_part h
    have hcallee := hf (hparts f (by simp [Expr.parts])) (f.endsBefore_cons (c := '(') rfl
      (by decide) ((commaSeparated (args.map (ofExpr E))).toList ++ ')' :: cs))
    have hes : ∀ x ∈ args, ∀ d, d = ',' ∨ d = ')' → ∀ ds,
        kinds ((ofExpr E x).toList ++ d :: ds) = x.kinds E ++ kinds (d :: ds) := by
      intro x hx d hd ds
      refine hargs x hx (hparts x (by simp [Expr.parts, hx])) (x.endsBefore_cons ?_ ?_ ds) <;>
        rcases hd with rfl | rfl <;> decide
    have hitems := kinds_commaSeparated hes cs
    simp only [ofExpr, ofExprs_eq_map, String.toList_append, List.append_assoc]
    show kinds ((ofExpr E f).toList ++ '(' ::
      ((commaSeparated (args.map (ofExpr E))).toList ++ ')' :: cs)) = _
    rw [hcallee, kinds_leftParen, hitems, kinds_rightParen]
    simp [Expr.kinds, Expr.kindsAll_eq_map]
  | member o field ty ih =>
    obtain ⟨hsuffix, hfield⟩ := h _ (Expr.mem_nested_self _)
    have hends : o.EndsBefore ('.' :: (field.toList ++ cs)) :=
      ⟨apart_cons rfl _, fun _ => hsuffix⟩
    have hobject := ih (Expr.forall_nested_of_part h o (by simp [Expr.parts])) hends
    obtain ⟨c, tail, htext, hc, -⟩ := hfield.word
    have hdot : kinds ('.' :: (field.toList ++ cs)) =
        .symbol .dot :: kinds (field.toList ++ cs) := by
      rw [htext]
      have hc := Symbol.notMem_further_of_isNameStart hc
      exact kinds_sign (s := .dot) (by decide) (Symbol.endsBefore_cons _ hc _)
    simp only [ofExpr, String.toList_append, List.append_assoc]
    show kinds ((ofExpr E o).toList ++ '.' :: (field.toList ++ cs)) = _
    rw [hobject, hdot, kinds_name hfield hcs.1]
    simp [Expr.kinds]
  | subscript a i ty ha hi =>
    have hparts := Expr.forall_nested_of_part h
    have harray := ha (hparts a (by simp [Expr.parts])) (a.endsBefore_cons (c := '[') rfl
      (by decide) ((ofExpr E i).toList ++ ']' :: cs))
    have hindex := hi (hparts i (by simp [Expr.parts]))
      (i.endsBefore_cons (c := ']') rfl (by decide) cs)
    simp only [ofExpr, String.toList_append, List.append_assoc]
    show kinds ((ofExpr E a).toList ++ '[' :: ((ofExpr E i).toList ++ ']' :: cs)) = _
    rw [harray, kinds_leftBracket, hindex, kinds_rightBracket]
    simp [Expr.kinds]

/-! ### Lines -/

def linesText (lines : List Line) : List Char := lines.flatMap fun line => line.render.toList

/-- How far in a line stands plays no part. -/
theorem kinds_line (line : Line) (lines : List Line) (cs : List Char) :
    kinds (linesText (line :: lines) ++ cs) =
      kinds (line.text.toList ++ '\n' :: (linesText lines ++ cs)) := by
  have hblank : ∀ c ∈ List.replicate (2 * line.depth) ' ', isBlank c = true := by
    intro c hc
    rw [List.eq_of_mem_replicate hc]
    rfl
  rw [linesText, List.flatMap_cons, Line.render]
  simp only [String.toList_append, String.toList_ofList, List.append_assoc]
  rw [kinds_blanks hblank]
  rfl

/-- A statement that ends on its line. -/
theorem kinds_oneLine {text : String} {ks : List Kind}
    (h : ∀ cs, kinds (text.toList ++ cs) = ks ++ kinds cs) (depth : Nat) (cs : List Char) :
    kinds (linesText [⟨depth, text⟩] ++ cs) = ks ++ kinds cs := by
  rw [kinds_line, h, kinds_newline]
  rfl

/-- A header with the lines that belong to it. -/
theorem kinds_braced {header : String} {ks : List Kind} {body : List Line} {bodyKinds : List Kind}
    (hheader : ∀ cs, kinds (header.toList ++ ' ' :: cs) = ks ++ kinds cs)
    (hbody : ∀ cs, kinds (linesText body ++ cs) = bodyKinds ++ kinds cs) (depth : Nat)
    (cs : List Char) :
    kinds (linesText (braced depth header body) ++ cs) =
      ks ++ (bracedKinds bodyKinds ++ kinds cs) := by
  have hclose : ∀ cs, kinds ("\x7d".toList ++ cs) = [.symbol .rightBrace] ++ kinds cs :=
    kinds_rightBrace
  have hlast := kinds_oneLine hclose depth cs
  have hlines : linesText (body ++ [⟨depth, "\x7d"⟩]) ++ cs =
      linesText body ++ (linesText [⟨depth, "\x7d"⟩] ++ cs) := by
    rw [linesText, List.flatMap_append, List.append_assoc]
    rfl
  rw [braced, List.cons_append, kinds_line, hlines]
  simp only [String.toList_append, List.append_assoc]
  show kinds (header.toList ++ ' ' :: '\x7b' :: '\n' :: _) = _
  rw [hheader, kinds_leftBrace, kinds_newline, hbody, hlast]
  simp [bracedKinds]

/-! ### Statements -/

theorem linesText_append (lines others : List Line) :
    linesText (lines ++ others) = linesText lines ++ linesText others := List.flatMap_append

/-- An expression with a space behind it. -/
theorem kinds_ofExpr_space (e : Expr) (h : ∀ e' ∈ e.nested, e'.Printable E) (cs : List Char) :
    kinds ((ofExpr E e).toList ++ ' ' :: cs) = e.kinds E ++ kinds cs := by
  rw [kinds_ofExpr e h (e.endsBefore_cons rfl (by decide) cs), kinds_space]

/-- An expression at the end of a statement. -/
theorem kinds_ofExpr_semicolon (e : Expr) (h : ∀ e' ∈ e.nested, e'.Printable E) (cs : List Char) :
    kinds ((ofExpr E e).toList ++ ';' :: cs) = e.kinds E ++ .symbol .semicolon :: kinds cs := by
  rw [kinds_ofExpr e h (e.endsBefore_cons rfl (by decide) cs), kinds_semicolon]

/-- A keyword with an expression behind it, as in front of a brace. -/
theorem kinds_test (word : String) {s : Symbol} (hword : word = s.spelling ++ " ")
    (hs : s ∈ Symbol.keywords) (e : Expr) (h : ∀ e' ∈ e.nested, e'.Printable E) (cs : List Char) :
    kinds ((word ++ ofExpr E e).toList ++ ' ' :: cs) = .symbol s :: e.kinds E ++ kinds cs := by
  simp only [hword, String.toList_append, List.append_assoc]
  show kinds (s.spelling.toList ++ ' ' :: ((ofExpr E e).toList ++ ' ' :: cs)) = _
  rw [kinds_keyword_space hs, kinds_ofExpr_space e h]
  rfl

/-- A statement that is a keyword. -/
theorem kinds_word_semicolon {s : Symbol} (hs : s ∈ Symbol.keywords) (cs : List Char) :
    kinds (s.spelling.toList ++ ';' :: cs) = .symbol s :: .symbol .semicolon :: kinds cs := by
  rw [kinds_keyword hs (apart_cons rfl cs), kinds_semicolon]

/-- A statement that is a keyword with an expression behind it. -/
theorem kinds_word_ofExpr (word : String) {s : Symbol} (hword : word = s.spelling ++ " ")
    (hs : s ∈ Symbol.keywords) (e : Expr) (h : ∀ e' ∈ e.nested, e'.Printable E) (cs : List Char) :
    kinds ((word ++ ofExpr E e ++ ";").toList ++ cs) =
      .symbol s :: e.kinds E ++ .symbol .semicolon :: kinds cs := by
  simp only [hword, String.toList_append, List.append_assoc]
  show kinds (s.spelling.toList ++ ' ' :: ((ofExpr E e).toList ++ ';' :: cs)) = _
  rw [kinds_keyword_space hs, kinds_ofExpr_semicolon e h]
  rfl

theorem kinds_functionHeader {id : FunctionId} {params : List VariableId}
    (hname : IsName (ofFunction E id)) (hparams : ∀ p ∈ params, E.ReadableVariable p)
    (hresult : E.ReadableType (E.functionAt id).signature.result) (cs : List Char) :
    kinds ((functionHeader E id params).toList ++ ' ' :: cs) =
      .symbol .fnWord :: .name (ofFunction E id) :: .symbol .leftParen ::
        (commas (params.map E.variableKinds) ++ .symbol .rightParen :: .symbol .colon ::
          E.typeKinds (E.functionAt id).signature.result) ++ kinds cs := by
  have hparam : ∀ p ∈ params, ∀ d, d = ',' ∨ d = ')' → ∀ ds,
      kinds ((annotated E (ofVariable E p) (E.variableAt p).ty).toList ++ d :: ds) =
        E.variableKinds p ++ kinds (d :: ds) := by
    intro p hp d hd ds
    refine kinds_annotated (hparams p hp) (apart_cons ?_ ds)
    rcases hd with rfl | rfl <;> rfl
  have hitems := kinds_commaSeparated hparam
    (':' :: ' ' :: ((E.describe (E.functionAt id).signature.result).toList ++ ' ' :: cs))
  have htype := kinds_describe _ hresult (apart_cons (c := ' ') rfl cs)
  simp only [functionHeader, String.toList_append, List.append_assoc]
  show kinds (Symbol.fnWord.spelling.toList ++ ' ' :: ((ofFunction E id).toList ++ '(' ::
    ((commaSeparated (params.map _)).toList ++ ')' :: ':' :: ' ' ::
      ((E.describe (E.functionAt id).signature.result).toList ++ ' ' :: cs)))) = _
  rw [kinds_keyword_space (by decide), kinds_name hname (apart_cons rfl _), kinds_leftParen, hitems,
    kinds_rightParen, kinds_colon, kinds_space, htype, kinds_space]
  simp

theorem kinds_variableLine {id : VariableId} {initializer : Option Expr}
    (hid : E.ReadableVariable id)
    (he : ∀ e ∈ initializer, ∀ e' ∈ e.nested, e'.Printable E) (cs : List Char) :
    kinds ((variableLine E id initializer).toList ++ cs) =
      Stmt.kinds E (.declareVariable id initializer) ++ kinds cs := by
  obtain ⟨word, hword, htext⟩ : ∃ s ∈ Symbol.keywords,
      (if (E.variableAt id).readOnly then "const " else "let ") = s.spelling ++ " " ∧
        s = if (E.variableAt id).readOnly then .constWord else .letWord := by
    cases (E.variableAt id).readOnly with
    | true => exact ⟨.constWord, by decide, rfl, rfl⟩
    | false => exact ⟨.letWord, by decide, rfl, rfl⟩
  simp only [variableLine, htext.1, Stmt.kinds, ← htext.2]
  cases initializer with
  | none =>
    have hvariable := kinds_annotated hid (apart_cons (c := ';') rfl cs)
    simp only [String.toList_append, List.append_assoc]
    show kinds (word.spelling.toList ++ ' ' :: ((annotated E (ofVariable E id)
      (E.variableAt id).ty).toList ++ ';' :: cs)) = _
    rw [kinds_keyword_space hword, hvariable, kinds_semicolon]
    simp [Entities.variableKinds]
  | some e =>
    have hvariable := kinds_annotated hid
      (apart_cons (c := ' ') rfl ('=' :: ' ' :: ((ofExpr E e).toList ++ ';' :: cs)))
    simp only [String.toList_append, List.append_assoc]
    show kinds (word.spelling.toList ++ ' ' :: ((annotated E (ofVariable E id)
      (E.variableAt id).ty).toList ++ ' ' :: '=' :: ' ' :: ((ofExpr E e).toList ++ ';' :: cs))) = _
    rw [kinds_keyword_space hword, hvariable, kinds_space, kinds_assign,
      kinds_ofExpr_semicolon e (he e rfl)]
    simp [Entities.variableKinds]

theorem kinds_structLine {id : StructId} (hid : E.ReadableStruct id) (cs : List Char) :
    kinds ((structLine E id).toList ++ cs) = Stmt.kinds E (.declareStruct id) ++ kinds cs := by
  obtain ⟨word, hword, htext⟩ : ∃ s ∈ Symbol.keywords,
      (if (E.structAt id).isClass then "class " else "struct ") = s.spelling ++ " " ∧
        s = if (E.structAt id).isClass then .classWord else .structWord := by
    cases (E.structAt id).isClass with
    | true => exact ⟨.classWord, by decide, rfl, rfl⟩
    | false => exact ⟨.structWord, by decide, rfl, rfl⟩
  have hfield : ∀ field ∈ (E.structAt id).fields, ∀ d, d = ',' ∨ d = ' ' → ∀ ds,
      kinds ((annotated E field.name field.ty).toList ++ d :: ds) =
        E.annotatedKinds field.name field.ty ++ kinds (d :: ds) := by
    intro field hf d hd ds
    refine kinds_annotated (hid.2 field hf) (apart_cons ?_ ds)
    rcases hd with rfl | rfl <;> rfl
  have hitems := kinds_commaSeparated hfield ('\x7d' :: cs)
  simp only [structLine, htext.1, Stmt.kinds, ← htext.2, String.toList_append, List.append_assoc]
  show kinds (word.spelling.toList ++ ' ' :: ((ofStruct E id).toList ++ ' ' :: '\x7b' :: ' ' ::
    ((commaSeparated ((E.structAt id).fields.map _)).toList ++ ' ' :: '\x7d' :: cs))) = _
  rw [kinds_keyword_space hword, kinds_name hid.1 (apart_cons rfl _), kinds_space, kinds_leftBrace,
    kinds_space, hitems, kinds_space, kinds_rightBrace]
  simp [Entities.fieldKinds, bracedKinds]

/-- The beginning of a loop over values. -/
theorem kinds_for {id : VariableId} (hid : IsName (ofVariable E id)) (cs : List Char) :
    kinds ("for ".toList ++ ((ofVariable E id).toList ++ (" in ".toList ++ cs))) =
      .symbol .forWord :: .name (ofVariable E id) :: .symbol .inWord :: kinds cs := by
  show kinds (Symbol.forWord.spelling.toList ++ ' ' :: ((ofVariable E id).toList ++
    ' ' :: (Symbol.inWord.spelling.toList ++ ' ' :: cs))) = _
  rw [kinds_keyword_space (by decide), kinds_name hid (apart_cons rfl _), kinds_space,
    kinds_keyword_space (by decide)]

theorem kinds_rangeHeader {id : VariableId} (hid : IsName (ofVariable E id)) {low high : Expr}
    (hlow : ∀ e ∈ low.nested, e.Printable E) (hhigh : ∀ e ∈ high.nested, e.Printable E)
    (op : RangeOp) (cs : List Char) :
    kinds (("for " ++ ofVariable E id ++ " in " ++ ofExpr E low ++ " " ++ op.spelling ++ " " ++
        ofExpr E high).toList ++ ' ' :: cs) =
      .symbol .forWord :: .name (ofVariable E id) :: .symbol .inWord ::
        (low.kinds E ++ .symbol op.symbol :: high.kinds E) ++ kinds cs := by
  have hop := kinds_sign_space op.mem_signs ((ofExpr E high).toList ++ ' ' :: cs)
  simp only [String.toList_append, List.append_assoc]
  rw [kinds_for hid]
  show _ :: _ :: _ :: kinds ((ofExpr E low).toList ++ ' ' ::
    (op.symbol.spelling.toList ++ ' ' :: ((ofExpr E high).toList ++ ' ' :: cs))) = _
  rw [kinds_ofExpr_space low hlow, hop, kinds_ofExpr_space high hhigh]
  simp

theorem kinds_collectionHeader {id : VariableId} (hid : IsName (ofVariable E id)) {e : Expr}
    (he : ∀ e' ∈ e.nested, e'.Printable E) (cs : List Char) :
    kinds (("for " ++ ofVariable E id ++ " in " ++ ofExpr E e).toList ++ ' ' :: cs) =
      .symbol .forWord :: .name (ofVariable E id) :: .symbol .inWord :: e.kinds E ++ kinds cs := by
  simp only [String.toList_append, List.append_assoc]
  rw [kinds_for hid, kinds_ofExpr_space e he]
  rfl

theorem kinds_catchHeader {id : VariableId} (hid : IsName (ofVariable E id)) (cs : List Char) :
    kinds (("catch " ++ ofVariable E id).toList ++ ' ' :: cs) =
      [.symbol .catchWord, .name (ofVariable E id)] ++ kinds cs := by
  simp only [String.toList_append, List.append_assoc]
  show kinds (Symbol.catchWord.spelling.toList ++ ' ' ::
    ((ofVariable E id).toList ++ ' ' :: cs)) = _
  rw [kinds_keyword_space (by decide), kinds_name hid (apart_cons rfl cs), kinds_space]
  rfl

/-- A header that is a keyword. -/
theorem kinds_wordHeader (word : String) {s : Symbol} (hword : word = s.spelling)
    (hs : s ∈ Symbol.keywords) (cs : List Char) :
    kinds (word.toList ++ ' ' :: cs) = [.symbol s] ++ kinds cs := by
  rw [hword, kinds_keyword_space hs]
  rfl

theorem kinds_ofStmts {ss : List Stmt} {depth : Nat}
    (h : ∀ s ∈ ss, ∀ cs, kinds (linesText (ofStmt E depth s) ++ cs) = s.kinds E ++ kinds cs)
    (cs : List Char) :
    kinds (linesText (ofStmts E depth ss) ++ cs) = Stmt.kindsAll E ss ++ kinds cs := by
  induction ss with
  | nil => rfl
  | cons s ss ih =>
    have hothers := ih fun s hs => h s (List.mem_cons_of_mem _ hs)
    rw [ofStmts, linesText_append, List.append_assoc, h s List.mem_cons_self, hothers,
      Stmt.kindsAll, List.append_assoc]

/-- **The lines of a statement** are read as the tokens of the statement. -/
theorem kinds_ofStmt (s : Stmt) (h : s.AllPrintable E) (depth : Nat) (cs : List Char) :
    kinds (linesText (ofStmt E depth s) ++ cs) = s.kinds E ++ kinds cs := by
  induction s generalizing depth cs with
  | declareVariable id e =>
    refine kinds_oneLine (kinds_variableLine h.self fun x hx => h.expr ?_) depth cs
    exact Option.mem_toList.mpr hx
  | declareFunction id params body ih =>
    have hbody := kinds_ofStmts fun s hs => ih s hs (h.part hs) (depth + 1)
    have hheader := kinds_functionHeader h.self.1 h.self.2.2.1 h.self.2.2.2
    rw [ofStmt, kinds_braced hheader hbody]
    simp [Stmt.kinds]
  | declareStruct id | declareClass id =>
    exact kinds_oneLine (kinds_structLine h.self.1) depth cs
  | ifThen test c ih =>
    have hc := kinds_ofStmts fun s hs => ih s hs (h.part hs) (depth + 1)
    have htest := kinds_test "if " (s := .ifWord) rfl (by decide) test (h.expr List.mem_cons_self)
    rw [ofStmt, kinds_braced htest hc]
    simp [Stmt.kinds]
  | ifElse test c a ihc iha =>
    have hc := kinds_ofStmts fun s hs => ihc s hs (h.part (List.mem_append_left _ hs)) (depth + 1)
    have ha := kinds_ofStmts fun s hs => iha s hs (h.part (List.mem_append_right _ hs)) (depth + 1)
    have htest := kinds_test "if " (s := .ifWord) rfl (by decide) test (h.expr List.mem_cons_self)
    have helse := kinds_wordHeader "else" (s := .elseWord) rfl (by decide)
    rw [ofStmt, linesText_append, List.append_assoc, kinds_braced htest hc, kinds_braced helse ha]
    simp [Stmt.kinds]
  | ifElseIf test c a ihc iha =>
    have hc := kinds_ofStmts fun s hs => ihc s hs (h.part (List.mem_append_left _ hs)) (depth + 1)
    have ha := iha (h.part (List.mem_append_right _ List.mem_cons_self)) depth cs
    have htest := kinds_test "if " (s := .ifWord) rfl (by decide) test (h.expr List.mem_cons_self)
    have helse := kinds_keyword (s := .elseWord) (by decide)
      (apart_cons (c := '\n') rfl (linesText (ofStmt E depth a) ++ cs))
    rw [ofStmt, linesText_append, List.append_assoc, kinds_braced htest hc, kinds_line]
    show _ ++ (_ ++ kinds (Symbol.elseWord.spelling.toList ++ _)) = _
    rw [helse, kinds_newline, ha]
    simp [Stmt.kinds]
  | whileLoop test body ih =>
    have hbody := kinds_ofStmts fun s hs => ih s hs (h.part hs) (depth + 1)
    have htest := kinds_test "while " (s := .whileWord) rfl (by decide) test
      (h.expr List.mem_cons_self)
    rw [ofStmt, kinds_braced htest hbody]
    simp [Stmt.kinds]
  | rangeLoop id low op high body ih =>
    have hbody := kinds_ofStmts fun s hs => ih s hs (h.part hs) (depth + 1)
    have hheader := kinds_rangeHeader h.self (h.expr (e := low) List.mem_cons_self)
      (h.expr (e := high) (by simp [Stmt.exprs])) op
    rw [ofStmt, kinds_braced hheader hbody]
    simp [Stmt.kinds]
  | collectionLoop id e body ih =>
    have hbody := kinds_ofStmts fun s hs => ih s hs (h.part hs) (depth + 1)
    have hheader := kinds_collectionHeader h.self (h.expr (e := e) List.mem_cons_self)
    rw [ofStmt, kinds_braced hheader hbody]
    simp [Stmt.kinds]
  | ret e =>
    cases e with
    | none =>
      exact kinds_oneLine (kinds_word_semicolon (s := .returnWord) (by decide)) depth cs
    | some e =>
      refine kinds_oneLine (fun cs => ?_) depth cs
      rw [kinds_word_ofExpr "return " (s := .returnWord) rfl (by decide) e
        (h.expr List.mem_cons_self)]
      simp [Stmt.kinds]
  | breakLoop =>
    exact kinds_oneLine (kinds_word_semicolon (s := .breakWord) (by decide)) depth cs
  | continueLoop =>
    exact kinds_oneLine (kinds_word_semicolon (s := .continueWord) (by decide)) depth cs
  | tryCatch body error handler ihb ihh =>
    have hbody := kinds_ofStmts fun s hs =>
      ihb s hs (h.part (List.mem_append_left _ hs)) (depth + 1)
    have hhandler := kinds_ofStmts fun s hs =>
      ihh s hs (h.part (List.mem_append_right _ hs)) (depth + 1)
    have htry := kinds_wordHeader "try" (s := .tryWord) rfl (by decide)
    cases error with
    | none =>
      have hcatch := kinds_wordHeader "catch" (s := .catchWord) rfl (by decide)
      rw [ofStmt, linesText_append, List.append_assoc, kinds_braced htry hbody,
        kinds_braced hcatch hhandler]
      simp [Stmt.kinds]
    | some id =>
      have hcatch := kinds_catchHeader (h.self id rfl)
      rw [ofStmt, linesText_append, List.append_assoc, kinds_braced htry hbody,
        kinds_braced hcatch hhandler]
      simp [Stmt.kinds]
  | print e =>
    refine kinds_oneLine (fun cs => ?_) depth cs
    rw [kinds_word_ofExpr "print " (s := .printWord) rfl (by decide) e
      (h.expr List.mem_cons_self)]
    simp [Stmt.kinds]
  | increment e =>
    have he := h.expr List.mem_cons_self
    refine kinds_oneLine (fun cs => ?_) depth cs
    simp only [String.toList_append, List.append_assoc]
    show kinds ((ofExpr E e).toList ++ '+' :: '+' :: ';' :: cs) = _
    rw [kinds_ofExpr e he (e.endsBefore_cons rfl (by decide) _), kinds_plusPlus, kinds_semicolon]
    simp [Stmt.kinds]
  | decrement e =>
    have he := h.expr List.mem_cons_self
    refine kinds_oneLine (fun cs => ?_) depth cs
    simp only [String.toList_append, List.append_assoc]
    show kinds ((ofExpr E e).toList ++ '-' :: '-' :: ';' :: cs) = _
    rw [kinds_ofExpr e he (e.endsBefore_cons rfl (by decide) _), kinds_minusMinus, kinds_semicolon]
    simp [Stmt.kinds]
  | assign t e =>
    have ht := kinds_ofExpr_space t (h.expr List.mem_cons_self)
    have he := kinds_ofExpr_semicolon e (h.expr (by simp [Stmt.exprs]))
    refine kinds_oneLine (fun cs => ?_) depth cs
    simp only [String.toList_append, List.append_assoc]
    show kinds ((ofExpr E t).toList ++ ' ' :: '=' :: ' ' :: ((ofExpr E e).toList ++ ';' :: cs)) = _
    rw [ht, kinds_assign, he]
    simp [Stmt.kinds]
  | call e =>
    have he := kinds_ofExpr_semicolon e (h.expr List.mem_cons_self)
    refine kinds_oneLine (fun cs => ?_) depth cs
    simp only [String.toList_append, List.append_assoc]
    show kinds ((ofExpr E e).toList ++ ';' :: cs) = _
    rw [he]
    simp [Stmt.kinds]

/-- **The listing of a program** has the tokens of the program. -/
theorem kinds_listing {p : Program} (h : p.Printable) : kinds p.listing.toList = p.kinds := by
  have hlines := kinds_ofStmts (fun s hs => kinds_ofStmt s (h s hs) 0) []
  have htext : p.listing.toList = linesText (ofStmts p.entities 0 p.statements) ++ [] := by
    rw [Program.listing, render, String.toList_join, List.flatMap_map, List.append_nil, linesText]
  rw [htext, hlines, kinds_nil, Program.kinds]

end TypedImp
