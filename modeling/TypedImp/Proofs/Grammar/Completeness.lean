import TypedImp.Proofs.Grammar.Soundness

/-!
# The expressions of the grammar are read

The tokens of an expression are read as its tree wherever nothing comes behind that would go on
with it.  The induction is on the derivation, and it has two parts.  What is tighter than `unary`
is read as the beginning of an operand (`ReadSuffixed`), with any suffixes behind.  An expression
of any level is read as a left operand (`ReadJoined`): operators of its own level may come
behind, but no tighter ones.  At the end of either nothing comes that goes on.

Together with what the rules yield this says which tokens the parser of expressions reads
(**`Rules.expr_exact`**), and that no tokens are two expressions (`Derives.unique`).
-/

namespace TypedImp.Grammar

open TypedImp.Token (Kind)
open TypedImp.Grammar.Parser

/-! ### The two parts of the induction -/

/-- **The tokens are read as the beginning of an operand**, with the tree `e`. -/
def ReadSuffixed (ks : List Kind) (e : Tree.Expr) : Prop :=
  ∀ depth rest, Ended rest → (ks ++ rest).length ≤ depth → Rules.TakesEmptyArray ks rest →
    (Rules.unfold depth).Begins ks rest fun value => value.bare = e

/-- **The tokens are read as a left operand** of operators as loose as those of the level. -/
def ReadJoined (l : Level) (ks : List Kind) (e : Tree.Expr) : Prop :=
  ∀ depth least rest, Ended rest → (ks ++ rest).length ≤ depth →
    (∀ op : BinaryOp, l.rank ≤ op.precedence → least ≤ op.precedence) → Stops (l.rank + 1) rest →
      (Rules.unfold depth).Joins least ks rest fun value => value.bare = e

variable {l l' : Level} {ks rest : List Kind} {e : Tree.Expr} {depth least : Nat}

theorem takesEmptyArray_of_head_rest (h : ∀ k ∈ rest.head?, startsSuffix k = false) :
    Rules.TakesEmptyArray ks rest := by
  rintro - others rfl
  cases h _ rfl

theorem ReadSuffixed.reads_operand (h : ReadSuffixed ks e) (hks : Derives l ks e)
    (hl : Level.unary.rank < l.rank) (hr : Ended rest) (hdepth : (ks ++ rest).length ≤ depth)
    (hrest : ∀ k ∈ rest.head?, startsSuffix k = false) :
    Reads (Rules.unfold depth).operand ks rest fun value => value.bare = e := by
  obtain ⟨k, others, hcons, -, hunary⟩ := hks.eq_cons
  have hpos := List.length_pos_iff.mpr hr.ne_nil
  refine (h depth rest hr hdepth (takesEmptyArray_of_head_rest hrest)).reads_operand hcons
    (hunary hl) ?_ hr hrest
  rw [Rules.steps_unfold]
  rw [List.length_append] at hdepth
  omega

theorem ReadSuffixed.joined (h : ReadSuffixed ks e) (hks : Derives l ks e)
    (hl : Level.unary.rank < l.rank) : ReadJoined l ks e := by
  intro depth least rest hr hdepth _ hrest
  exact Rules.joins_of_operand (h.reads_operand hks hl hr hdepth hrest.head)

theorem ReadJoined.loosen (h : ReadJoined l ks e) (hle : l'.rank ≤ l.rank) :
    ReadJoined l' ks e := by
  intro depth least rest hr hdepth hleast hrest
  exact h depth least rest hr hdepth (fun op hop => hleast op (Nat.le_trans hle hop))
    (hrest.mono (Nat.succ_le_succ hle))

theorem ReadJoined.reads_expr (h : ReadJoined l ks e) (hr : Ended rest)
    (hdepth : (ks ++ rest).length < depth)
    (hleast : ∀ op : BinaryOp, l.rank ≤ op.precedence → least ≤ op.precedence)
    (hle : least ≤ l.rank + 1) (hrest : Stops least rest) :
    Reads ((Rules.unfold depth).expr least) ks rest fun value => value.bare = e := by
  cases depth with
  | zero => omega
  | succ depth =>
    have hpos := List.length_pos_iff.mpr hr.ne_nil
    refine (h depth least rest hr (Nat.le_of_lt_succ hdepth) hleast
      (hrest.mono hle)).reads_exprRule ?_ hr hrest
    rw [Rules.steps_unfold]
    rw [List.length_append] at hdepth
    omega

/-- Between brackets and commas an expression may be of any form. -/
theorem ReadJoined.reads_inner (h : ReadJoined .or ks e) (hr : Ended rest)
    (hdepth : (ks ++ rest).length < depth) (hrest : Stops 0 rest) :
    Reads ((Rules.unfold depth).expr 0) ks rest fun value => value.bare = e :=
  h.reads_expr hr hdepth (fun _ _ => Nat.zero_le _) (Nat.zero_le _) hrest

/-- Expressions with commas between them. -/
theorem reads_items {items : List (List Kind × Tree.Expr)} {inner : List Kind} {closing : Symbol}
    (hclosing : closing ∈ [.rightParen, .rightBracket])
    (hitems : ∀ p ∈ items, Derives .or p.1 p.2) (hread : ∀ p ∈ items, ReadJoined .or p.1 p.2)
    (hinner : Separated (items.map Prod.fst) inner) (hr : Ended rest)
    (hdepth : (inner ++ .symbol closing :: rest).length < depth) :
    Reads (commaItems closing ((Rules.unfold depth).expr 0) (Rules.unfold depth).steps) inner
      (.symbol closing :: rest) fun values => values.map Tree.Expr.bare = items.map Prod.snd := by
  have hclose : closing ≠ .comma ∧ Expr.startsExpr (.symbol closing) = false ∧
      startsSuffix (.symbol closing) = false ∧ (Kind.symbol closing).binary? = none := by
    rcases List.mem_cons.mp hclosing with rfl | hclosing
    · decide
    · rw [List.mem_singleton.mp hclosing]
      decide
  refine reads_separated hinner rfl hclose.1 (fun p hp => ?_)
    (fun p hp others hothers hle hbehind => ?_) hr (Nat.le_refl _)
    (by rw [Rules.steps_unfold]; exact Nat.le_of_lt hdepth)
  · obtain ⟨k, ks, hks, hstart, -⟩ := (hitems p hp).eq_cons
    refine ⟨k, ks, hks, ?_, ?_⟩
    · rw [← Bool.not_eq_true, Kind.isSymbol_iff]
      rintro rfl
      rw [hclose.2.1] at hstart
      cases hstart
    · rw [← Bool.not_eq_true, Kind.isEof_iff]
      rintro rfl
      cases hstart
  · refine (hread p hp).reads_inner hothers (Nat.lt_of_le_of_lt hle hdepth) fun k hk => ?_
    rcases hbehind with hcomma | hclosed
    · rw [hcomma] at hk
      cases hk
      exact ⟨rfl, fun _ hop => nomatch hop⟩
    · rw [hclosed] at hk
      cases hk
      exact ⟨hclose.2.2.1, by rw [hclose.2.2.2]; exact fun _ hop => nomatch hop⟩

/-! ### One step for each form -/

def ReadAsLevel (l : Level) (ks : List Kind) (e : Tree.Expr) : Prop :=
  (Level.unary.rank < l.rank → ReadSuffixed ks e) ∧ ReadJoined l ks e

variable {ks' : List Kind} {left right : Tree.Expr}

theorem ReadSuffixed.asLevel (h : ReadSuffixed ks e) (hks : Derives l ks e)
    (hl : Level.unary.rank < l.rank) : ReadAsLevel l ks e :=
  ⟨fun _ => h, h.joined hks hl⟩

/-- An expression that is one token. -/
theorem readAsLevel_token {k : Kind} (hks : Derives .primary [k] e)
    (h : ∀ depth rest, Ended rest →
      Reads (Rules.unfold depth).primary [k] rest fun value => value.bare = e) :
    ReadAsLevel .primary [k] e := by
  have hprimary : ReadSuffixed [k] e :=
    fun depth rest hr _ _ => Rules.begins_of_primary (h depth rest hr)
  exact hprimary.asLevel hks (by decide)

theorem readJoined_binary {op : BinaryOp} (hop : op ∈ l.operators) (hleft : ReadJoined l ks left)
    (hright : ReadJoined l.next ks' right) :
    ReadJoined l (ks ++ .symbol op.symbol :: ks') (.binary op left right default) := by
  obtain ⟨hprecedence, hrightPrecedence, hunary⟩ := Level.precedence_of_mem_operators hop
  have hnext := Level.rank_next (Nat.lt_trans hunary (by decide))
  intro depth least rest hr hdepth hleast hrest
  rw [List.append_assoc, List.cons_append] at hdepth
  have hfirst := hleft depth least _ ((hr.append ks').cons (.symbol op.symbol)) hdepth hleast
    (stops_cons _ (startsSuffix_operator op) fun op' hop' => by
      rw [binary?_operator] at hop'
      cases hop'
      omega)
  rw [List.length_append, List.length_cons] at hdepth
  have hsecond : Reads ((Rules.unfold depth).expr op.rightPrecedence) ks' rest
      fun value => value.bare = right :=
    hright.reads_expr hr (by omega) (fun op' hop' => by omega) (by omega)
      (by rwa [hrightPrecedence])
  refine hfirst.binary hsecond (hleast op (by omega)) hr fun left' right' span hl hr' => ?_
  rw [Tree.Expr.bare, hl, hr']

theorem readJoined_sign {op : UnaryOp} (h : ReadJoined .unary ks e) :
    ReadJoined .unary (.symbol op.symbol :: ks) (.unary op e default) := by
  intro depth least rest hr hdepth _ hrest
  rw [List.cons_append, List.length_cons] at hdepth
  -- No operator binds as tightly as a sign, so those that bind less tightly than `**` end it.
  have hstops : Stops UnaryOp.precedence rest := fun k hk =>
    ⟨(hrest k hk).1, fun op hop => by
      have hlt := (hrest k hk).2 op hop
      revert hlt
      cases op <;> decide⟩
  have hoperand : Reads ((Rules.unfold depth).expr UnaryOp.precedence) ks rest
      fun value => value.bare = e :=
    h.reads_expr hr (by omega) (fun _ hop => hop) (by decide) hstops
  refine Rules.joins_of_operand
    (Rules.reads_operand_unary op hoperand hr fun value span hvalue => ?_)
  rw [Tree.Expr.bare, hvalue]

theorem readJoined_power (hks : Derives .suffixed ks left) (hleft : ReadSuffixed ks left)
    (hright : ReadJoined .unary ks' right) :
    ReadJoined .unary (ks ++ .symbol .starStar :: ks') (.binary .pow left right default) := by
  intro depth least rest hr hdepth hleast hrest
  rw [List.append_assoc, List.cons_append] at hdepth
  have hfirst := hleft.reads_operand hks (by decide) ((hr.append ks').cons (.symbol .starStar))
    hdepth fun k hk => by
      cases hk
      rfl
  rw [List.length_append, List.length_cons] at hdepth
  have hsecond : Reads ((Rules.unfold depth).expr BinaryOp.pow.rightPrecedence) ks' rest
      fun value => value.bare = right := by
    refine hright.reads_expr hr (by omega) (fun op hop => ?_) (by decide) hrest
    revert hop
    cases op <;> decide
  refine (Rules.joins_of_operand hfirst).binary hsecond (hleast .pow (by decide)) hr
    fun left' right' span hl hr' => ?_
  rw [Tree.Expr.bare, hl, hr']

theorem readSuffixed_call {callee : Tree.Expr} {args : List (List Kind × Tree.Expr)}
    {inner : List Kind} (hcallee : ReadSuffixed ks callee)
    (hargs : ∀ p ∈ args, Derives .or p.1 p.2) (hread : ∀ p ∈ args, ReadJoined .or p.1 p.2)
    (hinner : Separated (args.map Prod.fst) inner) (hfirst : inner = [] → ¬ IsBracketedType ks) :
    ReadSuffixed (ks ++ .symbol .leftParen :: (inner ++ [.symbol .rightParen]))
      (.call callee (args.map Prod.snd) default) := by
  intro depth rest hr hdepth _
  have hlength : (ks ++ .symbol .leftParen :: (inner ++ .symbol .rightParen :: rest)).length ≤
      depth := by simpa using hdepth
  have hbehind := ((hr.cons (.symbol .rightParen)).append inner).cons (.symbol .leftParen)
  have hempty : Rules.TakesEmptyArray ks
      (.symbol .leftParen :: (inner ++ .symbol .rightParen :: rest)) := by
    intro hbracketed others heq
    have hhead := (List.cons.inj heq).2
    rcases hinner.eq_nil_or with rfl | ⟨first, hmem, behind, rfl⟩
    · exact hfirst rfl hbracketed
    · -- No argument begins with the closing parenthesis.
      obtain ⟨p, hp, rfl⟩ := List.mem_map.mp hmem
      obtain ⟨k, ks', hcons, hstart, -⟩ := (hargs p hp).eq_cons
      rw [hcons] at hhead
      rw [(List.cons.inj hhead).1] at hstart
      cases hstart
  have hbegins := hcallee depth _ hbehind hlength hempty
  rw [List.length_append, List.length_cons] at hlength
  have hvalues : Reads
      (commaItems .rightParen ((Rules.unfold depth).expr 0) (Rules.unfold depth).steps) inner
      (.symbol .rightParen :: rest)
      fun values => values.map Tree.Expr.bare = args.map Prod.snd :=
    reads_items (by simp) hargs hread hinner hr (by omega)
  refine hbegins.call hvalues hr fun callee' values span hcallee' hvalues' => ?_
  rw [Tree.Expr.bare, Tree.Expr.bareAll_eq_map, hcallee', hvalues']

theorem readSuffixed_member {object : Tree.Expr} (field : String) (h : ReadSuffixed ks object) :
    ReadSuffixed (ks ++ [.symbol .dot, .name field]) (.member object (.of field) default) := by
  intro depth rest hr hdepth _
  have hbegins := h depth _ ((hr.cons (.name field)).cons (.symbol .dot)) (by simpa using hdepth)
    fun _ _ heq => nomatch heq
  refine hbegins.member hr fun object' name span hobject hname => ?_
  rw [Tree.Expr.bare, hobject, hname]

theorem readSuffixed_subscript {array index : Tree.Expr} (harray : ReadSuffixed ks array)
    (hindex : ReadJoined .or ks' index) :
    ReadSuffixed (ks ++ .symbol .leftBracket :: (ks' ++ [.symbol .rightBracket]))
      (.subscript array index default) := by
  intro depth rest hr hdepth _
  have hclose := hr.cons (.symbol .rightBracket)
  have hlength : (ks ++ .symbol .leftBracket :: (ks' ++ .symbol .rightBracket :: rest)).length ≤
      depth := by simpa using hdepth
  have hbegins := harray depth _ ((hclose.append ks').cons (.symbol .leftBracket)) hlength
    fun _ _ heq => nomatch heq
  rw [List.length_append, List.length_cons] at hlength
  have hvalue : Reads ((Rules.unfold depth).expr 0) ks' (.symbol .rightBracket :: rest)
      fun value => value.bare = index :=
    hindex.reads_inner hclose (by omega) (stops_cons_of_none 0 rest rfl rfl)
  refine hbegins.subscript hvalue hr fun array' index' span ha hi => ?_
  rw [Tree.Expr.bare, ha, hi]

theorem readSuffixed_parens (h : ReadJoined .or ks e) :
    ReadSuffixed (.symbol .leftParen :: (ks ++ [.symbol .rightParen])) e := by
  intro depth rest hr hdepth _
  have hlength : (ks ++ .symbol .rightParen :: rest).length < depth := by
    simp at hdepth ⊢
    omega
  have hinner := h.reads_inner (hr.cons (.symbol .rightParen)) hlength
    (stops_cons_of_none 0 rest rfl rfl)
  exact Rules.begins_of_primary (Rules.reads_primary_parens hinner hr)

theorem readSuffixed_emptyArray {element : Tree.TypeExpr} (h : IsType ks element) :
    ReadSuffixed (.symbol .leftBracket ::
      (ks ++ [.symbol .rightBracket, .symbol .leftParen, .symbol .rightParen]))
      (.emptyArray element default) := by
  intro depth rest hr hdepth _
  refine Rules.begins_of_primary (Rules.reads_primary_emptyArray h hr ?_)
  simp at hdepth ⊢
  omega

theorem readSuffixed_array {inner : List Kind} {elements : List (List Kind × Tree.Expr)}
    (helements : ∀ p ∈ elements, Derives .or p.1 p.2)
    (hread : ∀ p ∈ elements, ReadJoined .or p.1 p.2)
    (hinner : Separated (elements.map Prod.fst) inner) :
    ReadSuffixed (.symbol .leftBracket :: (inner ++ [.symbol .rightBracket]))
      (.array (elements.map Prod.snd) default) := by
  intro depth rest hr hdepth hempty
  have hlength : (inner ++ .symbol .rightBracket :: rest).length < depth := by
    simp at hdepth ⊢
    omega
  have hbalanced : Balanced inner := hinner.balanced fun ks hks => by
    obtain ⟨p, hp, rfl⟩ := List.mem_map.mp hks
    exact (helements p hp).balanced
  refine Rules.begins_of_primary (Rules.reads_primary_array
    (reads_items (by simp) helements hread hinner hr hlength) hbalanced hlength
    (fun type htype => hempty ⟨inner, type, htype, rfl⟩) hr fun values span hvalues => ?_)
  rw [Tree.Expr.bare, Tree.Expr.bareAll_eq_map, hvalues]

/-! ### All expressions -/

/-- **Every expression is read as its tree**, before all that does not go on with it. -/
theorem Derives.readAsLevel (h : Derives l ks e) : ReadAsLevel l ks e := by
  induction h with
  | @tighter l ks e h ih =>
    have hle : l.rank ≤ l.next.rank := by cases l <;> decide
    exact ⟨fun hl => ih.1 (Nat.lt_of_lt_of_le hl hle), ih.2.loosen hle⟩
  | binary op hop hleft hright ihleft ihright =>
    have hunary := (Level.precedence_of_mem_operators hop).2.2
    exact ⟨fun hl => absurd hl (by omega), readJoined_binary hop ihleft.2 ihright.2⟩
  | sign op h ih => exact ⟨fun hl => absurd hl (Nat.lt_irrefl _), readJoined_sign ih.2⟩
  | power hleft hright ihleft ihright =>
    exact ⟨fun hl => absurd hl (Nat.lt_irrefl _),
      readJoined_power hleft (ihleft.1 (by decide)) ihright.2⟩
  | call hcallee hargs hinner hfirst ihcallee ihargs =>
    exact (readSuffixed_call (ihcallee.1 (by decide)) hargs (fun p hp => (ihargs p hp).2) hinner
      hfirst).asLevel (.call hcallee hargs hinner hfirst) (by decide)
  | member field hobject ih =>
    exact (readSuffixed_member field (ih.1 (by decide))).asLevel (.member field hobject) (by decide)
  | subscript harray hindex iharray ihindex =>
    exact (readSuffixed_subscript (iharray.1 (by decide)) ihindex.2).asLevel
      (.subscript harray hindex) (by decide)
  | number value =>
    refine readAsLevel_token (.number value) fun depth rest hr =>
      Reads.bind_known (reads_peek rfl) ?_
    exact (reads_advance hr).bind_pure fun _ _ => rfl
  | string value =>
    refine readAsLevel_token (.string value) fun depth rest hr =>
      Reads.bind_known (reads_peek rfl) ?_
    exact (reads_advance hr).bind_pure fun _ _ => rfl
  | bool value =>
    refine readAsLevel_token (.bool value) fun depth rest hr =>
      Reads.bind_known (reads_peek rfl) ?_
    cases value <;> exact (reads_advance hr).bind_pure fun _ _ => rfl
  | name name =>
    refine readAsLevel_token (.name name) fun depth rest hr =>
      Reads.bind_known (reads_peek rfl) ?_
    exact (reads_identifier hr).bind_pure fun name hname => congrArg Tree.Expr.name hname
  | parens h ih => exact (readSuffixed_parens ih.2).asLevel h.parens (by decide)
  | emptyArray h => exact (readSuffixed_emptyArray h).asLevel (.emptyArray h) (by decide)
  | array helements hinner ih =>
    exact (readSuffixed_array helements (fun p hp => (ih p hp).2) hinner).asLevel
      (.array helements hinner) (by decide)

/-- **An expression is read** where a token comes behind it that goes on with no expression. -/
theorem Derives.reads (h : Derives .or ks e) (hr : Ended rest)
    (hdepth : (ks ++ rest).length < depth) (hrest : Stops 0 rest) :
    Reads ((Rules.unfold depth).expr 0) ks rest fun value => value.bare = e :=
  h.readAsLevel.2.reads_inner hr hdepth hrest

/-- **No tokens are two expressions.** -/
theorem Derives.unique {e' : Tree.Expr} (h : Derives .or ks e) (h' : Derives .or ks e') :
    e = e' := by
  obtain ⟨k, others, rfl⟩ := List.exists_cons_of_ne_nil h.ne_nil
  have hr : Ended [.eof] := ⟨[], rfl⟩
  have hstops : Stops 0 [.eof] := stops_cons_of_none 0 [] rfl rfl
  have hplace : ∃ cursor : Cursor, cursor.kinds = k :: others ++ [.eof] :=
    ⟨⟨⟨k, default⟩, (others ++ [Kind.eof]).map fun k => ⟨k, default⟩⟩, by
      simp [Cursor.kinds, Function.comp_def]⟩
  obtain ⟨cursor, hc⟩ := hplace
  obtain ⟨value, behind, hvalue, -, rfl⟩ := h.reads hr (Nat.lt_succ_self _) hstops cursor hc
  obtain ⟨value', behind', hvalue', -, rfl⟩ := h'.reads hr (Nat.lt_succ_self _) hstops cursor hc
  rw [hvalue] at hvalue'
  cases hvalue'
  rfl

/-! ### What the parser of expressions reads -/

/-- **The parser of expressions reads the expressions of the grammar**, and it has enough steps.
What it passes has exactly one tree, the one that it answers, and stands before a token that goes
on with no expression; and where the tokens of an expression stand before such a token, it
passes them and no more. -/
theorem Rules.expr_exact {cursor : Cursor} (hc : Ended cursor.kinds)
    (hdepth : cursor.tokens.length < depth) :
    (unfold depth).expr 0 cursor ≠ .exhausted ∧
    (∀ value behind, (unfold depth).expr 0 cursor = .done value behind →
      startsSuffix behind.current.kind = false ∧ behind.current.kind.binary? = none ∧
        ∃ front, front ≠ [] ∧ cursor.tokens = front ++ behind.tokens ∧
          ∀ e, Derives .or (front.map Token.kind) e ↔ value.bare = e) ∧
    ∀ front behind e, cursor.tokens = front ++ behind.tokens →
      Derives .or (front.map Token.kind) e → startsSuffix behind.current.kind = false →
      behind.current.kind.binary? = none →
        ∃ value, (unfold depth).expr 0 cursor = .done value behind ∧ value.bare = e := by
  rw [cursor.length_tokens] at hdepth
  have hyields := yieldsAt_expr depth hc hdepth 0
  refine ⟨hyields.1, fun value behind hv => ?_, fun front behind e htokens he hsuffix hop => ?_⟩
  · obtain ⟨-, front, htokens, hderives, hstops⟩ := hyields.2 value behind hv
    have hhead := hstops behind.current.kind rfl
    refine ⟨hhead.1, ?_, front, ?_, htokens, fun e => ⟨fun he => hderives.unique he, ?_⟩⟩
    · cases hop : behind.current.kind.binary? with
      | none => rfl
      | some op => exact absurd (hhead.2 op hop) (Nat.not_lt_zero _)
    · rintro rfl
      exact hderives.ne_nil rfl
    · rintro rfl
      exact hderives
  · have hkinds : cursor.kinds = front.map Token.kind ++ behind.kinds := by
      rw [← cursor.map_kind_tokens, htokens, List.map_append, behind.map_kind_tokens]
    have hbehind : Ended behind.kinds := by
      rw [hkinds] at hc
      exact hc.of_append (List.cons_ne_nil _ _)
    have hstops : Stops 0 behind.kinds := stops_cons_of_none 0 _ hsuffix hop
    obtain ⟨value, behind', hv, hkinds', hvalue⟩ :=
      he.reads hbehind (by rwa [← hkinds]) hstops cursor hkinds
    -- Both places have as many tokens in front of them.
    obtain ⟨-, front', htokens', -⟩ := hyields.2 value behind' hv
    have hlength : behind'.tokens.length = behind.tokens.length := by
      rw [behind'.length_tokens, hkinds', behind.length_tokens]
    have hplace := (List.append_inj_right' (htokens'.symm.trans htokens) hlength)
    rw [Cursor.eq_of_tokens hplace] at hv
    exact ⟨value, hv, hvalue⟩

/-- The tokens of `-x ** 2`. -/
def negatedPower : List Token :=
  [⟨.symbol .minus, default⟩, ⟨.name "x", default⟩, ⟨.symbol .starStar, default⟩,
    ⟨.number 2, default⟩]

/-- The sign stands in front of the power. -/
theorem derives_negatedPower : Derives .or (negatedPower.map Token.kind)
    (.unary .neg (.binary .pow (.name (.of "x")) (.number 2 default) default) default) := by
  have hpower := Derives.power ((Derives.name "x").loosen (by decide))
    ((Derives.number 2).loosen (by decide))
  exact (Derives.sign .neg hpower).loosen (by decide)

theorem Rules.expr_exact_negatedPower :
    ∃ cursor place : Cursor, cursor.tokens = negatedPower ++ place.tokens ∧
      Ended cursor.kinds ∧ cursor.tokens.length < 6 ∧
        ∃ value, (unfold 6).expr 0 cursor = .done value place ∧ value.bare =
          .unary .neg (.binary .pow (.name (.of "x")) (.number 2 default) default) default := by
  let place : Cursor := ⟨⟨.eof, default⟩, []⟩
  let cursor : Cursor := ⟨⟨.symbol .minus, default⟩, negatedPower.tail ++ place.tokens⟩
  have hended : Ended cursor.kinds := ⟨negatedPower.map Token.kind, rfl⟩
  have hdepth : cursor.tokens.length < 6 := by decide
  obtain ⟨-, -, hreads⟩ := expr_exact hended hdepth
  exact ⟨cursor, place, rfl, hended, hdepth,
    hreads negatedPower place _ rfl derives_negatedPower rfl rfl⟩

end TypedImp.Grammar
