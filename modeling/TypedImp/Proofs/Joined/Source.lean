import TypedImp.Proofs.Grammar.StatementCompleteness
import TypedImp.Proofs.Joined.Grammar

/-!
# The trees of two sources

If two sources are read as statements, then so are the two with a newline between them, as the
statements of the first one and then those of the second one, each so many characters and lines
further on as the first source and the newline are long (**`parse_append`**).

The tokens of the whole are those of both (`Token.ofSource_append`), since a source that is read
holds no string that is not closed.  The grammar is followed on two pairs of rows: the tokens of the
first source, which go on with those of the second one, and these, which go on with the end of the
input (`Tree.ofTokens_append`).  No statement begins with `else`, so the second source does not go
on with the last statement of the first one.
-/

namespace TypedImp

open TypedImp.Token (Kind)

namespace Grammar

/-! ### Rows of tokens -/

theorem Cursor.exists_tokens {tokens : List Token} (h : tokens ≠ []) :
    ∃ c : Cursor, c.tokens = tokens := by
  obtain ⟨t, ahead, rfl⟩ := List.exists_cons_of_ne_nil h
  exact ⟨⟨t, ahead⟩, rfl⟩

theorem extends_of_tokens {f : Span → Span} {back c d : Cursor} {front : List Token} {eof : Token}
    (hfront : ∀ t ∈ front, t.kind ≠ .eof) (heof : eof.kind = .eof) (hc : c.tokens = front ++ [eof])
    (hd : d.tokens = front.map (Token.map f) ++ back.tokens) : Extends f back c d := by
  induction front generalizing c d with
  | nil =>
    obtain rfl : c = ⟨eof, []⟩ := Cursor.eq_of_tokens hc
    obtain rfl : d = back := Cursor.eq_of_tokens hd
    exact .last heof
  | cons t front ih =>
    obtain ⟨hkind, hfront⟩ := List.forall_mem_cons.mp hfront
    obtain ⟨c', hc'⟩ := Cursor.exists_tokens (show front ++ [eof] ≠ [] by simp)
    obtain ⟨d', hd'⟩ := Cursor.exists_tokens
      (show front.map (Token.map f) ++ back.tokens ≠ [] by simp [Cursor.tokens])
    obtain rfl : c = ⟨t, c'.tokens⟩ := Cursor.eq_of_tokens (by rw [hc, ← hc'.symm]; rfl)
    obtain rfl : d = ⟨t.map f, d'.tokens⟩ := Cursor.eq_of_tokens (by rw [hd, hd']; rfl)
    exact .token hkind (ih hfront hc' hd')

/-! ### Programs -/

variable {ks : List Kind} {trees : List Tree.Stmt}

/-- Each statement has a token. -/
theorem IsProgram.length_le (h : IsProgram ks trees) : trees.length ≤ ks.length := by
  obtain ⟨items, rfl, rfl, hall⟩ := h
  induction items with
  | nil => exact Nat.zero_le _
  | cons item items ih =>
    obtain ⟨hfirst, hothers⟩ := List.forall_mem_cons.mp hall
    have hpos := List.length_pos_iff.mpr hfirst.ne_nil
    have hle := ih hothers
    rw [List.flatMap_cons, List.length_append, List.map_cons, List.length_cons]
    omega

/-- No statement begins with `else`. -/
theorem IsProgram.head_ne_elseWord (h : IsProgram ks trees) :
    ks.head? ≠ some (.symbol .elseWord) := by
  obtain ⟨items, rfl, rfl, hall⟩ := h
  cases items with
  | nil => simp
  | cons item items =>
    obtain ⟨k, others, hks, hk⟩ := (List.forall_mem_cons.mp hall).1.eq_cons
    rw [List.flatMap_cons, hks]
    rintro heq
    cases heq
    cases hk

theorem IsProgram.current_ne_elseWord (h : IsProgram ks trees) {c : Cursor}
    (hc : c.kinds = ks ++ [.eof]) : c.current.kind.isSymbol .elseWord = false := by
  rw [← Bool.not_eq_true, Kind.isSymbol_iff]
  intro hkind
  have hhead : (ks ++ [Kind.eof]).head? = some (.symbol .elseWord) := by
    rw [← hc, ← hkind]
    rfl
  cases ks with
  | nil => cases hhead
  | cons k ks => exact h.head_ne_elseWord hhead

theorem Rules.depthFor_mono {m n : Nat} (h : m ≤ n) : depthFor m ≤ depthFor n := by
  rw [depthFor, depthFor]
  omega

/-- The rules are unfolded deep enough for a statement to each token, and one step more. -/
theorem Rules.exists_depthFor_eq {m n tokens : Nat} (h : m + n < tokens) :
    ∃ steps, depthFor tokens = m + (n + (steps + 1)) := by
  refine ⟨depthFor tokens - m - n - 1, ?_⟩
  rw [depthFor]
  omega

end Grammar

open TypedImp.Grammar TypedImp.Grammar.Parser

namespace Tree

/-! ### The trees of two rows -/

theorem ofTokens_tokens_eq_ok {c : Cursor} {stmts : List Stmt} :
    ofTokens c.tokens = .ok stmts ↔ ∃ rest,
      (Rules.unfold (Rules.depthFor c.tokens.length)).program c = .done stmts rest := by
  rw [Cursor.tokens, ofTokens, List.length_cons]
  split
  · rename_i stmts' rest hdone
    simp [hdone]
  · rename_i fault hfailed
    simp [hfailed]
  · rename_i hexhausted
    simp [hexhausted]

/-- What is read of a row is read of a longer one too, and what comes where the first row ends is
read behind it. -/
theorem itemsUntil_of_ofTokens {f : Span → Span}
    (hf : ∀ s t : Span, f (s.merge t) = (f s).merge (f t)) {back c d stop : Cursor}
    (hrow : Extends f back c d) (hback : back.current.kind.isSymbol .elseWord = false)
    {stmts others : List Stmt} (h : ofTokens c.tokens = .ok stmts) {depth steps : Nat}
    (hdepth : Rules.depthFor c.tokens.length ≤ depth)
    (hothers : itemsUntil Rules.atEnd (Rules.unfold depth).stmt steps back = .done others stop) :
    itemsUntil Rules.atEnd (Rules.unfold depth).stmt (stmts.length + steps) d =
      .done (stmts.map (Stmt.mapSpans f) ++ others) stop := by
  obtain ⟨rest, hdone⟩ := ofTokens_tokens_eq_ok.mp h
  exact itemsUntil_append (Rules.matches_unfold hf hback hdepth).stmt hrow hdone hothers

variable {front front' : List Token} {eof eof' : Token} {trees trees' : List Stmt}

/-- **The statements of two rows of tokens**, of which the second one may stand elsewhere. -/
theorem ofTokens_append {f : Span → Span} (hf : ∀ s t : Span, f (s.merge t) = (f s).merge (f t))
    (hfront : ∀ t ∈ front, t.kind ≠ .eof) (heof : eof.kind = .eof)
    (h : ofTokens (front ++ [eof]) = .ok trees) (hfront' : ∀ t ∈ front', t.kind ≠ .eof)
    (heof' : eof'.kind = .eof) (h' : ofTokens (front' ++ [eof']) = .ok trees') :
    ofTokens (front ++ (front' ++ [eof']).map (Token.map f)) =
      .ok (trees ++ trees'.map (Stmt.mapSpans f)) := by
  have hprogram := isProgram_front hfront heof h
  have hprogram' := isProgram_front hfront' heof' h'
  -- the places where the rows begin, of which `d` is the one of the whole
  obtain ⟨c, hc⟩ := Cursor.exists_tokens (show front ++ [eof] ≠ [] by simp)
  obtain ⟨c', hc'⟩ := Cursor.exists_tokens (show front' ++ [eof'] ≠ [] by simp)
  obtain ⟨d', hd'⟩ := Cursor.exists_tokens
    (show (front' ++ [eof']).map (Token.map f) ≠ [] by simp)
  obtain ⟨d, hd⟩ := Cursor.exists_tokens
    (show front ++ d'.tokens ≠ [] by simp [Cursor.tokens])
  let last : Cursor := ⟨eof'.map f, []⟩
  have hrow : Extends id d' c d := by
    refine extends_of_tokens hfront heof hc ?_
    rw [hd]
    exact congrArg (· ++ d'.tokens) (List.map_id front).symm
  have hrow' : Extends f last c' d' :=
    extends_of_tokens hfront' heof' hc' (by rw [hd', List.map_append]; rfl)
  -- neither row goes on with `else`
  have helse : d'.current.kind.isSymbol .elseWord = false := by
    refine hprogram'.current_ne_elseWord ?_
    rw [← Cursor.map_kind_tokens, hd', List.map_map, List.map_append]
    exact congrArg (List.map Token.kind front' ++ [·]) heof'
  have helse' : last.current.kind.isSymbol .elseWord = false := by
    show eof'.kind.isSymbol .elseWord = false
    rw [heof']
    rfl
  have hsize : d.tokens.length = front.length + (front'.length + 1) := by
    rw [hd, hd', List.length_append, List.length_map, List.length_append, List.length_singleton]
  have hdepth : Rules.depthFor c.tokens.length ≤ Rules.depthFor d.tokens.length := by
    refine Rules.depthFor_mono ?_
    rw [hsize, hc, List.length_append, List.length_singleton]
    omega
  have hdepth' : Rules.depthFor c'.tokens.length ≤ Rules.depthFor d.tokens.length := by
    refine Rules.depthFor_mono ?_
    rw [hsize, hc', List.length_append, List.length_singleton]
    omega
  have hfew : trees.length + trees'.length < d.tokens.length := by
    have hle := hprogram.length_le
    have hle' := hprogram'.length_le
    rw [List.length_map, List.length_map] at hle hle'
    omega
  obtain ⟨steps, hsteps⟩ := Rules.exists_depthFor_eq hfew
  rw [← hc] at h
  rw [← hc'] at h'
  have hbehind := itemsUntil_of_ofTokens hf hrow' helse' h' hdepth'
    (itemsUntil_atEnd_of_eof (show last.current.kind = .eof from heof') steps)
  have hwhole := itemsUntil_of_ofTokens (fun _ _ => rfl) hrow helse h hdepth hbehind
  rw [Stmt.mapSpans_id, List.map_id, List.append_nil, ← hsteps] at hwhole
  rw [← hd', ← hd, ofTokens_tokens_eq_ok, Rules.program, Rules.steps_unfold]
  exact ⟨last, hwhole⟩

end Tree

/-! ### The trees of two sources -/

/-- **Reading two sources with a newline between them**: the statements are those of the first one
and then those of the second one, each as many characters and lines further on as there are in front
of the second source, and in the same column. -/
theorem parse_append {source behind : String} {trees trees' : List Tree.Stmt}
    (h : parse source = .ok trees) (h' : parse behind = .ok trees') :
    parse (source ++ "\n" ++ behind) = .ok (trees ++ trees'.map (Tree.Stmt.mapSpans
      (Span.move (source.length + 1) (source.toList.count '\n' + 1)))) := by
  obtain ⟨front, eof, hsource, hfront, heof, -, -⟩ := (Token.laid_ofSource source).last_eof
  obtain ⟨front', eof', hsource', hfront', heof', -, -⟩ := (Token.laid_ofSource behind).last_eof
  have htrees := parse_eq_ok h
  have htrees' := parse_eq_ok h'
  rw [hsource] at htrees
  rw [hsource'] at htrees'
  have hpassed := (Tree.isProgram_front hfront heof htrees).allPassed
  have hclosed : ∀ t ∈ Token.ofSource source, t.kind ≠ .unterminated := by
    intro t ht hkind
    rw [hsource, List.mem_append, List.mem_singleton] at ht
    rcases ht with ht | rfl
    · have hkept := hpassed t.kind (List.mem_map_of_mem ht)
      rw [hkind] at hkept
      cases hkept
    · rw [heof] at hkind
      cases hkind
  obtain ⟨front₁, eof₁, hsource₁, -, hjoined⟩ := Token.ofSource_append hclosed behind
  obtain ⟨rfl, -⟩ := List.append_inj' (hsource.symm.trans hsource₁) rfl
  rw [parse, Tree.ofSource, hjoined, hsource',
    Tree.ofTokens_append Span.move_merge hfront heof htrees hfront' heof' htrees']
  rfl

/-- A conditional with no `else`, and a comment that ends with the source. -/
def openSource : String := "if x { x++; } // up"

def openTree : List Tree.Stmt :=
  let step : Span := ⟨⟨7, 1, 8⟩, 10⟩
  [.ifThen (.name ⟨"x", ⟨⟨3, 1, 4⟩, 4⟩⟩)
    ⟨[.increment (.name ⟨"x", ⟨⟨7, 1, 8⟩, 8⟩⟩) step], ⟨⟨5, 1, 6⟩, 13⟩⟩ ⟨⟨0, 1, 1⟩, 13⟩]

theorem parse_openSource : parse openSource = .ok openTree := by
  cbv

def printSource : String := "print x;"

/-- The tree of `printSource`, so many characters and lines further on. -/
def printTree (chars lines : Nat) : List Tree.Stmt :=
  [.print (.name ⟨"x", ⟨⟨chars + 6, lines + 1, 7⟩, chars + 7⟩⟩) ⟨⟨chars, lines + 1, 1⟩, chars + 8⟩]

theorem parse_printSource : parse printSource = .ok (printTree 0 0) := by
  cbv

/-- Neither the comment nor the conditional goes on on the second line. -/
theorem parse_append_open : parse openSource = .ok openTree ∧
    parse printSource = .ok (printTree 0 0) ∧
    parse (openSource ++ "\n" ++ printSource) = .ok (openTree ++ printTree 20 1) :=
  ⟨parse_openSource, parse_printSource,
    (parse_append parse_openSource parse_printSource).trans (by cbv)⟩

end TypedImp
