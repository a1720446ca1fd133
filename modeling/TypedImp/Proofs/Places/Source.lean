import TypedImp.Proofs.Grammar.Built
import TypedImp.Proofs.Places.Checking
import TypedImp.Proofs.Places.Grammar

/-!
# Every reported place is in the source

What is said about places in this development comes together here, for whole sources
(**`places_ofSource`**).  The spans of a parse tree are right for its source: each has characters,
with the line and the column of the first one; what is below a node is within it, and what stands
side by side does not overlap.  A mistake in the grammar is reported at a token, and a broken rule
at a node of the tree.  So the line and the column that a message begins with are always those of
the first character of what is wrong.
-/

namespace TypedImp

/-- **A place in a text**: its line and its column, counted from one, are those of its offset. -/
structure Position.In (cs : List Char) (p : Position) : Prop where
  offset : p.offset ≤ cs.length
  line : p.line = 1 + (cs.take p.offset).count '\n'
  column : p.column = 1 + (Token.lastLine (cs.take p.offset)).length

theorem Position.in_of_eq {cs : List Char} {p : Position} (hle : p.offset ≤ cs.length)
    (h : p = Position.start.advance (cs.take p.offset)) : p.In cs := by
  rw [Token.advance_start] at h
  exact ⟨hle, congrArg Position.line h, congrArg Position.column h⟩

theorem Span.Sits.position {cs : List Char} {s : Span} (h : s.Sits cs) : s.start.In cs := by
  have hlt := h.nonempty
  have hle := h.inside
  exact Position.in_of_eq (by omega) h.start

namespace Tree

def IsNode (stmts : List Stmt) (n : Node) : Prop := ∃ s ∈ stmts, n.Within (.stmt s)

/-- **All spans of a tree are right for a text.** -/
structure Spanned (cs : List Char) (stmts : List Stmt) : Prop where
  nonempty : ∀ n, IsNode stmts n → n.span.start.offset < n.span.stop ∧ n.span.stop ≤ cs.length
  position : ∀ n, IsNode stmts n → n.span.start.In cs
  within : ∀ n, IsNode stmts n → ∀ c ∈ n.children,
    n.span.start.offset ≤ c.span.start.offset ∧ c.span.stop ≤ n.span.stop
  ordered : ∀ n, IsNode stmts n →
    n.children.Pairwise fun c c' => c.span.stop ≤ c'.span.start.offset
  /-- The statements of the program do not stand within a node. -/
  top : stmts.Pairwise fun s s' => s.span.stop ≤ s'.span.start.offset

theorem Node.Row.spanned {cs : List Char} {lo hi : Nat} {stmts : List Stmt}
    (h : Node.Row cs lo hi (stmts.map .stmt)) : Spanned cs stmts := by
  have hsound : ∀ n, IsNode stmts n → n.Sound cs := by
    rintro n ⟨s, hs, hn⟩
    exact (h.sound (.stmt s) (List.mem_map_of_mem hs)).of_within hn
  have hsits : ∀ n, IsNode stmts n → n.span.Sits cs := by
    intro n hn
    cases hsound n hn with
    | node sits _ _ => exact sits
  have hrow : ∀ n, IsNode stmts n →
      Span.Row cs n.span.start.offset n.span.stop (n.children.map span) := by
    intro n hn
    cases hsound n hn with
    | node _ row _ => exact row
  refine ⟨fun n hn => ⟨(hsits n hn).nonempty, (hsits n hn).inside⟩,
    fun n hn => (hsits n hn).position, fun n hn c hc => ?_, fun n hn => ?_, ?_⟩
  · exact (hrow n hn).bounds c.span (List.mem_map_of_mem hc)
  · exact List.pairwise_map.mp (hrow n hn).pairwise
  · have hpairs := List.pairwise_map.mp h.spans.pairwise
    exact List.pairwise_map.mp hpairs

end Tree

/-! ### Sources -/

theorem standing_ofSource (source : String) :
    Grammar.Standing source.toList (Token.ofSource source) :=
  Grammar.standing_of_laid (Token.laid_ofSource source)

theorem parse_spanned {source : String} {stmts : List Tree.Stmt} (h : parse source = .ok stmts) :
    Tree.Spanned source.toList stmts := by
  obtain ⟨lo, hi, hrow⟩ := Tree.row_of_ofTokens (standing_ofSource source) (parse_eq_ok h)
  exact hrow.spanned

theorem exists_token_of_parse {source : String} {d : Diagnostic} (h : parse source = .error d) :
    ∃ t ∈ Token.ofSource source, d.span = t.span := by
  rw [parse, Tree.ofSource] at h
  cases ht : Tree.ofTokens (Token.ofSource source) with
  | ok stmts =>
    rw [ht] at h
    cases h
  | error fault =>
    rw [ht] at h
    cases h
    exact Tree.exists_token_of_ofTokens (standing_ofSource source) ht

theorem exists_node_of_analyze {stmts : List Tree.Stmt} {d : Diagnostic}
    (h : analyze stmts = .error d) : ∃ n, Tree.IsNode stmts n ∧ d.span = n.span := by
  rw [analyze] at h
  cases ht : Program.ofTree stmts with
  | ok p =>
    rw [ht] at h
    cases h
  | error fault =>
    rw [ht] at h
    cases h
    obtain ⟨s, hs, n, hn, hspan⟩ := Program.exists_node_of_ofTree ht
    exact ⟨n, ⟨s, hs, hn⟩, hspan⟩

theorem in_of_compile {source : String} {simplify : Bool} {d : Diagnostic}
    (h : compile source simplify = .error d) : d.span.start.In source.toList := by
  rw [compile] at h
  cases hparse : parse source with
  | error d' =>
    rw [hparse] at h
    cases h
    obtain ⟨t, ht, hspan⟩ := exists_token_of_parse hparse
    rw [hspan]
    have hlaid := Token.laid_ofSource source
    obtain ⟨front, eof, htokens, hfront, -, hstart, -⟩ := hlaid.last_eof
    rw [List.nil_append] at hstart
    have hordered := hlaid.ordered.2
    refine Position.in_of_eq ?_ (hlaid.position t ht)
    rw [htokens] at ht hordered
    rcases List.mem_append.mp ht with hmem | hmem
    · have hle := (List.pairwise_append.mp hordered).2.2 t hmem eof List.mem_cons_self
      have hlt := (hlaid.alone t (by simp [htokens, hmem]) (hfront t hmem)).1
      omega
    · rw [List.mem_singleton.mp hmem]
      omega
  | ok stmts =>
    rw [hparse] at h
    cases hanalyze : analyze stmts with
    | ok p =>
      simp only [bind, Except.bind, hanalyze] at h
      cases h
    | error d' =>
      simp only [bind, Except.bind, hanalyze] at h
      cases h
      obtain ⟨n, hn, hspan⟩ := exists_node_of_analyze hanalyze
      rw [hspan]
      exact (parse_spanned hparse).position n hn

/-- **Every reported place is in the source.**  The spans of a parse tree are right for the source
it was read from.  If there is none, the mistake is reported at a token, and if the tree breaks a
rule, at one of its nodes.  What is printed of a mistake begins with the line and the column of the
first character of that span. -/
theorem places_ofSource (source : String) :
    (∀ stmts, parse source = .ok stmts → Tree.Spanned source.toList stmts) ∧
    (∀ d, parse source = .error d → ∃ t ∈ Token.ofSource source, d.span = t.span) ∧
    (∀ stmts d, parse source = .ok stmts → analyze stmts = .error d →
      ∃ n, Tree.IsNode stmts n ∧ d.span = n.span) ∧
    ∀ simplify d, compile source simplify = .error d →
      d.span.start.In source.toList ∧
      d.text = d.stage.name ++ " error at " ++
        (toString (1 + (source.toList.take d.span.start.offset).count '\n') ++ ":" ++
          toString (1 + (Token.lastLine (source.toList.take d.span.start.offset)).length)) ++
        ": " ++ d.message := by
  refine ⟨fun stmts h => parse_spanned h, fun d h => exists_token_of_parse h,
    fun stmts d _ h => exists_node_of_analyze h, fun simplify d h => ?_⟩
  have hin := in_of_compile h
  refine ⟨hin, ?_⟩
  rw [Diagnostic.text, Span.text, hin.line, hin.column]

/-- A call on a second line, of a name in parentheses. -/
def spannedSource : String := "let a = true;\n  (a)(b);"

/-- The tree of `spannedSource`.  The span of the call begins within the parentheses. -/
def spannedTree : List Tree.Stmt :=
  let call : Span := ⟨⟨17, 2, 4⟩, 22⟩
  [.declareVariable ⟨"a", ⟨⟨4, 1, 5⟩, 5⟩⟩ false none (some (.bool true ⟨⟨8, 1, 9⟩, 12⟩))
      ⟨⟨0, 1, 1⟩, 13⟩,
    .call (.call (.name ⟨"a", ⟨⟨17, 2, 4⟩, 18⟩⟩) [.name ⟨"b", ⟨⟨20, 2, 7⟩, 21⟩⟩] call) call]

theorem parse_spannedSource : parse spannedSource = .ok spannedTree := by
  cbv

/-- What is called is no function: this is reported at the call. -/
theorem compile_spannedSource : compile spannedSource false =
    .error ⟨.semantics, "Call of non-function", ⟨⟨17, 2, 4⟩, 22⟩⟩ := by
  rw [compile, parse_spannedSource]
  rfl

theorem places_ofSource_call :
    parse spannedSource = .ok spannedTree ∧ Tree.Spanned spannedSource.toList spannedTree ∧
      compile spannedSource false =
        .error ⟨.semantics, "Call of non-function", ⟨⟨17, 2, 4⟩, 22⟩⟩ ∧
      Position.In spannedSource.toList ⟨17, 2, 4⟩ :=
  have h := places_ofSource spannedSource
  ⟨parse_spannedSource, h.1 spannedTree parse_spannedSource, compile_spannedSource,
    (h.2.2.2 false _ compile_spannedSource).1⟩

end TypedImp
