import TypedImp.Compile
import TypedImp.Proofs.Layout.Checking
import TypedImp.Proofs.Layout.Grammar
import TypedImp.Proofs.Token.Placed

/-!
# Layout has no influence

Two sources may differ in their blanks and comments, and so in the places of their tokens,
and still have tokens of the same kinds.  Then they are the same program, or neither is one
and both have the same mistake.  `SameUpToLayout` says this, and that a mistake of grammar is
at the token of the same index; since no two tokens stand at one place, the place of a
mistake tells the index.

**`sameUpToLayout_of_kinds`** puts together that neither the grammar nor the checks look at
places (`Tree.ofTokens_alike`, `Program.ofTree_alike`).  A program has no places, so the
simplifier has none to look at.
-/

namespace TypedImp

open TypedImp.Grammar

/-! ### The same token of two sources -/

def Token.indexAt? (tokens : List Token) (place : Span) : Option Nat :=
  tokens.findIdx? fun t => t.span = place

/-- Two places are those of tokens of one index. -/
def SameIndex (tokens tokens' : List Token) (p q : Span) : Prop :=
  ∃ i, Token.indexAt? tokens p = some i ∧ Token.indexAt? tokens' q = some i

theorem Token.indexAt?_span {tokens : List Token}
    (h : tokens.Pairwise fun t t' => t.span ≠ t'.span) {i : Nat} (hi : i < tokens.length) :
    indexAt? tokens tokens[i].span = some i := by
  refine List.findIdx?_eq_some_iff_getElem.mpr ⟨hi, by simp, fun j hj => ?_⟩
  simpa using List.pairwise_iff_getElem.mp h j i (by omega) hi hj

/-- **Tokens of the same kinds**, each opposite the one of its index. -/
theorem forall₂_tokenAlike {tokens tokens' : List Token}
    (hkinds : tokens.map Token.kind = tokens'.map Token.kind)
    (h : tokens.Pairwise fun t t' => t.span ≠ t'.span)
    (h' : tokens'.Pairwise fun t t' => t.span ≠ t'.span) :
    List.Forall₂ (TokenAlike (SameIndex tokens tokens')) tokens tokens' := by
  have hlength : tokens.length = tokens'.length := by
    simpa using congrArg List.length hkinds
  refine List.forall₂_iff_get.mpr ⟨hlength, fun i hi hi' => ⟨?_, i, ?_, ?_⟩⟩
  · have hkind : (tokens.map Token.kind)[i]? = (tokens'.map Token.kind)[i]? := by rw [hkinds]
    simpa [hi, hi'] using hkind
  · exact Token.indexAt?_span h hi
  · exact Token.indexAt?_span h' hi'

/-! ### The stages -/

/-- **Rows of the same kinds are read alike**: as the same trees up to spans, or as the
same mistake at places that `S` relates. -/
theorem Tree.ofTokens_alike {S : Span → Span → Prop} {tokens tokens' : List Token}
    (h : List.Forall₂ (TokenAlike S) tokens tokens') :
    SameEnd (fun f g => f.cause = g.cause ∧ S f.span g.span)
      (fun trees trees' => trees.map Stmt.bare = trees'.map Stmt.bare)
      (ofTokens tokens) (ofTokens tokens') := by
  cases h with
  | nil => exact .ok rfl
  | @cons current current' ahead ahead' hcurrent hahead =>
    have h := Rules.agree_program (Rules.depthFor (ahead.length + 1)) ⟨current, ahead⟩
      ⟨current', ahead'⟩ ⟨hcurrent, hahead⟩
    rw [ofTokens, ofTokens, ← hahead.length_eq]
    generalize (Rules.unfold (Rules.depthFor (ahead.length + 1))).program ⟨current, ahead⟩ = x at h
    generalize
      (Rules.unfold (Rules.depthFor (ahead.length + 1))).program ⟨current', ahead'⟩ = y at h
    cases h with
    | done value rest => exact .ok value
    | failed cause span => exact .error ⟨cause, span⟩
    | exhausted => exact .error ⟨rfl, hcurrent.span⟩

structure Diagnostic.Alike (d d' : Diagnostic) : Prop where
  stage : d.stage = d'.stage
  message : d.message = d'.message

/-- Trees that differ only in spans are the same program, or are refused with one message. -/
theorem analyze_alike {trees trees' : List Tree.Stmt}
    (h : trees.map Tree.Stmt.bare = trees'.map Tree.Stmt.bare) :
    SameEnd Diagnostic.Alike Eq (analyze trees) (analyze trees') :=
  SameEnd.mapError (Program.ofTree_alike h) fun _ _ hcause =>
    ⟨rfl, congrArg Checking.Fault.message hcause⟩

/-! ### The same result -/

/-- **Two sources have the same results**, up to places. -/
structure SameUpToLayout (source source' : String) : Prop where
  /-- They are compiled to one program, or are refused with one message. -/
  compiled : ∀ simplify : Bool,
    SameEnd Diagnostic.Alike Eq (compile source simplify) (compile source' simplify)
  /-- They have one tree but for its spans, or the grammar breaks off at one token. -/
  parsed : SameEnd
    (fun d d' => d.Alike d' ∧
      SameIndex (Token.ofSource source) (Token.ofSource source') d.span d'.span)
    (fun trees trees' => trees.map Tree.Stmt.bare = trees'.map Tree.Stmt.bare)
    (parse source) (parse source')

/-- **Layout has no influence**: sources whose tokens are of the same kinds have the same
results, up to places. -/
theorem sameUpToLayout_of_kinds {source source' : String}
    (h : (Token.ofSource source).map Token.kind = (Token.ofSource source').map Token.kind) :
    SameUpToLayout source source' := by
  have hdistinct (source : String) :
      (Token.ofSource source).Pairwise fun t t' => t.span ≠ t'.span :=
    (Token.laid_tokensFrom [] source.toList).distinct
  have hopposite := forall₂_tokenAlike h (hdistinct source) (hdistinct source')
  have hparsed : SameEnd
      (fun d d' => d.Alike d' ∧
        SameIndex (Token.ofSource source) (Token.ofSource source') d.span d'.span)
      (fun trees trees' => trees.map Tree.Stmt.bare = trees'.map Tree.Stmt.bare)
      (parse source) (parse source') :=
    (Tree.ofTokens_alike hopposite).mapError fun f g ⟨hcause, hindex⟩ =>
      ⟨⟨rfl, congrArg Fault.message hcause⟩, hindex⟩
  refine ⟨fun simplify => ?_, hparsed⟩
  have halike := hparsed.mono fun d d' (hd : d.Alike d' ∧ _) => hd.1
  refine halike.bind fun trees trees' hbare => ?_
  refine (analyze_alike hbare).bind fun program program' hprogram => ?_
  rw [hprogram]
  exact .ok rfl

/-- One statement, on one line and on two with a comment. -/
theorem sameUpToLayout_of_kinds_commented :
    (Token.ofSource "print \"hi\";").map Token.kind =
      (Token.ofSource "print // greet\n  \"hi\" ;").map Token.kind ∧
    SameUpToLayout "print \"hi\";" "print // greet\n  \"hi\" ;" := by
  have hkinds : (Token.ofSource "print \"hi\";").map Token.kind =
      (Token.ofSource "print // greet\n  \"hi\" ;").map Token.kind := by cbv
  exact ⟨hkinds, sameUpToLayout_of_kinds hkinds⟩

end TypedImp
