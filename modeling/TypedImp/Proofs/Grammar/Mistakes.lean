import TypedImp.Compile
import TypedImp.Proofs.Grammar.Moves
import TypedImp.Proofs.Grammar.StatementCompleteness
import TypedImp.Proofs.Token.Placed

/-!
# Mistakes are never skipped

A character that begins no token and a string that is not closed are tokens too, so that a source
has tokens whatever is in it.  No rule wants such a token, so the grammar ends there at the latest,
and if it ends there, that is what it says (**`mistake_not_skipped`**).

Nothing is read beyond such a token either, not even by an attempt that is given up: no function of
the parser goes from a place in front of it to a place behind it, whether it succeeds or fails
(`Cursor.Reaches.exists_drop`).
-/

namespace TypedImp

open Grammar Grammar.Parser

/-- The mistake that a token is by itself, whatever is wanted in its place. -/
def Token.Kind.mistake? : Token.Kind → Option Fault
  | .unknown c => some (.unexpectedCharacter c)
  | .unterminated => some .unterminatedString
  | _ => none

namespace Grammar

theorem Fault.ofKind_of_mistake? {k : Token.Kind} {mistake : Fault} (h : k.mistake? = some mistake)
    (wanted : Expected) : Fault.ofKind wanted k = mistake := by
  cases k with
  | unknown c => exact Option.some.inj h
  | unterminated => exact Option.some.inj h
  | _ => cases h

theorem isPassed_of_mistake? {k : Token.Kind} {mistake : Fault} (h : k.mistake? = some mistake) :
    isPassed k = false := by
  cases k with
  | unknown | unterminated | eof => rfl
  | _ => cases h

/-! ### Places of tokens in a row -/

variable {tokens : List Token} {bad : Token} {i k : Nat}

/-- **A token that cannot be part of a program is not passed**: from a place in front of it, only
places in front of it are reached. -/
theorem Cursor.Reaches.exists_drop {c d : Cursor} (h : c.Reaches d)
    (hc : c.tokens = tokens.drop i) (hbad : tokens[k]? = some bad)
    (hpassed : isPassed bad.kind = false) (hik : i ≤ k) :
    ∃ j, i ≤ j ∧ j ≤ k ∧ d.tokens = tokens.drop j := by
  obtain ⟨front, hfront, hall⟩ := h
  refine ⟨i + front.length, Nat.le_add_right _ _, Nat.le_of_not_lt fun hlt => ?_, ?_⟩
  · have hdrop : (tokens.drop i)[k - i]? = some bad := by
      rw [List.getElem?_drop, Nat.add_sub_cancel' hik, hbad]
    rw [← hc, hfront, List.getElem?_append_left (by omega)] at hdrop
    have hbad := hall bad.kind (List.mem_map_of_mem (List.mem_of_getElem? hdrop))
    rw [hpassed] at hbad
    cases hbad
  · rw [← List.drop_drop, ← hc, hfront, List.drop_left]

/-- A parser on a row with such a token stops in front of it or at it, and if it fails, the token
where it stops is what it fails for. -/
theorem Parser.MovesAt.exists_drop {α : Type} {p : Parser α} {c : Cursor} (h : MovesAt p c)
    (hended : Ended (tokens.map Token.kind)) (hc : c.tokens = tokens.drop i)
    (hbad : tokens[k]? = some bad) (hpassed : isPassed bad.kind = false) (hik : i ≤ k) :
    (∀ value d, p c = .done value d → ∃ j, i ≤ j ∧ j ≤ k ∧ d.tokens = tokens.drop j) ∧
      ∀ fault, p c = .failed fault → ∃ j t wanted, i ≤ j ∧ j ≤ k ∧ tokens[j]? = some t ∧
        fault = ⟨.ofKind wanted t.kind, t.span⟩ := by
  have hkinds : Ended c.kinds := by
    rw [← List.take_append_drop i tokens, ← hc, List.map_append] at hended
    exact hended.of_append (List.cons_ne_nil _ _)
  obtain ⟨hdone, hfailed⟩ := h hkinds
  refine ⟨fun value d hd => (hdone value d hd).exists_drop hc hbad hpassed hik, fun fault hf => ?_⟩
  obtain ⟨d, wanted, hd, heq⟩ := hfailed fault hf
  obtain ⟨j, hij, hjk, hdrop⟩ := hd.exists_drop hc hbad hpassed hik
  exact ⟨j, d.current, wanted, hij, hjk, d.getElem?_current hdrop, heq⟩

end Grammar

/-! ### Whole rows -/

/-- **Tokens with a mistake among them spell nothing**: they are refused at the mistake, or at a
token in front of it. -/
theorem Tree.ofTokens_of_mistake {front : List Token} {eof bad : Token} {k : Nat} {mistake : Fault}
    (hfront : ∀ t ∈ front, t.kind ≠ .eof) (heof : eof.kind = .eof)
    (hbad : (front ++ [eof])[k]? = some bad) (hmistake : bad.kind.mistake? = some mistake) :
    ∃ i t wanted, i ≤ k ∧ (front ++ [eof])[i]? = some t ∧
      Tree.ofTokens (front ++ [eof]) = .error ⟨.ofKind wanted t.kind, t.span⟩ := by
  have hpassed := isPassed_of_mistake? hmistake
  cases hresult : Tree.ofTokens (front ++ [eof]) with
  | ok stmts =>
    have hall := (Tree.isProgram_front hfront heof hresult).allPassed
    rcases List.mem_append.mp (List.mem_of_getElem? hbad) with hmem | hmem
    · rw [hall bad.kind (List.mem_map_of_mem hmem)] at hpassed
      cases hpassed
    · rw [List.mem_singleton.mp hmem, heof] at hmistake
      cases hmistake
  | error fault =>
    have hended : Ended ((front ++ [eof]).map Token.kind) := ended_map_kind heof
    obtain ⟨current, ahead, htokens⟩ : ∃ current ahead, front ++ [eof] = current :: ahead :=
      List.exists_cons_of_ne_nil (by simp)
    rw [htokens] at hended hbad hresult ⊢
    let c : Cursor := ⟨current, ahead⟩
    have hc : Ended c.kinds := hended
    have hprogram := Rules.movesAt_function (c := c) (Rules.depthFor (ahead.length + 1)) .program
    have hmoves := hprogram.exists_drop hended List.drop_zero.symm hbad hpassed (Nat.zero_le k)
    rw [Tree.ofTokens] at hresult
    split at hresult
    · cases hresult
    · rename_i hfailed
      cases hresult
      obtain ⟨i, t, wanted, -, hik, ht, rfl⟩ := hmoves.2 _ hfailed
      exact ⟨i, t, wanted, hik, ht, rfl⟩
    · rename_i hexhausted
      exact absurd hexhausted (Rules.yieldsAt_program hc (Tree.lt_depthFor c)).1

/-- **A mistake is never skipped.**  Where a character begins no token or a string is not closed,
whichever of the tokens of the source that is, the source has no tree and no program.  This is
reported at that token, with its message, or at a token in front of it.  And no function of the
parser gets behind that token from a place that is not behind it, at whatever depth the rules are
unfolded: it stops or fails there at the latest. -/
theorem mistake_not_skipped (source : String) {k : Nat} {bad : Token} {mistake : Fault}
    (hbad : (Token.ofSource source)[k]? = some bad)
    (hmistake : bad.kind.mistake? = some mistake) :
    (∃ d : Diagnostic, parse source = .error d ∧ (∀ simplify, compile source simplify = .error d) ∧
      d.stage = .grammar ∧ (∃ i t, i ≤ k ∧ (Token.ofSource source)[i]? = some t ∧ d.span = t.span) ∧
      (d.span = bad.span → d.message = mistake.message)) ∧
    ∀ (depth i : Nat) (c : Cursor), i ≤ k → c.tokens = (Token.ofSource source).drop i →
      ∀ {α : Type} (p : Parser α), (Rules.unfold depth).IsFunction c.current.kind p →
        (∀ value d, p c = .done value d →
          ∃ j, i ≤ j ∧ j ≤ k ∧ d.tokens = (Token.ofSource source).drop j) ∧
        ∀ fault, p c = .failed fault → ∃ j t wanted, i ≤ j ∧ j ≤ k ∧
          (Token.ofSource source)[j]? = some t ∧ fault = ⟨.ofKind wanted t.kind, t.span⟩ := by
  have hlaid := Token.laid_ofSource source
  obtain ⟨front, eof, htokens, hfront, heof, -, -⟩ := hlaid.last_eof
  have hdistinct := hlaid.distinct
  rw [htokens] at hbad hdistinct ⊢
  refine ⟨?_, fun depth i c hik hc α p hp => ?_⟩
  · obtain ⟨i, t, wanted, hik, ht, herror⟩ := Tree.ofTokens_of_mistake hfront heof hbad hmistake
    have hparse : parse source = .error (.ofGrammar ⟨.ofKind wanted t.kind, t.span⟩) := by
      rw [parse, Tree.ofSource, htokens, herror]
      rfl
    refine ⟨_, hparse, fun simplify => ?_, rfl, ⟨i, t, hik, ht, rfl⟩, fun hspan => ?_⟩
    · rw [compile, hparse]
      rfl
    · -- Different tokens have different spans, so the token is the mistake.
      obtain ⟨hi, rfl⟩ := List.getElem?_eq_some_iff.mp ht
      obtain ⟨hk, rfl⟩ := List.getElem?_eq_some_iff.mp hbad
      rcases Nat.lt_or_eq_of_le hik with hlt | rfl
      · exact absurd hspan (List.pairwise_iff_getElem.mp hdistinct i k hi hk hlt)
      · exact congrArg Fault.message (Fault.ofKind_of_mistake? hmistake wanted)
  · exact (Rules.movesAt_function depth hp).exists_drop (ended_map_kind heof) hc hbad
      (isPassed_of_mistake? hmistake) hik

/-- A character that begins no token, where an expression is wanted. -/
example : parse "print @;" =
    .error ⟨.grammar, "Unexpected character '@'", ⟨⟨6, 1, 7⟩, 7⟩⟩ := by
  have htokens : Token.ofSource "print @;" =
      [⟨.symbol .printWord, ⟨⟨0, 1, 1⟩, 5⟩⟩, ⟨.unknown '@', ⟨⟨6, 1, 7⟩, 7⟩⟩,
        ⟨.symbol .semicolon, ⟨⟨7, 1, 8⟩, 8⟩⟩, ⟨.eof, ⟨⟨8, 1, 9⟩, 8⟩⟩] := by
    cbv
  rw [parse, Tree.ofSource, htokens]
  rfl

def unclosedSource : String := "print [a, \"b];"

def unclosedTokens : List Token :=
  [⟨.symbol .printWord, ⟨⟨0, 1, 1⟩, 5⟩⟩, ⟨.symbol .leftBracket, ⟨⟨6, 1, 7⟩, 7⟩⟩,
    ⟨.name "a", ⟨⟨7, 1, 8⟩, 8⟩⟩, ⟨.symbol .comma, ⟨⟨8, 1, 9⟩, 9⟩⟩,
    ⟨.unterminated, ⟨⟨10, 1, 11⟩, 14⟩⟩, ⟨.eof, ⟨⟨14, 1, 15⟩, 14⟩⟩]

theorem ofSource_unclosedSource : Token.ofSource unclosedSource = unclosedTokens := by
  cbv

/-- The attempt on the array is given up at the comma, and the string is what is reported. -/
theorem mistake_not_skipped_unclosed :
    (Token.ofSource unclosedSource)[4]? = some ⟨.unterminated, ⟨⟨10, 1, 11⟩, 14⟩⟩ ∧
      compile unclosedSource true =
        .error ⟨.grammar, "Unterminated string", ⟨⟨10, 1, 11⟩, 14⟩⟩ := by
  have htoken : (Token.ofSource unclosedSource)[4]? =
      some ⟨.unterminated, ⟨⟨10, 1, 11⟩, 14⟩⟩ := by
    rw [ofSource_unclosedSource]
    rfl
  have hparse : parse unclosedSource =
      .error ⟨.grammar, "Unterminated string", ⟨⟨10, 1, 11⟩, 14⟩⟩ := by
    rw [parse, Tree.ofSource, ofSource_unclosedSource]
    rfl
  obtain ⟨⟨d, hd, hcompile, -⟩, -⟩ := mistake_not_skipped unclosedSource htoken rfl
  rw [hparse] at hd
  cases hd
  exact ⟨htoken, hcompile true⟩

end TypedImp
