import TypedImp.Proofs.Binary64.Signs
import TypedImp.Proofs.Token.Kinds

/-!
# The tokens of a source

What a source is split into is not arbitrary: a name is a word that is no keyword, and a
number has no sign, since a `-` is a token of its own (**`isLexed_ofSource`**).
-/

namespace TypedImp

open TypedImp.Binary64

/-! ### Numbers -/

namespace Decimal

theorem notNegative_nearestFloat (m : Nat) (e : Int) : NotNegative (parts (nearestFloat m e)) := by
  rw [nearestFloat]
  by_cases hm : m = 0
  · rw [if_pos hm]
    exact notNegative_iff rfl
  · have hpos : 0 < m := Nat.pos_of_ne_zero hm
    rw [if_neg hm]
    simp only
    split
    · exact notNegative_iff rfl
    split
    · exact notNegative_iff rfl
    split
    · exact notNegative_ofScientific hpos _ _
    · exact notNegative_ofScientific hpos _ _

theorem notNegative_unsigned? {text : List Char} {x : Float} (h : unsigned? text = some x) :
    NotNegative (parts x) := by
  rw [unsigned?] at h
  simp only at h
  split at h
  all_goals
    simp only at h
    split at h
    · cases h
    · obtain ⟨e, -, rfl⟩ := Option.map_eq_some_iff.mp h
      exact notNegative_nearestFloat _ _

theorem notNegative_word? {text : List Char} {x : Float} (h : word? text = some x) :
    NotNegative (parts x) := by
  rw [word?] at h
  split at h
  · cases h
    exact notNegative_iff rfl
  · split at h
    · cases h
      intro s hs
      cases hs
    · cases h

/-- **A numeral without a sign** is not negative. -/
theorem notNegative_ofText? {c : Char} {cs : List Char} (hc : c ≠ '-') {x : Float}
    (h : ofText? (c :: cs) = some x) : NotNegative (parts x) := by
  have hmagnitude {text : List Char} (h : (unsigned? text).or (word? text) = some x) :
      NotNegative (parts x) := by
    rcases Option.or_eq_some_iff.mp h with h | ⟨-, h⟩
    · exact notNegative_unsigned? h
    · exact notNegative_word? h
  rw [ofText?.eq_def] at h
  split at h
  · rename_i heq
    cases heq
    exact absurd rfl hc
  · exact hmagnitude h
  · exact hmagnitude h

end Decimal

/-! ### Tokens -/

namespace Token

/-- **What a token of a source is.** -/
def Kind.IsLexed : Kind → Prop
  | .name text => IsName text
  | .number x => NotNegative (parts x)
  | _ => True

theorem isLexed_lexWord {c : Char} (hc : isNameStart c = true) (cs : List Char) :
    (lexWord c cs).kind.IsLexed := by
  rw [lexWord, Kind.ofWord]
  split
  · trivial
  · rename_i hfree
    refine ⟨⟨c, _, String.toList_ofList, hc, fun d hd => ?_⟩, hfree⟩
    exact List.mem_takeWhile_imp hd

theorem isLexed_lexNumber {c : Char} (hc : c.isDigit = true) (cs : List Char) :
    (lexNumber c cs).kind.IsLexed := by
  have hminus : c ≠ '-' := by
    rintro rfl
    cases hc
  rw [lexNumber]
  simp only [Kind.ofNumeral]
  split
  · rename_i x hx
    exact Decimal.notNegative_ofText? hminus hx
  · trivial

theorem isLexed_lexeme (c : Char) (cs : List Char) : (lexeme c cs).kind.IsLexed := by
  rw [lexeme]
  split
  · rename_i hc
    exact isLexed_lexWord hc cs
  split
  · rename_i hc
    exact isLexed_lexNumber hc cs
  split
  · rw [lexString]
    simp only [Kind.ofString]
    split <;> trivial
  · rw [lexSign]
    split <;> trivial

/-- **What is cut off as tokens** are all tokens but the end of the input. -/
theorem forall_tokensFrom {P : Kind → Prop} (heof : P .eof)
    (hlexeme : ∀ c cs, P (lexeme c cs).kind) (place : Position) (cs : List Char) :
    ∀ t ∈ tokensFrom place cs, P t.kind := by
  obtain ⟨n, hn⟩ : ∃ n, cs.length = n := ⟨_, rfl⟩
  induction n using Nat.strongRecOn generalizing cs place with
  | ind n ih =>
    have hblank := splitBlank_length_le cs
    rw [tokensFrom]
    split
    · intro t ht
      rw [List.mem_singleton.mp ht]
      exact heof
    · rename_i c cs' hrest
      have hle := rest_length_le c cs'
      rw [hrest, List.length_cons] at hblank
      intro t ht
      rcases List.mem_cons.mp ht with rfl | ht
      · exact hlexeme c cs'
      · exact ih _ (by omega) _ _ rfl t ht

/-- **All tokens of a source** are such tokens. -/
theorem isLexed_ofSource (source : String) : ∀ t ∈ ofSource source, t.kind.IsLexed :=
  forall_tokensFrom trivial isLexed_lexeme .start source.toList

end Token

end TypedImp
