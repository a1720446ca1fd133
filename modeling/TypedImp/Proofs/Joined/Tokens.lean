import Mathlib.Data.List.Find
import TypedImp.Proofs.Token.Placed

/-!
# The tokens of two texts

If a newline is put between two texts, the tokens of the whole are those of the first text without
the end of its input, and behind them those of the second one, moved to where it stands
(**`ofSource_append`**).  A string that is not closed is the only token that a newline does not
end as the end of the input does, so there must be none in the first text.

Every sort of token, and the blanks in front of one, is cut off as before when a newline comes
behind the text (`lexeme_append`, `splitBlank_newline`), since no token goes on with a newline.
What is cut off does not depend on the place of the text, and places are moved by a number of
characters and lines (`tokensFrom_move`).
-/

namespace TypedImp

/-! ### Moved places -/

def Position.move (chars lines : Nat) (p : Position) : Position :=
  ⟨p.offset + chars, p.line + lines, p.column⟩

def Span.move (chars lines : Nat) (s : Span) : Span :=
  ⟨s.start.move chars lines, s.stop + chars⟩

variable {chars lines : Nat}

theorem Position.next_move (p : Position) (c : Char) :
    (p.move chars lines).next c = (p.next c).move chars lines := by
  by_cases hc : c = '\n'
  · simp only [next, if_pos hc, move]
    rw [Nat.add_right_comm p.offset, Nat.add_right_comm p.line]
  · simp only [next, if_neg hc, move]
    rw [Nat.add_right_comm p.offset]

theorem Position.advance_move (p : Position) (cs : List Char) :
    (p.move chars lines).advance cs = (p.advance cs).move chars lines := by
  induction cs generalizing p with
  | nil => rfl
  | cons c cs ih => rw [advance_cons, advance_cons, next_move, ih]

theorem Span.move_merge (s t : Span) :
    (s.merge t).move chars lines = (s.move chars lines).merge (t.move chars lines) := by
  have hstop : max s.stop t.stop + chars = max (s.stop + chars) (t.stop + chars) := by omega
  simp only [merge, move, Position.move, hstop, Nat.add_lt_add_iff_right]
  split <;> rfl

/-- Behind a text and a newline one is at the start of a line. -/
theorem Position.advance_newline (cs : List Char) :
    Position.start.advance (cs ++ ['\n']) =
      Position.start.move (cs.length + 1) (cs.count '\n' + 1) := by
  rw [advance_append, Token.advance_start, advance_cons, advance_nil, next, if_pos rfl, start, move,
    Nat.zero_add]
  congr 1

namespace Token

def map (f : Span → Span) (t : Token) : Token := ⟨t.kind, f t.span⟩

theorem tokensFrom_move (place : Position) (cs : List Char) :
    tokensFrom (place.move chars lines) cs =
      (tokensFrom place cs).map (map (Span.move chars lines)) := by
  obtain ⟨n, hn⟩ : ∃ n, cs.length = n := ⟨_, rfl⟩
  induction n using Nat.strongRecOn generalizing cs place with
  | ind n ih =>
    have hblank := splitBlank_length_le cs
    rw [tokensFrom, tokensFrom]
    simp only [Position.advance_move]
    split
    · rfl
    · rename_i c cs' hrest
      have hle := rest_length_le c cs'
      rw [hrest, List.length_cons] at hblank
      simp only [Position.next_move, Position.advance_move, List.map_cons]
      rw [ih _ (by omega) _ _ rfl]
      rfl

/-! ### A newline behind a text -/

section

variable {p : Char → Bool} (hp : p '\n' = false) (cs ds : List Char)

include hp

theorem takeWhile_newline : (cs ++ '\n' :: ds).takeWhile p = cs.takeWhile p := by
  induction cs with
  | nil => simp [hp]
  | cons c cs ih =>
    rw [List.cons_append, List.takeWhile_cons, List.takeWhile_cons, ih]

theorem dropWhile_newline :
    (cs ++ '\n' :: ds).dropWhile p = cs.dropWhile p ++ '\n' :: ds := by
  induction cs with
  | nil => simp [hp]
  | cons c cs ih =>
    rw [List.cons_append, List.dropWhile_cons, List.dropWhile_cons, ih]
    split <;> rfl

theorem head_newline : (cs ++ '\n' :: ds).head?.any p = cs.head?.any p := by
  cases cs with
  | nil => simp [hp]
  | cons c cs => rfl

end

theorem splitFraction_newline (cs ds : List Char) :
    splitFraction (cs ++ '\n' :: ds) =
      ((splitFraction cs).1, (splitFraction cs).2 ++ '\n' :: ds) := by
  have hdigit : Char.isDigit '\n' = false := rfl
  cases cs with
  | nil => rfl
  | cons c cs =>
    by_cases hc : c = '.'
    · subst hc
      rw [List.cons_append, splitFraction, splitFraction, head_newline hdigit]
      split
      · rw [takeWhile_newline hdigit, dropWhile_newline hdigit]
      · rfl
    · rw [splitFraction_of_head (by simpa using hc), splitFraction_of_head (by simpa using hc)]

theorem splitSign_other {c : Char} (hplus : c ≠ '+') (hminus : c ≠ '-') (cs : List Char) :
    splitSign (c :: cs) = ([], c :: cs) := by
  rw [splitSign.eq_def]
  split
  · rename_i heq
    exact absurd (List.cons.inj heq).1 hplus
  · rename_i heq
    exact absurd (List.cons.inj heq).1 hminus
  · rfl

theorem splitSign_newline (cs ds : List Char) :
    splitSign (cs ++ '\n' :: ds) = ((splitSign cs).1, (splitSign cs).2 ++ '\n' :: ds) := by
  cases cs with
  | nil => rfl
  | cons c cs =>
    by_cases hplus : c = '+'
    · subst hplus
      rfl
    · by_cases hminus : c = '-'
      · subst hminus
        rfl
      · rw [splitSign_other hplus hminus, List.cons_append, splitSign_other hplus hminus]

theorem splitExponent_newline (cs ds : List Char) :
    splitExponent (cs ++ '\n' :: ds) =
      ((splitExponent cs).1, (splitExponent cs).2 ++ '\n' :: ds) := by
  have hdigit : Char.isDigit '\n' = false := rfl
  cases cs with
  | nil => rfl
  | cons e cs =>
    rw [List.cons_append, splitExponent, splitExponent, splitSign_newline]
    dsimp only
    rw [head_newline hdigit]
    split
    · rw [takeWhile_newline hdigit, dropWhile_newline hdigit]
    · rfl

theorem splitNumber_newline (cs ds : List Char) :
    splitNumber (cs ++ '\n' :: ds) = ((splitNumber cs).1, (splitNumber cs).2 ++ '\n' :: ds) := by
  have hdigit : Char.isDigit '\n' = false := rfl
  simp only [splitNumber, takeWhile_newline hdigit, dropWhile_newline hdigit,
    splitFraction_newline, splitExponent_newline]

/-- A string that is closed is closed whatever comes behind it. -/
theorem splitString_append_of_some {cs value : List Char} (h : (splitString cs).1 = some value)
    (ds : List Char) :
    splitString (cs ++ ds) =
      ((splitString cs).1, (splitString cs).2.1, (splitString cs).2.2 ++ ds) := by
  fun_induction splitString cs generalizing value with
  | case1 => cases h
  | case2 cs => rfl
  | case3 => cases h
  | case4 c cs v tail rest hsplit ih =>
    obtain ⟨v', hv, -⟩ := Option.map_eq_some_iff.mp h
    rw [hsplit] at ih
    rw [List.cons_append, List.cons_append, splitString, ih hv]
  | case5 cs => cases h
  | case6 c cs hquote hlast hbackslash hline v tail rest hsplit ih =>
    have hbackslash : c ≠ '\\' := by
      intro hc
      cases cs with
      | nil => exact hlast hc rfl
      | cons d cs => exact hbackslash d cs hc rfl
    obtain ⟨v', hv, -⟩ := Option.map_eq_some_iff.mp h
    rw [hsplit] at ih
    rw [List.cons_append, splitString_other hquote hbackslash hline, ih hv]

/-- No sign holds a newline, so none goes on with one. -/
theorem scan?_newline (cs ds : List Char) :
    Symbol.scan? (cs ++ '\n' :: ds) = Symbol.scan? cs := by
  have hsigns : ∀ s ∈ Symbol.signs, '\n' ∉ s.spelling.toList := by decide
  rw [Symbol.scan?, Symbol.scan?]
  refine List.find?_congr fun s hs => ?_
  rw [Bool.eq_iff_iff, List.isPrefixOf_iff_prefix, List.isPrefixOf_iff_prefix]
  refine ⟨fun h => ?_, fun h => h.trans (List.prefix_append _ _)⟩
  rcases List.prefix_or_prefix_of_prefix h (List.prefix_append (cs ++ ['\n']) ds |>.trans
    (by simp)) with hshort | hlong
  · rcases List.prefix_concat_iff.mp hshort with heq | hpre
    · exact absurd (heq ▸ by simp) (hsigns s hs)
    · exact hpre
  · exact absurd (hlong.subset (by simp)) (hsigns s hs)

theorem lexSign_newline (c : Char) (cs ds : List Char) :
    lexSign c (cs ++ '\n' :: ds) =
      ⟨(lexSign c cs).kind, (lexSign c cs).tail, (lexSign c cs).rest ++ '\n' :: ds⟩ := by
  have hscan := scan?_newline (c :: cs) ds
  rw [List.cons_append] at hscan
  rw [lexSign, lexSign, hscan]
  split
  · rename_i s hs
    have hprefix := (List.isPrefixOf_iff_prefix.mp (Symbol.isPrefixOf_of_scan? hs)).length_le
    rw [List.length_cons] at hprefix
    have hle : s.spelling.toList.length - 1 ≤ cs.length := by omega
    simp only [List.take_append_of_le_length hle, List.drop_append_of_le_length hle]
  · rfl

/-- **A newline ends a token as the end of the input does**, unless it is a string. -/
theorem lexeme_append {c : Char} {cs : List Char} (h : (lexeme c cs).kind ≠ .unterminated)
    (ds : List Char) :
    lexeme c (cs ++ '\n' :: ds) =
      ⟨(lexeme c cs).kind, (lexeme c cs).tail, (lexeme c cs).rest ++ '\n' :: ds⟩ := by
  by_cases hstart : isNameStart c = true
  · have hpart : isNamePart '\n' = false := by decide
    simp only [lexeme, if_pos hstart, lexWord, takeWhile_newline hpart, dropWhile_newline hpart]
  by_cases hdigit : c.isDigit = true
  · simp only [lexeme, if_neg hstart, if_pos hdigit, lexNumber, splitNumber_newline]
  by_cases hquote : c = '"'
  · simp only [lexeme, if_neg hstart, if_neg hdigit, if_pos hquote, lexString] at h ⊢
    cases hvalue : (splitString cs).1 with
    | none =>
      rw [hvalue] at h
      exact absurd rfl h
    | some value => rw [splitString_append_of_some hvalue, hvalue]
  · simp only [lexeme, if_neg hstart, if_neg hdigit, if_neg hquote]
    exact lexSign_newline c cs ds

/-! ### Blanks -/

mutual

/-- What is in front of the next token, if there is one, and otherwise all of the text and what
comes behind the newline. -/
theorem splitBlank_newline (cs ds : List Char) :
    splitBlank (cs ++ '\n' :: ds) = match (splitBlank cs).2 with
      | [] => (cs ++ '\n' :: (splitBlank ds).1, (splitBlank ds).2)
      | c :: rest => ((splitBlank cs).1, c :: (rest ++ '\n' :: ds)) := by
  match cs with
  | [] =>
    show splitBlank ('\n' :: ds) = ('\n' :: (splitBlank ds).1, (splitBlank ds).2)
    rw [splitBlank.eq_def]
    rfl
  | c :: cs =>
    rw [List.cons_append, splitBlank, splitBlank]
    by_cases hc : isBlank c = true
    · rw [if_pos hc, if_pos hc, splitBlank_newline cs ds]
      dsimp only
      split <;> rfl
    · rw [if_neg hc, if_neg hc]
      have hhead : (cs ++ '\n' :: ds).head? = some '/' ↔ cs.head? = some '/' := by
        cases cs with
        | nil => simp
        | cons d cs => rfl
      by_cases hcomment : c = '/' ∧ cs.head? = some '/'
      · rw [if_pos hcomment, if_pos ⟨hcomment.1, hhead.mpr hcomment.2⟩, splitComment_newline cs ds]
        dsimp only
        split <;> rfl
      · rw [if_neg hcomment, if_neg fun h => hcomment ⟨h.1, hhead.mp h.2⟩]
termination_by cs.length

/-- The same within a comment, which the newline ends. -/
theorem splitComment_newline (cs ds : List Char) :
    splitComment (cs ++ '\n' :: ds) = match (splitComment cs).2 with
      | [] => (cs ++ '\n' :: (splitBlank ds).1, (splitBlank ds).2)
      | c :: rest => ((splitComment cs).1, c :: (rest ++ '\n' :: ds)) := by
  match cs with
  | [] =>
    show splitComment ('\n' :: ds) = ('\n' :: (splitBlank ds).1, (splitBlank ds).2)
    rw [splitComment, if_pos rfl]
  | c :: cs =>
    rw [List.cons_append, splitComment, splitComment]
    by_cases hc : c = '\n'
    · rw [if_pos hc, if_pos hc, splitBlank_newline cs ds]
      dsimp only
      split <;> rfl
    · rw [if_neg hc, if_neg hc, splitComment_newline cs ds]
      dsimp only
      split <;> rfl
termination_by cs.length

end

/-! ### Texts -/

/-- A text of blanks is the end of the input. -/
theorem tokensFrom_of_nil (place : Position) {cs : List Char} (h : (splitBlank cs).2 = []) :
    tokensFrom place cs =
      [⟨.eof, .between (place.advance (splitBlank cs).1) (place.advance (splitBlank cs).1)⟩] := by
  rw [tokensFrom]
  split
  · rfl
  · rename_i hcons
    rw [h] at hcons
    cases hcons

/-- Any other text is a token and those behind it. -/
theorem tokensFrom_of_cons (place : Position) {cs cs' : List Char} {c : Char}
    (h : (splitBlank cs).2 = c :: cs') :
    tokensFrom place cs =
      ⟨(lexeme c cs').kind, .between (place.advance (splitBlank cs).1)
        (place.advance ((splitBlank cs).1 ++ c :: (lexeme c cs').tail))⟩ ::
      tokensFrom (place.advance ((splitBlank cs).1 ++ c :: (lexeme c cs').tail))
        (lexeme c cs').rest := by
  rw [tokensFrom]
  split
  · rename_i hnil
    rw [h] at hnil
    cases hnil
  · rename_i hcons
    rw [h] at hcons
    cases hcons
    rw [Position.advance_append, Position.advance_cons]

/-- **The tokens of two texts with a newline between them.** -/
theorem tokensFrom_append {place : Position} {cs : List Char}
    (h : ∀ t ∈ tokensFrom place cs, t.kind ≠ .unterminated) (ds : List Char) :
    ∃ front eof, tokensFrom place cs = front ++ [eof] ∧ eof.kind = .eof ∧
      tokensFrom place (cs ++ '\n' :: ds) =
        front ++ tokensFrom (place.advance (cs ++ ['\n'])) ds := by
  obtain ⟨n, hn⟩ : ∃ n, cs.length = n := ⟨_, rfl⟩
  induction n using Nat.strongRecOn generalizing cs place with
  | ind n ih =>
    have happend := splitBlank_append cs
    have hsplit := splitBlank_newline cs ds
    cases hrest : (splitBlank cs).2 with
    | nil =>
      rw [hrest] at hsplit
      refine ⟨[], _, tokensFrom_of_nil place hrest, rfl, ?_⟩
      rw [List.nil_append, tokensFrom, tokensFrom, hsplit]
      dsimp only
      rw [← Position.advance_append, List.append_assoc, List.singleton_append]
    | cons c cs' =>
      rw [hrest] at hsplit happend
      have hle := rest_length_le c cs'
      have hlength := congrArg List.length happend
      rw [List.length_append, List.length_cons] at hlength
      rw [tokensFrom_of_cons place hrest] at h ⊢
      obtain ⟨hkind, hbehind⟩ := List.forall_mem_cons.mp h
      obtain ⟨front, eof, htokens, heof, hjoined⟩ := ih _ (by omega) hbehind rfl
      have htext : cs ++ ['\n'] = (splitBlank cs).1 ++ c :: (lexeme c cs').tail ++
          ((lexeme c cs').rest ++ ['\n']) := by
        rw [List.append_assoc, List.cons_append, ← List.append_assoc _ _ ['\n'], tail_append_rest,
          ← List.cons_append, ← List.append_assoc, happend]
      refine ⟨_ :: front, eof, by rw [htokens]; rfl, heof, ?_⟩
      rw [tokensFrom_of_cons place (congrArg Prod.snd hsplit), hsplit, lexeme_append hkind ds]
      dsimp only
      rw [hjoined, htext, Position.advance_append place (_ ++ c :: _), List.cons_append]

/-- **The tokens of two sources with a newline between them.** -/
theorem ofSource_append {source : String} (h : ∀ t ∈ ofSource source, t.kind ≠ .unterminated)
    (behind : String) :
    ∃ front eof, ofSource source = front ++ [eof] ∧ eof.kind = .eof ∧
      ofSource (source ++ "\n" ++ behind) = front ++ (ofSource behind).map
        (map (Span.move (source.length + 1) (source.toList.count '\n' + 1))) := by
  obtain ⟨front, eof, hsource, heof, hjoined⟩ := tokensFrom_append h behind.toList
  refine ⟨front, eof, hsource, heof, ?_⟩
  have htext : (source ++ "\n" ++ behind).toList = source.toList ++ '\n' :: behind.toList := by
    rw [String.toList_append, String.toList_append, List.append_assoc]
    rfl
  rw [ofSource, ofSource, htext, hjoined, Position.advance_newline, tokensFrom_move,
    String.length_toList]

end Token

end TypedImp
