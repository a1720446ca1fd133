import TypedImp.Proofs.Token.Kinds

/-!
# What stands between tokens

Between two tokens there are blanks and comments, each comment with the newline that ends it:
these are the `Blanks`.  Behind the last token there may be one more comment, which the end of
the source ends (`LastBlanks`).

Both directions are needed.  What is cut off in front of a token is of this form, and what is
left begins with a token (**`splits_splitBlank`**); and whatever is of this form is cut off, so
that it adds no token (**`Blanks.kinds_append`**).  The two functions that cut it off call each
other, and inside a comment the characters of its line that were passed have to be remembered;
they are the `front` of `splits_splitComment`.
-/

namespace TypedImp.Token

/-- **What may stand between two tokens**: blanks, and comments up to the end of their line. -/
inductive Blanks : List Char → Prop where
  | nil : Blanks []
  | blank {c : Char} {cs : List Char} (hc : isBlank c = true) (h : Blanks cs) : Blanks (c :: cs)
  | comment {body cs : List Char} (hbody : '\n' ∉ body) (h : Blanks cs) :
    Blanks ('/' :: '/' :: (body ++ '\n' :: cs))

/-- **What may stand behind the last token**: the same, and a comment up to the end of the
source. -/
inductive LastBlanks : List Char → Prop where
  | closed {cs : List Char} (h : Blanks cs) : LastBlanks cs
  | comment {cs body : List Char} (h : Blanks cs) (hbody : '\n' ∉ body) :
    LastBlanks (cs ++ '/' :: '/' :: body)

theorem Blanks.append {cs ds : List Char} (h : Blanks cs) (hds : Blanks ds) :
    Blanks (cs ++ ds) := by
  induction h with
  | nil => exact hds
  | blank hc h ih => exact .blank hc ih
  | comment hbody h ih => simpa using Blanks.comment hbody ih

theorem Blanks.appendLast {cs ds : List Char} (h : Blanks cs) (hds : LastBlanks ds) :
    LastBlanks (cs ++ ds) := by
  cases hds with
  | closed hds => exact .closed (h.append hds)
  | comment hds hbody => simpa using LastBlanks.comment (h.append hds) hbody

/-- A text begins with a token: neither with a blank nor with a comment. -/
def BeginsToken (c : Char) (cs : List Char) : Prop :=
  isBlank c = false ∧ (c = '/' → cs.head? ≠ some '/')

/-! ### What is cut off -/

/-- What is cut off in front of a text, if the text is what is left. -/
def Splits (blanks : List Char) : List Char → Prop
  | [] => LastBlanks blanks
  | c :: cs => Blanks blanks ∧ BeginsToken c cs

theorem Splits.append {blanks blanks' rest : List Char} (h : Splits blanks' rest)
    (hblanks : Blanks blanks) : Splits (blanks ++ blanks') rest := by
  cases rest with
  | nil => exact hblanks.appendLast h
  | cons c cs => exact ⟨hblanks.append h.1, h.2⟩

mutual

/-- **What is cut off in front of a token are blanks.** -/
theorem splits_splitBlank (cs : List Char) : Splits (splitBlank cs).1 (splitBlank cs).2 := by
  match cs with
  | [] => exact .closed .nil
  | c :: cs =>
    rw [splitBlank]
    split
    · rename_i hc
      exact (splits_splitBlank cs).append (.blank hc .nil)
    · rename_i hc
      split
      · rename_i hcomment
        obtain ⟨rfl, hhead⟩ := hcomment
        obtain ⟨cs, rfl⟩ := List.head?_eq_some_iff.mp hhead
        exact splits_splitComment cs [] List.not_mem_nil
      · rename_i hcomment
        exact ⟨.nil, Bool.not_eq_true _ ▸ hc, fun hslash hhead => hcomment ⟨hslash, hhead⟩⟩
termination_by cs.length

/-- The same within a comment, of which `front` was passed. -/
theorem splits_splitComment (cs front : List Char) (hfront : '\n' ∉ front) :
    Splits ('/' :: '/' :: front ++ (splitComment cs).1) (splitComment cs).2 := by
  match cs with
  | [] =>
    rw [splitComment, List.append_nil]
    exact .comment .nil hfront
  | c :: cs =>
    rw [splitComment]
    by_cases hc : c = '\n'
    · rw [if_pos hc, hc]
      simpa using (splits_splitBlank cs).append (Blanks.comment hfront .nil)
    · rw [if_neg hc]
      have hmem : '\n' ∉ front ++ [c] := by simpa using ⟨hfront, Ne.symm hc⟩
      simpa using splits_splitComment cs (front ++ [c]) hmem
termination_by cs.length

end

/-! ### What adds no token -/

theorem splitComment_append_newline {body : List Char} (hbody : '\n' ∉ body) (cs : List Char) :
    (splitComment (body ++ '\n' :: cs)).2 = (splitBlank cs).2 := by
  induction body with
  | nil => rfl
  | cons c body ih =>
    have hc : c ≠ '\n' := fun h => hbody (h ▸ List.mem_cons_self)
    rw [List.cons_append, splitComment, if_neg hc]
    exact ih fun h => hbody (List.mem_cons_of_mem c h)

theorem Blanks.splitBlank_append {blanks : List Char} (h : Blanks blanks) (cs : List Char) :
    (splitBlank (blanks ++ cs)).2 = (splitBlank cs).2 := by
  induction h with
  | nil => rfl
  | blank hc h ih =>
    rw [List.cons_append, splitBlank, if_pos hc]
    exact ih
  | @comment body blanks hbody h ih =>
    have hmem : '\n' ∉ '/' :: body := by simpa using hbody
    rw [List.cons_append, splitBlank, if_neg (by decide), if_pos ⟨rfl, rfl⟩]
    show (splitComment ('/' :: (body ++ '\n' :: blanks) ++ cs)).2 = _
    rw [← ih, ← splitComment_append_newline hmem (blanks ++ cs)]
    simp

/-- **Blanks add no token.** -/
theorem Blanks.kinds_append {blanks : List Char} (h : Blanks blanks) (cs : List Char) :
    kinds (blanks ++ cs) = kinds cs :=
  kinds_of_splitBlank (h.splitBlank_append cs)

end TypedImp.Token
