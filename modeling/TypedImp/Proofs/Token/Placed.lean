import TypedImp.Proofs.Token.Alone

/-!
# The places of tokens

The tokens of a source stand where their text does, and together with what stands between them
they are the whole source.  `Laid before cs tokens` says this of the tokens of a text `cs` with
`before` in front of it, token by token: some blanks, the characters of the token, and the text
behind it.  That is how tokens are cut off (`laid_tokensFrom`); the text in front grows by what
was passed.

What is known of each stretch then holds of the stretch of the source between two offsets, since
`before ++ cs` stays the same from token to token.  **`placed_ofSource`** puts this together:
nothing but blanks is left out, no two tokens share a character, and each token has the line and
the column of its first character and reads as itself.
-/

namespace TypedImp.Token

/-! ### Lines and columns -/

def lastLine (cs : List Char) : List Char := (cs.reverse.takeWhile (· ≠ '\n')).reverse

/-- **The place behind a text**: its length, its newlines, and the length of its last line. -/
theorem advance_start (cs : List Char) : Position.start.advance cs =
    ⟨cs.length, 1 + cs.count '\n', 1 + (lastLine cs).length⟩ := by
  induction cs using List.reverseRecOn with
  | nil => rfl
  | append_singleton cs c ih =>
    rw [Position.advance_append, ih, Position.advance_cons, Position.advance_nil, Position.next]
    split
    · rename_i hc
      subst hc
      simp [lastLine]
      omega
    · rename_i hc
      simp [lastLine, hc]
      omega

@[simp] theorem offset_start : Position.start.offset = 0 := rfl

theorem offset_advance_start (cs : List Char) :
    (Position.start.advance cs).offset = cs.length := by
  rw [advance_start]

/-! ### Token by token -/

/-- **Tokens laid end to end with blanks** between them, with the text `before` in front. -/
inductive Laid : List Char → List Char → List Token → Prop where
  | last {before gap : List Char} (hgap : LastBlanks gap) :
    Laid before gap [⟨.eof, .between (Position.start.advance (before ++ gap))
      (Position.start.advance (before ++ gap))⟩]
  | token {before gap text rest : List Char} {kind : Kind} {tokens : List Token}
    (hgap : Blanks gap) (hne : text ≠ []) (hkind : kind ≠ .eof) (halone : kinds text = [kind, .eof])
    (h : Laid (before ++ gap ++ text) rest tokens) :
    Laid before (gap ++ text ++ rest) (⟨kind, .between (Position.start.advance (before ++ gap))
      (Position.start.advance (before ++ gap ++ text))⟩ :: tokens)

theorem laid_tokensFrom (before cs : List Char) :
    Laid before cs (tokensFrom (Position.start.advance before) cs) := by
  obtain ⟨n, hn⟩ : ∃ n, cs.length = n := ⟨_, rfl⟩
  induction n using Nat.strongRecOn generalizing cs before with
  | ind n ih =>
    have hsplits := splits_splitBlank cs
    have happend := splitBlank_append cs
    rw [tokensFrom]
    split
    · rename_i hrest
      rw [hrest] at hsplits happend
      rw [List.append_nil] at happend
      rw [happend, ← Position.advance_append]
      rw [happend] at hsplits
      exact .last hsplits
    · rename_i c cs' hrest
      rw [hrest] at hsplits happend
      have htail := tail_append_rest c cs'
      have hlength := congrArg List.length happend
      rw [List.length_append, List.length_cons] at hlength
      have hle := rest_length_le c cs'
      have hbehind := ih (lexeme c cs').rest.length (by omega)
        (before ++ (splitBlank cs).1 ++ c :: (lexeme c cs').tail) _ rfl
      have hcs : cs = (splitBlank cs).1 ++ c :: (lexeme c cs').tail ++ (lexeme c cs').rest := by
        rw [List.append_assoc, List.cons_append, htail, happend]
      have htoken := Laid.token hsplits.1 (List.cons_ne_nil _ _) (lexeme_kind_ne_eof c cs')
        (kinds_lexeme hsplits.2) hbehind
      rw [← hcs] at htoken
      simpa only [Position.advance_append, Position.advance_cons] using htoken

/-! ### Stretches of the source -/

def slice (cs : List Char) (start stop : Nat) : List Char := (cs.take stop).drop start

theorem slice_append (before text rest : List Char) :
    slice (before ++ text ++ rest) before.length (before ++ text).length = text := by
  rw [slice, List.take_left, List.drop_left]

/-- The stretches between tokens: from the start of the source to the first token, and from each
token to the next one. -/
def gaps (start : Nat) (tokens : List Token) : List (Nat × Nat) :=
  (start :: tokens.map fun t => t.span.stop).zip (tokens.map fun t => t.span.start.offset)

/-- **Tokens that stand where their text does.** -/
structure Placed (cs : List Char) (tokens : List Token) : Prop where
  /-- The end of the input comes last and only there, behind all characters. -/
  last : ∃ front eof, tokens = front ++ [eof] ∧ (∀ t ∈ front, t.kind ≠ .eof) ∧ eof.kind = .eof ∧
    eof.span.start.offset = cs.length ∧ eof.span.stop = cs.length
  /-- Tokens do not overlap, and stand in their order. -/
  ordered : tokens.Pairwise fun t t' => t.span.stop ≤ t'.span.start.offset
  /-- What is left out are blanks and comments.  A comment that the end of the source ends stands
  behind all other tokens. -/
  between : ∀ g ∈ gaps 0 tokens, Blanks (slice cs g.1 g.2) ∨
    g.2 = cs.length ∧ LastBlanks (slice cs g.1 g.2)
  /-- Lines and columns are counted from one. -/
  position : ∀ t ∈ tokens, t.span.start.line = 1 + (cs.take t.span.start.offset).count '\n' ∧
    t.span.start.column = 1 + (lastLine (cs.take t.span.start.offset)).length
  /-- A token has characters, which are that token alone. -/
  alone : ∀ t ∈ tokens, t.kind ≠ .eof → t.span.start.offset < t.span.stop ∧
    kinds (slice cs t.span.start.offset t.span.stop) = [t.kind, .eof]

namespace Laid

variable {before cs : List Char} {tokens : List Token}

theorem last_eof (h : Laid before cs tokens) :
    ∃ front eof, tokens = front ++ [eof] ∧ (∀ t ∈ front, t.kind ≠ .eof) ∧ eof.kind = .eof ∧
      eof.span.start.offset = (before ++ cs).length ∧ eof.span.stop = (before ++ cs).length := by
  induction h with
  | @last before gap hgap =>
    exact ⟨[], _, rfl, List.forall_mem_nil _, rfl, by simp [Span.between],
      by simp [Span.between]⟩
  | token hgap hne hkind halone h ih =>
    obtain ⟨front, eof, rfl, hfront, heof, hstart, hstop⟩ := ih
    refine ⟨_ :: front, eof, rfl, List.forall_mem_cons.mpr ⟨hkind, hfront⟩, heof, ?_, ?_⟩
    · simpa using hstart
    · simpa using hstop

theorem ordered (h : Laid before cs tokens) :
    (∀ t ∈ tokens, before.length ≤ t.span.start.offset) ∧
      tokens.Pairwise fun t t' => t.span.stop ≤ t'.span.start.offset := by
  induction h with
  | last hgap => simp [Span.between]
  | @token before gap text rest kind tokens hgap hne hkind halone h ih =>
    obtain ⟨hbehind, hpairwise⟩ := ih
    refine ⟨List.forall_mem_cons.mpr ⟨by simp [Span.between], fun t ht => ?_⟩,
      List.pairwise_cons.mpr ⟨fun t ht => ?_, hpairwise⟩⟩
    · have hle := hbehind t ht
      simp only [List.length_append] at hle
      omega
    · simpa [Span.between] using hbehind t ht

/-- Two tokens never stand at one place. -/
theorem distinct (h : Laid before cs tokens) :
    tokens.Pairwise fun t t' => t.span ≠ t'.span := by
  induction h with
  | last hgap => exact List.pairwise_singleton _ _
  | @token before gap text rest kind tokens hgap hne hkind halone h ih =>
    refine List.pairwise_cons.mpr ⟨fun t ht hspan => ?_, ih⟩
    have hbehind := h.ordered.1 t ht
    have hpos := List.length_pos_iff.mpr hne
    rw [← hspan] at hbehind
    simp only [Span.between, offset_advance_start, List.length_append] at hbehind
    omega

theorem between (h : Laid before cs tokens) :
    ∀ g ∈ gaps before.length tokens, Blanks (slice (before ++ cs) g.1 g.2) ∨
      g.2 = (before ++ cs).length ∧ LastBlanks (slice (before ++ cs) g.1 g.2) := by
  induction h with
  | @last before gap hgap =>
    have hslice := slice_append before gap []
    rw [List.append_nil] at hslice
    intro g hg
    simp only [gaps, List.map_cons, List.map_nil, List.zip_cons_cons, List.zip_nil_right,
      List.mem_singleton, Span.between, offset_advance_start] at hg
    rw [hg]
    exact .inr ⟨rfl, by rwa [hslice]⟩
  | @token before gap text rest kind tokens hgap hne hkind halone h ih =>
    have hslice := slice_append before gap (text ++ rest)
    intro g hg
    rw [gaps, List.map_cons, List.map_cons, List.zip_cons_cons, List.mem_cons] at hg
    rcases hg with rfl | hg
    · left
      simp only [Span.between, offset_advance_start]
      rwa [List.append_assoc gap, ← List.append_assoc before, hslice]
    · have htail := ih g (by simpa [gaps, Span.between, offset_advance_start] using hg)
      simpa using htail

theorem position (h : Laid before cs tokens) :
    ∀ t ∈ tokens, t.span.start =
      Position.start.advance ((before ++ cs).take t.span.start.offset) := by
  induction h with
  | @last before gap hgap =>
    intro t ht
    rw [List.mem_singleton.mp ht]
    simp [Span.between, List.take_of_length_le]
  | @token before gap text rest kind tokens hgap hne hkind halone h ih =>
    intro t ht
    rcases List.mem_cons.mp ht with rfl | ht
    · have htake : (before ++ gap ++ (text ++ rest)).take (before ++ gap).length = before ++ gap :=
        List.take_left
      simp only [Span.between, offset_advance_start]
      rw [List.append_assoc gap, ← List.append_assoc before, htake]
    · simpa using ih t ht

theorem alone (h : Laid before cs tokens) :
    ∀ t ∈ tokens, t.kind ≠ .eof → t.span.start.offset < t.span.stop ∧
      kinds (slice (before ++ cs) t.span.start.offset t.span.stop) = [t.kind, .eof] := by
  induction h with
  | last hgap =>
    intro t ht hkind
    rw [List.mem_singleton.mp ht] at hkind
    exact absurd rfl hkind
  | @token before gap text rest kind tokens hgap hne hkind halone h ih =>
    intro t ht hkind
    rcases List.mem_cons.mp ht with rfl | ht
    · have hpos := List.length_pos_iff.mpr hne
      have hslice := slice_append (before ++ gap) text rest
      simp only [Span.between, offset_advance_start]
      rw [List.append_assoc gap, ← List.append_assoc before, ← List.append_assoc, hslice]
      refine ⟨?_, halone⟩
      rw [@List.length_append _ (before ++ gap) text]
      omega
    · simpa using ih t ht hkind

end Laid

theorem laid_ofSource (source : String) : Laid [] source.toList (ofSource source) :=
  laid_tokensFrom [] source.toList

/-- **The tokens of a source stand where their text does.** -/
theorem placed_ofSource (source : String) : Placed source.toList (ofSource source) := by
  have h := laid_tokensFrom [] source.toList
  refine ⟨h.last_eof, h.ordered.2, h.between, fun t ht => ?_, h.alone⟩
  have hposition := h.position t ht
  rw [advance_start] at hposition
  exact ⟨congrArg Position.line hposition, congrArg Position.column hposition⟩

end TypedImp.Token
