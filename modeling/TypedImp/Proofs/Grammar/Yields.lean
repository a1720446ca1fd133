import TypedImp.Proofs.Grammar.Reads

/-!
# What a parser yields

`Reads` says what a parser does where given tokens come.  `YieldsAt p cursor P` goes the
other way, from the answer to the tokens: at this place the parser has enough steps, and if
it does not fail, then `P` holds of the tokens that it passed, of its value and of the tokens
that it left.  The tokens behind are part of it because a parser that takes all it can, as
those of suffixes and of operators do, says by where it stops what does not come there.

Contracts are put together along `>>=` (`YieldsAt.bind`), where the tokens passed are laid end
to end, and that of a list follows from that of its items (**`yieldsAt_commaItems`**).
-/

namespace TypedImp.Grammar

open TypedImp.Token (Kind)

def Cursor.tokens (cursor : Cursor) : List Token := cursor.current :: cursor.ahead

theorem Cursor.map_kind_tokens (cursor : Cursor) :
    cursor.tokens.map Token.kind = cursor.kinds := rfl

theorem Cursor.length_tokens (cursor : Cursor) : cursor.tokens.length = cursor.kinds.length := by
  rw [← map_kind_tokens, List.length_map]

theorem Cursor.eq_of_tokens {cursor place : Cursor} (h : cursor.tokens = place.tokens) :
    cursor = place := by
  obtain ⟨current, ahead⟩ := cursor
  obtain ⟨current', ahead'⟩ := place
  obtain ⟨rfl, rfl⟩ := List.cons.inj h
  rfl

/-- The place behind `i` tokens of a row is at the next one. -/
theorem Cursor.getElem?_current {tokens : List Token} {i : Nat} {cursor : Cursor}
    (hc : cursor.tokens = tokens.drop i) : tokens[i]? = some cursor.current := by
  rw [← Nat.add_zero i, ← List.getElem?_drop, ← hc]
  rfl

theorem ended_map_kind {front : List Token} {eof : Token} (heof : eof.kind = .eof) :
    Ended ((front ++ [eof]).map Token.kind) :=
  ⟨front.map Token.kind, by rw [List.map_append, List.map_singleton, heof]⟩

/-- Behind a token that does not end the input there are the tokens ahead. -/
theorem Cursor.tokens_step {cursor : Cursor} (hc : Ended cursor.kinds)
    (hk : cursor.current.kind ≠ .eof) :
    cursor.tokens = cursor.current :: cursor.step.tokens ∧ Ended cursor.step.kinds := by
  have htail := Ended.tail hc hk
  obtain ⟨current, ahead⟩ := cursor
  cases ahead with
  | nil => exact absurd rfl htail.ne_nil
  | cons next ahead => exact ⟨rfl, htail⟩

namespace Parser

variable {α β : Type}

/-! ### Contracts -/

/-- **What a parser yields at a place.** -/
def YieldsAt (p : Parser α) (cursor : Cursor) (P : List Kind → α → List Kind → Prop) : Prop :=
  p cursor ≠ .exhausted ∧ ∀ value behind, p cursor = .done value behind →
    Ended behind.kinds ∧ ∃ front, cursor.tokens = front ++ behind.tokens ∧
      P (front.map Token.kind) value behind.kinds

variable {p : Parser α} {f : α → Parser β} {cursor : Cursor}
  {P P' : List Kind → α → List Kind → Prop} {Q : List Kind → β → List Kind → Prop}

theorem YieldsAt.bind (hp : YieldsAt p cursor P)
    (hf : ∀ ks value behind, cursor.kinds = ks ++ behind.kinds → Ended behind.kinds →
      P ks value behind.kinds →
        YieldsAt (f value) behind fun ks' result rest => Q (ks ++ ks') result rest) :
    YieldsAt (p >>= f) cursor Q := by
  rw [YieldsAt, bind_apply]
  cases hpc : p cursor with
  | failed fault => exact ⟨by simp, by simp⟩
  | exhausted => exact absurd hpc hp.1
  | done value middle =>
    obtain ⟨hmiddle, front, htokens, hvalue⟩ := hp.2 value middle hpc
    have hkinds : cursor.kinds = front.map Token.kind ++ middle.kinds := by
      rw [← cursor.map_kind_tokens, htokens, List.map_append, middle.map_kind_tokens]
    obtain ⟨hsteps, hdone⟩ := hf _ value middle hkinds hmiddle hvalue
    refine ⟨hsteps, fun result behind hresult => ?_⟩
    obtain ⟨hbehind, front', htokens', hresult'⟩ := hdone result behind hresult
    refine ⟨hbehind, front ++ front', by rw [htokens, htokens', List.append_assoc], ?_⟩
    rwa [List.map_append]

theorem YieldsAt.mono (hp : YieldsAt p cursor P)
    (h : ∀ ks value rest, cursor.kinds = ks ++ rest → P ks value rest → P' ks value rest) :
    YieldsAt p cursor P' := by
  refine ⟨hp.1, fun value behind hv => ?_⟩
  obtain ⟨hbehind, front, htokens, hvalue⟩ := hp.2 value behind hv
  refine ⟨hbehind, front, htokens, h _ value _ ?_ hvalue⟩
  rw [← cursor.map_kind_tokens, htokens, List.map_append, behind.map_kind_tokens]

/-- A parser that passes nothing. -/
theorem yieldsAt_here {value : α} (hp : p cursor = .done value cursor) (hc : Ended cursor.kinds)
    (h : P [] value cursor.kinds) : YieldsAt p cursor P := by
  refine ⟨by simp [hp], fun v behind hv => ?_⟩
  rw [hp] at hv
  cases hv
  exact ⟨hc, [], rfl, h⟩

theorem yieldsAt_pure {value : α} (hc : Ended cursor.kinds) (h : P [] value cursor.kinds) :
    YieldsAt (pure value) cursor P :=
  yieldsAt_here rfl hc h

theorem yieldsAt_failed {fault : Located Fault} (hp : p cursor = .failed fault) :
    YieldsAt p cursor P :=
  ⟨by simp [hp], by simp [hp]⟩

/-- A parser that passes the current token. -/
theorem yieldsAt_step {value : α} {k : Kind} (hp : p cursor = .done value cursor.step)
    (hk : cursor.current.kind = k) (hne : k ≠ .eof) (hc : Ended cursor.kinds) :
    YieldsAt p cursor fun ks v _ => ks = [k] ∧ v = value := by
  refine ⟨by simp [hp], fun v behind hv => ?_⟩
  rw [hp] at hv
  cases hv
  obtain ⟨htokens, hended⟩ := Cursor.tokens_step hc (by rwa [hk])
  exact ⟨hended, [cursor.current], htokens, by rw [← hk]; rfl, rfl⟩

theorem yieldsAt_peek_bind {f : Kind → Parser β} (hf : YieldsAt (f cursor.current.kind) cursor Q) :
    YieldsAt (peek >>= f) cursor Q :=
  hf

theorem yieldsAt_advance {k : Kind} (hk : cursor.current.kind = k) (hne : k ≠ .eof)
    (hc : Ended cursor.kinds) : YieldsAt advance cursor fun ks _ _ => ks = [k] :=
  (yieldsAt_step rfl hk hne hc).mono fun _ _ _ _ h => h.1

theorem yieldsAt_expect {s : Symbol} (hc : Ended cursor.kinds) :
    YieldsAt (expect s) cursor fun ks _ _ => ks = [.symbol s] := by
  by_cases hk : cursor.current.kind.isSymbol s = true
  · have hp : expect s cursor = .done cursor.current.span cursor.step := by rw [expect, if_pos hk]
    exact (yieldsAt_step hp (Kind.isSymbol_iff.mp hk) (by simp) hc).mono fun _ _ _ _ h => h.1
  · exact yieldsAt_failed (by rw [expect, if_neg hk, unexpected])

theorem yieldsAt_accept {s : Symbol} (hc : Ended cursor.kinds) :
    YieldsAt (accept s) cursor fun ks found _ => ks = bif found then [.symbol s] else [] := by
  by_cases hk : cursor.current.kind.isSymbol s = true
  · have hp : accept s cursor = .done true cursor.step := by rw [accept, if_pos hk]
    refine (yieldsAt_step hp (Kind.isSymbol_iff.mp hk) (by simp) hc).mono ?_
    rintro ks found rest - ⟨rfl, rfl⟩
    rfl
  · have hp : accept s cursor = .done false cursor := by rw [accept, if_neg hk]
    exact yieldsAt_here hp hc rfl

/-- What is attempted may fail; then nothing is read. -/
theorem YieldsAt.attempt (hp : YieldsAt p cursor P) (hc : Ended cursor.kinds) :
    YieldsAt (attempt p) cursor fun ks found rest =>
      match found with
      | some value => P ks value rest
      | none => ks = [] ∧ ∀ value behind, p cursor ≠ .done value behind := by
  cases hpc : p cursor with
  | exhausted => exact absurd hpc hp.1
  | failed fault =>
    have hattempt : Parser.attempt p cursor = .done none cursor := by rw [Parser.attempt, hpc]
    exact yieldsAt_here hattempt hc ⟨rfl, by simp⟩
  | done value behind =>
    have hattempt : Parser.attempt p cursor = .done (some value) behind := by
      rw [Parser.attempt, hpc]
    refine ⟨by simp [hattempt], fun found last hfound => ?_⟩
    rw [hattempt] at hfound
    cases hfound
    exact hp.2 value behind hpc

/-- **Items with commas between them** have enough steps for all tokens that come. -/
theorem yieldsAt_commaItems (closing : Symbol) (bare : α → β) {P : List Kind → β → Prop} {N : Nat}
    (hitem : ∀ place : Cursor, Ended place.kinds → place.kinds.length ≤ N →
      YieldsAt p place fun ks value _ => ks ≠ [] ∧ P ks (bare value))
    {steps : Nat} (hc : Ended cursor.kinds) (hN : cursor.kinds.length ≤ N)
    (hsteps : cursor.kinds.length ≤ steps) :
    YieldsAt (commaItems closing p steps) cursor fun ks values _ =>
      ∃ items : List (List Kind × β), items.map Prod.snd = values.map bare ∧
        Separated (items.map Prod.fst) ks ∧ ∀ q ∈ items, P q.1 q.2 := by
  induction steps generalizing cursor with
  | zero =>
    rw [Cursor.kinds, List.length_cons] at hsteps
    omega
  | succ steps ih =>
    refine YieldsAt.bind (P := fun ks _ _ => ks = []) (yieldsAt_here rfl hc rfl) ?_
    rintro _ ended place hplace hended rfl
    rw [List.nil_append] at hplace
    rw [hplace] at hN hsteps
    cases ended with
    | true => exact yieldsAt_pure hended ⟨[], rfl, .nil, by simp⟩
    | false =>
      refine (hitem place hended hN).bind ?_
      rintro ks first behind hbehind hb ⟨hne, hfirst⟩
      refine (yieldsAt_accept hb).bind ?_
      rintro _ more last hlast hl rfl
      have hpos := List.length_pos_iff.mpr hne
      rw [hbehind, List.length_append] at hN hsteps
      cases more with
      | false =>
        refine yieldsAt_pure hl ⟨[(ks, bare first)], rfl, ?_, by simpa using hfirst⟩
        simpa using Separated.last ks
      | true =>
        rw [hlast, List.length_append] at hN hsteps
        refine (ih hl (by omega) (by omega)).bind ?_
        rintro ks' others rest - hrest ⟨items, hitems, hks', hall⟩
        refine yieldsAt_pure hrest ⟨(ks, bare first) :: items, ?_, ?_, ?_⟩
        · rw [List.map_cons, List.map_cons, hitems]
        · simpa using Separated.cons ks hks'
        · rintro q hq
          rcases List.mem_cons.mp hq with rfl | hq
          · exact hfirst
          · exact hall q hq

end Parser

open TypedImp.Grammar.Parser

theorem yieldsAt_identifier {cursor : Cursor} (hc : Ended cursor.kinds) :
    YieldsAt identifier cursor fun ks value _ => ks = [.name value.text] := by
  cases hk : cursor.current.kind with
  | name text =>
    refine (yieldsAt_step (by rw [identifier, hk]) hk (by simp) hc).mono ?_
    rintro ks value rest - ⟨rfl, rfl⟩
    rfl
  | _ => exact yieldsAt_failed (by rw [identifier, hk, unexpected])

end TypedImp.Grammar
