import TypedImp.Proofs.Grammar.Brackets
import TypedImp.Proofs.Grammar.Yields

/-!
# The grammar of types

`IsType ks type` says that the tokens `ks` are a type, with the tree `type`:

    type  = name | '[' type ']' | '(' types ')' '->' type
    types = [ type (',' type)* [','] ]

The rule for types reads such tokens and no others: what it yields is a type
(`Rules.yieldsAt_type`), and it reads every type, whatever comes behind (`IsType.reads`).

An array literal is first tried as an array without elements, since both begin with a
bracket.  Whether that fails is not seen from its first tokens: `[[x]]` begins with what
could be a type.  A type that was read up to a closing bracket has come to the bracket that
closes the literal, so **`attempt_emptyArray`**: the attempt fails unless a type stands between
the brackets and empty parentheses come behind.
-/

namespace TypedImp.Grammar

open TypedImp.Token (Kind)
open TypedImp.Grammar.Parser

/-! ### Types -/

/-- **The grammar of types.** -/
inductive IsType : List Kind → Tree.TypeExpr → Prop where
  | named (name : String) : IsType [.name name] (.named (.of name))
  | array {ks : List Kind} {element : Tree.TypeExpr} (h : IsType ks element) :
    IsType (.symbol .leftBracket :: (ks ++ [.symbol .rightBracket])) (.array element default)
  | function {params : List (List Kind × Tree.TypeExpr)} {ks ks' : List Kind}
    {result : Tree.TypeExpr} (hparams : ∀ p ∈ params, IsType p.1 p.2)
    (hks : Separated (params.map Prod.fst) ks) (hresult : IsType ks' result) :
    IsType (.symbol .leftParen :: (ks ++ .symbol .rightParen :: .symbol .arrow :: ks'))
      (.function (params.map Prod.snd) result default)

namespace IsType

variable {ks : List Kind} {type : Tree.TypeExpr}

theorem eq_cons (h : IsType ks type) :
    ∃ k others, ks = k :: others ∧ k.isSymbol .rightParen = false ∧ k.isEof = false := by
  cases h <;> exact ⟨_, _, rfl, rfl, rfl⟩

theorem ne_nil (h : IsType ks type) : ks ≠ [] := by
  obtain ⟨k, others, rfl, -, -⟩ := h.eq_cons
  exact List.cons_ne_nil k others

theorem balanced (h : IsType ks type) : Balanced ks := by
  induction h with
  | named name => exact balanced_singleton rfl rfl
  | array h ih => exact ih.within rfl rfl rfl
  | @function params ks ks' result hparams hks hresult ihparams ihresult =>
    have hinner : Balanced ks := hks.balanced fun ks hks => by
      obtain ⟨p, hp, rfl⟩ := List.mem_map.mp hks
      exact ihparams p hp
    have hparens : Balanced (.symbol .leftParen :: (ks ++ [.symbol .rightParen])) :=
      hinner.within rfl rfl rfl
    have harrow : Balanced (.symbol .arrow :: ks') := ihresult.cons rfl rfl
    simpa using hparens.append harrow

end IsType

def IsBracketedType (ks : List Kind) : Prop :=
  ∃ inner type, IsType inner type ∧ ks = .symbol .leftBracket :: (inner ++ [.symbol .rightBracket])

/-- What begins with balanced tokens and goes on is no type between brackets. -/
theorem not_isBracketedType_append {ks ks' : List Kind} (h : Balanced ks) (hks : ks ≠ [])
    (hks' : ks' ≠ []) : ¬ IsBracketedType (ks ++ ks') := by
  rintro ⟨inner, type, htype, heq⟩
  obtain ⟨k, others, rfl⟩ := List.exists_cons_of_ne_nil hks
  rw [List.cons_append] at heq
  obtain ⟨rfl, hothers⟩ := List.cons.inj heq
  obtain ⟨behind, hbehind⟩ := h.exists_behindClosing rfl
  have hclosed := behindClosing_rightBracket htype.balanced []
  rw [← hothers, hbehind, Option.some.injEq, List.append_eq_nil_iff] at hclosed
  exact hks' hclosed.2

theorem Rules.steps_unfold (depth : Nat) : (Rules.unfold depth).steps = depth := by
  cases depth <;> rfl

/-! ### What the rule for types yields -/

namespace Rules

variable {cursor : Cursor}

theorem yieldsAt_typeRule {r : Rules} (hsteps : cursor.kinds.length ≤ r.steps)
    (htype : ∀ place : Cursor, Ended place.kinds → place.kinds.length < cursor.kinds.length →
      YieldsAt r.type place fun ks type _ => IsType ks type.bare)
    (hc : Ended cursor.kinds) :
    YieldsAt r.typeRule cursor fun ks type _ => IsType ks type.bare := by
  refine yieldsAt_peek_bind ?_
  cases hk : cursor.current.kind with
  | name name =>
    refine (yieldsAt_identifier hc).bind ?_
    rintro _ name behind - hb rfl
    exact yieldsAt_pure hb (.named name.text)
  | symbol s =>
    cases s with
    | leftBracket =>
      refine (yieldsAt_advance hk (by simp) hc).bind ?_
      rintro _ start place₁ hkinds h₁ rfl
      refine (htype place₁ h₁ (by rw [hkinds]; simp)).bind ?_
      rintro ks element place₂ - h₂ helement
      refine (yieldsAt_expect h₂).bind ?_
      rintro _ stop place₃ - h₃ rfl
      refine yieldsAt_pure h₃ ?_
      rw [Tree.TypeExpr.bare]
      simpa using helement.array
    | leftParen =>
      refine (yieldsAt_advance hk (by simp) hc).bind ?_
      rintro _ start place₁ hkinds h₁ rfl
      have hlt : place₁.kinds.length < cursor.kinds.length := by rw [hkinds]; simp
      have hparams := yieldsAt_commaItems .rightParen Tree.TypeExpr.bare
        (fun place hp hle => (htype place hp (Nat.lt_of_le_of_lt hle hlt)).mono
          fun ks type rest _ h => ⟨h.ne_nil, h⟩) h₁ (Nat.le_refl _)
        (Nat.le_trans (Nat.le_of_lt hlt) hsteps)
      refine hparams.bind ?_
      rintro ks types place₂ hkinds₂ h₂ ⟨params, hparams, hks, hall⟩
      refine (yieldsAt_expect h₂).bind ?_
      rintro _ _ place₃ hkinds₃ h₃ rfl
      refine (yieldsAt_expect h₃).bind ?_
      rintro _ _ place₄ hkinds₄ h₄ rfl
      have hlt₄ : place₄.kinds.length < cursor.kinds.length := by
        rw [hkinds, hkinds₂, hkinds₃, hkinds₄]
        simp only [List.length_append, List.length_cons]
        omega
      refine (htype place₄ h₄ hlt₄).bind ?_
      rintro ks' result place₅ - h₅ hresult
      refine yieldsAt_pure h₅ ?_
      rw [Tree.TypeExpr.bare, Tree.TypeExpr.bareAll_eq_map, ← hparams]
      simpa using IsType.function hall hks hresult
    | _ => exact yieldsAt_failed rfl
  | _ => exact yieldsAt_failed rfl

/-- **What is read as a type is one**, and there are enough steps to read it. -/
theorem yieldsAt_type (depth : Nat) (hc : Ended cursor.kinds)
    (hdepth : cursor.kinds.length < depth) :
    YieldsAt (unfold depth).type cursor fun ks type _ => IsType ks type.bare := by
  induction depth generalizing cursor with
  | zero => omega
  | succ depth ih =>
    have hsteps : cursor.kinds.length ≤ (unfold depth).steps := by
      rw [steps_unfold]
      omega
    exact yieldsAt_typeRule hsteps (fun place hplace hlt => ih hplace (by omega)) hc

end Rules

/-! ### Types are read -/

/-- **A type is read**, whatever comes behind it. -/
theorem IsType.reads {ks rest : List Kind} {type : Tree.TypeExpr} {depth : Nat}
    (h : IsType ks type) (hr : Ended rest) (hdepth : (ks ++ rest).length < depth) :
    Reads (Rules.unfold depth).type ks rest fun value => value.bare = type := by
  induction h generalizing depth rest with
  | named name =>
    cases depth with
    | zero => omega
    | succ depth =>
      refine Reads.bind_known (reads_peek rfl) ?_
      exact (reads_identifier hr).bind_pure fun name hname => by rw [Tree.TypeExpr.bare, hname]
  | @array ks element h ih =>
    cases depth with
    | zero => omega
    | succ depth =>
      have helement := ih (hr.cons (.symbol .rightBracket))
        (show (ks ++ _).length < depth by simp at hdepth ⊢; omega)
      refine Reads.bind_known (reads_peek rfl) ?_
      refine Reads.bind_cons (reads_advance (hr.append _)) fun start _ => ?_
      refine Reads.bind helement fun value hvalue => ?_
      refine Reads.bind_cons (reads_expect hr) fun stop _ => reads_pure ?_
      rw [Tree.TypeExpr.bare, hvalue]
  | @function params ks ks' result hparams hks hresult ihparams ihresult =>
    cases depth with
    | zero => omega
    | succ depth =>
      have harrow := (hr.append ks').cons (.symbol .arrow)
      have hlength : (ks ++ .symbol .rightParen :: .symbol .arrow :: (ks' ++ rest)).length <
          depth := by
        simp at hdepth ⊢
        omega
      have hinner : Reads
          (commaItems .rightParen (Rules.unfold depth).type (Rules.unfold depth).steps) ks
          (.symbol .rightParen :: .symbol .arrow :: (ks' ++ rest))
          fun types => types.map Tree.TypeExpr.bare = params.map Prod.snd :=
        reads_separated hks rfl (by decide) (fun p hp => (hparams p hp).eq_cons)
          (fun p hp others hothers hle _ => ihparams p hp hothers (Nat.lt_of_le_of_lt hle hlength))
          harrow (Nat.le_refl _) (by rw [Rules.steps_unfold]; exact Nat.le_of_lt hlength)
      have hresult := ihresult hr
        (show (ks' ++ rest).length < depth by simp at hdepth ⊢; omega)
      refine Reads.bind_known (reads_peek rfl) ?_
      refine Reads.bind_cons (reads_advance (hr.append _)) fun start _ => ?_
      refine Reads.bind hinner fun types htypes => ?_
      refine Reads.bind_cons (reads_expect harrow) fun _ _ => ?_
      refine Reads.bind_cons (reads_expect (hr.append _)) fun _ _ => ?_
      refine hresult.bind_pure fun value hvalue => ?_
      rw [Tree.TypeExpr.bare, Tree.TypeExpr.bareAll_eq_map, htypes, hvalue]

/-! ### Arrays without elements -/

namespace Rules

variable {depth : Nat}

/-- The tokens behind the opening bracket of an array without elements. -/
theorem yieldsAt_emptyArray {cursor : Cursor} (hc : Ended cursor.kinds)
    (hdepth : cursor.kinds.length < depth) :
    YieldsAt (unfold depth).emptyArray cursor fun ks found _ =>
      ∃ inner, IsType inner found.1.bare ∧
        ks = inner ++ [.symbol .rightBracket, .symbol .leftParen, .symbol .rightParen] := by
  refine (yieldsAt_type depth hc hdepth).bind ?_
  rintro inner element place₁ - h₁ helement
  refine (yieldsAt_expect h₁).bind ?_
  rintro _ _ place₂ - h₂ rfl
  refine (yieldsAt_expect h₂).bind ?_
  rintro _ _ place₃ - h₃ rfl
  refine (yieldsAt_expect h₃).bind ?_
  rintro _ stop place₄ - h₄ rfl
  exact yieldsAt_pure h₄ ⟨inner, helement, by simp⟩

theorem reads_emptyArray {ks rest : List Kind} {type : Tree.TypeExpr} (h : IsType ks type)
    (hr : Ended rest)
    (hdepth : (ks ++ .symbol .rightBracket :: .symbol .leftParen :: .symbol .rightParen ::
      rest).length < depth) :
    Reads (unfold depth).emptyArray
      (ks ++ [.symbol .rightBracket, .symbol .leftParen, .symbol .rightParen]) rest
      fun found => found.1.bare = type := by
  have hparens := (hr.cons (.symbol .rightParen)).cons (.symbol .leftParen)
  refine Reads.bind (h.reads (hparens.cons _) hdepth) fun element helement => ?_
  refine Reads.bind_cons (reads_expect hparens) fun _ _ => ?_
  refine Reads.bind_cons (reads_expect (hr.cons _)) fun _ _ => ?_
  exact Reads.bind_cons (reads_expect hr) fun _ _ => reads_pure helement

/-- **An array literal is not read as an array without elements**, unless a type stands between
its brackets and empty parentheses come behind it. -/
theorem attempt_emptyArray {cursor : Cursor} {front rest : List Kind}
    (hc : cursor.kinds = front ++ .symbol .rightBracket :: rest) (hfront : Balanced front)
    (hr : Ended rest) (hdepth : cursor.kinds.length < depth)
    (h : ∀ type, IsType front type → ∀ others,
      rest ≠ .symbol .leftParen :: .symbol .rightParen :: others) :
    attempt (unfold depth).emptyArray cursor = .done none cursor := by
  have hended : Ended cursor.kinds := by
    rw [hc]
    exact (hr.cons _).append front
  obtain ⟨hsteps, hdone⟩ := yieldsAt_emptyArray hended hdepth
  rw [attempt]
  cases hempty : (unfold depth).emptyArray cursor with
  | exhausted => exact absurd hempty hsteps
  | failed fault => rfl
  | done found behind =>
    obtain ⟨-, passed, htokens, inner, htype, hpassed⟩ := hdone found behind hempty
    have hkinds : front ++ .symbol .rightBracket :: rest =
        inner ++ .symbol .rightBracket :: .symbol .leftParen :: .symbol .rightParen ::
          behind.kinds := by
      rw [← hc, ← cursor.map_kind_tokens, htokens, List.map_append, hpassed,
        behind.map_kind_tokens]
      simp
    -- Both the literal and the type end at the bracket that closes the first one.
    have hrest := behindClosing_rightBracket hfront rest
    rw [hkinds, behindClosing_rightBracket htype.balanced, Option.some.injEq] at hrest
    rw [← hrest] at hkinds
    rw [List.append_cancel_right hkinds] at h
    exact absurd hrest.symm (h _ htype _)

end Rules

end TypedImp.Grammar
