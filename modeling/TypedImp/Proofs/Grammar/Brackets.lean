import TypedImp.Proofs.Grammar.Reads

/-!
# Brackets

Types and expressions alike have a closing bracket for every one that they open; such tokens
are `Balanced`.  So it can be said which bracket closes one that is open: `behindClosing` are the
tokens behind it.  Where balanced tokens begin with a bracket, the one that closes it is among
them, whatever comes behind (**`Balanced.exists_behindClosing`**).
-/

namespace TypedImp.Grammar

open TypedImp.Token (Kind)

/-! ### Balanced tokens -/

def opens : Kind → Bool
  | .symbol s => s ∈ [.leftParen, .leftBracket]
  | _ => false

def closes : Kind → Bool
  | .symbol s => s ∈ [.rightParen, .rightBracket]
  | _ => false

/-- What comes behind the bracket that closes one which is open, while so many further ones
are open within it. -/
def behindClosing : Nat → List Kind → Option (List Kind)
  | _, [] => none
  | depth, k :: ks =>
    if opens k then behindClosing (depth + 1) ks
    else if closes k then if depth = 0 then some ks else behindClosing (depth - 1) ks
    else behindClosing depth ks

/-- Tokens that close all brackets that they open, and no others. -/
def Balanced (front : List Kind) : Prop :=
  ∀ depth ks, behindClosing depth (front ++ ks) = behindClosing depth ks

theorem balanced_nil : Balanced [] := fun _ _ => rfl

theorem balanced_singleton {k : Kind} (hopens : opens k = false) (hcloses : closes k = false) :
    Balanced [k] := by
  intro depth ks
  rw [List.singleton_append, behindClosing, hopens, hcloses]
  rfl

theorem Balanced.append {front others : List Kind} (h : Balanced front) (g : Balanced others) :
    Balanced (front ++ others) := by
  intro depth ks
  rw [List.append_assoc, h, g]

theorem Balanced.cons {k : Kind} {ks : List Kind} (h : Balanced ks) (hopens : opens k = false)
    (hcloses : closes k = false) : Balanced (k :: ks) :=
  (balanced_singleton hopens hcloses).append h

/-- Brackets around balanced tokens. -/
theorem Balanced.within {left right : Kind} {ks : List Kind} (h : Balanced ks)
    (hopens : opens left = true) (hright : opens right = false) (hcloses : closes right = true) :
    Balanced (left :: (ks ++ [right])) := by
  intro depth others
  rw [List.cons_append, List.append_assoc, behindClosing, if_pos hopens, h, List.singleton_append,
    behindClosing, hright, hcloses]
  rfl

theorem Separated.balanced {kss : List (List Kind)} {ks : List Kind} (h : Separated kss ks)
    (hkss : ∀ ks ∈ kss, Balanced ks) : Balanced ks := by
  induction h with
  | nil => exact balanced_nil
  | last ks => exact hkss ks List.mem_cons_self
  | cons ks h ih =>
    have hothers := ih fun ks hks => hkss ks (List.mem_cons_of_mem _ hks)
    exact (hkss ks List.mem_cons_self).append (hothers.cons rfl rfl)

/-! ### Closing brackets -/

theorem behindClosing_rightBracket {front : List Kind} (h : Balanced front) (ks : List Kind) :
    behindClosing 0 (front ++ .symbol .rightBracket :: ks) = some ks := by
  rw [h]
  rfl

/-- Either the closing bracket is among the tokens in front, or they only change how many
brackets are open, also where further ones are. -/
theorem behindClosing_append (depth : Nat) (front : List Kind) :
    (∃ others, ∀ ks, behindClosing depth (front ++ ks) = some (others ++ ks)) ∨
      ∃ depth', ∀ i ks,
        behindClosing (depth + i) (front ++ ks) = behindClosing (depth' + i) ks := by
  induction front generalizing depth with
  | nil => exact .inr ⟨depth, fun i ks => rfl⟩
  | cons k front ih =>
    by_cases hopens : opens k = true
    · rcases ih (depth + 1) with ⟨others, h⟩ | ⟨depth', h⟩
      · refine .inl ⟨others, fun ks => ?_⟩
        rw [List.cons_append, behindClosing, if_pos hopens, h]
      · refine .inr ⟨depth', fun i ks => ?_⟩
        rw [List.cons_append, behindClosing, if_pos hopens, ← h]
        congr 1
        omega
    · by_cases hcloses : closes k = true
      · cases depth with
        | zero =>
          refine .inl ⟨front, fun ks => ?_⟩
          rw [List.cons_append, behindClosing, if_neg hopens, if_pos hcloses, if_pos rfl]
        | succ depth =>
          rcases ih depth with ⟨others, h⟩ | ⟨depth', h⟩
          · refine .inl ⟨others, fun ks => ?_⟩
            rw [List.cons_append, behindClosing, if_neg hopens, if_pos hcloses,
              if_neg (Nat.succ_ne_zero depth), Nat.add_sub_cancel, h]
          · refine .inr ⟨depth', fun i ks => ?_⟩
            rw [List.cons_append, behindClosing, if_neg hopens, if_pos hcloses,
              if_neg (by omega), ← h]
            congr 1
            omega
      · rcases ih depth with ⟨others, h⟩ | ⟨depth', h⟩
        · refine .inl ⟨others, fun ks => ?_⟩
          rw [List.cons_append, behindClosing, if_neg hopens, if_neg hcloses, h]
        · refine .inr ⟨depth', fun i ks => ?_⟩
          rw [List.cons_append, behindClosing, if_neg hopens, if_neg hcloses, h]

/-- **The bracket that balanced tokens begin with is closed among them.** -/
theorem Balanced.exists_behindClosing {k : Kind} {front : List Kind} (h : Balanced (k :: front))
    (hk : opens k = true) :
    ∃ others, ∀ ks, behindClosing 0 (front ++ ks) = some (others ++ ks) := by
  rcases behindClosing_append 0 front with hclosed | ⟨depth, hopen⟩
  · exact hclosed
  · -- Otherwise a closing bracket behind them would close another one.
    have hbalanced := h 0 [.symbol .rightBracket]
    rw [List.cons_append, behindClosing, if_pos hk, hopen 1] at hbalanced
    have hnone : behindClosing (depth + 1) [.symbol .rightBracket] = none := rfl
    rw [hnone] at hbalanced
    cases hbalanced

end TypedImp.Grammar
