/-!
# Counted results

A result together with the number of rules that were applied on the way to it.
`Counted` is a monad in which `pure` counts nothing and `>>=` adds the counts up.
-/

namespace TypedImp

structure Counted (α : Type) where
  value : α
  count : Nat
deriving DecidableEq, Repr

namespace Counted

variable {α β : Type}

/-- The result of a single rule. -/
def once (value : α) : Counted α := ⟨value, 1⟩

instance : Monad Counted where
  pure value := ⟨value, 0⟩
  bind c f := let next := f c.value; ⟨next.value, c.count + next.count⟩

@[simp] theorem value_pure (a : α) : (pure a : Counted α).value = a := rfl

@[simp] theorem count_pure (a : α) : (pure a : Counted α).count = 0 := rfl

@[simp] theorem value_bind (c : Counted α) (f : α → Counted β) :
    (c >>= f).value = (f c.value).value := rfl

@[simp] theorem count_bind (c : Counted α) (f : α → Counted β) :
    (c >>= f).count = c.count + (f c.value).count := rfl

@[simp] theorem value_once (a : α) : (once a).value = a := rfl

@[simp] theorem count_once (a : α) : (once a).count = 1 := rfl

end Counted

end TypedImp
