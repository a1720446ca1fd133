import Mathlib.Data.List.Basic
import TypedImp.Compile
import TypedImp.Proofs.Simplify.Value

/-!
# Which calls survive simplifying

`Expr.calls` are the calls in an expression from left to right.  Most rules keep
them: `fold?`, `absorb?` and the identities that leave an operand drop a literal
only, in which there is no call.  But `x * 0`, `0 * x`, `0 / x`, `x ** 0` and
`1 ** x` become a literal whatever `x` is, and with `x` go the calls in it.  Such a
node is said to be *erased*.

`calls_simplify_eq` says what one node does to the calls, and
`calls_simplify_sublist` that simplifying neither adds a call nor changes their
order.  From these, `calls_simplify_eq_iff` says that all calls survive, each in its
simplified form, exactly if no erased node has a call in it.
-/

namespace TypedImp

/-- Whether a node whose operands are simplified becomes a literal, whatever its other
operand is. -/
def BinaryOp.erases (op : BinaryOp) (l r : Expr) : Bool :=
  match op with
  | mul => !r.isLiteral 1 && !l.isLiteral 1 && (r.isLiteral 0 || l.isLiteral 0)
  | div => l.isLiteral 0
  | pow => r.isLiteral 0 || l.isLiteral 1
  | _ => false

namespace Expr

/-- The calls in an expression from left to right, each before the calls in it. -/
def calls (e : Expr) : List Expr := e.nested.filter isCall

/-- Whether an expression becomes a literal when it is simplified, whatever one of its
operands is. -/
def erased : Expr → Bool
  | binary op l r _ => op.erases l.simplify.value r.simplify.value
  | _ => false

def ErasesCall (e : Expr) : Prop := e.erased = true ∧ e.calls ≠ []

theorem calls_eq (e : Expr) :
    e.calls = (if e.isCall then [e] else []) ++ e.parts.flatMap calls := by
  rw [calls, nested_eq_cons, List.filter_cons, List.filter_flatMap]
  split <;> rfl

theorem calls_of_part {e part : Expr} (hp : part ∈ e.parts) (h : e.calls = []) :
    part.calls = [] := by
  rw [calls_eq, List.append_eq_nil_iff, List.flatMap_eq_nil_iff] at h
  exact h.2 part hp

/-! ### Literals make no calls -/

theorem calls_of_number? {e : Expr} {x : Float} (h : e.number? = some x) : e.calls = [] := by
  cases e with
  | number => rfl
  | _ => simp [number?] at h

theorem calls_of_bool? {e : Expr} {b : Bool} (h : e.bool? = some b) : e.calls = [] := by
  cases e with
  | bool => rfl
  | _ => simp [bool?] at h

theorem calls_of_isLiteral {e : Expr} {x : Float} (h : e.isLiteral x = true) : e.calls = [] := by
  rw [isLiteral] at h
  cases hn : e.number? with
  | none => rw [hn] at h; simp at h
  | some y => exact calls_of_number? hn

end Expr

/-! ### Rules -/

namespace BinaryOp

variable {op : BinaryOp} {l r e : Expr}

/-- Both operands are literals, so it does not matter whether they are erased. -/
theorem calls_of_fold? (h : op.fold? l r = some e) :
    e.calls = if op.erases l r then [] else l.calls ++ r.calls := by
  obtain ⟨x, y, hx, hy, h⟩ := exists_onNumbers?_of_fold? h
  rw [Expr.calls_of_number? hx, Expr.calls_of_number? hy, List.append_nil, ite_self]
  cases op with
  | or | and => cases h
  | _ => cases h; rfl

theorem calls_of_absorb? (h : op.absorb? l r = some e) :
    e.calls = if op.erases l r then [] else l.calls ++ r.calls := by
  cases op with
  | or | and =>
    simp only [absorb?] at h
    simp only [erases, Bool.false_eq_true, if_false]
    split at h
    · rename_i hl
      cases h
      rw [Expr.calls_of_bool? hl, List.nil_append]
    · split at h
      · rename_i hr
        cases h
        rw [Expr.calls_of_bool? hr, List.append_nil]
      · cases h
  | _ => cases h

/-- An identity keeps the calls of the operands unless it erases them. -/
theorem calls_of_identity? (h : op.identity? l r = some e) :
    e.calls = if op.erases l r then [] else l.calls ++ r.calls := by
  have keepLeft : ∀ {x : Float}, r.isLiteral x = true → l.calls = l.calls ++ r.calls := by
    intro x hr
    rw [Expr.calls_of_isLiteral hr, List.append_nil]
  have keepRight : ∀ {x : Float}, l.isLiteral x = true → r.calls = l.calls ++ r.calls := by
    intro x hl
    rw [Expr.calls_of_isLiteral hl, List.nil_append]
  cases op with
  | add =>
    simp only [identity?] at h
    rw [if_neg (by simp [erases])]
    split at h
    · cases h; exact keepLeft ‹_›
    · split at h
      · cases h; exact keepRight ‹_›
      · cases h
  | sub =>
    simp only [identity?] at h
    rw [if_neg (by simp [erases])]
    split at h
    · cases h; exact keepLeft ‹_›
    · split at h
      · cases h
        rw [Expr.calls_eq]
        simpa [Expr.isCall, Expr.parts] using keepRight ‹_›
      · cases h
  | mul =>
    simp only [identity?] at h
    split at h
    · rename_i hr
      cases h
      rw [if_neg (by simp [erases, hr])]
      exact keepLeft hr
    · rename_i hr
      split at h
      · rename_i hl
        cases h
        rw [if_neg (by simp [erases, hl])]
        exact keepRight hl
      · rename_i hl
        split at h
        · rename_i hz
          cases h
          rw [if_pos (by simpa [erases, hr, hl] using hz)]
          rfl
        · cases h
  | div =>
    simp only [identity?] at h
    split at h
    · rename_i hl
      cases h
      rw [if_pos (by simp [erases, hl])]
      rfl
    · rename_i hl
      split at h
      · rename_i hr
        cases h
        rw [if_neg (by simp [erases, hl])]
        exact keepLeft hr
      · cases h
  | pow =>
    simp only [identity?] at h
    split at h
    · rename_i hr
      cases h
      rw [if_pos (by simp [erases, hr])]
      rfl
    · split at h
      · rename_i hl
        cases h
        rw [if_pos (by simp [erases, hl])]
        rfl
      · cases h
  | _ => cases h

/-- Where no identity applies nothing is erased. -/
theorem erases_of_identity? (h : op.identity? l r = none) : op.erases l r = false := by
  cases op with
  | mul | div | pow =>
    simp only [identity?] at h
    simp only [erases]
    grind
  | _ => rfl

/-- **The calls of a rebuilt binary node** are those of its operands, or none. -/
theorem calls_simplify? (op : BinaryOp) (l r : Expr) (ty : Ty) :
    ((op.simplify? l r).getD (.binary op l r ty)).calls =
      if op.erases l r then [] else l.calls ++ r.calls := by
  rw [simplify?]
  cases hf : op.fold? l r with
  | some e => exact calls_of_fold? hf
  | none =>
    cases ha : op.absorb? l r with
    | some e => exact calls_of_absorb? ha
    | none =>
      cases hi : op.identity? l r with
      | some e => exact calls_of_identity? hi
      | none =>
        rw [erases_of_identity? hi, Expr.calls_eq]
        simp [Expr.isCall, Expr.parts]

end BinaryOp

theorem UnaryOp.calls_fold? (op : UnaryOp) (e : Expr) (ty : Ty) :
    ((op.fold? e).getD (.unary op e ty)).calls = e.calls := by
  have stays : (Expr.unary op e ty).calls = e.calls := by
    rw [Expr.calls_eq]
    simp [Expr.isCall, Expr.parts]
  cases op with
  | neg =>
    rw [fold?_neg]
    cases hn : e.number? with
    | none => exact stays
    | some x => rw [Expr.calls_of_number? hn]; rfl
  | not =>
    rw [fold?_not]
    cases hb : e.bool? with
    | none => exact stays
    | some b => rw [Expr.calls_of_bool? hb]; rfl

/-! ### Lists cut short -/

theorem sublist_flatMap {α β : Type} {f g : α → List β} {xs : List α}
    (h : ∀ x ∈ xs, (f x).Sublist (g x)) : (xs.flatMap f).Sublist (xs.flatMap g) := by
  induction xs with
  | nil => exact .refl _
  | cons x xs ih =>
    rw [List.flatMap_cons, List.flatMap_cons]
    exact (h x List.mem_cons_self).append (ih fun y hy => h y (List.mem_cons_of_mem x hy))

/-- Lists that are cut short one by one are whole together only if each is whole. -/
theorem flatMap_eq_iff_of_sublist {α β : Type} {f g : α → List β} {xs : List α}
    (h : ∀ x ∈ xs, (f x).Sublist (g x)) :
    xs.flatMap f = xs.flatMap g ↔ ∀ x ∈ xs, f x = g x := by
  refine ⟨fun he => ?_, List.flatMap_congr⟩
  induction xs with
  | nil => simp
  | cons x xs ih =>
    have hx := h x List.mem_cons_self
    have hxs : ∀ y ∈ xs, (f y).Sublist (g y) := fun y hy => h y (List.mem_cons_of_mem x hy)
    rw [List.flatMap_cons, List.flatMap_cons] at he
    have hlen := congrArg List.length he
    rw [List.length_append, List.length_append] at hlen
    have hfirst := hx.length_le
    have hothers := (sublist_flatMap hxs).length_le
    obtain ⟨hfx, hfxs⟩ := List.append_inj he (by omega)
    intro y hy
    rcases List.mem_cons.mp hy with rfl | hy
    · exact hfx
    · exact ih hxs hfxs y hy

/-! ### Expressions -/

namespace Expr

/-- **One node**: its calls are lost if it is erased.  Otherwise they are the node, if it
is a call, and the calls of its simplified parts. -/
theorem calls_simplify_eq (e : Expr) :
    e.simplify.value.calls =
      if e.erased then []
      else (if e.isCall then [e.simplify.value] else []) ++
        e.parts.flatMap fun part => part.simplify.value.calls := by
  have rebuilt : ∀ {e' : Expr}, e'.isCall = false →
      e'.calls = [] ++ e'.parts.flatMap calls := by
    intro e' h
    rw [calls_eq, h]
    rfl
  cases e with
  | number | string | bool | var | func | struct => rfl
  | binary op l r ty =>
    rw [value_simplify_binary, BinaryOp.calls_simplify?]
    simp [erased, isCall, parts]
  | unary op e ty =>
    rw [value_simplify_unary, UnaryOp.calls_fold?]
    simp [erased, isCall, parts]
  | array es ty =>
    rw [value_simplify_array, rebuilt rfl]
    simp [erased, isCall, parts, List.flatMap_map]
  | call f args ty =>
    rw [value_simplify_call, calls_eq]
    simp [erased, isCall, parts, List.flatMap_map]
  | member o field ty =>
    rw [value_simplify_member, rebuilt rfl]
    simp [erased, isCall, parts]
  | subscript a i ty =>
    rw [value_simplify_subscript, rebuilt rfl]
    simp [erased, isCall, parts]

/-- The calls of an expression, each in its simplified form. -/
theorem map_simplify_calls (e : Expr) :
    e.calls.map (·.simplify.value) =
      (if e.isCall then [e.simplify.value] else []) ++
        e.parts.flatMap fun part => part.calls.map (·.simplify.value) := by
  rw [calls_eq, List.map_append, List.map_flatMap]
  split <;> rfl

/-- **Simplifying adds no call** and leaves their order as it is. -/
theorem calls_simplify_sublist (e : Expr) :
    (e.simplify.value.calls).Sublist (e.calls.map (·.simplify.value)) := by
  induction e using parts_induction with
  | step e ih =>
    rw [calls_simplify_eq, map_simplify_calls]
    split
    · exact List.nil_sublist _
    · exact (List.Sublist.refl _).append (sublist_flatMap ih)

/-- **All calls survive simplifying**, in their order and each in its simplified form,
exactly if nothing within the expression is erased with a call in it. -/
theorem calls_simplify_eq_iff (e : Expr) :
    e.simplify.value.calls = e.calls.map (·.simplify.value) ↔ ∀ e' ∈ e.nested, ¬ e'.ErasesCall := by
  induction e using parts_induction with
  | step e ih =>
    have hnested : (∀ e' ∈ e.nested, ¬ e'.ErasesCall) ↔
        ¬ e.ErasesCall ∧ ∀ part ∈ e.parts, ∀ e' ∈ part.nested, ¬ e'.ErasesCall := by
      rw [nested_eq_cons]
      simp only [List.mem_cons, List.mem_flatMap]
      constructor
      · exact fun h => ⟨h e (.inl rfl), fun part hp e' he' => h e' (.inr ⟨part, hp, he'⟩)⟩
      · rintro ⟨hself, hparts⟩ e' (rfl | ⟨part, hp, he'⟩)
        · exact hself
        · exact hparts part hp e' he'
    rw [hnested]
    cases he : e.erased with
    | true =>
      rw [calls_simplify_eq, if_pos he, eq_comm, List.map_eq_nil_iff]
      constructor
      · intro hc
        refine ⟨fun h => h.2 hc, fun part hp => (ih part hp).mp ?_⟩
        have hpart := calls_of_part hp hc
        have hsub := part.calls_simplify_sublist
        rw [hpart] at hsub ⊢
        exact List.sublist_nil.mp hsub
      · intro h
        by_contra hc
        exact h.1 ⟨he, hc⟩
    | false =>
      have hself : ¬ e.ErasesCall := by
        rintro ⟨h, _⟩
        rw [he] at h
        cases h
      rw [calls_simplify_eq, if_neg (by simp [he]), map_simplify_calls, List.append_cancel_left_eq,
        flatMap_eq_iff_of_sublist fun part _ => part.calls_simplify_sublist]
      constructor
      · exact fun h => ⟨hself, fun part hp => (ih part hp).mp (h part hp)⟩
      · exact fun h part hp => (ih part hp).mpr (h.2 part hp)

end Expr

/-- `fn f(): number { return 1; } print 0 * f();`, with all spans left blank. -/
def erasingTree : List Tree.Stmt :=
  let blank : Span := ⟨.start, 0⟩
  let f : Tree.Name := ⟨"f", blank⟩
  [.declareFunction f [] (some (.named ⟨"number", blank⟩))
    ⟨[.ret (some (.number 1 blank)) blank], blank⟩ blank,
  .print (.binary .mul (.number 0 blank) (.call (.name f) [] blank) blank) blank]

def erasingProgram : Program where
  statements := [.declareFunction ⟨8⟩ [] [.ret (some (.number 1 .number))],
    .print (.binary .mul (.number 0 .number) (.call (.func ⟨8⟩ (.function [] .number)) [] .number)
      .number)]
  entities := Entities.initial.addFunction ⟨"f", ⟨[], .number⟩, false⟩

/-- There is a program in which a call is lost. -/
theorem exists_call_lost : analyze erasingTree = .ok erasingProgram ∧
    ∃ e ∈ erasingProgram.exprs, e.simplify.value.calls.length < e.calls.length := by
  refine ⟨rfl, .binary .mul (.number 0 .number)
    (.call (.func ⟨8⟩ (.function [] .number)) [] .number) .number, ?_, by decide⟩
  simp [erasingProgram, Program.exprs, Program.stmts, Stmt.nestedAll, Stmt.nested, Stmt.exprs,
    Expr.nested]

end TypedImp
