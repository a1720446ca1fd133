import TypedImp.Proofs.Simplify.Origin

/-!
# Where statements may stand

A jump out of a loop stands in a loop, `return` in the body of a function, and a struct outside
of one; what is written to is not a constant.  `Stmt.Placed E context s` says this of a statement
and all statements within it.  All that matters of what is around a statement is its `Context`:
a loop takes it over and sets one flag, and the body of a function starts anew.

* `Placed.simplify`: **simplifying keeps statements in their places.**  A node that is rebuilt
  keeps what it is for its parts (`Becomes.inner`), and a branch that is laid open was in the
  context of its conditional.
* `Placed.of_occurs` and the lemmas on `Context.of`: the flags of a context are what they say
  they are of the statements around.
-/

namespace TypedImp

/-- What is around a statement. -/
structure Context where
  /-- Whether there is a loop, in the same function. -/
  inLoop : Bool
  inFunction : Bool
deriving DecidableEq, Repr

def Context.top : Context := ⟨false, false⟩

/-! ### One statement -/

structure Expr.Writable (E : Entities) (e : Expr) : Prop where
  isPlace : e.isPlace = true
  row : ∀ id, e.var? = some id → ∃ row, E.vars[id.index]? = some row ∧ row.readOnly = false

theorem Expr.Writable.mono {E E' : Entities} (hk : E.Kept E') {e : Expr} (h : e.Writable E) :
    e.Writable E' := by
  refine ⟨h.isPlace, fun id hid => ?_⟩
  obtain ⟨row, hrow, hro⟩ := h.row id hid
  exact ⟨row, hk.vars hrow, hro⟩

theorem Expr.Writable.simplify {E : Entities} {e : Expr} (h : e.Writable E) :
    e.simplify.value.Writable E := by
  refine ⟨Expr.isPlace_simplify h.isPlace, fun id hid => h.row id ?_⟩
  rwa [Expr.var?_simplify h.isPlace] at hid

namespace Stmt

def isLoop : Stmt → Bool
  | whileLoop .. | rangeLoop .. | collectionLoop .. => true
  | _ => false

def isFunction : Stmt → Bool
  | declareFunction .. => true
  | _ => false

def isJump : Stmt → Bool
  | breakLoop | continueLoop => true
  | _ => false

def isReturn : Stmt → Bool
  | ret .. => true
  | _ => false

def isStruct : Stmt → Bool
  | declareStruct .. | declareClass .. => true
  | _ => false

def inner (s : Stmt) (context : Context) : Context :=
  if s.isFunction then ⟨false, true⟩
  else if s.isLoop then { context with inLoop := true }
  else context

/-- A statement may stand in a context, whatever its parts are. -/
structure Allowed (E : Entities) (context : Context) (s : Stmt) : Prop where
  jump : s.isJump = true → context.inLoop = true
  ret : s.isReturn = true → context.inFunction = true
  struct : s.isStruct = true → context.inFunction = false
  write : ∀ t, s.target? = some t → t.Writable E

/-- Most statements may stand anywhere. -/
theorem allowed_of_free {E : Entities} {context : Context} {s : Stmt} (hj : s.isJump = false)
    (hr : s.isReturn = false) (hs : s.isStruct = false) (ht : s.target? = none) :
    s.Allowed E context := by
  constructor <;> simp [hj, hr, hs, ht]

theorem allowed_of_jump {E : Entities} {context : Context} {s : Stmt}
    (h : context.inLoop = true) (hr : s.isReturn = false) (hs : s.isStruct = false)
    (ht : s.target? = none) : s.Allowed E context := by
  constructor <;> simp [hr, hs, ht, h]

theorem allowed_of_return {E : Entities} {context : Context} {s : Stmt}
    (h : context.inFunction = true) (hj : s.isJump = false) (hs : s.isStruct = false)
    (ht : s.target? = none) : s.Allowed E context := by
  constructor <;> simp [hj, hs, ht, h]

theorem allowed_of_struct {E : Entities} {context : Context} {s : Stmt}
    (h : context.inFunction = false) (hj : s.isJump = false) (hr : s.isReturn = false)
    (ht : s.target? = none) : s.Allowed E context := by
  constructor <;> simp [hj, hr, ht, h]

theorem allowed_of_target {E : Entities} {context : Context} {s : Stmt} {t : Expr}
    (hj : s.isJump = false) (hr : s.isReturn = false) (hs : s.isStruct = false)
    (ht : s.target? = some t) (h : t.Writable E) : s.Allowed E context := by
  constructor <;> simp [hj, hr, hs, ht, h]

theorem Allowed.mono {E E' : Entities} (hk : E.Kept E') {context : Context} {s : Stmt}
    (h : s.Allowed E context) : s.Allowed E' context :=
  ⟨h.jump, h.ret, h.struct, fun t ht => (h.write t ht).mono hk⟩

/-! ### All statements within -/

inductive Placed (E : Entities) : Context → Stmt → Prop
  | node {context : Context} {s : Stmt} (here : s.Allowed E context)
      (parts : ∀ part ∈ s.parts, Placed E (s.inner context) part) : Placed E context s

theorem Placed.leaf {E : Entities} {context : Context} {s : Stmt} (here : s.Allowed E context)
    (hparts : s.parts = []) : s.Placed E context :=
  .node here (by simp [hparts])

theorem Placed.mono {E E' : Entities} (hk : E.Kept E') {context : Context} {s : Stmt}
    (h : s.Placed E context) : s.Placed E' context := by
  induction h with
  | node here _ ih => exact .node (here.mono hk) ih

theorem Placed.here {E : Entities} {context : Context} {s : Stmt} (h : s.Placed E context) :
    s.Allowed E context := by
  cases h with
  | node here _ => exact here

theorem Placed.part {E : Entities} {context : Context} {s part : Stmt} (h : s.Placed E context)
    (hp : part ∈ s.parts) : part.Placed E (s.inner context) := by
  cases h with
  | node _ parts => exact parts part hp

/-! ### Simplifying -/

/-- A node that is rebuilt stays a loop, a function, or neither. -/
theorem Becomes.inner {s s' : Stmt} (h : s.Becomes s') (context : Context) :
    s'.inner context = s.inner context := by
  cases h <;> rfl

theorem Becomes.allowed {E : Entities} {context : Context} {s s' : Stmt} (h : s.Becomes s')
    (hs : s.Allowed E context) : s'.Allowed E context := by
  refine ⟨fun hj => hs.jump ?_, fun hr => hs.ret ?_, fun hd => hs.struct ?_, fun t' ht' => ?_⟩
  · cases h <;> exact hj
  · cases h <;> exact hr
  · cases h <;> exact hd
  · obtain ⟨t, ht, rfl⟩ := h.target? ht'
    exact (hs.write t ht).simplify

theorem inner_of_isConditional {s : Stmt} (h : s.isConditional = true) (context : Context) :
    s.inner context = context := by
  cases s with
  | ifThen | ifElse | ifElseIf => rfl
  | _ => cases h

/-- **Simplifying keeps statements in their places.** -/
theorem Placed.simplify {E : Entities} {context : Context} {s : Stmt} (h : s.Placed E context) :
    ∀ s' ∈ s.simplify.value, s'.Placed E context := by
  induction s using parts_induction generalizing context with
  | step s ih =>
    intro s' hs'
    rcases becomes_or_branch s s' hs' with hb | ⟨hc, part, hp, hs'⟩
    · refine .node (hb.allowed h.here) fun part' hp' => ?_
      obtain ⟨part, hp, hpart⟩ := hb.of_part hp'
      rw [hb.inner]
      exact ih part hp (h.part hp) part' hpart
    · -- A branch that is laid open was in the context of its conditional.
      have hpart := h.part hp
      rw [inner_of_isConditional hc] at hpart
      exact ih part hp hpart s' hs'

end Stmt

/-! ### What is around a statement -/

/-- A statement of a program, and the statements it is within, the innermost first. -/
inductive Program.Occurs (p : Program) : List Stmt → Stmt → Prop
  | top {s : Stmt} (h : s ∈ p.statements) : Occurs p [] s
  | inner {around : List Stmt} {whole s : Stmt} (h : Occurs p around whole)
      (hs : s ∈ whole.parts) : Occurs p (whole :: around) s

namespace Context

/-- The context within the given statements, the innermost first. -/
def of (around : List Stmt) : Context := around.foldr Stmt.inner top

theorem of_cons (s : Stmt) (around : List Stmt) : of (s :: around) = s.inner (of around) := rfl

theorem exists_function_of_inFunction {around : List Stmt}
    (h : (of around).inFunction = true) : ∃ s ∈ around, s.isFunction = true := by
  induction around with
  | nil => cases h
  | cons s around ih =>
    by_cases hs : s.isFunction = true
    · exact ⟨s, List.mem_cons_self, hs⟩
    · rw [of_cons, Stmt.inner, if_neg hs] at h
      have hrest : (of around).inFunction = true := by
        split at h <;> exact h
      obtain ⟨f, hf, hfn⟩ := ih hrest
      exact ⟨f, List.mem_cons_of_mem s hf, hfn⟩

theorem not_function_of_inFunction {around : List Stmt}
    (h : (of around).inFunction = false) : ∀ s ∈ around, s.isFunction = false := by
  induction around with
  | nil => simp
  | cons s around ih =>
    by_cases hs : s.isFunction = true
    · rw [of_cons, Stmt.inner, if_pos hs] at h
      cases h
    · rw [of_cons, Stmt.inner, if_neg hs] at h
      have hrest : (of around).inFunction = false := by
        split at h <;> exact h
      intro x hx
      rcases List.mem_cons.mp hx with rfl | hx
      · exact Bool.eq_false_iff.mpr hs
      · exact ih hrest x hx

/-- A loop that is around, with no function in front of it. -/
theorem exists_loop_of_inLoop {around : List Stmt} (h : (of around).inLoop = true) :
    ∃ front loop back, around = front ++ loop :: back ∧ loop.isLoop = true ∧
      ∀ s ∈ front, s.isFunction = false := by
  induction around with
  | nil => cases h
  | cons s around ih =>
    by_cases hf : s.isFunction = true
    · rw [of_cons, Stmt.inner, if_pos hf] at h
      cases h
    · by_cases hl : s.isLoop = true
      · exact ⟨[], s, around, rfl, hl, by simp⟩
      · rw [of_cons, Stmt.inner, if_neg hf, if_neg hl] at h
        obtain ⟨front, loop, back, rfl, hloop, hfront⟩ := ih h
        refine ⟨s :: front, loop, back, rfl, hloop, fun x hx => ?_⟩
        rcases List.mem_cons.mp hx with rfl | hx
        · exact Bool.eq_false_iff.mpr hf
        · exact hfront x hx

end Context

namespace Program

def Placed (p : Program) : Prop := ∀ s ∈ p.statements, s.Placed p.entities .top

theorem Placed.of_occurs {p : Program} (hp : p.Placed) {around : List Stmt} {s : Stmt}
    (h : p.Occurs around s) : s.Placed p.entities (.of around) := by
  induction h with
  | top h => exact hp _ h
  | inner _ hs ih => exact ih.part hs

theorem Placed.simplify {p : Program} (hp : p.Placed) : p.simplify.value.Placed := by
  intro s' hs'
  obtain ⟨s, hs, hs'⟩ := Stmt.mem_simplifyAll.mp hs'
  exact (hp s hs).simplify s' hs'

end Program

end TypedImp
