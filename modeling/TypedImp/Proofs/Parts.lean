import TypedImp.Program.Basic

/-!
# The parts of a program

Expressions and statements are trees whose nodes hold lists of trees.
`Expr.induction` and `Stmt.induction` are the induction over such a tree: what is
to be shown of a node may be assumed of every member of the lists it holds.

`nested` lists a tree with all trees inside it.  `Program.stmts` and
`Program.exprs` are the statements and the expressions of a program at any depth,
the bodies of functions included.  `mem_nested_iff` goes down one level.
-/

namespace TypedImp

/-! ### Expressions -/

@[induction_eliminator]
theorem Expr.induction {P : Expr → Prop}
    (number : ∀ x ty, P (.number x ty)) (string : ∀ s ty, P (.string s ty))
    (bool : ∀ b ty, P (.bool b ty)) (var : ∀ id ty, P (.var id ty))
    (func : ∀ id ty, P (.func id ty)) (struct : ∀ id ty, P (.struct id ty))
    (binary : ∀ op l r ty, P l → P r → P (.binary op l r ty))
    (unary : ∀ op e ty, P e → P (.unary op e ty))
    (array : ∀ es ty, (∀ e ∈ es, P e) → P (.array es ty))
    (call : ∀ f args ty, P f → (∀ e ∈ args, P e) → P (.call f args ty))
    (member : ∀ o field ty, P o → P (.member o field ty))
    (subscript : ∀ a i ty, P a → P i → P (.subscript a i ty)) (e : Expr) : P e :=
  @Expr.rec P (fun es => ∀ e ∈ es, P e) number string bool var func struct binary unary array call
    member subscript (by simp) (fun _ _ he hes => by simpa using ⟨he, hes⟩) e

namespace Expr

def isPlace : Expr → Bool
  | var .. | member .. | subscript .. => true
  | _ => false

def isCall : Expr → Bool
  | call .. => true
  | _ => false

def parts : Expr → List Expr
  | binary _ l r _ => [l, r]
  | unary _ e _ => [e]
  | array es _ => es
  | call f args _ => f :: args
  | member o _ _ => [o]
  | subscript a i _ => [a, i]
  | _ => []

mutual

/-- An expression and all expressions within it. -/
def nested : Expr → List Expr
  | number x ty => [.number x ty]
  | string s ty => [.string s ty]
  | bool b ty => [.bool b ty]
  | var id ty => [.var id ty]
  | func id ty => [.func id ty]
  | struct id ty => [.struct id ty]
  | binary op l r ty => .binary op l r ty :: (l.nested ++ r.nested)
  | unary op e ty => .unary op e ty :: e.nested
  | array es ty => .array es ty :: nestedAll es
  | call f args ty => .call f args ty :: (f.nested ++ nestedAll args)
  | member o field ty => .member o field ty :: o.nested
  | subscript a i ty => .subscript a i ty :: (a.nested ++ i.nested)

def nestedAll : List Expr → List Expr
  | [] => []
  | e :: es => e.nested ++ nestedAll es

end

theorem nestedAll_eq_flatMap (es : List Expr) : nestedAll es = es.flatMap nested := by
  induction es with
  | nil => rfl
  | cons e es ih => rw [nestedAll, ih, List.flatMap_cons]

theorem nested_eq_cons (e : Expr) : e.nested = e :: e.parts.flatMap nested := by
  cases e <;> simp [nested, parts, nestedAll_eq_flatMap]

theorem mem_nested_self (e : Expr) : e ∈ e.nested := by
  rw [nested_eq_cons]
  exact List.mem_cons_self

theorem mem_nested_iff {e whole : Expr} :
    e ∈ whole.nested ↔ e = whole ∨ ∃ part ∈ whole.parts, e ∈ part.nested := by
  rw [nested_eq_cons, List.mem_cons, List.mem_flatMap]

theorem mem_nested_of_part {e part whole : Expr} (hp : part ∈ whole.parts)
    (he : e ∈ part.nested) : e ∈ whole.nested :=
  mem_nested_iff.mpr (.inr ⟨part, hp, he⟩)

/-- The same induction without a case distinction. -/
theorem parts_induction {P : Expr → Prop} (step : ∀ e : Expr, (∀ part ∈ e.parts, P part) → P e)
    (e : Expr) : P e := by
  induction e with
  | number | string | bool | var | func | struct => exact step _ (by simp [parts])
  | binary op l r ty hl hr => exact step _ (by simpa [parts] using ⟨hl, hr⟩)
  | unary op e ty ih => exact step _ (by simpa [parts] using ih)
  | array es ty ih => exact step _ ih
  | call f args ty hf hargs => exact step _ (by simpa [parts] using ⟨hf, hargs⟩)
  | member o field ty ih => exact step _ (by simpa [parts] using ih)
  | subscript a i ty ha hi => exact step _ (by simpa [parts] using ⟨ha, hi⟩)

/-- What passes from every expression to the expressions directly below it passes
to all expressions within it. -/
theorem forall_nested {P : Expr → Prop} (down : ∀ e, P e → ∀ part ∈ e.parts, P part) {e : Expr}
    (he : P e) : ∀ e' ∈ e.nested, P e' := by
  induction e using parts_induction with
  | step e ih =>
    intro e' he'
    rcases mem_nested_iff.mp he' with rfl | ⟨part, hp, he'⟩
    · exact he
    · exact ih part hp (down e he part hp) e' he'

end Expr

/-! ### Statements -/

@[induction_eliminator]
theorem Stmt.induction {P : Stmt → Prop}
    (declareVariable : ∀ id e, P (.declareVariable id e))
    (declareFunction : ∀ id params body, (∀ s ∈ body, P s) → P (.declareFunction id params body))
    (declareStruct : ∀ id, P (.declareStruct id)) (declareClass : ∀ id, P (.declareClass id))
    (ifThen : ∀ test c, (∀ s ∈ c, P s) → P (.ifThen test c))
    (ifElse : ∀ test c a, (∀ s ∈ c, P s) → (∀ s ∈ a, P s) → P (.ifElse test c a))
    (ifElseIf : ∀ test c a, (∀ s ∈ c, P s) → P a → P (.ifElseIf test c a))
    (whileLoop : ∀ test body, (∀ s ∈ body, P s) → P (.whileLoop test body))
    (rangeLoop : ∀ id low op high body, (∀ s ∈ body, P s) → P (.rangeLoop id low op high body))
    (collectionLoop : ∀ id e body, (∀ s ∈ body, P s) → P (.collectionLoop id e body))
    (ret : ∀ e, P (.ret e)) (breakLoop : P .breakLoop) (continueLoop : P .continueLoop)
    (tryCatch : ∀ body error handler, (∀ s ∈ body, P s) → (∀ s ∈ handler, P s) →
      P (.tryCatch body error handler))
    (print : ∀ e, P (.print e)) (increment : ∀ e, P (.increment e))
    (decrement : ∀ e, P (.decrement e)) (assign : ∀ t e, P (.assign t e))
    (call : ∀ e, P (.call e)) (s : Stmt) : P s :=
  @Stmt.rec P (fun ss => ∀ s ∈ ss, P s) declareVariable declareFunction declareStruct declareClass
    ifThen ifElse ifElseIf whileLoop rangeLoop collectionLoop ret breakLoop continueLoop tryCatch
    print increment decrement assign call (by simp) (fun _ _ hs hss => by simpa using ⟨hs, hss⟩) s

namespace Stmt

def exprs : Stmt → List Expr
  | declareVariable _ e | ret e => e.toList
  | ifThen e _ | ifElse e _ _ | ifElseIf e _ _ | whileLoop e _ | collectionLoop _ e _
  | print e | increment e | decrement e | call e => [e]
  | rangeLoop _ low _ high _ => [low, high]
  | assign t e => [t, e]
  | _ => []

def parts : Stmt → List Stmt
  | declareFunction _ _ body | ifThen _ body | whileLoop _ body | rangeLoop _ _ _ _ body
  | collectionLoop _ _ body => body
  | ifElse _ c a => c ++ a
  | ifElseIf _ c a => c ++ [a]
  | tryCatch body _ handler => body ++ handler
  | _ => []

mutual

def nested : Stmt → List Stmt
  | declareVariable id e => [.declareVariable id e]
  | declareFunction id params body => .declareFunction id params body :: nestedAll body
  | declareStruct id => [.declareStruct id]
  | declareClass id => [.declareClass id]
  | ifThen test c => .ifThen test c :: nestedAll c
  | ifElse test c a => .ifElse test c a :: (nestedAll c ++ nestedAll a)
  | ifElseIf test c a => .ifElseIf test c a :: (nestedAll c ++ a.nested)
  | whileLoop test body => .whileLoop test body :: nestedAll body
  | rangeLoop id low op high body => .rangeLoop id low op high body :: nestedAll body
  | collectionLoop id e body => .collectionLoop id e body :: nestedAll body
  | ret e => [.ret e]
  | breakLoop => [.breakLoop]
  | continueLoop => [.continueLoop]
  | tryCatch body error handler =>
    .tryCatch body error handler :: (nestedAll body ++ nestedAll handler)
  | print e => [.print e]
  | increment e => [.increment e]
  | decrement e => [.decrement e]
  | assign t e => [.assign t e]
  | call e => [.call e]

def nestedAll : List Stmt → List Stmt
  | [] => []
  | s :: ss => s.nested ++ nestedAll ss

end

theorem nestedAll_eq_flatMap (ss : List Stmt) : nestedAll ss = ss.flatMap nested := by
  induction ss with
  | nil => rfl
  | cons s ss ih => rw [nestedAll, ih, List.flatMap_cons]

theorem nested_eq_cons (s : Stmt) : s.nested = s :: s.parts.flatMap nested := by
  cases s <;> simp [nested, parts, nestedAll_eq_flatMap]

theorem mem_nested_self (s : Stmt) : s ∈ s.nested := by
  rw [nested_eq_cons]
  exact List.mem_cons_self

theorem mem_nested_iff {s whole : Stmt} :
    s ∈ whole.nested ↔ s = whole ∨ ∃ part ∈ whole.parts, s ∈ part.nested := by
  rw [nested_eq_cons, List.mem_cons, List.mem_flatMap]

theorem mem_nestedAll {s : Stmt} {ss : List Stmt} :
    s ∈ nestedAll ss ↔ ∃ whole ∈ ss, s ∈ whole.nested := by
  rw [nestedAll_eq_flatMap, List.mem_flatMap]

theorem mem_nested_of_part {s part whole : Stmt} (hp : part ∈ whole.parts)
    (hs : s ∈ part.nested) : s ∈ whole.nested :=
  mem_nested_iff.mpr (.inr ⟨part, hp, hs⟩)

/-- The same induction without a case distinction. -/
theorem parts_induction {P : Stmt → Prop} (step : ∀ s : Stmt, (∀ part ∈ s.parts, P part) → P s)
    (s : Stmt) : P s := by
  induction s with
  | declareFunction _ _ _ ih | ifThen _ _ ih | whileLoop _ _ ih | rangeLoop _ _ _ _ _ ih
  | collectionLoop _ _ _ ih => exact step _ ih
  | ifElse _ c a ihc iha | tryCatch c _ a ihc iha =>
    refine step _ fun part hp => ?_
    rcases List.mem_append.mp hp with hp | hp
    · exact ihc part hp
    · exact iha part hp
  | ifElseIf _ c a ihc iha =>
    refine step _ fun part hp => ?_
    rcases List.mem_append.mp hp with hp | hp
    · exact ihc part hp
    · rw [List.mem_singleton.mp hp]
      exact iha
  | _ => exact step _ (by simp [parts])

/-- What passes from every statement to the statements directly below it passes to
all statements within it. -/
theorem forall_nested {P : Stmt → Prop} (down : ∀ s, P s → ∀ part ∈ s.parts, P part) {s : Stmt}
    (hs : P s) : ∀ s' ∈ s.nested, P s' := by
  induction s using parts_induction with
  | step s ih =>
    intro s' hs'
    rcases mem_nested_iff.mp hs' with rfl | ⟨part, hp, hs'⟩
    · exact hs
    · exact ih part hp (down s hs part hp) s' hs'

theorem mem_nested_trans {s s' whole : Stmt} (hs : s ∈ whole.nested) (hs' : s' ∈ s.nested) :
    s' ∈ whole.nested := by
  refine forall_nested (P := fun x => ∀ y ∈ x.nested, y ∈ whole.nested) ?_ (fun _ h => h)
    s hs s' hs'
  exact fun x hx part hp y hy => hx y (mem_nested_of_part hp hy)

/-- One property holds of a statement and all statements within it, and another one of all
expressions in these. -/
def Throughout (P : Stmt → Prop) (Q : Expr → Prop) (s : Stmt) : Prop :=
  ∀ s' ∈ s.nested, P s' ∧ ∀ e ∈ s'.exprs, ∀ e' ∈ e.nested, Q e'

namespace Throughout

variable {P P' : Stmt → Prop} {Q Q' : Expr → Prop} {s : Stmt}

theorem self (h : s.Throughout P Q) : P s := (h s s.mem_nested_self).1

theorem expr (h : s.Throughout P Q) {e : Expr} (he : e ∈ s.exprs) : ∀ e' ∈ e.nested, Q e' :=
  (h s s.mem_nested_self).2 e he

theorem part (h : s.Throughout P Q) {part : Stmt} (hp : part ∈ s.parts) : part.Throughout P Q :=
  fun s' hs' => h s' (mem_nested_of_part hp hs')

theorem of_parts (hs : P s) (hexprs : ∀ e ∈ s.exprs, ∀ e' ∈ e.nested, Q e')
    (hparts : ∀ part ∈ s.parts, part.Throughout P Q) : s.Throughout P Q := by
  intro s' hs'
  rcases mem_nested_iff.mp hs' with rfl | ⟨part, hp, hs'⟩
  · exact ⟨hs, hexprs⟩
  · exact hparts part hp s' hs'

theorem mono (h : s.Throughout P Q) (hP : ∀ s, P s → P' s) (hQ : ∀ e, Q e → Q' e) :
    s.Throughout P' Q' :=
  fun s' hs' => ⟨hP s' (h s' hs').1, fun e he e' he' => hQ e' ((h s' hs').2 e he e' he')⟩

end Throughout

/-! ### Other expressions in their places -/

section

variable (f : Expr → Expr)

mutual

def mapExprs : Stmt → Stmt
  | declareVariable id e => .declareVariable id (e.map f)
  | declareFunction id params body => .declareFunction id params (mapExprsAll body)
  | declareStruct id => .declareStruct id
  | declareClass id => .declareClass id
  | ifThen test c => .ifThen (f test) (mapExprsAll c)
  | ifElse test c a => .ifElse (f test) (mapExprsAll c) (mapExprsAll a)
  | ifElseIf test c a => .ifElseIf (f test) (mapExprsAll c) a.mapExprs
  | whileLoop test body => .whileLoop (f test) (mapExprsAll body)
  | rangeLoop id low op high body => .rangeLoop id (f low) op (f high) (mapExprsAll body)
  | collectionLoop id e body => .collectionLoop id (f e) (mapExprsAll body)
  | ret e => .ret (e.map f)
  | breakLoop => .breakLoop
  | continueLoop => .continueLoop
  | tryCatch body error handler => .tryCatch (mapExprsAll body) error (mapExprsAll handler)
  | print e => .print (f e)
  | increment e => .increment (f e)
  | decrement e => .decrement (f e)
  | assign t e => .assign (f t) (f e)
  | call e => .call (f e)

def mapExprsAll : List Stmt → List Stmt
  | [] => []
  | s :: ss => s.mapExprs :: mapExprsAll ss

end

end

variable {f : Expr → Expr}

theorem mapExprsAll_eq_map (ss : List Stmt) : mapExprsAll f ss = ss.map (mapExprs f) := by
  induction ss with
  | nil => rfl
  | cons s ss ih => rw [mapExprsAll, ih, List.map_cons]

theorem exprs_mapExprs (s : Stmt) : (s.mapExprs f).exprs = s.exprs.map f := by
  cases s with
  | declareVariable id e | ret e => cases e <;> rfl
  | _ => rfl

theorem parts_mapExprs (s : Stmt) : (s.mapExprs f).parts = s.parts.map (mapExprs f) := by
  cases s <;> simp [mapExprs, parts, mapExprsAll_eq_map]

theorem isConditional_mapExprs (s : Stmt) : (s.mapExprs f).isConditional = s.isConditional := by
  cases s <;> rfl

theorem nested_mapExprs (s : Stmt) : (s.mapExprs f).nested = s.nested.map (mapExprs f) := by
  induction s using parts_induction with
  | step s ih =>
    rw [nested_eq_cons, nested_eq_cons s, parts_mapExprs, List.map_cons, List.map_flatMap,
      List.flatMap_map, List.flatMap_def, List.flatMap_def, List.map_congr_left ih]

/-- Nothing changes where every expression stays as it is. -/
theorem mapExprs_eq_self {s : Stmt} (h : ∀ s' ∈ s.nested, ∀ e ∈ s'.exprs, f e = e) :
    s.mapExprs f = s := by
  have hall {ss : List Stmt} (h : ∀ s ∈ ss, s.mapExprs f = s) : mapExprsAll f ss = ss := by
    rw [mapExprsAll_eq_map, List.map_congr_left h, List.map_id'']
    exact fun _ => rfl
  induction s using parts_induction with
  | step s ih =>
    have hexprs := h s s.mem_nested_self
    have hparts : ∀ part ∈ s.parts, part.mapExprs f = part :=
      fun part hp => ih part hp fun s' hs' => h s' (mem_nested_of_part hp hs')
    cases s with
    | declareVariable id e | ret e => cases e <;> simp_all [mapExprs, exprs]
    | _ => simp_all [mapExprs, exprs, parts]

end Stmt

/-! ### Programs -/

def Program.stmts (p : Program) : List Stmt := Stmt.nestedAll p.statements

def Program.exprs (p : Program) : List Expr :=
  p.stmts.flatMap fun s => s.exprs.flatMap Expr.nested

theorem Program.mem_stmts_of_nested {p : Program} {s s' : Stmt} (hs : s ∈ p.stmts)
    (hs' : s' ∈ s.nested) : s' ∈ p.stmts := by
  obtain ⟨whole, hw, hs⟩ := Stmt.mem_nestedAll.mp hs
  exact Stmt.mem_nestedAll.mpr ⟨whole, hw, Stmt.mem_nested_trans hs hs'⟩

theorem Program.mem_exprs_iff {p : Program} {e : Expr} :
    e ∈ p.exprs ↔ ∃ s ∈ p.stmts, ∃ whole ∈ s.exprs, e ∈ whole.nested := by
  simp only [Program.exprs, List.mem_flatMap]

end TypedImp
