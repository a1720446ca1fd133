import TypedImp.Proofs.Meaning.Behavior

/-!
# What programs do

`Expr.eval` and `Stmt.run` give each expression and each statement a behavior.
Operands are evaluated from left to right; `||` and `&&` leave out the right operand
if the left one decides; the operators on numbers are those on `Float`, and `power`.  A number with
a fraction, or one out of range, is no position in an array and throws.

Two things are left to a `Machine`: what calls come to, and what a variable holds that
is declared without a value.  A call may print, change the store and throw.
`Machine.Respects` says that both go by the types of the tables.  Equality of values
that are neither numbers nor strings nor truth values is left to the machine too.

A target of an assignment is first evaluated to a `Place`, a variable or another value
with the way from there to the part that is meant.
-/

namespace TypedImp

open Behavior

structure Machine where
  /-- What a variable holds that is declared without a value. -/
  initial : VariableId → Value
  /-- What a call of a value with arguments can come to: a result or a message that is
  thrown, with an output and a store. -/
  call : Value → List Value → Store → Except String Value → List Value → Store → Prop
  /-- Equality of values other than numbers, strings and truth values. -/
  same : Value → Value → Bool

/-- A machine goes by the types of the tables. -/
structure Machine.Respects (m : Machine) (E : Entities) : Prop where
  initial : ∀ {id : VariableId} {ty : Ty}, E.HasVariable id ty → (m.initial id).HasTy E ty
  call : ∀ {f : Value} {args : List Value} {signature : Signature} {s : Store}
    {r : Except String Value} {out : List Value} {s' : Store},
    f.HasTy E signature.ty → List.Forall₂ (Value.HasTy E) args signature.params → s.Typed E →
    m.call f args s r out s' → s'.Typed E ∧ ∀ v, r = .ok v → v.HasTy E signature.result

/-! ### Operators -/

namespace BinaryOp

def onFloats (op : BinaryOp) (l r : Float) : Option Value :=
  match op with
  | add => some (.number (l + r))
  | sub => some (.number (l - r))
  | mul => some (.number (l * r))
  | div => some (.number (l / r))
  | pow => some (.number (power l r))
  | lt => some (.bool (l < r))
  | le => some (.bool (l ≤ r))
  | gt => some (.bool (l > r))
  | ge => some (.bool (l ≥ r))
  | eq => some (.bool (l == r))
  | ne => some (.bool (l != r))
  | or | and => none

def onStrings (op : BinaryOp) (l r : String) : Option Value :=
  match op with
  | add => some (.string (l ++ r))
  | lt => some (.bool (l < r))
  | le => some (.bool (l ≤ r))
  | gt => some (.bool (l > r))
  | ge => some (.bool (l ≥ r))
  | eq => some (.bool (l == r))
  | ne => some (.bool (l != r))
  | _ => none

def onBools (op : BinaryOp) (l r : Bool) : Option Value :=
  match op with
  | or => some (.bool (l || r))
  | and => some (.bool (l && r))
  | eq => some (.bool (l == r))
  | ne => some (.bool (l != r))
  | _ => none

/-- What the left operand decides alone. -/
def decide? (op : BinaryOp) (left : Value) : Option Value :=
  match op, left with
  | or, .bool true => some (.bool true)
  | and, .bool false => some (.bool false)
  | _, _ => none

end BinaryOp

def Machine.outcome? (m : Machine) (op : BinaryOp) (left right : Value) : Option Value :=
  match left, right with
  | .number l, .number r => op.onFloats l r
  | .string l, .string r => op.onStrings l r
  | .bool l, .bool r => op.onBools l r
  | l, r =>
    match op with
    | .eq => some (.bool (m.same l r))
    | .ne => some (.bool (!m.same l r))
    | _ => none

def UnaryOp.outcome? (op : UnaryOp) (operand : Value) : Option Value :=
  match op, operand with
  | neg, .number x => some (.number (-x))
  | not, .bool b => some (.bool (!b))
  | _, _ => none

/-! ### Parts of values -/

def Value.field? (name : String) : Value → Option Value
  | record _ fields => some (fields name)
  | _ => none

def slot? (vs : List Value) (x : Float) : Option (Fin vs.length) :=
  if h : 0 ≤ x ∧ x.floor == x ∧ x.toUInt64.toNat < vs.length then some ⟨_, h.2.2⟩ else none

namespace Behavior

def ofOption {α : Type} : Option α → Behavior α
  | some a => pure a
  | none => stuck

def throw {α : Type} (message : String) : Behavior α := done (.error (.throw message))

def slot (vs : List Value) (x : Float) : Behavior (Fin vs.length) :=
  match slot? vs x with
  | some i => pure i
  | none => throw "Index out of range"

def element : Value → Value → Behavior Value
  | .array vs, .number x => do
    let i ← slot vs x
    pure (vs.get i)
  | _, _ => stuck

end Behavior

/-- What a call can come to. -/
def Machine.answer (m : Machine) (f : Value) (args : List Value) : Behavior Value :=
  fun s r out s' => ∃ q, m.call f args s q out s' ∧ r = q.mapError .throw

/-! ### Expressions -/

mutual

/-- **The behavior of an expression.** -/
def Expr.eval (m : Machine) : Expr → Behavior Value
  | .number x _ => pure (.number x)
  | .string s _ => pure (.string s)
  | .bool b _ => pure (.bool b)
  | .var id _ => load id
  | .func id _ => pure (.func id)
  | .struct id _ => pure (.maker id)
  | .binary op l r _ => do
    let v ← l.eval m
    match op.decide? v with
    | some u => pure u
    | none => do
      let w ← r.eval m
      ofOption (m.outcome? op v w)
  | .unary op e _ => do
    let v ← e.eval m
    ofOption (op.outcome? v)
  | .array es _ => do
    let vs ← Expr.evalAll m es
    pure (.array vs)
  | .call f args _ => do
    let v ← f.eval m
    let vs ← Expr.evalAll m args
    m.answer v vs
  | .member o field _ => do
    let v ← o.eval m
    ofOption (v.field? field)
  | .subscript a i _ => do
    let v ← a.eval m
    let w ← i.eval m
    element v w

def Expr.evalAll (m : Machine) : List Expr → Behavior (List Value)
  | [] => pure []
  | e :: es => do
    let v ← e.eval m
    let vs ← Expr.evalAll m es
    pure (v :: vs)

end

/-! ### Places -/

/-- Where a value can be read and written. -/
inductive Place where
  | var (id : VariableId)
  /-- A value that no variable holds; what is written to it is lost. -/
  | temporary (value : Value)
  | field (whole : Place) (name : String)
  | element (whole : Place) (index : Float)

namespace Place

def read : Place → Behavior Value
  | var id => load id
  | temporary v => pure v
  | field p name => do
    let v ← p.read
    ofOption (v.field? name)
  | element p x => do
    let v ← p.read
    Behavior.element v (.number x)

def write : Place → Value → Behavior Unit
  | var id, v => save id v
  | temporary _, _ => pure ()
  | field p name, v => do
    match ← p.read with
    | .record id fields => p.write (.record id (Function.update fields name v))
    | _ => stuck
  | element p x, v => do
    match ← p.read with
    | .array vs => do
      let i ← slot vs x
      p.write (.array (vs.set i v))
    | _ => stuck

def change (p : Place) (f : Float → Float) : Behavior Unit := do
  match ← p.read with
  | .number x => p.write (.number (f x))
  | _ => stuck

end Place

def Expr.place (m : Machine) : Expr → Behavior Place
  | .var id _ => pure (.var id)
  | .member o field _ => do
    let p ← o.place m
    pure (.field p field)
  | .subscript a i _ => do
    let p ← a.place m
    match ← i.eval m with
    | .number x => pure (.element p x)
    | _ => stuck
  | e => do
    let v ← e.eval m
    pure (.temporary v)

/-! ### Statements -/

namespace Behavior

variable {α σ : Type}

def branch (test : Behavior Value) (c a : Behavior α) : Behavior α := do
  match ← test with
  | .bool true => c
  | .bool false => a
  | _ => stuck

/-- The body of a loop; `next` is the state for the turn that follows, if there is one. -/
def body (f : Behavior Unit) (next : σ) : Behavior (Option σ) :=
  handle f fun
    | .ok _ | .error .continueLoop => pure (some next)
    | .error .breakLoop => pure none
    | .error jump => done (.error jump)

def rescue (f : Behavior Unit) (handler : String → Behavior Unit) : Behavior Unit :=
  handle f fun
    | .error (.throw message) => handler message
    | r => done r

def receive (error : Option VariableId) (message : String) : Behavior Unit :=
  match error with
  | some id => save id (.string message)
  | none => pure ()

end Behavior

/-- Whether a range that ends with `high` goes as far as `x`. -/
def RangeOp.covers (op : RangeOp) (high x : Float) : Bool :=
  !decide (high < x) &&
    match op with
    | inclusive => x ≤ high
    | exclusive => x < high

def rangeTurn (id : VariableId) (op : RangeOp) (high : Float) (f : Behavior Unit) (x : Float) :
    Behavior (Option Float) :=
  if op.covers high x then do
    save id (.number x)
    body f (x + 1)
  else pure none

def collectionTurn (id : VariableId) (f : Behavior Unit) : List Value →
    Behavior (Option (List Value))
  | [] => pure none
  | v :: vs => do
    save id v
    body f vs

mutual

/-- **The behavior of a statement.** -/
def Stmt.run (m : Machine) : Stmt → Behavior Unit
  | .declareVariable id none => save id (m.initial id)
  | .declareVariable id (some e) => do
    let v ← e.eval m
    save id v
  | .declareFunction .. | .declareStruct .. | .declareClass .. => pure ()
  | .ifThen test c => branch (test.eval m) (Stmt.runAll m c) (pure ())
  | .ifElse test c a => branch (test.eval m) (Stmt.runAll m c) (Stmt.runAll m a)
  | .ifElseIf test c a => branch (test.eval m) (Stmt.runAll m c) (a.run m)
  | .whileLoop test ss =>
    loop (fun _ => branch (test.eval m) (body (Stmt.runAll m ss) ()) (pure none)) ()
  | .rangeLoop id low op high ss => do
    let l ← low.eval m
    let h ← high.eval m
    match l, h with
    | .number l, .number h => loop (rangeTurn id op h (Stmt.runAll m ss)) l
    | _, _ => stuck
  | .collectionLoop id e ss => do
    match ← e.eval m with
    | .array vs => loop (collectionTurn id (Stmt.runAll m ss)) vs
    | _ => stuck
  | .ret none => done (.error (.ret none))
  | .ret (some e) => do
    let v ← e.eval m
    done (.error (.ret (some v)))
  | .breakLoop => done (.error .breakLoop)
  | .continueLoop => done (.error .continueLoop)
  | .tryCatch ss error handler =>
    rescue (Stmt.runAll m ss) fun message => do
      receive error message
      Stmt.runAll m handler
  | .print e => do
    let v ← e.eval m
    emit v
  | .increment t => do
    let p ← t.place m
    p.change (· + 1)
  | .decrement t => do
    let p ← t.place m
    p.change (· - 1)
  | .assign t e => do
    let p ← t.place m
    let v ← e.eval m
    p.write v
  | .call e => do
    let _ ← e.eval m
    pure ()

/-- **The behavior of a list of statements**, one after another. -/
def Stmt.runAll (m : Machine) : List Stmt → Behavior Unit
  | [] => pure ()
  | s :: ss => do
    s.run m
    Stmt.runAll m ss

end

end TypedImp
