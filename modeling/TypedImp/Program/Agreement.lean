import TypedImp.Program.Basic

/-!
# Agreement of programs

Two programs agree if they have the same form throughout and the same tables.
Number literals are compared as numbers: `0` agrees with `-0`, and a literal that
is not a number agrees with nothing, not even with itself.  A program without
such literals agrees with itself.
-/

namespace TypedImp

mutual

def Expr.agrees : Expr → Expr → Bool
  | .number a t, .number b u => a == b && t == u
  | .string a t, .string b u => a == b && t == u
  | .bool a t, .bool b u => a == b && t == u
  | .var a t, .var b u => a == b && t == u
  | .func a t, .func b u => a == b && t == u
  | .struct a t, .struct b u => a == b && t == u
  | .binary op l r t, .binary op' l' r' u => op == op' && l.agrees l' && r.agrees r' && t == u
  | .unary op e t, .unary op' e' u => op == op' && e.agrees e' && t == u
  | .array es t, .array es' u => Expr.agreeAll es es' && t == u
  | .call f es t, .call f' es' u => f.agrees f' && Expr.agreeAll es es' && t == u
  | .member e f t, .member e' f' u => e.agrees e' && f == f' && t == u
  | .subscript a i t, .subscript a' i' u => a.agrees a' && i.agrees i' && t == u
  | _, _ => false

def Expr.agreeAll : List Expr → List Expr → Bool
  | [], [] => true
  | e :: es, f :: fs => e.agrees f && Expr.agreeAll es fs
  | _, _ => false

end

def Expr.optionsAgree : Option Expr → Option Expr → Bool
  | none, none => true
  | some e, some f => e.agrees f
  | _, _ => false

mutual

def Stmt.agrees : Stmt → Stmt → Bool
  | .declareVariable i e, .declareVariable j f => i == j && Expr.optionsAgree e f
  | .declareFunction i ps b, .declareFunction j qs c => i == j && ps == qs && Stmt.agreeAll b c
  | .declareStruct i, .declareStruct j => i == j
  | .declareClass i, .declareClass j => i == j
  | .ifThen t c, .ifThen t' c' => t.agrees t' && Stmt.agreeAll c c'
  | .ifElse t c a, .ifElse t' c' a' => t.agrees t' && Stmt.agreeAll c c' && Stmt.agreeAll a a'
  | .ifElseIf t c a, .ifElseIf t' c' a' => t.agrees t' && Stmt.agreeAll c c' && a.agrees a'
  | .whileLoop t b, .whileLoop t' b' => t.agrees t' && Stmt.agreeAll b b'
  | .rangeLoop i l op h b, .rangeLoop j l' op' h' b' =>
    i == j && l.agrees l' && op == op' && h.agrees h' && Stmt.agreeAll b b'
  | .collectionLoop i c b, .collectionLoop j c' b' =>
    i == j && c.agrees c' && Stmt.agreeAll b b'
  | .ret e, .ret f => Expr.optionsAgree e f
  | .breakLoop, .breakLoop => true
  | .continueLoop, .continueLoop => true
  | .tryCatch b e h, .tryCatch b' e' h' => Stmt.agreeAll b b' && e == e' && Stmt.agreeAll h h'
  | .print e, .print f => e.agrees f
  | .increment e, .increment f => e.agrees f
  | .decrement e, .decrement f => e.agrees f
  | .assign t s, .assign t' s' => t.agrees t' && s.agrees s'
  | .call e, .call f => e.agrees f
  | _, _ => false

def Stmt.agreeAll : List Stmt → List Stmt → Bool
  | [], [] => true
  | s :: ss, t :: ts => s.agrees t && Stmt.agreeAll ss ts
  | _, _ => false

end

def Program.agrees (p q : Program) : Bool :=
  Stmt.agreeAll p.statements q.statements && p.entities == q.entities

end TypedImp
