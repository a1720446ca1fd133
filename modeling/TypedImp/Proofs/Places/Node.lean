import TypedImp.Proofs.Token.Placed
import TypedImp.Tree

/-!
# The places of nodes

Every node of a parse tree has a span.  `Node.Sound cs n` says that the spans of `n` and of all
that is below it are right for the text `cs`: a span has characters, and the line and the column
of the first of them; a node holds the nodes below it, and these stand one behind the other.

`Span.Row cs lo hi ss` is the same for a list of spans between two offsets, whether they belong to
nodes or to tokens.  A parser passes such a row from left to right, so rows are laid end to end
(`Row.append`).  The span of a node that is made of a row goes from the first span of it to the
last one, which is what `Span.merge` gives for these two; the nodes below are some of the row, and
the tokens between them are left out (`Node.Sound.of_row`).
-/

namespace TypedImp

/-! ### Spans in a text -/

/-- **A span that is right for a text**: it has characters, all of them in the text, and the line
and the column of the first one. -/
structure Span.Sits (cs : List Char) (s : Span) : Prop where
  nonempty : s.start.offset < s.stop
  inside : s.stop ≤ cs.length
  start : s.start = Position.start.advance (cs.take s.start.offset)

/-- Spans one behind the other, between two offsets. -/
inductive Span.Row (cs : List Char) : Nat → Nat → List Span → Prop
  | nil {lo hi : Nat} (h : lo ≤ hi) : Row cs lo hi []
  | cons {lo hi : Nat} {s : Span} {ss : List Span} (hlo : lo ≤ s.start.offset) (hs : s.Sits cs)
      (h : Row cs s.stop hi ss) : Row cs lo hi (s :: ss)

namespace Span

variable {cs : List Char} {lo mid hi : Nat} {s : Span} {ss : List Span}

theorem Row.single (hlo : lo ≤ s.start.offset) (hs : s.Sits cs) (hhi : s.stop ≤ hi) :
    Row cs lo hi [s] :=
  .cons hlo hs (.nil hhi)

theorem Row.le (h : Row cs lo hi ss) : lo ≤ hi := by
  induction h with
  | nil h => exact h
  | cons hlo hs _ ih =>
    have hlt := hs.nonempty
    omega

/-- Rows laid end to end. -/
theorem Row.append {front back : List Span} (h : Row cs lo mid front) (g : Row cs mid hi back) :
    Row cs lo hi (front ++ back) := by
  induction h with
  | nil h =>
    cases g with
    | nil g => exact .nil (h.trans g)
    | cons hlo hs g => exact .cons (h.trans hlo) hs g
  | cons hlo hs _ ih => exact .cons hlo hs (ih g)

/-- What is between two places is between two others that are farther apart. -/
theorem Row.widen {lo' hi' : Nat} (h : Row cs lo hi ss) (hlo : lo' ≤ lo) (hhi : hi ≤ hi') :
    Row cs lo' hi' ss := by
  have hall := ((Row.nil hlo).append h).append (Row.nil hhi)
  simpa using hall

/-- Some spans of a row are a row. -/
theorem Row.sublist {part : List Span} (h : Row cs lo hi ss) (hsub : part.Sublist ss) :
    Row cs lo hi part := by
  induction hsub generalizing lo with
  | slnil => exact h
  | cons s _ ih =>
    cases h with
    | cons hlo hs h =>
      have hlt := hs.nonempty
      exact (ih h).widen (by omega) (Nat.le_refl hi)
  | cons_cons s _ ih =>
    cases h with
    | cons hlo hs h => exact .cons hlo hs (ih h)

theorem Row.sits (h : Row cs lo hi ss) : ∀ s ∈ ss, s.Sits cs := by
  induction h with
  | nil => simp
  | cons _ hs _ ih => exact List.forall_mem_cons.mpr ⟨hs, ih⟩

theorem Row.bounds (h : Row cs lo hi ss) : ∀ s ∈ ss, lo ≤ s.start.offset ∧ s.stop ≤ hi := by
  induction h with
  | nil => simp
  | cons hlo hs h ih =>
    have hlt := hs.nonempty
    refine List.forall_mem_cons.mpr ⟨⟨hlo, h.le⟩, fun s hs => ?_⟩
    have hbounds := ih s hs
    omega

theorem Row.pairwise (h : Row cs lo hi ss) :
    ss.Pairwise fun a b => a.stop ≤ b.start.offset := by
  induction h with
  | nil => exact .nil
  | cons _ _ h ih => exact .cons (fun b hb => (h.bounds b hb).1) ih

/-- A row ends with its last span. -/
theorem Row.tight {front : List Span} {b : Span} (h : Row cs lo hi (front ++ [b])) :
    Row cs lo b.stop (front ++ [b]) := by
  induction front generalizing lo with
  | nil =>
    cases h with
    | cons hlo hs _ => exact .single hlo hs (Nat.le_refl _)
  | cons s front ih =>
    cases h with
    | cons hlo hs h => exact .cons hlo hs (ih h)

/-- **The span of a row** is merged of the first and the last one, and the row is between the ends
of it. -/
theorem Row.merge {a b : Span} (h : Row cs lo hi ss) (ha : ss.head? = some a)
    (hb : ss.getLast? = some b) :
    Row cs lo hi [a.merge b] ∧ Row cs (a.merge b).start.offset (a.merge b).stop ss := by
  obtain ⟨others, rfl⟩ := List.head?_eq_some_iff.mp ha
  have hbmem := List.mem_of_getLast? hb
  obtain ⟨front, hfront⟩ := List.getLast?_eq_some_iff.mp hb
  have haSits := h.sits a List.mem_cons_self
  have hbSits := h.sits b hbmem
  have haBounds := h.bounds a List.mem_cons_self
  have hbBounds := h.bounds b hbmem
  have haLt := haSits.nonempty
  have hbLt := hbSits.nonempty
  have horder : a.start.offset ≤ b.start.offset ∧ a.stop ≤ b.stop := by
    rcases List.mem_cons.mp hbmem with rfl | hmem
    · exact ⟨Nat.le_refl _, Nat.le_refl _⟩
    · have hab := (List.pairwise_cons.mp h.pairwise).1 b hmem
      omega
  have hmerge : a.merge b = ⟨a.start, b.stop⟩ := by
    rw [Span.merge, if_neg (by omega), Nat.max_eq_right horder.2]
  rw [hmerge]
  refine ⟨.single haBounds.1 ⟨?_, hbSits.inside, haSits.start⟩ hbBounds.2, ?_⟩
  · show a.start.offset < b.stop
    omega
  · rw [hfront] at h
    have htight := h.tight
    rw [← hfront] at htight
    cases htight with
    | cons _ hs h => exact .cons (Nat.le_refl _) hs h

end Span

/-! ### Nodes -/

namespace Tree

inductive Node where
  | stmt (s : Stmt)
  | block (b : Block Stmt)
  | name (n : Name)
  | annotated (a : Annotated)
  | type (t : TypeExpr)
  | expr (e : Expr)

def TypeExpr.children : TypeExpr → List Node
  | named n => [.name n]
  | array element _ => [.type element]
  | function params result _ => params.map .type ++ [.type result]

def Expr.children : Expr → List Node
  | number .. | string .. | bool .. => []
  | name n => [.name n]
  | binary _ left right _ => [.expr left, .expr right]
  | unary _ operand _ => [.expr operand]
  | array elements _ => elements.map .expr
  | emptyArray element _ => [.type element]
  | call callee args _ => .expr callee :: args.map .expr
  | member object field _ => [.expr object, .name field]
  | subscript of index _ => [.expr of, .expr index]

def Stmt.children : Stmt → List Node
  | declareVariable name _ type initializer _ =>
    .name name :: (type.toList.map .type ++ initializer.toList.map .expr)
  | declareFunction name params result body _ =>
    .name name :: (params.map .annotated ++ (result.toList.map .type ++ [.block body]))
  | declareStruct name fields _ _ => .name name :: fields.map .annotated
  | ifThen test consequent _ => [.expr test, .block consequent]
  | ifElse test consequent alternate _ => [.expr test, .block consequent, .block alternate]
  | ifElseIf test consequent alternate _ => [.expr test, .block consequent, .stmt alternate]
  | whileLoop test body _ => [.expr test, .block body]
  | rangeLoop iterator low _ high body _ =>
    [.name iterator, .expr low, .expr high, .block body]
  | collectionLoop iterator collection body _ =>
    [.name iterator, .expr collection, .block body]
  | ret value _ => value.toList.map .expr
  | breakLoop _ | continueLoop _ => []
  | tryCatch body error handler _ => .block body :: (error.toList.map .name ++ [.block handler])
  | print value _ => [.expr value]
  | increment target _ | decrement target _ => [.expr target]
  | assign target value _ => [.expr target, .expr value]
  | call e _ => [.expr e]

namespace Node

def span : Node → Span
  | stmt s => s.span
  | block b => b.span
  | name n => n.span
  | annotated a => a.span
  | type t => t.span
  | expr e => e.span

/-- The nodes directly below a node, in the order in which they are written. -/
def children : Node → List Node
  | stmt s => s.children
  | block b => b.stmts.map stmt
  | name _ => []
  | annotated a => [.name a.name, .type a.type]
  | type t => t.children
  | expr e => e.children

inductive Within : Node → Node → Prop
  | refl (n : Node) : Within n n
  | child {m c n : Node} (hc : c ∈ n.children) (h : Within m c) : Within m n

/-- **All spans from a node on downwards are right.** -/
inductive Sound (cs : List Char) : Node → Prop
  | node {n : Node} (sits : n.span.Sits cs)
      (row : Span.Row cs n.span.start.offset n.span.stop (n.children.map span))
      (children : ∀ c ∈ n.children, Sound cs c) : Sound cs n

/-- Nodes one behind the other between two offsets, with all spans right. -/
structure Row (cs : List Char) (lo hi : Nat) (ns : List Node) : Prop where
  spans : Span.Row cs lo hi (ns.map span)
  sound : ∀ n ∈ ns, n.Sound cs

variable {cs : List Char} {lo mid hi : Nat} {n : Node} {ns : List Node}

theorem Sound.of_within (hn : n.Sound cs) {m : Node} (h : m.Within n) : m.Sound cs := by
  induction h with
  | refl => exact hn
  | child hc _ ih =>
    cases hn with
    | node _ _ children => exact ih (children _ hc)

theorem Row.nil (h : lo ≤ hi) : Row cs lo hi [] := ⟨.nil h, by simp⟩

theorem Row.append {front back : List Node} (h : Row cs lo mid front) (g : Row cs mid hi back) :
    Row cs lo hi (front ++ back) := by
  refine ⟨?_, fun n hn => ?_⟩
  · rw [List.map_append]
    exact h.spans.append g.spans
  · rcases List.mem_append.mp hn with hn | hn
    · exact h.sound n hn
    · exact g.sound n hn

theorem Row.widen {lo' hi' : Nat} (h : Row cs lo hi ns) (hlo : lo' ≤ lo) (hhi : hi ≤ hi') :
    Row cs lo' hi' ns :=
  ⟨h.spans.widen hlo hhi, h.sound⟩

/-- **A node made of a row.**  Its span goes from the first span of the row to the last, and the
nodes below it are among the row. -/
theorem Row.of_spans {ss : List Span} {a b : Span} (hrow : Span.Row cs lo hi ss)
    (ha : ss.head? = some a) (hb : ss.getLast? = some b) (hspan : n.span = a.merge b)
    (hsub : (n.children.map span).Sublist ss) (hchildren : ∀ c ∈ n.children, c.Sound cs) :
    Row cs lo hi [n] := by
  obtain ⟨hout, hin⟩ := hrow.merge ha hb
  rw [← hspan] at hout hin
  refine ⟨hout, fun m hm => ?_⟩
  rw [List.mem_singleton.mp hm]
  exact .node (hout.sits _ List.mem_cons_self) (hin.sublist hsub) hchildren

/-- What is passed behind a row. -/
theorem Row.skip {ss : List Span} (h : Row cs lo mid ns) (g : Span.Row cs mid hi ss) :
    Row cs lo hi ns :=
  h.widen (Nat.le_refl lo) g.le

/-- What is passed in front of a row. -/
theorem Row.behind {ss : List Span} (h : Row cs mid hi ns) (g : Span.Row cs lo mid ss) :
    Row cs lo hi ns :=
  h.widen g.le (Nat.le_refl hi)

/-- A node between two tokens. -/
theorem Row.of_tokens {mid' : Nat} {a b : Span} (ha : Span.Row cs lo mid [a])
    (hrow : Row cs mid mid' n.children) (hb : Span.Row cs mid' hi [b])
    (hspan : n.span = a.merge b) : Row cs lo hi [n] := by
  refine Row.of_spans ((ha.append hrow.spans).append hb) rfl List.getLast?_concat hspan ?_
    hrow.sound
  exact (List.sublist_append_right [a] _).trans (List.sublist_append_left _ _)

/-- A node that begins with a token and ends with a node. -/
theorem Row.of_last {a : Span} {l : Node} (ha : Span.Row cs lo mid [a])
    (hrow : Row cs mid hi n.children) (hl : n.children.getLast? = some l)
    (hspan : n.span = a.merge l.span) : Row cs lo hi [n] := by
  refine Row.of_spans (ha.append hrow.spans) rfl ?_ hspan ?_ hrow.sound
  · rw [List.getLast?_append, List.getLast?_map, hl]
    rfl
  · exact List.sublist_append_right _ _

/-- A node that begins with a node and ends with a token. -/
theorem Row.of_first {b : Span} {f : Node} (hrow : Row cs lo mid n.children)
    (hf : n.children.head? = some f) (hb : Span.Row cs mid hi [b])
    (hspan : n.span = f.span.merge b) : Row cs lo hi [n] := by
  refine Row.of_spans (hrow.spans.append hb) ?_ (by simp) hspan ?_ hrow.sound
  · simp [hf]
  · exact List.sublist_append_left _ _

/-- A node that begins and ends with nodes. -/
theorem Row.of_ends {f l : Node} (hrow : Row cs lo hi n.children)
    (hf : n.children.head? = some f) (hl : n.children.getLast? = some l)
    (hspan : n.span = f.span.merge l.span) : Row cs lo hi [n] := by
  refine Row.of_spans hrow.spans ?_ ?_ hspan (List.Sublist.refl _) hrow.sound
  · simp [hf]
  · simp [hl]

/-- A node that is no more than the one below it. -/
theorem Row.of_only {m : Node} (hrow : Row cs lo hi [m]) (hchildren : n.children = [m])
    (hspan : n.span = m.span) : Row cs lo hi [n] := by
  rw [← hchildren] at hrow
  refine hrow.of_ends (f := m) (l := m) ?_ ?_ ?_
  · rw [hchildren]
    rfl
  · rw [hchildren]
    rfl
  · rw [hspan, Span.merge_self]

/-- A node that is a token. -/
theorem Row.leaf (h : Span.Row cs lo hi [n.span]) (hchildren : n.children = []) :
    Row cs lo hi [n] :=
  .of_spans h rfl rfl (Span.merge_self n.span).symm (by simp [hchildren]) (by simp [hchildren])

end Node

end Tree

end TypedImp
