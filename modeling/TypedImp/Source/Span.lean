/-!
# Places in a source text

A source text is a list of characters.  A `Position` says where one character
stands: how many characters come before it, and its line and column, both
counted from one.  Only the newline starts a line; every other character, a tab
or a carriage return too, is one column.  `Position.advance` walks a position
over the characters it passes, so the position of a place is always the walk
over everything in front of it.

A `Span` is a stretch of text: the position of its first character and the
offset just behind its last one.  `Span.merge` is the smallest span that holds
two others; it keeps the position of the one that starts first.
-/

namespace TypedImp

/-- A place between two characters of a source text. -/
structure Position where
  /-- How many characters come before. -/
  offset : Nat
  line : Nat
  column : Nat
deriving DecidableEq, Repr, Inhabited

namespace Position

/-- The place in front of the first character. -/
def start : Position := ⟨0, 1, 1⟩

/-- The place behind the character `c`, when `p` is the place in front of it. -/
def next (p : Position) (c : Char) : Position :=
  if c = '\n' then ⟨p.offset + 1, p.line + 1, 1⟩ else ⟨p.offset + 1, p.line, p.column + 1⟩

/-- The place behind the characters `cs`, when `p` is the place in front of them. -/
def advance (p : Position) (cs : List Char) : Position := cs.foldl next p

@[simp] theorem advance_nil (p : Position) : p.advance [] = p := rfl

@[simp] theorem advance_cons (p : Position) (c : Char) (cs : List Char) :
    p.advance (c :: cs) = (p.next c).advance cs := rfl

theorem advance_append (p : Position) (cs ds : List Char) :
    p.advance (cs ++ ds) = (p.advance cs).advance ds := List.foldl_append

@[simp] theorem next_offset (p : Position) (c : Char) : (p.next c).offset = p.offset + 1 := by
  unfold next; split <;> rfl

@[simp] theorem advance_offset (p : Position) (cs : List Char) :
    (p.advance cs).offset = p.offset + cs.length := by
  induction cs generalizing p with
  | nil => rfl
  | cons c cs ih => rw [advance_cons, ih, next_offset, List.length_cons]; omega

end Position

/-- A stretch of a source text. -/
structure Span where
  start : Position
  /-- The offset just behind the last character. -/
  stop : Nat
deriving DecidableEq, Repr, Inhabited

namespace Span

/-- The span from one place to a later one. -/
def between (p q : Position) : Span := ⟨p, q.offset⟩

/-- The smallest span that holds both, at the position of the one that starts first. -/
def merge (a b : Span) : Span :=
  ⟨if b.start.offset < a.start.offset then b.start else a.start, max a.stop b.stop⟩

/-- A span is shown as the line and the column of its first character. -/
def text (s : Span) : String := toString s.start.line ++ ":" ++ toString s.start.column

theorem merge_self (s : Span) : s.merge s = s := by simp [merge]

end Span

/-- A cause together with the stretch of source text it is reported at. -/
structure Located (α : Type) where
  cause : α
  span : Span
deriving Repr

end TypedImp
