/-!
# Cursors

A cursor is a place in a source text: the characters still to read, and the
place as messages write it. Lines are counted by line feeds, columns by the
bytes of the UTF-8 encoding.
-/

namespace ImportAtlas.Source

structure Cursor where
  rest : List Char
  index : Nat
  line : Nat
  column : Nat
  deriving Inhabited

namespace Cursor

def start (text : List Char) : Cursor :=
  ⟨text, 0, 0, 0⟩

/-- The place after one more character; at the end of the text nothing moves. -/
def next (cursor : Cursor) : Cursor :=
  match cursor.rest with
  | [] => cursor
  | '\n' :: rest => ⟨rest, cursor.index + 1, cursor.line + 1, 0⟩
  | c :: rest =>
    ⟨rest, cursor.index + 1, cursor.line, cursor.column + c.utf8Size⟩

def advance (cursor : Cursor) : Nat → Cursor
  | 0 => cursor
  | count + 1 => cursor.next.advance count

def atEnd (cursor : Cursor) : Bool :=
  cursor.rest.isEmpty

def textUntil (first last : Cursor) : List Char :=
  first.rest.take (last.index - first.index)

end Cursor

end ImportAtlas.Source
