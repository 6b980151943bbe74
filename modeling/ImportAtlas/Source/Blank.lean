/-!
# Blank characters

What may stand between two tokens, and what ends a line. No token holds the
character with number zero, so a text is read as if it ended there.
-/

namespace ImportAtlas.Source

def isAsciiBlank (c : Char) : Bool :=
  let n := c.toNat
  (9 ≤ n && n ≤ 13) || n == 32

/-- Blank characters of the script languages, the byte order mark and
zero-width spaces included. -/
def isBlank (c : Char) : Bool :=
  let n := c.toNat
  isAsciiBlank c || n == 0xA0 || n == 0x1680 || (0x2000 ≤ n && n ≤ 0x200B) ||
    n == 0x2028 ||
    n == 0x2029 || n == 0x202F || n == 0x205F || n == 0x2060 || n == 0x3000 ||
    n == 0xFEFF

def isLineBreak (c : Char) : Bool :=
  c == '\n' || c.toNat == 0x2028 || c.toNat == 0x2029

def isNull (c : Char) : Bool :=
  c.toNat == 0

def countWhileFrom (holds : Char → Bool) : Nat → List Char → Nat
  | count, [] => count
  | count, c :: rest =>
    if holds c then countWhileFrom holds (count + 1) rest else count

def countWhile (holds : Char → Bool) (text : List Char) : Nat :=
  countWhileFrom holds 0 text

end ImportAtlas.Source
