import ImportAtlas.Text.Hexadecimal

/-!
# Quoted texts

A quoted text ends at its closing quote. Inside it a backslash begins an
escape, and some characters may not stand for themselves.
-/

namespace ImportAtlas

/-- The first halves of the pairs that write code points beyond the first
plane. -/
def isLeadingHalf (code : Nat) : Bool :=
  0xD800 ≤ code && code < 0xDC00

def isTrailingHalf (code : Nat) : Bool :=
  0xDC00 ≤ code && code < 0xE000

structure Quoting where
  /-- Reads an escape after its backslash: what it stands for, and the text
  after it. -/
  readEscape? : List Char → Option (List Char × List Char)
  isPlain : Char → Bool

namespace Quoting

/-- Reads up to the closing quote; the budget is the text itself. -/
def readWithin? (quoting : Quoting) (quote : Char) :
    List Char → List Char → Option (List Char × List Char)
  | _, [] => none
  | [], _ => none
  | _ :: budget, c :: rest =>
    if c == quote then some ([], rest)
    else if c == '\\' then
      match quoting.readEscape? rest with
      | none => none
      | some (meant, after) =>
        (quoting.readWithin? quote budget after).map fun (chars, remaining) =>
          (meant ++ chars, remaining)
    else if quoting.isPlain c then
      (quoting.readWithin? quote budget rest).map fun (chars, remaining) =>
        (c :: chars, remaining)
    else none

def read? (quoting : Quoting) (quote : Char) (text : List Char) :
    Option (String × List Char) :=
  (quoting.readWithin? quote text text).map fun (chars, rest) =>
    (String.ofList chars, rest)

end Quoting

end ImportAtlas
