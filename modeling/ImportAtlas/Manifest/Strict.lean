import ImportAtlas.Manifest.Value

/-!
# Strict JSON

The spelling of plain JSON. Numbers are binary64, and at most 127 lists and
objects may lie within each other.
-/

namespace ImportAtlas.Manifest.Strict

def isSpace (c : Char) : Bool :=
  c == ' ' || c == '\t' || c == '\n' || c == '\r'

/-- Reads a character by its code in four digits; codes beyond the first plane
come in pairs. -/
def readCode? (text : List Char) : Option (Char × List Char) :=
  match readHexDigits? 4 0 text with
  | none => none
  | some (first, rest) =>
    if isLeadingHalf first then
      match rest with
      | '\\' :: 'u' :: more =>
        match readHexDigits? 4 0 more with
        | some (second, after) =>
          if isTrailingHalf second then
            some (Char.ofNat (0x10000 + (first - 0xD800) * 0x400 +
              (second - 0xDC00)), after)
          else none
        | none => none
      | _ => none
    else if isTrailingHalf first then none
    else some (Char.ofNat first, rest)

def escapedChar? : Char → Option Char
  | '"' => some '"'
  | '\\' => some '\\'
  | '/' => some '/'
  | 'b' => some '\x08'
  | 'f' => some '\x0c'
  | 'n' => some '\n'
  | 'r' => some '\r'
  | 't' => some '\t'
  | _ => none

def readEscape? : List Char → Option (List Char × List Char)
  | [] => none
  | 'u' :: rest => (readCode? rest).map fun (c, after) => ([c], after)
  | c :: rest => (escapedChar? c).map fun meant => ([meant], rest)

def quoting : Quoting where
  readEscape? := readEscape?
  isPlain c := 0x20 ≤ c.toNat

def readKey? : List Char → Option (String × List Char)
  | '"' :: rest => quoting.read? '"' rest
  | _ => none

/-- A number begins with a digit, and digits follow its point. -/
def isWellFormed (number : Decimal) : Bool :=
  !number.whole.isEmpty && !number.hasLeadingZero && number.fraction !=
    some [] && !number.isInfinite

def readNumber? (text : List Char) : Option (Value × List Char) :=
  let (number, rest) := Decimal.read text
  if isWellFormed number then some (.number, rest) else none

def readPlain? : List Char → Option (Value × List Char)
  | 'n' :: 'u' :: 'l' :: 'l' :: rest => some (.null, rest)
  | 't' :: 'r' :: 'u' :: 'e' :: rest => some (.boolean true, rest)
  | 'f' :: 'a' :: 'l' :: 's' :: 'e' :: rest => some (.boolean false, rest)
  | '"' :: rest =>
    (quoting.read? '"' rest).map fun (text, after) => (.text text, after)
  | '-' :: rest => readNumber? rest
  | text => readNumber? text

def spelling : Spelling where
  skipSpace := List.dropWhile isSpace
  readKey? := readKey?
  readPlain? := readPlain?
  allowsLastComma := false
  nestingLimit := some 127

end ImportAtlas.Manifest.Strict
