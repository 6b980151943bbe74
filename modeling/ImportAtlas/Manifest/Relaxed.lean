import ImportAtlas.Manifest.Value
import ImportAtlas.Text.Letter
import ImportAtlas.Text.Space

/-!
# Relaxed JSON

A spelling with comments, commas after the last part, texts in single quotes,
keys without quotes, and numbers in hexadecimal, with plus signs, or with a
bare point. Integers are signed words of 64 bits. A character is written by one
code only, so those beyond the first plane have no escape.
-/

namespace ImportAtlas.Manifest.Relaxed

/-! ## Space and comments -/

def isSpace (c : Char) : Bool :=
  isWhiteSpace c || c.toNat == 0xFEFF

def endsLine (c : Char) : Bool :=
  c == '\n' || c == '\r' || c.toNat == 0x2028 || c.toNat == 0x2029

def afterBlock? : List Char → Option (List Char)
  | [] => none
  | '*' :: '/' :: rest => some rest
  | _ :: rest => afterBlock? rest

/-- Skips space and comments; a block comment that is not closed stays. The
budget is the text itself. -/
def skipSpaceWithin : List Char → List Char → List Char
  | [], text => text
  | _ :: budget, '/' :: '/' :: rest =>
    skipSpaceWithin budget (rest.dropWhile fun c => !endsLine c)
  | _ :: budget, '/' :: '*' :: rest =>
    match afterBlock? rest with
    | none => '/' :: '*' :: rest
    | some after => skipSpaceWithin budget after
  | _ :: budget, c :: rest =>
    if isSpace c then skipSpaceWithin budget rest else c :: rest
  | _, [] => []

def skipSpace (text : List Char) : List Char :=
  skipSpaceWithin text text

/-! ## Quoted texts -/

def readCode? (digits : Nat) (text : List Char) : Option (Char × List Char) :=
  match readHexDigits? digits 0 text with
  | none => none
  | some (code, rest) =>
    if isLeadingHalf code || isTrailingHalf code then none
    else some (Char.ofNat code, rest)

/-- What a character stands for after a backslash; the end of a line stands for
itself. -/
def escapedChar? : Char → Option Char
  | 'a' => some '\x07'
  | 'b' => some '\x08'
  | 'f' => some '\x0c'
  | 'n' => some '\n'
  | 'r' => some '\r'
  | 't' => some '\t'
  | 'v' => some '\x0b'
  | '0' => some '\x00'
  | c =>
    if c == '"' || c == '\'' || c == '\\' || c == '/' || endsLine c then some c
    else none

def readEscape? : List Char → Option (List Char × List Char)
  | [] => none
  | 'u' :: rest => (readCode? 4 rest).map fun (c, after) => ([c], after)
  | 'x' :: rest => (readCode? 2 rest).map fun (c, after) => ([c], after)
  | '\r' :: '\n' :: rest => some (['\r', '\n'], rest)
  | c :: rest => (escapedChar? c).map fun meant => ([meant], rest)

def quoting : Quoting where
  readEscape? := readEscape?
  isPlain c := !endsLine c

/-! ## Words and numbers -/

def startsName (c : Char) : Bool :=
  c == '$' || c == '_' || isLetter c

def continuesName (c : Char) : Bool :=
  startsName c || isJoiner c || c.toNat == 0x200C || c.toNat == 0x200D

/-- The value that a bare word stands for; a number that is not finite counts
as null. -/
def wordValue? : String → Option Value
  | "null" => some .null
  | "true" => some (.boolean true)
  | "false" => some (.boolean false)
  | "Infinity" => some .null
  | "NaN" => some .null
  | _ => none

def largestInteger : Nat :=
  Nat.pow 2 63 - 1

def hexValue? (digits : List Char) : Option Value :=
  if digits.isEmpty || largestInteger < hexNumber digits then none
  else some .number

def decimalValue? (number : Decimal) : Option Value :=
  if number.digits.isEmpty || number.hasLeadingZero then none
  else if number.isInteger then
    if decimalValue number.whole ≤ largestInteger then some .number else none
  else if number.isInfinite then some .null
  else some .number

def readNumber? (text : List Char) : Option (Value × List Char) :=
  match text with
  | 'I' :: 'n' :: 'f' :: 'i' :: 'n' :: 'i' :: 't' :: 'y' :: rest
  | 'N' :: 'a' :: 'N' :: rest => some (.null, rest)
  | '0' :: 'x' :: rest | '0' :: 'X' :: rest =>
    (hexValue? (rest.takeWhile isHexDigit)).map fun value =>
      (value, rest.dropWhile isHexDigit)
  | _ =>
    let (number, rest) := Decimal.read text
    (decimalValue? number).map fun value => (value, rest)

def readSigned? : List Char → List Char → Option (Value × List Char)
  | _ :: budget, '+' :: rest => readSigned? budget (skipSpace rest)
  | _, '-' :: rest => readNumber? (skipSpace rest)
  | _, text => readNumber? text

def readPlain? (text : List Char) : Option (Value × List Char) :=
  match text with
  | '"' :: rest =>
    (quoting.read? '"' rest).map fun (meant, after) => (.text meant, after)
  | '\'' :: rest =>
    (quoting.read? '\'' rest).map fun (meant, after) => (.text meant, after)
  | _ =>
    match wordValue? (String.ofList (text.takeWhile continuesName)) with
    | some value => some (value, text.dropWhile continuesName)
    | none => readSigned? text text

/-! ## Keys -/

def readNameWithin? : List Char → List Char → Option (List Char × List Char)
  | _, [] => some ([], [])
  | [], text => some ([], text)
  | _ :: budget, '\\' :: 'u' :: rest =>
    match readCode? 4 rest with
    | none => none
    | some (c, after) =>
      (readNameWithin? budget after).map fun (chars, remaining) =>
        (c :: chars, remaining)
  | _ :: budget, c :: rest =>
    if continuesName c then
      (readNameWithin? budget rest).map fun (chars, remaining) =>
        (c :: chars, remaining)
    else some ([], c :: rest)

/-- Whether a text begins with a bare word that stands for a value and so is no
name. -/
def beginsWithValue (text : List Char) : Bool :=
  let word := text.takeWhile continuesName
  (wordValue? (String.ofList word)).isSome &&
    (text.drop word.length).head? != some '\\'

def readName? (text : List Char) : Option (String × List Char) :=
  let begins :=
    match text with
    | '\\' :: 'u' :: _ => true
    | c :: _ => startsName c && !beginsWithValue text
    | [] => false
  if begins then (readNameWithin? text text).map fun (chars, rest) =>
    (String.ofList chars, rest) else none

def readKey? (text : List Char) : Option (String × List Char) :=
  match text with
  | '"' :: rest => quoting.read? '"' rest
  | '\'' :: rest => quoting.read? '\'' rest
  | _ => readName? text

def spelling : Spelling where
  skipSpace := skipSpace
  readKey? := readKey?
  readPlain? := readPlain?
  allowsLastComma := true
  nestingLimit := none

end ImportAtlas.Manifest.Relaxed
