import ImportAtlas.Source.Blank
import ImportAtlas.Text.Hexadecimal

/-!
# Lexemes

The shapes of single tokens. Each function looks at the text that starts with
the token and tells how many characters the token has; zero means that there is
none. A token is as long as it can be.
-/

namespace ImportAtlas.Source

def isPunctuation (c : Char) : Bool :=
  c ∈ ":;\x60\"'@#.,|^&<=>+-*/\\%?!~()[]\x7b\x7d".toList

def isWordPart (c : Char) : Bool :=
  !(c.toNat < 0x20) && !isBlank c && !isPunctuation c

/-! ## Words -/

inductive WordMode where
  | part
  | braced (start : Nat) (seen : Bool)

/-- The end of a word whose characters up to `count` have been read; escapes of
the form `\u` count as letters. -/
def wordEndFrom : WordMode → Nat → List Char → Nat
  | .part, count, '\\' :: 'u' :: '{' :: rest =>
    wordEndFrom (.braced count false) (count + 3) rest
  | .part, count, '\\' :: 'u' :: a :: b :: c :: d :: rest =>
    if isHexDigit a && isHexDigit b && isHexDigit c && isHexDigit d then
      wordEndFrom .part (count + 6) rest
    else count
  | .part, count, c :: rest =>
    if isWordPart c then wordEndFrom .part (count + 1) rest else count
  | .braced start seen, count, c :: rest =>
    if isHexDigit c then wordEndFrom (.braced start true) (count + 1) rest
    else if c == '}' && seen then wordEndFrom .part (count + 1) rest
    else start
  | .part, count, [] => count
  | .braced start _, _, [] => start

def wordLength : List Char → Nat
  | [] => 0
  | c :: rest => if c.isDigit then 0 else wordEndFrom .part 0 (c :: rest)

def privateNameLength : List Char → Nat
  | '#' :: rest =>
    match wordLength rest with
    | 0 => 0
    | length => length + 1
  | _ => 0

/-! ## Numbers -/

/-- The length of a run of digits in which single underscores may stand between
two digits. -/
def digitRun (isDigit : Char → Bool) : List Char → Nat
  | '_' :: c :: rest => if isDigit c then 2 + digitRun isDigit rest else 0
  | c :: rest => if isDigit c then 1 + digitRun isDigit rest else 0
  | [] => 0

def digitsLength (isDigit : Char → Bool) (text : List Char) : Nat :=
  if text.head? == some '_' then 0 else digitRun isDigit text

def exponentLength : List Char → Nat
  | 'e' :: rest | 'E' :: rest =>
    match rest with
    | '+' :: digits | '-' :: digits =>
      let count := digitsLength Char.isDigit digits
      if count == 0 then 0 else count + 2
    | digits =>
      let count := digitsLength Char.isDigit digits
      if count == 0 then 0 else count + 1
  | _ => 0

/-- Whether digits can stand before a point: a zero only alone or before
another digit. -/
def canHaveFraction : List Char → Bool
  | '0' :: c :: _ => c.isDigit && c != '0' || c == '.' || c == 'e' || c == 'E'
  | _ => true

def decimalLength (text : List Char) : Nat :=
  let whole := digitsLength Char.isDigit text
  match whole, text.drop whole with
  | 0, '.' :: rest =>
    match digitsLength Char.isDigit rest with
    | 0 => 0
    | fraction => 1 + fraction + exponentLength (rest.drop fraction)
  | 0, _ => 0
  | _, 'n' :: _ => whole + 1
  | _, '.' :: rest =>
    if canHaveFraction text then
      let fraction := digitsLength Char.isDigit rest
      whole + 1 + fraction + exponentLength (rest.drop fraction)
    else whole
  | _, rest =>
    if canHaveFraction text then whole + exponentLength rest else whole

def basedLength (isDigit : Char → Bool) (text : List Char) : Nat :=
  match digitsLength isDigit text with
  | 0 => 1
  | count => count + 2 + if (text.drop count).head? == some 'n' then 1 else 0

def numberLength : List Char → Nat
  | '0' :: 'x' :: rest | '0' :: 'X' :: rest => basedLength isHexDigit rest
  | '0' :: 'b' :: rest | '0' :: 'B' :: rest =>
    basedLength (fun c => c == '0' || c == '1') rest
  | '0' :: 'o' :: rest | '0' :: 'O' :: rest =>
    basedLength (fun c => '0' ≤ c && c ≤ '7') rest
  | text => decimalLength text

/-! ## Comments and first lines -/

/-- The length of a block comment whose opening has been read; it must be
closed. -/
def blockCommentFrom : Nat → List Char → Nat
  | count, '*' :: '/' :: _ => count + 2
  | count, c :: rest =>
    if isNull c then 0 else blockCommentFrom (count + 1) rest
  | _, [] => 0

def commentLength : List Char → Nat
  | '/' :: '/' :: rest =>
    2 + countWhile (fun c => !isLineBreak c && c != '\r' && !isNull c) rest
  | '/' :: '*' :: rest => blockCommentFrom 2 rest
  | _ => 0

def hashBangLength : List Char → Nat
  | '#' :: '!' :: rest => 2 + countWhile (fun c => c != '\n' && !isNull c) rest
  | _ => 0

/-! ## Strings -/

def quotedTextLength (quote : Char) (text : List Char) : Nat :=
  countWhile (fun c => c != quote && c != '\\' && c != '\r' && c != '\n' &&
    !isNull c) text

def bracedLength (text : List Char) : Nat :=
  let digits := countWhile isHexDigit text
  if 0 < digits && (text.drop digits).head? == some '}' then digits + 1 else 0

/-- The length of an escape; `\x` and `\u` need their digits. -/
def escapeLength : List Char → Nat
  | '\\' :: 'x' :: a :: b :: _ => if isHexDigit a && isHexDigit b then 4 else 0
  | '\\' :: 'u' :: '{' :: rest =>
    match bracedLength rest with
    | 0 => 0
    | length => length + 3
  | '\\' :: 'u' :: a :: b :: c :: d :: _ =>
    if isHexDigit a && isHexDigit b && isHexDigit c && isHexDigit d then 6
    else 0
  | '\\' :: c :: rest =>
    if c == 'x' || c == 'u' || isNull c then 0
    else if '0' ≤ c && c ≤ '7' then
      1 + countWhile (fun d => '0' ≤ d && d ≤ '7') (c :: rest.take 2)
    else if (c == '\r' || c == '?') &&
      (rest.head?.map isLineBreak).getD false then 3
    else 2
  | _ => 0

/-- The length of the text of a template up to its end, its next escape or its
next substitution. -/
def templateTextFrom : Nat → List Char → Nat
  | count, '$' :: '{' :: _ => count
  | count, c :: rest =>
    if c == '\x60' || c == '\\' then count
    else if isNull c then 0
    else templateTextFrom (count + 1) rest
  | _, [] => 0

def templateTextLength (text : List Char) : Nat :=
  templateTextFrom 0 text

/-! ## Regular expressions -/

/-- Whether the body of a regular expression is inside brackets, and where
these were opened. -/
inductive RegexMode where
  | plain
  | bracketed (start : Nat)

def regexBodyFrom : RegexMode → Nat → List Char → Nat
  | .plain, count, '\\' :: c :: rest =>
    if c == '\n' || isNull c then count
    else regexBodyFrom .plain (count + 2) rest
  | .plain, count, c :: rest =>
    if c == '[' then regexBodyFrom (.bracketed count) (count + 1) rest
    else if c == '/' || c == '\\' || c == '\n' || isNull c then count
    else regexBodyFrom .plain (count + 1) rest
  | .bracketed start, count, '\\' :: c :: rest =>
    if c == '\n' || isNull c then start
    else regexBodyFrom (.bracketed start) (count + 2) rest
  | .bracketed start, count, c :: rest =>
    if c == ']' then regexBodyFrom .plain (count + 1) rest
    else if c == '\\' || c == '\n' || isNull c then start
    else regexBodyFrom (.bracketed start) (count + 1) rest
  | .plain, count, [] => count
  | .bracketed start, _, [] => start

def regexBodyLength (text : List Char) : Nat :=
  regexBodyFrom .plain 0 text

def regexEndLength : List Char → Nat
  | '/' :: _ => 1
  | _ => 0

def regexFlagsLength (text : List Char) : Nat :=
  countWhile (fun c => 'a' ≤ c && c ≤ 'z') text

/-! ## Markup -/

def referenceLength : List Char → Nat
  | '&' :: '#' :: x :: rest =>
    let (skip, digits, bound) :=
      if x == 'x' || x == 'X' then (3, countWhile isHexDigit rest, 6)
      else (2, countWhile Char.isDigit (x :: rest), 5)
    let after := (x :: rest).drop (skip - 2 + digits)
    if 0 < digits && digits ≤ bound && after.head? == some ';' then
      skip + digits + 1 else 0
  | '&' :: rest =>
    let letters := countWhile Char.isAlpha rest
    if 0 < letters && letters ≤ 30 && (rest.drop letters).head? == some ';' then
      letters + 2 else 0
  | _ => 0

def markupValueFrom (quote : Char) : Nat → List Char → Nat
  | count, '&' :: c :: rest =>
    if c == '#' || c.isAlpha || isNull c then count
    else markupValueFrom quote (count + 2) rest
  | count, c :: rest =>
    if c == quote || c == '&' || isNull c then count
    else markupValueFrom quote (count + 1) rest
  | count, [] => count

def markupValueLength (quote : Char) (text : List Char) : Nat :=
  markupValueFrom quote 0 text

def markupNameLength (text : List Char) : Nat :=
  let isPlain (c : Char) : Bool := c.isAlphanum || c == '_' || c == '$'
  let start := countWhile isPlain text
  if 0 < start && !(text.head?.map Char.isDigit).getD false &&
      (text.drop start).head? == some '-' then
    start + countWhile (fun c => isPlain c || c == '-') (text.drop start)
  else 0

/--
The length of the text between two tags and whether it says anything: blank
space from the start of a line on does not.
-/
def markupTextFrom :
    (atLineStart saysSomething : Bool) → Nat → List Char → Nat × Bool
  | atLineStart, saysSomething, count, c :: rest =>
    if c == '<' || c == '>' || c == '{' || c == '}' || c == '&' || isNull c then
      (count, saysSomething)
    else if c == '\n' then markupTextFrom true saysSomething (count + 1) rest
    else
      let blankStart := atLineStart && isAsciiBlank c
      markupTextFrom blankStart (saysSomething || !blankStart) (count + 1) rest
  | _, saysSomething, count, [] => (count, saysSomething)

def markupTextLength (text : List Char) : Nat :=
  match markupTextFrom false false 0 text with
  | (length, true) => length
  | (_, false) => 0

/-- The length of a comment in the notation of web pages, to the end of its
line. -/
def pageCommentLength (text : List Char) : Nat :=
  if "<!--".toList.isPrefixOf text || "-->".toList.isPrefixOf text then
    countWhile (fun c => !isLineBreak c && !isNull c) text
  else 0

/-! ## Accessors -/

def lengthToLastBreak : (count best : Nat) → List Char → Nat
  | count, best, c :: rest =>
    if !isAsciiBlank c then best
    else lengthToLastBreak (count + 1) (if c == '\n' then count + 1
      else best) rest
  | _, best, [] => best

def staticGetterLength (text : List Char) : Nat :=
  if "static".toList.isPrefixOf text then
    let between := countWhile isAsciiBlank (text.drop 6)
    let after := text.drop (6 + between)
    if 0 < between && "get".toList.isPrefixOf after then
      match lengthToLastBreak 0 0 (after.drop 3) with
      | 0 => 0
      | length => 9 + between + length
    else 0
  else 0

end ImportAtlas.Source
