/-!
# Glob patterns

Reading a glob. A star and a question mark stand for any text, slashes
included; a double star that fills whole path segments also matches no segment
at all. Braces hold alternatives, which may nest, and a backslash takes the
next character as it is.
-/

namespace ImportAtlas.Glob

inductive Token where
  | literal (char : Char)
  | any
  | anyMany
  | directoriesBefore
  | everythingBelow
  | directoriesBetween
  | charClass (negated : Bool) (ranges : List (Char × Char))
  | alternatives (branches : List (List Token))

inductive Fault where
  | unclosedClass
  | invalidRange (first last : Char)
  | unopenedAlternatives
  | unclosedAlternatives
  | danglingEscape
  deriving DecidableEq, Repr

def Fault.message : Fault → String
  | .unclosedClass => "unclosed character class; missing ']'"
  | .invalidRange first last =>
    "invalid range; '" ++ String.singleton first ++ "' > '" ++
      String.singleton last ++ "'"
  | .unopenedAlternatives =>
    "unopened alternate group; missing '\x7b' (maybe escape '\x7d' with '[\x7d]'?)"
  | .unclosedAlternatives =>
    "unclosed alternate group; missing '\x7d' (maybe escape '\x7b' with '[\x7b]'?)"
  | .danglingEscape => "dangling '\\'"

/-! ## Character classes -/

def extendLastRange :
    List (Char × Char) → Char → Except Fault (List (Char × Char))
  | (first, _) :: others, last =>
    if last < first then .error (.invalidRange first last)
    else .ok ((first, last) :: others)
  | [], last => .ok [(last, last)]

/-- The ranges of a class after its opening bracket, the last range first, and
the text after it. -/
def readRanges (first inRange : Bool) (ranges : List (Char × Char)) :
    List Char → Except Fault (List (Char × Char) × List Char)
  | [] => .error .unclosedClass
  | ']' :: rest =>
    if first then readRanges false inRange ((']', ']') :: ranges) rest
    else .ok (if inRange then ('-', '-') :: ranges else ranges, rest)
  | '-' :: rest =>
    if first then readRanges false inRange (('-', '-') :: ranges) rest
    else if inRange then
      match extendLastRange ranges '-' with
      | .error fault => .error fault
      | .ok extended => readRanges false false extended rest
    else readRanges false true ranges rest
  | c :: rest =>
    if inRange then
      match extendLastRange ranges c with
      | .error fault => .error fault
      | .ok extended => readRanges false false extended rest
    else readRanges false false ((c, c) :: ranges) rest

def readClass (text : List Char) : Except Fault (Token × List Char) :=
  let (negated, body) :=
    match text with
    | '!' :: rest | '^' :: rest => (true, rest)
    | _ => (false, text)
  match readRanges true false [] body with
  | .error fault => .error fault
  | .ok (ranges, rest) => .ok (.charClass negated ranges.reverse, rest)

/-! ## Patterns -/

/-- One open group of alternatives; tokens and branches are kept with the last
one first. -/
structure Level where
  finished : List (List Token)
  current : List Token

structure Reading where
  inner : Level
  outer : List Level

namespace Reading

def push (reading : Reading) (token : Token) : Reading :=
  { reading with
    inner := { reading.inner with current := token :: reading.inner.current } }

def pushMany (reading : Reading) : List Token → Reading
  | [] => reading
  | token :: tokens => (reading.push token).pushMany tokens

def inGroup (reading : Reading) : Bool :=
  !reading.outer.isEmpty

def openGroup (reading : Reading) : Reading :=
  ⟨⟨[], []⟩, reading.inner :: reading.outer⟩

def nextBranch (reading : Reading) : Reading :=
  { reading with
    inner := ⟨reading.inner.current.reverse :: reading.inner.finished, []⟩ }

def closeGroup (reading : Reading) : Except Fault Reading :=
  match reading.outer with
  | [] => .error .unopenedAlternatives
  | level :: outer =>
    let branches :=
      (reading.inner.current.reverse :: reading.inner.finished).reverse
    .ok (Reading.push ⟨level, outer⟩ (.alternatives branches))

end Reading

/--
Reads two stars: the tokens they add and the text after them. `before` is the
character before the stars. Where the stars do not fill whole segments they are
two single stars.
-/
def readDoubleStar (reading : Reading) (before : Option Char)
    (rest : List Char) : Reading × Option Char × List Char :=
  let plain := (reading.pushMany [.anyMany, .anyMany], some '*', rest)
  if reading.inner.current.isEmpty then
    match rest with
    | [] => (reading.push .directoriesBefore, some '*', [])
    | '/' :: after => (reading.push .directoriesBefore, some '/', after)
    | _ => plain
  else if before != some '/' &&
    !(reading.inGroup && (before == some ',' || before == some '{')) then plain
  else
    let replace (token : Token) : Reading :=
      match reading.inner.current with
      | .directoriesBefore :: _ => reading
      | .everythingBelow :: _ => reading
      | _ :: others =>
        { reading with
          inner := { reading.inner with current := token :: others } }
      | [] => reading.push token
    match rest with
    | [] => (replace .everythingBelow, some '*', [])
    | '/' :: after => (replace .directoriesBetween, some '/', after)
    | c :: _ =>
      if reading.inGroup && (c == ',' || c == '}') then
        (replace .everythingBelow, some '*', rest)
      else plain

/-- Reads a pattern from a place on; the budget is the pattern itself. -/
def readFrom :
    List Char → Reading → Option Char → List Char → Except Fault Reading
  | _, reading, _, [] => .ok reading
  | [], reading, _, _ => .ok reading
  | _ :: budget, reading, before, c :: rest =>
    if c == '?' then readFrom budget (reading.push .any) (some c) rest
    else if c == '*' then
      match rest with
      | '*' :: after =>
        let (next, last, remaining) := readDoubleStar reading before after
        readFrom budget next last remaining
      | _ => readFrom budget (reading.push .anyMany) (some c) rest
    else if c == '[' then
      match readClass rest with
      | .error fault => .error fault
      | .ok (token, after) =>
        readFrom budget (reading.push token) (some ']') after
    else if c == '{' then readFrom budget reading.openGroup (some c) rest
    else if c == '}' then
      match reading.closeGroup with
      | .error fault => .error fault
      | .ok next => readFrom budget next (some c) rest
    else if c == ',' then
      if reading.inGroup then readFrom budget reading.nextBranch (some c) rest
      else readFrom budget (reading.push (.literal c)) (some c) rest
    else if c == '\\' then
      match rest with
      | [] => .error .danglingEscape
      | escaped :: after =>
        readFrom budget (reading.push (.literal escaped)) (some escaped) after
    else readFrom budget (reading.push (.literal c)) (some c) rest

def read (pattern : String) : Except Fault (List Token) :=
  match readFrom pattern.toList ⟨⟨[], []⟩, []⟩ none pattern.toList with
  | .error fault => .error fault
  | .ok reading =>
    if reading.inGroup then .error .unclosedAlternatives
    else .ok reading.inner.current.reverse

end ImportAtlas.Glob
