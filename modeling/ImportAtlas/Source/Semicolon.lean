import ImportAtlas.Source.Blank

/-!
# Statement ends without a semicolon

A statement may end where no semicolon is written: before a closing brace, at
the end of the text, and before a line break unless the next line goes on with
the same expression. The typed dialects and the untyped one draw that line a
little differently, and the rule also depends on what else could follow. A look
that finds no end tells where it stopped, because a condition may begin right
there.
-/

namespace ImportAtlas.Source

structure EndContext where
  typed : Bool
  /-- An operator may follow, so an expression has just been read. -/
  afterExpression : Bool
  afterSignature : Bool

structure Look where
  ends : Bool
  count : Nat
  rest : List Char
  sawComment : Bool

/-! ## Blank space and comments -/

inductive SpaceEnd where
  | refused
  | sameLine
  | reached
  deriving DecidableEq

inductive SpaceMode where
  | between
  | line
  | block

structure SpaceScan where
  stop : SpaceEnd
  count : Nat
  rest : List Char
  sawComment : Bool

/--
Reads over blank space and comments. With `pause` the scan stops after a block
comment, unless another slash follows, and tells whether a line was broken
inside it.
-/
def scanSpace (typed pause : Bool) :
    SpaceMode → (broken saw : Bool) → Nat → List Char → SpaceScan
  | .between, broken, saw, count, '/' :: '/' :: rest =>
    scanSpace typed pause .line broken saw (count + 2) rest
  | .between, broken, saw, count, '/' :: '*' :: rest =>
    scanSpace typed pause .block broken saw (count + 2) rest
  | .between, _, saw, count, '/' :: rest => ⟨.refused, count + 1, rest, saw⟩
  | .between, broken, saw, count, c :: rest =>
    if isAsciiBlank c then
      scanSpace typed pause .between broken saw (count + 1) rest
    else ⟨.reached, count, c :: rest, saw⟩
  | .line, broken, _, count, '\n' :: rest =>
    scanSpace typed pause .between broken true (count + 1) rest
  | .line, broken, saw, count, c :: rest =>
    if isNull c || (isLineBreak c && !typed) then
      ⟨.reached, count, c :: rest, true⟩
    else scanSpace typed pause .line broken saw (count + 1) rest
  | .block, broken, _, count, '*' :: '/' :: rest =>
    if pause && rest.head? != some '/' then
      ⟨if broken then .reached else .sameLine, count + 2, rest, true⟩
    else scanSpace typed pause .between broken true (count + 2) rest
  | .block, broken, saw, count, c :: rest =>
    if isNull c then ⟨.reached, count, c :: rest, saw⟩
    else scanSpace typed pause .block (broken || isLineBreak c) saw
      (count + 1) rest
  | .line, _, _, count, [] => ⟨.reached, count, [], true⟩
  | _, _, saw, count, [] => ⟨.reached, count, [], saw⟩

/-! ## The next line -/

def stopsWord (text : List Char) : Bool :=
  (text.head?.map fun c => !c.isAlpha).getD true

def spelledLength : List Char → List Char → Nat
  | c :: word, d :: text => if c == d then spelledLength word text + 1 else 0
  | _, _ => 0

/-- Looks at a line that opens with an `i`, which has been read: the words `in`
and `instanceof` go on. -/
def lookAtRelation (count : Nat) (saw : Bool) : List Char → Look
  | 'n' :: rest =>
    if stopsWord rest then ⟨false, count + 1, rest, saw⟩
    else
      let spelled := spelledLength "stanceof".toList rest
      ⟨!(spelled == 8 && stopsWord (rest.drop 8)), count + 1 + spelled,
        rest.drop spelled, saw⟩
  | rest => ⟨true, count, rest, saw⟩

def alwaysGoesOn (context : EndContext) (c : Char) : Bool :=
  c ∈ [',', ';', '*', '%', '>', '<', '=', '?', '^', '|', '&', '/',
    ':', '\x60'] ||
    (if context.typed then
      c == '.' || (c == '{' && context.afterSignature) ||
        ((c == '(' || c == '[') && context.afterExpression)
    else c == '(' || c == '[')

def lookAtLine (context : EndContext) (count : Nat) (saw : Bool)
    (text : List Char) : Look :=
  match text with
  | [] => ⟨true, count, [], saw⟩
  | c :: rest =>
    if alwaysGoesOn context c then ⟨false, count, text, saw⟩
    else
      let next (holds : Char → Bool) : Bool := (rest.head?.map holds).getD false
      match c with
      | '.' => ⟨next Char.isDigit, count + 1, rest, saw⟩
      | '+' => ⟨next (· == '+'), count + 1, rest, saw⟩
      | '-' => ⟨next (· == '-'), count + 1, rest, saw⟩
      | '!' => ⟨!next (· == '='), count + 1, rest, saw⟩
      | 'i' => lookAtRelation (count + 1) saw rest
      | _ => ⟨true, count, text, saw⟩

def lookPastBreak (context : EndContext) (count : Nat) (saw : Bool)
    (text : List Char) : Look :=
  let scan := scanSpace context.typed false .between false saw count text
  if scan.stop = .refused then ⟨false, scan.count, scan.rest, scan.sawComment⟩
  else lookAtLine context scan.count scan.sawComment scan.rest

/-! ## The whole look -/

/-- The look of the typed dialects. A closing brace before a colon belongs to a
pattern with a type. -/
def lookTyped (context : EndContext) : Nat → List Char → Look
  | count, [] => ⟨true, count, [], false⟩
  | count, c :: rest =>
    if isNull c then ⟨true, count, c :: rest, false⟩
    else if c == '}' then
      let blanks := countWhile isAsciiBlank rest
      let next := rest.drop blanks
      ⟨next.head? != some ':' || context.afterExpression, count + 1 + blanks,
        next, false⟩
    else if !isAsciiBlank c then ⟨false, count, c :: rest, false⟩
    else if c == '\n' then lookPastBreak context (count + 1) false rest
    else lookTyped context (count + 1) rest

def carriesOn (text : List Char) : Bool :=
  text.head? == some ',' || text.head? == some '='

/--
The look of the untyped dialect. Comments with a line break in them end a
statement as well. The budget is the text itself: every step reads at least one
character of it.
-/
def lookUntyped (context : EndContext) :
    List Char → (saw : Bool) → Nat → List Char → Look
  | _, saw, count, [] => ⟨true, count, [], saw⟩
  | [], saw, count, text => ⟨false, count, text, saw⟩
  | _ :: budget, saw, count, c :: rest =>
    if isNull c then ⟨true, count, c :: rest, saw⟩
    else
      let scan :=
        if c == '/' then
          scanSpace false true .between false saw count (c :: rest)
        else ⟨.sameLine, count, c :: rest, saw⟩
      if scan.stop = .refused then
        ⟨false, scan.count, scan.rest, scan.sawComment⟩
      else if scan.stop = .reached && !context.afterExpression &&
          !carriesOn scan.rest then
        ⟨true, scan.count, scan.rest, scan.sawComment⟩
      else
        match scan.rest with
        | [] => ⟨false, scan.count, [], scan.sawComment⟩
        | d :: more =>
          if d == '}' then ⟨true, scan.count, d :: more, scan.sawComment⟩
          else if isLineBreak d then
            lookPastBreak context (scan.count + 1) scan.sawComment more
          else if isAsciiBlank d then
            lookUntyped context budget scan.sawComment (scan.count + 1) more
          else ⟨false, scan.count, d :: more, scan.sawComment⟩

def lookForEnd (context : EndContext) (text : List Char) : Look :=
  if context.typed then lookTyped context 0 text
  else lookUntyped context text false 0 text

/-! ## Conditions -/

def conditionMark? (typed : Bool) (text : List Char) : Option Nat :=
  let blanks := countWhile isAsciiBlank text
  match text.drop blanks with
  | '?' :: rest =>
    if rest.head? == some '?' || (typed && rest.head? == some '.') then none
    else
      match (if typed then rest.drop (countWhile isAsciiBlank rest)
        else rest) with
      | '.' :: d :: _ => if d.isDigit then some blanks else none
      | '.' :: [] => none
      | c :: _ =>
        if typed && (c == ':' || c == ')' || c == ',') then none
        else some blanks
      | [] => some blanks
  | _ => none

end ImportAtlas.Source
