import ImportAtlas.Glob.Pattern
import ImportAtlas.Text.Space

/-!
# Matching globs

Globs are matched against the bytes of a whole text. A token is matched
together with what has to match after it.
-/

namespace ImportAtlas.Glob

/--
The bytes that a class lists, as ranges. Between two characters only the last
byte of the first and the first byte of the second span a range.
-/
def byteRanges : List (Char × Char) → List (UInt8 × UInt8)
  | [] => []
  | (first, last) :: others =>
    let single (bytes : List UInt8) : List (UInt8 × UInt8) :=
      bytes.map fun byte => (byte, byte)
    let opening := String.utf8EncodeChar first
    let closing := String.utf8EncodeChar last
    (if first = last then single opening
      else
        match opening.getLast?, closing with
        | some low, high :: more =>
          single opening.dropLast ++ (low, high) :: single more
        | _, _ => []) ++ byteRanges others

def inClass (negated : Bool) (ranges : List (Char × Char)) (byte : UInt8) :
    Bool :=
  ((byteRanges ranges).any fun (low, high) => low ≤ byte && byte ≤ high) !=
    negated

def anyRest (accept : List UInt8 → Bool) : List UInt8 → Bool
  | [] => accept []
  | byte :: rest => accept (byte :: rest) || anyRest accept rest

def afterSlash (accept : List UInt8 → Bool) : List UInt8 → Bool
  | [] => false
  | byte :: rest => (byte == 47 && accept rest) || afterSlash accept rest

def afterBytes (accept : List UInt8 → Bool) : List UInt8 → List UInt8 → Bool
  | [], text => accept text
  | _ :: _, [] => false
  | expected :: more, byte :: rest =>
    expected == byte && afterBytes accept more rest

mutual

/-- Alternatives all of which are empty count for nothing. -/
def Token.isVoid : Token → Bool
  | .alternatives branches => areVoid branches
  | _ => false

def branchIsVoid : List Token → Bool
  | [] => true
  | token :: tokens => token.isVoid && branchIsVoid tokens

def areVoid : List (List Token) → Bool
  | [] => true
  | branch :: branches => branchIsVoid branch && areVoid branches

end

mutual

def Token.accepts (accept : List UInt8 → Bool) : Token → List UInt8 → Bool
  | .literal char, text => afterBytes accept (String.utf8EncodeChar char) text
  | .any, text =>
    match text with
    | [] => false
    | _ :: rest => accept rest
  | .anyMany, text => anyRest accept text
  | .directoriesBefore, text => accept text || afterSlash accept text
  | .everythingBelow, text =>
    match text with
    | 47 :: rest => anyRest accept rest
    | _ => false
  | .directoriesBetween, text =>
    match text with
    | 47 :: rest => accept rest || afterSlash accept rest
    | _ => false
  | .charClass negated ranges, text =>
    match text with
    | [] => false
    | byte :: rest => inClass negated ranges byte && accept rest
  | .alternatives branches, text =>
    if areVoid branches then accept text else acceptsSome accept branches text

def acceptsAll (accept : List UInt8 → Bool) : List Token → List UInt8 → Bool
  | [], text => accept text
  | token :: tokens, text =>
    Token.accepts (fun rest => acceptsAll accept tokens rest) token text

def acceptsSome (accept : List UInt8 → Bool) :
    List (List Token) → List UInt8 → Bool
  | [], _ => false
  | branch :: branches, text =>
    (!branchIsVoid branch && acceptsAll accept branch text) ||
      acceptsSome accept branches text

end

/-- Whether a pattern matches the whole text; a lone double star matches
everything. -/
def accepts (tokens : List Token) (text : String) : Bool :=
  match tokens with
  | [.directoriesBefore] => true
  | _ => acceptsAll List.isEmpty tokens text.toUTF8.toList

/-! ## Sets of globs -/

structure Error where
  pattern : String
  fault : Fault
  deriving DecidableEq, Repr

def Error.cause (error : Error) : String :=
  "error parsing glob '" ++ error.pattern ++ "': " ++ error.fault.message

/-- Reads all patterns that are not blank; the first one that cannot be read is
the error. -/
def readAll : List String → Except Error (List (List Token))
  | [] => .ok []
  | pattern :: patterns =>
    if isBlankText pattern then readAll patterns
    else
      match read pattern with
      | .error fault => .error ⟨pattern, fault⟩
      | .ok tokens =>
        match readAll patterns with
        | .error error => .error error
        | .ok others => .ok (tokens :: others)

def acceptsAny (globs : List (List Token)) (text : String) : Bool :=
  globs.any fun tokens => accepts tokens text

end ImportAtlas.Glob
