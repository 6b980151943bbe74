import ImportAtlas.Text.Decimal
import ImportAtlas.Text.Quoted

/-!
# Values

The values of a manifest, and how they are read whatever the spelling of their
parts. A list or an object holds parts with commas between them.
-/

namespace ImportAtlas.Manifest

/-- A value of a manifest; what a number is does not matter. -/
inductive Value where
  | null
  | boolean (value : Bool)
  | number
  | text (value : String)
  | list (items : List Value)
  | object (members : List (String × Value))

/-- The last member with a key counts. -/
def member? (key : String) (members : List (String × Value)) : Option Value :=
  (members.reverse.find? fun member => member.1 == key).map Prod.snd

structure Spelling where
  skipSpace : List Char → List Char
  readKey? : List Char → Option (String × List Char)
  readPlain? : List Char → Option (Value × List Char)
  allowsLastComma : Bool
  nestingLimit : Option Nat

namespace Spelling

/-- Reads one part or more up to a closing mark; the budget is the text itself.
-/
def readSeries? {α : Type} (spelling : Spelling) (close : Char)
    (readPart? : List Char → Option (α × List Char)) :
    List Char → List Char → Option (List α × List Char)
  | [], _ => none
  | _ :: budget, text =>
    match readPart? text with
    | none => none
    | some (part, after) =>
      match spelling.skipSpace after with
      | [] => none
      | c :: rest =>
        if c == close then some ([part], rest)
        else if c == ',' then
          let next := spelling.skipSpace rest
          if spelling.allowsLastComma && next.head? == some close then
            some ([part], next.drop 1)
          else
            (spelling.readSeries? close readPart? budget next).map fun (parts,
                remaining) =>
              (part :: parts, remaining)
        else none

def readParts? {α : Type} (spelling : Spelling) (close : Char)
    (readPart? : List Char → Option (α × List Char)) (text : List Char) :
    Option (List α × List Char) :=
  let first := spelling.skipSpace text
  if first.head? == some close then some ([], first.drop 1)
  else spelling.readSeries? close readPart? first first

def readMember? (spelling : Spelling)
    (readValue? : List Char → Option (Value × List Char)) (text : List Char) :
    Option ((String × Value) × List Char) :=
  match spelling.readKey? text with
  | none => none
  | some (key, afterKey) =>
    match spelling.skipSpace afterKey with
    | ':' :: afterColon =>
      (readValue? (spelling.skipSpace afterColon)).map fun (value, after) =>
        ((key, value), after)
    | _ => none

/-- Reads a value in which at most `nesting` lists and objects lie within each
other. -/
def readValue? (spelling : Spelling) :
    Nat → List Char → Option (Value × List Char)
  | nesting + 1, '{' :: rest =>
    (spelling.readParts? '}'
      (spelling.readMember? (spelling.readValue? nesting)) rest).map
      fun (members, after) => (.object members, after)
  | nesting + 1, '[' :: rest =>
    (spelling.readParts? ']' (spelling.readValue? nesting) rest).map
      fun (items, after) => (.list items, after)
  | _, text => spelling.readPlain? text

def read? (spelling : Spelling) (text : String) : Option Value :=
  let chars := spelling.skipSpace text.toList
  match spelling.readValue? (spelling.nestingLimit.getD chars.length) chars with
  | some (value, rest) =>
    if (spelling.skipSpace rest).isEmpty then some value else none
  | none => none

end Spelling

end ImportAtlas.Manifest
