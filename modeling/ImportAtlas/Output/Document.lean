/-!
# JSON documents

A JSON document and its text: two spaces for each level, one item a line, and
fields in their order.
-/

namespace ImportAtlas

inductive Document where
  | number (value : Nat)
  | text (value : String)
  | list (items : List Document)
  | object (fields : List (String × Document))

namespace Document

def hexDigit (value : Nat) : Char :=
  Char.ofNat (if value < 10 then 48 + value else 87 + value)

/-- A character inside a quoted text; only quotes, backslashes and control
characters are escaped. -/
def escapeChar (c : Char) : List Char :=
  if c = '"' then ['\\', '"']
  else if c = '\\' then ['\\', '\\']
  else if c = '\x08' then ['\\', 'b']
  else if c = '\t' then ['\\', 't']
  else if c = '\n' then ['\\', 'n']
  else if c = '\x0c' then ['\\', 'f']
  else if c = '\r' then ['\\', 'r']
  else if c.toNat < 32 then
    ['\\', 'u', '0', '0', hexDigit (c.toNat / 16), hexDigit (c.toNat % 16)]
  else [c]

def quoted (text : String) : String :=
  String.ofList (['"'] ++ text.toList.flatMap escapeChar ++ ['"'])

def indent (level : Nat) : String :=
  String.ofList (List.replicate (2 * level) ' ')

mutual

def render (level : Nat) : Document → String
  | .number value => toString value
  | .text value => quoted value
  | .list [] => "[]"
  | .list (item :: items) =>
    "[\n" ++ indent (level + 1) ++ render (level + 1) item ++
      renderItems (level + 1) items ++ "\n" ++
      indent level ++ "]"
  | .object [] => "\x7b\x7d"
  | .object ((name, value) :: fields) =>
    "\x7b\n" ++ indent (level + 1) ++ quoted name ++ ": " ++
      render (level + 1) value ++
      renderFields (level + 1) fields ++ "\n" ++ indent level ++ "\x7d"

def renderItems (level : Nat) : List Document → String
  | [] => ""
  | item :: items =>
    ",\n" ++ indent level ++ render level item ++ renderItems level items

def renderFields (level : Nat) : List (String × Document) → String
  | [] => ""
  | (name, value) :: fields =>
    ",\n" ++ indent level ++ quoted name ++ ": " ++ render level value ++
      renderFields level fields

end

def print (document : Document) : String :=
  document.render 0

end Document

end ImportAtlas
