import ImportAtlas.Grammar.SourceTree

/-!
# Script blocks

Markup files hold their code in script elements. A block is the text between an
opening tag and the next closing tag; the opening tag ends at its first angle
bracket and tells the dialect.
-/

namespace ImportAtlas

open Grammar (Dialect)

structure ScriptBlock where
  body : List Char
  dialect : Dialect
  lineOffset : Nat
  deriving DecidableEq, Repr

namespace ScriptBlock

def splitAt? (pattern : List Char) : List Char → Option (List Char × List Char)
  | [] => if pattern.isEmpty then some ([], []) else none
  | c :: rest =>
    if pattern.isPrefixOf (c :: rest) then
      some ([], (c :: rest).drop pattern.length)
    else (splitAt? pattern rest).map fun (before, after) => (c :: before, after)

def contains (pattern text : List Char) : Bool :=
  (splitAt? pattern text).isSome

def lineBreaks (text : List Char) : Nat :=
  text.count '\n'

def openingMark : List Char := "<script".toList

def closingMark : List Char := "</script>".toList

def dialectOf (tag : List Char) : Dialect :=
  if contains "lang=\"ts\"".toList tag || contains "lang='ts'".toList tag then
    .typeScript
  else if contains "lang=\"tsx\"".toList tag ||
    contains "lang='tsx'".toList tag then .tsx
  else .javaScript

/-- The first block of a text that starts after `lines` line breaks, and what
follows it with its own count. -/
def next? (lines : Nat) (text : List Char) :
    Option (ScriptBlock × Nat × List Char) :=
  match splitAt? openingMark text with
  | none => none
  | some (before, opened) =>
    match splitAt? ['>'] opened with
    | none => none
    | some (tag, rest) =>
      match splitAt? closingMark rest with
      | none => none
      | some (body, after) =>
        let offset := lines + lineBreaks before + lineBreaks tag
        some (⟨body, dialectOf tag, offset⟩, offset + lineBreaks body, after)

/-- All blocks; the budget is the text itself, of which every block takes some.
-/
def allFrom : List Char → Nat → List Char → List ScriptBlock
  | [], _, _ => []
  | _ :: budget, lines, text =>
    match next? lines text with
    | none => []
    | some (block, after, rest) => block :: allFrom budget after rest

def all (source : List Char) : List ScriptBlock :=
  allFrom source 0 source

end ScriptBlock

end ImportAtlas
