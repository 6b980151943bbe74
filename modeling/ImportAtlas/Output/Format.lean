import ImportAtlas.Inquiry.Overview

/-!
# Output formats

What can be written, and in which formats.
-/

namespace ImportAtlas

inductive OutputFormat where
  | json
  | text
  deriving DecidableEq, Repr

namespace OutputFormat

def name : OutputFormat → String
  | .json => "json"
  | .text => "text"

def standard : OutputFormat := .text

def lowerText (text : String) : String :=
  String.ofList (text.toList.map Char.toLower)

def ofLowerName? : String → Option OutputFormat
  | "json" => some .json
  | "text" => some .text
  | "txt" => some .text
  | _ => none

/-- A format by its name, in any case of letters. -/
def ofName? (name : String) : Option OutputFormat :=
  ofLowerName? (lowerText name)

def unknownMessage (name : String) : String :=
  "Unknown export format: '" ++ name ++ "'. Valid formats: json, text"

end OutputFormat

inductive Answer where
  | search (report : SearchReport)
  | unused (report : UnusedReport)
  | maps (maps : List ImportMap)
  | reports (reports : List ProjectReport)

end ImportAtlas
