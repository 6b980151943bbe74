import ImportAtlas.Manifest.Relaxed
import ImportAtlas.Manifest.Strict

/-!
# The base directory of a manifest

Of a compiler manifest only `compilerOptions.baseUrl` matters. Both the
manifest and its options may also be written as a list of their fields in
order.
-/

namespace ImportAtlas.Manifest

def fileNames : List String :=
  ["tsconfig.json", "jsconfig.json"]

structure Settings where
  baseUrl : Option String
  deriving DecidableEq, Repr

/-- An absent base directory may also be written as null. -/
def baseUrlOf? : Value → Option Settings
  | .null => some ⟨none⟩
  | .text url => some ⟨some url⟩
  | _ => none

def compilerOptionsOf? : Value → Option Settings
  | .object members =>
    match member? "baseUrl" members with
    | none => some ⟨none⟩
    | some value => baseUrlOf? value
  | .list [value] => baseUrlOf? value
  | _ => none

def settingsOf? : Value → Option Settings
  | .object members =>
    match member? "compilerOptions" members with
    | none => some ⟨none⟩
    | some options => compilerOptionsOf? options
  | .list [] => some ⟨none⟩
  | .list [options] => compilerOptionsOf? options
  | _ => none

def Value.read? (text : String) : Option Value :=
  (Strict.spelling.read? text).or (Relaxed.spelling.read? text)

/-- The settings that the text of a manifest makes; a malformed manifest makes
none. -/
def Settings.read? (text : String) : Option Settings :=
  (Value.read? text).bind settingsOf?

end ImportAtlas.Manifest
