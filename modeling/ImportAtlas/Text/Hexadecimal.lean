/-!
# Hexadecimal digits
-/

namespace ImportAtlas

def hexDigit? (c : Char) : Option Nat :=
  if '0' ≤ c ∧ c ≤ '9' then some (c.toNat - 48)
  else if 'a' ≤ c ∧ c ≤ 'f' then some (c.toNat - 87)
  else if 'A' ≤ c ∧ c ≤ 'F' then some (c.toNat - 55)
  else none

def isHexDigit (c : Char) : Bool :=
  (hexDigit? c).isSome

def readHexDigits? : Nat → Nat → List Char → Option (Nat × List Char)
  | 0, value, rest => some (value, rest)
  | _ + 1, _, [] => none
  | count + 1, value, c :: rest =>
    match hexDigit? c with
    | none => none
    | some digit => readHexDigits? count (16 * value + digit) rest

/-- The number that hexadecimal digits write; other characters count as zero. -/
def hexNumber (digits : List Char) : Nat :=
  digits.foldl (fun value c => 16 * value + (hexDigit? c).getD 0) 0

end ImportAtlas
