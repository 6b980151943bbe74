/-!
# Decimal numbers as they are written

A number is written with digits, a point with further digits, and an exponent.
Which of these parts must be there is left to the reader of the number.
-/

namespace ImportAtlas

def decimalValue (digits : List Char) : Nat :=
  digits.foldl (fun value c => 10 * value + (c.toNat - 48)) 0

structure Decimal where
  whole : List Char
  fraction : Option (List Char) := none
  exponent : Option Int := none
  deriving DecidableEq, Repr

namespace Decimal

/-- Reads the digits of an exponent; without any there is no exponent. -/
def readExponentDigits? (sign : Int) (text : List Char) :
    Option (Int × List Char) :=
  let digits := text.takeWhile Char.isDigit
  if digits.isEmpty then none
  else some (sign * decimalValue digits, text.drop digits.length)

def readExponent? : List Char → Option (Int × List Char)
  | 'e' :: '-' :: rest | 'E' :: '-' :: rest => readExponentDigits? (-1) rest
  | 'e' :: '+' :: rest | 'E' :: '+' :: rest => readExponentDigits? 1 rest
  | 'e' :: rest | 'E' :: rest => readExponentDigits? 1 rest
  | _ => none

def readFraction? : List Char → Option (List Char × List Char)
  | '.' :: rest =>
    some (rest.takeWhile Char.isDigit, rest.dropWhile Char.isDigit)
  | _ => none

def read (text : List Char) : Decimal × List Char :=
  let whole := text.takeWhile Char.isDigit
  let afterWhole := text.dropWhile Char.isDigit
  let (fraction, afterFraction) :=
    match readFraction? afterWhole with
    | some (digits, rest) => (some digits, rest)
    | none => (none, afterWhole)
  match readExponent? afterFraction with
  | some (exponent, rest) => (⟨whole, fraction, some exponent⟩, rest)
  | none => (⟨whole, fraction, none⟩, afterFraction)

def hasLeadingZero (number : Decimal) : Bool :=
  number.whole.head? == some '0' && 1 < number.whole.length

def isInteger (number : Decimal) : Bool :=
  number.fraction.isNone && number.exponent.isNone

def digits (number : Decimal) : List Char :=
  number.whole ++ number.fraction.getD []

def scale (number : Decimal) : Int :=
  number.exponent.getD 0 - ((number.fraction.getD []).length : Int)

/-- The least number that is nearer to the 1024th power of two than to any
binary64 number. -/
def leastInfinite : Nat :=
  Nat.pow 2 1024 - Nat.pow 2 970

/--
Whether a number is too large for binary64. More than 400 places before the
point are too many, and a number with no place before the point is small.
-/
def isInfinite (number : Decimal) : Bool :=
  let value := decimalValue number.digits
  match number.scale with
  | .ofNat places =>
    value != 0 && leastInfinite ≤ value * Nat.pow 10 (min places 400)
  | .negSucc places =>
    places < number.digits.length &&
      leastInfinite * Nat.pow 10 (places + 1) ≤ value

end Decimal

end ImportAtlas
