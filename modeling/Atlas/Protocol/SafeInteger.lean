import Atlas.Lib.GoJson

/-!
# Integers in JSON numbers

The function that is generated for each integer field of the protocol: a JSON number is an integer
if its value is one that a double holds exactly, whatever it is written with. It is read from its
text, and its exponent only up to a limit beyond which the answer no longer depends on it.

The computations with `int` are checked: one that leaves the 64 bits ends the call with `overflow`,
which the source does not have.
-/

namespace Atlas.Protocol

open GoJson

inductive IntegerError
  | overflow
  | failed (message : String)
  deriving DecidableEq

def maxSafeInteger : ℤ := 9007199254740991

/-- The result of a computation with `int`. -/
def int (n : ℤ) : Except IntegerError ℤ :=
  if -2 ^ 63 ≤ n ∧ n < 2 ^ 63 then .ok n else .error .overflow

def fail {α : Type} (message : String) : Except IntegerError α := .error (.failed message)

def quoted (number : Text) : String := "\"" ++ String.ofList number ++ "\""

/-- `strings.TrimPrefix` of one character. -/
def trimPrefix (c : Char) (text : Text) : Text := if text.head? = some c then text.tail else text

/-- The loop over the digits of an exponent. -/
def boundedStep (limit value : ℤ) (digit : Char) : Except IntegerError ℤ :=
  if digit < '0' ∨ '9' < digit then fail "invalid exponent"
  else if value < limit then do
    let tenfold ← int (value * 10)
    let next ← int (tenfold + (digit.toNat - '0'.toNat : ℕ))
    return min limit next
  else return value

def parseBoundedExponent (text : Text) (limit : ℤ) : Except IntegerError ℤ :=
  let digits := trimPrefix '+' (trimPrefix '-' text)
  if digits = [] then fail "missing exponent"
  else do
    let value ← digits.foldlM (boundedStep limit) 0
    if text.head? = some '-' then int (-value) else return value

def isExponentMark (c : Char) : Bool := c = 'e' ∨ c = 'E'

/-- The exponent after the mark, of a number that has one. -/
def numberExponent (number unsigned : Text) : Except IntegerError ℤ :=
  match unsigned.dropWhile (!isExponentMark ·) with
  | [] => return 0
  | _ :: text => do
    let limit ← int (unsigned.length + 32)
    match parseBoundedExponent text limit with
    | .ok parsed => return parsed
    | .error .overflow => .error .overflow
    | .error (.failed _) => fail ("invalid JSON number " ++ quoted number)

/-- The digits of a mantissa, and how many of them are behind its point. -/
def mantissaDigits (mantissa : Text) : Text × ℕ :=
  match mantissa.dropWhile (· ≠ '.') with
  | [] => (mantissa, 0)
  | _ :: fraction => (mantissa.takeWhile (· ≠ '.') ++ fraction, fraction.length)

/-- `strings.TrimRight` of zeros. -/
def trimRightZeros (digits : Text) : Text := (digits.reverse.dropWhile (· = '0')).reverse

/-- The digits of an integer from those of a number and its power of ten. -/
def scaledDigits (number digits : Text) (scale : ℤ) : Except IntegerError Text :=
  if scale < 0 then do
    let remove ← int (-scale)
    if remove ≥ digits.length ∨ digits.length - (trimRightZeros digits).length < remove.toNat then
      fail ("JSON number " ++ quoted number ++ " is not an integer")
    else return digits.take (digits.length - remove.toNat)
  else if 0 < scale then do
    let length ← int (digits.length + scale)
    if 16 < length then fail ("JSON integer " ++ quoted number ++ " exceeds the safe range")
    else return digits ++ List.replicate scale.toNat '0'
  else return digits

def safeMagnitude (number digits : Text) : Except IntegerError ℤ :=
  if 16 < digits.length ∨ maxSafeInteger < natural digits then
    fail ("JSON integer " ++ quoted number ++ " exceeds the safe range")
  else return natural digits

def parseSafeInteger (number : Text) : Except IntegerError ℤ := do
  let unsigned := trimPrefix '-' number
  let mantissa := unsigned.takeWhile (!isExponentMark ·)
  let exponent ← numberExponent number unsigned
  let digits := (mantissaDigits mantissa).1.dropWhile (· = '0')
  if digits = [] then return 0
  else
    let scale ← int (exponent - (mantissaDigits mantissa).2)
    let integer ← scaledDigits number digits scale
    let magnitude ← safeMagnitude number integer
    if number.head? = some '-' then int (-magnitude) else return magnitude

end Atlas.Protocol
