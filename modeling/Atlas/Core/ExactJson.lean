import Atlas.Lib.GoJson

/-!
# Comparing JSON by its value

An idempotency key is used again with the same request, a manifest is registered again unchanged:
two JSON texts are compared by what they say. Both are decoded with their numbers as they were
written, each number is written again as a fraction in lowest terms, and the values are compared.
A number with too large a power of ten is left as it was written. A text that does not decode is
compared byte by byte.
-/

namespace Atlas.Core

open GoJson

/-- The text of a fraction in lowest terms, of an integer without its denominator. -/
def ratString (q : ℚ) : Text :=
  let sign := if q.num < 0 then ['-'] else []
  let denominator := if q.den = 1 then [] else '/' :: Nat.toDigits 10 q.den
  sign ++ Nat.toDigits 10 q.num.natAbs ++ denominator

/-- The power of five, and of two, that is too large to be multiplied out. -/
def maxRatExponent : ℕ := 1000000

/-- The fraction that a JSON number is read as. Its exponent must be an int64. -/
def setString (literal : Text) : Option ℚ :=
  match readDecimal literal with
  | none => none
  | some d =>
    if d.exponent < -2 ^ 63 ∨ 2 ^ 63 ≤ d.exponent then none
    else if d.mantissa = 0 then some 0
    else if maxRatExponent < d.scale.natAbs then none
    else some d.value

def exactJSONNumber (literal : Text) : Text :=
  match setString literal with
  | some q => ratString q
  | none => literal

def normalizeJSONNumbers (v : Value) : Value := v.mapNumbers exactJSONNumber

def decodeExactJSON (encoded : List UInt8) : Option Value :=
  (parse encoded).map fun v => normalizeJSONNumbers v.decoded

def jsonEqual (left right : List UInt8) : Bool :=
  match decodeExactJSON left, decodeExactJSON right with
  | some l, some r => l.equal r
  | _, _ => left == right

end Atlas.Core
