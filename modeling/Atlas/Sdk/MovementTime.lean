import Atlas.Lib.Rfc3339

/-!
# Comparing the times of movement reports

A client checks the order of the reports it is sent. It takes the milliseconds of both timestamps,
and the digits of their fractions where the milliseconds are the same. A number that is not one
(NaN) is `none`.
-/

namespace Atlas.Sdk

open Rfc3339

/-- `Date.parse` of a timestamp: there is no leap second, and digits below the millisecond are
dropped. -/
def dateParse (text : Text) : Option ℤ :=
  match read text with
  | some s =>
    if s.Valid ∧ s.second ≤ 59 then
      some ((s.seconds - daysBeforeYear 1970 * 86400) * 1000 + s.milliseconds)
    else none
  | none => none

/-- A leap second is the one after the second before it. -/
def movementMilliseconds (value : String) : Option ℤ :=
  let text := value.toList
  if (text.drop 17).take 2 = ['6', '0'] then
    (dateParse (text.take 17 ++ ['5', '9'] ++ text.drop 19)).map (· + 1000)
  else dateParse text

/-- The digits after the first point that has some. -/
def fractionDigits : Text → Text
  | [] => []
  | c :: rest =>
    if c = '.' ∧ rest.takeWhile Char.isDigit ≠ [] then rest.takeWhile Char.isDigit
    else fractionDigits rest

def compareMovementInstants (left right : String) (rightOffsetMilliseconds : ℤ) : Option ℤ :=
  match movementMilliseconds left, movementMilliseconds right with
  | some l, some r =>
    let milliseconds := l - r - rightOffsetMilliseconds
    if milliseconds ≠ 0 then some milliseconds
    else
      let a := padded 9 (fractionDigits left.toList)
      let b := padded 9 (fractionDigits right.toList)
      some (if a = b then 0 else if a < b then -1 else 1)
  | _, _ => none

end Atlas.Sdk
