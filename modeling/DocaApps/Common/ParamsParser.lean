import DocaApps.Common.FlowParser
import DocaApps.Common.StructParser

namespace DocaApps.Common.ParamsParser
open Common.FlowParser Common.StructParser Lib.CStrings Lib.Numerals

/-- What `strtoull` makes of a number and its sign: a negative one wraps around, and one that
does not fit is the largest there is. -/
def clampUlong (sign : Int) (n : Nat) : Nat :=
  if 2 ^ 64 ≤ n then 2 ^ 64 - 1 else (sign * n % 2 ^ 64).toNat

/-- `strtoull`: the number and what `endptr` is set to. -/
def strtoull (nptr : List Char) (base : Nat) : Nat × List Char :=
  if base = 1 ∨ 36 < base then (0, nptr)
  else
    let (sign, s) := strtol.signed (nptr.dropWhile isSpace)
    let (base, s) := strtol.numberBase base s
    match s.takeWhile (isDigitOf base) with
    | [] => (0, nptr)
    | digits => (clampUlong sign (numberOf base digits), s.dropWhile (isDigitOf base))

/-- The text behind a key that it begins with, as `strncmp` tells. -/
def afterKey (key : String) (s : List Char) : Option (List Char) :=
  if key.toList.isPrefixOf s then some (s.drop key.toList.length) else none

def parseFwAddEntryParams (paramsStr : List Char) : Except DocaError UInt16 :=
  match afterKey "port_id=" paramsStr with
  | some paramsStr => .ok (UInt16.ofNat (strtoull (strlcpy paramsStr maxCmdlineInputLen) 0).1)
  | none => .error .invalidValue

end DocaApps.Common.ParamsParser
