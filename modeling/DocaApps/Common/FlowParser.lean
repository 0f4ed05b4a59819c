import DocaApps.Common.FlowPipe
import DocaApps.Lib.Numerals

namespace DocaApps.Common.FlowParser
open Common.FlowPipe Lib.Numerals

def isSpace (c : Char) : Bool := c = ' ' ∨ (9 ≤ c.toNat ∧ c.toNat ≤ 13)

/-- The number that the leading digits of a text write. -/
def leadingDigits (s : List Char) : Int :=
  (s.takeWhile Char.isDigit).foldl (fun n c => 10 * n + (c.toNat - 48 : Int)) 0

/-- What `strtol` makes of a number that does not fit. -/
def clampLong (n : Int) : Int := max (-2 ^ 63) (min (2 ^ 63 - 1) n)

def atoi (s : List Char) : Int :=
  match s.dropWhile isSpace with
  | '-' :: rest => clampLong (-leadingDigits rest)
  | '+' :: rest => clampLong (leadingDigits rest)
  | rest => clampLong (leadingDigits rest)

/-- The text after the first dot. -/
def afterDot (s : List Char) : Except DocaError (List Char) :=
  match s.dropWhile (· ≠ '.') with
  | [] => .error .invalidValue
  | _ :: rest => .ok rest

def beIpv4Addr (a b c d : Int) : BitVec 32 :=
  rteCpuToBe32 ((BitVec.ofInt 32 a <<< 24) + (BitVec.ofInt 32 b <<< 16) +
    (BitVec.ofInt 32 c <<< 8) + BitVec.ofInt 32 d)

def uint32ChangeableField : List Char := ['0', 'x', 'f', 'f', 'f', 'f', 'f', 'f', 'f', 'f']

def parseIpv4Str (strIp : List Char) : Except DocaError (BitVec 32) :=
  if strIp = uint32ChangeableField then .ok 0xffffffff
  else do
    let ptr₁ ← afterDot strIp
    let ptr₂ ← afterDot ptr₁
    let ptr₃ ← afterDot ptr₂
    return beIpv4Addr (atoi strIp) (atoi ptr₁) (atoi ptr₂) (atoi ptr₃)

def parseProtocolString (protocolStr : List Char) : Except DocaError L4TypeExt :=
  if protocolStr = ['t', 'c', 'p'] then .ok .tcp
  else if protocolStr = ['u', 'd', 'p'] then .ok .udp
  else .error .invalidValue

/-- `strtol`: the number and what `endptr` is set to. Without a number, or in a base that does
not exist, it is zero and the text itself. -/
def strtol (nptr : List Char) (base : Nat) : Int × List Char :=
  if base = 1 ∨ 36 < base then (0, nptr)
  else
    let (sign, s) := signed (nptr.dropWhile isSpace)
    let (base, s) := numberBase base s
    match s.takeWhile (isDigitOf base) with
    | [] => (0, nptr)
    | digits => (clampLong (sign * numberOf base digits), s.dropWhile (isDigitOf base))
where
  signed : List Char → Int × List Char
    | '-' :: s => (-1, s)
    | '+' :: s => (1, s)
    | s => (1, s)
  /-- The base that a number is in, and its digits with what follows them. -/
  numberBase (base : Nat) (s : List Char) : Nat × List Char :=
    match s with
    | '0' :: x :: c :: rest =>
      if (base = 0 ∨ base = 16) ∧ (x = 'x' ∨ x = 'X') ∧ isDigitOf 16 c then (16, c :: rest)
      else if base = 0 then (8, s)
      else (base, s)
    | '0' :: _ => if base = 0 then (8, s) else (base, s)
    | _ => if base = 0 then (10, s) else (base, s)

/-- The text behind the first `c`. -/
def afterChar (s : List Char) (c : Char) : Option (List Char) :=
  match s.dropWhile (· ≠ c) with
  | [] => none
  | _ :: rest => some rest

def hexadecimalBase : Nat := 1

/-- The array is filled from the front: on an error the bytes so far stay in it. -/
def parseMacAddress (macAddrStr : List Char) :
    List (BitVec 8) → Except DocaError Unit × List (BitVec 8)
  | [] => (.ok (), [])
  | _ :: macAddr =>
    let byte := BitVec.ofInt 8 (strtol macAddrStr hexadecimalBase).1
    if macAddr = [] then (.ok (), [byte])
    else match afterChar macAddrStr ':' with
      | none => (.error .invalidValue, byte :: macAddr)
      | some ptr =>
        let (result, bytes) := parseMacAddress ptr macAddr
        (result, byte :: bytes)

/-- A pointer into a text, while it has not been moved behind the end of it. -/
abbrev Cursor := Option (List Char)

def Cursor.next : Cursor → Cursor
  | some (_ :: rest) => some rest
  | _ => none

/-- `strtol` at a cursor. With a base that does not exist nothing is read, so the cursor may
be anywhere; otherwise a number behind the end of the text has no value. -/
def strtolAt (strIp : Cursor) (base : Nat) : Option (Int × Cursor) :=
  match strIp with
  | some s => some ((strtol s base).1, some (strtol s base).2)
  | none => if base = 1 ∨ 36 < base then some (0, none) else none

/-- The words of the array from the front, each from two numbers. `strtol` never sets its
`endptr` to `NULL`, so the check of the source never fails. -/
def parseIpv6Str (strIp : Cursor) :
    List (BitVec 32) → Option (Except DocaError Unit × List (BitVec 32))
  | [] => some (.ok (), [])
  | _ :: ipv6Addr => do
    let (high, ptr) ← strtolAt strIp hexadecimalBase
    let (low, ptr) ← strtolAt ptr.next hexadecimalBase
    let word := rteCpuToBe32 ((BitVec.ofInt 32 high <<< 16) + BitVec.ofInt 32 low)
    let (result, words) ← parseIpv6Str ptr.next ipv6Addr
    return (result, word :: words)

end DocaApps.Common.FlowParser
