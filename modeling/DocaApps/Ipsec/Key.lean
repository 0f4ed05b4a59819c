import DocaApps.Ipsec.Rules

namespace DocaApps.Ipsec.Key
open Common.Pack Rules

def maxKeyLen : Nat := 32

/-- The entry `key` of a rule of the configuration file. -/
inductive JsonKey where
  | missing
  | other
  | string (text : List Byte)
  deriving DecidableEq, Repr

/-- The characters of a JSON string that are before its first zero. -/
def cString (text : List Byte) : List Byte := text.takeWhile (· ≠ 0)

def strnlen (text : List Byte) (maxlen : Nat) : Nat := min (cString text).length maxlen

def tolower (c : Byte) : Byte := if 0x41#8 ≤ c ∧ c ≤ 0x5a#8 then c + 0x20 else c

/-- The numeric value that a digit is given; it is kept in a `uint8_t`. -/
def digitOf (c : Byte) : Option Byte :=
  if 0x30#8 ≤ c ∧ c ≤ 0x39#8 then some (c - 0x30)
  else if 0x61#8 ≤ tolower c ∧ tolower c ≤ 0x66#8 then some (c - 0x61 + 10)
  else none

/-- The loop from digit `i` on, with the bytes of the key stored so far. -/
def parseDigits : Nat → List Byte → List Byte → Option DocaError × List Byte
  | _, [], key => (none, key)
  | i, c :: keyHex, key =>
    match digitOf c with
    | none => (some .invalidValue, key)
    | some digit => parseDigits (i + 1) keyHex (key.modify (i / 2) fun k => (k <<< 4) + digit)

def parseHexToBytes (keyHex : List Byte) (keySize : Nat) (key : List Byte) :
    Option DocaError × List Byte :=
  parseDigits 0 (keyHex.take keySize) key

def maxKeySize (keyType : KeyType) : Nat := if keyType = .aesgcm128 then 32 else 64

/-- `create_key`; what is stored of the key stays when it fails. -/
def createKey (jsonKey : JsonKey) (keyType : KeyType) (key : List Byte) :
    Option DocaError × List Byte :=
  match jsonKey with
  | .missing => (some .invalidValue, key)
  | .other => (some .invalidValue, key)
  | .string keyStr =>
    let keyLen := strnlen keyStr (maxKeySize keyType + 1)
    if keyLen = maxKeySize keyType + 1 then (some .invalidValue, key)
    else if keyLen % 2 ≠ 0 then (some .invalidValue, key)
    else parseHexToBytes keyStr keyLen key

/-- A key of a rule array that `calloc` gave. -/
def zeroKey : List Byte := List.replicate maxKeyLen 0

end DocaApps.Ipsec.Key
