import Mathlib

namespace DocaApps.Common.Pack

abbrev Byte := BitVec 8

/-- `GET_BYTE(V, N)`. -/
def getByte {w : Nat} (v : BitVec w) (n : Nat) : Byte := (v >>> (n * 8)).setWidth 8

/-- `SET_BYTE(V, N)` in a variable of `w` bits. -/
def setByte (w : Nat) (b : Byte) (n : Nat) : BitVec w := (b.setWidth w) <<< (n * 8)

def packUint8 (value : BitVec 8) : List Byte := [value]

def packUint16 (value : BitVec 16) : List Byte := [getByte value 1, getByte value 0]

def packUint32 (value : BitVec 32) : List Byte :=
  [getByte value 3, getByte value 2, getByte value 1, getByte value 0]

def packUint64 (value : BitVec 64) : List Byte :=
  [getByte value 7, getByte value 6, getByte value 5, getByte value 4,
    getByte value 3, getByte value 2, getByte value 1, getByte value 0]

/-- `pack_blob`: the bytes of the object. -/
def packBlob (object : List Byte) : List Byte := object

/-- The order in which a machine keeps the bytes of a number. -/
inductive Architecture where
  | littleEndian | bigEndian
  deriving DecidableEq, Repr

def ntohq (arch : Architecture) (value : BitVec 64) : BitVec 64 :=
  match arch with
  | .bigEndian => value
  | .littleEndian =>
    setByte 64 (getByte value 0) 7 ||| setByte 64 (getByte value 1) 6 |||
      setByte 64 (getByte value 2) 5 ||| setByte 64 (getByte value 3) 4 |||
      setByte 64 (getByte value 4) 3 ||| setByte 64 (getByte value 5) 2 |||
      setByte 64 (getByte value 6) 1 ||| setByte 64 (getByte value 7) 0

/-- A read head over a buffer. A read past the end of the buffer has no result. -/
abbrev Unpack (α : Type) := StateT (List Byte) Option α

def unpackUint8 : Unpack (BitVec 8)
  | [] => none
  | b :: rest => some (b, rest)

def unpackUint16 : Unpack (BitVec 16) := do
  let b1 ← unpackUint8
  let b0 ← unpackUint8
  return setByte 16 b1 1 ||| setByte 16 b0 0

def unpackUint32 : Unpack (BitVec 32) := do
  let b3 ← unpackUint8
  let b2 ← unpackUint8
  let b1 ← unpackUint8
  let b0 ← unpackUint8
  return setByte 32 b3 3 ||| setByte 32 b2 2 ||| setByte 32 b1 1 ||| setByte 32 b0 0

def unpackUint64 : Unpack (BitVec 64) := do
  let b7 ← unpackUint8
  let b6 ← unpackUint8
  let b5 ← unpackUint8
  let b4 ← unpackUint8
  let b3 ← unpackUint8
  let b2 ← unpackUint8
  let b1 ← unpackUint8
  let b0 ← unpackUint8
  return setByte 64 b7 7 ||| setByte 64 b6 6 ||| setByte 64 b5 5 ||| setByte 64 b4 4 |||
    setByte 64 b3 3 ||| setByte 64 b2 2 ||| setByte 64 b1 1 ||| setByte 64 b0 0

/-- `unpack_blob`: the `length` bytes copied to `object`. -/
def unpackBlob (length : Nat) : Unpack (List Byte) := fun buffer =>
  if length ≤ buffer.length then some (buffer.take length, buffer.drop length) else none

theorem getLsbD_setByte {w : Nat} (b : Byte) (n : Nat) {i : Nat} (hi : i < w) :
    (setByte w b n).getLsbD i = (decide (n * 8 ≤ i) && b.getLsbD (i - n * 8)) := by
  simp only [setByte, BitVec.getLsbD_shiftLeft, BitVec.getLsbD_setWidth]
  by_cases hlo : n * 8 ≤ i
  · simp [hi, hlo, Nat.not_lt.mpr hlo, show i - n * 8 < w from by omega]
  · simp [hlo, Nat.lt_of_not_le hlo]

theorem getLsbD_getByte {w : Nat} (v : BitVec w) (n i : Nat) :
    (getByte v n).getLsbD i = (decide (i < 8) && v.getLsbD (n * 8 + i)) := by
  simp only [getByte, BitVec.getLsbD_setWidth, BitVec.getLsbD_ushiftRight]

/-- The number with these bytes, the lowest first. -/
def ofBytes (w : Nat) (f : Nat → Byte) : Nat → BitVec w
  | 0 => 0
  | n + 1 => setByte w (f n) n ||| ofBytes w f n

theorem getLsbD_ofBytes {w : Nat} (f : Nat → Byte) (n : Nat) {i : Nat} (hi : i < w) :
    (ofBytes w f n).getLsbD i = (decide (i / 8 < n) && (f (i / 8)).getLsbD (i % 8)) := by
  induction n with
  | zero => simp [ofBytes]
  | succ n ih =>
    rw [ofBytes, BitVec.getLsbD_or, ih, getLsbD_setByte _ _ hi]
    by_cases hhere : i / 8 = n
    · subst hhere
      have hrest : i - i / 8 * 8 = i % 8 := by omega
      have hle : i / 8 * 8 ≤ i := by omega
      simp [hrest, hle]
    · by_cases hbelow : i / 8 < n
      · have hlow : ¬ n * 8 ≤ i := by omega
        simp [hlow, hbelow, Nat.lt_succ_of_lt hbelow]
      · have hhigh : 8 ≤ i - n * 8 := by omega
        have habove : ¬ i / 8 < n + 1 := by omega
        simp [hbelow, habove, BitVec.getLsbD_of_ge _ _ hhigh]

theorem ofBytes_congr {w n : Nat} {f g : Nat → Byte} (h : ∀ k < n, f k = g k) :
    ofBytes w f n = ofBytes w g n := by
  induction n with
  | zero => rfl
  | succ n ih => rw [ofBytes, ofBytes, h n n.lt_succ_self, ih fun k hk => h k (by omega)]

/-- A number is made of its bytes. -/
theorem ofBytes_getByte {n : Nat} (v : BitVec (8 * n)) : ofBytes (8 * n) (getByte v) n = v := by
  apply BitVec.eq_of_getLsbD_eq
  intro i hi
  rw [getLsbD_ofBytes _ _ hi, getLsbD_getByte]
  have hbyte : i / 8 < n := by omega
  have hplace : i / 8 * 8 + i % 8 = i := by omega
  simp [hbyte, hplace, Nat.mod_lt]

theorem getByte_ofBytes {n k : Nat} (f : Nat → Byte) (hk : k < n) :
    getByte (ofBytes (8 * n) f n) k = f k := by
  apply BitVec.eq_of_getLsbD_eq
  intro i hi
  have hbyte : (k * 8 + i) / 8 = k := by omega
  have hplace : (k * 8 + i) % 8 = i := by omega
  rw [getLsbD_getByte, getLsbD_ofBytes _ _ (by omega : k * 8 + i < 8 * n), hbyte, hplace]
  simp [hi, hk]

/-- One read, then the rest of a reader. -/
theorem unpack_bind {α β : Type} {x : Unpack α} {f : α → Unpack β} {a : α}
    {buffer rest : List Byte} (h : x buffer = some (a, rest)) : (x >>= f) buffer = f a rest := by
  simp only [bind, StateT.bind, h, Option.bind_some]

theorem unpack_packUint8 (v : BitVec 8) (rest : List Byte) :
    unpackUint8 (packUint8 v ++ rest) = some (v, rest) := rfl

theorem unpack_packUint16 (v : BitVec 16) (rest : List Byte) :
    unpackUint16 (packUint16 v ++ rest) = some (v, rest) := by
  have hv : setByte 16 (getByte v 1) 1 ||| setByte 16 (getByte v 0) 0 = v := by
    simpa [ofBytes] using ofBytes_getByte (n := 2) v
  exact congrArg (fun x => some (x, rest)) hv

theorem unpack_packUint32 (v : BitVec 32) (rest : List Byte) :
    unpackUint32 (packUint32 v ++ rest) = some (v, rest) := by
  have hv : setByte 32 (getByte v 3) 3 ||| setByte 32 (getByte v 2) 2 |||
      setByte 32 (getByte v 1) 1 ||| setByte 32 (getByte v 0) 0 = v := by
    simpa [ofBytes, BitVec.or_assoc] using ofBytes_getByte (n := 4) v
  exact congrArg (fun x => some (x, rest)) hv

theorem unpack_packUint64 (v : BitVec 64) (rest : List Byte) :
    unpackUint64 (packUint64 v ++ rest) = some (v, rest) := by
  have hv : setByte 64 (getByte v 7) 7 ||| setByte 64 (getByte v 6) 6 |||
      setByte 64 (getByte v 5) 5 ||| setByte 64 (getByte v 4) 4 |||
      setByte 64 (getByte v 3) 3 ||| setByte 64 (getByte v 2) 2 |||
      setByte 64 (getByte v 1) 1 ||| setByte 64 (getByte v 0) 0 = v := by
    simpa [ofBytes, BitVec.or_assoc] using ofBytes_getByte (n := 8) v
  exact congrArg (fun x => some (x, rest)) hv

theorem unpackBlob_append {n : Nat} {blob rest : List Byte} (h : blob.length = n) :
    unpackBlob n (blob ++ rest) = some (blob, rest) := by
  subst h
  simp [unpackBlob]

end DocaApps.Common.Pack
