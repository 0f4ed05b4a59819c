import DocaApps.Common.Pack
import DocaApps.Lib.Overwrite

namespace DocaApps.Proofs.PackItems
open Common.Pack Lib.Overwrite

inductive Item where
  | uint8 (value : BitVec 8)
  | uint16 (value : BitVec 16)
  | uint32 (value : BitVec 32)
  | uint64 (value : BitVec 64)
  | blob (object : List Byte)

/-- What the reader has to know of an item. -/
inductive Kind where
  | uint8 | uint16 | uint32 | uint64
  | blob (length : Nat)

def Item.kind : Item → Kind
  | .uint8 _ => .uint8
  | .uint16 _ => .uint16
  | .uint32 _ => .uint32
  | .uint64 _ => .uint64
  | .blob object => .blob object.length

def Item.pack : Item → List Byte
  | .uint8 value => packUint8 value
  | .uint16 value => packUint16 value
  | .uint32 value => packUint32 value
  | .uint64 value => packUint64 value
  | .blob object => packBlob object

def Kind.unpack : Kind → Unpack Item
  | .uint8 => do return .uint8 (← unpackUint8)
  | .uint16 => do return .uint16 (← unpackUint16)
  | .uint32 => do return .uint32 (← unpackUint32)
  | .uint64 => do return .uint64 (← unpackUint64)
  | .blob length => do return .blob (← unpackBlob length)

/-- `uint8_t **buffer`: the memory, and the head in it. -/
@[ext]
structure Buffer where
  mem : List Byte
  head : Nat
  inside : head ≤ mem.length

/-- The bytes are written at the head, which moves behind them. -/
def Buffer.write (buffer : Buffer) (bytes : List Byte) : Option Buffer :=
  if h : buffer.head + bytes.length ≤ buffer.mem.length then
    some ⟨overwrite buffer.mem buffer.head bytes, buffer.head + bytes.length,
      h.trans_eq (length_overwrite h).symm⟩
  else none

/-- The head moves behind what is read. -/
def Buffer.read {α : Type} (buffer : Buffer) (unpack : Unpack α) : Option (α × Buffer) :=
  (unpack (buffer.mem.drop buffer.head)).map fun (value, rest) =>
    (value, ⟨buffer.mem, buffer.mem.length - rest.length, Nat.sub_le ..⟩)

def packAll : List Item → Buffer → Option Buffer
  | [], buffer => some buffer
  | item :: items, buffer => (buffer.write item.pack).bind (packAll items)

def unpackAll : List Kind → Buffer → Option (List Item × Buffer)
  | [], buffer => some ([], buffer)
  | kind :: kinds, buffer => do
    let (item, buffer) ← buffer.read kind.unpack
    let (items, buffer) ← unpackAll kinds buffer
    return (item :: items, buffer)

/-- The digits of a number to the base 256, the highest first. -/
def bigEndian (length value : Nat) : List Byte :=
  (List.range length).map fun i => BitVec.ofNat 8 (value / 256 ^ (length - 1 - i))

def Item.bigEndian : Item → List Byte
  | .uint8 value => PackItems.bigEndian 1 value.toNat
  | .uint16 value => PackItems.bigEndian 2 value.toNat
  | .uint32 value => PackItems.bigEndian 4 value.toNat
  | .uint64 value => PackItems.bigEndian 8 value.toNat
  | .blob object => object

/-- The bytes of a number in the memory of a machine. -/
def memoryImage (arch : Architecture) (value : BitVec 64) : List Byte :=
  match arch with
  | .littleEndian => (List.range 8).map (getByte value)
  | .bigEndian => ((List.range 8).map (getByte value)).reverse

theorem getByte_digit {w : Nat} (v : BitVec w) (n : Nat) :
    getByte v n = BitVec.ofNat 8 (v.toNat / 256 ^ n) := by
  apply BitVec.eq_of_toNat_eq
  have hbase : (256 : Nat) ^ n = 2 ^ (n * 8) := by
    rw [Nat.mul_comm, Nat.pow_mul]
  simp only [getByte, BitVec.toNat_setWidth, BitVec.toNat_ushiftRight, BitVec.toNat_ofNat,
    Nat.shiftRight_eq_div_pow, hbase]

/-- What is packed is the number in its big-endian form. -/
theorem pack_bigEndian (item : Item) : item.pack = item.bigEndian := by
  cases item with
  | uint8 value => simp [Item.pack, Item.bigEndian, packUint8, bigEndian]
  | uint16 value =>
    simp [Item.pack, Item.bigEndian, packUint16, bigEndian, getByte_digit, List.range_succ]
  | uint32 value =>
    simp [Item.pack, Item.bigEndian, packUint32, bigEndian, getByte_digit, List.range_succ]
  | uint64 value =>
    simp [Item.pack, Item.bigEndian, packUint64, bigEndian, getByte_digit, List.range_succ]
  | blob object => rfl

theorem unpack_pack (item : Item) (rest : List Byte) :
    item.kind.unpack (item.pack ++ rest) = some (item, rest) := by
  cases item with
  | uint8 value => rfl
  | uint16 value => exact unpack_bind (unpack_packUint16 value rest)
  | uint32 value => exact unpack_bind (unpack_packUint32 value rest)
  | uint64 value => exact unpack_bind (unpack_packUint64 value rest)
  | blob object => exact unpack_bind (unpackBlob_append rfl)

theorem write_some {buffer buffer' : Buffer} {bytes : List Byte}
    (h : buffer.write bytes = some buffer') :
    buffer.head + bytes.length ≤ buffer.mem.length ∧
      buffer'.mem = overwrite buffer.mem buffer.head bytes ∧
      buffer'.head = buffer.head + bytes.length := by
  unfold Buffer.write at h
  split at h
  · rename_i hfits
    cases h
    exact ⟨hfits, rfl, rfl⟩
  · cases h

/-- All the bytes together, as if they had been written at once. -/
theorem packAll_some {items : List Item} {buffer buffer' : Buffer}
    (h : packAll items buffer = some buffer') :
    buffer.head + (items.flatMap Item.pack).length ≤ buffer.mem.length ∧
      buffer'.mem = overwrite buffer.mem buffer.head (items.flatMap Item.pack) ∧
      buffer'.head = buffer.head + (items.flatMap Item.pack).length := by
  induction items generalizing buffer with
  | nil =>
    obtain rfl : buffer = buffer' := Option.some.inj h
    exact ⟨by simpa using Buffer.inside _, by simp [overwrite], rfl⟩
  | cons item items ih =>
    obtain ⟨next, hwrite, hrest⟩ := Option.bind_eq_some_iff.mp h
    obtain ⟨hfits, hmem, hhead⟩ := write_some hwrite
    obtain ⟨hfits', hmem', hhead'⟩ := ih hrest
    rw [hmem, length_overwrite hfits, hhead] at hfits'
    simp only [List.flatMap_cons, List.length_append]
    refine ⟨by omega, ?_, by omega⟩
    rw [hmem', hmem, hhead]
    exact overwrite_behind buffer.inside

/-- Reading the bytes of the items, whatever is behind them. -/
theorem unpackAll_some {items : List Item} {buffer : Buffer} {rest : List Byte}
    (h : buffer.mem.drop buffer.head = items.flatMap Item.pack ++ rest) :
    ∃ buffer', unpackAll (items.map Item.kind) buffer = some (items, buffer') ∧
      buffer'.mem = buffer.mem ∧
      buffer'.head = buffer.head + (items.flatMap Item.pack).length := by
  induction items generalizing buffer with
  | nil => exact ⟨buffer, rfl, rfl, rfl⟩
  | cons item items ih =>
    rw [List.flatMap_cons, List.append_assoc] at h
    have hlen := congrArg List.length h
    simp only [List.length_drop, List.length_append] at hlen
    have hinside := buffer.inside
    let next : Buffer := ⟨buffer.mem,
      buffer.mem.length - (items.flatMap Item.pack ++ rest).length, Nat.sub_le ..⟩
    have hread : buffer.read item.kind.unpack = some (item, next) := by
      unfold Buffer.read
      rw [h, unpack_pack]
      rfl
    have hhead : next.head = buffer.head + item.pack.length := by
      simp only [next, List.length_append]
      omega
    have hnext : next.mem.drop next.head = items.flatMap Item.pack ++ rest := by
      rw [hhead, ← List.drop_drop, h, List.drop_left]
    obtain ⟨buffer', hall, hmem, hend⟩ := ih hnext
    refine ⟨buffer', ?_, hmem, ?_⟩
    · simp only [List.map_cons, unpackAll, hread, hall, Option.bind_eq_bind, Option.bind_some]
      rfl
    · simp only [List.flatMap_cons, List.length_append]
      omega

theorem ntohq_bytes (value : BitVec 64) : ntohq .littleEndian value =
    ofBytes 64 (fun n => getByte value (7 - n)) 8 := by
  simp [ntohq, ofBytes, BitVec.or_assoc]

theorem getByte_ntohq (value : BitVec 64) {n : Nat} (hn : n < 8) :
    getByte (ntohq .littleEndian value) n = getByte value (7 - n) := by
  rw [ntohq_bytes]
  exact getByte_ofBytes (n := 8) _ hn

theorem ntohq_ntohq (arch : Architecture) (value : BitVec 64) :
    ntohq arch (ntohq arch value) = value := by
  cases arch with
  | bigEndian => rfl
  | littleEndian =>
    have hbytes : ∀ n < 8, getByte (ntohq .littleEndian value) (7 - n) = getByte value n := by
      intro n hn
      rw [getByte_ntohq value (by omega)]
      congr 1
      omega
    rw [ntohq_bytes, ofBytes_congr hbytes]
    exact ofBytes_getByte (n := 8) value

/-- Packing a number is storing it in network order. -/
theorem memoryImage_ntohq (arch : Architecture) (value : BitVec 64) :
    memoryImage arch (ntohq arch value) = packUint64 value := by
  cases arch with
  | bigEndian => rfl
  | littleEndian =>
    have hall : (List.range 8).map (getByte (ntohq .littleEndian value)) =
        (List.range 8).map fun n => getByte value (7 - n) :=
      List.map_congr_left fun n hn => getByte_ntohq value (List.mem_range.mp hn)
    exact hall

/-- The functions of both directions fit each other. -/
theorem pack_unpack (items : List Item) (buffer buffer' : Buffer)
    (hpack : packAll items buffer = some buffer') :
    (∀ start : Buffer, start.mem = buffer'.mem → start.head = buffer.head →
      unpackAll (items.map Item.kind) start = some (items, buffer')) ∧
    buffer'.mem = overwrite buffer.mem buffer.head (items.flatMap Item.bigEndian) ∧
    buffer'.head = buffer.head + (items.flatMap Item.bigEndian).length ∧
    ∀ arch value, ntohq arch (ntohq arch value) = value ∧
      memoryImage arch (ntohq arch value) = packUint64 value := by
  obtain ⟨hfits, hmem, hhead⟩ := packAll_some hpack
  have hforms : items.flatMap Item.pack = items.flatMap Item.bigEndian :=
    List.flatMap_congr fun item _ => pack_bigEndian item
  refine ⟨fun start hstart hat => ?_, hforms ▸ hmem, hforms ▸ hhead,
    fun arch value => ⟨ntohq_ntohq arch value, memoryImage_ntohq arch value⟩⟩
  have hbytes : start.mem.drop start.head = items.flatMap Item.pack ++
      buffer.mem.drop (buffer.head + (items.flatMap Item.pack).length) := by
    have hfront : (buffer.mem.take buffer.head).length = buffer.head := by
      simpa using buffer.inside
    rw [hstart, hat, hmem, overwrite, List.append_assoc, List.drop_left' hfront]
  obtain ⟨last, hall, hmem', hhead'⟩ := unpackAll_some hbytes
  obtain rfl : last = buffer' := Buffer.ext (hmem'.trans hstart) (by rw [hhead', hat, hhead])
  exact hall

theorem pack_unpack_two :
    let items := [Item.uint16 0x8081, Item.blob [7, 8]]
    let buffer : Buffer := ⟨List.replicate 6 0, 1, by decide⟩
    let buffer' : Buffer := ⟨[0, 0x80, 0x81, 7, 8, 0], 5, by decide⟩
    packAll items buffer = some buffer' ∧
    (∀ start : Buffer, start.mem = buffer'.mem → start.head = buffer.head →
      unpackAll (items.map Item.kind) start = some (items, buffer')) ∧
    buffer'.mem = overwrite buffer.mem buffer.head (items.flatMap Item.bigEndian) ∧
    buffer'.head = buffer.head + (items.flatMap Item.bigEndian).length ∧
    ∀ arch value, ntohq arch (ntohq arch value) = value ∧
      memoryImage arch (ntohq arch value) = packUint64 value := by
  intro items buffer buffer'
  have hpack : packAll items buffer = some buffer' := rfl
  exact ⟨hpack, pack_unpack items buffer buffer' hpack⟩

end DocaApps.Proofs.PackItems
