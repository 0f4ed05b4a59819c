import Mathlib

namespace DocaApps.L2Reflector.Device

def l2LogSqRingDepth : UInt32 := 7
def l2LogRqRingDepth : UInt32 := 7
def l2LogCqRingDepth : UInt32 := 7
def l2LogWqDataEntryBsize : UInt32 := 11
/-- A send WQE has four segments. -/
def logSqeNumSegs : UInt32 := 2

def l2CqIdxMask : UInt32 := ((1 : UInt32) <<< l2LogCqRingDepth) - 1
def l2RqIdxMask : UInt32 := ((1 : UInt32) <<< l2LogRqRingDepth) - 1
def l2SqIdxMask : UInt32 := ((1 : UInt32) <<< (l2LogSqRingDepth + logSqeNumSegs)) - 1
def l2DataIdxMask : UInt32 := ((1 : UInt32) <<< l2LogSqRingDepth) - 1

/-- A slot of the completion ring, with the number of the completion last written into
it for the record. -/
structure Cqe where
  wqeCounter : UInt16
  byteCnt : UInt32
  owner : UInt8
  completion : Option Nat
  deriving DecidableEq, Repr

inductive SqeSeg where
  | empty
  | ctrl (sqPi sqNumber : UInt32)
  | eth (mss checksum : UInt16)
  | data (byteCnt lkey addr : UInt32)
  deriving DecidableEq, Repr

/-- What leaves on the wire for one send WQE: its slot, where its data lies in the send
buffer, and the bytes sent. -/
structure Transmission where
  wqe : UInt32
  addr : UInt32
  bytes : List UInt8
  deriving DecidableEq, Repr

/-- A frame with its two MAC addresses, that fits a receive buffer. -/
structure Frame where
  dst : Vector UInt8 6
  src : Vector UInt8 6
  rest : List UInt8
  fits : 12 + rest.length ≤ 2048

def Frame.bytes (f : Frame) : List UInt8 := f.dst.toList ++ f.src.toList ++ f.rest

def Frame.swapped (f : Frame) : Frame := { f with dst := f.src, src := f.dst }

/-- The device context, the rings and buffers it shares with the hardware, and a record
of what was received, consumed and sent. -/
structure Reflector where
  lkey : UInt32
  sqNumber : UInt32
  cqe : UInt32
  cqIdx : UInt32
  cqHwOwnerBit : UInt8
  cqDbr : UInt32
  rqDbr : UInt32
  sqWqeSegIdx : UInt32
  sqPi : UInt32
  txBuffIdx : UInt32
  cqRing : UInt32 → Cqe
  rxBuff : UInt32 → Nat → UInt8
  sqRing : UInt32 → SqeSeg
  sqTxBuff : Nat → UInt8
  received : List Frame
  consumed : List (Option Nat)
  transmitted : List (Option Transmission)

variable (r : Reflector)

def memcpy (mem : Nat → UInt8) (dst : Nat) (src : Nat → UInt8) (n : Nat) : Nat → UInt8 :=
  fun a => if dst ≤ a ∧ a < dst + n then src (a - dst) else mem a

/-- One round of the loop that swaps the MAC addresses. -/
def swapByte (mem : Nat → UInt8) (sqData byte : Nat) : Nat → UInt8 :=
  let tmp := mem (sqData + byte)
  let mem := Function.update mem (sqData + byte) (mem (sqData + byte + 6))
  Function.update mem (sqData + byte + 6) tmp

def swapMacs (mem : Nat → UInt8) (sqData : Nat) (rounds : Nat) : Nat → UInt8 :=
  (List.range rounds).foldl (fun mem byte => swapByte mem sqData byte) mem

def getNextDte : UInt32 × Reflector :=
  ((r.txBuffIdx &&& l2DataIdxMask) <<< l2LogWqDataEntryBsize,
    { r with txBuffIdx := r.txBuffIdx + 1 })

def getNextSqe : UInt32 × Reflector :=
  (r.sqWqeSegIdx &&& l2SqIdxMask, { r with sqWqeSegIdx := r.sqWqeSegIdx + 1 })

/-- Taking the next segment of the send queue and filling it out. -/
def setNextSqe (seg : SqeSeg) : Reflector :=
  let next := getNextSqe r
  { next.2 with sqRing := Function.update r.sqRing next.1 seg }

/-- The hardware sends the WQE before the producer index, if its three segments are in
order. -/
def transmission (sqPi : UInt32) : Option Transmission :=
  let wqe := (sqPi - 1) &&& l2DataIdxMask
  let seg := wqe <<< logSqeNumSegs
  match r.sqRing seg, r.sqRing (seg + 1), r.sqRing (seg + 2) with
  | .ctrl idx sq, .eth _ _, .data byteCnt lkey addr =>
    if idx = sqPi - 1 ∧ sq = r.sqNumber ∧ lkey = r.lkey then
      some ⟨wqe, addr, (List.range byteCnt.toNat).map fun i => r.sqTxBuff (addr.toNat + i)⟩
    else none
  | _, _, _ => none

def ringDb : Reflector :=
  { r with transmitted := r.transmitted ++ [transmission r r.sqPi] }

/-- The packet of the completion goes into the next entry of the send buffer. -/
def reflectData (rqWqeIdx dataSz : UInt32) : UInt32 × Reflector :=
  let rqData := r.rxBuff (rqWqeIdx &&& l2RqIdxMask)
  let next := getNextDte r
  let sqData := next.1.toNat
  (next.1, { next.2 with
    sqTxBuff := swapMacs (memcpy r.sqTxBuff sqData rqData dataSz.toNat) sqData 6 })

/-- The three segments of the send WQE, with the fourth left out. -/
def fillWqe (dataSz sqData : UInt32) : Reflector :=
  let r := setNextSqe r (.ctrl r.sqPi r.sqNumber)
  let r := setNextSqe r (.eth 0 0)
  let r := setNextSqe r (.data dataSz r.lkey sqData)
  (getNextSqe r).2

def processPacket : Reflector :=
  let cqe := r.cqRing r.cqe
  let copied := reflectData r cqe.wqeCounter.toUInt32 cqe.byteCnt
  let r := fillWqe copied.2 cqe.byteCnt copied.1
  let r := { r with sqPi := r.sqPi + 1 }
  let r := ringDb r
  { r with rqDbr := r.rqDbr + 1 }

def stepCq : Reflector :=
  let cqIdx := r.cqIdx + 1
  { r with
    cqIdx := cqIdx
    cqe := cqIdx &&& l2CqIdxMask
    cqHwOwnerBit :=
      if cqIdx &&& l2CqIdxMask = 0 then (if r.cqHwOwnerBit = 0 then 1 else 0)
      else r.cqHwOwnerBit
    cqDbr := cqIdx }

/-- A completion is there to be consumed. -/
def ready : Bool := (r.cqRing r.cqe).owner != r.cqHwOwnerBit

/-- One round of the loop of `l2_reflector_device_event_handler`, which ends the handler
when no completion is there. -/
def poll : Reflector :=
  if ready r then
    stepCq (processPacket { r with
      consumed := r.consumed ++ [(r.cqRing r.cqe).completion] })
  else r

/-- The hardware puts the frame into the buffer of the next receive WQE and writes the
completion. -/
def receive (frame : Frame) : Reflector :=
  let k := r.received.length
  let slot := UInt32.ofNat (k % 128)
  let buffer : Nat → UInt8 := fun i => frame.bytes.getD i (r.rxBuff slot i)
  { r with
    rxBuff := Function.update r.rxBuff slot buffer
    cqRing := Function.update r.cqRing slot
      ⟨UInt16.ofNat k, UInt32.ofNat frame.bytes.length, UInt8.ofNat (k / 128 % 2), some k⟩
    received := r.received ++ [frame] }

inductive Event where
  | receive (frame : Frame)
  | poll

def step (r : Reflector) : Event → Reflector
  | .receive frame => receive r frame
  | .poll => poll r

/-- The hardware does not overrun the consumer. -/
def NoOverrun (r : Reflector) : Event → Prop
  | .receive _ => r.received.length < r.consumed.length + 128
  | .poll => True

/-- After `l2_reflector_device_init`, with whatever the buffers hold. -/
def deviceInit (lkey sqNumber rqDbr : UInt32) (rxBuff : UInt32 → Nat → UInt8)
    (sqRing : UInt32 → SqeSeg) (sqTxBuff : Nat → UInt8) (counter : UInt16) (size : UInt32) :
    Reflector where
  lkey := lkey
  sqNumber := sqNumber
  cqe := 0
  cqIdx := 0
  cqHwOwnerBit := 1
  cqDbr := 0
  rqDbr := rqDbr
  sqWqeSegIdx := 0
  sqPi := 0
  txBuffIdx := 0
  cqRing := fun _ => ⟨counter, size, 1, none⟩
  rxBuff := rxBuff
  sqRing := sqRing
  sqTxBuff := sqTxBuff
  received := []
  consumed := []
  transmitted := []

end DocaApps.L2Reflector.Device

namespace DocaApps.L2Reflector.LateSends

/-- The device with hardware that completes the posted sends in order, but late. The device
records for each send what it would send at once, and `wire` is what has left. -/
structure Nic where
  device : Device.Reflector
  wire : List (Option Device.Transmission)

inductive Event where
  | device (e : Device.Event)
  | complete

def posted (t : Nic) : Nat := t.device.transmitted.length

/-- The oldest send that is outstanding completes: only now is its WQE read, and its data. -/
def complete (t : Nic) : Nic :=
  if t.wire.length < posted t then
    { t with
      wire := t.wire ++ [Device.transmission t.device (UInt32.ofNat (t.wire.length + 1))] }
  else t

def step (t : Nic) : Event → Nic
  | .device e => { t with device := Device.step t.device e }
  | .complete => complete t

/-- The hardware does not overrun the consumer of the receive side. -/
def NoOverrun (t : Nic) : Event → Prop
  | .device e => Device.NoOverrun t.device e
  | .complete => True

end DocaApps.L2Reflector.LateSends
