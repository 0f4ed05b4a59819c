import DocaApps.Common.FileServer
import DocaApps.FileCompression.Server
import DocaApps.FileIntegrity.Server

namespace DocaApps.Common.FileClient

/-- What the calls of one send loop gave: `DOCA_ERROR_AGAIN` so many times, and then a success or
an error. -/
structure Sent where
  again : Nat
  failure : Option DocaError

/-- The messages that are on their way to the peer, in order. -/
abbrev Wire := List (List UInt8)

/-- `doca_comm_channel_ep_sendto` until it no longer answers `DOCA_ERROR_AGAIN`, which leaves the
wire as it is. -/
def sendto (wire : Wire) (msg : List UInt8) (failure : Option DocaError) :
    Nat → Except DocaError Wire
  | 0 =>
    match failure with
    | none => .ok (wire ++ [msg])
    | some err => .error err
  | again + 1 => sendto wire msg failure again

def Sent.sendto (s : Sent) (wire : Wire) (msg : List UInt8) : Except DocaError Wire :=
  FileClient.sendto wire msg s.failure s.again

def htonl (n : Nat) : List UInt8 :=
  [UInt8.ofNat (n / 2 ^ 24), UInt8.ofNat (n / 2 ^ 16), UInt8.ofNat (n / 2 ^ 8), UInt8.ofNat n]

/-- The loop over the data messages: the next `n`, from the `i`-th on, each with as much of the
rest of the file as fits a segment. -/
def sendSegments (calls : Nat → Sent) (segment : Nat) :
    Nat → Nat → List UInt8 → Wire → Except DocaError Wire
  | 0, _, _, wire => .ok wire
  | n + 1, i, fileData, wire => do
    let msgLen := min fileData.length segment
    let wire ← (calls i).sendto wire (fileData.take msgLen)
    sendSegments calls segment n (i + 1) (fileData.drop msgLen) wire

end DocaApps.Common.FileClient

namespace DocaApps.FileCompression.Client
open Common.FileClient

def maxMsgSize : Nat := 4080

def totalMsgs (fileSize : Nat) : Nat :=
  (fileSize + maxMsgSize - 1) % 2 ^ 64 / maxMsgSize % 2 ^ 32

def sendFile (countCall : Sent) (dataCalls : Nat → Sent) (fileData : List UInt8) :
    Except DocaError Wire := do
  let total := totalMsgs fileData.length
  let wire ← countCall.sendto [] (htonl total)
  sendSegments dataCalls maxMsgSize total 0 fileData wire

end DocaApps.FileCompression.Client

namespace DocaApps.FileIntegrity.Client
open Common.FileClient Server

/-- The largest multiple of the smallest block size that fits a message. -/
def partialBlockSize (minPartialBlockSize : Nat) : Nat :=
  maxMsgSize - maxMsgSize % minPartialBlockSize

/-- `file_size - 1` wraps around for an empty file. -/
def totalMsgs (fileSize partialBlockSize : Nat) : Nat :=
  (1 + (fileSize + 2 ^ 64 - 1) % 2 ^ 64 / partialBlockSize) % 2 ^ 32

def sendFile (minPartialBlockSize : Except DocaError Nat) (countCall : Sent)
    (dataCalls : Nat → Sent) (fileData : List UInt8) : Except DocaError Wire := do
  let blockSize := partialBlockSize (← minPartialBlockSize)
  let total := totalMsgs fileData.length blockSize
  let wire ← countCall.sendto [] (htonl total)
  sendSegments dataCalls blockSize total 0 fileData wire

end DocaApps.FileIntegrity.Client
