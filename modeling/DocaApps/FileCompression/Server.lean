import DocaApps.Common.FileServer

namespace DocaApps.FileCompression.Server
open Common.FileServer Lib.Overwrite

def decompressRatio : Nat := 1032

/-- The calls of the server that can fail, besides the receives and the `write`. -/
inductive Call where
  | allocCompressedFile | allocDst
  | ctxStart | srcMemrange | srcFreeCb | srcStart | srcBuf | dstMemrange | dstStart | dstBuf
  | taskAlloc | taskSubmit | taskStatus | decDstBuf | decSrcBuf
  | openFile
  deriving DecidableEq, Repr

/-- What a decompress task leaves in the destination buffer, with its two checksums. -/
structure Decompressed where
  data : List UInt8
  crc : UInt32
  adler : UInt32
  deriving DecidableEq, Repr

/-- All that the server cannot choose: the messages and failures it meets, the file that is
there before, and the engine, which is given the data and the size of the destination. -/
structure Env where
  fails : Call → Option DocaError
  numOfIterations : Nat
  maxBufSize : Nat
  checksumMsg : Received
  countMsg : Received
  dataMsg : Nat → Received
  engine : List UInt8 → Nat → Decompressed
  written : Option Nat
  oldFile : Option (List UInt8)
  finishMsg : Option DocaError

variable (env : Env)

/-- The result that the server gives to the failure of a call. -/
def Call.reported : Call → DocaError → DocaError
  | .allocCompressedFile, _ | .allocDst, _ => .noMemory
  | .openFile, _ => .ioFailed
  | _, err => err

def check (c : Call) : Except DocaError Unit :=
  match env.fails c with
  | some err => .error (c.reported err)
  | none => .ok ()

/-- `DOCA_ERROR_PROPAGATE` makes the first failure the result, also over the two buffers
that are released whatever happens. -/
def compressFileHwCalls : List Call :=
  [.ctxStart, .srcMemrange, .srcFreeCb, .srcStart, .srcBuf, .dstMemrange, .dstStart, .dstBuf,
    .taskAlloc, .taskSubmit, .taskStatus, .decDstBuf, .decSrcBuf]

def compressFileHw (fileData : List UInt8) (dstBufSize : Nat) : Except DocaError Decompressed := do
  compressFileHwCalls.forM (check env)
  return env.engine fileData dstBufSize

def dstBufSize (fileSize : Nat) : Nat :=
  min env.maxBufSize (decompressRatio * fileSize % 2 ^ 64)

def compressFile (fileData : List UInt8) : Except DocaError Decompressed := do
  check env .allocDst
  compressFileHw env fileData (dstBufSize env fileData.length)

def calculateChecksum (crc adler : UInt32) : UInt64 := (adler.toUInt64 <<< 32) + crc.toUInt64

/-- A `goto finish_msg` is an error here, with the result that it leaves. -/
abbrev Leaving (α : Type) := Except (Option DocaError) α

/-- A call whose failure is the result. -/
def leaving {α : Type} (call : Except DocaError α) : Leaving α := call.mapError some

/-- A check of the server's own. One that fails leaves the result of the receive before it,
which is a success. -/
def require (p : Prop) [Decidable p] : Leaving Unit := if p then .ok () else .error none

/-- The loop over the data messages: the next `n`, from the `i`-th on, after these bytes. -/
def receiveFile : Nat → Nat → List UInt8 → Leaving (List UInt8)
  | 0, _, compressedFile => .ok compressedFile
  | n + 1, i, compressedFile => do
    let msg ← leaving ((env.dataMsg i).waitFor env.numOfIterations .again)
    require (compressedFile.length + msg.length ≤ env.maxBufSize)
    receiveFile n (i + 1) (compressedFile ++ msg)

structure Upload where
  receivedChecksum : UInt64
  compressedFile : List UInt8
  deriving DecidableEq, Repr

def receiveUpload : Leaving Upload := do
  let checksumMsg ← leaving env.checksumMsg.answer
  require (checksumMsg.length = 8)
  let countMsg ← leaving (env.countMsg.waitFor env.numOfIterations .again)
  require (countMsg.length = 4)
  leaving (check env .allocCompressedFile)
  let compressedFile ← receiveFile env (ntoh countMsg) 0 []
  return ⟨ntohq checksumMsg, compressedFile⟩

/-- What the server leaves: its result, the file, and the bytes it has decompressed. -/
structure Outcome where
  result : Option DocaError
  file : Option (List UInt8)
  decompressed : Option (List UInt8)
  deriving DecidableEq, Repr

def finish (result : Option DocaError) (file decompressed : Option (List UInt8)) : Outcome :=
  ⟨afterFinish env.finishMsg result, file, decompressed⟩

/-- The output file is opened without `O_TRUNC`. -/
def writeFile (out compressedFile : List UInt8) : Outcome :=
  match check env .openFile with
  | .error err => finish env (some err) env.oldFile (some compressedFile)
  | .ok () =>
    let file := some (writeAt (env.oldFile.getD []) 0 out env.written)
    if env.written = some out.length then finish env none file (some compressedFile)
    else finish env (some .ioFailed) file (some compressedFile)

def fileCompressionServer : Outcome :=
  match receiveUpload env with
  | .error result => finish env result env.oldFile none
  | .ok upload =>
    match compressFile env upload.compressedFile with
    | .error err => finish env (some err) env.oldFile none
    | .ok out =>
      if calculateChecksum out.crc out.adler = upload.receivedChecksum then
        writeFile env out.data upload.compressedFile
      else finish env (some .badState) env.oldFile (some upload.compressedFile)

end DocaApps.FileCompression.Server
