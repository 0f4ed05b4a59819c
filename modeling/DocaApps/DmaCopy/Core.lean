import DocaApps.Common.FileServer
import DocaApps.Lib.RelyGuarantee

namespace DocaApps.DmaCopy.Core
open Common.FileServer Lib.Overwrite Lib.RelyGuarantee

abbrev Msg := List UInt8

/-- A file that `ftell` can give the length of. -/
structure File where
  bytes : List UInt8
  fits : bytes.length < 2 ^ 63

def File.size (f : File) : UInt64 := UInt64.ofNat f.bytes.length

/-- The fields of `dma_copy_cfg` that decide the copy. -/
structure Cfg where
  isFileFoundLocally : Bool
  fileSize : UInt64
  deriving DecidableEq, Repr

def argsValidationCallback (file : Option File) : Cfg :=
  match file with
  | some f => ⟨true, f.size⟩
  | none => ⟨false, 0⟩

def htonq (v : UInt64) : List UInt8 :=
  [UInt8.ofNat (v.toNat / 2 ^ 56), UInt8.ofNat (v.toNat / 2 ^ 48),
    UInt8.ofNat (v.toNat / 2 ^ 40), UInt8.ofNat (v.toNat / 2 ^ 32),
    UInt8.ofNat (v.toNat / 2 ^ 24), UInt8.ofNat (v.toNat / 2 ^ 16),
    UInt8.ofNat (v.toNat / 2 ^ 8), UInt8.ofNat v.toNat]

/-- `struct cc_msg_dma_direction`, with the padding that its zero initialiser clears. -/
def directionMsg (fileInHost : Bool) (fileSize : UInt64) : Msg :=
  [if fileInHost then 1 else 0, 0, 0, 0, 0, 0, 0, 0] ++ htonq fileSize

def directionMsgSize : Nat := 16

def fileInHost (msg : Msg) : Bool := msg.headD 0 != 0

def fileSizeOf (msg : Msg) : UInt64 := ntohq (msg.drop 8)

/-- `struct cc_msg_dma_status`. -/
def statusMsg (isSuccess : Bool) : Msg := [if isSuccess then 1 else 0]

def statusMsgSize : Nat := 1

def isSuccess (msg : Msg) : Bool := msg.headD 0 != 0

def ccMaxMsgSize : Nat := 4080

def sizeMax : UInt64 := 0xffffffffffffffff

/-- The calls whose only effect here is that they can fail. -/
inductive Call where
  | epConnect | peerAddrUpdateInfo | openDmaDevice | mmapCreate | mmapAddDev
  | mmapSetPermissions | devClose
  | allocateDmaCopyResources | getDmaMaxBufSize | ctxStart | epListen
  | remoteBufGetByAddr | localBufGetByAddr | bufGetData | bufSetData | taskAllocInit | taskSubmit
  | localBufDecRefcount | remoteBufDecRefcount | remoteMmapDestroy | requestStopCtx
  | destroyDmaCopyResources
  deriving DecidableEq, Repr

/-- What a side does that the other one, or a file, can see. `passes` marks the end of the
negotiation, with the configuration that it has led to. -/
inductive Cmd where
  | call (c : Call)
  | sendto (msg : Msg)
  | recvfrom (msgLen : Nat)
  | passes (cfg : Cfg)
  | mallocAndStart (bufferLen : UInt64)
  | exportPci
  | createFromExport (desc : Msg)
  | fread (size : UInt64)
  | fwrite (size : UInt64)
  | free
  | mmapDestroy
  | memcpyTask (isFileFoundLocally : Bool) (hostAddr hostLen : UInt64)

/-- How a command comes out: it works or fails; memory that is not written yet, or no longer
owned, holds these bytes; the file holds these bytes when `fwrite` comes up short, or when it
does not but `fclose` cannot write out the rest. -/
inductive Outcome where
  | ok
  | fails (err : DocaError)
  | holds (bytes : List UInt8)
  | short (bytes : List UInt8)
  | lost (bytes : List UInt8)

/-- One of the two sides. `sent` are all the messages it has ever sent, and `read` is how many
of the other side's it has received. -/
structure Side where
  sent : List Msg
  read : Nat
  file : Option (List UInt8)
  buffer : Option (List UInt8)
  mmap : Bool
  passed : Option Cfg
  copied : Bool
  deriving DecidableEq

/-- What is given: the limit of the DMA device, where the host's buffer is and how its map is
described to the DPU, and the files. -/
structure Setup where
  maxBufSize : UInt64
  bufferAddr : UInt64
  exportDesc : Msg
  hostFile : Option File
  dpuFile : Option File

variable (e : Setup)

/-- A command that works in one way, or fails and changes nothing. -/
def mayFail (o : Outcome) (me other : Side) (works : Option (Except DocaError Msg × Side × Side)) :
    Option (Except DocaError Msg × Side × Side) :=
  match o with
  | .ok => works
  | .fails err => some (.error err, me, other)
  | _ => none

/-- A receive waits for a message that fits. -/
def recvfrom (msgLen : Nat) (me other : Side) : Option (Except DocaError Msg × Side × Side) :=
  match other.sent[me.read]? with
  | some msg =>
    if msg.length ≤ msgLen then some (.ok msg, { me with read := me.read + 1 }, other) else none
  | none => none

def mallocAndStart (bufferLen : UInt64) (o : Outcome) (me other : Side) :
    Option (Except DocaError Msg × Side × Side) :=
  match o with
  | .holds bytes =>
    if bytes.length = bufferLen.toNat then some (.ok [], { me with buffer := some bytes }, other)
    else none
  | .fails err => some (.error err, me, other)
  | _ => none

/-- The `fread` of `fill_buffer_with_file_content`. -/
def fread (size : UInt64) (o : Outcome) (me other : Side) :
    Option (Except DocaError Msg × Side × Side) :=
  match o, me.file, me.buffer with
  | .ok, some file, some buffer =>
    if size.toNat ≤ file.length then
      some (.ok [], { me with buffer := some (overwrite buffer 0 (file.take size.toNat)) }, other)
    else none
  | .fails _, _, _ => some (.error .ioFailed, me, other)
  | _, _, _ => none

/-- The `fopen`, `fwrite` and `fclose` of `save_buffer_into_a_file`, which does not look at what
`fclose` returns. -/
def fwrite (size : UInt64) (o : Outcome) (me other : Side) :
    Option (Except DocaError Msg × Side × Side) :=
  match o, me.buffer with
  | .ok, some buffer => some (.ok [], { me with file := some (buffer.take size.toNat) }, other)
  | .short bytes, _ => some (.error .ioFailed, { me with file := some bytes }, other)
  | .lost bytes, _ => some (.ok [], { me with file := some bytes }, other)
  | .fails _, _ => some (.error .ioFailed, me, other)
  | _, _ => none

/-- The DMA engine between a buffer of the DPU and the exported buffer of the host. Once the
host has freed its buffer, and until it has destroyed the map, there is no telling what is
read there. -/
def memcpyTask (isFileFoundLocally : Bool) (hostAddr hostLen : UInt64) (o : Outcome)
    (dpu host : Side) : Option (Except DocaError Msg × Side × Side) :=
  match o, dpu.buffer, host.buffer with
  | .fails err, _, _ => some (.error err, dpu, host)
  | .ok, some buffer, some remote =>
    if host.mmap ∧ e.bufferAddr ≤ hostAddr ∧ hostLen.toNat ≤ buffer.length ∧
        hostAddr.toNat + hostLen.toNat ≤ e.bufferAddr.toNat + remote.length then
      let offset := hostAddr.toNat - e.bufferAddr.toNat
      if isFileFoundLocally then
        some (.ok [], { dpu with copied := true },
          { host with buffer := some (overwrite remote offset (buffer.take hostLen.toNat)) })
      else
        let data := slice remote offset hostLen.toNat
        some (.ok [], { dpu with buffer := some (overwrite buffer 0 data), copied := true }, host)
    else none
  | .holds bytes, some buffer, none =>
    if host.mmap ∧ hostLen.toNat ≤ buffer.length ∧ bytes.length = hostLen.toNat then
      if isFileFoundLocally then some (.ok [], { dpu with copied := true }, host)
      else
        some (.ok [], { dpu with buffer := some (overwrite buffer 0 bytes), copied := true }, host)
    else none
  | _, _, _ => none

/-- What the command of one side does to it and to the other side. -/
def perform (c : Cmd) (o : Outcome) (me other : Side) :
    Option (Except DocaError Msg × Side × Side) :=
  match c with
  | .call _ => mayFail o me other (some (.ok [], me, other))
  | .sendto msg => mayFail o me other (some (.ok [], { me with sent := me.sent ++ [msg] }, other))
  | .recvfrom msgLen => mayFail o me other (recvfrom msgLen me other)
  | .passes cfg => some (.ok [], { me with passed := some cfg }, other)
  | .mallocAndStart bufferLen => mallocAndStart bufferLen o me other
  | .exportPci => mayFail o me other (some (.ok e.exportDesc, { me with mmap := true }, other))
  | .createFromExport desc =>
    mayFail o me other (if desc = e.exportDesc then some (.ok [], me, other) else none)
  | .fread size => fread size o me other
  | .fwrite size => fwrite size o me other
  | .free => some (.ok [], { me with buffer := none }, other)
  | .mmapDestroy => mayFail o me other (some (.ok [], { me with mmap := false }, other))
  | .memcpyTask isFileFoundLocally hostAddr hostLen =>
    memcpyTask e isFileFoundLocally hostAddr hostLen o me other

abbrev Act (α : Type) := Prog Cmd Msg DocaError α

def ask (c : Cmd) : Act Msg := Prog.ask c

def tell (c : Cmd) : Act Unit := Prog.tell c

def require (b : Bool) (err : DocaError) : Act Unit := if b then pure () else .done (.error err)

def onlyIf (b : Bool) (x : Act Unit) : Act Unit := if b then x else pure ()

/-- A part of a function and what its labels release: `DOCA_ERROR_PROPAGATE` keeps the first
error. -/
def releasing {α : Type} (x : Act α) (release : Act Unit) : Act α := do
  let result ← x.attempt
  let tmpResult ← release.attempt
  match result, tmpResult with
  | .error err, _ => .done (.error err)
  | .ok _, .error err => .done (.error err)
  | .ok a, .ok () => pure a

def sendStatusMsg (status : Bool) : Act Unit := tell (.sendto (statusMsg status))

def waitForSuccessfulStatusMsg : Act Unit := do
  let msg ← ask (.recvfrom statusMsgSize)
  require (isSuccess msg) .invalidValue

/-- An error that is told to the host first. Whether that works makes no difference. -/
def orSendFailure {α : Type} (x : Act α) : Act α := do
  match ← x.attempt with
  | .ok a => pure a
  | .error err =>
    let _ ← (sendStatusMsg false).attempt
    .done (.error err)

def memoryAllocAndPopulate (bufferLen : UInt64) : Act Unit := do
  tell (.call .mmapSetPermissions)
  tell (.mallocAndStart bufferLen)

def hostNegotiateDmaDirectionAndSize (cfg : Cfg) : Act Cfg := do
  tell (.call .epConnect)
  tell (.call .peerAddrUpdateInfo)
  tell (.sendto (directionMsg cfg.isFileFoundLocally
    (if cfg.isFileFoundLocally then cfg.fileSize else 0)))
  let msg ← ask (.recvfrom directionMsgSize)
  require (msg.length == directionMsgSize) .invalidValue
  let cfg := if cfg.isFileFoundLocally then cfg else { cfg with fileSize := fileSizeOf msg }
  tell (.passes cfg)
  return cfg

def hostExportMemoryMapToDpu : Act Unit := do
  let exportDesc ← ask .exportPci
  tell (.sendto exportDesc)
  waitForSuccessfulStatusMsg

def hostSendAddrAndOffset (srcBufferSize : UInt64) : Act Unit := do
  tell (.sendto (htonq e.bufferAddr))
  waitForSuccessfulStatusMsg
  tell (.sendto (htonq srcBufferSize))
  waitForSuccessfulStatusMsg

/-- The part of `host_start_dma_copy` that has a buffer. -/
def hostCopy (cfg : Cfg) : Act Unit := do
  hostExportMemoryMapToDpu
  onlyIf cfg.isFileFoundLocally (tell (.fread cfg.fileSize))
  hostSendAddrAndOffset e cfg.fileSize
  waitForSuccessfulStatusMsg
  onlyIf (!cfg.isFileFoundLocally) (tell (.fwrite cfg.fileSize))

def hostStartDmaCopy (cfg : Cfg) : Act Unit := do
  let cfg ← hostNegotiateDmaDirectionAndSize cfg
  tell (.call .openDmaDevice)
  releasing (do
    tell (.call .mmapCreate)
    releasing (do
      tell (.call .mmapAddDev)
      memoryAllocAndPopulate cfg.fileSize
      releasing (hostCopy e cfg) (tell .free)) (tell .mmapDestroy)) (tell (.call .devClose))

def dpuNegotiateDmaDirectionAndSize (cfg : Cfg) : Act Cfg := do
  tell (.call .epListen)
  let cfg ← orSendFailure (do
    let msg ← ask (.recvfrom directionMsgSize)
    require (msg.length == directionMsgSize) .invalidValue
    require (cfg.isFileFoundLocally != fileInHost msg) .invalidValue
    return if cfg.isFileFoundLocally then cfg else { cfg with fileSize := fileSizeOf msg })
  if e.maxBufSize < cfg.fileSize then
    sendStatusMsg false
    .done (.error .invalidValue)
  else
    tell (.sendto (directionMsg (!cfg.isFileFoundLocally)
      (if cfg.isFileFoundLocally then cfg.fileSize else 0)))
    tell (.passes cfg)
    return cfg

def dpuReceiveExportDesc : Act Msg := do
  let exportDesc ← orSendFailure (ask (.recvfrom ccMaxMsgSize))
  sendStatusMsg true
  return exportDesc

def dpuReceiveNumber : Act UInt64 := do
  let received ← orSendFailure (do
    let msg ← ask (.recvfrom 8)
    require (ntohq msg ≤ sizeMax) .invalidValue
    return ntohq msg)
  sendStatusMsg true
  return received

def dpuReceiveAddrAndOffset : Act (UInt64 × UInt64) := do
  let hostAddr ← dpuReceiveNumber
  let hostOffset ← dpuReceiveNumber
  return (hostAddr, hostOffset)

def dpuSubmitDmaTask (cfg : Cfg) (hostAddr bytesToCopy : UInt64) : Act Unit := do
  tell (.call .bufGetData)
  tell (.call .bufSetData)
  tell (.call .taskAllocInit)
  tell (.call .taskSubmit)
  tell (.memcpyTask cfg.isFileFoundLocally hostAddr bytesToCopy)
  onlyIf (!cfg.isFileFoundLocally) (tell (.fwrite cfg.fileSize))

/-- The part of `dpu_start_dma_copy` that has the remote map. -/
def dpuCopy (cfg : Cfg) : Act Unit := do
  let (hostDmaAddr, hostDmaOffset) ← dpuReceiveAddrAndOffset
  orSendFailure (tell (.call .remoteBufGetByAddr))
  releasing (do
    orSendFailure (tell (.call .localBufGetByAddr))
    releasing (do
      orSendFailure (do
        onlyIf cfg.isFileFoundLocally (tell (.fread cfg.fileSize))
        dpuSubmitDmaTask cfg hostDmaAddr hostDmaOffset)
      let _ ← (sendStatusMsg true).attempt) (tell (.call .localBufDecRefcount)))
    (tell (.call .remoteBufDecRefcount))

/-- The part of `dpu_start_dma_copy` that has a buffer. -/
def dpuReceive (cfg : Cfg) : Act Unit := do
  let exportDesc ← dpuReceiveExportDesc
  tell (.createFromExport exportDesc)
  releasing (dpuCopy cfg) (tell (.call .remoteMmapDestroy))

def dpuStartDmaCopy (cfg : Cfg) : Act Unit := do
  tell (.call .allocateDmaCopyResources)
  releasing (do
    tell (.call .getDmaMaxBufSize)
    tell (.call .ctxStart)
    releasing (do
      let cfg ← dpuNegotiateDmaDirectionAndSize e cfg
      memoryAllocAndPopulate cfg.fileSize
      releasing (dpuReceive cfg) (tell .free)) (tell (.call .requestStopCtx)))
    (tell (.call .destroyDmaCopyResources))

structure World where
  host : Side
  dpu : Side
  deriving DecidableEq

def hostPerform (c : Cmd) (o : Outcome) (w : World) : Option (Except DocaError Msg × World) :=
  (perform e c o w.host w.dpu).map fun (r, host, dpu) => (r, ⟨host, dpu⟩)

def dpuPerform (c : Cmd) (o : Outcome) (w : World) : Option (Except DocaError Msg × World) :=
  (perform e c o w.dpu w.host).map fun (r, dpu, host) => (r, ⟨host, dpu⟩)

def Side.start (file : Option File) : Side where
  sent := []
  read := 0
  file := file.map File.bytes
  buffer := none
  mmap := false
  passed := none
  copied := false

/-- The two programs, each started where the file is or is not. -/
def start : System Cmd Msg DocaError World where
  left := hostStartDmaCopy e (argsValidationCallback e.hostFile)
  right := dpuStartDmaCopy e (argsValidationCallback e.dpuFile)
  state := ⟨.start e.hostFile, .start e.dpuFile⟩

def step : System Cmd Msg DocaError World → Turn Outcome → System Cmd Msg DocaError World :=
  System.step (hostPerform e) (dpuPerform e)

end DocaApps.DmaCopy.Core
