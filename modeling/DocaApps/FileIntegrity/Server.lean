import DocaApps.Common.FileServer

namespace DocaApps.FileIntegrity.Server
open Common.FileServer Lib.Overwrite

def maxMsgSize : Nat := 4032

/-- The calls of the server that can fail, those of a message with its index. -/
inductive Call where
  | minDstBufferSize | partialBlockSize | allocReceivedSha | openFile
  | srcMemrange | srcFreeCb | srcStart | srcBuf | srcSetData
  | dstMinSize | dstAlloc | dstMemrange | dstFreeCb | dstStart | dstBuf
  | ctxStart | hashAlloc | hashSubmit | hashResult
  | maxSrcBufferSize | msgMemrange | msgStart | msgBuf | partialAlloc
  | setData (i : Nat) | setSrc (i : Nat) | setFinal | submit (i : Nat) | taskResult (i : Nat)
  | getDataLen | getData | allocShaOutput
  deriving DecidableEq, Repr

/-- All that the server cannot choose: the messages and failures it meets, the file that is
there before, and the engine. -/
structure Env where
  fails : Call → Option DocaError
  numOfIterations : Nat
  shaSize : Nat
  maxSourceBufferSize : Nat
  shaMsg : Received
  countMsg : Received
  dataMsg : Nat → Received
  written : Nat → Option Nat
  noTask : Bool
  sha : List UInt8 → List UInt8
  leftover : List UInt8
  oldFile : Option (List UInt8)
  removeFails : Bool
  finishMsg : Option DocaError

variable (env : Env)

/-- The result that the server gives to the failure of a call. -/
def Call.reported : Call → DocaError → DocaError
  | .allocReceivedSha, _ | .dstAlloc, _ | .allocShaOutput, _ => .noMemory
  | .openFile, _ => .ioFailed
  | _, err => err

def check (c : Call) : Option DocaError := (env.fails c).map c.reported

/-- Calls one after the other, up to the first that fails. -/
def firstError (calls : List Call) : Option DocaError := calls.findSome? (check env)

/-- What receiving the data has come to. `digest` is what the destination buffer holds, and
`hashed` tells whether the engine has put the hash of all the data there. -/
structure Transfer where
  result : Option DocaError
  file : List UInt8
  digest : List UInt8
  hashed : Bool
  deriving DecidableEq, Repr

def populateDstBuf : List Call := [.dstMinSize, .dstAlloc, .dstMemrange, .dstFreeCb, .dstStart, .dstBuf]

def calculateSha : List Call :=
  [.srcMemrange, .srcFreeCb, .srcStart, .srcBuf, .srcSetData] ++ populateDstBuf ++
    [.ctxStart, .hashAlloc, .hashSubmit, .hashResult]

/-- The branch for a single message. -/
def receiveOne (file : List UInt8) : Transfer :=
  match (env.dataMsg 0).waitFor env.numOfIterations .again with
  | .error err => ⟨some err, file, [], false⟩
  | .ok msg =>
    let file := writeAt file 0 msg (env.written 0)
    if env.written 0 ≠ some msg.length then ⟨some .ioFailed, file, [], false⟩
    else
      match firstError env calculateSha with
      | some err => ⟨some err, file, [], false⟩
      | none => ⟨none, file, env.sha msg, true⟩

/-- How the handling of one of several messages ends. -/
inductive Item where
  | failed (err : DocaError) (written : List UInt8)
  | taskFailed (msg : List UInt8)
  | done (msg : List UInt8)
  deriving DecidableEq, Repr

def partialItem (totalMsgs i : Nat) : Item :=
  match (env.dataMsg i).waitFor env.numOfIterations .timeOut with
  | .error err => .failed err []
  | .ok msg =>
    match firstError env [.setData i, .setSrc i] with
    | some err => .failed err []
    | none =>
      if env.written i ≠ some msg.length then .failed .ioFailed (msg.take ((env.written i).getD 0))
      else
        match (if i = totalMsgs - 1 then check env .setFinal else none) with
        | some err => .failed err msg
        | none =>
          match check env (.submit i) with
          | some err => .failed err msg
          | none => if (check env (.taskResult i)).isSome then .taskFailed msg else .done msg

/-- The messages from the `i`-th on, `n` of them, after these bytes. A task that fails
leaves the loop with the result of the call before. -/
def partialLoop (totalMsgs : Nat) (file : List UInt8) : Nat → Nat → List UInt8 → Transfer
  | 0, _, sofar => ⟨none, overwrite file 0 sofar, env.sha sofar, true⟩
  | n + 1, i, sofar =>
    match partialItem env totalMsgs i with
    | .failed err written =>
      ⟨some err, overwrite file 0 (sofar ++ written), [], false⟩
    | .taskFailed msg => ⟨none, overwrite file 0 (sofar ++ msg), env.leftover, false⟩
    | .done msg => partialLoop totalMsgs file n (i + 1) (sofar ++ msg)

def partialCalls : List Call :=
  populateDstBuf ++ [.ctxStart, .msgMemrange, .msgStart, .msgBuf, .partialAlloc]

def receiveAndCalculatePartialSha (totalMsgs : Nat) (file : List UInt8) : Transfer :=
  match check env .maxSrcBufferSize with
  | some err => ⟨some err, file, [], false⟩
  | none =>
    if env.maxSourceBufferSize < maxMsgSize then ⟨some .badState, file, [], false⟩
    else
      match firstError env partialCalls with
      | some err => ⟨some err, file, [], false⟩
      | none =>
        if env.noTask then ⟨none, file, env.leftover, false⟩
        else partialLoop env totalMsgs file totalMsgs 0 []

/-- What the server leaves: its result, the file, and whether it compared the hash of the
data with the one it received. -/
structure Outcome where
  result : Option DocaError
  file : Option (List UInt8)
  compared : Bool
  deriving DecidableEq, Repr

def finish (result : Option DocaError) (file : Option (List UInt8)) (compared : Bool) : Outcome :=
  ⟨afterFinish env.finishMsg result, file, compared⟩

/-- The buffer for the received hash: zeroed, and as long as a hash. -/
def receivedSha (msg : List UInt8) : List UInt8 :=
  (msg ++ List.replicate env.shaSize 0).take env.shaSize

/-- The comparison of the hashes, which leaves the result as it is. -/
def compareSha (shaMsg : List UInt8) (t : Transfer) : Outcome :=
  match firstError env [.getDataLen, .getData] with
  | some err => finish env (some err) (some t.file) false
  | none =>
    match check env .allocShaOutput with
    | some err => ⟨some err, some t.file, false⟩
    | none =>
      if t.digest = (receivedSha env shaMsg).take t.digest.length then
        finish env none (some t.file) t.hashed
      else finish env none (if env.removeFails then some t.file else none) t.hashed

def transfer (totalMsgs : Nat) (file : List UInt8) : Transfer :=
  if totalMsgs = 1 then receiveOne env file
  else receiveAndCalculatePartialSha env totalMsgs file

/-- The part after the two messages that announce the data. -/
def receiveData (shaMsg : List UInt8) (totalMsgs : Nat) : Outcome :=
  if totalMsgs < 1 then finish env (some .unexpected) env.oldFile false
  else
    match check env .openFile with
    | some err => finish env (some err) env.oldFile false
    | none =>
      let t := transfer env totalMsgs (env.oldFile.getD [])
      match t.result with
      | some err => finish env (some err) (some t.file) false
      | none => compareSha env shaMsg t

def fileIntegrityServer : Outcome :=
  match firstError env [.minDstBufferSize, .partialBlockSize, .allocReceivedSha] with
  | some err => ⟨some err, env.oldFile, false⟩
  | none =>
    match env.shaMsg.answer with
    | .error err => finish env (some err) env.oldFile false
    | .ok shaMsg =>
      match env.countMsg.waitFor env.numOfIterations .again with
      | .error err => finish env (some err) env.oldFile false
      | .ok countMsg =>
        if countMsg.length ≠ 4 then finish env none env.oldFile false
        else receiveData env shaMsg (ntoh countMsg)

end DocaApps.FileIntegrity.Server
