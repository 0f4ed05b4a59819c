import DocaApps.Common.ReceiveTimeout
import DocaApps.Proofs.FileIntegrity
import DocaApps.Proofs.FileCompression

namespace DocaApps.Proofs.ReceiveTimeouts
open Common.FileServer Common.ReceiveTimeout

variable {channel : Channel} {timedOut : DocaError} {bound counter timeout : BitVec 32}
  {left call n : Nat}

theorem receivedFrom_again (hcall : channel call = .error .again) :
    receivedFrom channel (left + 1) call =
      Received.afterAgain (receivedFrom channel left (call + 1)) := by
  simp [receivedFrom, hcall]

theorem receivedFrom_answer (hcall : channel call ≠ .error .again) :
    receivedFrom channel left call = ⟨0, channel call⟩ := by
  cases left with
  | zero => rfl
  | succ left =>
    rw [receivedFrom]
    split
    · contradiction
    · rfl

theorem again_le : (receivedFrom channel left call).again ≤ left := by
  induction left generalizing call with
  | zero => exact Nat.zero_le 0
  | succ left ih =>
    by_cases hcall : channel call = .error .again
    · rw [receivedFrom_again hcall]
      exact Nat.succ_le_succ ih
    · rw [receivedFrom_answer hcall]
      exact Nat.zero_le _

namespace Integrity
open FileIntegrity.Server Proofs.FileIntegrity

/-- The loops of `file_integrity_server` that count. -/
inductive Loop where
  | totalMsgs | onlyMsg | partialMsg (i : Nat)

def Loop.answers (channels : Channels) : Loop → Channel
  | .totalMsgs => channels.count
  | .onlyMsg => channels.data 0
  | .partialMsg i => channels.data i

def Loop.received (env : Env) : Loop → Received
  | .totalMsgs => env.countMsg
  | .onlyMsg => env.dataMsg 0
  | .partialMsg i => env.dataMsg i

/-- The server comes to the loop. -/
def Loop.Reached (env : Env) : Loop → Prop
  | .totalMsgs => firstError env [.minDstBufferSize, .partialBlockSize, .allocReceivedSha] = none ∧
      ∃ shaMsg, env.shaMsg.answer = .ok shaMsg
  | .onlyMsg => ∃ shaMsg, Opened env shaMsg 1
  | .partialMsg i => ∃ shaMsg totalMsgs msgs, Opened env shaMsg totalMsgs ∧ totalMsgs ≠ 1 ∧
      Ready env ∧ env.noTask = false ∧ msgs.length = i ∧ i < totalMsgs ∧
        AllDone env totalMsgs 0 msgs

variable {env : Env} {totalMsgs : Nat} {msgs : List (List UInt8)} {file : List UInt8}

end Integrity

namespace Compression
open FileCompression.Server Proofs.FileCompression Lib.Fallible

/-- The loops of `file_compression_server` that count. -/
inductive Loop where
  | totalMsgs | fileMsg (i : Nat)

def Loop.answers (channels : Channels) : Loop → Channel
  | .totalMsgs => channels.count
  | .fileMsg i => channels.data i

def Loop.received (env : Env) : Loop → Received
  | .totalMsgs => env.countMsg
  | .fileMsg i => env.dataMsg i

/-- The server comes to the loop. -/
def Loop.Reached (env : Env) : Loop → Prop
  | .totalMsgs => ∃ checksumMsg, env.checksumMsg.answer = .ok checksumMsg ∧ checksumMsg.length = 8
  | .fileMsg i => ∃ checksumMsg totalMsgs msgs, Announced env checksumMsg totalMsgs ∧
      msgs.length = i ∧ i < totalMsgs ∧ Comes env 0 msgs ∧ msgs.flatten.length ≤ env.maxBufSize

variable {env : Env}

end Compression

end DocaApps.Proofs.ReceiveTimeouts
