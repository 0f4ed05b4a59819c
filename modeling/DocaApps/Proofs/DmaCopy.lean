import DocaApps.Proofs.DmaCopyHost
import DocaApps.Proofs.DmaCopyDpu

namespace DocaApps.Proofs.DmaCopy
open DmaCopy.Core Lib.RelyGuarantee Lib.Runs Proofs.DmaCopyInvariant Proofs.DmaCopyHost
open Proofs.DmaCopyDpu

/-- The two sides agree once both have negotiated, and what each returns can be relied on. -/
structure Agreement (e : Setup) (y : System Cmd Msg DocaError World) : Prop where
  negotiated : ∀ hostCfg dpuCfg, y.state.host.passed = some hostCfg →
    y.state.dpu.passed = some dpuCfg → e.hostFile.isSome ≠ e.dpuFile.isSome ∧
      hostCfg.fileSize = dpuCfg.fileSize ∧
      hostCfg.isFileFoundLocally = !dpuCfg.isFileFoundLocally
  host : y.left.result? = some (.ok ()) → y.state.dpu.copied = true ∧
    ∃ f, (e.hostFile = some f ∨ e.dpuFile = some f) ∧ y.state.host.file = some f.bytes ∧
      y.state.dpu.file = some f.bytes
  dpu : y.right.result? = some (.ok ()) → y.state.dpu.copied = true ∧
    (e.dpuFile = none → ∃ f, e.hostFile = some f ∧ y.state.host.file = some f.bytes ∧
      y.state.dpu.file = some f.bytes)

/-- A turn whose outcome is a careful one. -/
def CarefulTurn : System Cmd Msg DocaError World → Turn Outcome → Prop :=
  System.Careful (fun c o _ => Careful c o) fun c o _ => Careful c o

variable {e : Setup} {turns : List (Turn Outcome)}

theorem start_inv : Inv e (start e).state where
  hostFile := by
    intro f hf
    rw [start, Side.start, hf]
    rfl
  dpuFile := by
    intro f hf
    rw [start, Side.start, Side.start, hf]
    rfl
  hostPassed := fun _ h => absurd h (by simp [start, Side.start])
  dpuPassed := fun _ h => absurd h (by simp [start, Side.start])
  hostSent := List.nil_prefix
  filled := fun h => absurd h (by simp [start, Side.start])
  bufferLength := fun _ h => absurd h (by simp [start, Side.start])
  direction := fun _ h => absurd h (by simp [start, Side.start])
  finished := fun _ h => absurd h (by simp [start, Side.start])
  copiedLate := fun h => absurd h (by simp [start, Side.start])
  copied := fun h => absurd h (by simp [start, Side.start])

theorem start_sound :
    Sound (host e) (dpu e) (Post (fun _ w => HostDone e w ∧ OneSide e) (Inv e))
      (Post (fun _ => DpuDone e) (Inv e)) (Inv e) (start e) where
  left := host_done _ ⟨start_inv, rfl, rfl⟩
  right := dpu_done _ ⟨start_inv, rfl, rfl, Nat.zero_le _, fun _ h => absurd h (by
    simp [start, Side.start])⟩
  inv := start_inv

theorem run_sound (h : Along (step e) CarefulTurn (start e) turns) :
    Sound (host e) (dpu e) (Post (fun _ w => HostDone e w ∧ OneSide e) (Inv e))
      (Post (fun _ => DpuDone e) (Inv e)) (Inv e) (run (step e) (start e) turns) :=
  start_sound.run (fun _ _ h => h) (fun _ _ h => h) (fun _ _ h hinv => DpuRely.inv h hinv)
    (fun _ _ h hinv => HostRely.inv h hinv) h

/-- Through every run in which no `fclose` loses data and no DMA task reads a freed buffer. -/
theorem run_agrees (h : Along (step e) CarefulTurn (start e) turns) :
    Agreement e (run (step e) (start e) turns) := by
  have hsound := run_sound h
  have hinv := hsound.inv
  refine ⟨?_, ?_, ?_⟩
  · intro hostCfg dpuCfg hhost hdpu
    obtain ⟨hside, rfl⟩ := hinv.hostPassed hostCfg hhost
    obtain ⟨-, rfl⟩ := hinv.dpuPassed dpuCfg hdpu
    exact ⟨hside, rfl, Bool.eq_not.mpr hside⟩
  · intro hended
    obtain ⟨⟨-, ⟨msg, hmsg, hsuccess⟩, hcopy⟩, hside⟩ := hsound.left.ended hended
    obtain ⟨hcopied, hsaved⟩ := hinv.finished msg hmsg hsuccess
    refine ⟨hcopied, ?_⟩
    cases hfile : e.dpuFile with
    | some f => exact ⟨f, .inr rfl, hcopy f hfile, hinv.dpuFile f hfile⟩
    | none =>
      obtain ⟨f, hf⟩ := exists_hostFile hside hfile
      exact ⟨f, .inl hf, hinv.hostFile f hf, hsaved f hf⟩
  · intro hended
    obtain ⟨-, hside, hcopied, hsaved⟩ := hsound.right.ended hended
    refine ⟨hcopied, ?_⟩
    intro hnone
    obtain ⟨f, hf⟩ := exists_hostFile hside hnone
    exact ⟨f, hf, hinv.hostFile f hf, hsaved f hf⟩

/-- A host with a file of three bytes, and a DPU without one. -/
def fileOnHost : Setup where
  maxBufSize := 2097152
  bufferAddr := 4096
  exportDesc := [1, 2, 3, 4]
  hostFile := some ⟨[7, 8, 9], by decide⟩
  dpuFile := none

def hostWorks (n : Nat) : List (Turn Outcome) := List.replicate n (.left .ok)

def dpuWorks (n : Nat) : List (Turn Outcome) := List.replicate n (.right .ok)

/-- A run to the point where the host has sent its last message. -/
def untilLength : List (Turn Outcome) :=
  [dpuWorks 4, hostWorks 3, dpuWorks 4, [.right (.holds [0, 0, 0])], hostWorks 6,
    [.left (.holds [0, 0, 0])], hostWorks 2, dpuWorks 3, hostWorks 3, dpuWorks 2,
    hostWorks 2].flatten

/-- The rest of the run, with this outcome when the DPU writes the file. -/
def copyAndSave (save : Outcome) : List (Turn Outcome) :=
  [dpuWorks 9, [.right save], dpuWorks 7, hostWorks 5].flatten

/-- The rest of the run when the host fails to receive and frees its buffer before the DPU
copies it. -/
def freeAndCopy : List (Turn Outcome) :=
  [[.left (.fails .notConnected)], hostWorks 1, dpuWorks 8, [.right (.holds [0, 0, 0])],
    dpuWorks 8].flatten

def runFileOnHost (turns : List (Turn Outcome)) : System Cmd Msg DocaError World :=
  run (step fileOnHost) (start fileOnHost) (untilLength ++ turns)

theorem run_agrees_file_on_host :
    (runFileOnHost (copyAndSave .ok)).left.result? = some (.ok ()) ∧
      (runFileOnHost (copyAndSave .ok)).right.result? = some (.ok ()) ∧
      Agreement fileOnHost (runFileOnHost (copyAndSave .ok)) := by
  have hcareful : Along (step fileOnHost) CarefulTurn (start fileOnHost)
      (untilLength ++ copyAndSave .ok) := by
    unfold CarefulTurn
    decide +kernel
  exact ⟨by decide +kernel, by decide +kernel, run_agrees hcareful⟩

/-- Both sides succeed and the DPU has an empty file; or the DPU succeeds and its file is not
the host's. -/
theorem success_without_copy :
    ¬ Agreement fileOnHost (runFileOnHost (copyAndSave (.lost []))) ∧
      ¬ Agreement fileOnHost (runFileOnHost freeAndCopy) := by
  constructor
  · intro h
    have hended : (runFileOnHost (copyAndSave (.lost []))).left.result? = some (.ok ()) := by
      decide +kernel
    obtain ⟨-, f, -, hhost, hdpu⟩ := h.host hended
    have hdiffer : (runFileOnHost (copyAndSave (.lost []))).state.host.file ≠
        (runFileOnHost (copyAndSave (.lost []))).state.dpu.file := by decide +kernel
    exact hdiffer (hhost.trans hdpu.symm)
  · intro h
    have hended : (runFileOnHost freeAndCopy).right.result? = some (.ok ()) := by decide +kernel
    obtain ⟨-, hsaved⟩ := h.dpu hended
    obtain ⟨f, -, hhost, hdpu⟩ := hsaved rfl
    have hdiffer : (runFileOnHost freeAndCopy).state.host.file ≠
        (runFileOnHost freeAndCopy).state.dpu.file := by decide +kernel
    exact hdiffer (hhost.trans hdpu.symm)

end DocaApps.Proofs.DmaCopy
