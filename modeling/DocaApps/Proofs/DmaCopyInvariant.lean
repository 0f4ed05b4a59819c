import DocaApps.DmaCopy.Core

namespace DocaApps.Proofs.DmaCopyInvariant
open Common.FileServer DmaCopy.Core Lib.Overwrite Lib.RelyGuarantee

@[simp]
theorem ntohq_htonq (v : UInt64) : ntohq (htonq v) = v := by
  have hv := v.toNat_lt
  apply UInt64.toNat_inj.mp
  rw [ntohq, UInt64.toNat_ofNat']
  simp only [ntoh, htonq, List.foldl_cons, List.foldl_nil, UInt8.toNat_ofNat']
  omega

@[simp]
theorem length_directionMsg (b : Bool) (v : UInt64) :
    (directionMsg b v).length = directionMsgSize := rfl

@[simp]
theorem fileInHost_directionMsg (b : Bool) (v : UInt64) : fileInHost (directionMsg b v) = b := by
  cases b with
  | true => rfl
  | false => rfl

@[simp]
theorem fileSizeOf_directionMsg (b : Bool) (v : UInt64) : fileSizeOf (directionMsg b v) = v :=
  ntohq_htonq v

@[simp]
theorem isSuccess_statusMsg (b : Bool) : isSuccess (statusMsg b) = b := by
  cases b with
  | true => rfl
  | false => rfl

theorem File.toNat_size (f : File) : f.size.toNat = f.bytes.length := by
  have hfits := f.fits
  rw [File.size, UInt64.toNat_ofNat']
  omega

@[simp]
theorem args_found (file : Option File) :
    (argsValidationCallback file).isFileFoundLocally = file.isSome := by
  cases file with
  | none => rfl
  | some f => rfl

@[simp]
theorem args_size (file : Option File) :
    (if file.isSome then (argsValidationCallback file).fileSize else 0) =
      (argsValidationCallback file).fileSize := by
  cases file with
  | none => rfl
  | some f => rfl

variable (e : Setup)

def OneSide : Prop := e.hostFile.isSome ≠ e.dpuFile.isSome

def copySize : UInt64 :=
  match e.hostFile, e.dpuFile with
  | some f, _ => f.size
  | none, some f => f.size
  | none, none => 0

variable {e} in
theorem copySize_of_host {f : File} (hf : e.hostFile = some f) : copySize e = f.size := by
  rw [copySize, hf]

variable {e} in
theorem copySize_of_dpu {f : File} (hside : OneSide e) (hf : e.dpuFile = some f) :
    e.hostFile = none ∧ copySize e = f.size := by
  cases hhost : e.hostFile with
  | some g =>
    rw [OneSide, hhost, hf] at hside
    exact absurd rfl hside
  | none =>
    rw [copySize, hhost, hf]
    exact ⟨rfl, rfl⟩

variable {e} in
theorem exists_hostFile (hside : OneSide e) (hnone : e.dpuFile = none) :
    ∃ f, e.hostFile = some f := by
  cases hhost : e.hostFile with
  | some f => exact ⟨f, rfl⟩
  | none =>
    rw [OneSide, hhost, hnone] at hside
    exact absurd rfl hside

/-- All the messages that the host sends. -/
def hostMsgs : List Msg :=
  [directionMsg e.hostFile.isSome (argsValidationCallback e.hostFile).fileSize, e.exportDesc,
    htonq e.bufferAddr, htonq (copySize e)]

/-- A file on the host is in its buffer. -/
def Filled (w : World) : Prop :=
  ∀ f buffer, e.hostFile = some f → w.host.buffer = some buffer → buffer = f.bytes

/-- The copy is done, and a file of the host is on the DPU. -/
def Finished (w : World) : Prop :=
  w.dpu.copied = true ∧ ∀ f, e.hostFile = some f → w.dpu.file = some f.bytes

/-- What holds all the time, whoever has got how far. -/
structure Inv (w : World) : Prop where
  hostFile : ∀ f, e.hostFile = some f → w.host.file = some f.bytes
  dpuFile : ∀ f, e.dpuFile = some f → w.dpu.file = some f.bytes
  hostPassed : ∀ cfg, w.host.passed = some cfg →
    OneSide e ∧ cfg = ⟨e.hostFile.isSome, copySize e⟩
  dpuPassed : ∀ cfg, w.dpu.passed = some cfg →
    OneSide e ∧ cfg = ⟨e.dpuFile.isSome, copySize e⟩
  hostSent : w.host.sent <+: hostMsgs e
  filled : 2 < w.host.sent.length → Filled e w
  bufferLength : ∀ buffer, w.host.buffer = some buffer → buffer.length = (copySize e).toNat
  direction : ∀ msg, w.dpu.sent[0]? = some msg → msg.length = directionMsgSize →
    OneSide e ∧ msg = directionMsg (!e.dpuFile.isSome) (argsValidationCallback e.dpuFile).fileSize
  finished : ∀ msg, w.dpu.sent[4]? = some msg → isSuccess msg = true → Finished e w
  copiedLate : w.dpu.copied = true → 3 < w.host.sent.length
  copied : w.dpu.copied = true → ∀ f buffer, e.dpuFile = some f →
    w.host.buffer = some buffer → buffer = f.bytes

/-- What the DPU may do between two steps of the host: it sends messages, and it writes into
the buffer of a host that has no file. -/
structure HostRely (w t : World) : Prop where
  host : t.host = { w.host with buffer := t.host.buffer }
  buffer : ∀ f, e.hostFile = some f → t.host.buffer = w.host.buffer
  sent : w.dpu.sent <+: t.dpu.sent
  inv : Inv e w → Inv e t

/-- What the host may do between two steps of the DPU. -/
structure DpuRely (w t : World) : Prop where
  dpu : t.dpu = w.dpu
  sent : w.host.sent <+: t.host.sent
  inv : Inv e w → Inv e t

/-- Every `fclose` writes out what is left, and no DMA task reads a buffer of the host that is
freed already. -/
def Careful (c : Cmd) (o : Outcome) : Prop :=
  match c, o with
  | .fwrite _, .lost _ => False
  | .memcpyTask false _ _, .holds _ => False
  | _, _ => True

instance (c : Cmd) (o : Outcome) : Decidable (Careful c o) := by
  unfold Careful
  split <;> infer_instance

theorem HostRely.refl (w : World) : HostRely e w w :=
  ⟨rfl, fun _ _ => rfl, List.prefix_rfl, id⟩

theorem DpuRely.refl (w : World) : DpuRely e w w := ⟨rfl, List.prefix_rfl, id⟩

theorem HostRely.trans {w t u : World} (h : HostRely e w t) (h' : HostRely e t u) :
    HostRely e w u := by
  refine ⟨?_, ?_, h.sent.trans h'.sent, fun hinv => h'.inv (h.inv hinv)⟩
  · rw [h'.host, h.host]
  · intro f hf
    rw [h'.buffer f hf, h.buffer f hf]

theorem DpuRely.trans {w t u : World} (h : DpuRely e w t) (h' : DpuRely e t u) :
    DpuRely e w u :=
  ⟨h'.dpu.trans h.dpu, h.sent.trans h'.sent, fun hinv => h'.inv (h.inv hinv)⟩

def host : Party Cmd Msg DocaError Outcome World where
  perform := hostPerform e
  careful c o _ := Careful c o
  rely := HostRely e
  guar := DpuRely e
  rely_refl := HostRely.refl e
  rely_trans := HostRely.trans e

def dpu : Party Cmd Msg DocaError Outcome World where
  perform := dpuPerform e
  careful c o _ := Careful c o
  rely := DpuRely e
  guar := HostRely e
  rely_refl := DpuRely.refl e
  rely_trans := DpuRely.trans e

section Perform

variable {e : Setup} {c : Cmd} {o : Outcome} {r : Except DocaError Msg}
  {me other me' other' : Side} {w t : World}

theorem hostPerform_eq (h : hostPerform e c o w = some (r, t)) :
    perform e c o w.host w.dpu = some (r, t.host, t.dpu) := by
  obtain ⟨⟨r', me', other'⟩, hperform, heq⟩ := Option.map_eq_some_iff.mp h
  obtain ⟨rfl, rfl⟩ := Prod.mk.inj heq
  exact hperform

theorem dpuPerform_eq (h : dpuPerform e c o w = some (r, t)) :
    perform e c o w.dpu w.host = some (r, t.dpu, t.host) := by
  obtain ⟨⟨r', me', other'⟩, hperform, heq⟩ := Option.map_eq_some_iff.mp h
  obtain ⟨rfl, rfl⟩ := Prod.mk.inj heq
  exact hperform

theorem mayFail_cases {works : Option (Except DocaError Msg × Side × Side)}
    (h : mayFail o me other works = some (r, me', other')) :
    (∃ err, r = .error err ∧ me' = me ∧ other' = other) ∨ works = some (r, me', other') := by
  cases o with
  | ok => exact .inr h
  | fails err =>
    obtain ⟨rfl, rfl, rfl⟩ : _ = r ∧ me = me' ∧ other = other' := by simpa [mayFail] using h
    exact .inl ⟨err, rfl, rfl, rfl⟩
  | holds | short | lost => contradiction

theorem perform_call {call : Call} (h : perform e (.call call) o me other = some (r, me', other')) :
    me' = me ∧ other' = other := by
  rcases mayFail_cases h with ⟨-, -, hme, hother⟩ | hworks
  · exact ⟨hme, hother⟩
  · obtain ⟨-, rfl, rfl⟩ : _ ∧ me = me' ∧ other = other' := by simpa using hworks
    exact ⟨rfl, rfl⟩

theorem perform_sendto {msg : Msg} (h : perform e (.sendto msg) o me other = some (r, me', other')) :
    other' = other ∧ ((∃ err, r = .error err ∧ me' = me) ∨
      r = .ok [] ∧ me' = { me with sent := me.sent ++ [msg] }) := by
  rcases mayFail_cases h with ⟨err, hr, hme, hother⟩ | hworks
  · exact ⟨hother, .inl ⟨err, hr, hme⟩⟩
  · obtain ⟨rfl, rfl, rfl⟩ : _ = r ∧ _ = me' ∧ other = other' := by simpa using hworks
    exact ⟨rfl, .inr ⟨rfl, rfl⟩⟩

theorem perform_recvfrom {n : Nat} (h : perform e (.recvfrom n) o me other = some (r, me', other')) :
    other' = other ∧ ((∃ err, r = .error err ∧ me' = me) ∨
      ∃ msg, other.sent[me.read]? = some msg ∧ r = .ok msg ∧
        me' = { me with read := me.read + 1 }) := by
  rcases mayFail_cases h with ⟨err, hr, hme, hother⟩ | hworks
  · exact ⟨hother, .inl ⟨err, hr, hme⟩⟩
  · unfold recvfrom at hworks
    split at hworks
    · rename_i msg hmsg
      split at hworks
      · obtain ⟨rfl, rfl, rfl⟩ : _ = r ∧ _ = me' ∧ other = other' := by simpa using hworks
        exact ⟨rfl, .inr ⟨msg, hmsg, rfl, rfl⟩⟩
      · contradiction
    · contradiction

theorem perform_passes {cfg : Cfg} (h : perform e (.passes cfg) o me other = some (r, me', other')) :
    other' = other ∧ r = .ok [] ∧ me' = { me with passed := some cfg } := by
  obtain ⟨rfl, rfl, rfl⟩ : _ = r ∧ _ = me' ∧ other = other' := by simpa [perform] using h
  exact ⟨rfl, rfl, rfl⟩

theorem perform_mallocAndStart {len : UInt64}
    (h : perform e (.mallocAndStart len) o me other = some (r, me', other')) :
    other' = other ∧ ((∃ err, r = .error err ∧ me' = me) ∨
      ∃ bytes, bytes.length = len.toNat ∧ r = .ok [] ∧ me' = { me with buffer := some bytes }) := by
  change mallocAndStart len o me other = some (r, me', other') at h
  unfold mallocAndStart at h
  split at h
  · rename_i bytes
    split at h
    · rename_i hlength
      obtain ⟨rfl, rfl, rfl⟩ : _ = r ∧ _ = me' ∧ other = other' := by simpa using h
      exact ⟨rfl, .inr ⟨bytes, hlength, rfl, rfl⟩⟩
    · contradiction
  · rename_i err
    obtain ⟨rfl, rfl, rfl⟩ : _ = r ∧ me = me' ∧ other = other' := by simpa using h
    exact ⟨rfl, .inl ⟨err, rfl, rfl⟩⟩
  · contradiction

theorem perform_exportPci (h : perform e .exportPci o me other = some (r, me', other')) :
    other' = other ∧ ((∃ err, r = .error err ∧ me' = me) ∨
      r = .ok e.exportDesc ∧ me' = { me with mmap := true }) := by
  rcases mayFail_cases h with ⟨err, hr, hme, hother⟩ | hworks
  · exact ⟨hother, .inl ⟨err, hr, hme⟩⟩
  · obtain ⟨rfl, rfl, rfl⟩ : _ = r ∧ _ = me' ∧ other = other' := by simpa using hworks
    exact ⟨rfl, .inr ⟨rfl, rfl⟩⟩

theorem perform_createFromExport {desc : Msg}
    (h : perform e (.createFromExport desc) o me other = some (r, me', other')) :
    me' = me ∧ other' = other := by
  rcases mayFail_cases h with ⟨-, -, hme, hother⟩ | hworks
  · exact ⟨hme, hother⟩
  · split at hworks
    · obtain ⟨-, rfl, rfl⟩ : _ ∧ me = me' ∧ other = other' := by simpa using hworks
      exact ⟨rfl, rfl⟩
    · contradiction

theorem perform_fread {size : UInt64} (h : perform e (.fread size) o me other = some (r, me', other')) :
    other' = other ∧ ((∃ err, r = .error err ∧ me' = me) ∨
      ∃ file buffer, me.file = some file ∧ me.buffer = some buffer ∧ r = .ok [] ∧
        me' = { me with buffer := some (overwrite buffer 0 (file.take size.toNat)) }) := by
  change fread size o me other = some (r, me', other') at h
  unfold fread at h
  split at h
  · rename_i file buffer hfile hbuffer
    split at h
    · obtain ⟨rfl, rfl, rfl⟩ : _ = r ∧ _ = me' ∧ other = other' := by simpa using h
      exact ⟨rfl, .inr ⟨file, buffer, hfile, hbuffer, rfl, rfl⟩⟩
    · contradiction
  · obtain ⟨rfl, rfl, rfl⟩ : _ = r ∧ me = me' ∧ other = other' := by simpa using h
    exact ⟨rfl, .inl ⟨_, rfl, rfl⟩⟩
  · contradiction

theorem perform_fwrite {size : UInt64} (hcareful : Careful (.fwrite size) o)
    (h : perform e (.fwrite size) o me other = some (r, me', other')) :
    other' = other ∧ ((∃ err file, r = .error err ∧ me' = { me with file := file }) ∨
      ∃ buffer, me.buffer = some buffer ∧ r = .ok [] ∧
        me' = { me with file := some (buffer.take size.toNat) }) := by
  change fwrite size o me other = some (r, me', other') at h
  unfold fwrite at h
  split at h
  · rename_i buffer hbuffer
    obtain ⟨rfl, rfl, rfl⟩ : _ = r ∧ _ = me' ∧ other = other' := by simpa using h
    exact ⟨rfl, .inr ⟨buffer, hbuffer, rfl, rfl⟩⟩
  · rename_i bytes
    obtain ⟨rfl, rfl, rfl⟩ : _ = r ∧ _ = me' ∧ other = other' := by simpa using h
    exact ⟨rfl, .inl ⟨_, some bytes, rfl, rfl⟩⟩
  · exact hcareful.elim
  · obtain ⟨rfl, rfl, rfl⟩ : _ = r ∧ me = me' ∧ other = other' := by simpa using h
    exact ⟨rfl, .inl ⟨_, me.file, rfl, rfl⟩⟩
  · contradiction

theorem perform_free (h : perform e .free o me other = some (r, me', other')) :
    other' = other ∧ me' = { me with buffer := none } := by
  obtain ⟨-, rfl, rfl⟩ : _ ∧ _ = me' ∧ other = other' := by simpa [perform] using h
  exact ⟨rfl, rfl⟩

theorem perform_mmapDestroy (h : perform e .mmapDestroy o me other = some (r, me', other')) :
    other' = other ∧ ∃ mmap, me' = { me with mmap := mmap } := by
  rcases mayFail_cases h with ⟨-, -, hme, hother⟩ | hworks
  · exact ⟨hother, me.mmap, hme⟩
  · obtain ⟨-, rfl, rfl⟩ : _ ∧ _ = me' ∧ other = other' := by simpa using hworks
    exact ⟨rfl, false, rfl⟩

/-- A task of the DPU either fails, or writes into what buffer the host still has, or reads
it. -/
theorem perform_memcpyTask {found : Bool} {addr len : UInt64}
    (hcareful : Careful (.memcpyTask found addr len) o)
    (h : perform e (.memcpyTask found addr len) o me other = some (r, me', other')) :
    (∃ err, r = .error err ∧ me' = me ∧ other' = other) ∨
      r = .ok [] ∧ ∃ buffer, me.buffer = some buffer ∧
        ((found = true ∧ me' = { me with copied := true } ∧
            (other.buffer = none ∧ other' = other ∨ ∃ remote new, other.buffer = some remote ∧
              new = overwrite remote (addr.toNat - e.bufferAddr.toNat) (buffer.take len.toNat) ∧
              other' = { other with buffer := some new })) ∨
          found = false ∧ other' = other ∧ ∃ remote new, other.buffer = some remote ∧
            new = overwrite buffer 0
              (slice remote (addr.toNat - e.bufferAddr.toNat) len.toNat) ∧
            me' = { me with buffer := some new, copied := true }) := by
  change memcpyTask e found addr len o me other = some (r, me', other') at h
  unfold memcpyTask at h
  split at h
  · rename_i err
    obtain ⟨rfl, rfl, rfl⟩ : _ = r ∧ me = me' ∧ other = other' := by simpa using h
    exact .inl ⟨err, rfl, rfl, rfl⟩
  · rename_i buffer remote hbuffer hremote
    rw [Option.ite_none_right_eq_some] at h
    cases found with
    | true =>
      obtain ⟨rfl, rfl, rfl⟩ : _ = r ∧ _ = me' ∧ _ = other' := by simpa using h.2
      exact .inr ⟨rfl, buffer, hbuffer, .inl ⟨rfl, rfl, .inr ⟨remote, _, hremote, rfl, rfl⟩⟩⟩
    | false =>
      obtain ⟨rfl, rfl, rfl⟩ : _ = r ∧ _ = me' ∧ _ = other' := by simpa using h.2
      exact .inr ⟨rfl, buffer, hbuffer, .inr ⟨rfl, rfl, remote, _, hremote, rfl, rfl⟩⟩
  · rename_i bytes buffer hbuffer hremote
    rw [Option.ite_none_right_eq_some] at h
    cases found with
    | true =>
      obtain ⟨rfl, rfl, rfl⟩ : _ = r ∧ _ = me' ∧ _ = other' := by simpa using h.2
      exact .inr ⟨rfl, buffer, hbuffer, .inl ⟨rfl, rfl, .inl ⟨hremote, rfl⟩⟩⟩
    | false => exact hcareful.elim
  · contradiction

end Perform

section Invariant

variable {e : Setup} {w : World} {msg : Msg} {cfg : Cfg} {file buffer : Option (List UInt8)}

theorem prefix_concat {l m : List Msg} (h : l <+: m) (hmsg : m[l.length]? = some msg) :
    l ++ [msg] <+: m := by
  obtain ⟨rest, rfl⟩ := h
  rw [List.getElem?_append_right (Nat.le_refl _), Nat.sub_self] at hmsg
  cases rest with
  | nil => contradiction
  | cons a rest =>
    obtain rfl := Option.some.inj hmsg
    exact ⟨rest, by rw [List.append_assoc]; rfl⟩

theorem getElem?_of_longer {l m : List Msg} {i : Nat} (h : l <+: m) (hmsg : l[i]? = some msg) :
    m[i]? = some msg := by
  obtain ⟨rest, rfl⟩ := h
  obtain ⟨hi, -⟩ := List.getElem?_eq_some_iff.mp hmsg
  rw [List.getElem?_append_left hi]
  exact hmsg

theorem Inv.hostSend (h : Inv e w) (hmsg : (hostMsgs e)[w.host.sent.length]? = some msg)
    (hfilled : w.host.sent.length = 2 → Filled e w) :
    Inv e ⟨{ w.host with sent := w.host.sent ++ [msg] }, w.dpu⟩ where
  hostFile := h.hostFile
  dpuFile := h.dpuFile
  hostPassed := h.hostPassed
  dpuPassed := h.dpuPassed
  hostSent := prefix_concat h.hostSent hmsg
  filled := by
    intro hlength
    rw [List.length_append, List.length_singleton] at hlength
    rcases Nat.eq_or_lt_of_le (Nat.le_of_lt_succ hlength) with htwo | hlate
    · exact hfilled htwo.symm
    · exact h.filled hlate
  bufferLength := h.bufferLength
  direction := h.direction
  finished := h.finished
  copiedLate := by
    intro hcopied
    rw [List.length_append]
    exact Nat.lt_of_lt_of_le (h.copiedLate hcopied) (Nat.le_add_right _ _)
  copied := h.copied

theorem Inv.hostPass (h : Inv e w) (hside : OneSide e)
    (hcfg : cfg = ⟨e.hostFile.isSome, copySize e⟩) :
    Inv e ⟨{ w.host with passed := some cfg }, w.dpu⟩ :=
  { h with hostPassed := fun _ heq => ⟨hside, (Option.some.inj heq).symm.trans hcfg⟩ }

/-- The host changes its buffer, before it has told the DPU where it is. -/
theorem Inv.hostBuffer (h : Inv e w) (hsent : w.host.sent.length ≤ 2)
    (hlength : ∀ bytes, buffer = some bytes → bytes.length = (copySize e).toNat) :
    Inv e ⟨{ w.host with buffer := buffer }, w.dpu⟩ :=
  { h with
    filled := fun hlate => absurd hlate (Nat.not_lt.mpr hsent)
    bufferLength := hlength
    copied := fun hcopied => absurd (h.copiedLate hcopied) (by omega) }

theorem Inv.hostFree (h : Inv e w) : Inv e ⟨{ w.host with buffer := none }, w.dpu⟩ :=
  { h with
    filled := fun _ _ _ _ hbuffer => absurd hbuffer (by simp)
    bufferLength := fun _ hbuffer => absurd hbuffer (by simp)
    copied := fun _ _ _ _ hbuffer => absurd hbuffer (by simp) }

theorem Inv.hostWrite (h : Inv e w) (hnone : e.hostFile = none) :
    Inv e ⟨{ w.host with file := file }, w.dpu⟩ :=
  { h with hostFile := fun f hf => absurd (hnone.symm.trans hf) (by simp) }

/-- Only the first and the last of the DPU's messages say something. -/
theorem Inv.dpuSend (h : Inv e w)
    (hdirection : w.dpu.sent.length = 0 → msg.length = directionMsgSize → OneSide e ∧
      msg = directionMsg (!e.dpuFile.isSome) (argsValidationCallback e.dpuFile).fileSize)
    (hfinished : w.dpu.sent.length = 4 → isSuccess msg = true → Finished e w) :
    Inv e ⟨w.host, { w.dpu with sent := w.dpu.sent ++ [msg] }⟩ := by
  have hsplit : ∀ i msg', (w.dpu.sent ++ [msg])[i]? = some msg' →
      w.dpu.sent[i]? = some msg' ∨ w.dpu.sent.length = i ∧ msg = msg' := by
    intro i msg' hmsg'
    by_cases hi : i < w.dpu.sent.length
    · rw [List.getElem?_append_left hi] at hmsg'
      exact .inl hmsg'
    · rw [List.getElem?_append_right (Nat.not_lt.mp hi), List.getElem?_singleton] at hmsg'
      split at hmsg'
      · exact .inr ⟨by omega, Option.some.inj hmsg'⟩
      · contradiction
  refine { h with direction := ?_, finished := ?_ }
  · intro msg' hmsg' hlength
    rcases hsplit 0 msg' hmsg' with hold | ⟨hzero, rfl⟩
    · exact h.direction msg' hold hlength
    · exact hdirection hzero hlength
  · intro msg' hmsg' hsuccess
    rcases hsplit 4 msg' hmsg' with hold | ⟨hfour, rfl⟩
    · exact h.finished msg' hold hsuccess
    · exact hfinished hfour hsuccess

theorem Inv.dpuPass (h : Inv e w) (hside : OneSide e)
    (hcfg : cfg = ⟨e.dpuFile.isSome, copySize e⟩) :
    Inv e ⟨w.host, { w.dpu with passed := some cfg }⟩ :=
  { h with dpuPassed := fun _ heq => ⟨hside, (Option.some.inj heq).symm.trans hcfg⟩ }

theorem Inv.dpuBuffer (h : Inv e w) : Inv e ⟨w.host, { w.dpu with buffer := buffer }⟩ :=
  { h with }

/-- The DPU writes its file before it has sent the last message. -/
theorem Inv.dpuWrite (h : Inv e w) (hnone : e.dpuFile = none) (hsent : w.dpu.sent.length ≤ 4) :
    Inv e ⟨w.host, { w.dpu with file := file }⟩ :=
  { h with
    dpuFile := fun f hf => absurd (hnone.symm.trans hf) (by simp)
    finished := by
      intro msg hmsg
      rw [List.getElem?_eq_none hsent] at hmsg
      contradiction }

/-- The copy is done once the host has sent everything and before the DPU reports it. -/
theorem Inv.copy {hostBuffer : Option (List UInt8)} (h : Inv e w)
    (hheard : 3 < w.host.sent.length) (hsent : w.dpu.sent.length ≤ 4)
    (hlength : ∀ bytes, hostBuffer = some bytes → bytes.length = (copySize e).toNat)
    (hhost : ∀ f bytes, e.hostFile = some f → hostBuffer = some bytes → bytes = f.bytes)
    (hdpu : ∀ f bytes, e.dpuFile = some f → hostBuffer = some bytes → bytes = f.bytes) :
    Inv e ⟨{ w.host with buffer := hostBuffer },
      { w.dpu with buffer := buffer, copied := true }⟩ :=
  { h with
    filled := fun _ => hhost
    bufferLength := hlength
    finished := by
      intro msg hmsg
      rw [List.getElem?_eq_none hsent] at hmsg
      contradiction
    copiedLate := fun _ => hheard
    copied := fun _ => hdpu }

end Invariant

section Rules

variable {A : Party Cmd Msg DocaError Outcome World} {P Q : World → Prop}

theorem triple_require {b : Bool} {err : DocaError}
    (hP : Stable A P) (hE : Stable A Q) (h : ∀ w, P w → Q w) :
    Triple A P (require b err) (fun _ w => P w ∧ b = true) Q := by
  cases b with
  | true => exact triple_pure (hP.and (Stable.of_const A _)) fun w hw => ⟨hw, rfl⟩
  | false => exact triple_throw hE h

/-- What is released changes neither what is established nor, after an error, the invariant. -/
theorem triple_releasing {α : Type} {x : Act α}
    {release : Act Unit} {Q : α → World → Prop} {E : World → Prop} (hx : Triple A P x Q E)
    (hQ : ∀ a, Stable A (Q a)) (hE : Stable A E)
    (hok : ∀ a, Triple A (Q a) release (fun _ => Q a) E)
    (herror : Triple A E release (fun _ => E) E) : Triple A P (releasing x release) Q E := by
  refine triple_bind (Q := fun r w => Post Q E r w) (triple_attempt hx fun _ _ hw => hw) ?_
  intro r
  cases r with
  | error err =>
    refine triple_bind (Q := fun _ => E) (triple_attempt herror fun _ _ hw => hw) ?_
    intro _
    exact triple_throw hE fun _ hw => hw
  | ok a =>
    refine triple_bind (Q := fun r w => Post (fun _ => Q a) E r w)
      (triple_attempt (hok a) fun _ _ hw => hw) ?_
    intro r
    cases r with
    | error err => exact triple_throw hE fun _ hw => hw
    | ok u => exact triple_pure (hQ a) fun _ hw => hw

end Rules

end DocaApps.Proofs.DmaCopyInvariant
