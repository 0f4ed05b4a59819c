import DocaApps.Proofs.DmaCopyInvariant

namespace DocaApps.Proofs.DmaCopyDpu
open Common.FileServer DmaCopy.Core Lib.Overwrite Lib.RelyGuarantee Proofs.DmaCopyInvariant

variable {e : Setup} {P Q : World → Prop}

/-- The DPU has sent and received so many messages. -/
structure DpuAt (e : Setup) (n r : Nat) (w : World) : Prop where
  inv : Inv e w
  sent : w.dpu.sent.length = n
  read : w.dpu.read = r
  heard : r ≤ w.host.sent.length
  buffer : ∀ bytes, w.dpu.buffer = some bytes → bytes.length = (copySize e).toNat

theorem dpu_inv_stable : Stable (dpu e) (Inv e) := fun _ _ h hw => DpuRely.inv h hw

theorem dpuSide_stable {R : Side → Prop} : Stable (dpu e) fun w => R w.dpu := by
  intro w t h hw
  rw [DpuRely.dpu h]
  exact hw

theorem dpuAt_stable {n r : Nat} : Stable (dpu e) (DpuAt e n r) := by
  intro w t h hw
  have hdpu := DpuRely.dpu h
  refine ⟨DpuRely.inv h hw.inv, ?_, ?_, ?_, ?_⟩
  · rw [hdpu]
    exact hw.sent
  · rw [hdpu]
    exact hw.read
  · exact Nat.le_trans hw.heard (DpuRely.sent h).length_le
  · rw [hdpu]
    exact hw.buffer

theorem hostRely_of_dpu {w t : World} (hhost : t.host = w.host)
    (hsent : w.dpu.sent <+: t.dpu.sent) (hinv : Inv e t) : HostRely e w t := by
  refine ⟨?_, fun _ _ => by rw [hhost], hsent, fun _ => hinv⟩
  rw [hhost]

/-- A command of the DPU other than a DMA task touches only the DPU. -/
theorem dpu_ask {c : Cmd} {Q : Msg → World → Prop} (hP : Stable (dpu e) P)
    (hQ : ∀ msg, Stable (dpu e) (Q msg))
    (h : ∀ w t o r, P w → Careful c o → perform e c o w.dpu w.host = some (r, t.dpu, t.host) →
      t.host = w.host ∧ w.dpu.sent <+: t.dpu.sent ∧ Inv e t ∧ ∀ msg, r = .ok msg → Q msg t) :
    Triple (dpu e) P (ask c) Q (Inv e) := by
  refine triple_ask hP hQ dpu_inv_stable ?_
  intro w o r t hw hcareful hperform
  obtain ⟨hhost, hsent, hinv, hok⟩ := h w t o r hw hcareful (dpuPerform_eq hperform)
  refine ⟨hostRely_of_dpu hhost hsent hinv, ?_⟩
  cases r with
  | error err => exact hinv
  | ok msg => exact hok msg rfl

theorem dpu_tell {c : Cmd} (hP : Stable (dpu e) P) (hQ : Stable (dpu e) Q)
    (h : ∀ w t o r, P w → Careful c o → perform e c o w.dpu w.host = some (r, t.dpu, t.host) →
      t.host = w.host ∧ w.dpu.sent <+: t.dpu.sent ∧ Inv e t ∧ ∀ msg, r = .ok msg → Q t) :
    Triple (dpu e) P (tell c) (fun _ => Q) (Inv e) :=
  triple_bind (dpu_ask hP (fun _ => hQ) h) fun _ => triple_pure hQ fun _ hw => hw

theorem dpu_unchanged {c : Cmd} (hP : Stable (dpu e) P) (hinv : ∀ w, P w → Inv e w)
    (hc : ∀ {o r me other me' other'},
      perform e c o me other = some (r, me', other') → me' = me ∧ other' = other) :
    Triple (dpu e) P (tell c) (fun _ => P) (Inv e) := by
  refine dpu_tell hP hP ?_
  rintro w ⟨host, dpu⟩ o r hw - h
  obtain ⟨hdpu, hhost⟩ := hc h
  dsimp only at hdpu hhost
  subst hdpu hhost
  exact ⟨rfl, List.prefix_rfl, hinv w hw, fun _ _ => hw⟩

theorem dpu_call {call : Call} (hP : Stable (dpu e) P) (hinv : ∀ w, P w → Inv e w) :
    Triple (dpu e) P (tell (.call call)) (fun _ => P) (Inv e) :=
  dpu_unchanged hP hinv perform_call

theorem dpu_free (hP : Stable (dpu e) P) (hinv : ∀ w, P w → Inv e w)
    (hfree : ∀ w, P w → P ⟨w.host, { w.dpu with buffer := none }⟩) :
    Triple (dpu e) P (tell .free) (fun _ => P) (Inv e) := by
  refine dpu_tell hP hP ?_
  rintro w ⟨host, dpu⟩ o r hw - h
  obtain ⟨hhost, hdpu⟩ := perform_free h
  dsimp only at hdpu hhost
  subst hdpu hhost
  exact ⟨rfl, List.prefix_rfl, hinv _ (hfree w hw), fun _ _ => hfree w hw⟩

theorem dpu_sendto {n r : Nat} {msg : Msg}
    (hdirection : n = 0 → msg.length = directionMsgSize → OneSide e ∧
      msg = directionMsg (!e.dpuFile.isSome) (argsValidationCallback e.dpuFile).fileSize)
    (hn : n ≠ 4) :
    Triple (dpu e) (DpuAt e n r) (tell (.sendto msg)) (fun _ => DpuAt e (n + 1) r) (Inv e) := by
  refine dpu_tell dpuAt_stable dpuAt_stable ?_
  rintro w ⟨host, dpu⟩ o r' ⟨hinv, hsent, hread, hheard, hbuffer⟩ - h
  obtain ⟨hhost, ⟨err, rfl, hdpu⟩ | ⟨rfl, hdpu⟩⟩ := perform_sendto h
  · dsimp only at hdpu hhost
    subst hdpu hhost
    exact ⟨rfl, List.prefix_rfl, hinv, fun _ hok => absurd hok (by simp)⟩
  · dsimp only at hdpu hhost
    subst hdpu hhost hsent
    have hinv' := hinv.dpuSend hdirection fun hfour => absurd hfour hn
    refine ⟨rfl, List.prefix_append _ _, hinv', fun _ _ => ⟨hinv', ?_, hread, hheard, hbuffer⟩⟩
    rw [List.length_append, List.length_singleton]

theorem dpu_acks {n r : Nat} (hn : n ≠ 4) :
    Triple (dpu e) (DpuAt e n r) (sendStatusMsg true) (fun _ => DpuAt e (n + 1) r) (Inv e) :=
  dpu_sendto (fun _ hlength => absurd hlength (by decide)) hn

/-- A failure can be reported at any time. -/
theorem dpu_sendFailure :
    Triple (dpu e) (Inv e) (sendStatusMsg false) (fun _ => Inv e) (Inv e) := by
  refine dpu_tell dpu_inv_stable dpu_inv_stable ?_
  rintro w ⟨host, dpu⟩ o r hinv - h
  obtain ⟨hhost, ⟨err, rfl, hdpu⟩ | ⟨rfl, hdpu⟩⟩ := perform_sendto h
  · dsimp only at hdpu hhost
    subst hdpu hhost
    exact ⟨rfl, List.prefix_rfl, hinv, fun _ _ => hinv⟩
  · dsimp only at hdpu hhost
    subst hdpu hhost
    have hinv' : Inv e ⟨w.host, { w.dpu with sent := w.dpu.sent ++ [statusMsg false] }⟩ :=
      hinv.dpuSend (fun _ hlength => absurd hlength (by decide))
        fun _ hsuccess => absurd hsuccess (by decide)
    exact ⟨rfl, List.prefix_append _ _, hinv', fun _ _ => hinv'⟩

theorem dpu_orSendFailure {α : Type} {x : Act α} {Q : α → World → Prop}
    (hQ : ∀ a, Stable (dpu e) (Q a)) (h : Triple (dpu e) P x Q (Inv e)) :
    Triple (dpu e) P (orSendFailure x) Q (Inv e) := by
  refine triple_bind (Q := fun r w => Post Q (Inv e) r w) (triple_attempt h fun _ _ hw => hw) ?_
  intro r
  cases r with
  | ok a => exact triple_pure (hQ a) fun _ hw => hw
  | error err =>
    refine triple_bind (Q := fun _ => Inv e) (triple_attempt dpu_sendFailure fun _ _ hw => hw) ?_
    intro _
    exact triple_throw dpu_inv_stable fun _ hw => hw

theorem dpu_recvfrom {n r len : Nat} :
    Triple (dpu e) (DpuAt e n r) (ask (.recvfrom len))
      (fun msg w => DpuAt e n (r + 1) w ∧ (hostMsgs e)[r]? = some msg) (Inv e) := by
  refine dpu_ask dpuAt_stable (fun _ => dpuAt_stable.and (Stable.of_const _ _)) ?_
  rintro w ⟨host, dpu⟩ o r' ⟨hinv, hsent, hread, hheard, hbuffer⟩ - h
  obtain ⟨hhost, ⟨err, rfl, hdpu⟩ | ⟨msg, hmsg, rfl, hdpu⟩⟩ := perform_recvfrom h
  · dsimp only at hdpu hhost
    subst hdpu hhost
    exact ⟨rfl, List.prefix_rfl, hinv, fun _ hok => absurd hok (by simp)⟩
  · dsimp only at hdpu hhost
    subst hdpu hhost hread
    have hinv' : Inv e ⟨w.host, { w.dpu with read := w.dpu.read + 1 }⟩ := { hinv with }
    refine ⟨rfl, List.prefix_rfl, hinv', ?_⟩
    intro msg' hok
    obtain rfl := Except.ok.inj hok
    obtain ⟨hlength, -⟩ := List.getElem?_eq_some_iff.mp hmsg
    exact ⟨⟨hinv', hsent, rfl, hlength, hbuffer⟩, getElem?_of_longer hinv.hostSent hmsg⟩

theorem dpu_passes {n r : Nat} {cfg : Cfg} (hside : OneSide e)
    (hcfg : cfg = ⟨e.dpuFile.isSome, copySize e⟩) :
    Triple (dpu e) (DpuAt e n r) (tell (.passes cfg)) (fun _ => DpuAt e n r) (Inv e) := by
  refine dpu_tell dpuAt_stable dpuAt_stable ?_
  rintro w ⟨host, dpu⟩ o r' ⟨hinv, hsent, hread, hheard, hbuffer⟩ - h
  obtain ⟨hhost, rfl, hdpu⟩ := perform_passes h
  dsimp only at hdpu hhost
  subst hdpu hhost
  have hinv' := hinv.dpuPass hside hcfg
  exact ⟨rfl, List.prefix_rfl, hinv', fun _ _ => ⟨hinv', hsent, hread, hheard, hbuffer⟩⟩

theorem dpuCfg_eq (hside : OneSide e) :
    (if (argsValidationCallback e.dpuFile).isFileFoundLocally = true then
        argsValidationCallback e.dpuFile
      else { argsValidationCallback e.dpuFile with
        fileSize := fileSizeOf (directionMsg e.hostFile.isSome
          (argsValidationCallback e.hostFile).fileSize) }) =
      ⟨e.dpuFile.isSome, copySize e⟩ := by
  obtain ⟨_, _, _, hostFile, dpuFile⟩ := e
  cases hostFile with
  | some f =>
    cases dpuFile with
    | none => simp [copySize, argsValidationCallback]
    | some g => exact absurd rfl hside
  | none =>
    cases dpuFile with
    | none => exact absurd rfl hside
    | some g => rfl

theorem dpu_receives_direction :
    Triple (dpu e) (DpuAt e 0 0)
      (orSendFailure (do
        let msg ← ask (.recvfrom directionMsgSize)
        require (msg.length == directionMsgSize) .invalidValue
        require ((argsValidationCallback e.dpuFile).isFileFoundLocally != fileInHost msg)
          .invalidValue
        return if (argsValidationCallback e.dpuFile).isFileFoundLocally then
          argsValidationCallback e.dpuFile
          else { argsValidationCallback e.dpuFile with fileSize := fileSizeOf msg }))
      (fun cfg w => DpuAt e 0 1 w ∧ OneSide e ∧ cfg = ⟨e.dpuFile.isSome, copySize e⟩)
      (Inv e) := by
  have hinv : ∀ w, DpuAt e 0 1 w → Inv e w := fun w hw => hw.inv
  refine dpu_orSendFailure (fun _ => dpuAt_stable.and (Stable.of_const _ _)) ?_
  refine triple_bind dpu_recvfrom fun msg => ?_
  refine triple_have (p := directionMsg e.hostFile.isSome
    (argsValidationCallback e.hostFile).fileSize = msg) (fun _ hw => Option.some.inj hw.2) ?_
  rintro rfl
  refine Triple.consequence (P := DpuAt e 0 1) ?_ (fun _ hw => hw.1) (fun _ _ hw => hw)
    fun _ hw => hw
  refine triple_bind (triple_require dpuAt_stable dpu_inv_stable hinv) fun _ => ?_
  refine Triple.consequence (P := DpuAt e 0 1) ?_ (fun _ hw => hw.1) (fun _ _ hw => hw)
    fun _ hw => hw
  refine triple_bind (triple_require dpuAt_stable dpu_inv_stable hinv) fun _ => ?_
  refine triple_pure (dpuAt_stable.and (Stable.of_const _ _)) ?_
  rintro w ⟨hw, hdiffer⟩
  have hside : OneSide e := by
    rw [args_found, fileInHost_directionMsg, bne_iff_ne] at hdiffer
    exact hdiffer.symm
  exact ⟨hw, hside, dpuCfg_eq hside⟩

theorem dpu_negotiates :
    Triple (dpu e) (DpuAt e 0 0)
      (dpuNegotiateDmaDirectionAndSize e (argsValidationCallback e.dpuFile))
      (fun cfg w => DpuAt e 1 1 w ∧ OneSide e ∧ cfg = ⟨e.dpuFile.isSome, copySize e⟩)
      (Inv e) := by
  refine triple_bind (dpu_call dpuAt_stable fun w hw => hw.inv) fun _ => ?_
  refine triple_bind dpu_receives_direction fun cfg => ?_
  refine triple_have (p := OneSide e ∧ cfg = ⟨e.dpuFile.isSome, copySize e⟩)
    (fun _ hw => hw.2) ?_
  rintro ⟨hside, rfl⟩
  refine Triple.consequence (P := DpuAt e 0 1) (Q := fun cfg w => DpuAt e 1 1 w ∧ OneSide e ∧
    cfg = ⟨e.dpuFile.isSome, copySize e⟩) ?_ (fun _ hw => hw.1) (fun _ _ hw => hw) fun _ hw => hw
  split
  · refine triple_bind (dpu_sendFailure.consequence (fun _ hw => DpuAt.inv hw)
      (fun _ _ hw => hw) fun _ hw => hw) fun _ => ?_
    exact triple_throw dpu_inv_stable fun _ hw => hw
  · refine triple_bind (dpu_sendto ?_ (by decide)) fun _ => ?_
    · intro _ _
      refine ⟨hside, ?_⟩
      cases hfile : e.dpuFile with
      | none => rfl
      | some f =>
        rw [(copySize_of_dpu hside hfile).2]
        rfl
    refine triple_bind (dpu_passes hside rfl) fun _ => ?_
    exact triple_pure (dpuAt_stable.and (Stable.of_const _ _)) fun w hw => ⟨hw, hside, rfl⟩

theorem dpu_malloc :
    Triple (dpu e) (DpuAt e 1 1) (memoryAllocAndPopulate (copySize e))
      (fun _ => DpuAt e 1 1) (Inv e) := by
  refine triple_bind (dpu_call dpuAt_stable fun w hw => hw.inv) fun _ => ?_
  refine dpu_tell dpuAt_stable dpuAt_stable ?_
  rintro w ⟨host, dpu⟩ o r ⟨hinv, hsent, hread, hheard, hbuffer⟩ - h
  obtain ⟨hhost, ⟨err, rfl, hdpu⟩ | ⟨bytes, hlength, rfl, hdpu⟩⟩ := perform_mallocAndStart h
  · dsimp only at hdpu hhost
    subst hdpu hhost
    exact ⟨rfl, List.prefix_rfl, hinv, fun _ hok => absurd hok (by simp)⟩
  · dsimp only at hdpu hhost
    subst hdpu hhost
    have hinv' : Inv e ⟨w.host, { w.dpu with buffer := some bytes }⟩ := hinv.dpuBuffer
    refine ⟨rfl, List.prefix_rfl, hinv', fun _ _ => ⟨hinv', hsent, hread, hheard, ?_⟩⟩
    rintro _ ⟨⟩
    exact hlength

theorem dpu_receives_desc :
    Triple (dpu e) (DpuAt e 1 1) dpuReceiveExportDesc (fun _ => DpuAt e 2 2) (Inv e) := by
  refine triple_bind (dpu_orSendFailure (fun _ => dpuAt_stable.and (Stable.of_const _ _))
    dpu_recvfrom) fun desc => ?_
  refine triple_bind ((dpu_acks (by decide)).consequence (fun _ hw => hw.1) (fun _ _ hw => hw)
    fun _ hw => hw) fun _ => ?_
  exact triple_pure dpuAt_stable fun _ hw => hw

theorem dpu_receives_number {n r : Nat} {v : UInt64} (hn : n ≠ 4)
    (hmsg : (hostMsgs e)[r]? = some (htonq v)) :
    Triple (dpu e) (DpuAt e n r) dpuReceiveNumber
      (fun received w => DpuAt e (n + 1) (r + 1) w ∧ received = v) (Inv e) := by
  refine triple_bind (Q := fun received w => DpuAt e n (r + 1) w ∧ received = v)
    (dpu_orSendFailure (fun _ => dpuAt_stable.and (Stable.of_const _ _)) ?_) fun received => ?_
  · refine triple_bind dpu_recvfrom fun msg => ?_
    refine triple_have (p := htonq v = msg)
      (fun _ hw => Option.some.inj (hmsg.symm.trans hw.2)) ?_
    rintro rfl
    refine triple_bind (triple_require (dpuAt_stable.and (Stable.of_const _ _)) dpu_inv_stable
      fun _ hw => hw.1.inv) fun _ => ?_
    exact triple_pure (dpuAt_stable.and (Stable.of_const _ _))
      fun _ hw => ⟨hw.1.1, ntohq_htonq v⟩
  · refine triple_have (p := received = v) (fun _ hw => hw.2) ?_
    rintro rfl
    refine triple_bind ((dpu_acks hn).consequence (fun _ hw => hw.1) (fun _ _ hw => hw)
      fun _ hw => hw) fun _ => ?_
    exact triple_pure (dpuAt_stable.and (Stable.of_const _ _)) fun _ hw => ⟨hw, rfl⟩

theorem dpu_receives_addr :
    Triple (dpu e) (DpuAt e 2 2) dpuReceiveAddrAndOffset
      (fun addr w => DpuAt e 4 4 w ∧ addr = (e.bufferAddr, copySize e)) (Inv e) := by
  refine triple_bind (dpu_receives_number (by decide) rfl) fun addr => ?_
  refine triple_have (p := addr = e.bufferAddr) (fun _ hw => hw.2) ?_
  rintro rfl
  refine triple_bind ((dpu_receives_number (by decide) rfl).consequence (fun _ hw => hw.1)
    (fun _ _ hw => hw) fun _ hw => hw) fun len => ?_
  refine triple_have (p := len = copySize e) (fun _ hw => hw.2) ?_
  rintro rfl
  exact triple_pure (dpuAt_stable.and (Stable.of_const _ _)) fun _ hw => ⟨hw.1, rfl⟩

/-- A file on the DPU is in its buffer. -/
def DpuFilled (e : Setup) (dpu : Side) : Prop :=
  ∀ f buffer, e.dpuFile = some f → dpu.buffer = some buffer → buffer = f.bytes

/-- The DMA task has completed, and has brought a file of the host into the buffer. -/
def Copied (e : Setup) (dpu : Side) : Prop :=
  dpu.copied = true ∧
    ∀ f buffer, e.hostFile = some f → dpu.buffer = some buffer → buffer = f.bytes

theorem dpu_fills (hside : OneSide e) :
    Triple (dpu e) (DpuAt e 4 4) (onlyIf e.dpuFile.isSome (tell (.fread (copySize e))))
      (fun _ w => DpuAt e 4 4 w ∧ DpuFilled e w.dpu) (Inv e) := by
  have hstable : Stable (dpu e) fun w => DpuAt e 4 4 w ∧ DpuFilled e w.dpu :=
    dpuAt_stable.and dpuSide_stable
  cases hfile : e.dpuFile with
  | none =>
    refine triple_pure hstable ?_
    intro w hw
    exact ⟨hw, fun f _ hf => absurd (hfile.symm.trans hf) (by simp)⟩
  | some f =>
    refine dpu_tell dpuAt_stable hstable ?_
    rintro w ⟨host, dpu⟩ o r ⟨hinv, hsent, hread, hheard, hbuffer⟩ - h
    obtain ⟨hhost, ⟨err, rfl, hdpu⟩ | ⟨file, buffer, hfile', hbuffer', rfl, hdpu⟩⟩ :=
      perform_fread h
    · dsimp only at hdpu hhost
      subst hdpu hhost
      exact ⟨rfl, List.prefix_rfl, hinv, fun _ hok => absurd hok (by simp)⟩
    · dsimp only at hdpu hhost
      subst hdpu hhost
      have hcopySize := (copySize_of_dpu hside hfile).2
      have hlength := hbuffer buffer hbuffer'
      obtain rfl := Option.some.inj ((hinv.dpuFile f hfile).symm.trans hfile')
      rw [hcopySize, File.toNat_size] at hlength
      have hnew : overwrite buffer 0 (f.bytes.take (copySize e).toNat) = f.bytes := by
        rw [hcopySize, File.toNat_size, List.take_length, overwrite_zero_eq_iff]
        omega
      rw [hnew]
      have hinv' : Inv e ⟨w.host, { w.dpu with buffer := some f.bytes }⟩ := hinv.dpuBuffer
      refine ⟨rfl, List.prefix_rfl, hinv', fun _ _ => ⟨⟨hinv', hsent, hread, hheard, ?_⟩, ?_⟩⟩
      · rintro _ ⟨⟩
        rw [hcopySize, File.toNat_size]
      · rintro g _ hg ⟨⟩
        obtain rfl := Option.some.inj (hfile.symm.trans hg)
        rfl

/-- The task copies the file, whichever way it goes. -/
theorem dpu_copies (hside : OneSide e) :
    Triple (dpu e) (fun w => DpuAt e 4 4 w ∧ DpuFilled e w.dpu)
      (tell (.memcpyTask e.dpuFile.isSome e.bufferAddr (copySize e)))
      (fun _ w => DpuAt e 4 4 w ∧ Copied e w.dpu) (Inv e) := by
  refine triple_tell (dpuAt_stable.and dpuSide_stable) (dpuAt_stable.and dpuSide_stable)
    dpu_inv_stable ?_
  rintro w o r ⟨host, dpu⟩ ⟨⟨hinv, hsent, hread, hheard, hbuffer⟩, hfilled⟩ hcareful h
  have hlate : 3 < w.host.sent.length := hheard
  have hhostFilled := hinv.filled (Nat.lt_of_succ_lt hlate)
  obtain ⟨err, rfl, hdpu, hhost⟩ | ⟨rfl, buffer, hbuffer', ⟨hfound, hdpu, hremote⟩ |
    ⟨hfound, hhost, remote, new, hremote, hnew, hdpu⟩⟩ :=
      perform_memcpyTask hcareful (dpuPerform_eq h)
  · dsimp only at hdpu hhost
    subst hdpu hhost
    exact ⟨HostRely.refl e w, hinv⟩
  · obtain ⟨f, hf⟩ := Option.isSome_iff_exists.mp hfound
    obtain ⟨hnone, hcopySize⟩ := copySize_of_dpu hside hf
    have hhostNone : ∀ {f'}, e.hostFile = some f' → False :=
      fun hf' => absurd (hnone.symm.trans hf') (by simp)
    obtain rfl := hfilled f buffer hf hbuffer'
    dsimp only at hdpu
    subst hdpu
    rcases hremote with ⟨hremote, hhost⟩ | ⟨remote, new, hremote, hnew, hhost⟩
    · dsimp only at hhost
      subst hhost
      have hinv' : Inv e ⟨w.host, { w.dpu with copied := true }⟩ :=
        hinv.copy hlate (by omega) hinv.bufferLength hhostFilled
          fun _ _ _ hbytes => absurd (hremote.symm.trans hbytes) (by simp)
      exact ⟨hostRely_of_dpu rfl List.prefix_rfl hinv',
        ⟨hinv', hsent, hread, hheard, hbuffer⟩, rfl, fun _ _ hf' => (hhostNone hf').elim⟩
    · have hlength := hinv.bufferLength remote hremote
      rw [hcopySize, File.toNat_size] at hlength
      obtain rfl : new = f.bytes := by
        rw [hnew, Nat.sub_self, hcopySize, File.toNat_size, List.take_length,
          overwrite_zero_eq_iff]
        omega
      dsimp only at hhost
      subst hhost
      have hinv' : Inv e ⟨{ w.host with buffer := some f.bytes },
          { w.dpu with copied := true }⟩ := by
        refine hinv.copy hlate (by omega) ?_ (fun _ _ hf' => (hhostNone hf').elim) ?_
        · rintro _ ⟨⟩
          exact hbuffer f.bytes hbuffer'
        · rintro g _ hg ⟨⟩
          obtain rfl := Option.some.inj (hf.symm.trans hg)
          rfl
      exact ⟨⟨rfl, fun _ hf' => (hhostNone hf').elim, List.prefix_rfl, fun _ => hinv'⟩,
        ⟨hinv', hsent, hread, hheard, hbuffer⟩, rfl, fun _ _ hf' => (hhostNone hf').elim⟩
  · have hnone : e.dpuFile = none := Option.not_isSome_iff_eq_none.mp (by simp [hfound])
    obtain ⟨f, hf⟩ := exists_hostFile hside hnone
    obtain rfl := hhostFilled f remote hf hremote
    have hlength := hbuffer buffer hbuffer'
    rw [copySize_of_host hf, File.toNat_size] at hlength
    have hslice : slice f.bytes 0 f.bytes.length = f.bytes := by
      rw [slice, List.drop_zero, List.take_length]
    obtain rfl : new = f.bytes := by
      rw [hnew, Nat.sub_self, copySize_of_host hf, File.toNat_size, hslice, overwrite_zero_eq_iff]
      omega
    dsimp only at hdpu hhost
    subst hdpu hhost
    have hinv' : Inv e ⟨w.host, { w.dpu with buffer := some f.bytes, copied := true }⟩ :=
      hinv.copy hlate (by omega) hinv.bufferLength hhostFilled
        fun _ _ hf' => absurd (hnone.symm.trans hf') (by simp)
    refine ⟨hostRely_of_dpu rfl List.prefix_rfl hinv', ⟨hinv', hsent, hread, hheard, ?_⟩, rfl, ?_⟩
    · rintro _ ⟨⟩
      rw [copySize_of_host hf, File.toNat_size]
    · rintro g _ hg ⟨⟩
      obtain rfl := Option.some.inj (hf.symm.trans hg)
      rfl

theorem dpu_saves (hside : OneSide e) :
    Triple (dpu e) (fun w => DpuAt e 4 4 w ∧ Copied e w.dpu)
      (onlyIf (!e.dpuFile.isSome) (tell (.fwrite (copySize e))))
      (fun _ w => DpuAt e 4 4 w ∧ Finished e w) (Inv e) := by
  have hstable : Stable (dpu e) fun w => DpuAt e 4 4 w ∧ Finished e w :=
    dpuAt_stable.and (dpuSide_stable (R := fun dpu => dpu.copied = true ∧
      ∀ f, e.hostFile = some f → dpu.file = some f.bytes))
  cases hfile : e.dpuFile with
  | some f =>
    refine triple_pure hstable ?_
    rintro w ⟨hw, hcopied, -⟩
    refine ⟨hw, hcopied, ?_⟩
    intro g hg
    exact absurd ((copySize_of_dpu hside hfile).1.symm.trans hg) (by simp)
  | none =>
    refine dpu_tell (dpuAt_stable.and dpuSide_stable) hstable ?_
    rintro w ⟨host, dpu⟩ o r ⟨⟨hinv, hsent, hread, hheard, hbuffer⟩, hcopied, hbytes⟩ hcareful h
    obtain ⟨hhost, ⟨err, file, rfl, hdpu⟩ | ⟨buffer, hbuffer', rfl, hdpu⟩⟩ :=
      perform_fwrite hcareful h
    · dsimp only at hdpu hhost
      subst hdpu hhost
      exact ⟨rfl, List.prefix_rfl, hinv.dpuWrite hfile (by omega),
        fun _ hok => absurd hok (by simp)⟩
    · dsimp only at hdpu hhost
      subst hdpu hhost
      have hinv' : Inv e ⟨w.host, { w.dpu with file := some (buffer.take (copySize e).toNat) }⟩ :=
        hinv.dpuWrite hfile (by omega)
      refine ⟨rfl, List.prefix_rfl, hinv',
        fun _ _ => ⟨⟨hinv', hsent, hread, hheard, hbuffer⟩, hcopied, ?_⟩⟩
      intro f hf
      obtain rfl := hbytes f buffer hf hbuffer'
      dsimp only
      rw [copySize_of_host hf, File.toNat_size, List.take_length]

theorem dpu_submits (hside : OneSide e) :
    Triple (dpu e) (fun w => DpuAt e 4 4 w ∧ DpuFilled e w.dpu)
      (dpuSubmitDmaTask ⟨e.dpuFile.isSome, copySize e⟩ e.bufferAddr (copySize e))
      (fun _ w => DpuAt e 4 4 w ∧ Finished e w) (Inv e) := by
  have hstable : Stable (dpu e) fun w => DpuAt e 4 4 w ∧ DpuFilled e w.dpu :=
    dpuAt_stable.and dpuSide_stable
  refine triple_bind (dpu_call hstable fun w hw => hw.1.inv) fun _ => ?_
  refine triple_bind (dpu_call hstable fun w hw => hw.1.inv) fun _ => ?_
  refine triple_bind (dpu_call hstable fun w hw => hw.1.inv) fun _ => ?_
  refine triple_bind (dpu_call hstable fun w hw => hw.1.inv) fun _ => ?_
  refine triple_bind (dpu_copies hside) fun _ => ?_
  exact dpu_saves hside

/-- The copy is done as far as the DPU goes. -/
structure DpuDone (e : Setup) (w : World) : Prop where
  inv : Inv e w
  side : OneSide e
  finished : Finished e w

theorem dpuDone_stable : Stable (dpu e) (DpuDone e) := by
  intro w t h hw
  refine ⟨DpuRely.inv h hw.inv, hw.side, ?_⟩
  rw [Finished, DpuRely.dpu h]
  exact hw.finished

/-- The last status. Whether it can be sent makes no difference to the DPU. -/
theorem dpu_reports (hside : OneSide e) :
    Triple (dpu e) (fun w => DpuAt e 4 4 w ∧ Finished e w) (sendStatusMsg true).attempt
      (fun _ => DpuDone e) (Inv e) := by
  have hsend : Triple (dpu e) (DpuDone e) (sendStatusMsg true) (fun _ => DpuDone e)
      (DpuDone e) := by
    refine triple_tell dpuDone_stable dpuDone_stable dpuDone_stable ?_
    rintro w o r ⟨host, dpu⟩ ⟨hinv, -, hfinished⟩ - h
    obtain ⟨hhost, ⟨err, rfl, hdpu⟩ | ⟨rfl, hdpu⟩⟩ := perform_sendto (dpuPerform_eq h)
    · dsimp only at hdpu hhost
      subst hdpu hhost
      exact ⟨HostRely.refl e w, hinv, hside, hfinished⟩
    · dsimp only at hdpu hhost
      subst hdpu hhost
      have hinv' : Inv e ⟨w.host, { w.dpu with sent := w.dpu.sent ++ [statusMsg true] }⟩ :=
        hinv.dpuSend (fun _ hlength => absurd hlength (by decide)) fun _ _ => hfinished
      exact ⟨hostRely_of_dpu rfl (List.prefix_append _ _) hinv', hinv', hside, hfinished⟩
  exact triple_attempt (hsend.consequence (fun _ hw => ⟨hw.1.inv, hside, hw.2⟩) (fun _ _ hw => hw)
    fun _ hw => hw) fun _ _ hw => hw

theorem dpu_releasing {x : Act Unit} {call : Call}
    (hx : Triple (dpu e) P x (fun _ => DpuDone e) (Inv e)) :
    Triple (dpu e) P (releasing x (tell (.call call))) (fun _ => DpuDone e) (Inv e) :=
  triple_releasing hx (fun _ => dpuDone_stable) dpu_inv_stable
    (fun _ => dpu_call dpuDone_stable fun _ hw => hw.inv)
    (dpu_call dpu_inv_stable fun _ hw => hw)

theorem dpu_copy (hside : OneSide e) :
    Triple (dpu e) (DpuAt e 2 2) (dpuCopy ⟨e.dpuFile.isSome, copySize e⟩)
      (fun _ => DpuDone e) (Inv e) := by
  have hstable : Stable (dpu e) fun w => DpuAt e 4 4 w ∧ Finished e w :=
    dpuAt_stable.and (dpuSide_stable (R := fun dpu => dpu.copied = true ∧
      ∀ f, e.hostFile = some f → dpu.file = some f.bytes))
  refine triple_bind dpu_receives_addr fun addr => ?_
  refine triple_have (p := addr = (e.bufferAddr, copySize e)) (fun _ hw => hw.2) ?_
  rintro rfl
  refine Triple.consequence (P := DpuAt e 4 4) (Q := fun _ => DpuDone e) ?_ (fun _ hw => hw.1)
    (fun _ _ hw => hw) fun _ hw => hw
  refine triple_bind (dpu_orSendFailure (fun _ => dpuAt_stable)
    (dpu_call dpuAt_stable fun w hw => hw.inv)) fun _ => dpu_releasing ?_
  refine triple_bind (dpu_orSendFailure (fun _ => dpuAt_stable)
    (dpu_call dpuAt_stable fun w hw => hw.inv)) fun _ => dpu_releasing ?_
  refine triple_bind (Q := fun _ w => DpuAt e 4 4 w ∧ Finished e w)
    (dpu_orSendFailure (fun _ => hstable) ?_) fun _ => ?_
  · exact triple_bind (dpu_fills hside) fun _ => dpu_submits hside
  · exact triple_bind (dpu_reports hside) fun _ => triple_pure dpuDone_stable fun _ hw => hw

theorem dpu_receives (hside : OneSide e) :
    Triple (dpu e) (DpuAt e 1 1) (dpuReceive ⟨e.dpuFile.isSome, copySize e⟩)
      (fun _ => DpuDone e) (Inv e) := by
  refine triple_bind dpu_receives_desc fun desc => ?_
  refine triple_bind (dpu_unchanged dpuAt_stable (fun w hw => hw.inv) perform_createFromExport)
    fun _ => ?_
  exact dpu_releasing (dpu_copy hside)

/-- A DPU that succeeds has completed the copy. -/
theorem dpu_done :
    Triple (dpu e) (DpuAt e 0 0) (dpuStartDmaCopy e (argsValidationCallback e.dpuFile))
      (fun _ => DpuDone e) (Inv e) := by
  refine triple_bind (dpu_call dpuAt_stable fun w hw => hw.inv) fun _ => dpu_releasing ?_
  refine triple_bind (dpu_call dpuAt_stable fun w hw => hw.inv) fun _ => ?_
  refine triple_bind (dpu_call dpuAt_stable fun w hw => hw.inv) fun _ => dpu_releasing ?_
  refine triple_bind dpu_negotiates fun cfg => ?_
  refine triple_have (p := OneSide e ∧ cfg = ⟨e.dpuFile.isSome, copySize e⟩)
    (fun _ hw => hw.2) ?_
  rintro ⟨hside, rfl⟩
  refine Triple.consequence (P := DpuAt e 1 1) (Q := fun _ => DpuDone e) ?_ (fun _ hw => hw.1)
    (fun _ _ hw => hw) fun _ hw => hw
  refine triple_bind dpu_malloc fun _ => ?_
  refine triple_releasing (dpu_receives hside) (fun _ => dpuDone_stable) dpu_inv_stable
    (fun _ => dpu_free dpuDone_stable (fun _ hw => hw.inv) ?_)
    (dpu_free dpu_inv_stable (fun _ hw => hw) fun _ hw => hw.dpuBuffer)
  intro w hw
  exact ⟨hw.inv.dpuBuffer, hw.side, hw.finished⟩

end DocaApps.Proofs.DmaCopyDpu
