import DocaApps.Proofs.DmaCopyInvariant

namespace DocaApps.Proofs.DmaCopyHost
open DmaCopy.Core Lib.Overwrite Lib.RelyGuarantee Proofs.DmaCopyInvariant

variable {e : Setup} {P Q : World → Prop}

/-- The host has sent and received so many messages. -/
structure HostAt (e : Setup) (n r : Nat) (w : World) : Prop where
  inv : Inv e w
  sent : w.host.sent.length = n
  read : w.host.read = r

theorem host_inv_stable : Stable (host e) (Inv e) := fun _ _ h hw => HostRely.inv h hw

theorem hostAt_stable {n r : Nat} : Stable (host e) (HostAt e n r) := by
  intro w t h hw
  have hhost := HostRely.host h
  refine ⟨HostRely.inv h hw.inv, ?_, ?_⟩
  · rw [hhost]
    exact hw.sent
  · rw [hhost]
    exact hw.read

theorem filled_stable : Stable (host e) (Filled e) := by
  intro w t h hw f buffer hf hbuffer
  rw [HostRely.buffer h f hf] at hbuffer
  exact hw f buffer hf hbuffer

theorem dpuSent_stable {i : Nat} {msg : Msg} :
    Stable (host e) fun w => w.dpu.sent[i]? = some msg := by
  intro w t h hw
  exact getElem?_of_longer (HostRely.sent h) hw

theorem hostFile_stable {file : Option (List UInt8)} :
    Stable (host e) fun w => w.host.file = file := by
  intro w t h hw
  rw [HostRely.host h]
  exact hw

/-- A command of the host touches only the host. -/
theorem host_ask {c : Cmd} {Q : Msg → World → Prop} (hP : Stable (host e) P)
    (hQ : ∀ msg, Stable (host e) (Q msg))
    (h : ∀ w t o r, P w → Careful c o → perform e c o w.host w.dpu = some (r, t.host, t.dpu) →
      t.dpu = w.dpu ∧ w.host.sent <+: t.host.sent ∧ Inv e t ∧ ∀ msg, r = .ok msg → Q msg t) :
    Triple (host e) P (ask c) Q (Inv e) := by
  refine triple_ask hP hQ host_inv_stable ?_
  intro w o r t hw hcareful hperform
  obtain ⟨hdpu, hsent, hinv, hok⟩ := h w t o r hw hcareful (hostPerform_eq hperform)
  refine ⟨⟨hdpu, hsent, fun _ => hinv⟩, ?_⟩
  cases r with
  | error err => exact hinv
  | ok msg => exact hok msg rfl

theorem host_tell {c : Cmd} (hP : Stable (host e) P) (hQ : Stable (host e) Q)
    (h : ∀ w t o r, P w → Careful c o → perform e c o w.host w.dpu = some (r, t.host, t.dpu) →
      t.dpu = w.dpu ∧ w.host.sent <+: t.host.sent ∧ Inv e t ∧ ∀ msg, r = .ok msg → Q t) :
    Triple (host e) P (tell c) (fun _ => Q) (Inv e) :=
  triple_bind (host_ask hP (fun _ => hQ) h) fun _ => triple_pure hQ fun _ hw => hw

theorem host_call {call : Call} (hP : Stable (host e) P) (hinv : ∀ w, P w → Inv e w) :
    Triple (host e) P (tell (.call call)) (fun _ => P) (Inv e) := by
  refine host_tell hP hP ?_
  intro w t o r hw _ h
  obtain ⟨hhost, hdpu⟩ := perform_call h
  obtain rfl : t = w := by
    cases t
    cases w
    simp_all
  exact ⟨rfl, List.prefix_rfl, hinv t hw, fun _ _ => hw⟩

theorem host_sendto_filled {n r : Nat} {msg : Msg} (hmsg : (hostMsgs e)[n]? = some msg) :
    Triple (host e) (fun w => HostAt e n r w ∧ (n = 2 → Filled e w)) (tell (.sendto msg))
      (fun _ => HostAt e (n + 1) r) (Inv e) := by
  refine host_tell (hostAt_stable.and (filled_stable.imp _)) hostAt_stable ?_
  intro w t o r' hw _ h
  obtain ⟨⟨hinv, hsent, hread⟩, hfilled⟩ := hw
  obtain ⟨host, dpu⟩ := t
  obtain ⟨hdpu, ⟨err, rfl, hhost⟩ | ⟨rfl, hhost⟩⟩ := perform_sendto h
  · dsimp only at hdpu hhost
    subst hdpu hhost
    exact ⟨rfl, List.prefix_rfl, hinv, fun _ hok => absurd hok (by simp)⟩
  · dsimp only at hdpu hhost
    subst hdpu hhost hsent
    have hinv' := hinv.hostSend hmsg hfilled
    refine ⟨rfl, List.prefix_append _ _, hinv', fun _ _ => ⟨hinv', ?_, hread⟩⟩
    rw [List.length_append, List.length_singleton]

theorem host_sendto {n r : Nat} {msg : Msg} (hmsg : (hostMsgs e)[n]? = some msg) (hn : n ≠ 2) :
    Triple (host e) (HostAt e n r) (tell (.sendto msg)) (fun _ => HostAt e (n + 1) r) (Inv e) :=
  (host_sendto_filled hmsg).consequence (fun _ hw => ⟨hw, fun htwo => absurd htwo hn⟩)
    (fun _ _ hw => hw) fun _ hw => hw

theorem host_recvfrom {n r len : Nat} :
    Triple (host e) (HostAt e n r) (ask (.recvfrom len))
      (fun msg w => HostAt e n (r + 1) w ∧ w.dpu.sent[r]? = some msg) (Inv e) := by
  refine host_ask hostAt_stable (fun msg => hostAt_stable.and dpuSent_stable) ?_
  intro w t o r' hw _ h
  obtain ⟨hinv, hsent, hread⟩ := hw
  obtain ⟨host, dpu⟩ := t
  obtain ⟨hdpu, ⟨err, rfl, hhost⟩ | ⟨msg, hmsg, rfl, hhost⟩⟩ := perform_recvfrom h
  · dsimp only at hdpu hhost
    subst hdpu hhost
    exact ⟨rfl, List.prefix_rfl, hinv, fun _ hok => absurd hok (by simp)⟩
  · dsimp only at hdpu hhost
    subst hdpu hhost hread
    have hinv' : Inv e ⟨{ w.host with read := w.host.read + 1 }, w.dpu⟩ := { hinv with }
    refine ⟨rfl, List.prefix_rfl, hinv', ?_⟩
    intro msg' hok
    obtain rfl := Except.ok.inj hok
    exact ⟨⟨hinv', hsent, rfl⟩, hmsg⟩

/-- The status message that the host reads at this place is a success. -/
def Acked (i : Nat) (w : World) : Prop := ∃ msg, w.dpu.sent[i]? = some msg ∧ isSuccess msg = true

theorem acked_stable {i : Nat} : Stable (host e) (Acked i) := by
  rintro w t h ⟨msg, hmsg, hsuccess⟩
  exact ⟨msg, dpuSent_stable w t h hmsg, hsuccess⟩

theorem host_wait_acked {n r : Nat} :
    Triple (host e) (HostAt e n r) waitForSuccessfulStatusMsg
      (fun _ w => HostAt e n (r + 1) w ∧ Acked r w) (Inv e) := by
  refine triple_bind host_recvfrom ?_
  intro msg
  refine (triple_require (hostAt_stable.and dpuSent_stable) host_inv_stable ?_).consequence
    (fun _ hw => hw) ?_ fun _ hw => hw
  · intro w hw
    exact hw.1.inv
  · rintro - w ⟨⟨hw, hmsg⟩, hsuccess⟩
    exact ⟨hw, msg, hmsg, hsuccess⟩

theorem host_wait {n r : Nat} :
    Triple (host e) (HostAt e n r) waitForSuccessfulStatusMsg (fun _ => HostAt e n (r + 1))
      (Inv e) :=
  host_wait_acked.consequence (fun _ hw => hw) (fun _ _ hw => hw.1) fun _ hw => hw

theorem host_passes {n r : Nat} {cfg : Cfg} (hside : OneSide e)
    (hcfg : cfg = ⟨e.hostFile.isSome, copySize e⟩) :
    Triple (host e) (HostAt e n r) (tell (.passes cfg)) (fun _ => HostAt e n r) (Inv e) := by
  refine host_tell hostAt_stable hostAt_stable ?_
  intro w t o r' hw _ h
  obtain ⟨hinv, hsent, hread⟩ := hw
  obtain ⟨host, dpu⟩ := t
  obtain ⟨hdpu, rfl, hhost⟩ := perform_passes h
  dsimp only at hdpu hhost
  subst hdpu hhost
  have hinv' := hinv.hostPass hside hcfg
  exact ⟨rfl, List.prefix_rfl, hinv', fun _ _ => ⟨hinv', hsent, hread⟩⟩

theorem hostCfg_eq (hside : OneSide e) :
    (if (argsValidationCallback e.hostFile).isFileFoundLocally = true then
        argsValidationCallback e.hostFile
      else { argsValidationCallback e.hostFile with
        fileSize := fileSizeOf (directionMsg (!e.dpuFile.isSome)
          (argsValidationCallback e.dpuFile).fileSize) }) =
      ⟨e.hostFile.isSome, copySize e⟩ := by
  obtain ⟨_, _, _, hostFile, dpuFile⟩ := e
  cases hostFile with
  | some f => rfl
  | none =>
    cases dpuFile with
    | none => exact absurd rfl hside
    | some f => simp [copySize, argsValidationCallback]

theorem host_negotiates :
    Triple (host e) (HostAt e 0 0)
      (hostNegotiateDmaDirectionAndSize (argsValidationCallback e.hostFile))
      (fun cfg w => HostAt e 1 1 w ∧ OneSide e ∧ cfg = ⟨e.hostFile.isSome, copySize e⟩)
      (Inv e) := by
  refine triple_bind (host_call hostAt_stable fun w hw => hw.inv) fun _ => ?_
  refine triple_bind (host_call hostAt_stable fun w hw => hw.inv) fun _ => ?_
  refine triple_bind (host_sendto ?_ (by decide)) fun _ => ?_
  · simp [hostMsgs]
  refine triple_bind host_recvfrom fun msg => ?_
  refine triple_bind (triple_require (hostAt_stable.and dpuSent_stable) host_inv_stable
    fun w hw => hw.1.inv) fun _ => ?_
  refine triple_have (p := OneSide e ∧ msg = directionMsg (!e.dpuFile.isSome)
    (argsValidationCallback e.dpuFile).fileSize) ?_ ?_
  · rintro w ⟨⟨hw, hmsg⟩, hlength⟩
    exact hw.inv.direction msg hmsg (beq_iff_eq.mp hlength)
  rintro ⟨hside, rfl⟩
  have hcfg := hostCfg_eq hside
  refine triple_bind ((host_passes hside hcfg).consequence (fun _ hw => hw.1.1)
    (fun _ _ hw => hw) fun _ hw => hw) fun _ => ?_
  refine triple_pure (hostAt_stable.and (Stable.of_const _ _)) ?_
  intro w hw
  exact ⟨hw, hside, hcfg⟩

theorem host_malloc :
    Triple (host e) (HostAt e 1 1) (memoryAllocAndPopulate (copySize e))
      (fun _ => HostAt e 1 1) (Inv e) := by
  refine triple_bind (host_call hostAt_stable fun w hw => hw.inv) fun _ => ?_
  refine host_tell hostAt_stable hostAt_stable ?_
  intro w t o r hw _ h
  obtain ⟨hinv, hsent, hread⟩ := hw
  obtain ⟨host, dpu⟩ := t
  obtain ⟨hdpu, ⟨err, rfl, hhost⟩ | ⟨bytes, hlength, rfl, hhost⟩⟩ := perform_mallocAndStart h
  · dsimp only at hdpu hhost
    subst hdpu hhost
    exact ⟨rfl, List.prefix_rfl, hinv, fun _ hok => absurd hok (by simp)⟩
  · dsimp only at hdpu hhost
    subst hdpu hhost
    have hinv' : Inv e ⟨{ w.host with buffer := some bytes }, w.dpu⟩ := by
      refine hinv.hostBuffer (by omega) ?_
      rintro _ ⟨⟩
      exact hlength
    exact ⟨rfl, List.prefix_rfl, hinv', fun _ _ => ⟨hinv', hsent, hread⟩⟩

theorem host_exports :
    Triple (host e) (HostAt e 1 1) hostExportMemoryMapToDpu (fun _ => HostAt e 2 2) (Inv e) := by
  have hexport : Triple (host e) (HostAt e 1 1) (ask .exportPci)
      (fun desc w => HostAt e 1 1 w ∧ desc = e.exportDesc) (Inv e) := by
    refine host_ask hostAt_stable (fun _ => hostAt_stable.and (Stable.of_const _ _)) ?_
    intro w t o r hw _ h
    obtain ⟨hinv, hsent, hread⟩ := hw
    obtain ⟨host, dpu⟩ := t
    obtain ⟨hdpu, ⟨err, rfl, hhost⟩ | ⟨rfl, hhost⟩⟩ := perform_exportPci h
    · dsimp only at hdpu hhost
      subst hdpu hhost
      exact ⟨rfl, List.prefix_rfl, hinv, fun _ hok => absurd hok (by simp)⟩
    · dsimp only at hdpu hhost
      subst hdpu hhost
      have hinv' : Inv e ⟨{ w.host with mmap := true }, w.dpu⟩ := { hinv with }
      refine ⟨rfl, List.prefix_rfl, hinv', ?_⟩
      intro desc hok
      exact ⟨⟨hinv', hsent, hread⟩, (Except.ok.inj hok).symm⟩
  refine triple_bind hexport fun desc => ?_
  refine triple_have (p := desc = e.exportDesc) (fun _ hw => hw.2) ?_
  rintro rfl
  refine triple_bind ((host_sendto rfl (by decide)).consequence (fun _ hw => hw.1)
    (fun _ _ hw => hw) fun _ hw => hw) fun _ => ?_
  exact host_wait

theorem host_fills :
    Triple (host e) (HostAt e 2 2)
      (onlyIf e.hostFile.isSome (tell (.fread (copySize e))))
      (fun _ w => HostAt e 2 2 w ∧ Filled e w) (Inv e) := by
  have hstable : Stable (host e) fun w => HostAt e 2 2 w ∧ Filled e w :=
    hostAt_stable.and filled_stable
  cases hfile : e.hostFile with
  | none =>
    refine triple_pure hstable ?_
    intro w hw
    exact ⟨hw, fun f _ hf => absurd (hfile.symm.trans hf) (by simp)⟩
  | some f =>
    refine host_tell hostAt_stable hstable ?_
    intro w t o r hw _ h
    obtain ⟨hinv, hsent, hread⟩ := hw
    obtain ⟨host, dpu⟩ := t
    obtain ⟨hdpu, ⟨err, rfl, hhost⟩ | ⟨file, buffer, hfile', hbuffer, rfl, hhost⟩⟩ :=
      perform_fread h
    · dsimp only at hdpu hhost
      subst hdpu hhost
      exact ⟨rfl, List.prefix_rfl, hinv, fun _ hok => absurd hok (by simp)⟩
    · dsimp only at hdpu hhost
      subst hdpu hhost
      have hsize := File.toNat_size f
      have hlength := hinv.bufferLength buffer hbuffer
      obtain rfl := Option.some.inj ((hinv.hostFile f hfile).symm.trans hfile')
      rw [copySize_of_host hfile] at hlength ⊢
      have hnew : overwrite buffer 0 (f.bytes.take f.size.toNat) = f.bytes := by
        rw [hsize, List.take_length, overwrite_zero_eq_iff]
        omega
      rw [hnew]
      have hinv' : Inv e ⟨{ w.host with buffer := some f.bytes }, w.dpu⟩ := by
        refine hinv.hostBuffer (by omega) ?_
        rintro _ ⟨⟩
        rw [copySize_of_host hfile, hsize]
      refine ⟨rfl, List.prefix_rfl, hinv', fun _ _ => ⟨⟨hinv', hsent, hread⟩, ?_⟩⟩
      rintro g _ hg ⟨⟩
      obtain rfl := Option.some.inj (hfile.symm.trans hg)
      rfl

theorem host_sends_addr :
    Triple (host e) (fun w => HostAt e 2 2 w ∧ Filled e w)
      (hostSendAddrAndOffset e (copySize e)) (fun _ => HostAt e 4 4) (Inv e) := by
  refine triple_bind ((host_sendto_filled rfl).consequence (fun _ hw => ⟨hw.1, fun _ => hw.2⟩)
    (fun _ _ hw => hw) fun _ hw => hw) fun _ => ?_
  refine triple_bind host_wait fun _ => ?_
  refine triple_bind (host_sendto rfl (by decide)) fun _ => ?_
  exact host_wait

/-- The host has read the last status, and a file of the DPU is on the host. -/
structure HostDone (e : Setup) (w : World) : Prop where
  inv : Inv e w
  acked : Acked 4 w
  file : ∀ f, e.dpuFile = some f → w.host.file = some f.bytes

theorem hostDone_stable : Stable (host e) (HostDone e) := by
  intro w t h hw
  refine ⟨HostRely.inv h hw.inv, acked_stable w t h hw.acked, ?_⟩
  intro f hf
  exact hostFile_stable w t h (hw.file f hf)

theorem host_saves (hside : OneSide e) :
    Triple (host e) (fun w => HostAt e 4 5 w ∧ Acked 4 w)
      (onlyIf (!e.hostFile.isSome) (tell (.fwrite (copySize e)))) (fun _ => HostDone e)
      (Inv e) := by
  cases hfile : e.hostFile with
  | some f =>
    refine triple_pure hostDone_stable ?_
    rintro w ⟨hw, hacked⟩
    refine ⟨hw.inv, hacked, ?_⟩
    intro g hg
    exact absurd (hfile.symm.trans (copySize_of_dpu hside hg).1) (by simp)
  | none =>
    refine host_tell (hostAt_stable.and acked_stable) hostDone_stable ?_
    rintro w ⟨host, dpu⟩ o r ⟨⟨hinv, -, -⟩, hacked⟩ hcareful h
    obtain ⟨hdpu, ⟨err, file, rfl, hhost⟩ | ⟨buffer, hbuffer, rfl, hhost⟩⟩ :=
      perform_fwrite hcareful h
    · dsimp only at hdpu hhost
      subst hdpu hhost
      exact ⟨rfl, List.prefix_rfl, hinv.hostWrite hfile, fun _ hok => absurd hok (by simp)⟩
    · dsimp only at hdpu hhost
      subst hdpu hhost
      have hinv' : Inv e ⟨{ w.host with file := some (buffer.take (copySize e).toNat) }, w.dpu⟩ :=
        hinv.hostWrite hfile
      refine ⟨rfl, List.prefix_rfl, hinv', fun _ _ => ⟨hinv', hacked, ?_⟩⟩
      intro f hf
      obtain ⟨msg, hmsg, hsuccess⟩ := hacked
      have hcopied := (hinv.finished msg hmsg hsuccess).1
      obtain rfl := hinv.copied hcopied f buffer hf hbuffer
      dsimp only
      rw [(copySize_of_dpu hside hf).2, File.toNat_size, List.take_length]

theorem host_free (hP : Stable (host e) P) (hinv : ∀ w, P w → Inv e w)
    (hfree : ∀ w, P w → P ⟨{ w.host with buffer := none }, w.dpu⟩) :
    Triple (host e) P (tell .free) (fun _ => P) (Inv e) := by
  refine host_tell hP hP ?_
  rintro w ⟨host, dpu⟩ o r hw - h
  obtain ⟨hdpu, hhost⟩ := perform_free h
  dsimp only at hdpu hhost
  subst hdpu hhost
  exact ⟨rfl, List.prefix_rfl, hinv _ (hfree w hw), fun _ _ => hfree w hw⟩

theorem host_mmapDestroy (hP : Stable (host e) P) (hinv : ∀ w, P w → Inv e w)
    (hdestroy : ∀ w mmap, P w → P ⟨{ w.host with mmap := mmap }, w.dpu⟩) :
    Triple (host e) P (tell .mmapDestroy) (fun _ => P) (Inv e) := by
  refine host_tell hP hP ?_
  rintro w ⟨host, dpu⟩ o r hw - h
  obtain ⟨hdpu, mmap, hhost⟩ := perform_mmapDestroy h
  dsimp only at hdpu hhost
  subst hdpu hhost
  exact ⟨rfl, List.prefix_rfl, hinv _ (hdestroy w mmap hw), fun _ _ => hdestroy w mmap hw⟩

theorem host_copies (hside : OneSide e) :
    Triple (host e) (HostAt e 1 1) (hostCopy e ⟨e.hostFile.isSome, copySize e⟩)
      (fun _ => HostDone e) (Inv e) := by
  refine triple_bind host_exports fun _ => ?_
  refine triple_bind host_fills fun _ => ?_
  refine triple_bind host_sends_addr fun _ => ?_
  refine triple_bind host_wait_acked fun _ => ?_
  exact host_saves hside

/-- A host that succeeds has a copy of the DPU's file, or has been told that the DPU has a
copy of its own. -/
theorem host_done :
    Triple (host e) (HostAt e 0 0) (hostStartDmaCopy e (argsValidationCallback e.hostFile))
      (fun _ w => HostDone e w ∧ OneSide e) (Inv e) := by
  have hdone : ∀ w, HostDone e w → Inv e w := fun w hw => hw.inv
  have hinv : ∀ w, Inv e w → Inv e w := fun w hw => hw
  refine triple_bind host_negotiates fun cfg => ?_
  refine triple_have (p := OneSide e ∧ cfg = ⟨e.hostFile.isSome, copySize e⟩)
    (fun _ hw => hw.2) ?_
  rintro ⟨hside, rfl⟩
  refine Triple.consequence (P := HostAt e 1 1) (Q := fun _ => HostDone e) ?_
    (fun _ hw => hw.1) (fun _ _ hw => ⟨hw, hside⟩) fun _ hw => hw
  refine triple_bind (host_call hostAt_stable fun w hw => hw.inv) fun _ => ?_
  refine triple_releasing ?_ (fun _ => hostDone_stable) host_inv_stable
    (fun _ => host_call hostDone_stable hdone) (host_call host_inv_stable hinv)
  refine triple_bind (host_call hostAt_stable fun w hw => hw.inv) fun _ => ?_
  refine triple_releasing ?_ (fun _ => hostDone_stable) host_inv_stable
    (fun _ => host_mmapDestroy hostDone_stable hdone ?_)
    (host_mmapDestroy host_inv_stable hinv fun _ _ hw => { hw with })
  · refine triple_bind (host_call hostAt_stable fun w hw => hw.inv) fun _ => ?_
    refine triple_bind host_malloc fun _ => ?_
    refine triple_releasing (host_copies hside) (fun _ => hostDone_stable) host_inv_stable
      (fun _ => host_free hostDone_stable hdone ?_)
      (host_free host_inv_stable hinv fun _ hw => hw.hostFree)
    intro w hw
    exact ⟨hw.inv.hostFree, hw.acked, hw.file⟩
  · intro w mmap hw
    exact ⟨{ hw.inv with }, hw.acked, hw.file⟩

end DocaApps.Proofs.DmaCopyHost
