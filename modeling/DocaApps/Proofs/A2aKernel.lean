import DocaApps.Proofs.A2aInvariant

namespace DocaApps.Proofs.A2aKernel
open Common.Pack DpaAllToAll.Core A2aInvariant

variable {cfg : Setup} {s : World} {a b r t i : Nat} {deed : Deed} {pc : KernelPc}
  {x x' : Resources}

/-- A thread goes on, having posted on the connections of its rank. -/
def advance (s : World) (r t : Nat) (x : Resources) (pc : KernelPc) : World :=
  (s.setResources r (some x)).setThread r t pc

theorem advance_resources : (advance s r t x pc).resources r = some x :=
  Function.update_self ..

theorem advance_thread : (advance s r t x pc).thread r t = pc := put_same

theorem advance_other {u : Nat} (hu : u ≠ t) :
    (advance s r t x pc).thread r u = s.thread r u :=
  put_of_ne (.inr hu)

theorem advance_local : Local s (advance s r t x pc) r where
  host _ _ := rfl
  calls _ _ := rfl
  resources _ ha := Function.update_of_ne ha ..
  thread _ ha := Function.update_of_ne ha ..
  mem _ _ := rfl
  grown := Nat.le_refl _
  passed _ _ _ := rfl
  written := rfl
  signalled := rfl

theorem advance_progress (hpc : s.host r = .waiting) :
    progress cfg (advance s r t x pc) deed r b =
      if b % cfg.numThreads = t then
        if deed.done pc b then s.calls r else s.calls r - 1
      else progress cfg s deed r b := by
  have hhost : (advance s r t x pc).host r = .waiting := hpc
  rw [progress_waiting hhost, progress_waiting hpc]
  by_cases hb : b % cfg.numThreads = t
  · rw [if_pos hb, hb, advance_thread]
    rfl
  · rw [if_neg hb, advance_other hb]
    rfl

/-- A deed that the thread did for a rank before and after, or neither, counts as before. -/
theorem advance_same (hpc : s.host r = .waiting)
    (hdone : b % cfg.numThreads = t → deed.done pc b = deed.done (s.thread r t) b) :
    progress cfg (advance s r t x pc) deed r b = progress cfg s deed r b := by
  rw [advance_progress hpc]
  by_cases hb : b % cfg.numThreads = t
  · rw [if_pos hb, hdone hb, progress_waiting hpc, hb]
  · rw [if_neg hb]

theorem advance_new (hpc : s.host r = .waiting) (hb : b % cfg.numThreads = t)
    (hdone : deed.done pc b = true) :
    progress cfg (advance s r t x pc) deed r b = s.calls r := by
  rw [advance_progress hpc, if_pos hb, if_pos hdone]

theorem progress_old (hpc : s.host r = .waiting) (hb : b % cfg.numThreads = t)
    (hdone : deed.done (s.thread r t) b = false) :
    progress cfg s deed r b = s.calls r - 1 := by
  rw [progress_waiting hpc, hb, hdone]
  rfl

/-- The ranks of one thread are the thread count apart. -/
theorem lt_add_iff (hb : b % cfg.numThreads = i % cfg.numThreads) :
    b < i + cfg.numThreads ↔ b ≤ i := by
  have hpos := cfg.threadsPos
  constructor
  · intro hlt
    by_contra hgt
    have hzero := Nat.sub_mod_eq_zero_of_mod_eq hb
    obtain ⟨k, hk⟩ := Nat.dvd_of_mod_eq_zero hzero
    cases k with
    | zero => omega
    | succ k =>
      rw [Nat.mul_succ] at hk
      omega
  · omega

/-- What a thread has to keep when it goes on. -/
theorem advance_invariant (h : Invariant cfg s) (hr : r < cfg.numRanks)
    (hpc : s.host r = .waiting) (hx : s.resources r = some x)
    (hx' : x' = { x with rdmas := x'.rdmas }) (ht : t < cfg.numThreads)
    (hrunning : s.thread r t ≠ .ended) (hthread : ThreadOk cfg t pc)
    (hwrote : ∀ b < cfg.numRanks,
      progress cfg s .wrote r b ≤ progress cfg (advance s r t x' pc) .wrote r b)
    (hsignalled : ∀ b < cfg.numRanks,
      progress cfg s .signalled r b ≤ progress cfg (advance s r t x' pc) .signalled r b)
    (hsynced : ∀ b < cfg.numRanks,
      progress cfg (advance s r t x' pc) .synced r b ≤ s.signalled r b)
    (hsaw : ∀ b < cfg.numRanks, progress cfg (advance s r t x' pc) .saw r b ≤ s.signalled b r)
    (hqueue : ∀ b < cfg.numRanks, x'.rdmas b = pending cfg (advance s r t x' pc) r b x) :
    Invariant cfg (advance s r t x' pc) := by
  have hold := h.resources r hr x hx
  have hrank := h.rank r hr
  have hl : Local s (advance s r t x' pc) r := advance_local
  have hout : s.host r ≠ .outside := by
    rw [hpc]
    exact HostPc.noConfusion
  have hnot : ¬ completed x := fun hdone => hrunning (hold.ended hpc hdone t ht)
  refine h.local hl ⟨hrank.called, fun _ => ⟨x', advance_resources⟩, fun hpc' => ?_, fun hnone => ?_,
    hrank.barrier, fun _ u hu => ?_⟩ (fun y hy => ?_) (fun b hb => ?_) (fun a ha => ?_)
    (fun y hy b hb => ?_) (fun y hy a ha => ?_) fun a ha => h.data a ha r hr
  · exact absurd hpc' hout
  · rw [advance_resources] at hnone
    cases hnone
  · by_cases hut : u = t
    · rw [hut, advance_thread]
      exact hthread
    · rw [advance_other hut]
      exact hrank.threads hpc u hu
  · rw [advance_resources] at hy
    cases hy
    rw [hx']
    exact ⟨hold.called, hold.request, hold.seq, hold.sendbuf, hold.recvbuf, hold.first, hold.apart,
      hold.count, hold.extent, hold.sending, hold.compLe, fun _ hdone => absurd hdone hnot,
      fun hpc' b hb => ⟨(hold.exchanged hpc' b hb).joined, (hold.exchanged hpc' b hb).recvbuf,
        (hold.exchanged hpc' b hb).event⟩⟩
  · have hc := h.counts r hr b hb
    refine ⟨hc.signalledLe, hc.writtenLe.trans (hwrote b hb), hc.postedLe.trans (hsignalled b hb),
      hsynced b hb, ?_, hc.within⟩
    by_cases hbr : b = r
    · rw [hbr]
      exact hsaw r hr
    · rw [hl.progress hbr]
      exact hc.sawLe
  · have hc := h.counts a ha r hr
    by_cases har : a = r
    · rw [har] at hc ⊢
      exact ⟨hc.signalledLe, hc.writtenLe.trans (hwrote r hr), hc.postedLe.trans (hsignalled r hr),
        hsynced r hr, hsaw r hr, hc.within⟩
    · refine ⟨hc.signalledLe, ?_, ?_, ?_, hsaw a ha, hc.within⟩
      · rw [hl.progress har]
        exact hc.writtenLe
      · rw [hl.progress har]
        exact hc.postedLe
      · rw [hl.progress har]
        exact hc.syncedLe
  · rw [advance_resources] at hy
    cases hy
    rw [hqueue b hb]
    conv_rhs => rw [hx']
    rfl
  · rw [advance_resources] at hy
    cases hy
    rw [hx']
    exact h.events r hr x hx a ha

/-- A thread that only goes on in its loops. -/
theorem advance_self (hx : s.resources r = some x) : s.setThread r t pc = advance s r t x pc := by
  rw [advance, ← hx, setResources_self]

/-- Of the calls before its current one nothing of a rank is in flight. -/
theorem Counts.calls_le (h : Counts cfg s a b) :
    s.calls a ≤ s.signalled a b + 1 ∧ s.signalled a b ≤ s.written a b ∧ s.written a b ≤ s.calls a :=
  have hsynced : s.calls a ≤ progress cfg s .synced a b + 1 := calls_le_progress
  ⟨hsynced.trans (Nat.add_le_add_right h.syncedLe 1), h.signalledLe, h.writtenLe.trans progress_le⟩

/-- The condition on the queues, for a thread that posts nothing and whose posts are the same. -/
theorem pending_advance (hpc : s.host r = .waiting)
    (hwrote : b % cfg.numThreads = t → Deed.done .wrote pc b = Deed.done .wrote (s.thread r t) b)
    (hsignalled : b % cfg.numThreads = t →
      Deed.done .signalled pc b = Deed.done .signalled (s.thread r t) b) :
    pending cfg (advance s r t x' pc) r b x = pending cfg s r b x := by
  simp only [pending, advance_same hpc hwrote, advance_same hpc hsignalled]
  rfl

theorem post_rdmas {op : RdmaOp} :
    (x.post i op).rdmas b = if b = i then x.rdmas b ++ [op] else x.rdmas b := by
  by_cases hb : b = i
  · rw [if_pos hb, hb]
    exact Function.update_self ..
  · rw [if_neg hb]
    exact Function.update_of_ne hb ..

/-- What a thread did is not undone, as far as the loops say. -/
theorem progress_advance_le
    (hpc : s.host r = .waiting)
    (hdone : ∀ b, b % cfg.numThreads = t → b < cfg.numRanks →
      deed.done (s.thread r t) b = true → deed.done pc b = true) (hb : b < cfg.numRanks) :
    progress cfg s deed r b ≤ progress cfg (advance s r t x' pc) deed r b := by
  rw [advance_progress hpc]
  by_cases hmod : b % cfg.numThreads = t
  · rw [if_pos hmod, progress_waiting hpc, hmod]
    have hkeep := hdone b hmod hb
    cases hold : deed.done (s.thread r t) b with
    | false =>
      rw [if_neg Bool.false_ne_true]
      split
      · exact Nat.sub_le ..
      · exact Nat.le_refl _
    | true => rw [hkeep hold]
  · rw [if_neg hmod]

section
variable (h : Invariant cfg s) (hr : r < cfg.numRanks) (hpc : s.host r = .waiting)
  (hx : s.resources r = some x) (ht : t < cfg.numThreads)
include h hr hpc hx ht

/-- The thread posts its write for a rank. -/
theorem write_invariant (hpos : s.thread r t = .write i) (hi : i < cfg.numRanks) :
    Invariant cfg (advance s r t
      (x.post i (rdmaWrite cfg (cfg.count (s.calls r)) r i x)) (.signal i)) := by
  have hmod : i % cfg.numThreads = t := by
    simpa only [hpos, ThreadOk] using (h.rank r hr).threads hpc t ht
  refine advance_invariant h hr hpc hx rfl ht ?_ ⟨hmod, hi⟩ (fun b hb => ?_) (fun b hb => ?_)
    (fun b hb => ?_) (fun b hb => ?_) fun b hb => ?_
  · rw [hpos]
    exact KernelPc.noConfusion
  · refine progress_advance_le hpc (fun b _ _ hdone => ?_) hb
    simp only [hpos, Deed.done, decide_eq_true_eq] at hdone ⊢
    omega
  · refine (advance_same hpc fun _ => ?_).ge
    rw [hpos]
    rfl
  · rw [advance_same hpc fun _ => by rw [hpos]; rfl]
    exact (h.counts r hr b hb).syncedLe
  · rw [advance_same hpc fun _ => by rw [hpos]; rfl]
    exact (h.counts b hb r hr).sawLe
  · rw [post_rdmas, h.queue r hr x hx b hb]
    by_cases hbi : b = i
    · subst hbi
      have hwrote : progress cfg s .wrote r b = s.calls r - 1 :=
        progress_old hpc hmod (by simp [hpos, Deed.done])
      have hsignalled : progress cfg s .signalled r b = s.calls r - 1 :=
        progress_old hpc hmod (by simp [hpos, Deed.done])
      have hsignalled' : progress cfg (advance s r t
          (x.post b (rdmaWrite cfg (cfg.count (s.calls r)) r b x)) (.signal b)) .signalled r b =
          s.calls r - 1 := by
        rw [advance_same hpc fun _ => by rw [hpos]; rfl, hsignalled]
      have hwrote' : progress cfg (advance s r t
          (x.post b (rdmaWrite cfg (cfg.count (s.calls r)) r b x)) (.signal b)) .wrote r b =
          s.calls r := advance_new hpc hmod (by simp [Deed.done])
      have hcounts := h.counts r hr b hb
      have hwritten := hcounts.writtenLe
      have hcalls := Counts.calls_le hcounts
      have hcalled := (h.resources r hr x hx).called
      rw [hwrote] at hwritten
      rw [if_pos rfl, pending, pending, hwrote, hwrote', hsignalled, hsignalled']
      have hw : (advance s r t (x.post b (rdmaWrite cfg (cfg.count (s.calls r)) r b x))
          (.signal b)).written r b = s.written r b := rfl
      have hs : (advance s r t (x.post b (rdmaWrite cfg (cfg.count (s.calls r)) r b x))
          (.signal b)).signalled r b = s.signalled r b := rfl
      rw [hw, hs, if_neg (by omega), if_neg (by omega), if_pos (by omega)]
      rfl
    · rw [if_neg hbi]
      refine (pending_advance hpc (fun _ => ?_) fun _ => ?_).symm
      · simp only [hpos, Deed.done, decide_eq_decide]
        omega
      · rw [hpos]
        rfl

/-- It posts its signal for a rank, after the write. -/
theorem signal_invariant (hpos : s.thread r t = .signal i) :
    Invariant cfg (advance s r t (x.post i (rdmaSignalSet i x)) (.write (i + cfg.numThreads))) := by
  have hthread : i % cfg.numThreads = t ∧ i < cfg.numRanks := by
    simpa only [hpos, ThreadOk] using (h.rank r hr).threads hpc t ht
  obtain ⟨hmod, hi⟩ := hthread
  have hlt : ∀ b, b % cfg.numThreads = t → (b < i + cfg.numThreads ↔ b ≤ i) :=
    fun b hb => lt_add_iff (hb.trans hmod.symm)
  refine advance_invariant h hr hpc hx rfl ht ?_ ?_ (fun b hb => ?_) (fun b hb => ?_)
    (fun b hb => ?_) (fun b hb => ?_) fun b hb => ?_
  · rw [hpos]
    exact KernelPc.noConfusion
  · rw [ThreadOk, Nat.add_mod_right]
    exact hmod
  · refine (advance_same hpc fun hb => ?_).ge
    simp only [hpos, Deed.done, hlt b hb]
  · refine progress_advance_le hpc (fun b hb _ hdone => ?_) hb
    simp only [hpos, Deed.done, decide_eq_true_eq] at hdone ⊢
    omega
  · rw [advance_same hpc fun _ => by rw [hpos]; rfl]
    exact (h.counts r hr b hb).syncedLe
  · rw [advance_same hpc fun _ => by rw [hpos]; rfl]
    exact (h.counts b hb r hr).sawLe
  · rw [post_rdmas, h.queue r hr x hx b hb]
    have hwrote : progress cfg (advance s r t (x.post i (rdmaSignalSet i x))
        (.write (i + cfg.numThreads))) .wrote r b = progress cfg s .wrote r b :=
      advance_same hpc fun hb => by simp only [hpos, Deed.done, hlt b hb]
    by_cases hbi : b = i
    · subst hbi
      have hsignalled : progress cfg s .signalled r b = s.calls r - 1 :=
        progress_old hpc hmod (by simp [hpos, Deed.done])
      have hsignalled' : progress cfg (advance s r t (x.post b (rdmaSignalSet b x))
          (.write (b + cfg.numThreads))) .signalled r b = s.calls r :=
        advance_new hpc hmod (by simp [Deed.done, cfg.threadsPos])
      have hcounts := h.counts r hr b hb
      have hposted := hcounts.postedLe
      have hcalls := Counts.calls_le hcounts
      have hcalled := (h.resources r hr x hx).called
      rw [hsignalled] at hposted
      rw [if_pos rfl, pending, pending, hwrote, hsignalled, hsignalled']
      have hs : (advance s r t (x.post b (rdmaSignalSet b x))
          (.write (b + cfg.numThreads))).signalled r b = s.signalled r b := rfl
      rw [hs, if_neg (by omega : ¬ s.signalled r b < s.calls r - 1),
        if_pos (by omega : s.signalled r b < s.calls r), List.append_nil]
      rfl
    · rw [if_neg hbi]
      refine (pending_advance hpc (fun hb => ?_) fun hb => ?_).symm
      · simp only [hpos, Deed.done, hlt b hb]
      · simp only [hpos, Deed.done, decide_eq_decide]
        have := hlt b hb
        omega

/-- A thread that posted all it has to: nothing about its posts changes. -/
theorem posted_invariant (hpos : ∀ b, b % cfg.numThreads = t → b < cfg.numRanks →
      Deed.done .wrote (s.thread r t) b = true ∧ Deed.done .signalled (s.thread r t) b = true)
    (hrunning : s.thread r t ≠ .ended) (hthread : ThreadOk cfg t pc)
    (hpc' : ∀ b, Deed.done .wrote pc b = true ∧ Deed.done .signalled pc b = true)
    (hsynced : ∀ b < cfg.numRanks,
      progress cfg (advance s r t x pc) .synced r b ≤ s.signalled r b)
    (hsaw : ∀ b < cfg.numRanks, progress cfg (advance s r t x pc) .saw r b ≤ s.signalled b r) :
    Invariant cfg (advance s r t x pc) := by
  have hwrote : ∀ b < cfg.numRanks, b % cfg.numThreads = t →
      Deed.done .wrote pc b = Deed.done .wrote (s.thread r t) b :=
    fun b hb hmod => (hpc' b).1.trans (hpos b hmod hb).1.symm
  have hsignalled : ∀ b < cfg.numRanks, b % cfg.numThreads = t →
      Deed.done .signalled pc b = Deed.done .signalled (s.thread r t) b :=
    fun b hb hmod => (hpc' b).2.trans (hpos b hmod hb).2.symm
  refine advance_invariant h hr hpc hx rfl ht hrunning hthread (fun b hb => ?_) (fun b hb => ?_)
    hsynced hsaw fun b hb => ?_
  · exact (advance_same hpc (hwrote b hb)).ge
  · exact (advance_same hpc (hsignalled b hb)).ge
  · rw [h.queue r hr x hx b hb]
    exact (pending_advance hpc (hwrote b hb) (hsignalled b hb)).symm

omit ht in
/-- The signal that a thread waits for came. -/
theorem signal_came (hi : i < cfg.numRanks) (hgt : x.a2aSeqNum - 1 < x.kernelEvents i) :
    s.calls r ≤ s.signalled i r := by
  have hold := h.resources r hr x hx
  have hseq := hold.seq
  have hrequest := hold.request_le
  have hevents := h.events r hr x hx i hi
  rw [if_neg (by simp [hpc])] at hseq
  omega

omit ht in
/-- The connection that a thread synchronizes is drained. -/
theorem signal_drained (hi : i < cfg.numRanks) (hmod : i % cfg.numThreads = t)
    (hposted : Deed.done .signalled (s.thread r t) i = true) (hempty : x.rdmas i = []) :
    s.calls r ≤ s.signalled r i := by
  have hqueue := h.queue r hr x hx i hi
  have hprogress : progress cfg s .signalled r i = s.calls r := by
    rw [progress_waiting hpc, hmod, hposted, if_pos rfl]
  rw [hempty, pending, hprogress] at hqueue
  obtain ⟨-, hsignal⟩ := List.append_eq_nil_iff.mp hqueue.symm
  by_contra hlt
  rw [if_pos (by omega)] at hsignal
  cases hsignal

/-- One step of a thread of the kernel. -/
theorem kernel_invariant : Invariant cfg (kernelStep cfg r t x s) := by
  have hthread := (h.rank r hr).threads hpc t ht
  unfold kernelStep
  cases hpos : s.thread r t with
  | write i =>
    simp only
    rw [hpos] at hthread
    by_cases hi : i < cfg.numRanks
    · rw [if_pos hi]
      exact write_invariant h hr hpc hx ht hpos hi
    · rw [if_neg hi, advance_self hx]
      refine posted_invariant h hr hpc hx ht (fun b hmod hb => ?_) ?_ (Nat.mod_eq_of_lt ht)
        (fun b => ⟨rfl, rfl⟩) (fun b hb => ?_) fun b hb => ?_
      · simp only [hpos, Deed.done, decide_eq_true_eq]
        omega
      · rw [hpos]
        exact KernelPc.noConfusion
      · rw [advance_same hpc fun hmod => ?_]
        · exact (h.counts r hr b hb).syncedLe
        · have hle := Nat.mod_le b cfg.numThreads
          simp only [hpos, Deed.done, decide_eq_false_iff_not]
          omega
      · rw [advance_same hpc fun hmod => ?_]
        · exact (h.counts b hb r hr).sawLe
        · have hle := Nat.mod_le b cfg.numThreads
          simp only [hpos, Deed.done, decide_eq_false_iff_not]
          omega
  | signal i => exact signal_invariant h hr hpc hx ht hpos
  | wait i =>
    simp only
    rw [hpos] at hthread
    by_cases hi : i < cfg.numRanks
    · rw [if_pos hi]
      by_cases hgt : x.a2aSeqNum - 1 < x.kernelEvents i
      · rw [if_pos hgt, advance_self hx]
        refine posted_invariant h hr hpc hx ht (fun b _ _ => ?_) ?_ ⟨hthread, hi⟩
          (fun b => ⟨rfl, rfl⟩) (fun b hb => ?_) fun b hb => ?_
        · rw [hpos]
          exact ⟨rfl, rfl⟩
        · rw [hpos]
          exact KernelPc.noConfusion
        · rw [advance_same hpc fun _ => by rw [hpos]; rfl]
          exact (h.counts r hr b hb).syncedLe
        · by_cases hbi : b = i
          · rw [hbi, advance_new hpc hthread (by simp [Deed.done])]
            exact signal_came h hr hpc hx hi hgt
          · rw [advance_same hpc fun _ => ?_]
            · exact (h.counts b hb r hr).sawLe
            · simp only [hpos, Deed.done, decide_eq_decide]
              omega
      · rw [if_neg hgt]
        exact h
    · rw [if_neg hi, advance_self hx]
      refine posted_invariant h hr hpc hx ht (fun b _ _ => ?_) ?_ trivial (fun b => ⟨rfl, rfl⟩)
        (fun b hb => ?_) fun b hb => ?_
      · rw [hpos]
        exact ⟨rfl, rfl⟩
      · rw [hpos]
        exact KernelPc.noConfusion
      · rw [advance_same hpc fun _ => ?_]
        · exact (h.counts r hr b hb).syncedLe
        · simp only [hpos, Deed.done]
          exact (decide_eq_true (by omega)).symm
      · rw [advance_same hpc fun _ => ?_]
        · exact (h.counts b hb r hr).sawLe
        · simp only [hpos, Deed.done]
          exact (decide_eq_true (by omega)).symm
  | synchronize i =>
    simp only
    rw [hpos] at hthread
    obtain ⟨hmod, hi⟩ := hthread
    have hlt : ∀ b, b % cfg.numThreads = t → (b < i + cfg.numThreads ↔ b ≤ i) :=
      fun b hb => lt_add_iff (hb.trans hmod.symm)
    by_cases hempty : x.rdmas i = []
    · rw [if_pos hempty, advance_self hx]
      refine posted_invariant h hr hpc hx ht (fun b _ _ => ?_) ?_ ?_ (fun b => ⟨rfl, rfl⟩)
        (fun b hb => ?_) fun b hb => ?_
      · rw [hpos]
        exact ⟨rfl, rfl⟩
      · rw [hpos]
        exact KernelPc.noConfusion
      · rw [ThreadOk, Nat.add_mod_right]
        exact hmod
      · by_cases hbi : b = i
        · rw [hbi, advance_new hpc hmod (by simp [Deed.done, cfg.threadsPos])]
          exact signal_drained h hr hpc hx hi hmod (by rw [hpos]; rfl) hempty
        · rw [advance_same hpc fun hb => ?_]
          · exact (h.counts r hr b hb).syncedLe
          · have := hlt b hb
            simp only [hpos, Deed.done, decide_eq_decide]
            omega
      · rw [advance_same hpc fun hb => ?_]
        · exact (h.counts b hb r hr).sawLe
        · simp only [hpos, Deed.done, hlt b hb]
    · rw [if_neg hempty]
      exact h
  | ended => exact h

end

end DocaApps.Proofs.A2aKernel
