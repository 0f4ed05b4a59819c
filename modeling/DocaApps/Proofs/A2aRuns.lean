import DocaApps.Proofs.A2aKernel

namespace DocaApps.Proofs.A2aRuns
open Lib.Runs Common.Pack DpaAllToAll.Core A2aInvariant A2aKernel

variable {cfg : Setup} {s s' : World} {a b r t : Nat} {x : Resources} {op : RdmaOp}
  {ops : List RdmaOp}

/-- What the network may change: the queues, the kernel events and the memory. -/
structure Effect (s s' : World) : Prop where
  host : s'.host = s.host
  calls : s'.calls = s.calls
  thread : s'.thread = s.thread
  passed : s'.passed = s.passed
  absent : ∀ r, s'.resources r = none → s.resources r = none
  same : ∀ r y', s'.resources r = some y' → ∃ y, s.resources r = some y ∧
    y' = { y with rdmas := y'.rdmas, kernelEvents := y'.kernelEvents }

theorem Effect.progress (he : Effect s s') {deed : Deed} :
    progress cfg s' deed a b = progress cfg s deed a b :=
  progress_congr (congrFun he.host a) (congrFun he.calls a) (congrFun he.thread a)

theorem Effect.present (he : Effect s s') (h : ∃ y, s.resources r = some y) :
    ∃ y', s'.resources r = some y' := by
  cases hr : s'.resources r with
  | none =>
    obtain ⟨y, hy⟩ := h
    rw [he.absent r hr] at hy
    cases hy
  | some y' => exact ⟨y', rfl⟩

theorem Effect.rank (he : Effect s s') (h : RankOk cfg s r) : RankOk cfg s' r := by
  refine ⟨?_, ?_, ?_, ?_, ?_, ?_⟩
  · rw [he.host, he.calls]
    exact h.called
  · rw [he.host]
    exact fun hpc => he.present (h.present hpc)
  · rw [he.host]
    intro hpc hb
    cases hr : s'.resources r with
    | none => rfl
    | some y' =>
      obtain ⟨y, hy, -⟩ := he.same r y' hr
      rw [h.absent hpc hb] at hy
      cases hy
  · rw [he.calls]
    exact fun hnone => h.kept (he.absent r hnone)
  · rw [he.host]
    exact h.barrier
  · rw [he.host, he.thread]
    exact h.threads

theorem Effect.resourcesOk (he : Effect s s') {y : Resources} (h : ResourcesOk cfg s r y)
    {rdmas : Nat → List RdmaOp} {kernelEvents : Nat → Nat}
    (hmem : s.host r ≠ .outside → s'.mem r y.sendbuf = s.mem r y.sendbuf) :
    ResourcesOk cfg s' r { y with rdmas, kernelEvents } := by
  refine ⟨?_, ?_, ?_, ?_, ?_, ?_, h.apart, h.count, h.extent, ?_, h.compLe, ?_, ?_⟩
  · rw [he.calls]
    exact h.called
  · rw [he.calls]
    exact h.request
  · rw [he.calls, he.host]
    exact h.seq
  · rw [he.calls, he.passed]
    exact h.sendbuf
  · rw [he.calls, he.passed]
    exact h.recvbuf
  · rw [he.passed]
    exact h.first
  · rw [he.calls, he.passed, he.host]
    exact fun hpc => (hmem hpc).trans (h.sending hpc)
  · unfold allEnded
    rw [he.host, he.thread]
    exact h.ended
  · rw [he.host]
    intro hpc b hb
    obtain ⟨hjoined, hrecvbuf, hevent⟩ := h.exchanged hpc b hb
    exact ⟨by rw [he.calls]; exact hjoined, by rw [he.passed]; exact hrecvbuf, hevent⟩

/-- What took effect on a connection changed as little as that. -/
theorem effect_invariant (h : Invariant cfg s) (he : Effect s s')
    (hmem : ∀ r < cfg.numRanks, ∀ y, s.resources r = some y → s.host r ≠ .outside →
      s'.mem r y.sendbuf = s.mem r y.sendbuf)
    (hcounts : ∀ a < cfg.numRanks, ∀ b < cfg.numRanks, Counts cfg s' a b)
    (hqueue : ∀ a < cfg.numRanks, ∀ y', s'.resources a = some y' → ∀ b < cfg.numRanks,
      y'.rdmas b = pending cfg s' a b y')
    (hevents : ∀ b < cfg.numRanks, ∀ y', s'.resources b = some y' → ∀ a < cfg.numRanks,
      y'.kernelEvents a + y'.request = s'.signalled a b + 1)
    (hdata : ∀ a < cfg.numRanks, ∀ b < cfg.numRanks, Delivered cfg s' a b) :
    Invariant cfg s' := by
  refine ⟨fun r hr => he.rank (h.rank r hr), fun r hr y' hy' => ?_, hcounts, hqueue, hevents, hdata⟩
  obtain ⟨y, hy, heq⟩ := he.same r y' hy'
  rw [heq]
  exact he.resourcesOk (h.resources r hr y hy) (hmem r hr y hy)

/-- Where a connection is not drained, its rank waits for its kernel, and nothing of the call was
signalled on it. -/
theorem inflight (h : Invariant cfg s) (ha : a < cfg.numRanks) (hb : b < cfg.numRanks)
    (hx : s.resources a = some x) (hops : x.rdmas b ≠ []) :
    s.host a = .waiting ∧ s.calls a = s.signalled a b + 1 := by
  have hcounts := h.counts a ha b hb
  have hqueue := h.queue a ha x hx b hb
  constructor
  · by_contra hpc
    rw [hqueue] at hops
    exact hops (hcounts.pending_nil hpc x)
  · obtain ⟨hlast, hle, hcalls⟩ := Counts.calls_le hcounts
    have hposted := hcounts.postedLe
    have hprogress : progress cfg s .wrote a b ≤ s.calls a := progress_le
    have hprogress' : progress cfg s .signalled a b ≤ s.calls a := progress_le
    by_contra hne
    rw [hqueue, pending, if_neg (by omega), if_neg (by omega)] at hops
    exact hops rfl

/-- No rank is ahead of one that did not signal to it. -/
theorem calls_le_signalled (h : Counts cfg s a b) : s.calls b ≤ s.signalled a b + 1 :=
  have hsaw : s.calls b ≤ progress cfg s .saw b a + 1 := calls_le_progress
  hsaw.trans (Nat.add_le_add_right h.sawLe 1)

/-- The ranks of a connection in flight are in the same call, when the other one entered it. -/
theorem inflight_same (h : Invariant cfg s) (ha : a < cfg.numRanks) (hb : b < cfg.numRanks)
    (hx : s.resources a = some x) (hops : x.rdmas b ≠ []) (hentered : s.calls a ≤ s.calls b) :
    s.calls b = s.calls a := by
  have hahead := calls_le_signalled (h.counts a ha b hb)
  rw [← (inflight h ha hb hx hops).2] at hahead
  omega

/-- The call that made the resources passed the buffer of the current call. -/
theorem recvbuf_kept (h : Invariant cfg s) (hb : b < cfg.numRanks) (hcalled : 1 ≤ s.calls b) :
    (s.passed (requestOf cfg (s.calls b)) b).recvbuf = (s.passed (s.calls b) b).recvbuf := by
  cases hy : s.resources b with
  | some y =>
    have hold := h.resources b hb y hy
    rw [← hold.request, ← hold.first, hold.recvbuf]
  | none =>
    rcases (h.rank b hb).kept hy with hblocking | hzero
    · rw [requestOf, if_pos hblocking]
    · omega

/-- A block of the buffers of a call, in bytes. -/
theorem offset_eq {k rank : Nat} (hrank : rank < cfg.numRanks) :
    offset (cfg.count k) rank (cfg.extent k) = rank * block cfg k := by
  have hle : rank * block cfg k ≤ cfg.numRanks * block cfg k :=
    Nat.mul_le_mul_right _ hrank.le
  rw [offset, Nat.mul_comm (cfg.count k) rank, Nat.mul_assoc]
  exact Nat.mod_eq_of_lt (lt_of_le_of_lt hle (cfg.inMemory k))

theorem length_eq {k : Nat} (hpos : 0 < cfg.numRanks) :
    cfg.extent k * cfg.count k % 2 ^ 64 = block cfg k := by
  have hle : 1 * block cfg k ≤ cfg.numRanks * block cfg k := Nat.mul_le_mul_right _ hpos
  rw [Nat.one_mul] at hle
  rw [Nat.mul_comm]
  exact Nat.mod_eq_of_lt (lt_of_le_of_lt hle (cfg.inMemory k))

/-- The calls on one request pass the same count and the same datatype. -/
def Uniform (cfg : Setup) : Prop :=
  cfg.blocking = false → ∀ k, 1 ≤ k → cfg.count k = cfg.count 1 ∧ cfg.extent k = cfg.extent 1

theorem Uniform.request (hu : Uniform cfg) {k : Nat} (hk : 1 ≤ k) :
    cfg.count (requestOf cfg k) = cfg.count k ∧ cfg.extent (requestOf cfg k) = cfg.extent k := by
  unfold requestOf
  split
  · exact ⟨rfl, rfl⟩
  · obtain ⟨hcount, hextent⟩ := hu (eq_false_of_ne_true ‹_›) k hk
    exact ⟨hcount.symm, hextent.symm⟩

/-- The write of a rank for another one in the same call: its block goes into the place of the
rank in the receive buffer. -/
theorem rdmaWrite_eq (hu : Uniform cfg) (h : Invariant cfg s) (ha : a < cfg.numRanks)
    (hb : b < cfg.numRanks) (hx : s.resources a = some x) (hpc : s.host a = .waiting)
    (hsame : s.calls b = s.calls a) :
    rdmaWrite cfg (cfg.count (s.calls a)) a b x =
      .write ⟨b, (s.passed (s.calls b) b).recvbuf, bufSize cfg x⟩ (a * block cfg (s.calls b))
        ⟨a, x.sendbuf, bufSize cfg x⟩ (b * block cfg (s.calls b)) (block cfg (s.calls b)) ∧
      bufSize cfg x = cfg.numRanks * block cfg (s.calls b) := by
  have hold := h.resources a ha x hx
  have hnot : s.host a ≠ .initializing := by
    rw [hpc]
    exact HostPc.noConfusion
  have hcalled : 1 ≤ s.calls b := hsame ▸ hold.called
  have hbuf := recvbuf_kept h hb hcalled
  rw [hsame, ← hold.request] at hbuf
  obtain ⟨hcount, hextent⟩ := hu.request hold.called
  rw [← hold.request] at hcount hextent
  have hx' : x.extent = cfg.extent (s.calls a) := hold.extent.trans hextent
  constructor
  · rw [rdmaWrite, (hold.exchanged hnot b hb).recvbuf, hx', offset_eq ha, offset_eq hb,
      length_eq (Nat.zero_lt_of_lt ha), hsame, hbuf]
  · rw [bufSize, hx', hold.count, hcount, hsame, block, Nat.mul_comm (cfg.extent _), Nat.mul_comm]

/-- Blocks of different ranks do not overlap. -/
theorem blocks_apart {c B o : Nat} (hc : c ≠ a) (ho : o < B) :
    ¬ (a * B ≤ c * B + o ∧ c * B + o < a * B + B) := by
  rcases Nat.lt_or_gt_of_ne hc with hlt | hlt
  · have hle : (c + 1) * B ≤ a * B := Nat.mul_le_mul_right B hlt
    rw [Nat.succ_mul] at hle
    omega
  · have hle : (a + 1) * B ≤ c * B := Nat.mul_le_mul_right B hlt
    rw [Nat.succ_mul] at hle
    omega

/-- The signal of the call, when it is posted and did not take effect. -/
def signalPending (cfg : Setup) (s : World) (a b : Nat) (x : Resources) : List RdmaOp :=
  if s.signalled a b < progress cfg s .signalled a b then [rdmaSignalSet b x] else []

/-- What is first on a connection is the write of the call, or its signal. -/
theorem inflight_head (h : Invariant cfg s) (ha : a < cfg.numRanks) (hb : b < cfg.numRanks)
    (hx : s.resources a = some x) (hops : x.rdmas b = op :: ops) :
    (s.written a b + 1 = s.calls a ∧ progress cfg s .wrote a b = s.calls a ∧
      op = rdmaWrite cfg (cfg.count (s.calls a)) a b x ∧
      ops = signalPending cfg s a b x) ∨
    (s.written a b = s.calls a ∧ progress cfg s .wrote a b = s.calls a ∧
      progress cfg s .signalled a b = s.calls a ∧ op = rdmaSignalSet b x ∧ ops = []) := by
  have hne : x.rdmas b ≠ [] := by
    rw [hops]
    exact List.cons_ne_nil op ops
  obtain ⟨-, hcalls⟩ := inflight h ha hb hx hne
  have hcounts := h.counts a ha b hb
  have hle := hcounts.signalledLe
  have hwritten := hcounts.writtenLe
  have hwrote : progress cfg s .wrote a b ≤ s.calls a := progress_le
  have hposts : progress cfg s .signalled a b ≤ progress cfg s .wrote a b := signalled_le_wrote
  have hqueue := h.queue a ha x hx b hb
  rw [hops, pending] at hqueue
  by_cases hw : s.written a b < progress cfg s .wrote a b
  · rw [if_pos hw] at hqueue
    obtain ⟨hop, hrest⟩ := List.cons.inj hqueue
    exact .inl ⟨by omega, by omega, hop, hrest⟩
  · rw [if_neg hw, List.nil_append] at hqueue
    by_cases hs : s.signalled a b < progress cfg s .signalled a b
    · rw [if_pos hs] at hqueue
      obtain ⟨hop, hrest⟩ := List.cons.inj hqueue
      exact .inr ⟨by omega, by omega, by omega, hop, hrest⟩
    · rw [if_neg hs] at hqueue
      cases hqueue

section write
variable (hu : Uniform cfg) (h : Invariant cfg s) (ha : a < cfg.numRanks) (hb : b < cfg.numRanks)
  (hx : s.resources a = some x) (hpc : s.host a = .waiting)
  (hwritten : s.written a b + 1 = s.calls a) (hsame : s.calls b = s.calls a)
  (hwrote : progress cfg s .wrote a b = s.calls a)
include hu h ha hb hx hpc hwritten hsame hwrote

/-- The block of a rank arrives at another one. -/
theorem write_delivered :
    Invariant cfg (takeEffect a b (rdmaWrite cfg (cfg.count (s.calls a)) a b x)
      (s.setResources a
        (some { x with rdmas := Function.update x.rdmas b (signalPending cfg s a b x) }))) := by
  rw [(rdmaWrite_eq hu h ha hb hx hpc hsame).1]
  obtain ⟨x', hx'⟩ : ∃ x', x' =
      { x with rdmas := Function.update x.rdmas b (signalPending cfg s a b x) } := ⟨_, rfl⟩
  obtain ⟨s', hs'⟩ : ∃ s', s' = takeEffect a b
      (.write ⟨b, (s.passed (s.calls b) b).recvbuf, bufSize cfg x⟩ (a * block cfg (s.calls b))
        ⟨a, x.sendbuf, bufSize cfg x⟩ (b * block cfg (s.calls b)) (block cfg (s.calls b)))
      (s.setResources a (some x')) := ⟨_, rfl⟩
  rw [← hx', ← hs']
  have hold := h.resources a ha x hx
  have hcalls : s'.calls = s.calls := by rw [hs']; rfl
  have hsignalled : s'.signalled = s.signalled := by rw [hs']; rfl
  have hcount : s'.written = put s.written a b (s.calls a) := by rw [hs', ← hwritten]; rfl
  have hres : s'.resources = Function.update s.resources a (some x') := by rw [hs']; rfl
  have hmem : s'.mem = put s.mem b (s.passed (s.calls b) b).recvbuf
      (copyBytes (s.mem a x.sendbuf) (b * block cfg (s.calls b))
        (s.mem b (s.passed (s.calls b) b).recvbuf) (a * block cfg (s.calls b))
        (block cfg (s.calls b))) := by rw [hs']; rfl
  have hpassed : s'.passed = s.passed := by rw [hs']; rfl
  have hother : ∀ c d, (c ≠ a ∨ d ≠ b) → s'.written c d = s.written c d := by
    intro c d hne
    rw [hcount]
    exact put_of_ne hne
  have he : Effect s s' := by
    refine ⟨by rw [hs']; rfl, hcalls, by rw [hs']; rfl, hpassed, fun r hr => ?_, fun r y hy => ?_⟩
    · by_cases har : r = a
      · rw [hres, har, Function.update_self] at hr
        cases hr
      · rwa [hres, Function.update_of_ne har] at hr
    · by_cases har : r = a
      · rw [hres, har, Function.update_self] at hy
        cases hy
        exact ⟨x, har ▸ hx, by rw [hx']⟩
      · rw [hres, Function.update_of_ne har] at hy
        exact ⟨y, hy, rfl⟩
  refine effect_invariant h he (fun r hr y hy _ => ?_) (fun c hc d hd => ?_)
    (fun c hc y hy d hd => ?_) (fun d hd y hy c hc => ?_) fun c hc d hd hdone hcalled o ho => ?_
  · have hy' := h.resources r hr y hy
    rw [hmem]
    refine put_of_ne ?_
    by_cases hrb : r = b
    · subst hrb
      rw [← hy'.recvbuf]
      exact .inr hy'.apart
    · exact .inl hrb
  · have hcd := h.counts c hc d hd
    by_cases hne : c ≠ a ∨ d ≠ b
    · refine ⟨?_, ?_, ?_, ?_, ?_, ?_⟩
      · rw [hsignalled, hother c d hne]
        exact hcd.signalledLe
      · rw [he.progress, hother c d hne]
        exact hcd.writtenLe
      · rw [he.progress, hsignalled]
        exact hcd.postedLe
      · rw [he.progress, hsignalled]
        exact hcd.syncedLe
      · rw [he.progress, hsignalled]
        exact hcd.sawLe
      · rw [hcalls, hother c d hne]
        exact hcd.within
    · obtain ⟨rfl, rfl⟩ : c = a ∧ d = b := by omega
      have hnow : s'.written c d = s.calls c := by
        rw [hcount]
        exact put_same
      have hle := hcd.signalledLe
      refine ⟨?_, ?_, ?_, ?_, ?_, ?_⟩
      · rw [hsignalled, hnow]
        omega
      · rw [he.progress, hnow, hwrote]
      · rw [he.progress, hsignalled]
        exact hcd.postedLe
      · rw [he.progress, hsignalled]
        exact hcd.syncedLe
      · rw [he.progress, hsignalled]
        exact hcd.sawLe
      · rw [hcalls, hnow, hsame]
  · by_cases hca : c = a
    · subst hca
      rw [hres, Function.update_self] at hy
      cases hy
      rw [hx']
      by_cases hdb : d = b
      · subst hdb
        simp only [Function.update_self, signalPending, pending, he.progress, hwrote, hcount,
          put_same, Nat.lt_irrefl, ↓reduceIte, List.nil_append, hsignalled]
        rfl
      · simp only [Function.update_of_ne hdb, h.queue c hc x hx d hd, pending, he.progress,
          hother c d (.inr hdb), hsignalled, hcalls]
        rfl
    · rw [hres, Function.update_of_ne hca] at hy
      rw [h.queue c hc y hy d hd]
      simp only [pending, he.progress, hother c d (.inl hca), hsignalled, hcalls]
  · rw [hsignalled]
    by_cases hda : d = a
    · subst hda
      rw [hres, Function.update_self] at hy
      cases hy
      rw [hx']
      exact h.events d hd x hx c hc
    · rw [hres, Function.update_of_ne hda] at hy
      exact h.events d hd y hy c hc
  · rw [hcalls] at hdone hcalled ho
    rw [hcalls, hpassed, hmem]
    by_cases hdb : d = b
    · subst hdb
      rw [put_same, copyBytes]
      by_cases hca : c = a
      · subst hca
        rw [if_pos (by omega), hold.sending (by rw [hpc]; exact HostPc.noConfusion), hsame]
        congr 1
        omega
      · rw [if_neg (blocks_apart hca ho)]
        rw [hother c d (.inl hca)] at hdone
        exact h.data c hc d hd hdone hcalled o ho
    · rw [put_of_ne (.inl hdb)]
      rw [hother c d (.inr hdb)] at hdone
      exact h.data c hc d hd hdone hcalled o ho

end write

section signal
variable (h : Invariant cfg s) (ha : a < cfg.numRanks) (hb : b < cfg.numRanks)
  (hx : s.resources a = some x) (hpc : s.host a = .waiting)
  (hsignalled : s.signalled a b + 1 = s.calls a) (hsame : s.calls b = s.calls a)
include h ha hb hx hpc hsignalled hsame

/-- The rank that a signal goes to still has the resources of the call. -/
theorem signal_receiver : ∃ y, s.resources b = some y ∧ y.request = x.request ∧
    x.rpKernelEvents b = ⟨b, y.request, a⟩ := by
  have hold := h.resources a ha x hx
  have hout : s.host b ≠ .outside := by
    intro hout
    have hsettled := ((h.counts a ha b hb).settled hout).1
    omega
  obtain ⟨y, hy⟩ := (h.rank b hb).present hout
  have hrequest : y.request = x.request := by
    rw [(h.resources b hb y hy).request, hold.request, hsame]
  refine ⟨y, hy, hrequest, ?_⟩
  rw [hrequest]
  exact (hold.exchanged (by rw [hpc]; exact HostPc.noConfusion) b hb).event

/-- What the signal leaves of the resources. -/
theorem signal_resources (r : Nat) :
    (takeEffect a b (rdmaSignalSet b x)
      (s.setResources a (some { x with rdmas := Function.update x.rdmas b [] }))).resources r =
    (s.resources r).map fun z => { z with
      rdmas := if r = a then Function.update z.rdmas b [] else z.rdmas
      kernelEvents := if r = b then Function.update z.kernelEvents a x.a2aSeqNum
        else z.kernelEvents } := by
  obtain ⟨y, hy, hrequest, hevent⟩ := signal_receiver h ha hb hx hpc hsignalled hsame
  rw [rdmaSignalSet, hevent]
  by_cases hab : b = a
  · subst hab
    obtain rfl := Option.some.inj (hx.symm.trans hy)
    simp only [takeEffect, setEvent, World.setResources, Function.update_self, ↓reduceIte]
    by_cases hr : r = b
    · subst hr
      simp only [Function.update_self, hx, Option.map_some, ↓reduceIte]
    · simp only [Function.update_of_ne hr, if_neg hr, Option.map_id']
  · simp only [takeEffect, setEvent, World.setResources, Function.update_of_ne hab, hy, ↓reduceIte]
    by_cases hrb : r = b
    · subst hrb
      simp only [Function.update_self, hy, Option.map_some, if_neg hab, ↓reduceIte]
    · rw [Function.update_of_ne hrb]
      by_cases hra : r = a
      · subst hra
        simp only [Function.update_self, hx, Option.map_some, if_neg hrb, ↓reduceIte]
      · simp only [Function.update_of_ne hra, if_neg hra, if_neg hrb, Option.map_id']

/-- The signal of a rank arrives at another one. -/
theorem signal_delivered (hwritten : s.written a b = s.calls a)
    (hwrote : progress cfg s .wrote a b = s.calls a)
    (hposted : progress cfg s .signalled a b = s.calls a) :
    Invariant cfg (takeEffect a b (rdmaSignalSet b x)
      (s.setResources a (some { x with rdmas := Function.update x.rdmas b [] }))) := by
  have hres := signal_resources h ha hb hx hpc hsignalled hsame
  obtain ⟨s', hs'⟩ : ∃ s', s' = takeEffect a b (rdmaSignalSet b x)
      (s.setResources a (some { x with rdmas := Function.update x.rdmas b [] })) := ⟨_, rfl⟩
  rw [← hs'] at hres ⊢
  have hseq := (h.resources a ha x hx).seq
  rw [if_neg (by simp [hpc])] at hseq
  have hkept : s'.host = s.host ∧ s'.calls = s.calls ∧ s'.thread = s.thread ∧
      s'.passed = s.passed ∧ s'.mem = s.mem ∧ s'.written = s.written ∧
      s'.signalled = put s.signalled a b (s.calls a) := by
    rw [hs', ← hsignalled]
    simp only [takeEffect, rdmaSignalSet, setEvent]
    split
    · split <;> exact ⟨rfl, rfl, rfl, rfl, rfl, rfl, rfl⟩
    · exact ⟨rfl, rfl, rfl, rfl, rfl, rfl, rfl⟩
  obtain ⟨hhost, hcalls, hthread, hpassed, hmem, hcount, hset⟩ := hkept
  have hother : ∀ c d, (c ≠ a ∨ d ≠ b) → s'.signalled c d = s.signalled c d := by
    intro c d hne
    rw [hset]
    exact put_of_ne hne
  have hhere : s'.signalled a b = s.calls a := by
    rw [hset]
    exact put_same
  have hsome : ∀ r y', s'.resources r = some y' → ∃ z, s.resources r = some z ∧
      y' = { z with
        rdmas := if r = a then Function.update z.rdmas b [] else z.rdmas
        kernelEvents := if r = b then Function.update z.kernelEvents a x.a2aSeqNum
          else z.kernelEvents } := by
    intro r y' hy'
    rw [hres, Option.map_eq_some_iff] at hy'
    obtain ⟨z, hz, heq⟩ := hy'
    exact ⟨z, hz, heq.symm⟩
  have he : Effect s s' := by
    refine ⟨hhost, hcalls, hthread, hpassed, fun r hr => ?_, fun r y' hy' => ?_⟩
    · rwa [hres, Option.map_eq_none_iff] at hr
    · obtain ⟨z, hz, heq⟩ := hsome r y' hy'
      exact ⟨z, hz, by rw [heq]⟩
  refine effect_invariant h he (fun r _ y _ _ => by rw [hmem]) (fun c hc d hd => ?_)
    (fun c hc y' hy' d hd => ?_) (fun d hd y' hy' c hc => ?_) fun c hc d hd hdone hcalled o ho => ?_
  · have hcd := h.counts c hc d hd
    by_cases hne : c ≠ a ∨ d ≠ b
    · refine ⟨?_, ?_, ?_, ?_, ?_, ?_⟩
      · rw [hcount, hother c d hne]
        exact hcd.signalledLe
      · rw [he.progress, hcount]
        exact hcd.writtenLe
      · rw [he.progress, hother c d hne]
        exact hcd.postedLe
      · rw [he.progress, hother c d hne]
        exact hcd.syncedLe
      · rw [he.progress, hother c d hne]
        exact hcd.sawLe
      · rw [hcalls, hcount]
        exact hcd.within
    · obtain ⟨rfl, rfl⟩ : c = a ∧ d = b := by omega
      refine ⟨?_, ?_, ?_, ?_, ?_, ?_⟩
      · rw [hcount, hhere, hwritten]
      · rw [he.progress, hcount]
        exact hcd.writtenLe
      · rw [he.progress, hhere, hposted]
      · rw [he.progress, hhere]
        exact progress_le
      · rw [he.progress, hhere, ← hsame]
        exact progress_le
      · rw [hcalls, hcount]
        exact hcd.within
  · obtain ⟨z, hz, rfl⟩ := hsome c y' hy'
    by_cases hca : c = a
    · subst hca
      obtain rfl := Option.some.inj (hx.symm.trans hz)
      by_cases hdb : d = b
      · subst hdb
        simp only [↓reduceIte, Function.update_self, pending, he.progress, hwrote, hposted, hcount,
          hwritten, hhere, Nat.lt_irrefl, List.nil_append]
      · simp only [↓reduceIte, Function.update_of_ne hdb, h.queue c hc x hx d hd, pending,
          he.progress, hcount, hother c d (.inr hdb), hcalls]
        rfl
    · simp only [if_neg hca, h.queue c hc z hz d hd, pending, he.progress, hcount,
        hother c d (.inl hca), hcalls]
      rfl
  · obtain ⟨z, hz, rfl⟩ := hsome d y' hy'
    by_cases hdb : d = b
    · subst hdb
      by_cases hca : c = a
      · subst hca
        obtain ⟨y, hy, hrequest, -⟩ := signal_receiver h hc hd hx hpc hsignalled hsame
        obtain rfl := Option.some.inj (hy.symm.trans hz)
        simp only [↓reduceIte, Function.update_self, hrequest, hhere, hseq]
      · simp only [↓reduceIte, Function.update_of_ne hca, hother c d (.inl hca)]
        exact h.events d hd z hz c hc
    · simp only [if_neg hdb, hother c d (.inr hdb)]
      exact h.events d hd z hz c hc
  · rw [hcalls] at hdone hcalled ho
    rw [hcount] at hdone
    rw [hcalls, hpassed, hmem]
    exact h.data c hc d hd hdone hcalled o ho

end signal

/-- What took effect lies within the two buffers it names. -/
def Inside : RdmaOp → Prop
  | .write dst dstOfs src srcOfs length => dstOfs + length ≤ dst.size ∧ srcOfs + length ≤ src.size
  | .signalSet .. => False

/-- The invariant with what is noted down about the writes. -/
structure Sound (cfg : Setup) (s : World) : Prop where
  invariant : Invariant cfg s
  inside : ∀ op ∈ s.writes, Inside op

/-- The pace of calls on one request: they pass the same buffers, and no write takes effect at a
rank that did not enter the call of the write. A blocking call makes a new request each time. -/
def Paced (cfg : Setup) (s : World) (e : Event) : Prop :=
  cfg.blocking = false →
    match e with
    | .call r sendbuf recvbuf =>
      ∀ x ∈ s.resources r, sendbuf = x.sendbuf ∧ recvbuf = x.recvbuf
    | .deliver a b => s.calls a ≤ s.calls b
    | _ => True

instance (cfg : Setup) (s : World) : ∀ e, Decidable (Paced cfg s e)
  | .call .. => inferInstanceAs (Decidable (_ → ∀ _ ∈ _, _ ∧ _))
  | .deliver .. => inferInstanceAs (Decidable (_ → _ ≤ _))
  | .exchange .. | .launch .. | .kernel .. | .complete .. | .wait .. | .barrier .. | .fill .. =>
    inferInstanceAs (Decidable (_ → True))

/-- A block inside of a buffer of all blocks. -/
theorem block_inside {B : Nat} (ha : a < cfg.numRanks) : a * B + B ≤ cfg.numRanks * B := by
  rw [← Nat.succ_mul]
  exact Nat.mul_le_mul_right B ha

/-- A rank entered the call that a write for it belongs to. -/
theorem entered (h : Invariant cfg s) (ha : a < cfg.numRanks) (hb : b < cfg.numRanks)
    (hx : s.resources a = some x) (hpc : s.host a = .waiting)
    (hpaced : Paced cfg s (.deliver a b)) : s.calls a ≤ s.calls b := by
  cases hblocking : cfg.blocking with
  | false => exact hpaced hblocking
  | true =>
    have hold := h.resources a ha x hx
    have hjoined := (hold.exchanged (by rw [hpc]; exact HostPc.noConfusion) b hb).joined
    rw [hold.request, requestOf, if_pos hblocking] at hjoined
    exact hjoined

/-- What is first on a connection takes effect. -/
theorem deliver_sound (hu : Uniform cfg) (h : Sound cfg s) (ha : a < cfg.numRanks)
    (hb : b < cfg.numRanks) (hx : s.resources a = some x) (hpaced : Paced cfg s (.deliver a b)) :
    Sound cfg (deliver a b x s) := by
  unfold deliver
  cases hops : x.rdmas b with
  | nil => exact h
  | cons op ops =>
    have hinv := h.invariant
    have hne : x.rdmas b ≠ [] := by
      rw [hops]
      exact List.cons_ne_nil op ops
    obtain ⟨hpc, hcalls⟩ := inflight hinv ha hb hx hne
    have hsame := inflight_same hinv ha hb hx hne (entered hinv ha hb hx hpc hpaced)
    rcases inflight_head hinv ha hb hx hops with ⟨hw, hwrote, rfl, rfl⟩ | ⟨hw, hwrote, hs, rfl, rfl⟩
    · refine ⟨write_delivered hu hinv ha hb hx hpc hw hsame hwrote, fun op hop => ?_⟩
      obtain ⟨hwrite, hsize⟩ := rdmaWrite_eq hu hinv ha hb hx hpc hsame
      simp only [hwrite] at hop
      rcases List.mem_append.mp hop with hop | hop
      · exact h.inside op hop
      · obtain rfl := List.mem_singleton.mp hop
        simp only [Inside, hsize]
        exact ⟨block_inside ha, block_inside hb⟩
    · refine ⟨signal_delivered hinv ha hb hx hpc hcalls.symm hsame hw hwrote hs, fun op hop => ?_⟩
      refine h.inside op ?_
      simp only [takeEffect, rdmaSignalSet, setEvent] at hop
      split at hop
      · split at hop <;> exact hop
      · exact hop

/-- A step of the ranks that notes no write down. -/
theorem Sound.quiet (h : Sound cfg s) (hinv : Invariant cfg s') (hwrites : s'.writes = s.writes) :
    Sound cfg s' := ⟨hinv, by rw [hwrites]; exact h.inside⟩

theorem atPc_sound {pc : HostPc} {f : Resources → World → World} (h : Sound cfg s)
    (hf : ∀ x, s.resources r = some x → r < cfg.numRanks → s.host r = pc → Sound cfg (f x s)) :
    Sound cfg (atPc cfg r pc f s) := by
  unfold atPc
  cases hx : s.resources r with
  | none => exact h
  | some x =>
    simp only
    split
    · rename_i hin
      exact hf x hx hin.1 hin.2
    · exact h

theorem kernelStep_writes : (kernelStep cfg r t x s).writes = s.writes := by
  unfold kernelStep
  cases s.thread r t with
  | write i =>
    simp only
    split <;> rfl
  | signal i => rfl
  | wait i =>
    simp only
    split
    · split <;> rfl
    · rfl
  | synchronize i =>
    simp only
    split <;> rfl
  | ended => rfl

theorem call_writes {sb rb : Nat} : (call cfg r sb rb s).writes = s.writes := by
  unfold call
  cases s.resources r <;> rfl

/-- Every step keeps the invariant. -/
theorem step_sound (hu : Uniform cfg) (s : World) (e : Event) (h : Sound cfg s)
    (hpaced : Paced cfg s e) : Sound cfg (step cfg s e) := by
  have hinv := h.invariant
  cases e with
  | call r sb rb =>
    simp only [step]
    split
    · rename_i hin
      obtain ⟨hr, hout, hne⟩ := hin
      refine h.quiet (call_invariant hinv hr hout hne fun x hx => ?_) call_writes
      cases hblocking : cfg.blocking with
      | false => exact hpaced hblocking x hx
      | true =>
        rw [(hinv.rank r hr).absent hout hblocking] at hx
        cases hx
    · exact h
  | exchange r =>
    refine atPc_sound h fun x hx hr hpc => ?_
    split
    · exact h.quiet (exchange_invariant hinv hr hpc hx ‹_›) rfl
    · exact h
  | launch r =>
    exact atPc_sound h fun x hx hr hpc => h.quiet (launch_invariant hinv hr hpc hx) rfl
  | kernel r t =>
    refine atPc_sound h fun x hx hr hpc => ?_
    split
    · exact h.quiet (kernel_invariant hinv hr hpc hx ‹_›) kernelStep_writes
    · exact h
  | deliver a b =>
    simp only [step]
    cases hx : s.resources a with
    | none => exact h
    | some x =>
      simp only
      split
      · rename_i hin
        exact deliver_sound hu h hin.1 hin.2 hx hpaced
      · exact h
  | complete r =>
    refine atPc_sound h fun x hx hr hpc => ?_
    split
    · exact h.quiet (complete_invariant hinv hr hx ‹_›) rfl
    · exact h
  | wait r =>
    refine atPc_sound h fun x hx hr hpc => ?_
    split
    · exact h.quiet (wait_invariant hinv hr hpc hx ‹_›) rfl
    · exact h
  | barrier r =>
    refine atPc_sound h fun x hx hr hpc => ?_
    split
    · exact h.quiet (finalize_invariant hinv hr hpc) rfl
    · exact h
  | fill r buffer data =>
    simp only [step]
    split
    · rename_i hin
      obtain ⟨hr, hout, hmay⟩ := hin
      exact h.quiet (fill_invariant hinv hr hout hmay) rfl
    · exact h

/-- The ranks before their first call, on any contents of memory. -/
def start (mem : Nat → Nat → Nat → Byte) : World := { mem }

theorem start_sound (mem : Nat → Nat → Nat → Byte) : Sound cfg (start mem) := by
  refine ⟨⟨fun r _ => ⟨fun h => absurd rfl h, fun h => absurd rfl h, fun _ _ => rfl,
    fun _ => .inr rfl, fun h => ?_, fun h => ?_⟩, fun _ _ x hx => ?_, fun _ _ _ _ => ?_,
    fun _ _ x hx => ?_, fun _ _ y hy => ?_, fun _ _ _ _ _ hcalled => ?_⟩, fun op hop => ?_⟩
  · cases h
  · cases h
  · cases hx
  · exact ⟨Nat.le_refl _, Nat.le_refl _, Nat.le_refl _, Nat.le_refl _, Nat.le_refl _,
      Nat.le_refl _⟩
  · cases hx
  · cases hy
  · exact absurd hcalled (by simp [start])
  · cases hop

/-- What a rank finds when it is back from its last call: every rank entered that call, wrote its
block to this rank once in each call so far, and the receive buffer holds the blocks that the ranks
had for it when they entered the call. -/
structure Received (cfg : Setup) (s : World) (r : Nat) : Prop where
  entered : ∀ j < cfg.numRanks, s.calls r ≤ s.calls j
  once : ∀ j < cfg.numRanks, s.written j r = s.calls r
  blocks : ∀ j < cfg.numRanks, ∀ o < block cfg (s.calls r),
    s.mem r (s.passed (s.calls r) r).recvbuf (j * block cfg (s.calls r) + o) =
      (s.passed (s.calls r) j).data (r * block cfg (s.calls r) + o)

theorem Sound.received (h : Sound cfg s) (hr : r < cfg.numRanks) (hout : s.host r = .outside)
    (hcalled : 1 ≤ s.calls r) : Received cfg s r := by
  have hsettled : ∀ j < cfg.numRanks, s.written j r = s.calls r :=
    fun j hj => ((h.invariant.counts j hj r hr).settled hout).2
  refine ⟨fun j hj => ?_, hsettled, fun j hj o ho => ?_⟩
  · rw [← hsettled j hj]
    exact (h.invariant.counts j hj r hr).written_le_calls
  · exact h.invariant.data j hj r hr (hsettled j hj) hcalled o ho

/-- Two ranks with a thread each, that exchange a byte. -/
def pair (blocking : Bool) : Setup where
  numRanks := 2
  numThreads := 1
  count := fun _ => 1
  extent := fun _ => 1
  blocking := blocking
  threadsPos := Nat.one_pos
  inMemory := fun _ => by decide

/-- A call of both ranks, step by step. -/
def pairCall : List Event :=
  [.call 0 0 1, .call 1 0 1, .exchange 0, .exchange 1, .launch 0, .launch 1,
    .kernel 0 0, .kernel 0 0, .kernel 0 0, .kernel 0 0, .kernel 0 0,
    .kernel 1 0, .kernel 1 0, .kernel 1 0, .kernel 1 0, .kernel 1 0,
    .deliver 0 0, .deliver 0 0, .deliver 0 1, .deliver 0 1,
    .deliver 1 0, .deliver 1 0, .deliver 1 1, .deliver 1 1,
    .kernel 0 0, .kernel 0 0, .kernel 0 0, .kernel 0 0, .kernel 0 0, .kernel 0 0,
    .complete 0, .wait 0,
    .kernel 1 0, .kernel 1 0, .kernel 1 0, .kernel 1 0, .kernel 1 0, .kernel 1 0,
    .complete 1, .wait 1, .barrier 0, .barrier 1]

/-- A blocking call keeps pace by itself. -/
theorem sound_of_blocking (hblocking : cfg.blocking = true) (mem : Nat → Nat → Nat → Byte)
    (events : List Event) : Sound cfg (run (step cfg) (start mem) events) := by
  have hno : ∀ {p : Prop}, cfg.blocking = false → p := by
    intro p hfalse
    rw [hblocking] at hfalse
    cases hfalse
  exact run_preserves (fun s e h => step_sound hno s e h hno) (start_sound mem) events

/-- The blocking call, for every order of the events: what a rank received is complete when it
returns, and stays so until it calls again; and no write leaves the buffers. -/
theorem alltoall_received (cfg : Setup) (hblocking : cfg.blocking = true)
    (mem : Nat → Nat → Nat → Byte) (events : List Event) :
    (∀ op ∈ (run (step cfg) (start mem) events).writes, Inside op) ∧
    ∀ r < cfg.numRanks, (run (step cfg) (start mem) events).host r = .outside →
      1 ≤ (run (step cfg) (start mem) events).calls r →
      Received cfg (run (step cfg) (start mem) events) r := by
  have hsound := sound_of_blocking hblocking mem events
  exact ⟨hsound.inside, fun r hr hout hcalled => hsound.received hr hout hcalled⟩

theorem alltoall_received_pair :
    Received (pair true) (run (step (pair true)) (start fun r _ _ => BitVec.ofNat 8 r) pairCall)
      0 :=
  (alltoall_received (pair true) rfl _ pairCall).2 0 (by decide) (by decide) (by decide)

/-- The calls on one request that keep pace: between its rounds a rank has what all ranks had for it
in the last one. -/
theorem ialltoall_received (cfg : Setup) (hu : Uniform cfg) (mem : Nat → Nat → Nat → Byte)
    (events : List Event) (hpaced : Along (step cfg) (Paced cfg) (start mem) events) :
    (∀ op ∈ (run (step cfg) (start mem) events).writes, Inside op) ∧
    ∀ r < cfg.numRanks, (run (step cfg) (start mem) events).host r = .outside →
      1 ≤ (run (step cfg) (start mem) events).calls r →
      Received cfg (run (step cfg) (start mem) events) r := by
  have hsound := run_invariant (step_sound hu) (start_sound mem) hpaced
  exact ⟨hsound.inside, fun r hr hout hcalled => hsound.received hr hout hcalled⟩

theorem ialltoall_received_pair :
    Received (pair false) (run (step (pair false)) (start fun r _ _ => BitVec.ofNat 8 r)
      (pairCall ++ pairCall)) 1 :=
  (ialltoall_received (pair false) (fun _ _ _ => ⟨rfl, rfl⟩) _ (pairCall ++ pairCall)
    (by decide)).2 1 (by decide) (by decide) (by decide)

/-- A rank that left the barrier of a call did so after all ranks had waited for that call. -/
def Left (cfg : Setup) (s : World) : Prop :=
  cfg.blocking = true → ∀ j < cfg.numRanks, s.host j = .outside → 1 ≤ s.calls j →
    allWaited cfg s (s.calls j)

/-- A step of a rank that does not enter or leave a call, or leaves it when all have waited. -/
theorem Left.mono (h : Left cfg s) (hcalls : s'.calls = s.calls)
    (hother : ∀ j, j ≠ r → s'.host j = s.host j)
    (hstay : s.host r ∈ [HostPc.barrier, .outside] → s'.host r ∈ [HostPc.barrier, .outside])
    (hleave : s'.host r = .outside → s.host r ≠ .outside → cfg.blocking = true →
      allWaited cfg s (s.calls r)) : Left cfg s' := by
  intro hblocking j hj hout hcalled k hk
  have hwaited : allWaited cfg s (s.calls j) := by
    rw [hcalls] at hcalled
    by_cases hjr : j = r
    · subst hjr
      by_cases hold : s.host j = .outside
      · exact h hblocking j hj hold hcalled
      · exact hleave hout hold hblocking
    · rw [hother j hjr] at hout
      exact h hblocking j hj hout hcalled
  rw [hcalls]
  rcases hwaited k hk with hlt | ⟨heq, hin⟩
  · exact .inl hlt
  · refine .inr ⟨heq, ?_⟩
    by_cases hkr : k = r
    · rw [hkr] at hin ⊢
      exact hstay hin
    · rwa [hother k hkr]

theorem call_left {sb rb : Nat} (h : Left cfg s) (hout : s.host r = .outside) :
    Left cfg (call cfg r sb rb s) := by
  have hhost : (call cfg r sb rb s).host r ≠ .outside := by
    unfold call
    cases s.resources r <;> simp [World.setHost]
  have hother : ∀ j, j ≠ r → (call cfg r sb rb s).host j = s.host j := by
    intro j hj
    unfold call
    cases s.resources r <;> exact Function.update_of_ne hj ..
  have hcalls : (call cfg r sb rb s).calls = Function.update s.calls r (s.calls r + 1) := by
    unfold call
    cases s.resources r <;> rfl
  intro hblocking j hj hout' hcalled k hk
  have hjr : j ≠ r := by
    intro hjr
    rw [hjr] at hout'
    exact hhost hout'
  rw [hother j hjr] at hout'
  rw [hcalls, Function.update_of_ne hjr] at hcalled ⊢
  have hwaited := h hblocking j hj hout' hcalled k hk
  by_cases hkr : k = r
  · subst hkr
    rw [Function.update_self]
    left
    omega
  · rw [Function.update_of_ne hkr, hother k hkr]
    exact hwaited

theorem takeEffect_place : (takeEffect a b op s).host = s.host ∧
    (takeEffect a b op s).calls = s.calls := by
  cases op with
  | write => exact ⟨rfl, rfl⟩
  | signalSet event value =>
    simp only [takeEffect, setEvent]
    split
    · split <;> exact ⟨rfl, rfl⟩
    · exact ⟨rfl, rfl⟩

theorem kernelStep_place : (kernelStep cfg r t x s).host = s.host ∧
    (kernelStep cfg r t x s).calls = s.calls := by
  unfold kernelStep
  cases s.thread r t with
  | write i =>
    simp only
    split <;> exact ⟨rfl, rfl⟩
  | signal i => exact ⟨rfl, rfl⟩
  | wait i =>
    simp only
    split
    · split <;> exact ⟨rfl, rfl⟩
    · exact ⟨rfl, rfl⟩
  | synchronize i =>
    simp only
    split <;> exact ⟨rfl, rfl⟩
  | ended => exact ⟨rfl, rfl⟩

theorem Left.stay (h : Left cfg s) (hplace : s'.host = s.host ∧ s'.calls = s.calls) :
    Left cfg s' := by
  refine h.mono (r := 0) hplace.2 (fun j _ => congrFun hplace.1 j) (fun hin => ?_)
    fun hout hne => ?_
  · rwa [hplace.1]
  · rw [hplace.1] at hout
    exact absurd hout hne

/-- The steps inside of a call go from one point to the next. -/
theorem Left.set (h : Left cfg s) {pc pc' : HostPc} (hpc : s.host r = pc)
    (hcalls : s'.calls = s.calls) (hhost : s'.host = Function.update s.host r pc')
    (hin : pc ≠ .barrier ∧ pc ≠ .outside) (hnext : pc' = .outside → cfg.blocking = false) :
    Left cfg s' := by
  refine h.mono (r := r) hcalls (fun j hj => ?_) (fun hmem => ?_) fun hout _ hblocking => ?_
  · rw [hhost, Function.update_of_ne hj]
  · simp only [List.mem_cons, List.not_mem_nil, or_false, hpc] at hmem
    exact absurd hmem (by simp [hin])
  · rw [hhost, Function.update_self] at hout
    rw [hnext hout] at hblocking
    cases hblocking

theorem atPc_left {pc : HostPc} {f : Resources → World → World} (h : Left cfg s)
    (hf : ∀ x, s.host r = pc → Left cfg (f x s)) : Left cfg (atPc cfg r pc f s) := by
  unfold atPc
  cases s.resources r with
  | none => exact h
  | some x =>
    simp only
    split
    · rename_i hin
      exact hf x hin.2
    · exact h

theorem step_left (s : World) (e : Event) (h : Left cfg s) : Left cfg (step cfg s e) := by
  cases e with
  | call r sb rb =>
    simp only [step]
    split
    · rename_i hin
      exact call_left h hin.2.1
    · exact h
  | exchange r =>
    refine atPc_left h fun x hpc => ?_
    split
    · exact h.set hpc rfl rfl ⟨HostPc.noConfusion, HostPc.noConfusion⟩ HostPc.noConfusion
    · exact h
  | launch r =>
    exact atPc_left h fun x hpc =>
      h.set hpc rfl rfl ⟨HostPc.noConfusion, HostPc.noConfusion⟩ HostPc.noConfusion
  | kernel r t =>
    refine atPc_left h fun x hpc => ?_
    split
    · exact h.stay kernelStep_place
    · exact h
  | deliver a b =>
    simp only [step]
    cases s.resources a with
    | none => exact h
    | some x =>
      simp only
      split
      · unfold deliver
        cases x.rdmas b with
        | nil => exact h
        | cons op ops => exact h.stay takeEffect_place
      · exact h
  | complete r =>
    refine atPc_left h fun x hpc => ?_
    split
    · exact h.stay ⟨rfl, rfl⟩
    · exact h
  | wait r =>
    refine atPc_left h fun x hpc => ?_
    split
    · refine h.set hpc rfl rfl ⟨HostPc.noConfusion, HostPc.noConfusion⟩ fun hout => ?_
      cases hblocking : cfg.blocking with
      | false => rfl
      | true =>
        rw [hblocking] at hout
        cases hout
    · exact h
  | barrier r =>
    refine atPc_left h fun x hpc => ?_
    split
    · rename_i hwaited
      refine h.mono (r := r) rfl (fun j hj => Function.update_of_ne hj ..) (fun _ => ?_)
        fun _ _ _ => hwaited
      simp [finalize, World.setHost]
    · exact h
  | fill r buffer data =>
    simp only [step]
    split
    · exact h.stay ⟨rfl, rfl⟩
    · exact h

/-- What happens inside of the calls: a rank goes on, or something takes effect. -/
def Internal : Event → Prop
  | .call .. | .fill .. => False
  | _ => True

/-- Some step inside of the calls is possible. -/
def Moves (cfg : Setup) (s : World) : Prop := ∃ e, Internal e ∧ step cfg s e ≠ s

theorem atPc_eq {pc : HostPc} {f : Resources → World → World} (hr : r < cfg.numRanks)
    (hx : s.resources r = some x) (hpc : s.host r = pc) : atPc cfg r pc f s = f x s := by
  simp only [atPc, hx]
  rw [if_pos ⟨hr, hpc⟩]

/-- What is on a connection can take effect. -/
theorem moves_deliver (ha : a < cfg.numRanks) (hb : b < cfg.numRanks)
    (hx : s.resources a = some x) (hops : x.rdmas b ≠ []) : Moves cfg s := by
  refine ⟨.deliver a b, trivial, fun heq => ?_⟩
  simp only [step, hx, deliver, if_pos (And.intro ha hb)] at heq
  cases hq : x.rdmas b with
  | nil => exact hops hq
  | cons op ops =>
    rw [hq] at heq
    cases op with
    | write =>
      have hwritten := congrFun (congrFun (congrArg World.written heq) a) b
      simp only [takeEffect, put_same] at hwritten
      exact absurd hwritten (Nat.succ_ne_self _)
    | signalSet event value =>
      have hsignalled := congrFun (congrFun (congrArg World.signalled heq) a) b
      simp only [takeEffect, put_same] at hsignalled
      exact absurd hsignalled (Nat.succ_ne_self _)

/-- A rank that goes on to another point of its call. -/
theorem host_ne (pc : HostPc) (hhost : s'.host r = pc) (hne : s.host r ≠ pc) : s' ≠ s := by
  intro heq
  rw [heq] at hhost
  exact hne hhost

theorem thread_ne (pc : KernelPc) (hthread : s'.thread r t = pc) (hne : s.thread r t ≠ pc) :
    s' ≠ s := by
  intro heq
  rw [heq] at hthread
  exact hne hthread

section stuck
variable {k : Nat} (h : Invariant cfg s) (hr : r < cfg.numRanks)
include h hr

theorem moves_launching (hpc : s.host r = .launching) : Moves cfg s := by
  obtain ⟨x, hx⟩ := (h.rank r hr).present (by rw [hpc]; exact HostPc.noConfusion)
  refine ⟨.launch r, trivial, ?_⟩
  simp only [step, atPc_eq hr hx hpc]
  exact host_ne .waiting (Function.update_self ..) (by rw [hpc]; exact HostPc.noConfusion)

/-- A thread that still has something to post. -/
theorem moves_posting {t : Nat} (hpc : s.host r = .waiting) (ht : t < cfg.numThreads)
    (hposting : (∃ i, s.thread r t = .write i) ∨ ∃ i, s.thread r t = .signal i) : Moves cfg s := by
  obtain ⟨x, hx⟩ := (h.rank r hr).present (by rw [hpc]; exact HostPc.noConfusion)
  refine ⟨.kernel r t, trivial, ?_⟩
  simp only [step, atPc_eq hr hx hpc, if_pos ht]
  rcases hposting with ⟨i, hpos⟩ | ⟨i, hpos⟩
  · simp only [kernelStep, hpos]
    split
    · exact thread_ne (.signal i) put_same (by rw [hpos]; exact KernelPc.noConfusion)
    · exact thread_ne (.wait t) put_same (by rw [hpos]; exact KernelPc.noConfusion)
  · simp only [kernelStep, hpos]
    exact thread_ne (.write (i + cfg.numThreads)) put_same
      (by rw [hpos]; exact KernelPc.noConfusion)

variable (hall : ∀ r < cfg.numRanks, s.calls r = k)
include hall

/-- When all ranks are in the same call, its handles can be exchanged. -/
theorem moves_initializing (hleft : Left cfg s) (hpc : s.host r = .initializing) : Moves cfg s := by
  obtain ⟨x, hx⟩ := (h.rank r hr).present (by rw [hpc]; exact HostPc.noConfusion)
  have hold := h.resources r hr x hx
  have hjoined : allJoined cfg s x.request := by
    intro j hj
    have hresources : ∃ y, s.resources j = some y := by
      by_cases hout : s.host j = .outside
      · cases hy : s.resources j with
        | some y => exact ⟨y, rfl⟩
        | none =>
          have hcalled := hold.called
          rw [hall r hr, ← hall j hj] at hcalled
          rcases (h.rank j hj).kept hy with hblocking | hzero
          · rcases hleft hblocking j hj hout hcalled r hr with hlt | ⟨-, hin⟩
            · rw [hall r hr, hall j hj] at hlt
              exact absurd hlt (Nat.lt_irrefl k)
            · rw [hpc] at hin
              exact absurd hin (by decide)
          · omega
      · exact (h.rank j hj).present hout
    obtain ⟨y, hy⟩ := hresources
    rw [hy, Option.map_some, (h.resources j hj y hy).request, hold.request, hall j hj, hall r hr]
  refine ⟨.exchange r, trivial, ?_⟩
  simp only [step, atPc_eq hr hx hpc, if_pos hjoined]
  exact host_ne .launching (Function.update_self ..) (by rw [hpc]; exact HostPc.noConfusion)

/-- A rank that did not signal to another one yet can go on, or its signal is in flight. -/
theorem moves_signaller {b : Nat} (hb : b < cfg.numRanks) (hleft : Left cfg s)
    (hlt : s.signalled r b < s.calls r) : Moves cfg s := by
  have hcounts := h.counts r hr b hb
  cases hpc : s.host r with
  | initializing => exact moves_initializing h hr hall hleft hpc
  | launching => exact moves_launching h hr hpc
  | waiting =>
    obtain ⟨x, hx⟩ := (h.rank r hr).present (by rw [hpc]; exact HostPc.noConfusion)
    by_cases hposted : s.signalled r b < progress cfg s .signalled r b
    · refine moves_deliver hr hb hx ?_
      rw [h.queue r hr x hx b hb, pending, if_pos hposted]
      simp
    · have hdone : Deed.done .signalled (s.thread r (b % cfg.numThreads)) b = false := by
        by_contra hdone
        rw [Bool.not_eq_false] at hdone
        rw [progress_waiting hpc, if_pos hdone] at hposted
        exact hposted hlt
      refine moves_posting h hr hpc (Nat.mod_lt b cfg.threadsPos) ?_
      cases hpos : s.thread r (b % cfg.numThreads) with
      | write i => exact .inl ⟨i, rfl⟩
      | signal i => exact .inr ⟨i, rfl⟩
      | wait i =>
        rw [hpos] at hdone
        cases hdone
      | synchronize i =>
        rw [hpos] at hdone
        cases hdone
      | ended =>
        rw [hpos] at hdone
        cases hdone
  | barrier =>
    obtain ⟨heq, -⟩ := hcounts.quiet (by rw [hpc]; exact HostPc.noConfusion) .signalled
    simp only [progress, hpc] at heq
    omega
  | outside =>
    obtain ⟨heq, -⟩ := hcounts.quiet (by rw [hpc]; exact HostPc.noConfusion) .signalled
    simp only [progress, hpc] at heq
    omega

/-- A kernel that did not end yet. -/
theorem moves_running {t : Nat} (hleft : Left cfg s) (hpc : s.host r = .waiting)
    (ht : t < cfg.numThreads) (hrunning : s.thread r t ≠ .ended) : Moves cfg s := by
  obtain ⟨x, hx⟩ := (h.rank r hr).present (by rw [hpc]; exact HostPc.noConfusion)
  have hthread := (h.rank r hr).threads hpc t ht
  have hold := h.resources r hr x hx
  have hstep : ∀ pc, kernelStep cfg r t x s = s.setThread r t pc → s.thread r t ≠ pc →
      Moves cfg s := by
    intro pc hgoes hne
    refine ⟨.kernel r t, trivial, ?_⟩
    simp only [step, atPc_eq hr hx hpc, if_pos ht, hgoes]
    exact thread_ne pc put_same hne
  cases hpos : s.thread r t with
  | write i => exact moves_posting h hr hpc ht (.inl ⟨i, hpos⟩)
  | signal i => exact moves_posting h hr hpc ht (.inr ⟨i, hpos⟩)
  | wait i =>
    by_cases hi : i < cfg.numRanks
    · by_cases hgt : x.a2aSeqNum - 1 < x.kernelEvents i
      · refine hstep (.synchronize i) ?_ (by rw [hpos]; exact KernelPc.noConfusion)
        simp only [kernelStep, hpos, if_pos hi, if_pos hgt]
      · -- the signal of rank `i` for this call is still to come
        have hevents := h.events r hr x hx i hi
        have hseq := hold.seq
        have hrequest := hold.request_le
        rw [if_neg (by simp [hpc])] at hseq
        refine moves_signaller h hi hall hr hleft ?_
        rw [hall i hi, ← hall r hr]
        omega
    · refine hstep .ended ?_ (by rw [hpos]; exact KernelPc.noConfusion)
      simp only [kernelStep, hpos, if_neg hi]
  | synchronize i =>
    rw [hpos] at hthread
    by_cases hempty : x.rdmas i = []
    · refine hstep (.wait (i + cfg.numThreads)) ?_ (by rw [hpos]; exact KernelPc.noConfusion)
      simp only [kernelStep, hpos, if_pos hempty]
    · exact moves_deliver hr hthread.2 hx hempty
  | ended => exact absurd hpos hrunning

theorem moves_waiting (hleft : Left cfg s) (hpc : s.host r = .waiting) : Moves cfg s := by
  obtain ⟨x, hx⟩ := (h.rank r hr).present (by rw [hpc]; exact HostPc.noConfusion)
  have hold := h.resources r hr x hx
  by_cases hended : allEnded cfg s r
  · by_cases hdone : completed x
    · refine ⟨.wait r, trivial, ?_⟩
      simp only [step, atPc_eq hr hx hpc, if_pos hdone]
      refine host_ne _ (Function.update_self ..) ?_
      rw [hpc]
      split <;> exact HostPc.noConfusion
    · refine ⟨.complete r, trivial, fun heq => ?_⟩
      simp only [step, atPc_eq hr hx hpc, if_pos hended] at heq
      have hres := congrFun (congrArg World.resources heq) r
      simp only [complete, World.setResources, Function.update_self, hx, Option.some.injEq] at hres
      have hcomp := congrArg Resources.compEvent hres
      have hseq := hold.seq
      have hrequest := hold.request_le
      rw [if_neg (by simp [hpc])] at hseq
      simp only [completed] at hdone hcomp
      omega
  · simp only [allEnded, not_forall] at hended
    obtain ⟨t, ht, hrunning⟩ := hended
    exact moves_running h hr hall hleft hpc ht hrunning

end stuck

/-- No rank that is in a call is stuck when all ranks made the call. -/
theorem moves_all {k : Nat} (h : Invariant cfg s) (hleft : Left cfg s)
    (hall : ∀ r < cfg.numRanks, s.calls r = k) (hr : r < cfg.numRanks)
    (hinside : s.host r ≠ .outside) : Moves cfg s := by
  have hbusy : ∀ j < cfg.numRanks, s.host j ∉ [HostPc.barrier, .outside] → Moves cfg s := by
    intro j hj hnot
    cases hpc : s.host j with
    | initializing => exact moves_initializing h hj hall hleft hpc
    | launching => exact moves_launching h hj hpc
    | waiting => exact moves_waiting h hj hall hleft hpc
    | barrier =>
      rw [hpc] at hnot
      exact absurd (by decide) hnot
    | outside =>
      rw [hpc] at hnot
      exact absurd (by decide) hnot
  by_cases hnot : s.host r ∈ [HostPc.barrier, .outside]
  · have hpc : s.host r = .barrier := by
      simpa [hinside] using hnot
    obtain ⟨x, hx⟩ := (h.rank r hr).present hinside
    by_cases hwaited : allWaited cfg s (s.calls r)
    · refine ⟨.barrier r, trivial, ?_⟩
      simp only [step, atPc_eq hr hx hpc, if_pos hwaited]
      exact host_ne .outside (Function.update_self ..) (by rw [hpc]; exact HostPc.noConfusion)
    · simp only [allWaited, not_forall, not_or, not_and] at hwaited
      obtain ⟨j, hj, -, hnotin⟩ := hwaited
      exact hbusy j hj (hnotin (by rw [hall j hj, hall r hr]))
  · exact hbusy r hr hnot

/-- The blocking call does not deadlock: when all ranks made the same calls and one is not back
from the last, a rank can go on or something can take effect. -/
theorem alltoall_moves (cfg : Setup) (hblocking : cfg.blocking = true)
    (mem : Nat → Nat → Nat → Byte) (events : List Event) (k : Nat)
    (hall : ∀ r < cfg.numRanks, (run (step cfg) (start mem) events).calls r = k)
    (hinside : ∃ r < cfg.numRanks, (run (step cfg) (start mem) events).host r ≠ .outside) :
    Moves cfg (run (step cfg) (start mem) events) := by
  obtain ⟨r, hr, hinside⟩ := hinside
  have hsound := sound_of_blocking hblocking mem events
  have hleft : Left cfg (run (step cfg) (start mem) events) :=
    run_preserves step_left (fun _ _ _ _ hcalled => absurd hcalled (by simp [start])) events
  exact moves_all hsound.invariant hleft hall hr hinside

theorem alltoall_moves_pair : Moves (pair true)
    (run (step (pair true)) (start fun r _ _ => BitVec.ofNat 8 r) (pairCall.take 16)) :=
  alltoall_moves (pair true) rfl _ (pairCall.take 16) 1 (by decide) ⟨0, by decide, by decide⟩

end DocaApps.Proofs.A2aRuns
