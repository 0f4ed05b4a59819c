import DocaApps.DpaAllToAll.Core
import DocaApps.Lib.Runs

namespace DocaApps.Proofs.A2aInvariant
open DocaApps.Lib.Runs Common.Pack DpaAllToAll.Core

/-- What a thread did for a rank: posted the write, posted the signal, saw the rank's signal,
synchronized the connection. -/
inductive Deed where
  | wrote | signalled | saw | synced

/-- Whether a thread that is somewhere in its loops did that for a rank of its own. -/
def Deed.done : Deed → KernelPc → Nat → Bool
  | .wrote, .write i, b => b < i
  | .wrote, .signal i, b => b ≤ i
  | .wrote, _, _ => true
  | .signalled, .write i, b => b < i
  | .signalled, .signal i, b => b < i
  | .signalled, _, _ => true
  | .saw, .wait i, b => b < i
  | .saw, .synchronize i, b => b ≤ i
  | .saw, .ended, _ => true
  | .saw, _, _ => false
  | .synced, .wait i, b => b < i
  | .synced, .synchronize i, b => b < i
  | .synced, .ended, _ => true
  | .synced, _, _ => false

/-- In how many calls a rank did that for another. -/
def progress (cfg : Setup) (s : World) (deed : Deed) (a b : Nat) : Nat :=
  match s.host a with
  | .outside | .barrier => s.calls a
  | .initializing | .launching => s.calls a - 1
  | .waiting =>
    if deed.done (s.thread a (b % cfg.numThreads)) b then s.calls a else s.calls a - 1

variable {cfg : Setup} {s s' : World} {a b r t i : Nat} {deed : Deed}

theorem progress_le : progress cfg s deed a b ≤ s.calls a := by
  unfold progress
  cases s.host a with
  | outside => exact Nat.le_refl _
  | initializing => exact Nat.sub_le ..
  | launching => exact Nat.sub_le ..
  | waiting =>
    simp only
    split <;> omega
  | barrier => exact Nat.le_refl _

theorem calls_le_progress : s.calls a ≤ progress cfg s deed a b + 1 := by
  unfold progress
  cases s.host a with
  | outside => exact Nat.le_succ _
  | initializing => simp only; omega
  | launching => simp only; omega
  | waiting =>
    simp only
    split <;> omega
  | barrier => exact Nat.le_succ _

theorem progress_waiting (h : s.host a = .waiting) : progress cfg s deed a b =
    if deed.done (s.thread a (b % cfg.numThreads)) b then s.calls a else s.calls a - 1 := by
  simp only [progress, h]

/-- A signal is posted after its write. -/
theorem signalled_le_wrote :
    progress cfg s .signalled a b ≤ progress cfg s .wrote a b := by
  cases h : s.host a with
  | waiting =>
    rw [progress_waiting h, progress_waiting h]
    cases s.thread a (b % cfg.numThreads) with
    | write i => exact Nat.le_refl _
    | signal i =>
      simp only [Deed.done, decide_eq_true_eq]
      split <;> split <;> omega
    | _ => exact Nat.le_refl _
  | _ => simp only [progress, h, Nat.le_refl]

/-- Outside of the kernel all is done as often. -/
theorem progress_eq (h : s.host a ≠ .waiting) (deed' : Deed) :
    progress cfg s deed a b = progress cfg s deed' a b := by
  cases hpc : s.host a with
  | waiting => exact absurd hpc h
  | _ => simp only [progress, hpc]

theorem progress_congr (hhost : s'.host a = s.host a) (hcalls : s'.calls a = s.calls a)
    (hthread : s'.thread a = s.thread a) : progress cfg s' deed a b = progress cfg s deed a b := by
  simp only [progress, hhost, hcalls, hthread]

/-- The call whose resources a rank uses in call `k`. -/
def requestOf (cfg : Setup) (k : Nat) : Nat := if cfg.blocking then k else 1

/-- The bytes of a block of call `k`. -/
def block (cfg : Setup) (k : Nat) : Nat := cfg.count k * cfg.extent k

/-- Where a thread is, its index is one of its own, and one of a rank when it has posted. -/
def ThreadOk (cfg : Setup) (t : Nat) : KernelPc → Prop
  | .write i | .wait i => i % cfg.numThreads = t
  | .signal i | .synchronize i => i % cfg.numThreads = t ∧ i < cfg.numRanks
  | .ended => True

structure RankOk (cfg : Setup) (s : World) (r : Nat) : Prop where
  called : s.host r ≠ .outside → 1 ≤ s.calls r
  present : s.host r ≠ .outside → ∃ x, s.resources r = some x
  absent : s.host r = .outside → cfg.blocking = true → s.resources r = none
  kept : s.resources r = none → cfg.blocking = true ∨ s.calls r = 0
  barrier : s.host r = .barrier → cfg.blocking = true
  threads : s.host r = .waiting → ∀ t < cfg.numThreads, ThreadOk cfg t (s.thread r t)

/-- What the exchange of the handles gave a rank. -/
structure Exchanged (cfg : Setup) (s : World) (r : Nat) (x : Resources) (b : Nat) : Prop where
  joined : x.request ≤ s.calls b
  recvbuf : x.recvbufs b = ⟨b, (s.passed x.request b).recvbuf, bufSize cfg x⟩
  event : x.rpKernelEvents b = ⟨b, x.request, r⟩

structure ResourcesOk (cfg : Setup) (s : World) (r : Nat) (x : Resources) : Prop where
  called : 1 ≤ s.calls r
  request : x.request = requestOf cfg (s.calls r)
  seq : x.a2aSeqNum + x.request =
    if s.host r = .initializing ∨ s.host r = .launching then s.calls r else s.calls r + 1
  sendbuf : x.sendbuf = (s.passed (s.calls r) r).sendbuf
  recvbuf : x.recvbuf = (s.passed (s.calls r) r).recvbuf
  first : x.recvbuf = (s.passed x.request r).recvbuf
  apart : x.sendbuf ≠ x.recvbuf
  count : x.mesgCount = cfg.count x.request
  extent : x.extent = cfg.extent x.request
  sending : s.host r ≠ .outside → s.mem r x.sendbuf = (s.passed (s.calls r) r).data
  compLe : x.compEvent ≤ x.a2aSeqNum
  ended : s.host r = .waiting → completed x → allEnded cfg s r
  exchanged : s.host r ≠ .initializing → ∀ b < cfg.numRanks, Exchanged cfg s r x b

/-- How the calls of two ranks, and what took effect from the first at the second, relate. -/
structure Counts (cfg : Setup) (s : World) (a b : Nat) : Prop where
  signalledLe : s.signalled a b ≤ s.written a b
  writtenLe : s.written a b ≤ progress cfg s .wrote a b
  postedLe : s.signalled a b ≤ progress cfg s .signalled a b
  syncedLe : progress cfg s .synced a b ≤ s.signalled a b
  sawLe : progress cfg s .saw b a ≤ s.signalled a b
  within : s.written a b ≤ s.calls b

/-- What is posted on a connection and did not take effect. -/
def pending (cfg : Setup) (s : World) (a b : Nat) (x : Resources) : List RdmaOp :=
  (if s.written a b < progress cfg s .wrote a b then
    [rdmaWrite cfg (cfg.count (s.calls a)) a b x] else []) ++
  if s.signalled a b < progress cfg s .signalled a b then [rdmaSignalSet b x] else []

/-- When its write of the call took effect, a rank's block is in the receive buffer. -/
def Delivered (cfg : Setup) (s : World) (a b : Nat) : Prop :=
  s.written a b = s.calls b → 1 ≤ s.calls b → ∀ o < block cfg (s.calls b),
    s.mem b (s.passed (s.calls b) b).recvbuf (a * block cfg (s.calls b) + o) =
      (s.passed (s.calls b) a).data (b * block cfg (s.calls b) + o)

structure Invariant (cfg : Setup) (s : World) : Prop where
  rank : ∀ r < cfg.numRanks, RankOk cfg s r
  resources : ∀ r < cfg.numRanks, ∀ x, s.resources r = some x → ResourcesOk cfg s r x
  counts : ∀ a < cfg.numRanks, ∀ b < cfg.numRanks, Counts cfg s a b
  queue : ∀ a < cfg.numRanks, ∀ x, s.resources a = some x → ∀ b < cfg.numRanks,
    x.rdmas b = pending cfg s a b x
  events : ∀ b < cfg.numRanks, ∀ y, s.resources b = some y → ∀ a < cfg.numRanks,
    y.kernelEvents a + y.request = s.signalled a b + 1
  data : ∀ a < cfg.numRanks, ∀ b < cfg.numRanks, Delivered cfg s a b

/-- What a step of one rank leaves alone. -/
structure Local (s s' : World) (r : Nat) : Prop where
  host : ∀ a, a ≠ r → s'.host a = s.host a
  calls : ∀ a, a ≠ r → s'.calls a = s.calls a
  resources : ∀ a, a ≠ r → s'.resources a = s.resources a
  thread : ∀ a, a ≠ r → s'.thread a = s.thread a
  mem : ∀ a, a ≠ r → s'.mem a = s.mem a
  grown : s.calls r ≤ s'.calls r
  passed : ∀ k a, k ≤ s.calls a → s'.passed k a = s.passed k a
  written : s'.written = s.written
  signalled : s'.signalled = s.signalled

theorem Local.calls_le (hl : Local s s' r) (a : Nat) : s.calls a ≤ s'.calls a := by
  by_cases ha : a = r
  · rw [ha]
    exact hl.grown
  · rw [hl.calls a ha]

theorem Local.progress (hl : Local s s' r) (ha : a ≠ r) :
    progress cfg s' deed a b = progress cfg s deed a b :=
  progress_congr (hl.host a ha) (hl.calls a ha) (hl.thread a ha)

theorem requestOf_le {k : Nat} (h : 1 ≤ k) : requestOf cfg k ≤ k := by
  unfold requestOf
  split <;> omega

theorem one_le_requestOf {k : Nat} (h : 1 ≤ k) : 1 ≤ requestOf cfg k := by
  unfold requestOf
  split <;> omega

theorem ResourcesOk.request_le {x : Resources} (h : ResourcesOk cfg s r x) :
    x.request ≤ s.calls r := by
  rw [h.request]
  exact requestOf_le h.called

theorem ResourcesOk.local {x : Resources} (h : ResourcesOk cfg s a x) (hl : Local s s' r)
    (ha : a ≠ r) : ResourcesOk cfg s' a x := by
  have hhost := hl.host a ha
  have hcalls := hl.calls a ha
  have hpassed := hl.passed (s.calls a) a (Nat.le_refl _)
  have hfirst := hl.passed x.request a h.request_le
  refine ⟨?_, ?_, ?_, ?_, ?_, ?_, h.apart, h.count, h.extent, ?_, h.compLe, ?_, ?_⟩
  · rw [hcalls]
    exact h.called
  · rw [hcalls]
    exact h.request
  · rw [hcalls, hhost]
    exact h.seq
  · rw [hcalls, hpassed]
    exact h.sendbuf
  · rw [hcalls, hpassed]
    exact h.recvbuf
  · rw [hfirst]
    exact h.first
  · rw [hcalls, hpassed, hhost, hl.mem a ha]
    exact h.sending
  · unfold allEnded
    rw [hhost, hl.thread a ha]
    exact h.ended
  · rw [hhost]
    intro hpc b hb
    obtain ⟨hjoined, hrecvbuf, hevent⟩ := h.exchanged hpc b hb
    refine ⟨hjoined.trans (hl.calls_le b), ?_, hevent⟩
    rw [hl.passed x.request b hjoined]
    exact hrecvbuf

theorem RankOk.local (h : RankOk cfg s a) (hl : Local s s' r) (ha : a ≠ r) : RankOk cfg s' a := by
  have hhost := hl.host a ha
  have hcalls := hl.calls a ha
  have hres := hl.resources a ha
  refine ⟨?_, ?_, ?_, ?_, ?_, ?_⟩
  · rw [hhost, hcalls]
    exact h.called
  · rw [hhost, hres]
    exact h.present
  · rw [hhost, hres]
    exact h.absent
  · rw [hres, hcalls]
    exact h.kept
  · rw [hhost]
    exact h.barrier
  · rw [hhost, hl.thread a ha]
    exact h.threads

theorem Counts.keep (h : Counts cfg s a b) (hwritten : s'.written = s.written)
    (hsignalled : s'.signalled = s.signalled) (hcalls : s.calls b ≤ s'.calls b)
    (hsends : ∀ deed, progress cfg s' deed a b = progress cfg s deed a b)
    (hreceives : ∀ deed, progress cfg s' deed b a = progress cfg s deed b a) :
    Counts cfg s' a b := by
  refine ⟨?_, ?_, ?_, ?_, ?_, ?_⟩
  · rw [hsignalled, hwritten]
    exact h.signalledLe
  · rw [hwritten, hsends]
    exact h.writtenLe
  · rw [hsignalled, hsends]
    exact h.postedLe
  · rw [hsends, hsignalled]
    exact h.syncedLe
  · rw [hreceives, hsignalled]
    exact h.sawLe
  · rw [hwritten]
    exact h.within.trans hcalls

theorem pending_congr {x : Resources} (hwritten : s'.written a b = s.written a b)
    (hsignalled : s'.signalled a b = s.signalled a b) (hcalls : s'.calls a = s.calls a)
    (hsends : ∀ deed, progress cfg s' deed a b = progress cfg s deed a b) :
    pending cfg s' a b x = pending cfg s a b x := by
  simp only [pending, hwritten, hsignalled, hcalls, hsends]

/-- The block that was delivered was sent in a call that its sender entered. -/
theorem Counts.written_le_calls (h : Counts cfg s a b) : s.written a b ≤ s.calls a :=
  h.writtenLe.trans progress_le

theorem Delivered.local (h : Delivered cfg s a b) (hcounts : Counts cfg s a b)
    (hl : Local s s' r) (hb : b ≠ r) : Delivered cfg s' a b := by
  intro hwritten hcalled o ho
  rw [hl.calls b hb] at hwritten hcalled ho ⊢
  rw [hl.written] at hwritten
  have hsent : s.calls b ≤ s.calls a := hwritten ▸ hcounts.written_le_calls
  rw [hl.mem b hb, hl.passed (s.calls b) b (Nat.le_refl _), hl.passed (s.calls b) a hsent]
  exact h hwritten hcalled o ho

/-- A step of one rank keeps the invariant when it keeps the parts about this rank. -/
theorem Invariant.local (h : Invariant cfg s) (hl : Local s s' r)
    (hrank : RankOk cfg s' r) (hres : ∀ x, s'.resources r = some x → ResourcesOk cfg s' r x)
    (hsends : ∀ b < cfg.numRanks, Counts cfg s' r b)
    (hreceives : ∀ a < cfg.numRanks, Counts cfg s' a r)
    (hqueue : ∀ x, s'.resources r = some x → ∀ b < cfg.numRanks,
      x.rdmas b = pending cfg s' r b x)
    (hevents : ∀ y, s'.resources r = some y → ∀ a < cfg.numRanks,
      y.kernelEvents a + y.request = s.signalled a r + 1)
    (hdata : ∀ a < cfg.numRanks, Delivered cfg s' a r) : Invariant cfg s' := by
  refine ⟨fun a ha => ?_, fun a ha x hx => ?_, fun a ha b hb => ?_, fun a ha x hx b hb => ?_,
    fun b hb y hy a ha => ?_, fun a ha b hb => ?_⟩
  · by_cases har : a = r
    · rw [har]
      exact hrank
    · exact (h.rank a ha).local hl har
  · by_cases har : a = r
    · rw [har] at hx ⊢
      exact hres x hx
    · rw [hl.resources a har] at hx
      exact (h.resources a ha x hx).local hl har
  · by_cases har : a = r
    · rw [har]
      exact hsends b hb
    · by_cases hbr : b = r
      · rw [hbr]
        exact hreceives a ha
      · exact (h.counts a ha b hb).keep hl.written hl.signalled (hl.calls_le b)
          (fun _ => hl.progress har) fun _ => hl.progress hbr
  · by_cases har : a = r
    · rw [har] at hx ⊢
      exact hqueue x hx b hb
    · rw [hl.resources a har] at hx
      rw [h.queue a ha x hx b hb]
      exact (pending_congr (by rw [hl.written]) (by rw [hl.signalled]) (hl.calls a har)
        fun _ => hl.progress har).symm
  · rw [hl.signalled]
    by_cases hbr : b = r
    · rw [hbr] at hy ⊢
      exact hevents y hy a ha
    · rw [hl.resources b hbr] at hy
      exact h.events b hb y hy a ha
  · by_cases hbr : b = r
    · rw [hbr]
      exact hdata a ha
    · exact (h.data a ha b hb).local (h.counts a ha b hb) hl hbr

/-- The same when the rank does not go on in its kernel. -/
theorem Invariant.localKeep (h : Invariant cfg s) (hr : r < cfg.numRanks) (hl : Local s s' r)
    (hrank : RankOk cfg s' r) (hres : ∀ x, s'.resources r = some x → ResourcesOk cfg s' r x)
    (hprogress : ∀ deed, ∀ b < cfg.numRanks,
      progress cfg s' deed r b = progress cfg s deed r b)
    (hqueue : ∀ x, s'.resources r = some x → ∀ b < cfg.numRanks,
      x.rdmas b = pending cfg s' r b x)
    (hevents : ∀ y, s'.resources r = some y → ∀ a < cfg.numRanks,
      y.kernelEvents a + y.request = s.signalled a r + 1)
    (hdata : ∀ a < cfg.numRanks, Delivered cfg s' a r) : Invariant cfg s' := by
  have hboth : ∀ a < cfg.numRanks, ∀ b < cfg.numRanks, ∀ deed,
      progress cfg s' deed a b = progress cfg s deed a b := by
    intro a ha b hb deed
    by_cases har : a = r
    · rw [har]
      exact hprogress deed b hb
    · exact hl.progress har
  refine h.local hl hrank hres (fun b hb => ?_) (fun a ha => ?_) hqueue hevents hdata
  · exact (h.counts r hr b hb).keep hl.written hl.signalled (hl.calls_le b) (hboth r hr b hb)
      (hboth b hb r hr)
  · exact (h.counts a ha r hr).keep hl.written hl.signalled (hl.calls_le r) (hboth a ha r hr)
      (hboth r hr a ha)

/-- Outside of the kernel nothing is in flight from a rank. -/
theorem Counts.quiet (h : Counts cfg s a b) (hpc : s.host a ≠ .waiting) (deed : Deed) :
    s.signalled a b = progress cfg s deed a b ∧ s.written a b = progress cfg s deed a b := by
  have hsynced := h.syncedLe
  have hwritten := h.writtenLe
  have hle := h.signalledLe
  rw [progress_eq hpc deed] at hsynced hwritten
  omega

theorem Counts.pending_nil (h : Counts cfg s a b) (hpc : s.host a ≠ .waiting) (x : Resources) :
    pending cfg s a b x = [] := by
  obtain ⟨hsignalled, -⟩ := h.quiet hpc .signalled
  obtain ⟨-, hwritten⟩ := h.quiet hpc .wrote
  simp [pending, hsignalled, hwritten]

theorem pending_nil {x : Resources} (h : Counts cfg s a b) (hpc : s.host a ≠ .waiting)
    (hwritten : s'.written = s.written) (hsignalled : s'.signalled = s.signalled)
    (hsends : ∀ deed, progress cfg s' deed a b = progress cfg s deed a b) :
    pending cfg s' a b x = [] := by
  obtain ⟨hs, -⟩ := h.quiet hpc .signalled
  obtain ⟨-, hw⟩ := h.quiet hpc .wrote
  simp [pending, hwritten, hsignalled, hsends, hs, hw]

theorem progress_outside (h : s.host a = .outside) : progress cfg s deed a b = s.calls a := by
  simp only [progress, h]

/-- Between its calls a rank saw a signal of every rank for each call. -/
theorem Counts.settled (h : Counts cfg s a b) (hpc : s.host b = .outside) :
    s.signalled a b = s.calls b ∧ s.written a b = s.calls b := by
  have hsaw := h.sawLe
  rw [progress_outside hpc] at hsaw
  have hle := h.signalledLe
  have hwithin := h.within
  omega

theorem put_same {α : Type} {f : Nat → Nat → α} {v : α} : put f a b v a b = v := by
  simp [put]

theorem put_of_ne {α : Type} {f : Nat → Nat → α} {v : α} {k c : Nat} (h : k ≠ a ∨ c ≠ b) :
    put f a b v k c = f k c := by
  unfold put
  by_cases hk : k = a
  · subst hk
    have hc := h.resolve_left fun hne => hne rfl
    rw [Function.update_self, Function.update_of_ne hc]
  · rw [Function.update_of_ne hk]

section call

variable {sb rb : Nat} {X : Option Resources} {pc : HostPc}

theorem setResources_self : s.setResources r (s.resources r) = s := by
  simp [World.setResources]

theorem enter_local : Local s (((s.enter r sb rb).setResources r X).setHost r pc) r where
  host _ ha := Function.update_of_ne ha ..
  calls _ ha := Function.update_of_ne ha ..
  resources _ ha := Function.update_of_ne ha ..
  thread _ _ := rfl
  mem _ _ := rfl
  grown := by
    change s.calls r ≤ Function.update s.calls r (s.calls r + 1) r
    rw [Function.update_self]
    exact Nat.le_succ _
  passed k a hk := by
    refine put_of_ne ?_
    by_cases ha : a = r
    · left
      rw [ha] at hk
      omega
    · exact .inr ha
  written := rfl
  signalled := rfl

theorem enter_calls :
    (((s.enter r sb rb).setResources r X).setHost r pc).calls r = s.calls r + 1 :=
  Function.update_self ..

theorem enter_host : (((s.enter r sb rb).setResources r X).setHost r pc).host r = pc :=
  Function.update_self ..

theorem enter_resources : (((s.enter r sb rb).setResources r X).setHost r pc).resources r = X :=
  Function.update_self ..

theorem enter_passed : (((s.enter r sb rb).setResources r X).setHost r pc).passed (s.calls r + 1) r =
    ⟨sb, rb, s.mem r sb⟩ :=
  put_same

/-- A rank enters a call with new resources, or with those of its first call. -/
theorem enter_invariant {x : Resources} (h : Invariant cfg s) (hr : r < cfg.numRanks)
    (hout : s.host r = .outside) (hpc : pc = .initializing ∨ pc = .launching)
    (hrdmas : ∀ b < cfg.numRanks, x.rdmas b = [])
    (hevents : ∀ a < cfg.numRanks, x.kernelEvents a + x.request = s.calls r + 1)
    (hres : ResourcesOk cfg (((s.enter r sb rb).setResources r (some x)).setHost r pc) r x) :
    Invariant cfg (((s.enter r sb rb).setResources r (some x)).setHost r pc) := by
  have hl : Local s (((s.enter r sb rb).setResources r (some x)).setHost r pc) r := enter_local
  have hnot : s.host r ≠ .waiting := by
    rw [hout]
    exact HostPc.noConfusion
  have hprogress : ∀ deed, ∀ b < cfg.numRanks,
      progress cfg (((s.enter r sb rb).setResources r (some x)).setHost r pc) deed r b =
        progress cfg s deed r b := by
    intro deed b _
    rw [progress_outside hout, progress, enter_host]
    rcases hpc with rfl | rfl
    · simp only [enter_calls, Nat.add_sub_cancel]
    · simp only [enter_calls, Nat.add_sub_cancel]
  refine h.localKeep hr hl ⟨fun _ => hres.called, fun _ => ⟨x, enter_resources⟩, fun hpc' => ?_,
    fun hnone => ?_, fun hpc' => ?_, fun hpc' => ?_⟩ (fun y hy => ?_) hprogress
    (fun y hy b hb => ?_) (fun y hy a ha => ?_) fun a ha hwritten => ?_
  · rw [enter_host] at hpc'
    rcases hpc with rfl | rfl <;> cases hpc'
  · rw [enter_resources] at hnone
    cases hnone
  · rw [enter_host] at hpc'
    rcases hpc with rfl | rfl <;> cases hpc'
  · rw [enter_host] at hpc'
    rcases hpc with rfl | rfl <;> cases hpc'
  · rw [enter_resources] at hy
    cases hy
    exact hres
  · rw [enter_resources] at hy
    cases hy
    rw [hrdmas b hb]
    refine (pending_nil (h.counts r hr b hb) hnot ?_ ?_ fun deed => hprogress deed b hb).symm
    · rfl
    · rfl
  · rw [enter_resources] at hy
    cases hy
    rw [((h.counts a ha r hr).settled hout).1]
    exact hevents a ha
  · rw [enter_calls] at hwritten
    have hwithin := (h.counts a ha r hr).within
    change s.written a r = _ at hwritten
    omega

theorem new_resourcesOk (hnone : cfg.blocking = true ∨ s.calls r = 0) (hne : sb ≠ rb) :
    ResourcesOk cfg (((s.enter r sb rb).setResources r X).setHost r .initializing) r
      (newResources cfg (s.calls r + 1) sb rb) := by
  refine ⟨?_, ?_, ?_, ?_, ?_, ?_, hne, rfl, rfl, fun _ => ?_, Nat.le_refl _, fun hpc => ?_,
    fun hpc => ?_⟩
  · rw [enter_calls]
    exact Nat.le_add_left ..
  · rw [enter_calls]
    unfold requestOf newResources
    rcases hnone with hblocking | hzero
    · rw [if_pos hblocking]
    · rw [hzero]
      split <;> rfl
  · rw [enter_calls, enter_host, if_pos (.inl rfl)]
    exact Nat.zero_add _
  · rw [enter_calls, enter_passed]
    rfl
  · rw [enter_calls, enter_passed]
    rfl
  · exact (congrArg Passed.recvbuf enter_passed).symm
  · rw [enter_calls, enter_passed]
    rfl
  · rw [enter_host] at hpc
    cases hpc
  · rw [enter_host] at hpc
    exact absurd rfl hpc

theorem again_resourcesOk {x : Resources} (h : ResourcesOk cfg s r x) (hout : s.host r = .outside)
    (hblocking : cfg.blocking = false) (hsend : sb = x.sendbuf) (hrecv : rb = x.recvbuf) :
    ResourcesOk cfg (((s.enter r sb rb).setResources r X).setHost r .launching) r x := by
  have hl : Local s (((s.enter r sb rb).setResources r X).setHost r .launching) r := enter_local
  refine ⟨?_, ?_, ?_, ?_, ?_, ?_, h.apart, h.count, h.extent, fun _ => ?_, h.compLe, fun hpc => ?_,
    fun _ b hb => ?_⟩
  · rw [enter_calls]
    exact Nat.le_add_left ..
  · rw [h.request, enter_calls]
    simp [requestOf, hblocking]
  · have hseq := h.seq
    rw [hout] at hseq
    rw [enter_calls, enter_host, if_pos (.inr rfl), hseq]
    rfl
  · rw [enter_calls, enter_passed]
    exact hsend.symm
  · rw [enter_calls, enter_passed]
    exact hrecv.symm
  · rw [hl.passed x.request r h.request_le]
    exact h.first
  · rw [enter_calls, enter_passed, ← hsend]
    rfl
  · rw [enter_host] at hpc
    cases hpc
  · have hnot : s.host r ≠ .initializing := by
      rw [hout]
      exact HostPc.noConfusion
    obtain ⟨hjoined, hrecvbuf, hevent⟩ := h.exchanged hnot b hb
    refine ⟨hjoined.trans (hl.calls_le b), ?_, hevent⟩
    rw [hl.passed x.request b hjoined]
    exact hrecvbuf

/-- A rank makes a call; with resources it passes their buffers. -/
theorem call_invariant (h : Invariant cfg s) (hr : r < cfg.numRanks) (hout : s.host r = .outside)
    (hne : sb ≠ rb) (hkept : ∀ x, s.resources r = some x → sb = x.sendbuf ∧ rb = x.recvbuf) :
    Invariant cfg (call cfg r sb rb s) := by
  unfold call
  cases hx : s.resources r with
  | none =>
    refine enter_invariant h hr hout (.inl rfl) (fun _ _ => rfl) (fun _ _ => Nat.zero_add _) ?_
    exact new_resourcesOk ((h.rank r hr).kept hx) hne
  | some x =>
    have hself : s.enter r sb rb = (s.enter r sb rb).setResources r (some x) := by
      rw [← hx]
      exact setResources_self.symm
    have hblocking : cfg.blocking = false := by
      cases hb : cfg.blocking with
      | false => rfl
      | true =>
        rw [(h.rank r hr).absent hout hb] at hx
        cases hx
    obtain ⟨hsend, hrecv⟩ := hkept x hx
    have hold := h.resources r hr x hx
    simp only
    rw [hself]
    refine enter_invariant h hr hout (.inr rfl) (fun b hb => ?_) (fun a ha => ?_)
      (again_resourcesOk hold hout hblocking hsend hrecv)
    · rw [h.queue r hr x hx b hb]
      exact (h.counts r hr b hb).pending_nil (by rw [hout]; exact HostPc.noConfusion) x
    · rw [h.events r hr x hx a ha, ((h.counts a ha r hr).settled hout).1]

end call

section host

variable {X : Option Resources} {pc : HostPc} {x : Resources}

theorem set_local : Local s ((s.setResources r X).setHost r pc) r where
  host _ ha := Function.update_of_ne ha ..
  calls _ _ := rfl
  resources _ ha := Function.update_of_ne ha ..
  thread _ _ := rfl
  mem _ _ := rfl
  grown := Nat.le_refl _
  passed _ _ _ := rfl
  written := rfl
  signalled := rfl

theorem set_host : ((s.setResources r X).setHost r pc).host r = pc := Function.update_self ..

theorem set_resources : ((s.setResources r X).setHost r pc).resources r = X :=
  Function.update_self ..

/-- All ranks joined: the handles that a rank gets are those of their resources. -/
theorem exchange_handles (h : Invariant cfg s) (hx : ResourcesOk cfg s r x)
    (hjoined : allJoined cfg s x.request) (hb : b < cfg.numRanks) :
    x.request ≤ s.calls b ∧
      recvMmapExport cfg s b = ⟨b, (s.passed x.request b).recvbuf, bufSize cfg x⟩ := by
  have hmap := hjoined b hb
  rw [Option.map_eq_some_iff] at hmap
  obtain ⟨y, hy, hrequest⟩ := hmap
  have hold := h.resources b hb y hy
  refine ⟨hrequest ▸ hold.request_le, ?_⟩
  have hsize : bufSize cfg y = bufSize cfg x := by
    rw [bufSize, bufSize, hold.count, hold.extent, hx.count, hx.extent, hrequest]
  rw [recvMmapExport, hy]
  simp only [hsize, hold.first, hrequest]

theorem exchange_invariant (h : Invariant cfg s) (hr : r < cfg.numRanks)
    (hpc : s.host r = .initializing) (hx : s.resources r = some x)
    (hjoined : allJoined cfg s x.request) : Invariant cfg (exchange cfg r x s) := by
  have hold := h.resources r hr x hx
  have hprogress : ∀ deed, ∀ b < cfg.numRanks,
      progress cfg (exchange cfg r x s) deed r b = progress cfg s deed r b := by
    intro deed b _
    rw [progress, progress, exchange, set_host, hpc]
    rfl
  refine h.localKeep hr set_local ⟨fun _ => hold.called, fun _ => ⟨_, set_resources⟩,
    fun hpc' => ?_, fun hnone => ?_, fun hpc' => ?_, fun hpc' => ?_⟩ (fun y hy => ?_) hprogress
    (fun y hy b hb => ?_) (fun y hy a ha => ?_) fun a ha => h.data a ha r hr
  · rw [exchange, set_host] at hpc'
    cases hpc'
  · rw [exchange, set_resources] at hnone
    cases hnone
  · rw [exchange, set_host] at hpc'
    cases hpc'
  · rw [exchange, set_host] at hpc'
    cases hpc'
  · rw [exchange, set_resources] at hy
    cases hy
    refine ⟨hold.called, hold.request, ?_, hold.sendbuf, hold.recvbuf, hold.first, hold.apart,
      hold.count, hold.extent, fun _ => ?_, hold.compLe, fun hpc' => ?_, fun _ b hb => ?_⟩
    · have hseq := hold.seq
      rw [if_pos (.inl hpc)] at hseq
      rw [exchange, set_host, if_pos (.inr rfl)]
      exact hseq
    · exact hold.sending (by rw [hpc]; exact HostPc.noConfusion)
    · rw [exchange, set_host] at hpc'
      cases hpc'
    · obtain ⟨hle, hexport⟩ := exchange_handles h hold hjoined hb
      exact ⟨hle, hexport, rfl⟩
  · rw [exchange, set_resources] at hy
    cases hy
    have hnot : s.host r ≠ .waiting := by
      rw [hpc]
      exact HostPc.noConfusion
    have hnil := (h.counts r hr b hb).pending_nil hnot x
    rw [← h.queue r hr x hx b hb] at hnil
    refine hnil.trans (pending_nil (h.counts r hr b hb) hnot ?_ ?_ fun deed =>
      hprogress deed b hb).symm
    · rfl
    · rfl
  · rw [exchange, set_resources] at hy
    cases hy
    exact h.events r hr x hx a ha

theorem start_done (b : Nat) : deed.done (.write (b % cfg.numThreads)) b = false := by
  cases deed with
  | wrote => exact decide_eq_false (Nat.not_lt.mpr (Nat.mod_le ..))
  | signalled => exact decide_eq_false (Nat.not_lt.mpr (Nat.mod_le ..))
  | saw => rfl
  | synced => rfl

theorem launch_invariant (h : Invariant cfg s) (hr : r < cfg.numRanks)
    (hpc : s.host r = .launching) (hx : s.resources r = some x) :
    Invariant cfg (launch r x s) := by
  have hold := h.resources r hr x hx
  have hhost : (launch r x s).host r = .waiting := Function.update_self ..
  have hres : (launch r x s).resources r = some { x with a2aSeqNum := x.a2aSeqNum + 1 } :=
    Function.update_self ..
  have hthread : (launch r x s).thread r = fun t => .write t := Function.update_self ..
  have hl : Local s (launch r x s) r :=
    ⟨fun _ ha => Function.update_of_ne ha .., fun _ _ => rfl,
      fun _ ha => Function.update_of_ne ha .., fun _ ha => Function.update_of_ne ha ..,
      fun _ _ => rfl, Nat.le_refl _, fun _ _ _ => rfl, rfl, rfl⟩
  have hprogress : ∀ deed, ∀ b < cfg.numRanks,
      progress cfg (launch r x s) deed r b = progress cfg s deed r b := by
    intro deed b _
    rw [progress_waiting hhost, hthread, start_done, progress, hpc]
    rfl
  refine h.localKeep hr hl ⟨fun _ => hold.called, fun _ => ⟨_, hres⟩, fun hpc' => ?_,
    fun hnone => ?_, fun hpc' => ?_, fun _ t ht => ?_⟩ (fun y hy => ?_) hprogress
    (fun y hy b hb => ?_) (fun y hy a ha => ?_) fun a ha => h.data a ha r hr
  · rw [hhost] at hpc'
    cases hpc'
  · rw [hres] at hnone
    cases hnone
  · rw [hhost] at hpc'
    cases hpc'
  · rw [hthread]
    exact Nat.mod_eq_of_lt ht
  · rw [hres] at hy
    cases hy
    refine ⟨hold.called, hold.request, ?_, hold.sendbuf, hold.recvbuf, hold.first, hold.apart,
      hold.count, hold.extent, fun _ => ?_, hold.compLe.trans (Nat.le_succ _), fun _ hdone => ?_,
      fun _ b hb => ?_⟩
    · have hseq := hold.seq
      rw [if_pos (.inr hpc)] at hseq
      rw [hhost, if_neg (by simp)]
      change x.a2aSeqNum + 1 + x.request = s.calls r + 1
      omega
    · exact hold.sending (by rw [hpc]; exact HostPc.noConfusion)
    · have hle := hold.compLe
      unfold completed at hdone
      simp only at hdone
      omega
    · obtain ⟨hjoined, hrecvbuf, hevent⟩ :=
        hold.exchanged (by rw [hpc]; exact HostPc.noConfusion) b hb
      exact ⟨hjoined, hrecvbuf, hevent⟩
  · rw [hres] at hy
    cases hy
    have hnot : s.host r ≠ .waiting := by
      rw [hpc]
      exact HostPc.noConfusion
    have hnil := (h.counts r hr b hb).pending_nil hnot x
    rw [← h.queue r hr x hx b hb] at hnil
    refine hnil.trans (pending_nil (h.counts r hr b hb) hnot ?_ ?_ fun deed =>
      hprogress deed b hb).symm
    · rfl
    · rfl
  · rw [hres] at hy
    cases hy
    exact h.events r hr x hx a ha

theorem complete_invariant (h : Invariant cfg s) (hr : r < cfg.numRanks)
    (hx : s.resources r = some x) (hended : allEnded cfg s r) : Invariant cfg (complete r x s) := by
  have hold := h.resources r hr x hx
  have hrank := h.rank r hr
  have hres : (complete r x s).resources r = some { x with compEvent := x.a2aSeqNum } :=
    Function.update_self ..
  have hl : Local s (complete r x s) r :=
    ⟨fun _ _ => rfl, fun _ _ => rfl, fun _ ha => Function.update_of_ne ha .., fun _ _ => rfl,
      fun _ _ => rfl, Nat.le_refl _, fun _ _ _ => rfl, rfl, rfl⟩
  refine h.localKeep hr hl ⟨hrank.called, fun _ => ⟨_, hres⟩, fun hpc hb => ?_,
    fun hnone => ?_, hrank.barrier, hrank.threads⟩ (fun y hy => ?_) (fun _ _ _ => rfl)
    (fun y hy b hb => ?_) (fun y hy a ha => ?_) fun a ha => h.data a ha r hr
  · rw [hrank.absent hpc hb] at hx
    cases hx
  · rw [hres] at hnone
    cases hnone
  · rw [hres] at hy
    cases hy
    exact ⟨hold.called, hold.request, hold.seq, hold.sendbuf, hold.recvbuf, hold.first, hold.apart,
      hold.count, hold.extent, hold.sending, Nat.le_refl _, fun _ _ => hended, fun hpc b hb =>
      ⟨(hold.exchanged hpc b hb).joined, (hold.exchanged hpc b hb).recvbuf,
        (hold.exchanged hpc b hb).event⟩⟩
  · rw [hres] at hy
    cases hy
    exact h.queue r hr x hx b hb
  · rw [hres] at hy
    cases hy
    exact h.events r hr x hx a ha

theorem end_done (b : Nat) : deed.done .ended b = true := by
  cases deed <;> rfl

/-- A rank stops waiting when its kernel ended. -/
theorem wait_invariant (h : Invariant cfg s) (hr : r < cfg.numRanks) (hpc : s.host r = .waiting)
    (hx : s.resources r = some x) (hdone : completed x) :
    Invariant cfg (s.setHost r (if cfg.blocking then .barrier else .outside)) := by
  have hold := h.resources r hr x hx
  have hself : s.setHost r (if cfg.blocking then .barrier else .outside) =
      (s.setResources r (some x)).setHost r (if cfg.blocking then .barrier else .outside) := by
    rw [← hx, setResources_self]
  have hnot : s.host r ≠ .outside := by
    rw [hpc]
    exact HostPc.noConfusion
  have hended := hold.ended hpc hdone
  have hprogress : ∀ deed, ∀ b < cfg.numRanks,
      progress cfg ((s.setResources r (some x)).setHost r
        (if cfg.blocking then .barrier else .outside)) deed r b = progress cfg s deed r b := by
    intro deed b _
    rw [progress_waiting hpc, hended _ (Nat.mod_lt _ cfg.threadsPos), end_done, if_pos rfl, progress,
      set_host]
    cases cfg.blocking <;> rfl
  rw [hself]
  refine h.localKeep hr set_local ⟨fun _ => hold.called, fun _ => ⟨x, set_resources⟩,
    fun hpc' hb => ?_, fun hnone => ?_, fun hpc' => ?_, fun hpc' => ?_⟩ (fun y hy => ?_) hprogress
    (fun y hy b hb => ?_) (fun y hy a ha => ?_) fun a ha => h.data a ha r hr
  · rw [set_host, hb] at hpc'
    cases hpc'
  · rw [set_resources] at hnone
    cases hnone
  · rw [set_host] at hpc'
    cases hb : cfg.blocking with
    | true => rfl
    | false =>
      rw [hb] at hpc'
      cases hpc'
  · rw [set_host] at hpc'
    cases hb : cfg.blocking <;> (rw [hb] at hpc'; cases hpc')
  · rw [set_resources] at hy
    cases hy
    refine ⟨hold.called, hold.request, ?_, hold.sendbuf, hold.recvbuf, hold.first, hold.apart,
      hold.count, hold.extent, fun _ => hold.sending hnot, hold.compLe, fun _ _ => hended,
      fun _ b hb => ?_⟩
    · have hseq := hold.seq
      rw [hpc, if_neg (by simp)] at hseq
      rw [set_host, hseq, if_neg]
      · rfl
      · cases cfg.blocking <;> simp
    · obtain ⟨hjoined, hrecvbuf, hevent⟩ :=
        hold.exchanged (by rw [hpc]; exact HostPc.noConfusion) b hb
      exact ⟨hjoined, hrecvbuf, hevent⟩
  · rw [set_resources] at hy
    cases hy
    rw [h.queue r hr x hx b hb]
    refine (pending_congr ?_ ?_ ?_ fun deed => hprogress deed b hb).symm
    · rfl
    · rfl
    · rfl
  · rw [set_resources] at hy
    cases hy
    exact h.events r hr x hx a ha

/-- A rank leaves the barrier and destroys its resources. -/
theorem finalize_invariant (h : Invariant cfg s) (hr : r < cfg.numRanks)
    (hpc : s.host r = .barrier) : Invariant cfg (finalize r s) := by
  have hblocking := (h.rank r hr).barrier hpc
  have hprogress : ∀ deed, ∀ b < cfg.numRanks,
      progress cfg (finalize r s) deed r b = progress cfg s deed r b := by
    intro deed b _
    rw [progress, progress, finalize, set_host, hpc]
    rfl
  refine h.localKeep hr set_local ⟨fun hpc' => ?_, fun hpc' => ?_, fun _ _ => set_resources,
    fun _ => .inl hblocking, fun _ => hblocking, fun hpc' => ?_⟩ (fun y hy => ?_) hprogress
    (fun y hy b hb => ?_) (fun y hy a ha => ?_) fun a ha => h.data a ha r hr
  · rw [finalize, set_host] at hpc'
    exact absurd rfl hpc'
  · rw [finalize, set_host] at hpc'
    exact absurd rfl hpc'
  · rw [finalize, set_host] at hpc'
    cases hpc'
  · rw [finalize, set_resources] at hy
    cases hy
  · rw [finalize, set_resources] at hy
    cases hy
  · rw [finalize, set_resources] at hy
    cases hy

theorem fill_invariant {buffer : Nat} {data : Nat → Byte} (h : Invariant cfg s)
    (hr : r < cfg.numRanks) (hpc : s.host r = .outside) (hmay : mayFill s r buffer) :
    Invariant cfg (fill r buffer data s) := by
  have hrank := h.rank r hr
  have hl : Local s (fill r buffer data s) r :=
    ⟨fun _ _ => rfl, fun _ _ => rfl, fun _ _ => rfl, fun _ _ => rfl,
      fun _ ha => Function.update_of_ne ha .., Nat.le_refl _, fun _ _ _ => rfl, rfl, rfl⟩
  refine h.localKeep hr hl
    ⟨hrank.called, hrank.present, hrank.absent, hrank.kept, hrank.barrier, hrank.threads⟩
    (fun y hy => ?_) (fun _ _ _ => rfl) (fun y hy b hb => h.queue r hr y hy b hb)
    (fun y hy a ha => h.events r hr y hy a ha) fun a ha hwritten hcalled o ho => ?_
  · have hold := h.resources r hr y hy
    exact ⟨hold.called, hold.request, hold.seq, hold.sendbuf, hold.recvbuf, hold.first, hold.apart,
      hold.count, hold.extent, fun hpc' => absurd hpc hpc', hold.compLe, hold.ended,
      fun hpc' b hb => ⟨(hold.exchanged hpc' b hb).joined, (hold.exchanged hpc' b hb).recvbuf,
        (hold.exchanged hpc' b hb).event⟩⟩
  · have hne : (s.passed (s.calls r) r).recvbuf ≠ buffer := by
      rcases hmay with hzero | hne
      · exact absurd hzero (Nat.one_le_iff_ne_zero.mp hcalled)
      · exact hne.symm
    have hmem : (fill r buffer data s).mem r (s.passed (s.calls r) r).recvbuf =
        s.mem r (s.passed (s.calls r) r).recvbuf := put_of_ne (.inr hne)
    exact (congrFun hmem _).trans (h.data a ha r hr hwritten hcalled o ho)

end host

end DocaApps.Proofs.A2aInvariant
