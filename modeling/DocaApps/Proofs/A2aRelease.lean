import DocaApps.DpaAllToAll.Setup
import DocaApps.Lib.Ownership

namespace DocaApps.Proofs.A2aRelease
open Lib Lib.Handles Lib.Command Lib.Endings Lib.Ownership DpaAllToAll.Setup

variable {drv : Driver}

/-- The handles are those acquired, and the pointers to them are set. -/
structure Owned (m : Multiset Handle) (s : Resources) : Prop where
  owns : Owns m s.toTable
  set : ∀ h ∈ m, s.pointers h = true

section Steps
variable {m : Multiset Handle} {h k : Handle} {hs : List Handle} {err : DocaError} {n : Nat}
  {x cleanup : A2aM Unit} {p q r r' : Resources → Prop}

theorem orElse_undone (hx : Triple p x q r) (hcleanup : Triple r cleanup r' Never) :
    Triple p (orElse x cleanup) q r' := hx.undone hcleanup

theorem use_owned (hmem : ∀ k ∈ hs, k ∈ m) :
    Triple (Owned m) (handles (Table.use hs)) (Owned m) r :=
  .modify fun _ hs => ⟨hs.owns.use hmem, hs.set⟩

theorem call_owned (c : Call) (hmem : ∀ k ∈ hs, k ∈ m) :
    Triple (Owned m) (call drv c hs err) (Owned m) (Owned m) := by
  refine Triple.bind (use_owned hmem) fun _ => ?_
  exact .ite (fun _ => .raise err) fun _ => .pure ()

theorem on_owned (op : Op) (hmem : ∀ k ∈ h :: hs, k ∈ m) :
    Triple (Owned m) (on drv op h hs) (Owned m) (Owned m) := call_owned _ hmem

theorem wait_owned (w : Wait) :
    Triple (Owned m) (mpiRequestWaitTimeout drv w) (Owned m) (Owned m) := call_owned _ (by simp)

/-- What is acquired is noted, and its pointer set. -/
theorem created_owned :
    Triple (Owned m) (do handles (Table.create h); setPointer h true) (Owned (h ::ₘ m)) r := by
  refine Triple.bind (q := fun s => Owns (h ::ₘ m) s.toTable ∧ ∀ k ∈ m, s.pointers k = true)
    (.modify fun s hs => ⟨hs.owns.create h, hs.set⟩) fun _ => .modify fun s hs => ⟨hs.1, ?_⟩
  intro k hk
  by_cases heq : k = h
  · rw [heq]
    exact Function.update_self ..
  · have hold : k ∈ m := (Multiset.mem_cons.mp hk).resolve_left heq
    exact (Function.update_of_ne heq ..).trans (hs.2 k hold)

theorem acquire_owned (hmem : ∀ k ∈ hs, k ∈ m) :
    Triple (Owned m) (acquire drv h hs err) (Owned (h ::ₘ m)) (Owned m) :=
  (call_owned _ hmem).bind fun _ => created_owned

/-- A pointer to something else. -/
theorem setPointer_owned (hnew : h ∉ m) (b : Bool) : Triple (Owned m) (setPointer h b)
    (fun s => Owned m s ∧ s.pointers h = b) r := by
  refine .modify fun s hs => ⟨⟨hs.owns, fun k hk => ?_⟩, Function.update_self ..⟩
  have hne : k ≠ h := fun heq => hnew (heq ▸ hk)
  exact (Function.update_of_ne hne ..).trans (hs.set k hk)

/-- A block that was not allocated leaves its pointer `NULL`. -/
theorem alloc_owned_or (hnew : h ∉ m) : Triple (Owned m) (alloc drv h) (Owned (h ::ₘ m))
    fun s => Owned m s ∧ s.pointers h = false := by
  refine Triple.bind (setPointer_owned hnew false) fun _ => ?_
  refine Triple.bind ?_ fun _ => created_owned
  refine Triple.bind (q := fun s => Owned m s ∧ s.pointers h = false)
    (.modify fun s hs => ⟨⟨hs.1.owns.use (by simp), hs.1.set⟩, hs.2⟩) fun _ => ?_
  exact .ite (fun _ => .raise _) fun _ => (Triple.pure ()).mono (fun _ hs => hs)
    (fun _ hs => hs.1) fun _ hs => hs

theorem alloc_owned (hnew : h ∉ m) :
    Triple (Owned m) (alloc drv h) (Owned (h ::ₘ m)) (Owned m) :=
  (alloc_owned_or hnew).mono (fun _ hs => hs) (fun _ hs => hs) fun _ hs => hs.1

theorem destroy_owned : Triple (Owned (h ::ₘ m)) (destroy h) (Owned m) r :=
  .modify fun _ hs => ⟨hs.owns.release, fun k hk => hs.set k (Multiset.mem_cons_of_mem hk)⟩

theorem free_owned : Triple (Owned (h ::ₘ m)) (free h) (Owned m) r := by
  constructor
  intro s hs
  have hset : s.pointers h = true := hs.set h (Multiset.mem_cons_self h m)
  have hrun : free h s = destroy h s := by
    show (if s.pointers h then destroy h else pure ()) s = destroy h s
    rw [if_pos hset]
  have hdestroy := destroy_owned.ends (r := r) s hs
  exact ⟨fun ha => hdestroy.ok (hrun.symm.trans ha), fun he => hdestroy.error (hrun.symm.trans he)⟩

/-- The release of a block that may not have been allocated. -/
theorem free_owned_or : Triple (fun s => Owned (h ::ₘ m) s ∨ Owned m s ∧ s.pointers h = false)
    (free h) (Owned m) r := by
  constructor
  intro s hs
  rcases hs with hs | hs
  · exact free_owned.ends s hs
  · have hrun : free h s = .ok () s := by
      show (if s.pointers h then destroy h else pure ()) s = .ok () s
      rw [hs.2, if_neg Bool.false_ne_true]
      rfl
    exact (ends_of_ok hrun).mpr hs.1

theorem alloc_sure (hok : drv.fails (.acquire h) = false) (hnew : h ∉ m) :
    Triple (Owned m) (alloc drv h) (Owned (h ::ₘ m)) r := by
  constructor
  intro s hs
  have hends : Ends (alloc drv h) (fun _ => Owned (h ::ₘ m)) (fun _ => Owned m) s :=
    (alloc_owned hnew).ends s hs
  have hrun : ∃ t, alloc drv h s = .ok () t := by
    unfold alloc acquire call
    rw [hok]
    exact ⟨_, rfl⟩
  obtain ⟨t, ht⟩ := hrun
  exact (ends_of_ok ht).mpr (hends.ok ht)

/-- What is below the newest handle can be released first. -/
theorem below_owned (hx : Triple (Owned (h ::ₘ k ::ₘ m)) x q r) :
    Triple (Owned (k ::ₘ h ::ₘ m)) x q r := by
  rw [Multiset.cons_swap]
  exact hx

/-- A handle that is made ready, and destroyed when that fails. -/
theorem configured_owned (hmem : ∀ k ∈ hs, k ∈ m)
    (hx : Triple (Owned (h ::ₘ m)) x (Owned (h ::ₘ m)) (Owned (h ::ₘ m))) :
    Triple (Owned m) (do acquire drv h hs err; orElse x (destroy h)) (Owned (h ::ₘ m))
      (Owned m) :=
  (acquire_owned hmem).bind fun _ => orElse_undone hx destroy_owned

/-- The entries of an array are made, each for itself. -/
theorem entries_created (f : Nat → Handle) {body : Nat → A2aM Unit}
    (hbody : ∀ i, Triple (Owned (entries f 0 i + m)) (body i)
      (Owned (f i ::ₘ (entries f 0 i + m))) r) :
    Triple (Owned m) (forRanks n body) (Owned (entries f 0 n + m)) r := by
  have hloop : Triple (Owned (entries f 0 0 + m)) (forRanks n body) (Owned (entries f 0 n + m)) r :=
    .forM_range (fun i => Owned (entries f 0 i + m)) fun i _ => by
      rw [entries_top f i.zero_le, Multiset.cons_add]
      exact hbody i
  rwa [entries_self, zero_add] at hloop

theorem entries_destroyed {f : Nat → Handle} {body : Nat → A2aM Unit}
    (hbody : ∀ i m', m ≤ m' → Triple (Owned (f i ::ₘ m')) (body i) (Owned m') r) :
    Triple (Owned (entries f 0 n + m)) (forRanks n body) (Owned m) r := by
  have hloop : Triple (Owned (entries f 0 n + m)) (forRanks n body) (Owned (entries f n n + m)) r :=
    .forM_range (fun i => Owned (entries f i n + m)) fun i hi => by
      rw [entries_bottom f hi, Multiset.cons_add]
      exact hbody i _ (Multiset.le_add_left ..)
  rwa [entries_self, zero_add] at hloop

/-- A loop that acquires nothing. -/
theorem loop_owned {body : Nat → A2aM Unit}
    (hbody : ∀ i < n, Triple (Owned m) (body i) (Owned m) (Owned m)) :
    Triple (Owned m) (forRanks n body) (Owned m) (Owned m) :=
  .forM_range (fun _ => Owned m) hbody

theorem createMmap_owned (hdevice : .docaDevice ∈ m) :
    Triple (Owned m) (createMmap drv h) (Owned (h ::ₘ m)) (Owned m) := by
  apply configured_owned (by simp)
  apply (on_owned _ (by simp [hdevice])).bind
  intro _
  apply (on_owned _ (by simp)).bind
  intro _
  exact (on_owned _ (by simp)).bind fun _ => on_owned _ (by simp)

theorem createBufArrayResources_owned (hmmap : k ∈ m) (hdpa : .docaDpa ∈ m) :
    Triple (Owned m) (createBufArrayResources drv k h) (Owned (h ::ₘ m)) (Owned m) := by
  apply configured_owned (by simp [hmmap])
  apply (on_owned _ (by simp)).bind
  intro _
  apply (on_owned _ (by simp [hdpa])).bind
  intro _
  exact (on_owned _ (by simp)).bind fun _ => on_owned _ (by simp)

theorem createSyncEvent_owned {ks : List Handle} (hpublisher : ∀ k ∈ hs, k ∈ m)
    (hsubscriber : ∀ k ∈ ks, k ∈ m) :
    Triple (Owned m) (createSyncEvent drv h hs ks) (Owned (h ::ₘ m)) (Owned m) := by
  have hcons {ks : List Handle} (hks : ∀ k ∈ ks, k ∈ m) : ∀ k ∈ h :: ks, k ∈ h ::ₘ m := by
    intro k hk
    exact Multiset.mem_cons.mpr ((List.mem_cons.mp hk).imp id (hks k))
  apply configured_owned (by simp)
  apply (on_owned _ (hcons hpublisher)).bind
  intro _
  exact (on_owned _ (hcons hsubscriber)).bind fun _ => on_owned _ (by simp)

theorem createRdma_owned (hdevice : .docaDevice ∈ m) (hdpa : .docaDpa ∈ m) (hrdmas : .rdmas ∈ m)
    (i : Nat) : Triple (Owned m) (createRdma drv i) (Owned (.rdma i ::ₘ m)) (Owned m) := by
  apply configured_owned (by simp [hdevice, hrdmas])
  apply (on_owned _ (by simp)).bind
  intro _
  apply (on_owned _ (by simp)).bind
  intro _
  exact (on_owned _ (by simp [hdpa])).bind fun _ => on_owned _ (by simp)

theorem dpaMemFree_owned (hdpa : .docaDpa ∈ m) :
    Triple (Owned (h ::ₘ m)) (dpaMemFree h) (Owned m) r :=
  (use_owned (by simp [hdpa])).bind fun _ => destroy_owned

theorem destroyRdma_owned (hrdmas : .rdmas ∈ m) (i : Nat) :
    Triple (Owned (.rdma i ::ₘ m)) (destroyRdma i) (Owned m) r :=
  (use_owned (by simp [hrdmas])).bind fun _ => destroy_owned

end Steps

/-- The device and its context, which are there for all that follows. -/
def opened : Multiset Handle := .docaDpa ::ₘ .docaDevice ::ₘ {.resources}

@[simp] theorem mem_opened {h : Handle} :
    h ∈ opened ↔ h = .docaDpa ∨ h = .docaDevice ∨ h = .resources := by
  simp [opened]

section Functions
variable {n : Nat} {r : Resources → Prop}

theorem openDpaDevice_owned {name : List Char} (hdevice : drv.devices.any (DevInfo.wanted name)) :
    Triple (Owned {.resources}) (openDpaDevice drv name) (Owned (.docaDevice ::ₘ {.resources}))
      (Owned {.resources}) := by
  apply (acquire_owned (by simp)).bind
  intro _
  rw [if_pos hdevice]
  apply (orElse_undone (acquire_owned (by simp)) destroy_owned).bind
  intro _
  exact below_owned destroy_owned

theorem createDpaContext_owned {name : List Char}
    (hdevice : drv.devices.any (DevInfo.wanted name)) :
    Triple (Owned {.resources}) (createDpaContext drv name) (Owned opened) (Owned {.resources}) :=
  (openDpaDevice_owned hdevice).bind fun _ =>
    orElse_undone (acquire_owned (by simp)) destroy_owned

/-- The events of the kernel, without their handles. -/
def kernelEvents (n : Nat) : Multiset Handle :=
  entries .kernelEvent 0 n + .kernelEvents ::ₘ .compEvent ::ₘ opened

@[simp] theorem mem_kernelEvents {h : Handle} : h ∈ kernelEvents n ↔
    h = .kernelEvents ∨ h = .compEvent ∨ (∃ i < n, .kernelEvent i = h) ∨ h ∈ opened := by
  simp [kernelEvents]

theorem destroyKernelEvents_owned :
    Triple (Owned (kernelEvents n)) (Events.destroyKernelEvents n) (Owned opened) r := by
  refine Triple.bind (entries_destroyed fun i m hm => ?_) fun _ => free_owned.bind fun _ =>
    destroy_owned
  have harray : Handle.kernelEvents ∈ m := Multiset.mem_of_le hm (by simp)
  exact (use_owned (by simp [harray])).bind fun _ => destroy_owned

theorem destroyKernelEventsHandles_owned :
    Triple (fun s => Owned (.kernelEventsHandle ::ₘ kernelEvents n) s ∨
        Owned (kernelEvents n) s ∧ s.pointers .kernelEventsHandle = false)
      (Events.destroyKernelEventsHandles n) (Owned opened) r :=
  free_owned_or.bind fun _ => destroyKernelEvents_owned

/-- The events with their handles, and the sizes of their exports. -/
def exported (n : Nat) : Multiset Handle :=
  .lpExportSizes ::ₘ .kernelEventsHandle ::ₘ kernelEvents n

@[simp] theorem mem_exported {h : Handle} : h ∈ exported n ↔
    h = .lpExportSizes ∨ h = .kernelEventsHandle ∨ h ∈ kernelEvents n := by
  simp [exported]

theorem exportToDpa_owned : Triple (Owned (kernelEvents n))
    (do alloc drv .kernelEventsHandle
        forRanks n fun j =>
          on drv .exportToDpa (.kernelEvent j) [.kernelEvents, .docaDpa, .kernelEventsHandle]
        alloc drv .lpExportSizes)
    (Owned (exported n))
    (fun s => Owned (.kernelEventsHandle ::ₘ kernelEvents n) s ∨
      Owned (kernelEvents n) s ∧ s.pointers .kernelEventsHandle = false) := by
  have hrest : Triple (Owned (.kernelEventsHandle ::ₘ kernelEvents n))
      (do forRanks n fun j =>
            on drv .exportToDpa (.kernelEvent j) [.kernelEvents, .docaDpa, .kernelEventsHandle]
          alloc drv .lpExportSizes)
      (Owned (exported n)) (Owned (.kernelEventsHandle ::ₘ kernelEvents n)) := by
    refine Triple.bind (loop_owned fun j hj => on_owned _ ?_) fun _ => alloc_owned ?_
    · simp [hj]
    · simp
  have hnew : Handle.kernelEventsHandle ∉ kernelEvents n := by simp
  apply ((alloc_owned_or hnew).mono (fun _ hs => hs) (fun _ hs => hs) fun _ => .inr).bind
  intro _
  exact hrest.mono (fun _ hs => hs) (fun _ hs => hs) fun _ => .inl

theorem freeRemoteKernelEventsExportDataArr_owned :
    Triple (Owned (.lpExportDataArr ::ₘ exported n)) (Events.freeRemoteKernelEventsExportDataArr n)
      (Owned opened) r := by
  apply free_owned.bind
  intro _
  apply free_owned.bind
  intro _
  exact destroyKernelEventsHandles_owned.mono (fun _ => .inl) (fun _ hs => hs) fun _ hs => hs

theorem exportToRemoteNet_owned : Triple (Owned (.lpExportDataArr ::ₘ exported n))
    (do forRanks n fun j =>
          on drv .exportToRemoteNet (.kernelEvent j)
            [.kernelEvents, .lpExportDataArr, .lpExportSizes]
        alloc drv .lpExportData)
    (Owned (.lpExportData ::ₘ .lpExportDataArr ::ₘ exported n))
    (Owned (.lpExportDataArr ::ₘ exported n)) := by
  refine Triple.bind (loop_owned fun j hj => on_owned _ ?_) fun _ => alloc_owned ?_
  · simp [hj]
  · simp

/-- All that `create_dpa_a2a_events` leaves. -/
def events (n : Nat) : Multiset Handle := .lpExportData ::ₘ exported n

@[simp] theorem mem_events {h : Handle} :
    h ∈ events n ↔ h = .lpExportData ∨ h ∈ exported n := by
  simp [events]

theorem createDpaA2aEvents_owned (harr : drv.fails (.acquire .lpExportDataArr) = false) :
    Triple (Owned opened) (createDpaA2aEvents drv n) (Owned (events n)) (Owned opened) := by
  apply (createSyncEvent_owned (by simp) (by simp)).bind
  intro _
  apply (orElse_undone (alloc_owned (by simp)) destroy_owned).bind
  intro _
  refine Triple.bind (entries_created .kernelEvent fun i => ?_) fun _ => ?_
  · refine orElse_undone ?_ destroyKernelEvents_owned
    apply (use_owned (by simp)).bind
    intro _
    exact createSyncEvent_owned (by simp) (by simp)
  apply (orElse_undone exportToDpa_owned destroyKernelEventsHandles_owned).bind
  intro _
  apply Triple.succeeds (alloc_sure harr (by simp))
  apply (orElse_undone exportToRemoteNet_owned freeRemoteKernelEventsExportDataArr_owned).bind
  intro _
  apply (use_owned (by simp)).bind
  intro _
  exact below_owned free_owned

theorem destroyRdmas_owned {m : Multiset Handle} :
    Triple (Owned (entries .rdma 0 n + .rdmas ::ₘ m)) (Rdmas.destroyRdmas n) (Owned m) r := by
  refine Triple.bind (entries_destroyed fun i m' hm => ?_) fun _ => free_owned
  exact destroyRdma_owned (Multiset.mem_of_le hm (by simp)) i

/-- The connections, and what was there before them. -/
def rdmas (n : Nat) : Multiset Handle := entries .rdma 0 n + .rdmas ::ₘ events n

@[simp] theorem mem_rdmas {h : Handle} :
    h ∈ rdmas n ↔ h = .rdmas ∨ (∃ i < n, .rdma i = h) ∨ h ∈ events n := by
  simp [rdmas]

theorem connectDpaA2aRdma_owned {i : Nat} (hi : i < n) :
    Triple (Owned (rdmas n)) (connectDpaA2aRdma drv i) (Owned (rdmas n)) (Owned (rdmas n)) := by
  apply (on_owned _ (by simp [hi])).bind
  intro _
  apply (wait_owned _).bind
  intro _
  apply (alloc_owned (by simp)).bind
  intro _
  refine Triple.bind (orElse_undone ?_ free_owned) fun _ => free_owned
  apply (wait_owned _).bind
  intro _
  apply (on_owned _ (by simp [hi])).bind
  intro _
  exact (wait_owned _).bind fun _ => wait_owned _

theorem freeRdmaHandlers_owned : Triple (Owned (.rdmaHandlers ::ₘ rdmas n))
    (Rdmas.freeRdmaHandlers n) (Owned (events n)) r :=
  free_owned.bind fun _ => destroyRdmas_owned

theorem freeRdmaHandlersDpa_owned : Triple (Owned (.devptrRdmas ::ₘ .rdmaHandlers ::ₘ rdmas n))
    (Rdmas.freeRdmaHandlersDpa n) (Owned (events n)) r :=
  (dpaMemFree_owned (by simp)).bind fun _ => freeRdmaHandlers_owned

theorem rdmaHandles_owned : Triple (Owned (.rdmaHandlers ::ₘ rdmas n))
    (do forRanks n fun j => on drv .getDpaHandle (.rdma j) [.rdmas, .rdmaHandlers]
        acquire drv .devptrRdmas [.docaDpa] .driver)
    (Owned (.devptrRdmas ::ₘ .rdmaHandlers ::ₘ rdmas n)) (Owned (.rdmaHandlers ::ₘ rdmas n)) := by
  refine Triple.bind (loop_owned fun j hj => on_owned _ ?_) fun _ => acquire_owned ?_
  · simp [hj]
  · simp

theorem prepareDpaA2aRdmas_owned (hhandlers : drv.fails (.acquire .rdmaHandlers) = false) :
    Triple (Owned (events n)) (prepareDpaA2aRdmas drv n) (Owned (.devptrRdmas ::ₘ rdmas n))
      (Owned (events n)) := by
  apply (alloc_owned (by simp)).bind
  intro _
  refine Triple.bind (entries_created .rdma fun i => ?_) fun _ => ?_
  · exact orElse_undone (createRdma_owned (by simp) (by simp) (by simp) i) destroyRdmas_owned
  apply (orElse_undone (loop_owned fun _ => connectDpaA2aRdma_owned) destroyRdmas_owned).bind
  intro _
  apply Triple.succeeds (alloc_sure hhandlers (by simp))
  rw [if_pos rfl]
  apply (orElse_undone rdmaHandles_owned freeRdmaHandlers_owned).bind
  intro _
  apply (orElse_undone (on_owned _ (by simp)) freeRdmaHandlersDpa_owned).bind
  intro _
  exact below_owned free_owned

/-- What is there when the memory is prepared. -/
def connected (n : Nat) : Multiset Handle := .devptrRdmas ::ₘ rdmas n

@[simp] theorem mem_connected {h : Handle} :
    h ∈ connected n ↔ h = .devptrRdmas ∨ h ∈ rdmas n := by
  simp [connected]

/-- The buffers of the process, and the exports of all. -/
def buffers (n : Nat) : Multiset Handle :=
  .recvbufMmap ::ₘ .sendbufBufArr ::ₘ .sendbufMmap ::ₘ connected n

@[simp] theorem mem_buffers {h : Handle} : h ∈ buffers n ↔
    h = .recvbufMmap ∨ h = .sendbufBufArr ∨ h = .sendbufMmap ∨ h ∈ connected n := by
  simp [buffers]

theorem destroySendbufBufArr_owned :
    Triple (Owned (.sendbufBufArr ::ₘ .sendbufMmap ::ₘ connected n)) Memory.destroySendbufBufArr
      (Owned (connected n)) r := destroy_owned.bind fun _ => destroy_owned

theorem destroyRecvbufMmap_owned :
    Triple (Owned (buffers n)) Memory.destroyRecvbufMmap (Owned (connected n)) r :=
  destroy_owned.bind fun _ => destroySendbufBufArr_owned

theorem freeMmapExportsLens_owned : Triple (Owned (.mmapExportsLens ::ₘ buffers n))
    Memory.freeMmapExportsLens (Owned (connected n)) r :=
  free_owned.bind fun _ => destroyRecvbufMmap_owned

theorem freeMmapExports_owned : Triple (Owned (.mmapExports ::ₘ .mmapExportsLens ::ₘ buffers n))
    Memory.freeMmapExports (Owned (connected n)) r :=
  free_owned.bind fun _ => freeMmapExportsLens_owned

theorem freeExportMmaps_owned :
    Triple (Owned (.exportMmaps ::ₘ .mmapExports ::ₘ .mmapExportsLens ::ₘ buffers n))
      Memory.freeExportMmaps (Owned (connected n)) r :=
  free_owned.bind fun _ => freeMmapExports_owned

theorem freeExportBufArrs_owned :
    Triple (Owned (.fromExportBufArrs ::ₘ .exportMmaps ::ₘ .mmapExports ::ₘ .mmapExportsLens ::ₘ
      buffers n)) Memory.freeExportBufArrs (Owned (connected n)) r :=
  free_owned.bind fun _ => freeExportMmaps_owned

theorem prepareBuffers_owned :
    Triple (Owned (connected n)) (Memory.prepareBuffers drv)
      (Owned (.fromExportDpaBufArrs ::ₘ .fromExportBufArrs ::ₘ .exportMmaps ::ₘ .mmapExports ::ₘ
        .mmapExportsLens ::ₘ buffers n))
      (Owned (connected n)) := by
  apply (createMmap_owned (by simp)).bind
  intro _
  apply (orElse_undone (createBufArrayResources_owned (by simp) (by simp)) destroy_owned).bind
  intro _
  apply (orElse_undone (createMmap_owned (by simp)) destroySendbufBufArr_owned).bind
  intro _
  have hlens : Triple (Owned (buffers n))
      (do on drv .exportRdma .recvbufMmap [.docaDevice]; alloc drv .mmapExportsLens)
      (Owned (.mmapExportsLens ::ₘ buffers n)) (Owned (buffers n)) :=
    (on_owned _ (by simp)).bind fun _ => alloc_owned (by simp)
  apply (orElse_undone hlens destroyRecvbufMmap_owned).bind
  intro _
  apply (orElse_undone (alloc_owned (by simp)) freeMmapExportsLens_owned).bind
  intro _
  apply (orElse_undone ((wait_owned _).bind fun _ => (wait_owned _).bind fun _ =>
    alloc_owned (by simp)) freeMmapExports_owned).bind
  intro _
  apply (orElse_undone (alloc_owned (by simp)) freeExportMmaps_owned).bind
  intro _
  exact orElse_undone (alloc_owned (by simp)) freeExportBufArrs_owned

theorem destroyDpa_owned : Triple (Owned opened) Init.destroyDpa (Owned {.resources}) r :=
  destroy_owned.bind fun _ => destroy_owned

theorem destroyEvents_owned :
    Triple (Owned (events n)) (Init.destroyEvents n) (Owned {.resources}) r := by
  apply free_owned.bind
  intro _
  apply free_owned.bind
  intro _
  apply free_owned.bind
  intro _
  refine Triple.bind (entries_destroyed fun i m hm => ?_) fun _ => ?_
  · have harray : Handle.kernelEvents ∈ m := Multiset.mem_of_le hm (by simp)
    exact (use_owned (by simp [harray])).bind fun _ => destroy_owned
  · apply free_owned.bind
    intro _
    exact destroy_owned.bind fun _ => destroyDpa_owned

theorem initDestroyRdmas_owned :
    Triple (Owned (connected n)) (Init.destroyRdmas n) (Owned {.resources}) r := by
  apply (dpaMemFree_owned (by simp)).bind
  intro _
  refine Triple.bind (entries_destroyed fun i m hm => ?_) fun _ => ?_
  · exact destroyRdma_owned (Multiset.mem_of_le hm (by simp)) i
  · exact free_owned.bind fun _ => destroyEvents_owned

end Functions

/-- What is acquired after the buffers of the process. -/
def imported : Handle → Bool
  | .exportMmap _ | .fromExportBufArr _ | .devptrRecvbufs | .rpExportSizes | .rpExportData
  | .rpKernelEvents | .rpKernelEvent _ | .rpKernelEventsDpaHandles | .devptrRpKernelEvents
  | .devptrKernelEventsHandle => true
  | _ => false

/-- The steps of `dpa_a2a_init` up to the first import of a buffer, but for the two whose failure is
not noticed. -/
def early : Call → Bool
  | .acquire .lpExportDataArr | .acquire .rdmaHandlers => false
  | .acquire h | .on _ h => !imported h
  | .wait .eventsExportSizes | .wait .eventsExportData | .kernelLaunch => false
  | .wait _ => true

section Late
variable {n : Nat} {h : Handle} {hs : List Handle} {err : DocaError} {x cleanup : A2aM Unit}

/-- A command that cannot fail. -/
def Sure (x : A2aM Unit) : Prop := Triple (fun _ => True) x (fun _ => True) Never

theorem Sure.andThen {y : Unit → A2aM Unit} (hx : Sure x) (hy : ∀ a, Sure (y a)) :
    Sure (x >>= y) := Triple.bind hx hy

theorem Sure.orElse (hx : Sure x) : Sure (orElse x cleanup) :=
  Triple.handled hx fun _ => ⟨fun _ hs => hs.elim⟩

theorem Sure.forRanks {body : Nat → A2aM Unit} (hbody : ∀ i, Sure (body i)) :
    Sure (forRanks n body) := Triple.forM_range (fun _ _ => True) fun i _ => hbody i

theorem modify_sure (f : Resources → Resources) : Sure (modify f) := .modify fun _ _ => trivial

theorem free_sure (h : Handle) : Sure (free h) := by
  constructor
  intro s _
  refine ends_bind.mpr (ends_get.mpr ?_)
  split
  · exact (modify_sure _).ends s trivial
  · exact (ends_pure ()).mpr trivial

theorem call_sure {c : Call} (hok : drv.fails c = false) : Sure (call drv c hs err) := by
  refine Sure.andThen (modify_sure _) fun _ => ?_
  rw [hok]
  exact .pure ()

theorem on_sure {op : Op} (hok : drv.fails (.on op h) = false) : Sure (on drv op h hs) :=
  call_sure hok

theorem acquire_sure (hok : drv.fails (.acquire h) = false) : Sure (acquire drv h hs err) :=
  (call_sure hok).andThen fun _ => (modify_sure _).andThen fun _ => modify_sure _

theorem alloc_sure_of (hok : drv.fails (.acquire h) = false) : Sure (alloc drv h) :=
  (modify_sure _).andThen fun _ => acquire_sure hok

theorem createBufArrayResources_sure {mmap : Handle} (hok : drv.fails (.acquire h) = false)
    (hop : ∀ op, drv.fails (.on op h) = false) : Sure (createBufArrayResources drv mmap h) := by
  apply (acquire_sure hok).andThen
  intro _
  apply Sure.orElse
  apply (on_sure (hop _)).andThen
  intro _
  apply (on_sure (hop _)).andThen
  intro _
  exact (on_sure (hop _)).andThen fun _ => on_sure (hop _)

variable (hearly : ∀ c, drv.fails c = true → early c = true)
include hearly

theorem late_ok {c : Call} (hlate : early c = false) : drv.fails c = false := by
  by_contra h
  rw [hearly c (Bool.not_eq_false _ ▸ h)] at hlate
  cases hlate

theorem importRecvbuf_sure (i : Nat) : Sure (Memory.importRecvbuf drv n i) := by
  apply Sure.orElse
  apply (acquire_sure (late_ok hearly rfl)).andThen
  intro _
  apply (modify_sure _).andThen
  intro _
  exact createBufArrayResources_sure (late_ok hearly rfl) fun _ => late_ok hearly rfl

theorem createSyncEventFromExport_sure (i : Nat) : Sure (createSyncEventFromExport drv i) :=
  (acquire_sure (late_ok hearly rfl)).andThen fun _ => (on_sure (late_ok hearly rfl)).orElse

theorem importEvents_sure : Sure (Memory.importEvents drv n) := by
  apply (free_sure _).andThen
  intro _
  apply (free_sure _).andThen
  intro _
  apply (acquire_sure (late_ok hearly rfl)).orElse.andThen
  intro _
  refine (Sure.orElse ?_).andThen fun _ => (Sure.orElse ?_).andThen fun _ => ?_
  · exact (on_sure (late_ok hearly rfl)).andThen fun _ => alloc_sure_of (late_ok hearly rfl)
  · apply (modify_sure _).andThen
    intro _
    apply (call_sure (late_ok hearly rfl)).andThen
    intro _
    apply (alloc_sure_of (late_ok hearly rfl)).andThen
    intro _
    exact (modify_sure _).andThen fun _ => call_sure (late_ok hearly rfl)
  apply (free_sure _).andThen
  intro _
  apply (free_sure _).andThen
  intro _
  apply (alloc_sure_of (late_ok hearly rfl)).orElse.andThen
  intro _
  apply (alloc_sure_of (late_ok hearly rfl)).orElse.andThen
  intro _
  apply (Sure.forRanks (createSyncEventFromExport_sure hearly)).orElse.andThen
  intro _
  apply (free_sure _).andThen
  intro _
  apply (free_sure _).andThen
  intro _
  refine (Sure.orElse ?_).andThen fun _ => ?_
  · exact (acquire_sure (late_ok hearly rfl)).andThen fun _ => on_sure (late_ok hearly rfl)
  apply (acquire_sure (late_ok hearly rfl)).orElse.andThen
  intro _
  exact (on_sure (late_ok hearly rfl)).orElse

/-- What follows the buffers does not fail, so only what was acquired before them is released. -/
theorem prepareDpaA2aMemory_owned : Triple (Owned (connected n)) (prepareDpaA2aMemory drv n)
    (fun _ => True) (Owned (connected n)) := by
  have hrest : Sure (do
      forRanks n (Memory.importRecvbuf drv n)
      Memory.importEvents drv n) :=
    (Sure.forRanks (importRecvbuf_sure hearly)).andThen fun _ => importEvents_sure hearly
  refine Triple.bind prepareBuffers_owned fun _ => ?_
  exact hrest.mono (fun _ _ => trivial) (fun _ hs => hs) fun _ hs => hs.elim

theorem dpaA2aInit_owned {comm : Comm}
    (hdevice : drv.devices.any (DevInfo.wanted (deviceName drv comm)) = true) :
    Triple (Owned {.resources}) (dpaA2aInit drv comm) (fun _ => True) (Owned {.resources}) := by
  apply (createDpaContext_owned hdevice).bind
  intro _
  apply (orElse_undone (createDpaA2aEvents_owned (late_ok hearly rfl)) destroyDpa_owned).bind
  intro _
  apply (orElse_undone (prepareDpaA2aRdmas_owned (late_ok hearly rfl)) destroyEvents_owned).bind
  intro _
  exact orElse_undone (prepareDpaA2aMemory_owned hearly) initDestroyRdmas_owned

end Late

end DocaApps.Proofs.A2aRelease
