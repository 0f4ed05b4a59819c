import DocaApps.Doca
import DocaApps.Lib.Command
import DocaApps.Lib.Handles

namespace DocaApps.DpaAllToAll.Setup
open Lib.Handles Lib.Command

/-- All that a first call of `dpa_ialltoall` acquires, an entry of an array by its index. -/
inductive Handle where
  | resources | devList | docaDevice | docaDpa | compEvent
  | kernelEvents | kernelEvent (i : Nat) | kernelEventsHandle
  | lpExportSizes | lpExportDataArr | lpExportData
  | rdmas | rdma (i : Nat) | remoteConnectionDetails (i : Nat) | rdmaHandlers | devptrRdmas
  | sendbufMmap | sendbufBufArr | recvbufMmap | mmapExportsLens | mmapExports
  | exportMmaps | exportMmap (i : Nat) | fromExportBufArrs | fromExportBufArr (i : Nat)
  | fromExportDpaBufArrs | devptrRecvbufs
  | rpExportSizes | rpExportData | rpKernelEvents | rpKernelEvent (i : Nat)
  | rpKernelEventsDpaHandles | devptrRpKernelEvents | devptrKernelEventsHandle
  deriving DecidableEq, Repr

/-- What is done with a handle that is there. -/
inductive Op where
  | addDev | setPermissions | setMemrange | start | setParams | setTargetDpa | getDpaHandle
  | exportRdma | addPublisher | addSubscriber | exportToDpa | exportToRemoteNet
  | setGrhEnabled | setDatapathOnDpa | export | connect | h2dMemcpy
  deriving DecidableEq, Repr

/-- The waits for another process. -/
inductive Wait where
  | detailsLenReceived (i : Nat) | detailsReceived (i : Nat)
  | detailsLenSent (i : Nat) | detailsSent (i : Nat)
  | mmapExportsLens | mmapExports | eventsExportSizes | eventsExportData
  deriving DecidableEq, Repr

/-- The steps that can fail. -/
inductive Call where
  | acquire (h : Handle)
  | on (op : Op) (h : Handle)
  | wait (w : Wait)
  | kernelLaunch
  deriving DecidableEq, Repr

/-- A listed device: whether it has a DPA, and its name when that can be read. -/
structure DevInfo where
  dpaSupported : Bool
  ibdevName : Option (List Char)
  deriving DecidableEq, Repr

/-- The devices and the two names given for them, the steps that fail, and whether the fields of a
new block that are read before they are set hold something else than `NULL`. -/
structure Driver where
  devices : List DevInfo
  device1Name : List Char
  device2Name : List Char
  fails : Call → Bool
  staleDevice : Bool
  staleExportData : Bool

/-- `struct a2a_resources`: what was acquired for it, and which pointers are not `NULL`. -/
structure Resources extends Table Handle where
  pointers : Handle → Bool

abbrev A2aM := EStateM DocaError Resources

def handles (f : Table Handle → Table Handle) : A2aM Unit :=
  modify fun s => { s with toTable := f s.toTable }

def setPointer (h : Handle) (set : Bool) : A2aM Unit :=
  modify fun s => { s with pointers := Function.update s.pointers h set }

/-- The clean-up calls succeed. -/
def destroy (h : Handle) : A2aM Unit := handles (Table.release [] h)

/-- A release of what may be `NULL`. -/
def free (h : Handle) : A2aM Unit := do
  if (← get).pointers h then destroy h

/-- On an error the clean-up is done and the error returned. -/
def orElse (x cleanup : A2aM Unit) : A2aM Unit :=
  tryCatch x fun err => do
    cleanup
    throw err

/-- A loop over the ranks, or over the first of them. -/
def forRanks (n : Nat) (body : Nat → A2aM Unit) : A2aM Unit := (List.range n).forM body

def dpaMemFree (h : Handle) : A2aM Unit := do
  handles (Table.use [.docaDpa])
  destroy h

/-- The context is stopped, and destroyed. -/
def destroyRdma (i : Nat) : A2aM Unit := do
  handles (Table.use [.rdmas, .rdma i])
  destroy (.rdma i)

variable (drv : Driver)

def call (c : Call) (hs : List Handle) (err : DocaError) : A2aM Unit := do
  handles (Table.use hs)
  if drv.fails c then throw err

def acquire (h : Handle) (hs : List Handle) (err : DocaError) : A2aM Unit := do
  call drv (.acquire h) hs err
  handles (Table.create h)
  setPointer h true

/-- `malloc` or `calloc`, which answers `NULL` when it fails. -/
def alloc (h : Handle) : A2aM Unit := do
  setPointer h false
  acquire drv h [] .noMemory

def on (op : Op) (h : Handle) (hs : List Handle) : A2aM Unit :=
  call drv (.on op h) (h :: hs) .driver

def mpiRequestWaitTimeout (w : Wait) : A2aM Unit := call drv (.wait w) [] .timeOut

def ibDeviceDefaultName : List Char := ['N', 'O', 'T', '_', 'S', 'E', 'T']

/-- The device that the loop over the list opens, when it gets to it. -/
def DevInfo.wanted (deviceName : List Char) (info : DevInfo) : Bool :=
  info.dpaSupported && info.ibdevName.any fun name =>
    ibDeviceDefaultName.isPrefixOf deviceName || deviceName == name

/-- Whether the last query of a device succeeded. -/
def DevInfo.queried (info : DevInfo) : Bool := info.dpaSupported && info.ibdevName.isSome

/-- Without a wanted device the field is read that no one has set, and the result of the last query
is returned. -/
def openDpaDevice (deviceName : List Char) : A2aM Unit := do
  acquire drv .devList [] .driver
  if drv.devices.any (DevInfo.wanted deviceName) then
    orElse (acquire drv .docaDevice [.devList] .driver) (destroy .devList)
    destroy .devList
  else
    destroy .devList
    if !(← get).pointers .docaDevice then throw .notFound
    if !drv.devices.getLast?.all DevInfo.queried then throw .driver

def createDpaContext (deviceName : List Char) : A2aM Unit := do
  openDpaDevice drv deviceName
  orElse (acquire drv .docaDpa [.docaDevice] .driver) (destroy .docaDevice)

def createMmap (mmap : Handle) : A2aM Unit := do
  acquire drv mmap [] .driver
  orElse (do
      on drv .addDev mmap [.docaDevice]
      on drv .setPermissions mmap []
      on drv .setMemrange mmap []
      on drv .start mmap [])
    (destroy mmap)

def createBufArrayResources (mmap bufArr : Handle) : A2aM Unit := do
  acquire drv bufArr [mmap] .driver
  orElse (do
      on drv .setParams bufArr []
      on drv .setTargetDpa bufArr [.docaDpa]
      on drv .start bufArr []
      on drv .getDpaHandle bufArr [])
    (destroy bufArr)

/-- The completion event and the kernel events, which differ in the publisher and the subscriber
alone. -/
def createSyncEvent (event : Handle) (publisher subscriber : List Handle) : A2aM Unit := do
  acquire drv event [] .driver
  orElse (do
      on drv .addPublisher event publisher
      on drv .addSubscriber event subscriber
      on drv .start event [])
    (destroy event)

def createCompletionSyncEvent : A2aM Unit :=
  createSyncEvent drv .compEvent [.docaDpa] [.docaDevice]

def createRemoteNetSyncEvent (i : Nat) : A2aM Unit := do
  handles (Table.use [.kernelEvents])
  createSyncEvent drv (.kernelEvent i) [] [.docaDpa]

def createSyncEventFromExport (i : Nat) : A2aM Unit := do
  acquire drv (.rpKernelEvent i)
    [.docaDevice, .rpExportData, .rpExportSizes, .rpKernelEvents] .driver
  orElse (on drv .exportToDpa (.rpKernelEvent i) [.docaDpa, .rpKernelEventsDpaHandles])
    (destroy (.rpKernelEvent i))

namespace Events

/-- The labels of `create_dpa_a2a_events`, from the last one up, with the events there are. -/
def destroyCompEvent : A2aM Unit := destroy .compEvent

def destroyKernelEvents (n : Nat) : A2aM Unit := do
  forRanks n fun j => do
    handles (Table.use [.kernelEvents])
    destroy (.kernelEvent j)
  free .kernelEvents
  destroyCompEvent

def destroyKernelEventsHandles (n : Nat) : A2aM Unit := do
  free .kernelEventsHandle
  destroyKernelEvents n

def freeRemoteKernelEventsExportDataArr (n : Nat) : A2aM Unit := do
  free .lpExportDataArr
  free .lpExportSizes
  destroyKernelEventsHandles n

end Events

variable (numRanks : Nat)

/-- The array of the exported events is not tested. -/
def createDpaA2aEvents : A2aM Unit := do
  createCompletionSyncEvent drv
  orElse (alloc drv .kernelEvents) Events.destroyCompEvent
  forRanks numRanks fun i =>
    orElse (createRemoteNetSyncEvent drv i) (Events.destroyKernelEvents i)
  orElse (do
      alloc drv .kernelEventsHandle
      forRanks numRanks fun j =>
        on drv .exportToDpa (.kernelEvent j) [.kernelEvents, .docaDpa, .kernelEventsHandle]
      alloc drv .lpExportSizes)
    (Events.destroyKernelEventsHandles numRanks)
  let _ ← succeeded (alloc drv .lpExportDataArr)
  orElse (do
      forRanks numRanks fun j =>
        on drv .exportToRemoteNet (.kernelEvent j) [.kernelEvents, .lpExportDataArr, .lpExportSizes]
      alloc drv .lpExportData)
    (Events.freeRemoteKernelEventsExportDataArr numRanks)
  handles (Table.use [.lpExportData, .lpExportDataArr, .lpExportSizes])
  free .lpExportDataArr

def createRdma (i : Nat) : A2aM Unit := do
  acquire drv (.rdma i) [.docaDevice, .rdmas] .driver
  orElse (do
      on drv .setPermissions (.rdma i) []
      on drv .setGrhEnabled (.rdma i) []
      on drv .setDatapathOnDpa (.rdma i) [.docaDpa]
      on drv .start (.rdma i) [])
    (destroy (.rdma i))

def connectDpaA2aRdma (i : Nat) : A2aM Unit := do
  on drv .export (.rdma i) [.rdmas]
  mpiRequestWaitTimeout drv (.detailsLenReceived i)
  alloc drv (.remoteConnectionDetails i)
  orElse (do
      mpiRequestWaitTimeout drv (.detailsReceived i)
      on drv .connect (.rdma i) [.rdmas, .remoteConnectionDetails i]
      mpiRequestWaitTimeout drv (.detailsLenSent i)
      mpiRequestWaitTimeout drv (.detailsSent i))
    (free (.remoteConnectionDetails i))
  free (.remoteConnectionDetails i)

namespace Rdmas

/-- The labels of `prepare_dpa_a2a_rdmas`. -/
def destroyRdmas (n : Nat) : A2aM Unit := do
  forRanks n destroyRdma
  free .rdmas

def freeRdmaHandlers : A2aM Unit := do
  free .rdmaHandlers
  destroyRdmas numRanks

def freeRdmaHandlersDpa : A2aM Unit := do
  dpaMemFree .devptrRdmas
  freeRdmaHandlers numRanks

end Rdmas

/-- When the handlers cannot be allocated the function returns the result of the call before, which
is `DOCA_SUCCESS`. -/
def prepareDpaA2aRdmas : A2aM Unit := do
  alloc drv .rdmas
  forRanks numRanks fun i => orElse (createRdma drv i) (Rdmas.destroyRdmas i)
  orElse (forRanks numRanks (connectDpaA2aRdma drv)) (Rdmas.destroyRdmas numRanks)
  if ← succeeded (alloc drv .rdmaHandlers) then
    orElse (do
        forRanks numRanks fun j => on drv .getDpaHandle (.rdma j) [.rdmas, .rdmaHandlers]
        acquire drv .devptrRdmas [.docaDpa] .driver)
      (Rdmas.freeRdmaHandlers numRanks)
    orElse (on drv .h2dMemcpy .devptrRdmas [.docaDpa, .rdmaHandlers])
      (Rdmas.freeRdmaHandlersDpa numRanks)
    free .rdmaHandlers
  else
    Rdmas.destroyRdmas numRanks

namespace Memory

/-- The labels of `prepare_dpa_a2a_memory`, from the last one up. -/
def destroySendbufMmap : A2aM Unit := destroy .sendbufMmap

def destroySendbufBufArr : A2aM Unit := do
  destroy .sendbufBufArr
  destroySendbufMmap

def destroyRecvbufMmap : A2aM Unit := do
  destroy .recvbufMmap
  destroySendbufBufArr

def freeMmapExportsLens : A2aM Unit := do
  free .mmapExportsLens
  destroyRecvbufMmap

def freeMmapExports : A2aM Unit := do
  free .mmapExports
  freeMmapExportsLens

def freeExportMmaps : A2aM Unit := do
  free .exportMmaps
  freeMmapExports

def freeExportBufArrs : A2aM Unit := do
  free .fromExportBufArrs
  freeExportMmaps

def destroyExportMmaps : A2aM Unit := do
  forRanks numRanks fun i => do
    handles (Table.use [.exportMmaps])
    free (.exportMmap i)
  free .fromExportDpaBufArrs
  freeExportBufArrs

def destroyExportBufArrs : A2aM Unit := do
  forRanks numRanks fun i => do
    handles (Table.use [.fromExportBufArrs])
    free (.fromExportBufArr i)
  destroyExportMmaps numRanks

def freeRecvbufsBufArrsDpa : A2aM Unit := do
  dpaMemFree .devptrRecvbufs
  destroyExportBufArrs numRanks

def freeRemoteKernelEventsExports : A2aM Unit := do
  free .rpExportData
  free .rpExportSizes
  freeRecvbufsBufArrsDpa numRanks

def freeRemoteKernelEvents : A2aM Unit := do
  free .rpKernelEvents
  freeRemoteKernelEventsExports numRanks

def freeRemoteKernelEventsDpaHandles : A2aM Unit := do
  free .rpKernelEventsDpaHandles
  freeRemoteKernelEvents numRanks

def destroyKernelEventsFromExport : A2aM Unit := do
  forRanks numRanks fun i => do
    handles (Table.use [.rpKernelEvents])
    free (.rpKernelEvent i)
  freeRemoteKernelEventsDpaHandles numRanks

def freeRpRemoteKernelEventsDpa : A2aM Unit := do
  dpaMemFree .devptrRpKernelEvents
  destroyKernelEventsFromExport numRanks

def freeKernelEventsHandleDpa : A2aM Unit := do
  dpaMemFree .devptrKernelEventsHandle
  freeRpRemoteKernelEventsDpa numRanks

/-- The buffers of the process, and the exports of all the processes. -/
def prepareBuffers : A2aM Unit := do
  createMmap drv .sendbufMmap
  orElse (createBufArrayResources drv .sendbufMmap .sendbufBufArr) destroySendbufMmap
  orElse (createMmap drv .recvbufMmap) destroySendbufBufArr
  orElse (do
      on drv .exportRdma .recvbufMmap [.docaDevice]
      alloc drv .mmapExportsLens)
    destroyRecvbufMmap
  orElse (alloc drv .mmapExports) freeMmapExportsLens
  orElse (do
      mpiRequestWaitTimeout drv .mmapExportsLens
      mpiRequestWaitTimeout drv .mmapExports
      alloc drv .exportMmaps)
    freeMmapExports
  orElse (alloc drv .fromExportBufArrs) freeExportMmaps
  orElse (alloc drv .fromExportDpaBufArrs) freeExportBufArrs

/-- The receive buffer of another process. After a failure the buffer arrays of the processes before
it are not destroyed. -/
def importRecvbuf (i : Nat) : A2aM Unit :=
  orElse (do
      acquire drv (.exportMmap i)
        [.docaDevice, .exportMmaps, .mmapExports, .mmapExportsLens] .driver
      handles (Table.use [.docaDpa, .fromExportBufArrs, .fromExportDpaBufArrs])
      createBufArrayResources drv (.exportMmap i) (.fromExportBufArr i))
    (destroyExportMmaps numRanks)

/-- What follows the imported buffers. The two blocks of the exports are freed here, and again at
the labels. -/
def importEvents : A2aM Unit := do
  free .mmapExports
  free .mmapExportsLens
  orElse (acquire drv .devptrRecvbufs [.docaDpa] .driver) (destroyExportBufArrs numRanks)
  orElse (do
      on drv .h2dMemcpy .devptrRecvbufs [.docaDpa, .fromExportDpaBufArrs]
      alloc drv .rpExportSizes)
    (freeRecvbufsBufArrsDpa numRanks)
  orElse (do
      handles (Table.use [.lpExportSizes])
      mpiRequestWaitTimeout drv .eventsExportSizes
      alloc drv .rpExportData
      handles (Table.use [.lpExportSizes, .lpExportData])
      mpiRequestWaitTimeout drv .eventsExportData)
    (freeRemoteKernelEventsExports numRanks)
  free .lpExportSizes
  free .lpExportData
  orElse (alloc drv .rpKernelEvents) (freeRemoteKernelEventsExports numRanks)
  orElse (alloc drv .rpKernelEventsDpaHandles) (freeRemoteKernelEvents numRanks)
  orElse (forRanks numRanks (createSyncEventFromExport drv))
    (freeRemoteKernelEventsDpaHandles numRanks)
  free .rpExportData
  free .rpExportSizes
  orElse (do
      acquire drv .devptrRpKernelEvents [.docaDpa] .driver
      on drv .h2dMemcpy .devptrRpKernelEvents [.docaDpa, .rpKernelEventsDpaHandles])
    (destroyKernelEventsFromExport numRanks)
  orElse (acquire drv .devptrKernelEventsHandle [.docaDpa] .driver)
    (freeRpRemoteKernelEventsDpa numRanks)
  orElse (on drv .h2dMemcpy .devptrKernelEventsHandle [.docaDpa, .kernelEventsHandle])
    (freeKernelEventsHandleDpa numRanks)

end Memory

def prepareDpaA2aMemory : A2aM Unit := do
  Memory.prepareBuffers drv
  forRanks numRanks (Memory.importRecvbuf drv numRanks)
  Memory.importEvents drv numRanks

namespace Init

/-- The labels of `dpa_a2a_init`, from the last one up. -/
def destroyDpa : A2aM Unit := do
  destroy .docaDpa
  destroy .docaDevice

def destroyEvents : A2aM Unit := do
  free .lpExportData
  free .lpExportSizes
  free .kernelEventsHandle
  forRanks numRanks fun i => do
    handles (Table.use [.kernelEvents])
    destroy (.kernelEvent i)
  free .kernelEvents
  destroy .compEvent
  destroyDpa

def destroyRdmas : A2aM Unit := do
  dpaMemFree .devptrRdmas
  forRanks numRanks destroyRdma
  free .rdmas
  destroyEvents numRanks

end Init

/-- The communicator of a process. -/
structure Comm where
  size : Nat
  rank : Fin size

/-- The two devices are divided on the processes equally. -/
def deviceName (comm : Comm) : List Char :=
  if comm.size ≤ 2 * comm.rank then drv.device2Name else drv.device1Name

def dpaA2aInit (comm : Comm) : A2aM Unit := do
  createDpaContext drv (deviceName drv comm)
  orElse (createDpaA2aEvents drv comm.size) Init.destroyDpa
  orElse (prepareDpaA2aRdmas drv comm.size) (Init.destroyEvents comm.size)
  orElse (prepareDpaA2aMemory drv comm.size) (Init.destroyRdmas comm.size)

/-- `struct dpa_a2a_request`: whether its pointer is set, and the block it points to. -/
structure Request extends Resources where
  resources : Bool

def Request.initial : Request := { Table.empty with pointers := fun _ => false, resources := false }

abbrev RequestM := EStateM DocaError Request

/-- A call that is given the resources of the request. -/
def onResources (x : A2aM Unit) : RequestM Unit := fun s =>
  match x s.toResources with
  | .ok () t => .ok () { s with toResources := t }
  | .error err t => .error err { s with toResources := t }

/-- Two fields of the new block are read before they are set. -/
def allocResources : RequestM Unit := do
  onResources do
    acquire drv .resources [] .noMemory
    setPointer .docaDevice drv.staleDevice
    setPointer .rpExportData drv.staleExportData
  modify fun s => { s with resources := true }

/-- After a failure the block is freed, and the pointer to it kept. -/
def initRequest (comm : Comm) : RequestM Unit := do
  allocResources drv
  onResources (orElse (dpaA2aInit drv comm) (destroy .resources))

def kernelLaunch : A2aM Unit :=
  call drv .kernelLaunch [.resources, .docaDpa, .compEvent, .devptrRdmas, .sendbufBufArr,
    .devptrRecvbufs, .devptrKernelEventsHandle, .devptrRpKernelEvents] .driver

def dpaIalltoall (comm : Option Comm) : RequestM Unit := do
  match comm with
  | none => return
  | some comm =>
    if !(← get).resources then initRequest drv comm
    onResources (kernelLaunch drv)

end DocaApps.DpaAllToAll.Setup
