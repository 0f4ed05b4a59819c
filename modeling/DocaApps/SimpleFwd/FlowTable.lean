import DocaApps.Doca

namespace DocaApps.SimpleFwd.FlowTable

inductive TunType where
  | none | vxlan | gtpu | gre
  deriving DecidableEq, Repr

def TunType.toByte : TunType → BitVec 8
  | .none => 0
  | .vxlan => 1
  | .gtpu => 2
  | .gre => 3

/-- The headers of one level of a packet, as far as the flow table reads them. -/
structure PktFormat where
  l3Type : BitVec 8
  l4Type : BitVec 8
  srcAddr : BitVec 32
  dstAddr : BitVec 32
  srcPort : BitVec 16
  dstPort : BitVec 16
  deriving DecidableEq, Repr

/-- A parsed packet. `vni` is the first word of the tunnel's union. -/
structure PktInfo where
  origPortId : BitVec 16
  pipeQueue : BitVec 16
  rssHash : UInt32
  outer : PktFormat
  tunType : TunType
  vni : BitVec 32
  inner : PktFormat
  deriving DecidableEq, Repr

def ipv4 : BitVec 8 := 4
def docaProtoTcp : BitVec 8 := 6
def docaProtoUdp : BitVec 8 := 17
def docaProtoGre : BitVec 8 := 47

def pinfoSrcPort (fmt : PktFormat) : BitVec 16 :=
  if fmt.l4Type = docaProtoTcp then fmt.srcPort
  else if fmt.l4Type = docaProtoUdp then fmt.srcPort
  else 0

def pinfoDstPort (fmt : PktFormat) : BitVec 16 :=
  if fmt.l4Type = docaProtoTcp then fmt.dstPort
  else if fmt.l4Type = docaProtoUdp then fmt.dstPort
  else 0

/-- The key of an entry; its four padding bytes are zero. -/
structure Key where
  ipv41 : BitVec 32
  ipv42 : BitVec 32
  port1 : BitVec 16
  port2 : BitVec 16
  vni : BitVec 32
  protocol : BitVec 8
  tunType : BitVec 8
  portId : BitVec 16
  rssHash : UInt32
  deriving DecidableEq, Repr

def keyFill (pinfo : PktInfo) : Option Key :=
  if pinfo.outer.l3Type ≠ ipv4 then none
  else
    let inner := pinfo.tunType ≠ .none
    let fmt := if inner then pinfo.inner else pinfo.outer
    some {
      ipv41 := fmt.srcAddr
      ipv42 := fmt.dstAddr
      port1 := pinfoSrcPort fmt
      port2 := pinfoDstPort fmt
      vni := if inner then pinfo.vni else 0
      protocol := fmt.l4Type
      tunType := if inner then pinfo.tunType.toByte else 0
      portId := pinfo.origPortId
      rssHash := pinfo.rssHash }

/-- The first 24 bytes of a key, as three words. -/
abbrev Words := BitVec 64 × BitVec 64 × BitVec 64

def Key.words (k : Key) : Words :=
  (k.ipv42 ++ k.ipv41, k.vni ++ (k.port2 ++ k.port1),
    (0 : BitVec 32) ++ (k.portId ++ (k.tunType ++ k.protocol)))

def keyEqual (k1 k2 : Key) : Bool :=
  let res := k1.words.1 ^^^ k2.words.1
  let res := res ||| (k1.words.2.1 ^^^ k2.words.2.1)
  let res := res ||| (k1.words.2.2 ^^^ k2.words.2.2)
  res == 0

/-- An entry at its address, with the user data the application keeps in it. -/
structure FtEntry where
  addr : Nat
  key : Key
  expiration : UInt64
  ageSec : UInt32
  lastCounter : UInt64
  bucketsIndex : UInt16
  fid : UInt32
  isHw : Bool
  totalPkts : UInt64
  pipeQueue : BitVec 16
  hwEntry : Option UInt64
  deriving DecidableEq, Repr

/-- What has been done to the table: an entry was added or removed. -/
inductive Change where
  | added (key : Key) (addr : Nat)
  | removed (key : Key) (addr : Nat)
  deriving DecidableEq, Repr

/-- The flow table, with a record of its changes. -/
structure Ft where
  size : UInt32
  mask : UInt32
  add : UInt64
  rm : UInt64
  fidCtr : UInt32
  buckets : UInt32 → List FtEntry
  nextAddr : Nat
  history : List Change

/-- The time stamp counter and its frequency, when a call reads them. -/
structure Clock where
  rdtsc : UInt64
  hz : UInt64
  deriving DecidableEq, Repr

def updateExpiration (e : FtEntry) (clock : Clock) : FtEntry :=
  if e.ageSec ≠ 0 then { e with expiration := clock.rdtsc + clock.hz * e.ageSec.toUInt64 }
  else e

def isPowerOf2 (n : UInt32) : Bool := n != 0 && n &&& (n - 1) == 0

def align32pow2 (n : UInt32) : UInt32 :=
  let n := n - 1
  let n := n ||| (n >>> 1)
  let n := n ||| (n >>> 2)
  let n := n ||| (n >>> 4)
  let n := n ||| (n >>> 8)
  let n := n ||| (n >>> 16)
  n + 1

/-- `allocated` tells whether the memory for the table is there. -/
def simpleFwdFtCreate (nbFlows : Int) (allocated : Bool) : Option Ft :=
  if nbFlows ≤ 0 then none
  else
    let n := UInt32.ofNat nbFlows.toNat
    let aligned := if isPowerOf2 n then n else align32pow2 n
    let aligned := aligned <<< 1
    if allocated then some ⟨aligned, aligned - 1, 0, 0, 0, fun _ => [], 0, []⟩
    else none

variable (ft : Ft)

/-- The walk over a bucket: the first node with the key is returned, with its
expiration moved on. -/
def findNode (key : Key) (clock : Clock) : List FtEntry → Option Nat × List FtEntry
  | [] => (none, [])
  | node :: rest =>
    if keyEqual node.key key then (some node.addr, updateExpiration node clock :: rest)
    else
      let r := findNode key clock rest
      (r.1, node :: r.2)

def setBucket (idx : UInt32) (nodes : List FtEntry) : Ft :=
  { ft with buckets := Function.update ft.buckets idx nodes }

def simpleFwdFtFind (pinfo : PktInfo) (clock : Clock) : Except DocaError Nat × Ft :=
  match keyFill pinfo with
  | none => (.error .unexpected, ft)
  | some key =>
    let idx := key.rssHash &&& ft.mask
    let r := findNode key clock (ft.buckets idx)
    match r.1 with
    | none => (.error .notFound, setBucket ft idx r.2)
    | some ctx => (.ok ctx, setBucket ft idx r.2)

def simpleFwdFtAddNew (pinfo : PktInfo) (clock : Clock) (allocated : Bool) :
    Except DocaError Nat × Ft :=
  match keyFill pinfo with
  | none => (.error .unexpected, ft)
  | some key =>
    if !allocated then (.error .noMemory, ft)
    else
      let idx := pinfo.rssHash &&& ft.mask
      let new : FtEntry := updateExpiration
        ⟨ft.nextAddr, key, 0, 0, 0, idx.toUInt16, ft.fidCtr, false, 0, 0, none⟩ clock
      let ft := setBucket ft idx (new :: ft.buckets idx)
      (.ok new.addr, { ft with
        fidCtr := ft.fidCtr + 1
        add := ft.add + 1
        nextAddr := ft.nextAddr + 1
        history := ft.history ++ [.added key new.addr] })

/-- Taking the node at this address out of the list it is in. -/
def destroyEntry (idx : UInt32) (addr : Nat) : Ft :=
  match (ft.buckets idx).find? (fun e => e.addr == addr) with
  | none => ft
  | some e =>
    let ft := setBucket ft idx ((ft.buckets idx).eraseP fun e => e.addr == addr)
    { ft with rm := ft.rm + 1, history := ft.history ++ [.removed e.key addr] }

/-- A change to the node at this address of a bucket. -/
def updateEntry (idx : UInt32) (addr : Nat) (f : FtEntry → FtEntry) : Ft :=
  setBucket ft idx ((ft.buckets idx).map fun e => if e.addr = addr then f e else e)

/-- What the steps of handling a packet that can fail give: the memory of a new entry,
and the hardware entry with its aging time. -/
structure Offload where
  allocated : Bool
  hwEntry : Option UInt64
  ageSec : UInt32
  deriving DecidableEq, Repr

def simpleFwdHandleNewFlow (pinfo : PktInfo) (clock : Clock) (offload : Offload) :
    Option Nat × Ft :=
  match simpleFwdFtAddNew ft pinfo clock offload.allocated with
  | (.error _, ft) => (none, ft)
  | (.ok ctx, ft) =>
    let idx := pinfo.rssHash &&& ft.mask
    let ft := updateEntry ft idx ctx fun e =>
      { e with pipeQueue := pinfo.pipeQueue, hwEntry := offload.hwEntry }
    match offload.hwEntry with
    | none => (none, destroyEntry ft idx ctx)
    | some _ =>
      (some ctx, updateEntry ft idx ctx fun e =>
        { updateExpiration { e with ageSec := offload.ageSec } clock with isHw := true })

def needNewFt (pinfo : PktInfo) : Bool :=
  if pinfo.outer.l3Type ≠ ipv4 then false
  else pinfo.outer.l4Type = docaProtoTcp ∨ pinfo.outer.l4Type = docaProtoUdp ∨
    pinfo.outer.l4Type = docaProtoGre

def countPacket (idx : UInt32) (ctx : Nat) : Ft :=
  updateEntry ft idx ctx fun e => { e with totalPkts := e.totalPkts + 1 }

def simpleFwdHandlePacket (pinfo : PktInfo) (clock : Clock) (offload : Offload) : Ft :=
  if !needNewFt pinfo then ft
  else
    match simpleFwdFtFind ft pinfo clock with
    | (.ok ctx, ft) => countPacket ft (pinfo.rssHash &&& ft.mask) ctx
    | (.error _, ft) =>
      match simpleFwdHandleNewFlow ft pinfo clock offload with
      | (none, ft) => ft
      | (some ctx, ft) => countPacket ft (pinfo.rssHash &&& ft.mask) ctx

/-- The packets a hardware entry has counted, when the query succeeds. -/
abbrev Query := Nat → Option UInt64

/-- The walk of the aging sweep over a bucket, that stops at the first node it removes. -/
def agingNodes (t : UInt64) (query : Query) : List FtEntry → Option FtEntry × List FtEntry
  | [] => (none, [])
  | node :: rest =>
    let skip (node : FtEntry) : Option FtEntry × List FtEntry :=
      let r := agingNodes t query rest
      (r.1, node :: r.2)
    if node.ageSec ≠ 0 ∧ node.expiration < t then
      match query node.addr with
      | none => (some node, rest)
      | some total =>
        if total - node.lastCounter ≠ 0 then skip { node with lastCounter := total }
        else (some node, rest)
    else skip node

/-- One call of `simple_fwd_ft_aging_ft_entry`; without the lock it does nothing. -/
def agingFtEntry (idx : UInt32) (t : UInt64) (query : Query) (locked : Bool) : Ft :=
  if !locked then ft
  else
    let r := agingNodes t query (ft.buckets idx)
    let ft := setBucket ft idx r.2
    match r.1 with
    | none => ft
    | some e => { ft with rm := ft.rm + 1, history := ft.history ++ [.removed e.key e.addr] }

inductive Event where
  | packet (pinfo : PktInfo) (clock : Clock) (offload : Offload)
  | destroy (idx : UInt32) (addr : Nat)
  | aging (idx : UInt32) (t : UInt64) (query : Query) (locked : Bool)

def step (ft : Ft) : Event → Ft
  | .packet pinfo clock offload => simpleFwdHandlePacket ft pinfo clock offload
  | .destroy idx addr => destroyEntry ft idx addr
  | .aging idx t query locked => agingFtEntry ft idx t query locked

end DocaApps.SimpleFwd.FlowTable

namespace DocaApps.SimpleFwd.TableSize
open FlowTable

/-- The sizes of the table without its buckets, of a bucket and of an entry, paddings included. -/
def sizeofFt : Nat := 80
def sizeofBucket : Nat := 16
/-- `alloc_size` for a number of buckets. -/
def allocSize (nbFlowsAligned : UInt32) : UInt32 :=
  UInt32.ofNat (sizeofFt + sizeofBucket * nbFlowsAligned.toNat)

/-- A table, with the sizes it was created with. -/
structure Created where
  ft : Ft
  allocSize : UInt32
  userDataSize : UInt32
  entrySize : UInt32

/-- `simple_fwd_ft_destroy_entry` for an entry in the list of a bucket: the index of the bucket
that is locked, and the table afterwards. -/
def simpleFwdFtDestroyEntry (ft : Ft) (i : UInt32) (ftEntry : FtEntry) : UInt32 × Ft :=
  (ftEntry.bucketsIndex.toUInt32, destroyEntry ft i ftEntry.addr)

end DocaApps.SimpleFwd.TableSize

namespace DocaApps.SimpleFwd.Aging
open FlowTable

/-- What a call of `simple_fwd_ft_aging_ft_entry` meets: its time stamp, and whether the lock
of the bucket is free. -/
structure Sweep where
  t : UInt64
  locked : Bool
  deriving DecidableEq, Repr

variable (query : Query)

/-- What the call returns. -/
def stillAging (ft : Ft) (idx : UInt32) (sweep : Sweep) : Bool :=
  sweep.locked && (agingNodes sweep.t query (ft.buckets idx)).1.isSome

/-- The calls for one bucket, until one returns false. -/
def agingBucket (idx : UInt32) : Nat → (Nat → Sweep) → Ft → Option Ft
  | 0, _, _ => none
  | fuel + 1, calls, ft =>
    let next := stillAging query ft idx (calls 0)
    let ft := agingFtEntry ft idx (calls 0).t query (calls 0).locked
    if next then agingBucket idx fuel (fun k => calls (k + 1)) ft else some ft

def Ft.indices (ft : Ft) : List UInt32 := (List.range ft.size.toNat).map UInt32.ofNat

/-- The test that `simple_fwd_ft_aging_main` begins a round with: the `int` difference. -/
def noEntries (ft : Ft) : Bool := (ft.add - ft.rm).toUInt32 == 0

/-- One round of `simple_fwd_ft_aging_main`. -/
def agingMain (fuel : Nat) (calls : UInt32 → Nat → Sweep) (ft : Ft) : Option Ft :=
  if noEntries ft then some ft
  else (Ft.indices ft).foldlM (fun ft i => agingBucket query i fuel (calls i) ft) ft

end DocaApps.SimpleFwd.Aging
