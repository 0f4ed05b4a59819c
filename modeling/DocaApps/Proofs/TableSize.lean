import DocaApps.SimpleFwd.FlowTable
import DocaApps.Proofs.FlowTable
import DocaApps.Lib.PowersOfTwo

namespace DocaApps.Proofs.TableSize
open SimpleFwd.FlowTable SimpleFwd.TableSize Lib.Runs Lib.PowersOfTwo

variable {ft ft' : Ft} {i m : UInt32} {nodes : List FtEntry} {e : FtEntry}

/-- The number of flows, rounded up as the creation does it. -/
def aligned (n : UInt32) : UInt32 := if isPowerOf2 n then n else align32pow2 n

/-- The tables that a call sees: between two events, and between the addition of a flow and what
is done with it. -/
inductive Seen (ft : Ft) : Ft → Prop where
  | run (events : List Event) : Seen ft (run step ft events)
  | added (events : List Event) (pinfo : PktInfo) (clock : Clock) (allocated : Bool) :
      Seen ft (simpleFwdFtAddNew (run step ft events) pinfo clock allocated).2

/-- The sizes of a table fit the flows it is for, and each entry of it knows its bucket. -/
structure Sized (nbFlows : Int) (c : Created) : Prop where
  power : ∃ k, c.ft.size.toNat = 2 ^ k
  double : 2 * nbFlows ≤ c.ft.size.toNat
  mask : c.ft.mask = c.ft.size - 1
  covers : c.allocSize.toNat = sizeofFt + sizeofBucket * c.ft.size.toNat
  below : ∀ hash : UInt32, hash &&& c.ft.mask < c.ft.size
  indexed : ∀ ft, Seen c.ft ft → ∀ i, ∀ e ∈ ft.buckets i, e.bucketsIndex.toUInt32 = i
  locks : ∀ ft, Seen c.ft ft → ∀ i, ∀ e ∈ ft.buckets i, ∀ j,
    (simpleFwdFtDestroyEntry ft i e).2.buckets j ≠ ft.buckets j →
    (simpleFwdFtDestroyEntry ft i e).1 = j

end DocaApps.Proofs.TableSize
