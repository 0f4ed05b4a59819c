import DocaApps.Common.FlowParser

namespace DocaApps.Common.FwdFields
open Common.FlowParser

/-- A queue number is written in the array, unless its place is outside it. -/
def storeQueue (rssQueues : List (BitVec 16)) (i : Int) (queue : Int) :
    Option (List (BitVec 16)) :=
  if 0 ≤ i ∧ i < rssQueues.length then some (rssQueues.set i.toNat (BitVec.ofInt 16 queue))
  else none

/-- The loop over the queues but the last: the text moves on by two characters with each. -/
def rssQueuesLoop : Nat → Nat → Cursor → List (BitVec 16) → Option (Cursor × List (BitVec 16))
  | 0, _, rssQueuesStr, rssQueues => some (rssQueuesStr, rssQueues)
  | left + 1, i, rssQueuesStr, rssQueues => do
    let (queue, _) ← strtolAt rssQueuesStr 0
    let rssQueues ← storeQueue rssQueues i queue
    rssQueuesLoop left (i + 1) rssQueuesStr.next.next rssQueues

/-- `sizeof(uint16_t) * num_of_queues`, as the allocation is asked for it. -/
def rssQueuesSize (numOfQueues : Int) : Nat := (2 * numOfQueues % 2 ^ 64).toNat

/-- The array of the queues, where there is memory for it; nothing when the text is read behind
its end or the array written outside it. -/
def parseRssQueues (allocates : Nat → Bool) (rssQueuesStr : List Char) (numOfQueues : Int) :
    Option (Except DocaError (List (BitVec 16))) :=
  if allocates (rssQueuesSize numOfQueues) then do
    let rssQueues := List.replicate (rssQueuesSize numOfQueues / 2) 0
    let (rssQueuesStr, rssQueues) ←
      rssQueuesLoop (numOfQueues - 1).toNat 0 (some rssQueuesStr) rssQueues
    let (queue, _) ← strtolAt rssQueuesStr 0
    let rssQueues ← storeQueue rssQueues (numOfQueues - 1) queue
    return .ok rssQueues
  else some (.error .noMemory)

end DocaApps.Common.FwdFields
