import DocaApps.Common.FlowParser
import DocaApps.Lib.CStrings

namespace DocaApps.Allreduce.Addresses
open Common.FlowParser Lib.CStrings

/-- The size of `ip_address_str`. -/
def ipAddressStrLen : Nat := 64

structure AllreduceAddress where
  ipAddressStr : List Char
  port : BitVec 16
  deriving DecidableEq, Repr

/-- The list of addresses with its length. -/
structure DestAddresses where
  list : List AllreduceAddress
  num : Nat
  deriving DecidableEq, Repr

def DestAddresses.insertTail (d : DestAddresses) (address : AllreduceAddress) : DestAddresses :=
  ⟨d.list ++ [address], d.num + 1⟩

/-- How the initialization ends: with the list, with an error, or in a write behind the buffer
of an IP address. -/
inductive Init where
  | success (dest : DestAddresses)
  | error (e : DocaError)
  | overrun
  deriving DecidableEq, Repr

/-- One element of the list, where it fits. -/
def parseElement (destPort : BitVec 16) (str : List Char) : Option AllreduceAddress :=
  match afterChar str ':' with
  | none => some ⟨str.take (ipAddressStrLen - 1), destPort⟩
  | some port =>
    let ipAddr := str.takeWhile (· ≠ ':')
    if ipAddr.length < ipAddressStrLen then some ⟨ipAddr, BitVec.ofInt 16 (atoi port)⟩ else none

/-- `malloc n` tells whether the allocation of the address after `n` others succeeds. -/
def initFrom (malloc : Nat → Bool) (destPort : BitVec 16) :
    List (List Char) → DestAddresses → Init
  | [], dest => .success dest
  | str :: strs, dest =>
    if malloc dest.num then
      match parseElement destPort str with
      | some address => initFrom malloc destPort strs (dest.insertTail address)
      | none => .overrun
    else .error .noMemory

def destAddressesInit (malloc : Nat → Bool) (destPort : BitVec 16) (destAddressesStr : List Char) :
    Init :=
  initFrom malloc destPort (tokens destAddressesStr ',') ⟨[], 0⟩

end DocaApps.Allreduce.Addresses
