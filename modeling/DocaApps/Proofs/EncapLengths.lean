import DocaApps.Proofs.SequenceNumbers

namespace DocaApps.Proofs.EncapLengths
open Common.Pack Lib.Overwrite Lib.Command Ipsec.Rules Ipsec.Encap Ipsec.MbufChain
open Ipsec.PacketEncap Proofs.MbufChain Proofs.PacketParts Proofs.PacketChain
open Proofs.PacketRoundTrip Proofs.PacketPrepared Proofs.SequenceNumbers

variable {lib : MbufLib} {m m' : Mbuf} {rule rule' : EncryptRule} {mode : Mode}
  {k n p a nh oh l v : Nat} {b : List Byte} {next q : Byte} {first s : Segment}
  {rest front : List Segment}

end DocaApps.Proofs.EncapLengths
