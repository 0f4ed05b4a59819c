import DocaApps.Proofs.PacketParts

namespace DocaApps.Proofs.PacketRoundTrip
open Common.Pack Lib.Overwrite Lib.Command Ipsec.Rules Ipsec.Encap Ipsec.MbufChain
open Ipsec.PacketEncap Ipsec.PacketDecap Proofs.MbufChain Proofs.PacketParts

/-- The bytes put between the headers and the payload in transport mode. -/
def transportEncap (udpTransport : Bool) (rule : EncryptRule) (swSnInc : Bool) : List Byte :=
  if udpTransport = true then createUdpTransportEncap rule swSnInc
  else createTransportEncap rule swSnInc

def transportProtocol (udpTransport : Bool) : Byte :=
  if udpTransport = true then ipprotoUdp else ipprotoEsp

theorem length_transportEncap (udpTransport : Bool) (rule : EncryptRule) (swSnInc : Bool) :
    (transportEncap udpTransport rule swSnInc).length =
      if udpTransport = true then 24 else 16 := by
  cases udpTransport <;> cases swSnInc <;> rfl

theorem icv_le (icv : IcvLength) : 8 ≤ icv.bytes := by
  cases icv <;> decide

variable {lib : MbufLib} {buf h e header payload tail t : List Byte} {off len : Nat}
  {packetType : BitVec 32} {rule : EncryptRule} {swSnInc udpTransport : Bool}

/-- The trailer of a packet: padding, tail and the bytes left for the ICV. -/
def trailer (payloadLen : Nat) (next : Byte) (icv : List Byte) : List Byte :=
  padBytes (padLenOf payloadLen) ++ [BitVec.ofNat 8 (padLenOf payloadLen), next] ++ icv

/-- The headers moved to the new start of the packet, over the bytes prepended. -/
theorem moveHeader_single : memmove 0 h.length (h.length + e.length) header.length
      (single (h ++ e ++ header ++ t) off len packetType) =
        .ok () (single (h ++ header ++ (e ++ header).drop header.length ++ t) off len
          packetType) := by
  have hsplit : h ++ e ++ header ++ t =
      h ++ (e ++ header).take header.length ++ ((e ++ header).drop header.length ++ t) := by
    rw [List.append_assoc h (List.take _ _), ← List.append_assoc (List.take _ _),
      List.take_append_drop]
    simp only [List.append_assoc]
  have hload : load 0 (h.length + e.length) header.length
      (single (h ++ e ++ header ++ t) off len packetType) =
        .ok header (single (h ++ e ++ header ++ t) off len packetType) :=
    load_middle List.length_append rfl
  have htake : ((e ++ header).take header.length).length = header.length := by
    rw [List.length_take, List.length_append]
    omega
  rw [memmove, run_bind hload, hsplit, store_middle rfl htake]
  simp only [List.append_assoc]

theorem preparePacketTransport_single (hlib : lib.Documented)
    (hbuf : buf = h ++ e ++ header ++ payload ++ tail ++ t) (hoff : off = h.length + e.length)
    (he : e.length = if udpTransport = true then 24 else 16) (hroom : off + len ≤ buf.length)
    (hlt : buf.length < 2 ^ 16) (hframe : IpFrame packetType (slice buf off len))
    (hheader : header.length = 14 + ipHdrLen packetType (slice buf off len))
    (hpayload : header.length + payload.length = 14 + ipLen packetType (slice buf off len))
    (htail : tail.length = padLenOf payload.length + 2 + rule.saAttrs.icvLength.bytes) :
    preparePacketTransport lib swSnInc rule udpTransport (single buf off len packetType) =
      .ok { rule with currentSn := rule.currentSn + 1 }
        (single (h ++ (rewriteHeader packetType header (transportProtocol udpTransport)
            (header.length + payload.length + e.length + tail.length - 14) ++
          transportEncap udpTransport rule swSnInc ++ payload ++
          trailer payload.length (header.getD (protoOfs packetType) 0)
            (tail.drop (padLenOf payload.length + 2))) ++ t)
          h.length (header.length + payload.length + e.length + tail.length) packetType) := by
  have hshort := hframe.ihl
  have hlen : buf.length = h.length + e.length + header.length + payload.length + tail.length +
      t.length := by
    rw [hbuf]
    simp only [List.length_append]
  have hslice : (slice buf off len).length = len := length_slice hroom
  have hlen34 := hframe.le_length
  rw [hslice] at hlen34
  have hhdr : ipHdrLen packetType (buf.drop off) = ipHdrLen packetType (slice buf off len) :=
    (ipHdrLen_take (by omega)).symm
  have hsub : sub32 (14 + ipLen packetType (slice buf off len))
      (ipHdrLen packetType (slice buf off len) + 14) = payload.length := by
    unfold sub32
    omega
  have hwrap : wrap32 (padLenOf payload.length + 2 + rule.saAttrs.icvLength.bytes) =
      tail.length := by
    rw [← htail]
    exact Nat.mod_eq_of_lt (by omega)
  have hstart : off - e.length = h.length := by omega
  have hencapLen := length_transportEncap udpTransport rule swSnInc
  have he16 : 16 ≤ e.length := by
    rw [he]
    split <;> omega
  have hicv := icv_le rule.saAttrs.icvLength
  have hassoc : h ++ e ++ header ++ payload ++ tail ++ t =
      h ++ e ++ header ++ (payload ++ tail ++ t) := by
    simp only [List.append_assoc]
  have hassoc1 : h ++ header ++ transportEncap udpTransport rule swSnInc ++
      (payload ++ tail ++ t) =
        h ++ header ++ (transportEncap udpTransport rule swSnInc ++ (payload ++ tail ++ t)) := by
    simp only [List.append_assoc]
  have hassoc2 : ∀ header' : List Byte,
      h ++ header' ++ (transportEncap udpTransport rule swSnInc ++ (payload ++ tail ++ t)) =
        (h ++ header' ++ transportEncap udpTransport rule swSnInc ++ payload) ++ tail ++ t := by
    intro header'
    simp only [List.append_assoc]
  have hpos : ∀ proto total, (h ++ rewriteHeader packetType header proto total ++
      transportEncap udpTransport rule swSnInc ++ payload).length =
        h.length + (header.length + payload.length + e.length) := by
    intro proto total
    simp only [List.length_append, hencapLen, length_rewriteHeader (by omega : 34 ≤ header.length),
      ← he]
    omega
  have hdrop : ((e ++ header).drop header.length).length =
      (transportEncap udpTransport rule swSnInc).length := by
    rw [List.length_drop, List.length_append, hencapLen]
    omega
  rw [preparePacketTransport]
  dsimp only
  rw [show (if udpTransport = true then createUdpTransportEncap rule swSnInc
    else createTransportEncap rule swSnInc) = transportEncap udpTransport rule swSnInc from rfl]
  rw [run_bind (removeTrailingZeros_single hlib hroom (by omega) hframe), run_bind mtod_single,
    run_bind (l3Len_single (by omega)), run_bind pktLenNow_single, hhdr, ← he,
    run_bind (prepend_single hlib (by omega) (by omega))]
  rw [hstart, show etherHdrLen = 14 from rfl, hsub, paddingLen_eq (by omega), hwrap,
    run_bind (appendTail_single (by omega))]
  dsimp only
  rw [Nat.add_comm _ 14, ← hheader, ← hpayload, hoff, hbuf, hassoc, run_bind moveHeader_single,
    run_bind (store_middle List.length_append hdrop), hassoc1,
    run_bind (replaceProtocol_single rfl (by omega) (by omega) (by omega) hframe.version),
    hassoc2, run_bind (writeTrailer_single (hpos _ _) (by omega))]
  simp only [trailer, List.append_assoc]
  rfl

theorem length_trailer (payloadLen : Nat) (next : Byte) (icv : List Byte) :
    (trailer payloadLen next icv).length = padLenOf payloadLen + 2 + icv.length := by
  simp only [trailer, List.length_append, length_padBytes, List.length_cons, List.length_nil]

theorem padLenOf_lt (payloadLen : Nat) : padLenOf payloadLen < 4 := by
  unfold padLenOf
  omega

theorem ipHdrLen_append {rest : List Byte} (hh : 14 < header.length) :
    ipHdrLen packetType (header ++ rest) = ipHdrLen packetType header := by
  rw [← ipHdrLen_take hh, List.take_left]

theorem ipLen_append {rest : List Byte} (hh : 20 ≤ header.length) :
    ipLen packetType (header ++ rest) = ipLen packetType header := by
  rw [← ipLen_take hh, List.take_left]

/-- A received packet of which the last bytes are a trailer: the trailer goes, and the
headers are where they were. -/
theorem removeTrailer_single (hlib : lib.Documented) {icv : List Byte} {payloadLen : Nat}
    {next : Byte} (hbuf : buf = h ++ (header ++ payload ++ trailer payloadLen next icv) ++ t)
    (hlen : len = header.length + payload.length + (padLenOf payloadLen + 2 + icv.length))
    (hlt : buf.length < 2 ^ 16) (hheader : 34 ≤ header.length)
    (hversion : isIpv4Hdr packetType = true ∨ isIpv6Hdr packetType = true)
    (hihl : 20 ≤ ipHdrLen packetType header) (hfits : 14 + ipHdrLen packetType header ≤ len)
    (hexact : 14 + ipLen packetType header = len) :
    removePacketTail lib icv.length (single buf h.length len packetType) =
      .ok next (single buf h.length (header.length + payload.length) packetType) := by
  have hframe : slice buf h.length len = header ++ (payload ++ trailer payloadLen next icv) := by
    rw [hbuf, slice_middle rfl, List.append_assoc]
    rw [List.length_append, List.length_append, length_trailer, hlen]
  have hbuf' : buf = h ++ ((header ++ payload) ++ padBytes (padLenOf payloadLen) ++
      [BitVec.ofNat 8 (padBytes (padLenOf payloadLen)).length, next] ++ icv) ++ t := by
    rw [hbuf, length_padBytes, trailer]
    simp only [List.append_assoc]
  have hpad := padLenOf_lt payloadLen
  have hroom : len < 2 ^ 16 := by
    rw [hbuf] at hlt
    simp only [List.length_append, length_trailer] at hlt
    omega
  rw [← List.length_append]
  refine removePacketTail_single hlib hbuf' rfl ?_ ?_ hroom ?_ ?_
  · rw [List.length_append, length_padBytes, hlen]
    omega
  · rw [length_padBytes]
    omega
  · rw [hframe]
    refine ⟨hversion, ?_, ?_, ?_⟩
    · rwa [ipHdrLen_append (by omega)]
    · rw [ipHdrLen_append (by omega), ipLen_append (by omega)]
      omega
    · rw [ipLen_append (by omega), ← hframe, length_slice, hexact]
      rw [hbuf]
      simp only [List.length_append, length_trailer]
      omega
  · rw [hframe, ipLen_append (by omega), hexact]

theorem decapPacketTransport_single (hlib : lib.Documented) {encapData icv : List Byte}
    {proto : Byte}
    (hbuf : buf = h ++ (rewriteHeader packetType header proto (len - 14) ++ encapData ++ payload ++
      trailer payload.length (header.getD (protoOfs packetType) 0) icv) ++ t)
    (hencap : encapData.length = if udpTransport = true then 24 else 16)
    (hlen : len = header.length + payload.length + encapData.length +
      (padLenOf payload.length + 2 + icv.length))
    (hlt : buf.length < 2 ^ 16)
    (hversion : isIpv4Hdr packetType = true ∨ isIpv6Hdr packetType = true)
    (hihl : 20 ≤ ipHdrLen packetType header)
    (hheader : header.length = 14 + ipHdrLen packetType header)
    (hpayload : header.length + payload.length = 14 + ipLen packetType header) :
    ∃ buf', decapPacketTransport lib icv.length udpTransport
        (single buf h.length len packetType) =
          .ok () (single buf' (h.length + encapData.length) (header.length + payload.length)
            packetType) ∧
      slice buf' (h.length + encapData.length) (header.length + payload.length) =
        header ++ payload := by
  have hbase : lengthBase packetType ≤ ipHdrLen packetType header := by
    unfold lengthBase ipHdrLen
    split <;> omega
  have hsize : buf.length = h.length + len + t.length := by
    rw [hbuf]
    simp only [List.length_append, length_trailer,
      length_rewriteHeader (by omega : 34 ≤ header.length)]
    omega
  have hlenL : (rewriteHeader packetType header proto (len - 14)).length = header.length :=
    length_rewriteHeader (by omega) proto _
  have hipL : ipLen packetType (rewriteHeader packetType header proto (len - 14)) = len - 14 :=
    ipLen_rewriteHeader (by omega) proto (by omega) (by omega)
  have hhdrL : ipHdrLen packetType (rewriteHeader packetType header proto (len - 14)) =
      ipHdrLen packetType header := ipHdrLen_rewriteHeader (by omega) proto _
  have htail : removePacketTail lib icv.length (single buf h.length len packetType) =
      .ok (header.getD (protoOfs packetType) 0) (single buf h.length
        ((rewriteHeader packetType header proto (len - 14)).length +
          (encapData ++ payload).length) packetType) := by
    have hparts : buf = h ++ (rewriteHeader packetType header proto (len - 14) ++
        (encapData ++ payload) ++
          trailer payload.length (header.getD (protoOfs packetType) 0) icv) ++ t := by
      rw [hbuf]
      simp only [List.append_assoc]
    refine removeTrailer_single hlib hparts ?_ hlt (by omega) hversion (by omega) (by omega)
      (by omega)
    rw [hlenL, List.length_append]
    omega
  have hl3 : ipHdrLen packetType (buf.drop h.length) = ipHdrLen packetType header := by
    rw [hbuf, List.append_assoc h, List.drop_left, List.append_assoc, List.append_assoc,
      List.append_assoc, ipHdrLen_append (by omega), hhdrL]
  have hadj : (if udpTransport = true then espHdrLen + udpHdrLen + ivLen else espHdrLen + ivLen) =
      encapData.length := by
    rw [hencap]
    rfl
  have hleft : header.length + (encapData ++ payload).length - encapData.length =
      header.length + payload.length := by
    rw [List.length_append]
    omega
  have hback : header.length + payload.length - 14 = ipLen packetType header := by omega
  have hassoc : buf = h ++ rewriteHeader packetType header proto (len - 14) ++
      (encapData ++ payload ++ trailer payload.length (header.getD (protoOfs packetType) 0) icv ++
        t) := by
    rw [hbuf]
    simp only [List.append_assoc]
  generalize htrailer : trailer payload.length (header.getD (protoOfs packetType) 0) icv = tr
    at hassoc
  have hfin : (h ++ header ++ (encapData ++ payload ++ tr ++ t)).length = buf.length := by
    rw [hassoc]
    simp only [List.length_append, hlenL]
  refine ⟨overwrite (h ++ header ++ (encapData ++ payload ++ tr ++ t))
    (h.length + encapData.length) header, ?_, ?_⟩
  · rw [decapPacketTransport, run_bind htail, run_bind mtod_single,
      run_bind (l3Len_single (by omega)), hl3, hlenL, hadj, run_bind (adj_single hlib (by rw [List.length_append]; omega)
      (by rw [List.length_append]; omega)), hleft, hassoc,
      run_bind (restoreProtocol_single rfl (by omega) (by omega) (by omega)), hback,
      rewriteHeader_restore (by omega), show etherHdrLen = 14 from rfl, Nat.add_comm _ 14,
      ← hheader, copyBack_single (by omega) (by omega), slice_middle rfl rfl]
  · have hdrop : (h ++ header ++ (encapData ++ payload ++ tr ++ t)).drop
        (h.length + encapData.length + header.length) = payload ++ (tr ++ t) := by
      have hpos : h.length + encapData.length + header.length =
          (h ++ header ++ encapData).length := by
        simp only [List.length_append]
        omega
      have hparts : h ++ header ++ (encapData ++ payload ++ tr ++ t) =
          (h ++ header ++ encapData) ++ (payload ++ (tr ++ t)) := by
        simp only [List.append_assoc]
      rw [hpos, hparts, List.drop_left]
    rw [overwrite, hdrop, List.append_assoc, ← List.append_assoc header, ← List.append_assoc,
      slice_middle ?_ List.length_append]
    rw [List.length_take]
    omega

/-- The outer headers of a tunnel packet of `total` bytes. -/
def tunnelHeader (rule : EncryptRule) (swSnInc : Bool) (total : Nat) : List Byte :=
  if rule.encapL3Type = .ip4 then
    overwrite (createIpv4TunnelEncap rule swSnInc) 16 (packUint16 (BitVec.ofNat 16 total))
  else
    overwrite (createIpv6TunnelEncap rule swSnInc) 18 (packUint16 (BitVec.ofNat 16 (total - 40)))

/-- The length of the outer IP header. -/
def outerHdrLen (rule : EncryptRule) : Nat := if rule.encapL3Type = .ip4 then 20 else 40

theorem length_createIpv4TunnelEncap : (createIpv4TunnelEncap rule swSnInc).length = 50 := by
  cases swSnInc <;> rfl

theorem length_createIpv6TunnelEncap : (createIpv6TunnelEncap rule swSnInc).length = 70 := by
  cases swSnInc <;> rfl

theorem length_tunnelHeader (total : Nat) :
    (tunnelHeader rule swSnInc total).length = outerHdrLen rule + 30 := by
  unfold tunnelHeader outerHdrLen
  split
  · rw [length_overwrite (by rw [length_createIpv4TunnelEncap, length_packUint16]; omega),
      length_createIpv4TunnelEncap]
  · rw [length_overwrite (by rw [length_createIpv6TunnelEncap, length_packUint16]; omega),
      length_createIpv6TunnelEncap]

theorem writeTunnelHeader_single (he : e.length = outerHdrLen rule + 30) (hlen : 54 ≤ len)
    (hlt : len < 2 ^ 16) :
    writeTunnelHeader rule swSnInc h.length (single (h ++ e ++ t) off len packetType) =
      .ok () (single (h ++ tunnelHeader rule swSnInc (len - 14) ++ t) off len packetType) := by
  have hsub : sub32 len 14 = len - 14 := by
    unfold sub32
    omega
  have hsub6 : sub32 (len - 14) 40 = len - 14 - 40 := by
    unfold sub32
    omega
  unfold outerHdrLen at he
  unfold tunnelHeader
  by_cases h4 : rule.encapL3Type = .ip4
  · rw [if_pos h4] at he ⊢
    have hrun : writeTunnelHeader rule swSnInc h.length (single (h ++ e ++ t) off len packetType) =
        (do
          store 0 h.length (createIpv4TunnelEncap rule swSnInc)
          storeBe16 0 (h.length + 16) (sub32 (← pktLenNow) 14) : PktCmd Unit)
          (single (h ++ e ++ t) off len packetType) := by
      exact congrFun (if_pos h4) _
    rw [hrun, run_bind (store_middle rfl (by rw [length_createIpv4TunnelEncap]; omega)),
      run_bind pktLenNow_single, hsub, storeBe16, store_inside rfl]
    rw [length_createIpv4TunnelEncap, length_packUint16]
    omega
  · rw [if_neg h4] at he ⊢
    have hrun : writeTunnelHeader rule swSnInc h.length (single (h ++ e ++ t) off len packetType) =
        (do
          store 0 h.length (createIpv6TunnelEncap rule swSnInc)
          storeBe16 0 (h.length + 18) (sub32 (sub32 (← pktLenNow) 14) 40) : PktCmd Unit)
          (single (h ++ e ++ t) off len packetType) := by
      exact congrFun (if_neg h4) _
    rw [hrun, run_bind (store_middle rfl (by rw [length_createIpv6TunnelEncap]; omega)),
      run_bind pktLenNow_single, hsub, hsub6, storeBe16, store_inside rfl]
    rw [length_createIpv6TunnelEncap, length_packUint16]
    omega

def tunnelProtocol (rule : EncryptRule) : Byte :=
  if rule.l3Type = .ip4 then ipprotoIpip else ipprotoIpv6

theorem preparePacketTunnel_single (hlib : lib.Documented)
    (hbuf : buf = h ++ e ++ payload ++ tail ++ t) (he : e.length = outerHdrLen rule + 30)
    (hoff : off + 14 = h.length + e.length) (hroom : off + len ≤ buf.length)
    (hlt : buf.length < 2 ^ 16) (hframe : IpFrame packetType (slice buf off len))
    (hpayload : payload.length = ipLen packetType (slice buf off len))
    (htail : tail.length = padLenOf payload.length + 2 + rule.saAttrs.icvLength.bytes) :
    preparePacketTunnel lib swSnInc rule (single buf off len packetType) =
      .ok { rule with currentSn := rule.currentSn + 1 }
        (single (h ++ (tunnelHeader rule swSnInc (e.length + payload.length + tail.length - 14) ++
          payload ++ trailer payload.length (tunnelProtocol rule)
            (tail.drop (padLenOf payload.length + 2))) ++ t)
          h.length (e.length + payload.length + tail.length) packetType) := by
  have hlen : buf.length = h.length + e.length + payload.length + tail.length + t.length := by
    rw [hbuf]
    simp only [List.length_append]
  have hslice : (slice buf off len).length = len := length_slice hroom
  have hlen34 := hframe.le_length
  rw [hslice] at hlen34
  have hfits := hframe.fits
  rw [hslice] at hfits
  have houter : outerHdrLen rule = 20 ∨ outerHdrLen rule = 40 := by
    unfold outerHdrLen
    split
    · exact Or.inl rfl
    · exact Or.inr rfl
  have hicv := icv_le rule.saAttrs.icvLength
  have hdata : (if rule.encapL3Type = .ip4 then 50 else 70) - etherHdrLen =
      outerHdrLen rule + 16 := by
    unfold outerHdrLen etherHdrLen
    split <;> rfl
  have hsub : sub32 (14 + ipLen packetType (slice buf off len)) etherHdrLen = payload.length := by
    unfold sub32 etherHdrLen
    omega
  have hwrap : wrap32 (padLenOf payload.length + 2 + rule.saAttrs.icvLength.bytes) =
      tail.length := by
    rw [← htail]
    exact Nat.mod_eq_of_lt (by omega)
  have hstart : off - (outerHdrLen rule + 16) = h.length := by omega
  have htotal : 14 + ipLen packetType (slice buf off len) + (outerHdrLen rule + 16) =
      e.length + payload.length := by omega
  have hassoc : h ++ e ++ payload ++ tail ++ t = h ++ e ++ (payload ++ tail ++ t) := by
    simp only [List.append_assoc]
  have hassoc1 : ∀ outer : List Byte, h ++ outer ++ (payload ++ tail ++ t) =
      (h ++ outer ++ payload) ++ tail ++ t := by
    intro outer
    simp only [List.append_assoc]
  have hpos : ∀ total, (h ++ tunnelHeader rule swSnInc total ++ payload).length =
      h.length + (e.length + payload.length) := by
    intro total
    simp only [List.length_append, length_tunnelHeader, he]
    omega
  rw [preparePacketTunnel]
  dsimp only
  rw [run_bind (removeTrailingZeros_single hlib hroom (by omega) hframe),
    run_bind pktLenNow_single, hdata, hsub, run_bind (prepend_single hlib (by omega) (by omega)),
    hstart, htotal, paddingLen_eq (by omega), hwrap, run_bind (appendTail_single (by omega))]
  dsimp only
  rw [hbuf, hassoc, run_bind (writeTunnelHeader_single he (by omega) (by omega)), hassoc1,
    run_bind (writeTrailer_single (hpos _) (by omega))]
  simp only [trailer, List.append_assoc]
  rfl

/-- A packet type for the outer header of a tunnel packet. -/
structure OuterType (rule : EncryptRule) (packetType : BitVec 32) : Prop where
  version : isIpv4Hdr packetType = true ∨ isIpv6Hdr packetType = true
  ip4 : isIpv4Hdr packetType = true ↔ rule.encapL3Type = .ip4

theorem OuterType.ipHdrLen (ho : OuterType rule packetType) (total : Nat) :
    ipHdrLen packetType (tunnelHeader rule swSnInc total) = outerHdrLen rule := by
  unfold PacketParts.ipHdrLen outerHdrLen tunnelHeader
  by_cases h4 : rule.encapL3Type = .ip4
  · have hbyte : (overwrite (createIpv4TunnelEncap rule swSnInc) 16
        (packUint16 (BitVec.ofNat 16 total))).getD 14 0 = 0x45#8 := by
      cases swSnInc <;> rfl
    rw [if_pos (ho.ip4.mpr h4), if_pos h4, if_pos h4, hbyte]
    decide
  · rw [if_neg (fun h => h4 (ho.ip4.mp h)), if_neg h4]

theorem OuterType.ipLen (ho : OuterType rule packetType) {total : Nat} (hle : 40 ≤ total)
    (hlt : total < 2 ^ 16) : ipLen packetType (tunnelHeader rule swSnInc total) = total := by
  unfold PacketParts.ipLen tunnelHeader
  by_cases h4 : rule.encapL3Type = .ip4
  · have hfield : slice (overwrite (createIpv4TunnelEncap rule swSnInc) 16
        (packUint16 (BitVec.ofNat 16 total))) 16 2 = packUint16 (BitVec.ofNat 16 total) :=
      slice_overwrite (by rw [length_createIpv4TunnelEncap, length_packUint16]; omega)
    rw [if_pos (ho.ip4.mpr h4), if_pos h4, hfield, be16_pack hlt]
  · have hfield : slice (overwrite (createIpv6TunnelEncap rule swSnInc) 18
        (packUint16 (BitVec.ofNat 16 (total - 40)))) 18 2 =
          packUint16 (BitVec.ofNat 16 (total - 40)) :=
      slice_overwrite (by rw [length_createIpv6TunnelEncap, length_packUint16]; omega)
    rw [if_neg (fun h => h4 (ho.ip4.mp h)), if_neg h4, hfield, be16_pack (by omega)]
    omega

theorem length_etherTypeOf (proto : Byte) : (etherTypeOf proto).length = 2 := by
  unfold etherTypeOf
  split <;> rfl

theorem decapPacketTunnel_single (hlib : lib.Documented) {icv : List Byte} {next : Byte}
    (ho : OuterType rule packetType)
    (hbuf : buf = h ++ (tunnelHeader rule swSnInc (len - 14) ++ payload ++
      trailer payload.length next icv) ++ t)
    (hlen : len = outerHdrLen rule + 30 + payload.length +
      (padLenOf payload.length + 2 + icv.length))
    (hicv : 8 ≤ icv.length) (hpayload : 20 ≤ payload.length) (hlt : buf.length < 2 ^ 16) :
    ∃ buf' l2, decapPacketTunnel lib icv.length (single buf h.length len packetType) =
        .ok () (single buf' (h.length + (outerHdrLen rule + 16)) (14 + payload.length)
          packetType) ∧
      slice buf' (h.length + (outerHdrLen rule + 16)) (14 + payload.length) = l2 ++ payload ∧
      l2.length = 14 ∧ slice l2 12 2 = etherTypeOf next := by
  have houter : outerHdrLen rule = 20 ∨ outerHdrLen rule = 40 := by
    unfold outerHdrLen
    split
    · exact Or.inl rfl
    · exact Or.inr rfl
  have hH : (tunnelHeader rule swSnInc (len - 14)).length = outerHdrLen rule + 30 :=
    length_tunnelHeader _
  have hsize : buf.length = h.length + len + t.length := by
    rw [hbuf]
    simp only [List.length_append, length_trailer, hH]
    omega
  have hip : ipLen packetType (tunnelHeader rule swSnInc (len - 14)) = len - 14 :=
    ho.ipLen (by omega) (by omega)
  have hhdr : ipHdrLen packetType (tunnelHeader rule swSnInc (len - 14)) = outerHdrLen rule :=
    ho.ipHdrLen _
  have htail : removePacketTail lib icv.length (single buf h.length len packetType) =
      .ok next (single buf h.length
        ((tunnelHeader rule swSnInc (len - 14)).length + payload.length) packetType) :=
    removeTrailer_single hlib hbuf (by omega) hlt (by omega) ho.version (by omega) (by omega)
      (by omega)
  have hl3 : ipHdrLen packetType (buf.drop h.length) = outerHdrLen rule := by
    rw [hbuf, List.append_assoc h, List.drop_left, List.append_assoc, List.append_assoc,
      ipHdrLen_append (by omega), hhdr]
  have hleft : (tunnelHeader rule swSnInc (len - 14)).length + payload.length -
      (outerHdrLen rule + 16) = 14 + payload.length := by omega
  generalize tunnelHeader rule swSnInc (len - 14) = outer at *
  generalize trailer payload.length next icv = tr at *
  have hassoc : buf = (h ++ outer.take (outerHdrLen rule + 16)) ++
      outer.drop (outerHdrLen rule + 16) ++ (payload ++ tr ++ t) := by
    rw [hbuf, List.append_assoc h (List.take _ _), List.take_append_drop]
    simp only [List.append_assoc]
  have hstart : (h ++ outer.take (outerHdrLen rule + 16)).length =
      h.length + (outerHdrLen rule + 16) := by
    rw [List.length_append, List.length_take]
    omega
  have hold : (slice buf h.length 14).length = 14 := length_slice (by omega)
  have hdrop : (outer.drop (outerHdrLen rule + 16)).length = (slice buf h.length 14).length := by
    rw [List.length_drop, hold]
    omega
  have hcopy : overwrite buf (h.length + (outerHdrLen rule + 16)) (slice buf h.length 14) =
      (h ++ outer.take (outerHdrLen rule + 16)) ++ slice buf h.length 14 ++
        (payload ++ tr ++ t) := by
    conv_lhs => rw [hassoc]
    rw [overwrite_middle hstart (by rw [← hassoc]; exact hdrop), ← hassoc]
  have hl2 : 12 + (etherTypeOf next).length ≤ (slice buf h.length 14).length := by
    rw [length_etherTypeOf, hold]
  refine ⟨(h ++ outer.take (outerHdrLen rule + 16)) ++
    overwrite (slice buf h.length 14) 12 (etherTypeOf next) ++ (payload ++ tr ++ t),
    overwrite (slice buf h.length 14) 12 (etherTypeOf next), ?_, ?_, ?_, ?_⟩
  · rw [decapPacketTunnel, run_bind htail, run_bind mtod_single,
      run_bind (l3Len_single (by omega)), hl3,
      show outerHdrLen rule + espHdrLen + ivLen = outerHdrLen rule + 16 from rfl,
      run_bind (adj_single hlib (by omega) (by omega)), hleft,
      run_bind (copyBack_single (by omega) (by unfold etherHdrLen; omega)),
      show etherHdrLen = 14 from rfl, hcopy, store_inside hstart hl2]
  · rw [List.append_assoc payload, ← List.append_assoc (_ ++ _) payload,
      List.append_assoc _ _ payload, slice_middle hstart]
    rw [List.length_append, length_overwrite hl2, hold]
  · rw [length_overwrite hl2, hold]
  · have hback := slice_overwrite hl2
    rwa [length_etherTypeOf] at hback

/-- The bytes put in front of the payload, Ethernet header apart. -/
def encapLen (mode : Mode) (rule : EncryptRule) : Nat :=
  match mode with
  | .tunnel => outerHdrLen rule + 16
  | .transport => 16
  | .udpTransport => 24

/-- Where the part of a frame that gets encrypted starts. -/
def payloadOfs (mode : Mode) (packetType : BitVec 32) (frame : List Byte) : Nat :=
  match mode with
  | .tunnel => 14
  | .transport | .udpTransport => 14 + ipHdrLen packetType frame

def espPayloadLen (mode : Mode) (packetType : BitVec 32) (frame : List Byte) : Nat :=
  14 + ipLen packetType frame - payloadOfs mode packetType frame

/-- The part of a frame that gets encrypted. -/
def espPayload (mode : Mode) (packetType : BitVec 32) (frame : List Byte) : List Byte :=
  slice frame (payloadOfs mode packetType frame) (espPayloadLen mode packetType frame)

/-- The protocol of the encrypted part. -/
def espNextProto (mode : Mode) (packetType : BitVec 32) (frame : List Byte) : Byte :=
  match mode with
  | .tunnel => if isIpv4Hdr packetType = true then 4 else 41
  | .transport | .udpTransport => frame.getD (protoOfs packetType) 0

/-- A packet with headers of `headerLen` bytes, an ESP payload and an RFC 4303 trailer. -/
def EspShaped (data payload : List Byte) (headerLen : Nat) (next : Byte) (icvLen : Nat) : Prop :=
  ∃ header pad icv, data = header ++ payload ++ pad ++ [BitVec.ofNat 8 pad.length, next] ++ icv ∧
    header.length = headerLen ∧ icv.length = icvLen ∧ pad.length < 256 ∧
    (∀ i, i < pad.length → pad[i]? = some (BitVec.ofNat 8 (i + 1))) ∧
    (payload.length + pad.length + 2) % 4 = 0

/-- The packet type that the receiver finds: that of the outermost IP header. -/
def ReceivedType (mode : Mode) (rule : EncryptRule) (packetType received : BitVec 32) : Prop :=
  (isIpv4Hdr received = true ∨ isIpv6Hdr received = true) ∧
  match mode with
  | .tunnel => isIpv4Hdr received = true ↔ rule.encapL3Type = .ip4
  | .transport | .udpTransport => isIpv4Hdr received = isIpv4Hdr packetType

/-- What the receiver must end with: the frame without its Ethernet padding, or in
tunnel mode its IP packet behind a new Ethernet header. -/
def Restored (mode : Mode) (packetType : BitVec 32) (frame data : List Byte) : Prop :=
  match mode with
  | .tunnel => data.drop 14 = slice frame 14 (ipLen packetType frame) ∧
      slice data 12 2 = if isIpv4Hdr packetType = true then [0x08, 0x00] else [0x86, 0xdd]
  | .transport | .udpTransport => data = frame.take (14 + ipLen packetType frame)

theorem espShaped_trailer (header payload : List Byte) (next : Byte) (icv : List Byte) :
    EspShaped (header ++ payload ++ trailer payload.length next icv) payload header.length next
      icv.length := by
  have hpad := padLenOf_lt payload.length
  refine ⟨header, padBytes (padLenOf payload.length), icv, ?_, rfl, rfl, ?_, ?_, ?_⟩
  · rw [length_padBytes, trailer]
    simp only [List.append_assoc]
  · rw [length_padBytes]
    omega
  · intro i hi
    rw [length_padBytes] at hi
    simp [padBytes, hi]
  · rw [length_padBytes]
    unfold padLenOf
    omega

theorem data_packet {data : List Byte} (hlen : data.length = len) :
    (single (h ++ data ++ t) h.length len packetType).data = data := by
  rw [data_single, slice_middle rfl hlen]

/-- The buffer of a frame, cut where the new headers begin, at the frame, at its payload,
behind the payload and behind the new trailer. -/
theorem buffer_parts (n hl pl tl : Nat) (hn : n ≤ off) (hfit : off + hl + pl + tl ≤ buf.length) :
    ∃ h e header payload tail t : List Byte, buf = h ++ e ++ header ++ payload ++ tail ++ t ∧
      h.length + n = off ∧ e.length = n ∧ header = slice buf off hl ∧
      payload = slice buf (off + hl) pl ∧ tail.length = tl := by
  refine ⟨buf.take (off - n), slice buf (off - n) n, slice buf off hl, slice buf (off + hl) pl,
    slice buf (off + hl + pl) tl, buf.drop (off + hl + pl + tl), ?_, ?_, ?_, rfl, rfl, ?_⟩
  · rw [take_append_slice, Nat.sub_add_cancel hn, take_append_slice, take_append_slice,
      take_append_slice, List.take_append_drop]
  · rw [List.length_take]
    omega
  · exact length_slice (by omega)
  · exact length_slice (by omega)

theorem getD_slice {i n : Nat} (hi : i < n) : (slice buf off n).getD i 0 = buf.getD (off + i) 0 := by
  rw [List.getD_eq_getElem?_getD, getElem?_slice, if_pos hi, List.getD_eq_getElem?_getD]

/-- Everything the receiver reads off the type is the version. -/
theorem rewriteHeader_congr {received : BitVec 32}
    (hsame : isIpv4Hdr received = isIpv4Hdr packetType) (header : List Byte) (proto : Byte)
    (total : Nat) :
    rewriteHeader received header proto total = rewriteHeader packetType header proto total := by
  simp only [rewriteHeader, protoOfs, lengthOfs, lengthBase, hsame]

theorem transport_roundTrip (udpTransport : Bool) (hlib : lib.Documented) (hlt : buf.length < 2 ^ 16)
    (hroom : off + len ≤ buf.length) (hframe : IpFrame packetType (slice buf off len))
    (hhead : (if udpTransport = true then 24 else 16) ≤ off)
    (htail : off + 14 + ipLen packetType (slice buf off len) +
      (padLenOf (ipLen packetType (slice buf off len) - ipHdrLen packetType (slice buf off len)) +
        2 + rule.saAttrs.icvLength.bytes) ≤ buf.length) :
    ∃ sent, preparePacketTransport lib swSnInc rule udpTransport (single buf off len packetType) =
        .ok { rule with currentSn := rule.currentSn + 1 } sent ∧
      EspShaped sent.data (slice (slice buf off len) (14 + ipHdrLen packetType (slice buf off len))
          (14 + ipLen packetType (slice buf off len) -
            (14 + ipHdrLen packetType (slice buf off len))))
        (14 + ipHdrLen packetType (slice buf off len) + (if udpTransport = true then 24 else 16))
        ((slice buf off len).getD (protoOfs packetType) 0) rule.saAttrs.icvLength.bytes ∧
      ∀ received, (isIpv4Hdr received = true ∨ isIpv6Hdr received = true) →
        isIpv4Hdr received = isIpv4Hdr packetType →
        ∃ m, decapPacketTransport lib rule.saAttrs.icvLength.bytes udpTransport
            { sent with packetType := received } = .ok () m ∧ m.pktLen = m.data.length ∧
          m.data = (slice buf off len).take (14 + ipLen packetType (slice buf off len)) := by
  have hihl := hframe.ihl
  have hle := hframe.header
  have hfits := hframe.fits
  rw [length_slice hroom] at hfits
  have hpl : 14 + ipLen packetType (slice buf off len) -
      (14 + ipHdrLen packetType (slice buf off len)) =
        ipLen packetType (slice buf off len) - ipHdrLen packetType (slice buf off len) := by omega
  have hfit : off + (14 + ipHdrLen packetType (slice buf off len)) +
      (ipLen packetType (slice buf off len) - ipHdrLen packetType (slice buf off len)) +
      (padLenOf (ipLen packetType (slice buf off len) - ipHdrLen packetType (slice buf off len)) +
        2 + rule.saAttrs.icvLength.bytes) ≤ buf.length := by omega
  obtain ⟨h, e, header, payload, tail, t, hbuf, hoff, he, hheader, hpayload, htl⟩ :=
    buffer_parts _ _ _ _ hhead hfit
  have hhl : header.length = 14 + ipHdrLen packetType (slice buf off len) := by
    rw [hheader, length_slice (by omega)]
  have hpll : payload.length =
      ipLen packetType (slice buf off len) - ipHdrLen packetType (slice buf off len) := by
    rw [hpayload, length_slice (by omega)]
  have hhdr : ipHdrLen packetType header = ipHdrLen packetType (slice buf off len) := by
    rw [hheader, ← take_slice (by omega : _ ≤ len), ipHdrLen_take (by omega)]
  have hip : ipLen packetType header = ipLen packetType (slice buf off len) := by
    rw [hheader, ← take_slice (by omega : _ ≤ len), ipLen_take (by omega)]
  have hproto : header.getD (protoOfs packetType) 0 =
      (slice buf off len).getD (protoOfs packetType) 0 := by
    have hofs : protoOfs packetType < 24 := by
      unfold protoOfs
      split <;> omega
    rw [hheader, getD_slice (by omega), getD_slice (by omega)]
  have hwhole : header ++ payload =
      (slice buf off len).take (14 + ipLen packetType (slice buf off len)) := by
    rw [take_slice hfits, hheader, hpayload, slice_append_slice]
    congr 1
    omega
  have hlast : (tail.drop (padLenOf payload.length + 2)).length = rule.saAttrs.icvLength.bytes := by
    rw [List.length_drop, htl, hpll]
    omega
  have hencap := length_transportEncap udpTransport rule swSnInc
  have hsize : buf.length = h.length + e.length + header.length + payload.length + tail.length +
      t.length := by
    rw [hbuf]
    simp only [List.length_append]
  have htrail : tail.length = padLenOf payload.length + 2 + rule.saAttrs.icvLength.bytes := by
    rw [hpll, htl]
  have hsent : ∀ proto total next, (rewriteHeader packetType header proto total ++
      transportEncap udpTransport rule swSnInc ++ payload ++ trailer payload.length next
        (tail.drop (padLenOf payload.length + 2))).length =
          header.length + payload.length + e.length + tail.length := by
    intro proto total next
    simp only [List.length_append, length_trailer, hlast, hencap,
      length_rewriteHeader (by omega : 34 ≤ header.length)]
    omega
  rw [slice_slice (by omega), hpl, ← hpayload, ← hproto, ← hwhole]
  refine ⟨_, preparePacketTransport_single hlib hbuf (by omega) he hroom hlt hframe hhl (by omega)
    htrail, ?_, ?_⟩
  · rw [data_packet (hsent _ _ _), ← hlast, ← hencap, ← hhl]
    have hshape := espShaped_trailer (rewriteHeader packetType header
      (transportProtocol udpTransport)
        (header.length + payload.length + e.length + tail.length - 14) ++
          transportEncap udpTransport rule swSnInc) payload (header.getD (protoOfs packetType) 0)
      (tail.drop (padLenOf payload.length + 2))
    rwa [List.length_append, length_rewriteHeader (by omega)] at hshape
  · intro received hversion hsame
    have hproto' : protoOfs received = protoOfs packetType := by
      simp only [protoOfs, hsame]
    have hhdr' : ipHdrLen received header = ipHdrLen packetType header := by
      simp only [ipHdrLen, hsame]
    have hip' : ipLen received header = ipLen packetType header := by
      simp only [ipLen, hsame]
    have hfill : (h ++ (rewriteHeader packetType header (transportProtocol udpTransport)
        (header.length + payload.length + e.length + tail.length - 14) ++
          transportEncap udpTransport rule swSnInc ++ payload ++
          trailer payload.length (header.getD (protoOfs packetType) 0)
            (tail.drop (padLenOf payload.length + 2))) ++ t).length = buf.length := by
      rw [List.length_append, List.length_append, hsent]
      omega
    rw [← rewriteHeader_congr hsame, ← hproto'] at hfill ⊢
    rw [← hlast]
    obtain ⟨buf', hdecap, hdata⟩ := decapPacketTransport_single hlib rfl hencap
      (by rw [hencap, hlast, ← he]; omega) (hfill ▸ hlt) hversion (by omega) (by omega) (by omega)
    refine ⟨_, hdecap, ?_, ?_⟩
    · rw [data_single, hdata, List.length_append]
      rfl
    · rw [data_single, hdata]

theorem tunnel_roundTrip (hlib : lib.Documented) (hlt : buf.length < 2 ^ 16)
    (hroom : off + len ≤ buf.length) (hframe : IpFrame packetType (slice buf off len))
    (hhead : outerHdrLen rule + 16 ≤ off)
    (htail : off + 14 + ipLen packetType (slice buf off len) +
      (padLenOf (ipLen packetType (slice buf off len)) + 2 + rule.saAttrs.icvLength.bytes) ≤
        buf.length) :
    ∃ sent, preparePacketTunnel lib swSnInc rule (single buf off len packetType) =
        .ok { rule with currentSn := rule.currentSn + 1 } sent ∧
      EspShaped sent.data (slice (slice buf off len) 14 (ipLen packetType (slice buf off len)))
        (outerHdrLen rule + 30) (tunnelProtocol rule) rule.saAttrs.icvLength.bytes ∧
      ∀ received, OuterType rule received →
        ∃ m, decapPacketTunnel lib rule.saAttrs.icvLength.bytes
            { sent with packetType := received } = .ok () m ∧ m.pktLen = m.data.length ∧
          m.data.drop 14 = slice (slice buf off len) 14 (ipLen packetType (slice buf off len)) ∧
          slice m.data 12 2 = etherTypeOf (tunnelProtocol rule) := by
  have hihl := hframe.ihl
  have hle := hframe.header
  have hfits := hframe.fits
  rw [length_slice hroom] at hfits
  have hicv := icv_le rule.saAttrs.icvLength
  have hfit : off + 14 + ipLen packetType (slice buf off len) +
      (padLenOf (ipLen packetType (slice buf off len)) + 2 + rule.saAttrs.icvLength.bytes) ≤
        buf.length := by omega
  obtain ⟨h, e, l2, payload, tail, t, hbuf, hoff, he, hl2, hpayload, htl⟩ :=
    buffer_parts _ _ _ _ hhead hfit
  have hpll : payload.length = ipLen packetType (slice buf off len) := by
    rw [hpayload, length_slice (by omega)]
  have hel : (e ++ l2).length = outerHdrLen rule + 30 := by
    rw [List.length_append, he, hl2, length_slice (by omega)]
  have hbuf' : buf = h ++ (e ++ l2) ++ payload ++ tail ++ t := by
    rw [hbuf]
    simp only [List.append_assoc]
  have hsize : buf.length = h.length + (e ++ l2).length + payload.length + tail.length +
      t.length := by
    rw [hbuf']
    simp only [List.length_append]
  have hlast : (tail.drop (padLenOf payload.length + 2)).length = rule.saAttrs.icvLength.bytes := by
    rw [List.length_drop, htl, hpll]
    omega
  have htrail : tail.length = padLenOf payload.length + 2 + rule.saAttrs.icvLength.bytes := by
    rw [hpll, htl]
  have hsent : ∀ total next, (tunnelHeader rule swSnInc total ++ payload ++
      trailer payload.length next (tail.drop (padLenOf payload.length + 2))).length =
        (e ++ l2).length + payload.length + tail.length := by
    intro total next
    simp only [List.length_append, length_trailer, hlast, length_tunnelHeader, he] at hel ⊢
    omega
  rw [slice_slice (by omega), ← hpayload]
  refine ⟨_, preparePacketTunnel_single hlib hbuf' hel (by omega) hroom hlt hframe hpll htrail,
    ?_, ?_⟩
  · rw [data_packet (hsent _ _), ← hlast]
    have hshape := espShaped_trailer (tunnelHeader rule swSnInc
      ((e ++ l2).length + payload.length + tail.length - 14)) payload (tunnelProtocol rule)
      (tail.drop (padLenOf payload.length + 2))
    rwa [length_tunnelHeader] at hshape
  · intro received ho
    have hfill : (h ++ (tunnelHeader rule swSnInc
        ((e ++ l2).length + payload.length + tail.length - 14) ++ payload ++
          trailer payload.length (tunnelProtocol rule)
            (tail.drop (padLenOf payload.length + 2))) ++ t).length = buf.length := by
      rw [List.length_append, List.length_append, hsent]
      omega
    rw [← hlast]
    obtain ⟨buf', l2', hdecap, hdata, hlen2, htype⟩ := decapPacketTunnel_single hlib ho rfl
      (by rw [hlast, hel, htrail]) (by omega) (by omega) (hfill ▸ hlt)
    refine ⟨_, hdecap, ?_, ?_, ?_⟩
    · rw [data_single, hdata, List.length_append, hlen2]
      rfl
    · rw [data_single, hdata, ← hlen2, List.drop_left]
    · rw [data_single, hdata, ← htype]
      apply List.ext_getElem?
      intro i
      rw [getElem?_slice, getElem?_slice]
      by_cases hi : i < 2
      · rw [if_pos hi, if_pos hi, List.getElem?_append_left (by omega)]
      · rw [if_neg hi, if_neg hi]

/-- In every mode the sender makes a well-shaped ESP packet, and the receiver turns it
back into the frame. -/
theorem decap_undoes_encap (lib : MbufLib) (hlib : lib.Documented) (mode : Mode) (swSnInc : Bool)
    (rule : EncryptRule) (buf : List Byte) (off len : Nat) (packetType : BitVec 32)
    (hlt : buf.length < 2 ^ 16) (hroom : off + len ≤ buf.length)
    (hframe : IpFrame packetType (slice buf off len))
    (hrule : mode = .tunnel → (rule.l3Type = .ip4 ↔ isIpv4Hdr packetType = true))
    (hhead : encapLen mode rule ≤ off)
    (htail : off + 14 + ipLen packetType (slice buf off len) +
      (padLenOf (espPayloadLen mode packetType (slice buf off len)) + 2 +
        rule.saAttrs.icvLength.bytes) ≤ buf.length) :
    ∃ sent, preparePacket lib mode swSnInc rule (single buf off len packetType) =
        .ok { rule with currentSn := rule.currentSn + 1 } sent ∧
      EspShaped sent.data (espPayload mode packetType (slice buf off len))
        (payloadOfs mode packetType (slice buf off len) + encapLen mode rule)
        (espNextProto mode packetType (slice buf off len)) rule.saAttrs.icvLength.bytes ∧
      ∀ received, ReceivedType mode rule packetType received →
        ∃ m, decapPacket lib mode rule.saAttrs.icvLength.bytes
            { sent with packetType := received } = .ok () m ∧ m.pktLen = m.data.length ∧
          Restored mode packetType (slice buf off len) m.data := by
  have htransport : padLenOf (14 + ipLen packetType (slice buf off len) -
      (14 + ipHdrLen packetType (slice buf off len))) =
        padLenOf (ipLen packetType (slice buf off len) -
          ipHdrLen packetType (slice buf off len)) := by
    rw [Nat.add_sub_add_left]
  cases mode with
  | transport =>
    simp only [espPayloadLen, payloadOfs, htransport] at htail
    obtain ⟨sent, hrun, hshape, hback⟩ := transport_roundTrip false hlib hlt hroom hframe hhead htail
    exact ⟨sent, hrun, hshape, fun received hr => hback received hr.1 hr.2⟩
  | udpTransport =>
    simp only [espPayloadLen, payloadOfs, htransport] at htail
    obtain ⟨sent, hrun, hshape, hback⟩ := transport_roundTrip true hlib hlt hroom hframe hhead htail
    exact ⟨sent, hrun, hshape, fun received hr => hback received hr.1 hr.2⟩
  | tunnel =>
    replace hrule := hrule rfl
    have hlen : espPayloadLen .tunnel packetType (slice buf off len) =
        ipLen packetType (slice buf off len) := Nat.add_sub_cancel_left ..
    obtain ⟨sent, hrun, hshape, hback⟩ := tunnel_roundTrip hlib hlt hroom hframe hhead
      (hlen ▸ htail)
    have hproto : tunnelProtocol rule = espNextProto .tunnel packetType (slice buf off len) := by
      unfold tunnelProtocol espNextProto
      by_cases h4 : rule.l3Type = .ip4
      · rw [if_pos h4, if_pos (hrule.mp h4)]
        rfl
      · rw [if_neg h4, if_neg (fun h => h4 (hrule.mpr h))]
        rfl
    have htype : etherTypeOf (tunnelProtocol rule) =
        if isIpv4Hdr packetType = true then [0x08, 0x00] else [0x86, 0xdd] := by
      unfold tunnelProtocol
      by_cases h4 : rule.l3Type = .ip4
      · rw [if_pos h4, if_pos (hrule.mp h4)]
        rfl
      · rw [if_neg h4, if_neg (fun h => h4 (hrule.mpr h))]
        rfl
    refine ⟨sent, hrun, ?_, fun received hr => ?_⟩
    · rw [espPayload, hlen, ← hproto, Nat.add_comm]
      exact hshape
    · obtain ⟨m, hdecap, hlen', hdata, hether⟩ := hback received ⟨hr.1, hr.2⟩
      exact ⟨m, hdecap, hlen', hdata, hether.trans htype⟩

/-- The library's operations, written out. -/
def inlineLib : MbufLib where
  prepend m len :=
    match m.segs with
    | [] => none
    | s :: rest =>
      if s.dataOff < len then none
      else some { m with
        segs := { s with dataOff := s.dataOff - len, dataLen := wrap16 (s.dataLen + len) } :: rest
        pktLen := wrap32 (m.pktLen + len) }
  adj m len :=
    match m.segs with
    | [] => none
    | s :: rest =>
      if s.dataLen < len then none
      else some { m with
        segs := { s with dataOff := wrap16 (s.dataOff + len), dataLen := s.dataLen - len } :: rest
        pktLen := sub32 m.pktLen len }
  trim m len :=
    match m.segs.getLast? with
    | none => none
    | some s =>
      if s.dataLen < len then none
      else some { m with
        segs := m.segs.dropLast ++ [{ s with dataLen := s.dataLen - len }]
        pktLen := sub32 m.pktLen len }

theorem inlineLib_documented : inlineLib.Documented := by
  refine ⟨fun _ _ _ _ _ => rfl, fun _ _ _ _ _ => rfl, ?_⟩
  intro front s pktLen packetType len
  simp [inlineLib]

/-- A UDP datagram of one byte in an IPv4 packet, with Ethernet padding behind it. -/
def udpFrame : List Byte :=
  [0xaa, 0xbb, 0xcc, 0xdd, 0xee, 0xff, 0x11, 0x22, 0x33, 0x44, 0x55, 0x66, 0x08, 0x00] ++
  [0x45, 0, 0, 29, 0, 0, 0, 0, 64, 17, 0, 0, 10, 0, 0, 1, 10, 0, 0, 2] ++
  [0x10, 0, 0x20, 0, 0, 9, 0, 0, 0x2a] ++ List.replicate 17 0

def udpRule : EncryptRule :=
  ⟨.ip4, .udp, ⟨0x0100000a, 0x0200000a, 0, 0⟩, zeroAddr, 4096, 8192, .ip4, zeroAddr, 7, 3, none,
    ⟨.icv16, .aesgcm128, List.replicate 32 1, 5, .egressEncrypt⟩⟩

theorem decap_undoes_encap_udp_frame :
    ∃ sent m, preparePacket inlineLib .transport true udpRule
        (single (List.replicate 128 0 ++ udpFrame ++ List.replicate 64 0) 128 60 0x10#32) =
          .ok { udpRule with currentSn := 4 } sent ∧
      decapPacket inlineLib .transport 16 { sent with packetType := 0x10#32 } = .ok () m ∧
      m.data = udpFrame.take 43 := by
  have hframe : slice (List.replicate 128 0 ++ udpFrame ++ List.replicate 64 0) 128 60 =
      udpFrame := by decide +kernel
  obtain ⟨sent, hrun, _, hback⟩ := decap_undoes_encap inlineLib inlineLib_documented .transport true
    udpRule (List.replicate 128 0 ++ udpFrame ++ List.replicate 64 0) 128 60 0x10#32
    (by decide +kernel) (by decide +kernel)
    (by rw [hframe]; exact ⟨by decide, by decide, by decide, by decide⟩) (by decide) (by decide)
    (by rw [hframe]; decide +kernel)
  obtain ⟨m, hdecap, _, hdata⟩ := hback 0x10#32 ⟨by decide, rfl⟩
  rw [hframe] at hdata
  exact ⟨sent, m, hrun, hdecap, hdata⟩

end DocaApps.Proofs.PacketRoundTrip
