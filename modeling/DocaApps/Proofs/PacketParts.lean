import DocaApps.Proofs.MbufChain

namespace DocaApps.Proofs.PacketParts
open Common.Pack Lib.Overwrite Lib.Command Ipsec.Rules Ipsec.Encap Ipsec.MbufChain
open Ipsec.PacketEncap Ipsec.PacketDecap Proofs.MbufChain

/-- The length of the IP header of a frame. -/
def ipHdrLen (packetType : BitVec 32) (frame : List Byte) : Nat :=
  if isIpv4Hdr packetType = true then ipv4HdrLen (frame.getD 14 0) else 40

/-- The length of the IP packet of a frame, by its header. -/
def ipLen (packetType : BitVec 32) (frame : List Byte) : Nat :=
  if isIpv4Hdr packetType = true then be16 (slice frame 16 2) else 40 + be16 (slice frame 18 2)

/-- A frame whose IP header is consistent with its packet type and its length. -/
structure IpFrame (packetType : BitVec 32) (frame : List Byte) : Prop where
  version : isIpv4Hdr packetType = true ∨ isIpv6Hdr packetType = true
  ihl : 20 ≤ ipHdrLen packetType frame
  header : ipHdrLen packetType frame ≤ ipLen packetType frame
  fits : 14 + ipLen packetType frame ≤ frame.length

variable {lib : MbufLib} {buf frame rest : List Byte} {off len : Nat} {packetType : BitVec 32}

theorem IpFrame.le_length (h : IpFrame packetType frame) : 34 ≤ frame.length := by
  have h1 := h.ihl
  have h2 := h.header
  have h3 := h.fits
  omega

theorem be16_lt (bytes : List Byte) : be16 bytes < 2 ^ 16 := by
  have h0 := (bytes.getD 0 0).isLt
  have h1 := (bytes.getD 1 0).isLt
  unfold be16
  omega

theorem be16_pack {n : Nat} (h : n < 2 ^ 16) : be16 (packUint16 (BitVec.ofNat 16 n)) = n := by
  simp only [packUint16, be16, getByte, List.getD_cons_zero, List.getD_cons_succ]
  simp only [BitVec.toNat_setWidth, BitVec.toNat_ushiftRight, BitVec.toNat_ofNat,
    Nat.shiftRight_eq_div_pow]
  omega

theorem pack_be16 (x y : Byte) : packUint16 (BitVec.ofNat 16 (be16 [x, y])) = [x, y] := by
  have hx := x.isLt
  have hy := y.isLt
  have h1 : getByte (BitVec.ofNat 16 (be16 [x, y])) 1 = x := by
    apply BitVec.eq_of_toNat_eq
    simp only [getByte, be16, List.getD_cons_zero, List.getD_cons_succ, BitVec.toNat_setWidth,
      BitVec.toNat_ushiftRight, BitVec.toNat_ofNat, Nat.shiftRight_eq_div_pow]
    omega
  have h0 : getByte (BitVec.ofNat 16 (be16 [x, y])) 0 = y := by
    apply BitVec.eq_of_toNat_eq
    simp only [getByte, be16, List.getD_cons_zero, List.getD_cons_succ, BitVec.toNat_setWidth,
      BitVec.toNat_ushiftRight, BitVec.toNat_ofNat, Nat.shiftRight_eq_div_pow]
    omega
  rw [packUint16, h1, h0]

theorem length_packUint16 (v : BitVec 16) : (packUint16 v).length = 2 := rfl

theorem loadByte_single {pos : Nat} (h : pos < buf.length) :
    loadByte 0 pos (single buf off len packetType) =
      .ok (buf.getD pos 0) (single buf off len packetType) := by
  have hbyte : (slice buf pos 1).getD 0 0 = buf.getD pos 0 := by
    simp only [List.getD_eq_getElem?_getD, getElem?_slice]
    rfl
  rw [loadByte, run_bind (load_single h), hbyte]
  rfl

theorem loadBe16_single {pos : Nat} (h : pos + 2 ≤ buf.length) :
    loadBe16 0 pos (single buf off len packetType) =
      .ok (be16 (slice buf pos 2)) (single buf off len packetType) := by
  rw [loadBe16, run_bind (load_single h)]
  rfl

theorem l3Len_single (h : off + 14 < buf.length) :
    l3Len off (single buf off len packetType) =
      .ok (ipHdrLen packetType (buf.drop off)) (single buf off len packetType) := by
  have hbyte : (buf.drop off).getD 14 0 = buf.getD (off + 14) 0 := by
    simp only [List.getD_eq_getElem?_getD, List.getElem?_drop]
  unfold ipHdrLen
  by_cases h4 : isIpv4Hdr packetType = true
  · have hrun : l3Len off (single buf off len packetType) = (do
        let versionIhl ← loadByte 0 (off + 14)
        return ipv4HdrLen versionIhl : PktCmd Nat) (single buf off len packetType) := by
      exact congrFun (if_pos h4) _
    rw [hrun, run_bind (loadByte_single h), if_pos h4, hbyte]
    rfl
  · have hrun : l3Len off (single buf off len packetType) =
        (return ipv6HdrLen : PktCmd Nat) (single buf off len packetType) := by
      exact congrFun (if_neg h4) _
    rw [hrun, if_neg h4]
    rfl

theorem payloadLenL3_single {l3HdrLen : Nat} (h : off + 20 ≤ buf.length)
    (hhdr : l3HdrLen = ipHdrLen packetType (buf.drop off))
    (hle : l3HdrLen ≤ ipLen packetType (buf.drop off)) :
    payloadLenL3 off l3HdrLen (single buf off len packetType) =
      .ok (ipLen packetType (buf.drop off) - l3HdrLen) (single buf off len packetType) := by
  have hfield : ∀ i, slice (buf.drop off) i 2 = slice buf (off + i) 2 := by
    intro i
    rw [slice, slice, List.drop_drop]
  unfold ipHdrLen at hhdr
  unfold ipLen at hle ⊢
  by_cases h4 : isIpv4Hdr packetType = true
  · have hrun : payloadLenL3 off l3HdrLen (single buf off len packetType) = (do
        let totalLength ← loadBe16 0 (off + 16)
        return sub32 totalLength l3HdrLen : PktCmd Nat) (single buf off len packetType) := by
      exact congrFun (if_pos h4) _
    have hlt := be16_lt (slice buf (off + 16) 2)
    rw [if_pos h4, hfield] at hle ⊢
    have hsub : sub32 (be16 (slice buf (off + 16) 2)) l3HdrLen =
        be16 (slice buf (off + 16) 2) - l3HdrLen := by
      unfold sub32
      omega
    rw [hrun, run_bind (loadBe16_single (by omega)), hsub]
    rfl
  · have hrun : payloadLenL3 off l3HdrLen (single buf off len packetType) =
        loadBe16 0 (off + 18) (single buf off len packetType) := by
      exact congrFun (if_neg h4) _
    rw [if_neg h4] at hhdr
    rw [if_neg h4, hfield, hrun, loadBe16_single (by omega), hhdr]
    congr 1
    omega

theorem ipHdrLen_take {n : Nat} (h : 14 < n) :
    ipHdrLen packetType (frame.take n) = ipHdrLen packetType frame := by
  simp only [ipHdrLen, List.getD_eq_getElem?_getD, List.getElem?_take, h, ↓reduceIte]

theorem ipLen_take {n : Nat} (h : 20 ≤ n) :
    ipLen packetType (frame.take n) = ipLen packetType frame := by
  have hslice : ∀ i, i + 2 ≤ n → slice (frame.take n) i 2 = slice frame i 2 := by
    intro i hi
    rw [slice, slice, List.drop_take, List.take_take, Nat.min_eq_left (by omega)]
  simp only [ipLen, hslice 16 (by omega), hslice 18 (by omega)]

/-- The trailing bytes removed are those beyond the IP packet. -/
theorem removeTrailingZeros_single (hlib : lib.Documented) (hroom : off + len ≤ buf.length)
    (hlen : len < 2 ^ 16) (h : IpFrame packetType (slice buf off len)) :
    removeTrailingZeros lib (single buf off len packetType) =
      .ok () (single buf off (14 + ipLen packetType (slice buf off len)) packetType) := by
  have hshort := h.le_length
  have hheader := h.header
  have hfits := h.fits
  have hn : (slice buf off len).length = len := length_slice hroom
  rw [hn] at hshort hfits
  have hhdr : ipHdrLen packetType (buf.drop off) = ipHdrLen packetType (slice buf off len) :=
    (ipHdrLen_take (by omega)).symm
  have hip : ipLen packetType (buf.drop off) = ipLen packetType (slice buf off len) :=
    (ipLen_take (by omega)).symm
  rw [removeTrailingZeros, run_bind mtod_single, run_bind (l3Len_single (by omega)),
    run_bind (payloadLenL3_single (by omega) rfl (by omega)), run_bind pktLenNow_single, hhdr, hip]
  generalize ipLen packetType (slice buf off len) = total at *
  generalize ipHdrLen packetType (slice buf off len) = header at *
  have hextra : sub32 (sub32 len (header + etherHdrLen)) (total - header) = len - (14 + total) := by
    unfold sub32 etherHdrLen
    omega
  rw [hextra, trimIfLonger]
  by_cases hpos : len - (14 + total) > 0
  · rw [if_pos hpos, trim_single hlib (by omega) hlen]
    congr 2
    omega
  · have heq : len = 14 + total := by omega
    rw [if_neg hpos, ← heq]
    rfl

/-- The number of padding bytes behind a payload. -/
def padLenOf (payloadLen : Nat) : Nat := (4 - (payloadLen + 2) % 4) % 4

/-- The padding bytes: 1, 2, 3 and so on. -/
def padBytes (n : Nat) : List Byte := (List.range n).map fun i => BitVec.ofNat 8 (i + 1)

theorem paddingLen_eq {payloadLen : Nat} (h : payloadLen < 2 ^ 16) :
    paddingLen payloadLen = padLenOf payloadLen + 2 := by
  unfold paddingLen padLenOf sub32 alignCeil wrap32 espTailLen paddingAlign
  omega

theorem length_padBytes (n : Nat) : (padBytes n).length = n := by
  simp [padBytes]

theorem take_espPadBytes {n : Nat} (h : n < 4) :
    espPadBytes.take (min n espPadBytes.length) = padBytes n := by
  interval_cases n <;> rfl

/-- The trailer written over the bytes appended to the packet. -/
theorem writeTrailer_single {h tail c : List Byte} {pos payloadLen : Nat} {next : Byte}
    (hpos : h.length = pos) (htail : padLenOf payloadLen + 2 ≤ tail.length) :
    writeTrailer 0 pos (padLenOf payloadLen + 2) next (single (h ++ tail ++ c) off len packetType) =
      .ok () (single (h ++ padBytes (padLenOf payloadLen) ++
        [BitVec.ofNat 8 (padLenOf payloadLen), next] ++ tail.drop (padLenOf payloadLen + 2) ++ c)
        off len packetType) := by
  have hlt : padLenOf payloadLen < 4 := by
    unfold padLenOf
    omega
  generalize padLenOf payloadLen = padLen at *
  have hsub : sub32 (padLen + 2) espTailLen = padLen := by
    unfold sub32 espTailLen
    omega
  obtain ⟨t1, t2, icv, rfl, h1, h2⟩ : ∃ t1 t2 icv : List Byte, tail = t1 ++ t2 ++ icv ∧
      t1.length = padLen ∧ t2.length = 2 := by
    refine ⟨tail.take padLen, (tail.drop padLen).take 2, (tail.drop padLen).drop 2, ?_, ?_, ?_⟩
    · rw [List.append_assoc, List.take_append_drop, List.take_append_drop]
    · rw [List.length_take]
      omega
    · rw [List.length_take, List.length_drop]
      omega
  have hicv : (t1 ++ t2 ++ icv).drop (padLen + 2) = icv := by
    rw [← h1, ← h2, ← List.length_append, List.drop_left]
  have hbuf1 : h ++ (t1 ++ t2 ++ icv) ++ c = h ++ t1 ++ (t2 ++ icv ++ c) := by
    simp only [List.append_assoc]
  have hbuf2 : h ++ padBytes padLen ++ (t2 ++ icv ++ c) =
      (h ++ padBytes padLen) ++ t2 ++ (icv ++ c) := by
    simp only [List.append_assoc]
  have hpad : (padBytes padLen).length = padLen := length_padBytes padLen
  have hstart : (h ++ padBytes padLen).length = pos + padLen := by
    rw [List.length_append, hpad, hpos]
  rw [writeTrailer, hsub, take_espPadBytes hlt, hbuf1,
    run_bind (store_middle hpos (by omega)), hbuf2, store_middle hstart h2, hicv]
  simp only [List.append_assoc]

/-- The end of a packet that carries a trailer is cut off. -/
theorem removePacketTail_single (hlib : lib.Documented) {h body pad icv t : List Byte}
    {next : Byte}
    (hbuf : buf = h ++ (body ++ pad ++ [BitVec.ofNat 8 pad.length, next] ++ icv) ++ t)
    (hoff : off = h.length) (hlen : len = body.length + pad.length + 2 + icv.length)
    (hpad : pad.length < 256) (hlt : len < 2 ^ 16) (hframe : IpFrame packetType (slice buf off len))
    (hexact : 14 + ipLen packetType (slice buf off len) = len) :
    removePacketTail lib icv.length (single buf off len packetType) =
      .ok next (single buf off body.length packetType) := by
  have hroom : off + len ≤ buf.length := by
    subst hbuf hoff hlen
    simp only [List.length_append, List.length_cons, List.length_nil]
    omega
  have hofs : sub32 len (icv.length + espTailLen) = body.length + pad.length := by
    unfold sub32 espTailLen
    omega
  have hseg : mbufGetSegOfs (body.length + pad.length) (single buf off len packetType) =
      .ok (0, body.length + pad.length) (single buf off len packetType) := by
    have hin : ¬ body.length + pad.length ≥ len := by omega
    have hloop : segOfsLoop [⟨buf, off, len⟩] 0 (body.length + pad.length) =
        some (0, body.length + pad.length) := if_neg hin
    have hpkt : (single buf off len packetType).pktLen = len := rfl
    have hsegs : (single buf off len packetType).segs = [⟨buf, off, len⟩] := rfl
    rw [mbufGetSegOfs, run_get, hpkt, if_neg hin, hsegs, hloop]
    rfl
  have htail : load 0 (off + (body.length + pad.length)) espTailLen
      (single buf off len packetType) =
        .ok [BitVec.ofNat 8 pad.length, next] (single buf off len packetType) := by
    have hsplit : buf = (h ++ body ++ pad) ++ [BitVec.ofNat 8 pad.length, next] ++ (icv ++ t) := by
      rw [hbuf]
      simp only [List.append_assoc]
    rw [hsplit]
    refine load_middle ?_ rfl
    simp only [List.length_append, hoff]
    omega
  have hpadLen : (BitVec.ofNat 8 pad.length).toNat = pad.length := by
    rw [BitVec.toNat_ofNat]
    omega
  have hpkt : sub32 len (icv.length + espTailLen + pad.length) = body.length := by
    unfold sub32 espTailLen
    omega
  have hdata : wrap16 (sub32 (body.length + pad.length) pad.length) = body.length := by
    unfold wrap16 sub32
    omega
  rw [removePacketTail, run_bind (removeTrailingZeros_single hlib hroom hlt hframe), hexact,
    run_bind pktLenNow_single, hofs, run_bind hseg]
  dsimp only
  rw [run_bind segment_single, run_bind htail]
  simp only [List.getD_cons_zero, List.getD_cons_succ, hpadLen, hdata]
  simp only [bind, EStateM.bind, modify, modifyGet, MonadStateOf.modifyGet, EStateM.modifyGet,
    setSegment, single, hpkt, pure, EStateM.pure, List.set_cons_zero]

/-- Where the protocol and the length are in the headers of a frame, and what part of
the packet the length leaves out. -/
def protoOfs (packetType : BitVec 32) : Nat := if isIpv4Hdr packetType = true then 23 else 20
def lengthOfs (packetType : BitVec 32) : Nat := if isIpv4Hdr packetType = true then 16 else 18
def lengthBase (packetType : BitVec 32) : Nat := if isIpv4Hdr packetType = true then 0 else 40

/-- The headers of a frame with another protocol and another packet length. -/
def rewriteHeader (packetType : BitVec 32) (header : List Byte) (proto : Byte) (total : Nat) :
    List Byte :=
  overwrite (overwrite header (protoOfs packetType) [proto]) (lengthOfs packetType)
    (packUint16 (BitVec.ofNat 16 (total - lengthBase packetType)))

theorem length_rewriteHeader {header : List Byte} (h : 34 ≤ header.length) (proto : Byte)
    (total : Nat) : (rewriteHeader packetType header proto total).length = header.length := by
  have hproto : protoOfs packetType + 1 ≤ header.length := by
    unfold protoOfs
    split <;> omega
  have hfield : lengthOfs packetType + 2 ≤ header.length := by
    unfold lengthOfs
    split <;> omega
  have hinner : (overwrite header (protoOfs packetType) [proto]).length = header.length :=
    length_overwrite hproto
  rw [rewriteHeader, length_overwrite (by rwa [hinner]), hinner]

theorem rewriteHeader_ipv4 (h4 : isIpv4Hdr packetType = true) (header : List Byte) (proto : Byte)
    (total : Nat) : rewriteHeader packetType header proto total =
      overwrite (overwrite header 23 [proto]) 16 (packUint16 (BitVec.ofNat 16 total)) := by
  simp only [rewriteHeader, protoOfs, lengthOfs, lengthBase, h4, ↓reduceIte, Nat.sub_zero]

theorem rewriteHeader_ipv6 (h4 : ¬ isIpv4Hdr packetType = true) (header : List Byte)
    (proto : Byte) (total : Nat) : rewriteHeader packetType header proto total =
      overwrite (overwrite header 20 [proto]) 18 (packUint16 (BitVec.ofNat 16 (total - 40))) := by
  simp only [rewriteHeader, protoOfs, lengthOfs, lengthBase, if_neg h4]

theorem byte_fits {header : List Byte} (h : 34 ≤ header.length) (b : Byte) {i : Nat}
    (hi : i < 34) : i + [b].length ≤ header.length := by
  rw [List.length_singleton]
  omega

theorem field_fits {header : List Byte} (h : 34 ≤ header.length) (v : BitVec 16) {i : Nat}
    (hi : i < 33) : i + (packUint16 v).length ≤ header.length := by
  rw [length_packUint16]
  omega

/-- Two stores into the headers, one after the other. -/
theorem storeTwice_single {h header c b1 b2 : List Byte} {pos i j : Nat} (hpos : h.length = pos)
    (h1 : i + b1.length ≤ header.length) (h2 : j + b2.length ≤ header.length) :
    store 0 (pos + j) b2 (single (h ++ overwrite header i b1 ++ c) off len packetType) =
      .ok () (single (h ++ overwrite (overwrite header i b1) j b2 ++ c) off len packetType) :=
  store_inside hpos (by rwa [length_overwrite h1])

theorem getD_middle {h header c : List Byte} {pos i : Nat} (hpos : h.length = pos)
    (hi : i < header.length) : (h ++ header ++ c).getD (pos + i) 0 = header.getD i 0 := by
  simp only [List.getD_eq_getElem?_getD, List.append_assoc]
  rw [List.getElem?_append_right (by omega), List.getElem?_append_left (by omega)]
  congr 2
  omega

theorem replaceProtocol_single {h header c : List Byte} {pos : Nat} {proto : Byte}
    (hpos : h.length = pos) (hheader : 34 ≤ header.length) (hlen : 54 ≤ len) (hlt : len < 2 ^ 16)
    (hversion : isIpv4Hdr packetType = true ∨ isIpv6Hdr packetType = true) :
    replaceProtocol pos proto (single (h ++ header ++ c) off len packetType) =
      .ok (header.getD (protoOfs packetType) 0)
        (single (h ++ rewriteHeader packetType header proto (len - 14) ++ c) off len
          packetType) := by
  have hroom : pos + header.length ≤ (h ++ header ++ c).length := by
    simp only [List.length_append]
    omega
  have hsub : sub32 len 14 = len - 14 := by
    unfold sub32
    omega
  have hsub6 : sub32 (len - 14) 40 = len - 14 - 40 := by
    unfold sub32
    omega
  by_cases h4 : isIpv4Hdr packetType = true
  · have hrun : replaceProtocol pos proto (single (h ++ header ++ c) off len packetType) = (do
        let nextProtocol ← loadByte 0 (pos + 23)
        store 0 (pos + 23) [proto]
        storeBe16 0 (pos + 16) (sub32 (← pktLenNow) 14)
        return nextProtocol : PktCmd Byte) (single (h ++ header ++ c) off len packetType) := by
      exact congrFun (if_pos h4) _
    have hproto : protoOfs packetType = 23 := if_pos h4
    rw [hrun, run_bind (loadByte_single (by omega)),
      run_bind (store_inside hpos (byte_fits hheader _ (by decide))), run_bind pktLenNow_single,
      hsub, storeBe16, run_bind (storeTwice_single hpos
        (byte_fits hheader _ (by decide)) (field_fits hheader _ (by decide))), getD_middle hpos (by omega), hproto,
      rewriteHeader_ipv4 h4]
    rfl
  · have h6 := hversion.resolve_left h4
    have hrun : replaceProtocol pos proto (single (h ++ header ++ c) off len packetType) = (do
        let nextProtocol ← loadByte 0 (pos + 20)
        store 0 (pos + 20) [proto]
        storeBe16 0 (pos + 18) (sub32 (sub32 (← pktLenNow) 14) 40)
        return nextProtocol : PktCmd Byte) (single (h ++ header ++ c) off len packetType) := by
      exact congrFun ((if_neg h4).trans (if_pos h6)) _
    have hproto : protoOfs packetType = 20 := if_neg h4
    rw [hrun, run_bind (loadByte_single (by omega)),
      run_bind (store_inside hpos (byte_fits hheader _ (by decide))), run_bind pktLenNow_single,
      hsub, hsub6, storeBe16, run_bind (storeTwice_single hpos
        (byte_fits hheader _ (by decide)) (field_fits hheader _ (by decide))), getD_middle hpos (by omega), hproto,
      rewriteHeader_ipv6 h4]
    rfl

theorem restoreProtocol_single {h header c : List Byte} {pos : Nat} {proto : Byte}
    (hpos : h.length = pos) (hheader : 34 ≤ header.length)
    (hlen : 14 + lengthBase packetType ≤ len) (hlt : len < 2 ^ 16) :
    restoreProtocol pos proto (single (h ++ header ++ c) off len packetType) =
      .ok () (single (h ++ rewriteHeader packetType header proto (len - 14) ++ c) off len
        packetType) := by
  have hsub : sub32 len 14 = len - 14 := by
    unfold sub32
    omega
  by_cases h4 : isIpv4Hdr packetType = true
  · have hrun : restoreProtocol pos proto (single (h ++ header ++ c) off len packetType) = (do
        store 0 (pos + 23) [proto]
        storeBe16 0 (pos + 16) (sub32 (← pktLenNow) 14) : PktCmd Unit)
          (single (h ++ header ++ c) off len packetType) := by
      exact congrFun (if_pos h4) _
    rw [hrun, run_bind (store_inside hpos (byte_fits hheader _ (by decide))),
      run_bind pktLenNow_single, hsub, storeBe16, storeTwice_single hpos
        (byte_fits hheader _ (by decide)) (field_fits hheader _ (by decide)),
      rewriteHeader_ipv4 h4]
  · have hbase : lengthBase packetType = 40 := if_neg h4
    have hsub6 : sub32 (len - 14) 40 = len - 14 - 40 := by
      unfold sub32
      omega
    have hrun : restoreProtocol pos proto (single (h ++ header ++ c) off len packetType) = (do
        store 0 (pos + 20) [proto]
        storeBe16 0 (pos + 18) (sub32 (sub32 (← pktLenNow) 14) 40) : PktCmd Unit)
          (single (h ++ header ++ c) off len packetType) := by
      exact congrFun (if_neg h4) _
    rw [hrun, run_bind (store_inside hpos (byte_fits hheader _ (by decide))),
      run_bind pktLenNow_single, hsub, hsub6, storeBe16, storeTwice_single hpos
        (byte_fits hheader _ (by decide)) (field_fits hheader _ (by decide)),
      rewriteHeader_ipv6 h4]

theorem slice_one {i : Nat} (h : i < frame.length) : slice frame i 1 = [frame.getD i 0] := by
  apply List.ext_getElem?
  intro j
  rw [getElem?_slice, List.getD_eq_getElem?_getD]
  cases j with
  | zero => simp [h]
  | succ j => simp

theorem pack_slice {i : Nat} (h : i + 2 ≤ frame.length) :
    packUint16 (BitVec.ofNat 16 (be16 (slice frame i 2))) = slice frame i 2 := by
  obtain ⟨x, y, hxy⟩ : ∃ x y, slice frame i 2 = [x, y] :=
    List.length_eq_two.mp (length_slice h)
  rw [hxy, pack_be16]

/-- The original protocol and length put back give the original headers. -/
theorem rewriteHeader_restore {header : List Byte} (h : 34 ≤ header.length) (proto : Byte)
    (total : Nat) :
    rewriteHeader packetType (rewriteHeader packetType header proto total)
      (header.getD (protoOfs packetType) 0) (ipLen packetType header) = header := by
  by_cases h4 : isIpv4Hdr packetType = true
  · have hproto : protoOfs packetType = 23 := if_pos h4
    have hlen : ipLen packetType header = be16 (slice header 16 2) := if_pos h4
    rw [rewriteHeader_ipv4 h4, rewriteHeader_ipv4 h4, hproto, hlen, pack_slice (by omega),
      ← slice_one (by omega)]
    exact overwrite_restore (byte_fits h _ (by decide)) (field_fits h _ (by decide))
  · have hproto : protoOfs packetType = 20 := if_neg h4
    have hlen : ipLen packetType header - 40 = be16 (slice header 18 2) := by
      rw [ipLen, if_neg h4]
      omega
    rw [rewriteHeader_ipv6 h4, rewriteHeader_ipv6 h4, hproto, hlen, pack_slice (by omega),
      ← slice_one (by omega)]
    exact overwrite_restore (byte_fits h _ (by decide)) (field_fits h _ (by decide))

theorem ipLen_rewriteHeader {header : List Byte} (h : 34 ≤ header.length) (proto : Byte)
    {total : Nat} (hbase : lengthBase packetType ≤ total) (hlt : total < 2 ^ 16) :
    ipLen packetType (rewriteHeader packetType header proto total) = total := by
  by_cases h4 : isIpv4Hdr packetType = true
  · have hinner := length_overwrite (byte_fits h proto (i := 23) (by decide))
    have hfield := slice_overwrite (hinner ▸ field_fits h (BitVec.ofNat 16 total) (i := 16)
      (by decide))
    rw [ipLen, if_pos h4, rewriteHeader_ipv4 h4]
    exact (congrArg be16 hfield).trans (be16_pack hlt)
  · have hinner := length_overwrite (byte_fits h proto (i := 20) (by decide))
    have hfield := slice_overwrite (hinner ▸ field_fits h (BitVec.ofNat 16 (total - 40)) (i := 18)
      (by decide))
    have hle : 40 ≤ total := by
      rwa [lengthBase, if_neg h4] at hbase
    rw [ipLen, if_neg h4, rewriteHeader_ipv6 h4]
    have hback := (congrArg be16 hfield).trans (be16_pack (by omega))
    rw [length_packUint16] at hback
    omega

theorem ipHdrLen_rewriteHeader {header : List Byte} (h : 34 ≤ header.length) (proto : Byte)
    (total : Nat) : ipHdrLen packetType (rewriteHeader packetType header proto total) =
      ipHdrLen packetType header := by
  by_cases h4 : isIpv4Hdr packetType = true
  · have hinner := length_overwrite (byte_fits h proto (i := 23) (by decide))
    rw [ipHdrLen, ipHdrLen, if_pos h4, if_pos h4, rewriteHeader_ipv4 h4]
    simp only [List.getD_eq_getElem?_getD]
    rw [getElem?_overwrite (by rw [hinner]; exact field_fits h _ (by decide)), if_neg (by omega),
      getElem?_overwrite (byte_fits h _ (by decide)), if_neg (by omega)]
  · rw [ipHdrLen, ipHdrLen, if_neg h4, if_neg h4]

end DocaApps.Proofs.PacketParts
