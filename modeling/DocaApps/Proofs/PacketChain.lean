import DocaApps.Proofs.PacketParts

namespace DocaApps.Proofs.PacketChain
open Common.Pack Lib.Overwrite Lib.Command Ipsec.MbufChain Proofs.PacketParts

/-- How long the data of some segments is. -/
def dataLen (segs : List Segment) : Nat := (segs.map Segment.dataLen).sum

/-- A chain as the packet library keeps it. -/
structure Chain (m : Mbuf) : Prop where
  nonempty : m.segs ≠ []
  count : m.segs.length < 2 ^ 16
  buf : ∀ s ∈ m.segs, s.buf.length < 2 ^ 16
  fits : ∀ s ∈ m.segs, s.dataOff + s.dataLen ≤ s.buf.length
  pktLen : m.pktLen = dataLen m.segs

variable {lib : MbufLib} {m m' : Mbuf} {s : Segment} {segs front back : List Segment}
  {k n pos pktLen : Nat} {bytes : List Byte} {packetType : BitVec 32}

@[simp]
theorem dataLen_nil : dataLen [] = 0 := rfl

@[simp]
theorem dataLen_cons : dataLen (s :: segs) = s.dataLen + dataLen segs := by
  simp [dataLen]

@[simp]
theorem dataLen_append : dataLen (front ++ back) = dataLen front + dataLen back := by
  simp [dataLen]

theorem dataLen_le (h : ∀ s ∈ segs, s.dataLen < 2 ^ 16) : dataLen segs ≤ segs.length * 65535 := by
  induction segs with
  | nil => simp
  | cons s segs ih =>
    have hs := h s List.mem_cons_self
    have hsegs := ih fun t ht => h t (List.mem_cons_of_mem s ht)
    simp only [dataLen_cons, List.length_cons]
    omega

theorem Chain.dataLen_lt (h : Chain m) : ∀ s ∈ m.segs, s.dataLen < 2 ^ 16 := by
  intro s hs
  have hfits := h.fits s hs
  have hbuf := h.buf s hs
  omega

/-- Even with headers and a trailer around it the length of a packet fits 32 bits. -/
theorem Chain.pktLen_lt (h : Chain m) : m.pktLen + 131070 < 2 ^ 32 := by
  have hle := dataLen_le h.dataLen_lt
  have hcount := h.count
  rw [h.pktLen]
  have hmul : m.segs.length * 65535 ≤ 65535 * 65535 := Nat.mul_le_mul_right _ (by omega)
  omega

theorem length_flatMap_data (h : ∀ s ∈ segs, s.dataOff + s.dataLen ≤ s.buf.length) :
    (segs.flatMap Segment.data).length = dataLen segs := by
  induction segs with
  | nil => rfl
  | cons s segs ih =>
    have hs := h s List.mem_cons_self
    have hsegs := ih fun t ht => h t (List.mem_cons_of_mem s ht)
    rw [List.flatMap_cons, List.length_append, hsegs, dataLen_cons, Segment.data, length_slice hs]

theorem Chain.length_data (h : Chain m) : m.data.length = m.pktLen := by
  rw [h.pktLen]
  exact length_flatMap_data h.fits

theorem Chain.last (h : Chain m) : ∃ front s, m.segs = front ++ [s] :=
  ⟨m.segs.dropLast, m.segs.getLast h.nonempty, (List.dropLast_append_getLast h.nonempty).symm⟩

section Run

theorem segment_run (hk : m.segs[k]? = some s) : segment k m = .ok s m := by
  rw [Ipsec.MbufChain.segment, run_get, hk]
  rfl

theorem load_run (hk : m.segs[k]? = some s) (h : pos + n ≤ s.buf.length) :
    load k pos n m = .ok (slice s.buf pos n) m := by
  rw [load, run_bind (segment_run hk), if_pos h]
  rfl

theorem load_fault (hk : m.segs[k]? = some s) (h : ¬ pos + n ≤ s.buf.length) :
    load k pos n m = .error .fault m := by
  rw [load, run_bind (segment_run hk), if_neg h]
  rfl

theorem store_run (hk : m.segs[k]? = some s) (h : pos + bytes.length ≤ s.buf.length) :
    store k pos bytes m =
      .ok () { m with segs := m.segs.set k { s with buf := overwrite s.buf pos bytes } } := by
  rw [store, run_bind (segment_run hk), if_pos h]
  rfl

theorem store_fault (hk : m.segs[k]? = some s) (h : ¬ pos + bytes.length ≤ s.buf.length) :
    store k pos bytes m = .error .fault m := by
  rw [store, run_bind (segment_run hk), if_neg h]
  rfl

theorem mtod_run (hk : m.segs[k]? = some s) : mtod k m = .ok s.dataOff m := by
  rw [mtod, run_bind (segment_run hk)]
  rfl

theorem pktLenNow_run : pktLenNow m = .ok m.pktLen m := rfl

theorem loadByte_run (hk : m.segs[k]? = some s) (h : pos < s.buf.length) :
    loadByte k pos m = .ok (s.buf.getD pos 0) m := by
  have hbyte : (slice s.buf pos 1).getD 0 0 = s.buf.getD pos 0 := by
    simp only [List.getD_eq_getElem?_getD, getElem?_slice]
    rfl
  rw [loadByte, run_bind (load_run hk h), hbyte]
  rfl

theorem loadBe16_run (hk : m.segs[k]? = some s) (h : pos + 2 ≤ s.buf.length) :
    loadBe16 k pos m = .ok (be16 (slice s.buf pos 2)) m := by
  rw [loadBe16, run_bind (load_run hk h)]
  rfl

end Run

section Trim

/-- Cutting the end off the last segment. -/
theorem trim_eq (hlib : lib.Documented) (hm : Chain m) (hsegs : m.segs = front ++ [s])
    (hn : n ≤ s.dataLen) :
    lib.trim m n =
      some ⟨front ++ [{ s with dataLen := s.dataLen - n }], m.pktLen - n, m.packetType⟩ := by
  have hpktLen : n ≤ m.pktLen := by
    have hsum := hm.pktLen
    rw [hsegs, dataLen_append, dataLen_cons, dataLen_nil] at hsum
    omega
  have hlt := hm.pktLen_lt
  have hsub : sub32 m.pktLen n = m.pktLen - n := by
    unfold sub32
    omega
  have hlib' := hlib.trim_eq front s m.pktLen m.packetType n
  rw [if_neg (Nat.not_lt.mpr hn), ← hsegs, hsub] at hlib'
  exact hlib'

theorem trim_none (hlib : lib.Documented) (hsegs : m.segs = front ++ [s]) (hn : s.dataLen < n) :
    lib.trim m n = none := by
  have hlib' := hlib.trim_eq front s m.pktLen m.packetType n
  rw [if_pos hn, ← hsegs] at hlib'
  exact hlib'

theorem Chain.trim (hm : Chain m) (hsegs : m.segs = front ++ [s]) (hn : n ≤ s.dataLen) :
    Chain ⟨front ++ [{ s with dataLen := s.dataLen - n }], m.pktLen - n, m.packetType⟩ where
  nonempty := by simp
  count := by
    have hcount := hm.count
    rw [hsegs, List.length_append, List.length_singleton] at hcount
    rw [List.length_append, List.length_singleton]
    exact hcount
  buf := by
    intro t ht
    rcases List.mem_append.mp ht with hfront | hlast
    · exact hm.buf t (by rw [hsegs]; exact List.mem_append_left _ hfront)
    · rw [List.mem_singleton.mp hlast]
      exact hm.buf s (by rw [hsegs]; exact List.mem_append_right _ List.mem_cons_self)
  fits := by
    intro t ht
    rcases List.mem_append.mp ht with hfront | hlast
    · exact hm.fits t (by rw [hsegs]; exact List.mem_append_left _ hfront)
    · have hfits := hm.fits s (by rw [hsegs]; exact List.mem_append_right _ List.mem_cons_self)
      rw [List.mem_singleton.mp hlast]
      dsimp only
      omega
  pktLen := by
    have hsum := hm.pktLen
    rw [hsegs] at hsum
    simp only [dataLen_append, dataLen_cons, dataLen_nil] at hsum ⊢
    omega

end Trim

section Reads

variable {δ : Type} {f : Mbuf → δ}

theorem keeps_segment : Keeps f (segment k) := by
  refine Keeps.bind Keeps.get fun m => ?_
  cases m.segs[k]? with
  | none => exact Keeps.throw _
  | some s => exact Keeps.pure s

theorem keeps_load : Keeps f (load k pos n) :=
  Keeps.bind keeps_segment fun _ => Keeps.ite (Keeps.pure _) (Keeps.throw _)

theorem keeps_loadByte : Keeps f (loadByte k pos) :=
  Keeps.bind keeps_load fun _ => Keeps.pure _

theorem keeps_loadBe16 : Keeps f (loadBe16 k pos) :=
  Keeps.bind keeps_load fun _ => Keeps.pure _

theorem keeps_mtod : Keeps f (mtod k) := Keeps.bind keeps_segment fun _ => Keeps.pure _

theorem keeps_pktLenNow : Keeps f pktLenNow := Keeps.bind Keeps.get fun _ => Keeps.pure _

theorem keeps_l3Len {oh : Nat} : Keeps f (l3Len oh) :=
  Keeps.bind Keeps.get fun _ => Keeps.ite (Keeps.bind keeps_loadByte fun _ => Keeps.pure _)
    (Keeps.pure _)

theorem keeps_payloadLenL3 {oh l3HdrLen : Nat} : Keeps f (payloadLenL3 oh l3HdrLen) :=
  Keeps.bind Keeps.get fun _ => Keeps.ite (Keeps.bind keeps_loadBe16 fun _ => Keeps.pure _)
    keeps_loadBe16

/-- Removing the trailing zeros is one call of the library, or none. -/
theorem removeTrailingZeros_cases (h : removeTrailingZeros lib m = .ok () m') :
    m' = m ∨ ∃ n, lib.trim m (wrap16 n) = some m' := by
  obtain ⟨oh, m₁, hmtod, h1⟩ := bind_eq_ok.mp h
  obtain ⟨l3HdrLen, m₂, hl3, h2⟩ := bind_eq_ok.mp h1
  obtain ⟨payload, m₃, hpayload, h3⟩ := bind_eq_ok.mp h2
  obtain ⟨pktLen, m₄, hpktLen, h4⟩ := bind_eq_ok.mp h3
  clear h h1 h2 h3
  obtain rfl : m₁ = m := (keeps_mtod (f := id)).run hmtod
  obtain rfl : m₂ = m₁ := (keeps_l3Len (f := id)).run hl3
  obtain rfl : m₃ = m₂ := (keeps_payloadLenL3 (f := id)).run hpayload
  obtain rfl : m₄ = m₃ := (keeps_pktLenNow (f := id)).run hpktLen
  generalize sub32 (sub32 pktLen (l3HdrLen + etherHdrLen)) payload = extra at h4
  unfold trimIfLonger at h4
  split at h4
  · obtain rfl : (lib.trim m₄ (wrap16 extra)).getD m₄ = m' := by
      injection h4
    cases htrim : lib.trim m₄ (wrap16 extra) with
    | none => exact .inl rfl
    | some m' => exact .inr ⟨extra, htrim⟩
  · injection h4 with _ hm
    exact .inl hm.symm

/-- What `remove_trailing_zeros` leaves of a chain is a chain. -/
theorem Chain.zerosRemoved (hlib : lib.Documented) (hm : Chain m)
    (h : removeTrailingZeros lib m = .ok () m') : Chain m' := by
  rcases removeTrailingZeros_cases h with rfl | ⟨n, htrim⟩
  · exact hm
  · obtain ⟨front, s, hsegs⟩ := hm.last
    rcases Nat.lt_or_ge s.dataLen (wrap16 n) with hshort | hroom
    · rw [trim_none hlib hsegs hshort] at htrim
      contradiction
    · rw [trim_eq hlib hm hsegs hroom] at htrim
      obtain rfl := Option.some.inj htrim
      exact hm.trim hsegs hroom

end Reads

end DocaApps.Proofs.PacketChain
