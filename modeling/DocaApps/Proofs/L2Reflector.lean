import DocaApps.L2Reflector.Device
import DocaApps.Lib.Runs

namespace DocaApps.Proofs.L2Reflector
open Lib.Runs L2Reflector.Device

theorem ofNat_succ (n : Nat) : UInt32.ofNat n + 1 = UInt32.ofNat (n + 1) := by
  rw [UInt32.ofNat_add]
  rfl

/-- A free-running counter under the mask of a ring. -/
theorem ofNat_and_mask (n k : Nat) {mask : UInt32} (hmask : mask.toNat = 2 ^ k - 1) (hk : k ≤ 32) :
    UInt32.ofNat n &&& mask = UInt32.ofNat (n % 2 ^ k) := by
  apply UInt32.toNat_inj.mp
  rw [UInt32.toNat_and, hmask, Nat.and_two_pow_sub_one_eq_mod, UInt32.toNat_ofNat',
    UInt32.toNat_ofNat', Nat.mod_mod_of_dvd n (Nat.pow_dvd_pow 2 hk)]
  have hle : 2 ^ k ≤ 2 ^ 32 := Nat.pow_le_pow_right (by omega) hk
  exact (Nat.mod_eq_of_lt (Nat.lt_of_lt_of_le (Nat.mod_lt n (by positivity)) hle)).symm

theorem ofNat_and_cq (n : Nat) : UInt32.ofNat n &&& l2CqIdxMask = UInt32.ofNat (n % 128) :=
  ofNat_and_mask n 7 (by decide) (by omega)

theorem ofNat_and_rq (n : Nat) : UInt32.ofNat n &&& l2RqIdxMask = UInt32.ofNat (n % 128) :=
  ofNat_and_mask n 7 (by decide) (by omega)

theorem ofNat_and_data (n : Nat) : UInt32.ofNat n &&& l2DataIdxMask = UInt32.ofNat (n % 128) :=
  ofNat_and_mask n 7 (by decide) (by omega)

theorem ofNat_and_sq (n : Nat) : UInt32.ofNat n &&& l2SqIdxMask = UInt32.ofNat (n % 512) :=
  ofNat_and_mask n 9 (by decide) (by omega)

/-- A small index scaled by a power of two. -/
theorem ofNat_shiftLeft (a b : Nat) (hb : b < 32) (hfit : a * 2 ^ b < 2 ^ 32) :
    UInt32.ofNat a <<< UInt32.ofNat b = UInt32.ofNat (a * 2 ^ b) := by
  have ha : a < 2 ^ 32 := Nat.lt_of_le_of_lt (Nat.le_mul_of_pos_right a (by positivity)) hfit
  apply UInt32.toNat_inj.mp
  rw [UInt32.toNat_shiftLeft, UInt32.toNat_ofNat', UInt32.toNat_ofNat', UInt32.toNat_ofNat',
    Nat.mod_eq_of_lt ha, Nat.mod_eq_of_lt (by omega : b < 2 ^ 32), Nat.mod_eq_of_lt hb,
    Nat.shiftLeft_eq]

theorem ofNat_slot_inj {a b : Nat} (h : UInt32.ofNat (a % 128) = UInt32.ofNat (b % 128)) :
    a % 128 = b % 128 := by
  have hnat := congrArg UInt32.toNat h
  rw [UInt32.toNat_ofNat', UInt32.toNat_ofNat'] at hnat
  omega

/-- The rounds of the swap so far have exchanged that many bytes of the two addresses. -/
theorem swapMacs_apply (mem : Nat → UInt8) (d k : Nat) (hk : k ≤ 6) (a : Nat) :
    swapMacs mem d k a =
      if d ≤ a ∧ a < d + k then mem (a + 6)
      else if d + 6 ≤ a ∧ a < d + 6 + k then mem (a - 6)
      else mem a := by
  induction k generalizing a with
  | zero =>
    rw [if_neg (by omega), if_neg (by omega)]
    rfl
  | succ k ih =>
    have hround : swapMacs mem d (k + 1) = swapByte (swapMacs mem d k) d k := by
      simp [swapMacs, List.range_succ]
    have ih' := ih (by omega)
    rw [hround, swapByte]
    by_cases hlow : a = d + k
    · subst hlow
      rw [Function.update_of_ne (by omega), Function.update_self, ih', if_neg (by omega),
        if_neg (by omega), if_pos (by omega)]
    · by_cases hhigh : a = d + k + 6
      · subst hhigh
        rw [Function.update_self, ih', if_neg (by omega), if_neg (by omega), if_neg (by omega),
          if_pos (by omega)]
        congr 1
      · rw [Function.update_of_ne hhigh, Function.update_of_ne hlow, ih']
        by_cases hin : d ≤ a ∧ a < d + k
        · rw [if_pos hin, if_pos (by omega)]
        · rw [if_neg hin, if_neg (by omega : ¬ (d ≤ a ∧ a < d + (k + 1)))]
          by_cases hin' : d + 6 ≤ a ∧ a < d + 6 + k
          · rw [if_pos hin', if_pos (by omega)]
          · rw [if_neg hin', if_neg (by omega)]

theorem bytes_length (f : Frame) : f.bytes.length = 12 + f.rest.length := by
  simp only [Frame.bytes, List.length_append, Vector.length_toList]

/-- The bytes of the frame with its addresses exchanged. -/
theorem swapped_getElem (f : Frame) (i : Nat) :
    f.swapped.bytes[i]? =
      if i < 6 then f.bytes[i + 6]? else if i < 12 then f.bytes[i - 6]? else f.bytes[i]? := by
  have hdst : f.dst.toList.length = 6 := Vector.length_toList ..
  have hsrc : f.src.toList.length = 6 := Vector.length_toList ..
  simp only [Frame.bytes, Frame.swapped, List.append_assoc]
  by_cases h6 : i < 6
  · rw [if_pos h6, List.getElem?_append_left (by omega), List.getElem?_append_right (by omega),
      List.getElem?_append_left (by omega), hdst]
    congr 1
  · rw [if_neg h6, List.getElem?_append_right (by omega), hsrc]
    by_cases h12 : i < 12
    · rw [if_pos h12, List.getElem?_append_left (by omega), List.getElem?_append_left (by omega)]
    · rw [if_neg h12, List.getElem?_append_right (by omega), List.getElem?_append_right (by omega),
        List.getElem?_append_right (by omega), hdst, hsrc]

/-- Copying the frame into the send buffer and exchanging the addresses there. -/
theorem sent_bytes (f : Frame) (mem src : Nat → UInt8) (d : Nat)
    (hsrc : ∀ i, i < f.bytes.length → f.bytes[i]? = some (src i)) :
    (List.range f.bytes.length).map
        (fun i => swapMacs (memcpy mem d src f.bytes.length) d 6 (d + i)) = f.swapped.bytes := by
  have hlen : f.swapped.bytes.length = f.bytes.length := by
    rw [bytes_length, bytes_length]
    rfl
  have hbig := bytes_length f
  have hcopy : ∀ i, i < f.bytes.length →
      some (memcpy mem d src f.bytes.length (d + i)) = f.bytes[i]? := by
    intro i hi
    rw [hsrc i hi, memcpy, if_pos (by omega)]
    congr 2
    omega
  refine List.ext_getElem? fun i => ?_
  by_cases hi : i < f.bytes.length
  · rw [List.getElem?_map, List.getElem?_range hi, Option.map_some, swapped_getElem,
      swapMacs_apply _ _ _ (Nat.le_refl 6)]
    by_cases h6 : i < 6
    · rw [if_pos (by omega), if_pos h6, ← hcopy (i + 6) (by omega), Nat.add_assoc]
    · rw [if_neg (by omega), if_neg h6]
      by_cases h12 : i < 12
      · rw [if_pos (by omega), if_pos h12, ← hcopy (i - 6) (by omega)]
        congr 2
        omega
      · rw [if_neg (by omega), if_neg h12, ← hcopy i hi]
  · rw [List.getElem?_eq_none (by simp; omega), List.getElem?_eq_none (by omega)]

variable {r : Reflector} {n : Nat} {frame : Frame}

/-- The counters of the send side after `n` packets. -/
structure SendSide (r : Reflector) (n : Nat) : Prop where
  sqPi : r.sqPi = UInt32.ofNat n
  sqWqeSegIdx : r.sqWqeSegIdx = UInt32.ofNat (4 * n)
  txBuffIdx : r.txBuffIdx = UInt32.ofNat n

/-- Segment `j` of the WQE slot of packet `n`. -/
def segment (n j : Nat) : UInt32 := UInt32.ofNat (n % 128 * 4 + j)

theorem segment_ne (n : Nat) {i j : Nat} (hij : i ≠ j) (hi : i < 4) (hj : j < 4) :
    segment n i ≠ segment n j := by
  intro heq
  have hnat := congrArg UInt32.toNat heq
  simp only [segment, UInt32.toNat_ofNat'] at hnat
  omega

theorem getNextSqe_segment {j : Nat} (hj : j < 4) (h : r.sqWqeSegIdx = UInt32.ofNat (4 * n + j)) :
    getNextSqe r = (segment n j, { r with sqWqeSegIdx := UInt32.ofNat (4 * n + j + 1) }) := by
  have hpos : (4 * n + j) % 512 = n % 128 * 4 + j := by omega
  unfold getNextSqe segment
  rw [h, ofNat_and_sq, hpos, ofNat_succ]

theorem setNextSqe_segment {j : Nat} (hj : j < 4) (h : r.sqWqeSegIdx = UInt32.ofNat (4 * n + j))
    (seg : SqeSeg) :
    setNextSqe r seg = { r with
      sqWqeSegIdx := UInt32.ofNat (4 * n + j + 1)
      sqRing := Function.update r.sqRing (segment n j) seg } := by
  unfold setNextSqe
  rw [getNextSqe_segment hj h]

/-- Where the hardware looks for the segments of packet `n`. -/
theorem wqe_segment (n j : Nat) :
    (UInt32.ofNat n &&& l2DataIdxMask) <<< logSqeNumSegs + UInt32.ofNat j = segment n j := by
  rw [ofNat_and_data, show logSqeNumSegs = UInt32.ofNat 2 from rfl,
    ofNat_shiftLeft _ _ (by omega) (by omega), ← UInt32.ofNat_add]
  rfl

/-- The hardware finds the three segments of packet `n` and sends the data they name. -/
theorem transmission_of_segments {byteCnt addr : UInt32}
    (hctrl : r.sqRing (segment n 0) = .ctrl (UInt32.ofNat n) r.sqNumber)
    (heth : r.sqRing (segment n 1) = .eth 0 0)
    (hdata : r.sqRing (segment n 2) = .data byteCnt r.lkey addr) :
    transmission r (UInt32.ofNat (n + 1)) =
      some ⟨UInt32.ofNat (n % 128), addr,
        (List.range byteCnt.toNat).map fun i => r.sqTxBuff (addr.toNat + i)⟩ := by
  have hpi : UInt32.ofNat (n + 1) - 1 = UInt32.ofNat n := by
    rw [← ofNat_succ]
    simp
  have h0 := wqe_segment n 0
  have h1 := wqe_segment n 1
  have h2 := wqe_segment n 2
  have hzero : ∀ x : UInt32, x + UInt32.ofNat 0 = x := fun x => UInt32.add_zero x
  rw [hzero] at h0
  unfold transmission
  dsimp only
  rw [hpi, show (1 : UInt32) = UInt32.ofNat 1 from rfl, show (2 : UInt32) = UInt32.ofNat 2 from rfl,
    h1, h2, h0, hctrl, heth, hdata]
  simp only [and_self, if_true, ofNat_and_data]

/-- The send queue once the segments of packet `n` are filled out. -/
def filledRing (r : Reflector) (n : Nat) (dataSz sqData : UInt32) : UInt32 → SqeSeg :=
  Function.update (Function.update (Function.update r.sqRing
    (segment n 0) (.ctrl (UInt32.ofNat n) r.sqNumber)) (segment n 1) (.eth 0 0))
    (segment n 2) (.data dataSz r.lkey sqData)

theorem fillWqe_spec (hpi : r.sqPi = UInt32.ofNat n) (hseg : r.sqWqeSegIdx = UInt32.ofNat (4 * n))
    (dataSz sqData : UInt32) :
    fillWqe r dataSz sqData = { r with
      sqWqeSegIdx := UInt32.ofNat (4 * (n + 1))
      sqRing := filledRing r n dataSz sqData } := by
  unfold fillWqe
  dsimp only
  have h1 := setNextSqe_segment (j := 0) (by omega) hseg (.ctrl r.sqPi r.sqNumber)
  generalize setNextSqe r (.ctrl r.sqPi r.sqNumber) = r1 at h1 ⊢
  have hseg1 : r1.sqWqeSegIdx = UInt32.ofNat (4 * n + 1) := by rw [h1]
  have h2 := setNextSqe_segment (by omega) hseg1 (.eth 0 0)
  generalize setNextSqe r1 (.eth 0 0) = r2 at h2 ⊢
  have hseg2 : r2.sqWqeSegIdx = UInt32.ofNat (4 * n + 2) := by rw [h2]
  have h3 := setNextSqe_segment (by omega) hseg2 (.data dataSz r2.lkey sqData)
  generalize setNextSqe r2 (.data dataSz r2.lkey sqData) = r3 at h3 ⊢
  have hseg3 : r3.sqWqeSegIdx = UInt32.ofNat (4 * n + 3) := by rw [h3]
  rw [getNextSqe_segment (by omega) hseg3, h3, h2, h1, hpi]
  rfl

theorem filledRing_segments (r : Reflector) (n : Nat) (dataSz sqData : UInt32) :
    filledRing r n dataSz sqData (segment n 0) = .ctrl (UInt32.ofNat n) r.sqNumber ∧
      filledRing r n dataSz sqData (segment n 1) = .eth 0 0 ∧
      filledRing r n dataSz sqData (segment n 2) = .data dataSz r.lkey sqData := by
  have h01 := segment_ne n (show 0 ≠ 1 by omega) (by omega) (by omega)
  have h02 := segment_ne n (show 0 ≠ 2 by omega) (by omega) (by omega)
  have h12 := segment_ne n (show 1 ≠ 2 by omega) (by omega) (by omega)
  refine ⟨?_, ?_, Function.update_self ..⟩
  · rw [filledRing, Function.update_of_ne h02, Function.update_of_ne h01, Function.update_self]
  · rw [filledRing, Function.update_of_ne h12, Function.update_self]

/-- What packet `n` is sent as. -/
def sentAs (n : Nat) (frame : Frame) : Transmission :=
  ⟨UInt32.ofNat (n % 128), UInt32.ofNat (n % 128 * 2048), frame.swapped.bytes⟩

/-- The current completion is that of packet `n` with this frame. -/
structure Current (r : Reflector) (n : Nat) (frame : Frame) : Prop where
  wqeCounter : (r.cqRing r.cqe).wqeCounter = UInt16.ofNat n
  byteCnt : (r.cqRing r.cqe).byteCnt = UInt32.ofNat frame.bytes.length
  data : ∀ i, i < frame.bytes.length →
    frame.bytes[i]? = some (r.rxBuff (UInt32.ofNat (n % 128)) i)

theorem wqeCounter_and_rq (n : Nat) :
    (UInt16.ofNat n).toUInt32 &&& l2RqIdxMask = UInt32.ofNat (n % 128) := by
  have hwide : (UInt16.ofNat n).toUInt32 = UInt32.ofNat (n % 65536) := by
    apply UInt32.toNat_inj.mp
    simp only [UInt16.toNat_toUInt32, UInt16.toNat_ofNat', UInt32.toNat_ofNat']
    omega
  rw [hwide, ofNat_and_rq]
  congr 1
  omega

/-- The device once packet `n` stands in its slot and its entry. -/
def prepared (r : Reflector) (n : Nat) (frame : Frame) : Reflector := { r with
  txBuffIdx := UInt32.ofNat (n + 1)
  sqTxBuff := swapMacs (memcpy r.sqTxBuff (n % 128 * 2048)
    (r.rxBuff (UInt32.ofNat (n % 128))) frame.bytes.length) (n % 128 * 2048) 6
  sqWqeSegIdx := UInt32.ofNat (4 * (n + 1))
  sqRing := filledRing r n (UInt32.ofNat frame.bytes.length) (UInt32.ofNat (n % 128 * 2048))
  sqPi := UInt32.ofNat (n + 1) }

theorem toNat_frameLength (frame : Frame) :
    (UInt32.ofNat frame.bytes.length).toNat = frame.bytes.length := by
  have hfits := frame.fits
  rw [UInt32.toNat_ofNat', bytes_length]
  omega

theorem toNat_entry (n : Nat) : (UInt32.ofNat (n % 128 * 2048)).toNat = n % 128 * 2048 := by
  rw [UInt32.toNat_ofNat']
  omega

theorem processPacket_eq (hs : SendSide r n) (hc : Current r n frame) :
    processPacket r = { ringDb (prepared r n frame) with rqDbr := r.rqDbr + 1 } := by
  obtain ⟨hpi, hseg, htx⟩ := hs
  obtain ⟨hcounter, hsize, hdata⟩ := hc
  have hcopy : reflectData r (r.cqRing r.cqe).wqeCounter.toUInt32 (r.cqRing r.cqe).byteCnt =
      (UInt32.ofNat (n % 128 * 2048), { r with
        txBuffIdx := UInt32.ofNat (n + 1)
        sqTxBuff := swapMacs (memcpy r.sqTxBuff (n % 128 * 2048)
          (r.rxBuff (UInt32.ofNat (n % 128))) frame.bytes.length) (n % 128 * 2048) 6 }) := by
    unfold reflectData getNextDte
    rw [hcounter, hsize, wqeCounter_and_rq, htx, ofNat_and_data, ofNat_succ,
      show l2LogWqDataEntryBsize = UInt32.ofNat 11 from rfl,
      ofNat_shiftLeft _ _ (by omega) (by omega), toNat_frameLength]
    simp only [Nat.reducePow, toNat_entry]
  unfold processPacket
  dsimp only
  rw [hcopy, hsize]
  dsimp only
  rw [fillWqe_spec (n := n)]
  · dsimp only
    rw [hpi, ofNat_succ]
    rfl
  · exact hpi
  · exact hseg

/-- The bytes of the frame, with the addresses exchanged, are in the entry of packet `n`. -/
theorem prepared_bytes (hc : Current r n frame) :
    (List.range frame.bytes.length).map
      (fun i => (prepared r n frame).sqTxBuff (n % 128 * 2048 + i)) = frame.swapped.bytes := by
  simp only [prepared]
  exact sent_bytes frame r.sqTxBuff (r.rxBuff (UInt32.ofNat (n % 128))) _ hc.data

/-- Processing packet `n` sends it from its own slot and entry, with its addresses
exchanged, and moves every counter of the send side on. -/
theorem processPacket_spec (hs : SendSide r n) (hc : Current r n frame) :
    SendSide (processPacket r) (n + 1) ∧
      (processPacket r).transmitted = r.transmitted ++ [some (sentAs n frame)] ∧
      (processPacket r).cqRing = r.cqRing ∧ (processPacket r).rxBuff = r.rxBuff ∧
      (processPacket r).cqIdx = r.cqIdx ∧ (processPacket r).cqHwOwnerBit = r.cqHwOwnerBit ∧
      (processPacket r).received = r.received ∧ (processPacket r).consumed = r.consumed := by
  have hsent : transmission (prepared r n frame) (UInt32.ofNat (n + 1)) =
      some (sentAs n frame) := by
    obtain ⟨hctrl, heth, hseg⟩ := filledRing_segments r n (UInt32.ofNat frame.bytes.length)
      (UInt32.ofNat (n % 128 * 2048))
    have hfound := transmission_of_segments (r := prepared r n frame) hctrl heth hseg
    rw [hfound, toNat_frameLength, toNat_entry, prepared_bytes hc]
    rfl
  rw [processPacket_eq hs hc]
  refine ⟨⟨rfl, rfl, rfl⟩, ?_, rfl, rfl, rfl, rfl, rfl, rfl⟩
  show r.transmitted ++ [transmission (prepared r n frame) (UInt32.ofNat (n + 1))] = _
  rw [hsent]

/-- The completion the hardware writes for packet `k`. -/
def completionOf (k : Nat) (frame : Frame) : Cqe :=
  ⟨UInt16.ofNat k, UInt32.ofNat frame.bytes.length, UInt8.ofNat (k / 128 % 2), some k⟩

/-- The counters and rings agree with the packets received and consumed so far. -/
structure Queues (r : Reflector) : Prop where
  behind : r.consumed.length ≤ r.received.length
  ahead : r.received.length ≤ r.consumed.length + 128
  order : r.consumed = (List.range r.consumed.length).map some
  cqIdx : r.cqIdx = UInt32.ofNat r.consumed.length
  cqe : r.cqe = UInt32.ofNat (r.consumed.length % 128)
  owner : r.cqHwOwnerBit = UInt8.ofNat ((r.consumed.length / 128 + 1) % 2)
  send : SendSide r r.consumed.length
  ring : ∀ k f, r.received[k]? = some f → r.received.length ≤ k + 128 →
    r.cqRing (UInt32.ofNat (k % 128)) = completionOf k f
  unwritten : ∀ j, r.received.length ≤ j → j < 128 → (r.cqRing (UInt32.ofNat (j % 128))).owner = 1
  data : ∀ k f, r.received[k]? = some f → r.consumed.length ≤ k →
    ∀ i, i < f.bytes.length → f.bytes[i]? = some (r.rxBuff (UInt32.ofNat (k % 128)) i)
  sent : r.transmitted =
    (r.received.take r.consumed.length).mapIdx fun k f => some (sentAs k f)

/-- The owner bit of a slot tells whether the completion there is the next one. -/
theorem Queues.ready_iff (hq : Queues r) :
    ready r = true ↔ r.consumed.length < r.received.length := by
  have hbits : ∀ a b : Nat, (UInt8.ofNat (a % 2) != UInt8.ofNat (b % 2)) = true ↔ a % 2 ≠ b % 2 := by
    intro a b
    rcases Nat.mod_two_eq_zero_or_one a with ha | ha <;>
      rcases Nat.mod_two_eq_zero_or_one b with hb | hb <;> rw [ha, hb] <;> decide
  unfold ready
  rw [hq.cqe, hq.owner]
  by_cases hlt : r.consumed.length < r.received.length
  · obtain ⟨f, hf⟩ : ∃ f, r.received[r.consumed.length]? = some f :=
      ⟨_, List.getElem?_eq_getElem hlt⟩
    rw [hq.ring _ f hf hq.ahead, completionOf, hbits]
    simp only [hlt, iff_true]
    omega
  · have heq : r.consumed.length = r.received.length := by
      have := hq.behind
      omega
    simp only [hlt, iff_false]
    by_cases hsmall : r.consumed.length < 128
    · rw [hq.unwritten _ (by omega) hsmall, show (1 : UInt8) = UInt8.ofNat (1 % 2) from rfl, hbits]
      omega
    · have hk : r.consumed.length - 128 < r.received.length := by omega
      obtain ⟨f, hf⟩ : ∃ f, r.received[r.consumed.length - 128]? = some f :=
        ⟨_, List.getElem?_eq_getElem hk⟩
      have hslot : r.consumed.length % 128 = (r.consumed.length - 128) % 128 := by omega
      rw [hslot, hq.ring _ f hf (by omega), completionOf, hbits]
      omega

theorem receive_queues (hq : Queues r) (hroom : r.received.length < r.consumed.length + 128) :
    Queues (receive r frame) := by
  have hother : ∀ k, k < r.received.length → r.received.length < k + 128 →
      UInt32.ofNat (k % 128) ≠ UInt32.ofNat (r.received.length % 128) := by
    intro k hk hnear heq
    have hmod := ofNat_slot_inj heq
    omega
  have hget : ∀ {k f}, (r.received ++ [frame])[k]? = some f →
      r.received[k]? = some f ∧ k < r.received.length ∨ k = r.received.length ∧ f = frame := by
    intro k f hf
    by_cases hk : k < r.received.length
    · rw [List.getElem?_append_left hk] at hf
      exact Or.inl ⟨hf, hk⟩
    · have hlen := (List.getElem?_eq_some_iff.mp hf).1
      simp only [List.length_append, List.length_cons, List.length_nil] at hlen
      obtain rfl : k = r.received.length := by omega
      simp only [List.getElem?_concat_length, Option.some.injEq] at hf
      exact Or.inr ⟨rfl, hf.symm⟩
  obtain ⟨hbehind, hahead, horder, hidx, hcqe, howner, hsend, hring, hunwritten, hdata, hsent⟩ := hq
  have hlen : (receive r frame).received.length = r.received.length + 1 := by
    simp [receive]
  refine ⟨?_, ?_, horder, hidx, hcqe, howner, ⟨hsend.1, hsend.2, hsend.3⟩, ?_, ?_, ?_, ?_⟩
  · rw [hlen]
    exact Nat.le_succ_of_le hbehind
  · rw [hlen]
    exact hroom
  · intro k f hf hnear
    rw [hlen] at hnear
    show Function.update r.cqRing (UInt32.ofNat (r.received.length % 128)) _ _ = _
    rcases hget hf with ⟨hold, hk⟩ | ⟨rfl, rfl⟩
    · rw [Function.update_of_ne (hother k hk (by omega))]
      exact hring k f hold (by omega)
    · exact Function.update_self ..
  · intro j hj hj'
    rw [hlen] at hj
    show (Function.update r.cqRing (UInt32.ofNat (r.received.length % 128)) _ _).owner = 1
    have hne : UInt32.ofNat (j % 128) ≠ UInt32.ofNat (r.received.length % 128) := by
      intro heq
      have hmod := ofNat_slot_inj heq
      omega
    rw [Function.update_of_ne hne]
    exact hunwritten j (by omega) hj'
  · intro k f hf hk i hi
    show _ = some (Function.update r.rxBuff (UInt32.ofNat (r.received.length % 128)) _ _ i)
    rcases hget hf with ⟨hold, hlt⟩ | ⟨rfl, rfl⟩
    · replace hk : r.consumed.length ≤ k := hk
      rw [Function.update_of_ne (hother k hlt (by omega))]
      exact hdata k f hold hk i hi
    · rw [Function.update_self, List.getD_eq_getElem?_getD, List.getElem?_eq_getElem hi]
      rfl
  · show r.transmitted = ((r.received ++ [frame]).take r.consumed.length).mapIdx _
    rw [List.take_append_of_le_length hbehind]
    exact hsent

/-- The owner bit flips exactly when the consumer starts the ring again. -/
theorem owner_step (n : Nat) :
    (if UInt32.ofNat ((n + 1) % 128) = 0 then
        (if UInt8.ofNat ((n / 128 + 1) % 2) = 0 then 1 else 0)
      else UInt8.ofNat ((n / 128 + 1) % 2)) = UInt8.ofNat (((n + 1) / 128 + 1) % 2) := by
  have hzero : UInt32.ofNat ((n + 1) % 128) = 0 ↔ (n + 1) % 128 = 0 := by
    constructor
    · intro h
      have hnat := congrArg UInt32.toNat h
      rw [UInt32.toNat_ofNat'] at hnat
      replace hnat : (n + 1) % 128 % 2 ^ 32 = 0 := hnat
      omega
    · intro h
      rw [h]
      rfl
  by_cases hwrap : (n + 1) % 128 = 0
  · rw [if_pos (hzero.mpr hwrap)]
    have hnext : (n + 1) / 128 = n / 128 + 1 := by omega
    rw [hnext]
    rcases Nat.mod_two_eq_zero_or_one (n / 128) with h | h
    · rw [show (n / 128 + 1) % 2 = 1 by omega, show (n / 128 + 1 + 1) % 2 = 0 by omega]
      rfl
    · rw [show (n / 128 + 1) % 2 = 0 by omega, show (n / 128 + 1 + 1) % 2 = 1 by omega]
      rfl
  · rw [if_neg (fun h => hwrap (hzero.mp h))]
    have hsame : (n + 1) / 128 = n / 128 := by omega
    rw [hsame]

/-- The device as the handler takes the next completion. -/
def taken (r : Reflector) : Reflector :=
  { r with consumed := r.consumed ++ [(r.cqRing r.cqe).completion] }

theorem Queues.completion (hq : Queues r) {f : Frame}
    (hf : r.received[r.consumed.length]? = some f) :
    r.cqRing r.cqe = completionOf r.consumed.length f := by
  rw [hq.cqe]
  exact hq.ring _ f hf hq.ahead

/-- The completion that is taken is that of the next packet. -/
theorem Queues.current (hq : Queues r) {f : Frame}
    (hf : r.received[r.consumed.length]? = some f) :
    SendSide (taken r) r.consumed.length ∧ Current (taken r) r.consumed.length f := by
  have hcqe := hq.completion hf
  exact ⟨⟨hq.send.1, hq.send.2, hq.send.3⟩, congrArg Cqe.wqeCounter hcqe,
    congrArg Cqe.byteCnt hcqe, hq.data _ f hf (Nat.le_refl _)⟩

theorem poll_queues (hq : Queues r) : Queues (poll r) := by
  unfold poll
  by_cases hready : ready r = true
  · rw [if_pos hready]
    have hlt := hq.ready_iff.mp hready
    obtain ⟨f, hf⟩ : ∃ f, r.received[r.consumed.length]? = some f :=
      ⟨_, List.getElem?_eq_getElem hlt⟩
    have hdone : (r.cqRing r.cqe).completion = some r.consumed.length := by
      rw [hq.completion hf]
      rfl
    obtain ⟨hsend, hcur⟩ := hq.current hf
    obtain ⟨hside, htrans, hcqRing, hrx, hidx, hown, hrec, hcons⟩ := processPacket_spec hsend hcur
    have hlen : (processPacket (taken r)).consumed.length = r.consumed.length + 1 := by
      rw [hcons]
      simp [taken]
    show Queues (stepCq (processPacket (taken r)))
    have hbehind := hq.behind
    have hahead := hq.ahead
    have hnext : (processPacket (taken r)).cqIdx + 1 = UInt32.ofNat (r.consumed.length + 1) := by
      rw [hidx]
      show r.cqIdx + 1 = _
      rw [hq.cqIdx, ofNat_succ]
    refine ⟨?_, ?_, ?_, ?_, ?_, ?_, ⟨?_, ?_, ?_⟩, ?_, ?_, ?_, ?_⟩
    · show (processPacket (taken r)).consumed.length ≤ (processPacket (taken r)).received.length
      rw [hlen, hrec]
      exact hlt
    · show (processPacket (taken r)).received.length ≤ (processPacket (taken r)).consumed.length + 128
      rw [hlen, hrec]
      show r.received.length ≤ _
      omega
    · show (processPacket (taken r)).consumed =
        (List.range (processPacket (taken r)).consumed.length).map some
      rw [hlen, hcons, List.range_succ, List.map_append, ← hq.order]
      show r.consumed ++ [(r.cqRing r.cqe).completion] = _
      rw [hdone]
      rfl
    · show (processPacket (taken r)).cqIdx + 1 = UInt32.ofNat (processPacket (taken r)).consumed.length
      rw [hlen, hnext]
    · show ((processPacket (taken r)).cqIdx + 1) &&& l2CqIdxMask =
        UInt32.ofNat ((processPacket (taken r)).consumed.length % 128)
      rw [hlen, hnext, ofNat_and_cq]
    · show (if ((processPacket (taken r)).cqIdx + 1) &&& l2CqIdxMask = 0 then
          (if (processPacket (taken r)).cqHwOwnerBit = 0 then 1 else 0)
        else (processPacket (taken r)).cqHwOwnerBit) =
          UInt8.ofNat (((processPacket (taken r)).consumed.length / 128 + 1) % 2)
      rw [hlen, hnext, ofNat_and_cq, hown]
      show (if _ then (if r.cqHwOwnerBit = 0 then 1 else 0) else r.cqHwOwnerBit) = _
      rw [hq.owner]
      exact owner_step r.consumed.length
    · show (processPacket (taken r)).sqPi = UInt32.ofNat (processPacket (taken r)).consumed.length
      rw [hlen, hside.sqPi]
    · show (processPacket (taken r)).sqWqeSegIdx =
        UInt32.ofNat (4 * (processPacket (taken r)).consumed.length)
      rw [hlen, hside.sqWqeSegIdx]
    · show (processPacket (taken r)).txBuffIdx = UInt32.ofNat (processPacket (taken r)).consumed.length
      rw [hlen, hside.txBuffIdx]
    · intro k f' hf' hnear
      replace hf' : (processPacket (taken r)).received[k]? = some f' := hf'
      replace hnear : (processPacket (taken r)).received.length ≤ k + 128 := hnear
      show (processPacket (taken r)).cqRing _ = _
      rw [hrec] at hf' hnear
      rw [hcqRing]
      exact hq.ring k f' hf' hnear
    · intro j hj hj'
      replace hj : (processPacket (taken r)).received.length ≤ j := hj
      show ((processPacket (taken r)).cqRing _).owner = 1
      rw [hrec] at hj
      rw [hcqRing]
      exact hq.unwritten j hj hj'
    · intro k f' hf' hk i hi
      replace hf' : (processPacket (taken r)).received[k]? = some f' := hf'
      replace hk : (processPacket (taken r)).consumed.length ≤ k := hk
      show _ = some ((processPacket (taken r)).rxBuff _ i)
      rw [hrec] at hf'
      rw [hlen] at hk
      rw [hrx]
      exact hq.data k f' hf' (by omega) i hi
    · show (processPacket (taken r)).transmitted =
        ((processPacket (taken r)).received.take (processPacket (taken r)).consumed.length).mapIdx _
      rw [hlen, htrans, hrec]
      show r.transmitted ++ _ = (r.received.take _).mapIdx _
      rw [hq.sent, List.take_add_one, hf, Option.toList_some, List.mapIdx_append]
      congr 1
      simp only [List.mapIdx_cons, List.mapIdx_nil, List.length_take, Nat.min_eq_left hbehind,
        Nat.zero_add]
  · rw [if_neg hready]
    exact hq

theorem step_queues {e : Event} (hq : Queues r) (he : NoOverrun r e) : Queues (step r e) := by
  cases e with
  | receive frame => exact receive_queues hq he
  | poll => exact poll_queues hq

/-- A round of the handler takes the next completion, when there is one. -/
theorem poll_consumes (hq : Queues r) :
    (poll r).consumed = if r.consumed.length < r.received.length then
      r.consumed ++ [some r.consumed.length] else r.consumed := by
  by_cases hlt : r.consumed.length < r.received.length
  · rw [if_pos hlt]
    have hlen : (poll r).consumed.length = r.consumed.length + 1 := by
      unfold poll
      rw [if_pos (hq.ready_iff.mpr hlt)]
      show (r.consumed ++ [_]).length = _
      simp
    rw [(poll_queues hq).order, hlen, List.range_succ, List.map_append, ← hq.order]
    rfl
  · rw [if_neg hlt]
    unfold poll
    rw [if_neg (fun h => hlt (hq.ready_iff.mp h))]

section Run

variable (lkey sqNumber rqDbr : UInt32) (rxBuff : UInt32 → Nat → UInt8) (sqRing : UInt32 → SqeSeg)
  (sqTxBuff : Nat → UInt8) (counter : UInt16) (size : UInt32)

theorem deviceInit_queues :
    Queues (deviceInit lkey sqNumber rqDbr rxBuff sqRing sqTxBuff counter size) := by
  refine ⟨?_, ?_, rfl, rfl, rfl, ?_, ⟨rfl, rfl, rfl⟩, ?_, fun _ _ _ => rfl, ?_, rfl⟩
  · exact Nat.le_refl _
  · exact Nat.zero_le _
  · show (1 : UInt8) = UInt8.ofNat ((0 / 128 + 1) % 2)
    rfl
  · intro k f hf
    simp [deviceInit] at hf
  · intro k f hf
    simp [deviceInit] at hf

/-- Over every run in which the hardware does not overrun the consumer, the handler
consumes each completion once and in order, its counters are the number of packets
modulo their width, and packet `k` leaves from slot and entry `k` of the rings with its
addresses exchanged. -/
theorem reflector_queues_in_step (events : List Event)
    (hrun : Along step NoOverrun
      (deviceInit lkey sqNumber rqDbr rxBuff sqRing sqTxBuff counter size) events) :
    let r := run step (deviceInit lkey sqNumber rqDbr rxBuff sqRing sqTxBuff counter size) events
    let n := r.consumed.length
    r.consumed = (List.range n).map some ∧ n ≤ r.received.length ∧
      (poll r).consumed =
        (if n < r.received.length then r.consumed ++ [some n] else r.consumed) ∧
      r.cqIdx.toNat = n % 2 ^ 32 ∧ r.sqPi.toNat = n % 2 ^ 32 ∧
      r.sqWqeSegIdx.toNat = 4 * n % 2 ^ 32 ∧ r.txBuffIdx.toNat = n % 2 ^ 32 ∧
      r.transmitted = (r.received.take n).mapIdx fun k f => some (sentAs k f) := by
  have hq : Queues
      (run step (deviceInit lkey sqNumber rqDbr rxBuff sqRing sqTxBuff counter size) events) :=
    run_invariant (fun _ _ hq he => step_queues hq he)
      (deviceInit_queues lkey sqNumber rqDbr rxBuff sqRing sqTxBuff counter size) hrun
  refine ⟨hq.order, hq.behind, poll_consumes hq, ?_, ?_, ?_, ?_, hq.sent⟩
  · rw [hq.cqIdx, UInt32.toNat_ofNat']
  · rw [hq.send.sqPi, UInt32.toNat_ofNat']
  · rw [hq.send.sqWqeSegIdx, UInt32.toNat_ofNat']
  · rw [hq.send.txBuffIdx, UInt32.toNat_ofNat']

end Run

def shortFrame : Frame := ⟨#v[1, 2, 3, 4, 5, 6], #v[7, 8, 9, 10, 11, 12], [13], by decide⟩

theorem reflector_queues_one_frame :
    let r := run step (deviceInit 1 2 0 (fun _ _ => 0) (fun _ => .empty) (fun _ => 0) 0 0)
      [.receive shortFrame, .poll]
    r.transmitted = [some ⟨0, 0, [7, 8, 9, 10, 11, 12, 1, 2, 3, 4, 5, 6, 13]⟩] := by
  have hrun : Along step NoOverrun
      (deviceInit 1 2 0 (fun _ _ => 0) (fun _ => .empty) (fun _ => 0) 0 0)
      [.receive shortFrame, .poll] := ⟨Nat.zero_lt_succ 127, trivial, trivial⟩
  exact (reflector_queues_in_step 1 2 0 (fun _ _ => 0) (fun _ => .empty) (fun _ => 0) 0 0 _
    hrun).2.2.2.2.2.2.2

end DocaApps.Proofs.L2Reflector
