import DocaApps.L2Reflector.Device
import DocaApps.Proofs.L2Reflector

namespace DocaApps.Proofs.LateSends
open Lib.Runs L2Reflector.LateSends Proofs.L2Reflector
open L2Reflector.Device hiding Event step NoOverrun

variable {r : Reflector} {t : Nic} {n k : Nat} {f frame : Frame}

/-- The send of packet `k` stands in its slot and its entry as it was prepared. -/
structure Held (r : Reflector) (k : Nat) (f : Frame) : Prop where
  ctrl : r.sqRing (segment k 0) = .ctrl (UInt32.ofNat k) r.sqNumber
  eth : r.sqRing (segment k 1) = .eth 0 0
  data : r.sqRing (segment k 2) =
    .data (UInt32.ofNat f.bytes.length) r.lkey (UInt32.ofNat (k % 128 * 2048))
  bytes : (List.range f.bytes.length).map (fun i => r.sqTxBuff (k % 128 * 2048 + i)) =
    f.swapped.bytes

theorem Held.transmission (h : Held r k f) :
    transmission r (UInt32.ofNat (k + 1)) = some (sentAs k f) := by
  rw [transmission_of_segments h.ctrl h.eth h.data, toNat_frameLength, toNat_entry, h.bytes]
  rfl

theorem segment_ne_of_slot (h : k % 128 ≠ n % 128) {i j : Nat} (hi : i < 4) (hj : j < 4) :
    segment k i ≠ segment n j := by
  intro heq
  have hnat := congrArg UInt32.toNat heq
  simp only [L2Reflector.segment, UInt32.toNat_ofNat'] at hnat
  omega

/-- The slots of the other packets are left alone. -/
theorem filledRing_other (h : k % 128 ≠ n % 128) {j : Nat} (hj : j < 4) (dataSz sqData : UInt32) :
    filledRing r n dataSz sqData (segment k j) = r.sqRing (segment k j) := by
  rw [filledRing, Function.update_of_ne (segment_ne_of_slot h hj (by omega)),
    Function.update_of_ne (segment_ne_of_slot h hj (by omega)),
    Function.update_of_ne (segment_ne_of_slot h hj (by omega))]

/-- And so are their entries. -/
theorem prepared_other (h : k % 128 ≠ n % 128) {i : Nat} (hi : i < 2048) :
    (prepared r n frame).sqTxBuff (k % 128 * 2048 + i) = r.sqTxBuff (k % 128 * 2048 + i) := by
  have hfits := frame.fits
  have hlen := bytes_length frame
  have hapart : k % 128 * 2048 + i < n % 128 * 2048 ∨
      n % 128 * 2048 + 2048 ≤ k % 128 * 2048 + i := by omega
  simp only [prepared]
  rw [swapMacs_apply _ _ _ le_rfl, if_neg (by omega), if_neg (by omega), memcpy,
    if_neg (by omega)]

theorem Held.prepared (h : Held r k f) (hslot : k % 128 ≠ n % 128) :
    Held (prepared r n frame) k f := by
  refine ⟨?_, ?_, ?_, ?_⟩
  · exact (filledRing_other hslot (by omega) _ _).trans h.ctrl
  · exact (filledRing_other hslot (by omega) _ _).trans h.eth
  · exact (filledRing_other hslot (by omega) _ _).trans h.data
  · rw [← h.bytes]
    apply List.map_congr_left
    intro i hi
    have hfits := f.fits
    rw [List.mem_range, bytes_length] at hi
    exact prepared_other hslot (by omega)

theorem held_prepared (hc : Current r n frame) : Held (prepared r n frame) n frame := by
  obtain ⟨hctrl, heth, hdata⟩ := filledRing_segments r n (UInt32.ofNat frame.bytes.length)
    (UInt32.ofNat (n % 128 * 2048))
  exact ⟨hctrl, heth, hdata, prepared_bytes hc⟩

/-- What is held is so by any device with the same rings. -/
theorem Held.congr {r' : Reflector} (h : Held r k f) (hring : r'.sqRing = r.sqRing)
    (hbuff : r'.sqTxBuff = r.sqTxBuff) (hlkey : r'.lkey = r.lkey)
    (hsq : r'.sqNumber = r.sqNumber) : Held r' k f := by
  refine ⟨?_, ?_, ?_, ?_⟩
  · rw [hring, hsq]
    exact h.ctrl
  · rw [hring]
    exact h.eth
  · rw [hring, hlkey]
    exact h.data
  · rw [hbuff]
    exact h.bytes

theorem poll_prepared (hq : Queues r) (hready : ready r = true)
    (hf : r.received[r.consumed.length]? = some f) :
    poll r = stepCq { ringDb (prepared (taken r) r.consumed.length f) with
      rqDbr := r.rqDbr + 1 } := by
  obtain ⟨hsend, hcur⟩ := hq.current hf
  unfold poll
  rw [if_pos hready]
  show stepCq (processPacket (taken r)) = _
  rw [processPacket_eq hsend hcur]
  rfl

/-- Taking the next packet leaves the sends in other slots as they are, and prepares its own. -/
theorem poll_held (hq : Queues r) (hready : ready r = true)
    (hf : r.received[r.consumed.length]? = some f) :
    Held (poll r) r.consumed.length f ∧
      ∀ k f', k % 128 ≠ r.consumed.length % 128 → Held r k f' → Held (poll r) k f' := by
  obtain ⟨-, hcur⟩ := hq.current hf
  rw [poll_prepared hq hready hf]
  constructor
  · exact (held_prepared hcur).congr rfl rfl rfl rfl
  · intro k f' hslot hk
    have htaken : Held (taken r) k f' := hk.congr rfl rfl rfl rfl
    exact (htaken.prepared hslot).congr rfl rfl rfl rfl

theorem poll_posts (hq : Queues r) (hready : ready r = true)
    (hf : r.received[r.consumed.length]? = some f) :
    (poll r).transmitted = r.transmitted ++ [some (sentAs r.consumed.length f)] ∧
      (poll r).received = r.received ∧ (poll r).consumed.length = r.consumed.length + 1 := by
  obtain ⟨hsend, hcur⟩ := hq.current hf
  obtain ⟨-, htrans, -, -, -, -, hrec, hcons⟩ := processPacket_spec hsend hcur
  unfold poll
  rw [if_pos hready]
  refine ⟨htrans, hrec, ?_⟩
  show (processPacket (taken r)).consumed.length = _
  rw [hcons]
  simp [taken]

theorem transmitted_length (hq : Queues r) : r.transmitted.length = r.consumed.length := by
  have hbehind := hq.behind
  rw [hq.sent, List.length_mapIdx, List.length_take, Nat.min_eq_left hbehind]

/-- What was prepared for packet `k`. -/
theorem transmitted_prepared (hq : Queues r) (hk : k < r.consumed.length)
    (hf : r.received[k]? = some f) : r.transmitted[k]? = some (some (sentAs k f)) := by
  rw [hq.sent, List.getElem?_mapIdx, List.getElem?_take_of_lt hk, hf]
  rfl

/-- Every frame on the wire is the one that was prepared, and there are no more sends outstanding
than slots. -/
structure Good (t : Nic) : Prop where
  bounded : posted t ≤ t.wire.length + 128
  sent : t.wire = t.device.transmitted.take t.wire.length

/-- The device is in step, and what is outstanding is held. -/
structure Inv (t : Nic) : Prop where
  queues : Queues t.device
  behind : t.wire.length ≤ t.device.consumed.length
  held : ∀ k f, t.wire.length ≤ k → k < t.device.consumed.length →
    t.device.received[k]? = some f → Held t.device k f

/-- A packet is taken only while fewer sends are outstanding than there are slots. -/
def KeepsUp (t : Nic) : Event → Prop
  | .device .poll => ready t.device = true → posted t < t.wire.length + 128
  | _ => True

/-- The packet that is taken is put where no send is outstanding. -/
def Untaken (t : Nic) : Event → Prop
  | .device .poll => ready t.device = true → ∀ k s, t.wire.length ≤ k →
      t.device.transmitted[k]? = some (some s) →
        (getNextSqe t.device).1 ≠ s.wqe <<< logSqeNumSegs ∧ (getNextDte t.device).1 ≠ s.addr
  | _ => True

theorem exists_received (hq : Queues r) (hk : k < r.consumed.length) :
    ∃ f, r.received[k]? = some f :=
  ⟨_, List.getElem?_eq_getElem (hk.trans_le hq.behind)⟩

theorem complete_good (hi : Inv t) (hg : Good t) : Good (complete t) := by
  unfold complete
  split
  · rename_i hlt
    obtain ⟨hbounded, hsent⟩ := hg
    rw [L2Reflector.LateSends.posted, transmitted_length hi.queues] at hlt
    obtain ⟨f, hf⟩ := exists_received hi.queues hlt
    have hheld := hi.held _ f le_rfl hlt hf
    have hprepared := transmitted_prepared hi.queues hlt hf
    refine ⟨?_, ?_⟩
    · simp only [L2Reflector.LateSends.posted, List.length_append, List.length_singleton] at *
      omega
    · dsimp only
      rw [hheld.transmission, List.length_append, List.length_singleton, List.take_add_one,
        hprepared, ← hsent]
      rfl
  · exact hg

theorem complete_inv (hi : Inv t) : Inv (complete t) := by
  unfold complete
  split
  · rename_i hlt
    rw [L2Reflector.LateSends.posted, transmitted_length hi.queues] at hlt
    refine ⟨hi.queues, ?_, ?_⟩
    · simpa using hlt
    · intro k f hk
      rw [List.length_append, List.length_singleton] at hk
      exact hi.held k f (by omega)
  · exact hi

theorem receive_inv (hi : Inv t) (hroom : t.device.received.length < t.device.consumed.length + 128) :
    Inv { t with device := receive t.device frame } := by
  refine ⟨receive_queues hi.queues hroom, hi.behind, ?_⟩
  intro k f hk hlt hf
  have hreceived : k < t.device.received.length := hlt.trans_le hi.queues.behind
  replace hf : (t.device.received ++ [frame])[k]? = some f := hf
  rw [List.getElem?_append_left hreceived] at hf
  exact (hi.held k f hk hlt hf).congr rfl rfl rfl rfl

/-- A packet may be taken exactly while the sends that are outstanding leave a slot. -/
theorem poll_good_iff (hi : Inv t) (hg : Good t) :
    Good { t with device := poll t.device } ↔ KeepsUp t (.device .poll) := by
  have hlength := transmitted_length hi.queues
  have hbehind := hi.behind
  by_cases hready : ready t.device = true
  · obtain ⟨f, hf⟩ : ∃ f, t.device.received[t.device.consumed.length]? = some f :=
      ⟨_, List.getElem?_eq_getElem (hi.queues.ready_iff.mp hready)⟩
    obtain ⟨htrans, -, -⟩ := poll_posts hi.queues hready hf
    have hposted : (poll t.device).transmitted.length = t.device.transmitted.length + 1 := by
      simp [htrans]
    constructor
    · rintro ⟨hbounded, -⟩ -
      simp only [L2Reflector.LateSends.posted] at hbounded ⊢
      omega
    · intro hkeeps
      have hroom := hkeeps hready
      refine ⟨?_, ?_⟩
      · simp only [L2Reflector.LateSends.posted] at hroom ⊢
        omega
      · dsimp only
        rw [htrans, List.take_append_of_le_length (by omega)]
        exact hg.sent
  · have hsame : poll t.device = t.device := by
      unfold poll
      rw [if_neg hready]
    rw [hsame]
    simp [KeepsUp, hready, hg]

theorem poll_inv (hi : Inv t) (hbounded : posted { t with device := poll t.device } ≤
    t.wire.length + 128) : Inv { t with device := poll t.device } := by
  have hbehind := hi.behind
  by_cases hready : ready t.device = true
  · obtain ⟨f, hf⟩ : ∃ f, t.device.received[t.device.consumed.length]? = some f :=
      ⟨_, List.getElem?_eq_getElem (hi.queues.ready_iff.mp hready)⟩
    obtain ⟨htrans, hreceived, hconsumed⟩ := poll_posts hi.queues hready hf
    obtain ⟨hnew, hothers⟩ := poll_held hi.queues hready hf
    have hlength := transmitted_length hi.queues
    simp only [L2Reflector.LateSends.posted, htrans, List.length_append,
      List.length_singleton] at hbounded
    refine ⟨poll_queues hi.queues, by simp only [hconsumed]; omega, ?_⟩
    intro k f' hk hlt hf'
    simp only [hconsumed, hreceived] at hk hlt hf'
    by_cases hlast : k = t.device.consumed.length
    · subst hlast
      obtain rfl := Option.some.inj (hf.symm.trans hf')
      exact hnew
    · exact hothers k f' (by omega) (hi.held k f' hk (by omega) hf')
  · have hsame : poll t.device = t.device := by
      unfold poll
      rw [if_neg hready]
    rw [hsame]
    exact hi

theorem step_inv (e : Event) (hi : Inv t) (hrun : NoOverrun t e) (hg : Good (step t e)) :
    Inv (step t e) := by
  cases e with
  | complete => exact complete_inv hi
  | device e =>
    cases e with
    | receive frame => exact receive_inv hi hrun
    | poll => exact poll_inv hi hg.bounded

theorem step_good_iff (e : Event) (hi : Inv t) (hg : Good t) :
    Good (step t e) ↔ KeepsUp t e := by
  cases e with
  | complete => simpa [KeepsUp, step] using complete_good hi hg
  | device e =>
    cases e with
    | receive frame => exact ⟨fun _ => trivial, fun _ => ⟨hg.bounded, hg.sent⟩⟩
    | poll => exact poll_good_iff hi hg

theorem getNextDte_entry (hs : SendSide r n) :
    (getNextDte r).1 = UInt32.ofNat (n % 128 * 2048) := by
  unfold getNextDte
  rw [hs.txBuffIdx, ofNat_and_data, show l2LogWqDataEntryBsize = UInt32.ofNat 11 from rfl,
    ofNat_shiftLeft _ _ (by omega) (by omega)]
  rfl

theorem getNextSqe_slot (hs : SendSide r n) : (getNextSqe r).1 = L2Reflector.segment n 0 := by
  rw [getNextSqe_segment (by omega : 0 < 4) hs.sqWqeSegIdx]

theorem sentAs_slot (k : Nat) (f : Frame) :
    (sentAs k f).wqe <<< logSqeNumSegs = L2Reflector.segment k 0 := by
  rw [sentAs, show logSqeNumSegs = UInt32.ofNat 2 from rfl,
    ofNat_shiftLeft _ _ (by omega) (by omega)]
  rfl

/-- A packet is put where no send is outstanding exactly when the transmitter keeps up. -/
theorem untaken_iff (e : Event) (hi : Inv t) : Untaken t e ↔ KeepsUp t e := by
  cases e with
  | complete => exact Iff.rfl
  | device e =>
    cases e with
    | receive frame => exact Iff.rfl
    | poll =>
      have hlength := transmitted_length hi.queues
      have hside := hi.queues.send
      constructor
      · intro huntaken hready
        by_contra hfull
        rw [L2Reflector.LateSends.posted, hlength] at hfull
        -- the packet as many places back as there are slots is still to be sent
        have hlt : t.device.consumed.length - 128 < t.device.consumed.length := by omega
        obtain ⟨f, hf⟩ := exists_received hi.queues hlt
        have hprepared := transmitted_prepared hi.queues hlt hf
        have hslot := (huntaken hready _ _ (by omega) hprepared).1
        rw [getNextSqe_slot hside, sentAs_slot] at hslot
        have hmod : t.device.consumed.length % 128 = (t.device.consumed.length - 128) % 128 := by
          omega
        apply hslot
        rw [L2Reflector.segment, L2Reflector.segment, hmod]
      · intro hkeeps hready k s hk hs
        have hroom := hkeeps hready
        rw [L2Reflector.LateSends.posted, hlength] at hroom
        have hlt : k < t.device.consumed.length := by
          have hlt := (List.getElem?_eq_some_iff.mp hs).1
          omega
        obtain ⟨f, hf⟩ := exists_received hi.queues hlt
        rw [transmitted_prepared hi.queues hlt hf, Option.some.injEq, Option.some.injEq] at hs
        subst hs
        have hslot : t.device.consumed.length % 128 ≠ k % 128 := by omega
        rw [getNextSqe_slot hside, sentAs_slot, getNextDte_entry hside]
        refine ⟨segment_ne_of_slot hslot (by omega) (by omega), ?_⟩
        intro heq
        have hnat := congrArg UInt32.toNat heq
        rw [sentAs, toNat_entry, toNat_entry] at hnat
        omega

section Run

variable (lkey sqNumber rqDbr : UInt32) (rxBuff : UInt32 → Nat → UInt8) (sqRing : UInt32 → SqeSeg)
  (sqTxBuff : Nat → UInt8) (counter : UInt16) (size : UInt32)

/-- The device after its initialisation, with nothing sent. -/
def start : Nic := ⟨deviceInit lkey sqNumber rqDbr rxBuff sqRing sqTxBuff counter size, []⟩

theorem start_inv : Inv (start lkey sqNumber rqDbr rxBuff sqRing sqTxBuff counter size) := by
  refine ⟨deviceInit_queues lkey sqNumber rqDbr rxBuff sqRing sqTxBuff counter size, ?_, ?_⟩
  · exact Nat.zero_le _
  · intro k f hk hlt
    simp [start, deviceInit] at hlt

theorem start_good : Good (start lkey sqNumber rqDbr rxBuff sqRing sqTxBuff counter size) :=
  ⟨Nat.zero_le _, rfl⟩

variable (events : List Event)
  (hrun : Along step NoOverrun
    (start lkey sqNumber rqDbr rxBuff sqRing sqTxBuff counter size) events)
include hrun

theorem good_run_iff :
    (∀ k, Good (run step (start lkey sqNumber rqDbr rxBuff sqRing sqTxBuff counter size)
        (events.take k))) ↔
      Along step KeepsUp
        (start lkey sqNumber rqDbr rxBuff sqRing sqTxBuff counter size) events :=
  good_iff_along (fun _ e hi hn hg => step_inv e hi hn hg)
    (fun _ e hi _ hg => step_good_iff e hi hg)
    (start_inv lkey sqNumber rqDbr rxBuff sqRing sqTxBuff counter size)
    (start_good lkey sqNumber rqDbr rxBuff sqRing sqTxBuff counter size) hrun

theorem along_untaken_iff :
    Along step Untaken (start lkey sqNumber rqDbr rxBuff sqRing sqTxBuff counter size) events ↔
      Along step KeepsUp
        (start lkey sqNumber rqDbr rxBuff sqRing sqTxBuff counter size) events := by
  have hstart := And.intro (start_inv lkey sqNumber rqDbr rxBuff sqRing sqTxBuff counter size)
    (start_good lkey sqNumber rqDbr rxBuff sqRing sqTxBuff counter size)
  have hstep : ∀ t e, Inv t ∧ Good t → NoOverrun t e ∧ KeepsUp t e →
      Inv (step t e) ∧ Good (step t e) := by
    intro t e ⟨hi, hg⟩ ⟨hn, hk⟩
    have hg' := (step_good_iff e hi hg).mpr hk
    exact ⟨step_inv e hi hn hg', hg'⟩
  constructor
  · intro huntaken
    have hboth := hrun.and_imp huntaken fun _ _ hn hu => And.intro hn hu
    exact Along.under
      (fun t e hi hu => hstep t e hi ⟨hu.1, (untaken_iff e hi.1).mp hu.2⟩)
      (fun t e hi hu => (untaken_iff e hi.1).mp hu.2) hstart hboth
  · intro hkeeps
    have hboth := hrun.and_imp hkeeps fun _ _ hn hk => And.intro hn hk
    exact Along.under hstep (fun t e hi hk => (untaken_iff e hi.1).mpr hk.2) hstart hboth

/-- In a run every frame leaves as it was prepared, and no more sends are outstanding than there
are slots, exactly when the transmitter keeps up; and exactly then each packet is put where no
send is outstanding. -/
theorem lateSends_iff :
    ((∀ k, Good (run step (start lkey sqNumber rqDbr rxBuff sqRing sqTxBuff counter size)
        (events.take k))) ↔
      Along step KeepsUp (start lkey sqNumber rqDbr rxBuff sqRing sqTxBuff counter size) events) ∧
    (Along step Untaken (start lkey sqNumber rqDbr rxBuff sqRing sqTxBuff counter size) events ↔
      Along step KeepsUp
        (start lkey sqNumber rqDbr rxBuff sqRing sqTxBuff counter size) events) :=
  ⟨good_run_iff _ _ _ _ _ _ _ _ events hrun, along_untaken_iff _ _ _ _ _ _ _ _ events hrun⟩

end Run

def blankNic : Nic := start 1 2 0 (fun _ _ => 0) (fun _ => .empty) (fun _ => 0) 0 0

theorem lateSends_one_frame :
    Along step NoOverrun blankNic [.device (.receive shortFrame), .device .poll, .complete] ∧
      ∀ k, Good (run step blankNic
        ([Event.device (.receive shortFrame), .device .poll, .complete].take k)) := by
  have hrun : Along step NoOverrun blankNic
      [.device (.receive shortFrame), .device .poll, .complete] :=
    ⟨Nat.zero_lt_succ 127, trivial, trivial, trivial⟩
  refine ⟨hrun, (lateSends_iff 1 2 0 (fun _ _ => 0) (fun _ => .empty) (fun _ => 0) 0 0 _
    hrun).1.mpr ?_⟩
  exact ⟨trivial, fun _ => Nat.zero_lt_succ 127, trivial, trivial⟩

/-- So many frames come and are taken at once, and no send completes. -/
def flood : Nat → List Event
  | 0 => []
  | n + 1 => .device (.receive shortFrame) :: .device .poll :: flood n

theorem flood_run (hq : Queues t.device)
    (hall : t.device.received.length = t.device.consumed.length) :
    Along step NoOverrun t (flood n) ∧
      posted (run step t (flood n)) = posted t + n ∧ (run step t (flood n)).wire = t.wire := by
  induction n generalizing t with
  | zero => exact ⟨trivial, rfl, rfl⟩
  | succ n ih =>
    have hroom : t.device.received.length < t.device.consumed.length + 128 := by omega
    have hq' : Queues (receive t.device shortFrame) := receive_queues hq hroom
    have hnext : (receive t.device shortFrame).received[
        (receive t.device shortFrame).consumed.length]? = some shortFrame := by
      show (t.device.received ++ [shortFrame])[t.device.consumed.length]? = _
      rw [← hall]
      simp
    have hready : ready (receive t.device shortFrame) = true := by
      rw [hq'.ready_iff]
      exact (List.getElem?_eq_some_iff.mp hnext).1
    obtain ⟨htrans, hreceived, hconsumed⟩ := poll_posts hq' hready hnext
    have hall' : (poll (receive t.device shortFrame)).received.length =
        (poll (receive t.device shortFrame)).consumed.length := by
      rw [hreceived, hconsumed]
      simp [receive, hall]
    obtain ⟨hrun, hposted, hwire⟩ := @ih ⟨poll (receive t.device shortFrame), t.wire⟩
      (poll_queues hq') hall'
    refine ⟨⟨hroom, trivial, hrun⟩, ?_, hwire⟩
    rw [flood, run, List.foldl_cons, List.foldl_cons]
    refine hposted.trans ?_
    simp only [L2Reflector.LateSends.posted, htrans, List.length_append, List.length_singleton]
    show t.device.transmitted.length + 1 + n = _
    omega

/-- With the last of 129 frames there is one send more than slots, and it is put where the first
one still stands. -/
theorem sends_overflow :
    Along step NoOverrun blankNic (flood 129) ∧
      posted (run step blankNic (flood 129)) = 129 ∧ (run step blankNic (flood 129)).wire = [] ∧
      (¬ ∀ k, Good (run step blankNic ((flood 129).take k))) ∧
      ¬ Along step Untaken blankNic (flood 129) := by
  obtain ⟨hrun, hposted, hwire⟩ := @flood_run blankNic 129
    (deviceInit_queues 1 2 0 (fun _ _ => 0) (fun _ => .empty) (fun _ => 0) 0 0) rfl
  replace hposted : posted (run step blankNic (flood 129)) = 129 := hposted
  have hbad : ¬ ∀ k, Good (run step blankNic ((flood 129).take k)) := by
    intro hgood
    have hbounded := (hgood (flood 129).length).bounded
    rw [List.take_length, hposted, hwire] at hbounded
    exact absurd hbounded (by decide)
  refine ⟨hrun, hposted, hwire, hbad, ?_⟩
  intro huntaken
  apply hbad
  apply (good_run_iff _ _ _ _ _ _ _ _ _ hrun).mpr
  exact (along_untaken_iff _ _ _ _ _ _ _ _ _ hrun).mp huntaken

end DocaApps.Proofs.LateSends
