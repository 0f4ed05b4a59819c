import DocaApps.Ipsec.Worker
import DocaApps.Lib.Runs
import DocaApps.Lib.Splitting
import DocaApps.Proofs.SequenceNumbers

namespace DocaApps.Proofs.Worker
open Common.Pack Lib.Runs Lib.Splitting Ipsec Ipsec.Rules Ipsec.MbufChain Ipsec.Worker

section Handlers

variable {ctx : WorkerCtx} {portId : Nat} {v : Visit} {p u : List Nat}

/-- A packet of an unsecured burst goes into one of the two arrays. -/
theorem unsecured_splits (ctx : UnsecuredBurst.CoreCtx) : Splits (UnsecuredBurst.handlePacket ctx)
    (fun b => b.processed.map Prod.fst) fun b => b.unprocessed.map Prod.fst := by
  constructor
  intro i packet b b' h
  unfold UnsecuredBurst.handlePacket at h
  split at h
  · cases h
    exact .inr ⟨rfl, List.map_append⟩
  · split at h
    · cases h
    · split at h
      · cases h
        exact .inr ⟨rfl, List.map_append⟩
      · split at h
        · cases h
          exact .inl ⟨List.map_append, rfl⟩
        · cases h
          exact .inr ⟨rfl, List.map_append⟩
        · cases h

theorem decapInto_splits {ctx : SecuredBurst.SecuredCtx} {i ruleIdx : Nat} {m : Mbuf}
    (b : SecuredBurst.Burst) {b' : SecuredBurst.Burst}
    (h : SecuredBurst.decapInto ctx i ruleIdx m b = some b') :
    b'.processed.map Prod.fst = b.processed.map Prod.fst ++ [i] ∧
        b'.unprocessed.map Prod.fst = b.unprocessed.map Prod.fst ∨
      b'.processed.map Prod.fst = b.processed.map Prod.fst ∧
        b'.unprocessed.map Prod.fst = b.unprocessed.map Prod.fst ++ [i] := by
  unfold SecuredBurst.decapInto at h
  split at h
  · cases h
  · split at h
    · cases h
      exact .inl ⟨List.map_append, rfl⟩
    · cases h
      exact .inr ⟨rfl, List.map_append⟩
    · cases h

/-- So does a packet of a secured one. -/
theorem secured_splits (ctx : SecuredBurst.SecuredCtx) :
    Splits (SecuredBurst.handleSecuredPacket ctx) (fun b => b.processed.map Prod.fst)
      fun b => b.unprocessed.map Prod.fst := by
  constructor
  intro i packet b b' h
  simp only [SecuredBurst.handleSecuredPacket] at h
  split at h
  · cases h
    exact .inr ⟨rfl, List.map_append⟩
  · split at h
    · cases h
    · split at h
      · cases h
        exact .inr ⟨rfl, List.map_append⟩
      · have hsplit := decapInto_splits _ h
        exact hsplit

theorem unsecured_forEach (ctx : UnsecuredBurst.CoreCtx) (i : Nat) (packets : List UnsecuredBurst.Packet)
    (b : UnsecuredBurst.Burst) : UnsecuredBurst.handlePackets ctx i packets b =
      forEach (UnsecuredBurst.handlePacket ctx) i packets b := by
  induction packets generalizing i b with
  | nil => rfl
  | cons packet packets ih =>
    unfold UnsecuredBurst.handlePackets forEach
    exact congrArg (Option.bind _) (funext fun b' => ih (i + 1) b')

theorem secured_forEach (ctx : SecuredBurst.SecuredCtx) (i : Nat) (packets : List UnsecuredBurst.Packet)
    (b : SecuredBurst.Burst) : SecuredBurst.handleSecuredPackets ctx i packets b =
      forEach (SecuredBurst.handleSecuredPacket ctx) i packets b := by
  induction packets generalizing i b with
  | nil => rfl
  | cons packet packets ih =>
    unfold SecuredBurst.handleSecuredPackets forEach
    exact congrArg (Option.bind _) (funext fun b' => ih (i + 1) b')

/-- Either handler puts every packet of a burst into one of its arrays, once. -/
theorem handleBurst_perm (h : handleBurst ctx portId v = some (p, u)) :
    (p ++ u).Perm (List.range v.packets.length) := by
  rw [List.range_eq_range']
  unfold handleBurst at h
  split at h
  · obtain ⟨b, hb, hpu⟩ := Option.map_eq_some_iff.mp h
    cases hpu
    unfold UnsecuredBurst.handleUnsecuredPacketsReceived at hb
    rw [unsecured_forEach] at hb
    exact (unsecured_splits ctx.core).forEach_perm hb
  · obtain ⟨b, hb, hpu⟩ := Option.map_eq_some_iff.mp h
    cases hpu
    unfold SecuredBurst.handleSecuredPacketsReceived at hb
    rw [secured_forEach] at hb
    exact (secured_splits _).forEach_perm hb

end Handlers

section Attempts

variable {tx : Nat → Nat} {packets : List Handle} {nb fuel : Nat} {s s' : Sent}

/-- What `n` attempts from attempt `a` on can take. -/
def room (tx : Nat → Nat) (a n : Nat) : Nat := ((List.range' a n).map tx).sum

theorem room_succ (tx : Nat → Nat) (a n : Nat) : room tx a (n + 1) = tx a + room tx (a + 1) n := by
  unfold room
  rw [List.range'_succ, List.map_cons, List.sum_cons]

theorem room_one (tx : Nat → Nat) (a : Nat) : room tx a 1 = tx a := by
  simp [room]

/-- What the attempts of a burst come to, from a state in which it has `left` of them. -/
structure Attempted (tx : Nat → Nat) (packets : List Handle) (nb left : Nat) (s s' : Sent) :
    Prop where
  accepted : s'.accepted = packets.take s'.nbPkts
  bounded : s'.nbPkts ≤ nb
  tries : s'.numOfTries ≤ s.numOfTries
  attempts : s'.attempts ≤ s.attempts + left
  complete : s'.nbPkts = nb ↔ nb ≤ s.nbPkts + room tx s.attempts left
  given : s'.nbPkts < nb → s'.attempts = s.attempts + left

theorem txLoop_attempted (haccepted : s.accepted = packets.take s.nbPkts) (hnb : s.nbPkts ≤ nb)
    (hfuel : fuel = triesLeft s.numOfTries) (h : txLoop tx packets nb fuel s = some s') :
    Attempted tx packets nb fuel s s' := by
  induction fuel generalizing s with
  | zero =>
    unfold triesLeft at hfuel
    omega
  | succ fuel ih =>
    simp only [txLoop] at h
    split at h
    · cases h
    · have htaken : s.accepted ++ (packets.drop s.nbPkts).take (min (tx s.attempts) (nb - s.nbPkts))
          = packets.take (s.nbPkts + min (tx s.attempts) (nb - s.nbPkts)) := by
        rw [haccepted, List.take_add]
      rw [htaken] at h
      unfold triesLeft at hfuel
      split at h
      · next hmore =>
        obtain ⟨hroom, hpositive⟩ := hmore
        have hleft : fuel = triesLeft (s.numOfTries - 1) := by
          unfold triesLeft
          omega
        obtain ⟨htook, hbounded, htries, hattempts, hcomplete, hgiven⟩ :=
          ih rfl (Nat.le_of_lt hroom) hleft h
        dsimp only at htries hattempts hcomplete hgiven
        refine ⟨htook, hbounded, by omega, by omega, ?_, fun hless => ?_⟩
        · rw [room_succ]
          omega
        · have := hgiven hless
          omega
      · next hend =>
        cases h
        refine ⟨rfl, ?_, ?_, ?_, ?_, ?_⟩ <;> dsimp only
        · omega
        · omega
        · omega
        · cases fuel with
          | zero =>
            rw [room_one]
            omega
          | succ fuel =>
            rw [room_succ]
            omega
        · intro hless
          omega

end Attempts


section Visits

variable {ctx : WorkerCtx} {w w' : Worker} {portId : Nat} {v : Visit}

/-- The transmit queue can take what the handler processed in the attempts that are left. -/
def Taken (ctx : WorkerCtx) (w : Worker) (portId : Nat) (v : Visit) : Prop :=
  ∀ p u, handleBurst ctx portId v = some (p, u) → p.length ≤ room v.tx 0 (triesLeft w.numOfTries)

/-- The mbufs that are neither accepted nor freed. -/
def lost (w : Worker) : Int := w.received.length - w.accepted.length - w.freed.length

/-- What a visit with a burst changes: `n` of the processed packets `p` are accepted and the
others `u` are freed. -/
structure Visited (ctx : WorkerCtx) (portId : Nat) (v : Visit) (w w' : Worker) (p u : List Nat)
    (n attempts : Nat) : Prop where
  handled : handleBurst ctx portId v = some (p, u)
  bounded : n ≤ p.length
  few : attempts ≤ triesLeft w.numOfTries
  complete : n = p.length ↔ p.length ≤ room v.tx 0 (triesLeft w.numOfTries)
  tries : w'.numOfTries ≤ w.numOfTries
  bursts : w'.bursts = w.bursts + 1
  received : w'.received = w.received ++ (List.range v.packets.length).map (Handle.mk w.bursts)
  accepted : w'.accepted = w.accepted ++ (p.map (Handle.mk w.bursts)).take n
  freed : w'.freed = w.freed ++ u.map (Handle.mk w.bursts)
  transmissions : w'.transmissions = w.transmissions ++ [⟨portId ^^^ 1, p.length, n, attempts⟩]

theorem take_writeFront (slots handles : List Handle) {n : Nat} (h : n ≤ handles.length) :
    (writeFront slots handles).take n = handles.take n :=
  List.take_append_of_le_length h

theorem visitPort_visited (hne : v.packets.length ≠ 0)
    (h : visitPort ctx w portId v = some w') :
    ∃ p u n attempts, Visited ctx portId v w w' p u n attempts := by
  unfold visitPort at h
  rw [if_neg hne] at h
  obtain ⟨⟨p, u⟩, hhandled, h⟩ := Option.bind_eq_some_iff.mp h
  obtain ⟨sent, hsent, h⟩ := Option.bind_eq_some_iff.mp h
  cases h
  have hperm := (handleBurst_perm hhandled).length_eq
  rw [List.length_append, List.length_range] at hperm
  have hburst := v.burst
  have hdrop : sub16 v.packets.length p.length = (u.map (Handle.mk w.bursts)).length := by
    rw [List.length_map]
    unfold sub16
    unfold packetBurst at hburst
    omega
  have hattempted := txLoop_attempted (s := ⟨[], 0, 0, w.numOfTries⟩) rfl
    (Nat.zero_le _) rfl hsent
  have hfits : sent.nbPkts ≤ (p.map (Handle.mk w.bursts)).length := by
    rw [List.length_map]
    exact hattempted.bounded
  have hcomplete := hattempted.complete
  have hattempts := hattempted.attempts
  simp only [Nat.zero_add] at hcomplete hattempts
  refine ⟨p, u, sent.nbPkts, sent.attempts, ⟨hhandled, hattempted.bounded, hattempts, hcomplete,
    hattempted.tries, rfl, rfl, ?_, ?_, rfl⟩⟩
  · rw [← take_writeFront w.processedPackets _ hfits, ← hattempted.accepted]
  · change w.freed ++ _ = _
    rw [hdrop, take_writeFront _ _ (Nat.le_refl _), List.take_length]

theorem visitPort_empty (hempty : v.packets.length = 0) (h : visitPort ctx w portId v = some w') :
    w' = w := by
  unfold visitPort at h
  rw [if_pos hempty] at h
  exact (Option.some.inj h).symm

theorem taken_empty (hempty : v.packets.length = 0) : Taken ctx w portId v := by
  intro p u h
  have hperm := (handleBurst_perm h).length_eq
  rw [List.length_append, List.length_range] at hperm
  omega

/-- A visit loses nothing just when the queue can take the burst. -/
theorem visitPort_lost (h : visitPort ctx w portId v = some w') :
    lost w ≤ lost w' ∧ (lost w' = lost w ↔ Taken ctx w portId v) := by
  by_cases hempty : v.packets.length = 0
  · obtain rfl := visitPort_empty hempty h
    exact ⟨Int.le_refl _, iff_of_true rfl (taken_empty hempty)⟩
  · obtain ⟨p, u, n, attempts, hvisit⟩ := visitPort_visited hempty h
    have hperm := (handleBurst_perm hvisit.handled).length_eq
    rw [List.length_append, List.length_range] at hperm
    have hbounded := hvisit.bounded
    have hlost : lost w' = lost w + (p.length - n : Nat) := by
      unfold lost
      rw [hvisit.received, hvisit.accepted, hvisit.freed]
      simp only [List.length_append, List.length_map, List.length_range, List.length_take]
      omega
    refine ⟨by omega, ?_⟩
    constructor
    · intro heq p' u' hhandled
      cases hvisit.handled.symm.trans hhandled
      exact hvisit.complete.mp (by omega)
    · intro htaken
      have := hvisit.complete.mpr (htaken p u hvisit.handled)
      omega

end Visits

section Run

variable {ctx : WorkerCtx} {w w' : Worker} {vs : List (Nat × Visit)}

/-- Every mbuf that came in is exactly once accepted or freed, and no other one is. -/
def Conserved (w : Worker) : Prop :=
  w.received.Nodup ∧ (∀ m ∈ w.received, (w.accepted ++ w.freed).count m = 1) ∧
    ∀ m ∈ w.accepted ++ w.freed, m ∈ w.received

/-- No burst has more than its attempts, and packets are given up only after all of them. -/
def TriedEnough (w : Worker) : Prop :=
  ∀ t ∈ w.transmissions, (t.attempts : Int) ≤ nbTxBurstTries ∧
    (t.accepted < t.processed → (t.attempts : Int) = nbTxBurstTries)

/-- The state in which a visit finds the worker, when it has one. -/
def TakenAt (ctx : WorkerCtx) (w : Option Worker) (v : Nat × Visit) : Prop :=
  ∀ w₀, w = some w₀ → Taken ctx w₀ v.1 v.2

theorem run_none : run (step ctx) none vs = none := by
  induction vs with
  | nil => rfl
  | cons v vs ih => exact ih

/-- A run loses nothing just when every visit can hand over its burst. -/
theorem run_lost (h : run (step ctx) (some w) vs = some w') :
    lost w ≤ lost w' ∧ (lost w' = lost w ↔ Along (step ctx) (TakenAt ctx) (some w) vs) := by
  induction vs generalizing w with
  | nil =>
    cases h
    exact ⟨Int.le_refl _, iff_of_true rfl trivial⟩
  | cons v vs ih =>
    change run (step ctx) (visitPort ctx w v.1 v.2) vs = some w' at h
    cases hvisit : visitPort ctx w v.1 v.2 with
    | none =>
      rw [hvisit, run_none] at h
      cases h
    | some w₁ =>
      rw [hvisit] at h
      obtain ⟨hfirst, hfirstIff⟩ := visitPort_lost hvisit
      obtain ⟨hrest, hrestIff⟩ := ih h
      have hstep : step ctx (some w) v = some w₁ := hvisit
      refine ⟨by omega, ?_⟩
      constructor
      · intro heq
        refine ⟨fun w₀ hw₀ => ?_, ?_⟩
        · cases hw₀
          exact hfirstIff.mp (by omega)
        · rw [hstep]
          exact hrestIff.mp (by omega)
      · rintro ⟨hv, hvs⟩
        rw [hstep] at hvs
        have := hfirstIff.mpr (hv w rfl)
        have := hrestIff.mpr hvs
        omega

/-- What holds of a worker whose bursts were all taken. -/
structure Fine (w : Worker) : Prop where
  budget : w.numOfTries ≤ nbTxBurstTries
  fresh : ∀ m ∈ w.received, m.burst < w.bursts
  nodup : w.received.Nodup
  perm : (w.accepted ++ w.freed).Perm w.received
  tried : TriedEnough w

theorem Fine.start : Fine Worker.start where
  budget := Int.le_refl _
  fresh := by
    intro m hm
    cases hm
  nodup := List.nodup_nil
  perm := List.Perm.refl _
  tried := by
    intro t ht
    cases ht

theorem Fine.visit {portId : Nat} {v : Visit} (h : Fine w) (htaken : Taken ctx w portId v)
    (hvisit : visitPort ctx w portId v = some w') : Fine w' := by
  by_cases hempty : v.packets.length = 0
  · exact visitPort_empty hempty hvisit ▸ h
  · obtain ⟨p, u, n, attempts, hvisit⟩ := visitPort_visited hempty hvisit
    have hall : n = p.length := hvisit.complete.mpr (htaken p u hvisit.handled)
    have hbudget := h.budget
    refine ⟨hvisit.tries.trans hbudget, ?_, ?_, ?_, ?_⟩
    · intro m hm
      rw [hvisit.bursts]
      rw [hvisit.received] at hm
      rcases List.mem_append.mp hm with hm | hm
      · have := h.fresh m hm
        omega
      · obtain ⟨i, -, rfl⟩ := List.mem_map.mp hm
        exact Nat.lt_succ_self _
    · rw [hvisit.received]
      refine List.Nodup.append h.nodup ?_ ?_
      · exact List.nodup_range.map fun i j hij => congrArg Handle.place hij
      · intro m hm hnew
        obtain ⟨i, -, rfl⟩ := List.mem_map.mp hnew
        exact Nat.lt_irrefl _ (h.fresh _ hm)
    · have hwhole : (p.map (Handle.mk w.bursts)).take n = p.map (Handle.mk w.bursts) := by
        rw [hall, ← List.length_map (f := Handle.mk w.bursts), List.take_length]
      rw [hvisit.received, hvisit.accepted, hvisit.freed, hwhole]
      have hsplit := (handleBurst_perm hvisit.handled).map (Handle.mk w.bursts)
      rw [List.map_append] at hsplit
      have hmove : (w.accepted ++ p.map (Handle.mk w.bursts) ++
          (w.freed ++ u.map (Handle.mk w.bursts))).Perm
          (w.accepted ++ w.freed ++ (p.map (Handle.mk w.bursts) ++ u.map (Handle.mk w.bursts))) := by
        rw [List.append_assoc, List.append_assoc]
        refine List.Perm.append_left _ ?_
        rw [← List.append_assoc, ← List.append_assoc]
        exact List.perm_append_comm.append_right _
      exact hmove.trans (h.perm.append hsplit)
    · intro t ht
      rw [hvisit.transmissions] at ht
      rcases List.mem_append.mp ht with ht | ht
      · exact h.tried t ht
      · cases List.mem_singleton.mp ht
        have hfew := hvisit.few
        unfold triesLeft at hfew
        unfold nbTxBurstTries at hbudget ⊢
        dsimp only
        omega

/-- Nothing is lost of a conserved run. -/
theorem Conserved.lost_le (h : Conserved w) : lost w ≤ 0 := by
  obtain ⟨hnodup, hcount, -⟩ := h
  have hsubset : w.received ⊆ w.accepted ++ w.freed := by
    intro m hm
    have := hcount m hm
    exact List.count_pos_iff.mp (by omega)
  have hlength := hnodup.length_le_of_subset hsubset
  rw [List.length_append] at hlength
  unfold lost
  omega

theorem Fine.conserved (h : Fine w) : Conserved w := by
  refine ⟨h.nodup, fun m hm => ?_, fun m hm => h.perm.mem_iff.mp hm⟩
  rw [h.perm.count_eq]
  exact List.count_eq_one_of_mem h.nodup hm

def FineAt (w : Option Worker) : Prop := ∀ w₁, w = some w₁ → Fine w₁

/-- In a run every mbuf is accepted or freed once and every burst has its attempts just when the
transmit queue can take each burst in the attempts that the ones before it have left. -/
theorem mbufs_conserved_iff (ctx : WorkerCtx) (turns : List (Nat → Visit))
    (h : run (step ctx) (some .start) (visits ctx turns) = some w) :
    Conserved w ∧ TriedEnough w ↔
      Along (step ctx) (TakenAt ctx) (some .start) (visits ctx turns) := by
  obtain ⟨hlost, hiff⟩ := run_lost h
  have hstart : lost Worker.start = 0 := rfl
  constructor
  · rintro ⟨hconserved, -⟩
    have := hconserved.lost_le
    exact hiff.mp (by omega)
  · intro htaken
    have hfine : FineAt (run (step ctx) (some .start) (visits ctx turns)) := by
      refine run_invariant ?_ ?_ htaken
      · intro w₀ v hinv hok w₁ hw₁
        obtain ⟨w₂, rfl, hvisit⟩ := Option.bind_eq_some_iff.mp hw₁
        exact (hinv w₂ rfl).visit (hok w₂ rfl) hvisit
      · rintro _ ⟨⟩
        exact Fine.start
    exact ⟨(hfine w h).conserved, (hfine w h).tried⟩

/-- A core that serves port 0 as the unsecured one of two ports. -/
def unsecuredCtx : WorkerCtx := ⟨SequenceNumbers.transportCtx, 0, 2⟩

/-- A burst of one packet, or of none. -/
def visitOf (packets : Nat) (tx : Nat → Nat) (h : packets ≤ packetBurst) : Visit where
  encryptRules := [PacketRoundTrip.udpRule]
  decryptRules := []
  antireplayStates := []
  packets := List.replicate packets (SequenceNumbers.roomyPacket PacketRoundTrip.udpFrame)
  tx
  burst := by simpa using h

/-- A turn in which one packet comes in on port 0. -/
def onePacket (tx : Nat → Nat) (portId : Nat) : Visit :=
  if portId = 0 then visitOf 1 tx (by decide) else visitOf 0 tx (by decide)

set_option maxRecDepth 4096 in
theorem mbufs_conserved_one_packet :
    ∃ w, run (step unsecuredCtx) (some .start) (visits unsecuredCtx [onePacket fun _ => 1]) =
      some w ∧ Conserved w ∧ TriedEnough w := by
  have hruns : (run (step unsecuredCtx) (some .start)
      (visits unsecuredCtx [onePacket fun _ => 1])).isSome := by decide +kernel
  obtain ⟨w, hw⟩ := Option.isSome_iff_exists.mp hruns
  refine ⟨w, hw, (mbufs_conserved_iff unsecuredCtx _ hw).mpr ⟨?_, ?_, trivial⟩⟩
  · intro w₀ hw₀ p u hhandled
    cases hw₀
    have hperm : (p ++ u).length = (List.range 1).length := (handleBurst_perm hhandled).length_eq
    rw [List.length_append, List.length_range] at hperm
    have hroom : room (fun _ => 1) 0 (triesLeft Worker.start.numOfTries) = 5 := by decide
    change p.length ≤ room (fun _ => 1) 0 (triesLeft Worker.start.numOfTries)
    rw [hroom]
    omega
  · intro w₀ _
    exact taken_empty rfl

/-- Six bursts of one packet each: the transmit queue takes the first five at once and would take
the sixth at the second attempt. -/
def sixTurns : List (Nat → Visit) := List.replicate 5 (onePacket fun _ => 1) ++ [onePacket id]

set_option maxRecDepth 4096 in
/-- The sixth burst gets one attempt, and its packet is never freed. -/
theorem sixth_packet_lost :
    ∃ w, run (step unsecuredCtx) (some .start) (visits unsecuredCtx sixTurns) = some w ∧
      w.received.length = 6 ∧ w.accepted.length = 5 ∧ w.freed = [] ∧
      w.transmissions.getLast? = some ⟨1, 1, 0, 1⟩ ∧ ¬ Conserved w ∧ ¬ TriedEnough w := by
  have hruns : (run (step unsecuredCtx) (some .start) (visits unsecuredCtx sixTurns)).map
      (fun w => (w.received.length, w.accepted.length, w.freed, w.transmissions.getLast?)) =
        some (6, 5, [], some ⟨1, 1, 0, 1⟩) := by decide +kernel
  obtain ⟨w, hw, hrest⟩ := Option.map_eq_some_iff.mp hruns
  simp only [Prod.mk.injEq] at hrest
  obtain ⟨hreceived, haccepted, hfreed, hlast⟩ := hrest
  refine ⟨w, hw, hreceived, haccepted, hfreed, hlast, fun h => ?_, fun h => ?_⟩
  · have hlost := h.lost_le
    unfold lost at hlost
    rw [hreceived, haccepted, hfreed, List.length_nil] at hlost
    omega
  · have htried := (h _ (List.mem_of_getLast? hlast)).2 (by decide)
    exact absurd htried (by decide)

end Run

end DocaApps.Proofs.Worker
