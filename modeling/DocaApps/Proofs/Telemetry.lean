import DocaApps.Common.Telemetry
import DocaApps.Lib.Runs

namespace DocaApps.Proofs.Telemetry
open Lib.Runs Common.Telemetry

variable {τ ρ : Type} {s : State τ ρ} {i : Nat} {c : Call τ ρ}

/-- The slots that the running call of `send_netflow_record` holds. -/
def held : Sender → List Nat
  | .sending records _ => records
  | _ => []

/-- Those of them whose records are still to be sent. -/
def left : Sender → List Nat
  | .sending records recordsSent => records.drop recordsSent
  | _ => []

/-- All places where a slot can be. -/
def places (s : State τ ρ) : List Nat :=
  s.freelist ++ s.pending ++ s.calls.map Call.slot ++ held s.sender

/-- Every slot is in one place, the sender is within its records, a call that has copied its
record finds it in its slot, and the records that were accepted are those sent and those that
wait, in order. -/
structure Inv (s : State τ ρ) : Prop where
  once : (places s).Perm (List.range (netflowQueueSize - 1))
  counted : ∀ n, s.sender = .counted n → n ≤ s.pending.length
  within : ∀ records k, s.sender = .sending records k → k ≤ records.length
  copied : ∀ c ∈ s.calls, c.copied = true → s.dataToSend c.slot = some (c.thread, c.record)
  delivered : s.sent ++ (left s.sender ++ s.pending).map s.dataToSend = s.accepted.map some

theorem enqueueBulk_eq {ring : Ring} {slots : List Nat}
    (h : ring.length + slots.length ≤ netflowQueueSize - 1) :
    enqueueBulk ring slots = some (ring ++ slots) := if_pos h

theorem left_subset (sender : Sender) : left sender ⊆ held sender := by
  cases sender with
  | sending records k => exact List.drop_subset k records
  | idle => exact List.Subset.refl _
  | counted n => exact List.Subset.refl _

theorem Inv.length (h : Inv s) : s.freelist.length + s.pending.length + s.calls.length +
    (held s.sender).length = netflowQueueSize - 1 := by
  have hlen := h.once.length_eq
  simpa [places, Nat.add_assoc] using hlen

theorem Inv.nodup (h : Inv s) : (places s).Nodup := h.once.nodup_iff.mpr List.nodup_range

/-- A slot that a call holds is nowhere else. -/
theorem Inv.apart (h : Inv s) (hc : c ∈ s.calls) :
    c.slot ∉ left s.sender ++ s.pending := by
  have hslot : c.slot ∈ s.calls.map Call.slot := List.mem_map_of_mem hc
  have hnodup := h.nodup
  simp only [places, List.nodup_append, List.mem_append] at hnodup
  obtain ⟨⟨-, -, hcalls⟩, -, hheld⟩ := hnodup
  rw [List.mem_append]
  rintro (hleft | hpending)
  · exact hheld _ (.inr hslot) _ (left_subset _ hleft) rfl
  · exact hcalls _ (.inr hpending) _ hslot rfl

/-- Taking a call out of the list and putting it first. -/
theorem slots_perm (h : s.calls[i]? = some c) :
    (c.slot :: (s.calls.eraseIdx i).map Call.slot).Perm (s.calls.map Call.slot) := by
  obtain ⟨hi, rfl⟩ := List.getElem?_eq_some_iff.mp h
  exact (List.getElem_cons_eraseIdx_perm hi).map Call.slot

theorem Inv.distinct (h : Inv s) (hc : s.calls[i]? = some c) :
    c.slot ∉ (s.calls.eraseIdx i).map Call.slot := by
  have hnodup := h.nodup
  simp only [places, List.nodup_append] at hnodup
  exact (List.nodup_cons.mp ((slots_perm hc).nodup_iff.mpr hnodup.1.2.1)).1

theorem startCall_inv [DecidableEq τ] (h : Inv s) (thread : τ) (record : ρ) : Inv (startCall s thread record) := by
  unfold startCall
  split
  · exact h
  · cases hfree : s.freelist with
    | nil => exact h
    | cons slot freelist =>
      refine ⟨?_, h.counted, h.within, ?_, h.delivered⟩
      · refine List.Perm.trans ?_ h.once
        rw [List.perm_iff_count]
        intro x
        simp only [places, hfree, List.map_cons, List.count_append, List.count_cons]
        omega
      · intro c hc hcopied
        rcases List.mem_cons.mp hc with rfl | hc
        · cases hcopied
        · exact h.copied c hc hcopied

theorem copyRecord_inv (h : Inv s) (i : Nat) : Inv (copyRecord s i) := by
  unfold copyRecord
  cases hc : s.calls[i]? with
  | none => exact h
  | some c =>
    have hmem := List.mem_of_getElem? hc
    refine ⟨?_, h.counted, h.within, ?_, ?_⟩
    · refine List.Perm.trans ?_ h.once
      exact ((slots_perm hc).append_left _).append_right _
    · intro c' hc' hcopied
      rcases List.mem_cons.mp hc' with rfl | hc'
      · exact Function.update_self ..
      · have hne : c'.slot ≠ c.slot := by
          intro heq
          exact h.distinct hc (heq ▸ List.mem_map_of_mem hc')
        dsimp only
        rw [Function.update_of_ne hne]
        exact h.copied c' (List.mem_of_mem_eraseIdx hc') hcopied
    · rw [← h.delivered]
      dsimp only
      congr 1
      apply List.map_congr_left
      intro slot hslot
      apply Function.update_of_ne
      rintro rfl
      exact h.apart hmem hslot

theorem endCall_inv (h : Inv s) (i : Nat) : Inv (endCall s i) := by
  unfold endCall
  cases hc : s.calls[i]? with
  | none => exact h
  | some c =>
    have hmem := List.mem_of_getElem? hc
    cases hcopied : c.copied with
    | false => simpa [hcopied] using h
    | true =>
      have hlen := h.length
      have hpos := List.length_pos_of_mem hmem
      have hroom : enqueue s.pending c.slot = some (s.pending ++ [c.slot]) :=
        enqueueBulk_eq (by simp only [List.length_singleton]; omega)
      simp only [hcopied, Bool.not_true, Bool.false_eq_true, if_false, hroom]
      refine ⟨?_, ?_, h.within, ?_, ?_⟩
      · refine List.Perm.trans ?_ h.once
        rw [List.perm_iff_count]
        intro x
        have hx := (slots_perm hc).count_eq x
        simp only [List.count_cons] at hx
        simp only [places, List.count_append, List.count_cons, List.count_nil]
        omega
      · intro n hn
        have hle := h.counted n hn
        rw [List.length_append]
        omega
      · intro c' hc' hcopied'
        exact h.copied c' (List.mem_of_mem_eraseIdx hc') hcopied'
      · have hdata := h.copied c hmem hcopied
        have haccepted : (s.accepted ++ [(c.thread, c.record)]).map some =
            s.accepted.map some ++ [some (c.thread, c.record)] := by simp
        dsimp only
        rw [haccepted, ← h.delivered]
        simp [hdata]

theorem countRing_inv (h : Inv s) : Inv (countRing s) := by
  unfold countRing
  cases hsender : s.sender with
  | idle =>
    have honce := h.once
    have hdelivered := h.delivered
    rw [places, hsender] at honce
    rw [hsender] at hdelivered
    dsimp only
    split
    · refine ⟨honce, ?_, ?_, h.copied, hdelivered⟩
      · intro n hn
        cases hn
      · intro records k hk
        cases hk
    · refine ⟨honce, ?_, ?_, h.copied, hdelivered⟩
      · intro n hn
        cases hn
        exact le_rfl
      · intro records k hk
        cases hk
  | counted n => exact h
  | sending records k => exact h

theorem takeRecords_inv (h : Inv s) : Inv (takeRecords s) := by
  unfold takeRecords
  cases hsender : s.sender with
  | idle => exact h
  | sending records k => exact h
  | counted n =>
    have hle := h.counted n hsender
    have hheld : held s.sender = [] := by rw [hsender]; rfl
    have hleft : left s.sender = [] := by rw [hsender]; rfl
    have hsplit := List.take_append_drop n s.pending
    simp only [dequeueBulk, if_pos hle]
    refine ⟨?_, ?_, ?_, h.copied, ?_⟩
    · refine List.Perm.trans ?_ h.once
      rw [places, places, hheld, List.append_nil]
      simp only [held]
      rw [List.perm_iff_count]
      intro x
      have hx := congrArg (List.count x) hsplit
      simp only [List.count_append] at hx ⊢
      omega
    · intro m hm
      cases hm
    · intro records k hk
      cases hk
      exact Nat.zero_le _
    · have hdelivered := h.delivered
      rw [hleft, List.nil_append, ← hsplit] at hdelivered
      exact hdelivered

theorem giveBack_inv (h : Inv s) : Inv (giveBack s) := by
  unfold giveBack
  cases hsender : s.sender with
  | idle => exact h
  | counted n => exact h
  | sending records k =>
    have hheld : held s.sender = records := by rw [hsender]; rfl
    have hle := h.within records k hsender
    have hlen := h.length
    rw [hheld] at hlen
    dsimp only
    split
    · exact h
    · rename_i hdone
      have hall : records.take k = records := List.take_of_length_le (by omega)
      have hleft : left s.sender = [] := by
        rw [hsender]
        exact List.drop_of_length_le (by omega)
      have hroom : enqueueBulk s.freelist records = some (s.freelist ++ records) :=
        enqueueBulk_eq (by omega)
      rw [hall, hroom]
      refine ⟨?_, ?_, ?_, h.copied, ?_⟩
      · refine List.Perm.trans ?_ h.once
        rw [places, places, hheld]
        simp only [held]
        rw [List.perm_iff_count]
        intro x
        simp only [List.count_append, List.count_nil]
        omega
      · intro m hm
        cases hm
      · intro records k hk
        cases hk
      · have hdelivered := h.delivered
        rw [hleft] at hdelivered
        exact hdelivered

/-- The records that a call of the library sends are those in front. -/
theorem sendRecords_inv (h : Inv s) (n : Nat) : Inv (sendRecords s (.ok n)) := by
  unfold sendRecords
  cases hsender : s.sender with
  | idle => exact h
  | counted m => exact h
  | sending records k =>
    have hheld : held s.sender = records := by rw [hsender]; rfl
    have hleft : left s.sender = records.drop k := by rw [hsender]; rfl
    have hle := h.within records k hsender
    dsimp only
    split
    · have hsplit : (records.drop k).take n ++ records.drop (k + ((records.drop k).take n).length) =
          records.drop k := by
        rw [List.length_take, ← List.drop_drop]
        rcases Nat.le_total n (records.drop k).length with hn | hn
        · rw [Nat.min_eq_left hn, List.take_append_drop]
        · rw [Nat.min_eq_right hn, List.drop_length, List.take_of_length_le hn, List.append_nil]
      refine ⟨?_, ?_, ?_, h.copied, ?_⟩
      · have honce := h.once
        rw [places, hheld] at honce
        exact honce
      · intro m hm
        cases hm
      · intro records' k' hk'
        cases hk'
        rw [List.length_take, List.length_drop]
        omega
      · have hdelivered := h.delivered
        rw [hleft, ← hsplit, List.append_assoc, List.map_append, ← List.append_assoc]
          at hdelivered
        exact hdelivered
    · exact h

/-- No call of the library that sends records fails while there are records to send. -/
def SendSucceeds (s : State τ ρ) : Event τ ρ → Prop
  | .send (.error _) => ∀ records k, s.sender = .sending records k → records.length ≤ k
  | _ => True

theorem step_inv [DecidableEq τ] (h : Inv s) (e : Event τ ρ) (hok : SendSucceeds s e) :
    Inv (step s e) := by
  cases e with
  | dequeue thread record => exact startCall_inv h thread record
  | copy i => exact copyRecord_inv h i
  | enqueue i => exact endCall_inv h i
  | ringCount => exact countRing_inv h
  | dequeueBulk => exact takeRecords_inv h
  | giveBack => exact giveBack_inv h
  | send answer =>
    cases answer with
    | ok n => exact sendRecords_inv h n
    | error err =>
      cases hsender : s.sender with
      | sending records k =>
        have hdone := hok records k hsender
        simpa [step, sendRecords, hsender, Nat.not_lt.mpr hdone] using h
      | idle => simpa [step, sendRecords, hsender] using h
      | counted n => simpa [step, sendRecords, hsender] using h

/-- Every slot is in exactly one place, no ring refuses a slot that a call holds, all slots are in
the rings when no call is running, and the accepted records are sent once each and as they were
given, or wait, those of each thread in order. -/
structure Conserved (s : State τ ρ) : Prop where
  once : (places s).Perm (List.range (netflowQueueSize - 1))
  enqueues : ∀ c ∈ s.calls, (enqueue s.pending c.slot).isSome = true
  givesBack : ∀ records k, s.sender = .sending records k →
    (enqueueBulk s.freelist (records.take k)).isSome = true
  settled : s.calls = [] → s.sender = .idle →
    (s.freelist ++ s.pending).Perm (List.range (netflowQueueSize - 1))
  delivered : s.sent ++ (left s.sender ++ s.pending).map s.dataToSend = s.accepted.map some
  inOrder : ∀ sentBy : Option (τ × ρ) → Bool,
    s.sent.filter sentBy <+: (s.accepted.map some).filter sentBy

theorem Inv.conserved (h : Inv s) : Conserved s := by
  have hlen := h.length
  refine ⟨h.once, ?_, ?_, ?_, h.delivered, ?_⟩
  · intro c hc
    have hpos := List.length_pos_of_mem hc
    rw [enqueue, enqueueBulk_eq (by simp only [List.length_singleton]; omega)]
    rfl
  · intro records k hsender
    have hheld : held s.sender = records := by rw [hsender]; rfl
    rw [hheld] at hlen
    rw [enqueueBulk_eq (by rw [List.length_take]; omega)]
    rfl
  · intro hcalls hsender
    have honce := h.once
    rw [places, hcalls, hsender] at honce
    simpa [held] using honce
  · intro sentBy
    rw [← h.delivered, List.filter_append]
    exact List.prefix_append _ _

/-- The slots of the records that the library failed to send are nowhere. -/
theorem failed_not_conserved [DecidableEq τ] (h : Inv s) {err : DocaError} {records : List Nat}
    {k : Nat} (hsender : s.sender = .sending records k) (hk : k < records.length) :
    ¬ Conserved (step s (.send (.error err))) := by
  intro hconserved
  have hlen := h.length
  have hheld : held s.sender = records := by rw [hsender]; rfl
  have hlost := hconserved.once.length_eq
  rw [hheld] at hlen
  simp only [step, sendRecords, hsender, if_pos hk, places, held, List.append_nil,
    List.length_append, List.length_map, List.length_range] at hlost
  omega

theorem step_conserved_iff [DecidableEq τ] (h : Inv s) (e : Event τ ρ) :
    Conserved (step s e) ↔ SendSucceeds s e := by
  constructor
  · intro hconserved
    cases e with
    | send answer =>
      cases answer with
      | ok n => trivial
      | error err =>
        intro records k hsender
        by_contra hk
        exact failed_not_conserved h hsender (Nat.not_le.mp hk) hconserved
    | _ => trivial
  · intro hok
    exact (step_inv h e hok).conserved

theorem initNetflow_inv (h : initNetflow = some s) : Inv s := by
  have hslots : (List.range netflowQueueSize).take (netflowQueueSize - 1) =
      List.range (netflowQueueSize - 1) := by
    rw [List.take_range, Nat.min_eq_left (Nat.sub_le _ _)]
  rw [initNetflow, hslots, enqueueBulk_eq (by simp)] at h
  obtain rfl := Option.some.inj h
  refine ⟨by simp [places, held], ?_, ?_, ?_, rfl⟩
  · intro n hn
    cases hn
  · intro records k hk
    cases hk
  · intro c hc
    cases hc

theorem conserved_run_iff [DecidableEq τ] (h : Inv s) (events : List (Event τ ρ)) :
    (∀ k, Conserved (run step s (events.take k))) ↔ Along step SendSucceeds s events := by
  have hall : Along step (fun _ (_ : Event τ ρ) => True) s events :=
    Along.of_forall fun _ _ => trivial
  refine good_iff_along ?_ (fun s e hs _ _ => step_conserved_iff hs e) h h.conserved hall
  intro s e hs _ hconserved
  exact step_inv hs e ((step_conserved_iff hs e).mp hconserved)

/-- The slots and the records are conserved in every state of a run exactly when no call of the
library fails in it while there are records to send. -/
theorem telemetry_iff [DecidableEq τ] (s : State τ ρ) (h : initNetflow = some s)
    (events : List (Event τ ρ)) :
    (∀ k, Conserved (run step s (events.take k))) ↔ Along step SendSucceeds s events :=
  conserved_run_iff (initNetflow_inv h) events

/-- The rings at the start. -/
def started : State Nat Nat where
  freelist := List.range (netflowQueueSize - 1)
  pending := []
  dataToSend _ := none
  calls := []
  sender := .idle
  accepted := []
  sent := []
  results := []

theorem started_eq : initNetflow = some started := by
  have hslots : (List.range netflowQueueSize).take (netflowQueueSize - 1) =
      List.range (netflowQueueSize - 1) := by
    rw [List.take_range, Nat.min_eq_left (Nat.sub_le _ _)]
  rw [initNetflow, hslots, enqueueBulk_eq (by simp)]
  simp [started]

/-- One record of one thread, accepted and taken. -/
def oneRecord : List (Event Nat Nat) :=
  [.dequeue 1 7, .copy 0, .enqueue 0, .ringCount, .dequeueBulk]

theorem telemetry_one_record :
    initNetflow = some started ∧ ∀ k, Conserved (run step started
      ((oneRecord ++ [Event.send (.ok 1), Event.giveBack]).take k)) := by
  refine ⟨started_eq, (telemetry_iff started started_eq _).mpr ?_⟩
  exact ⟨trivial, trivial, trivial, trivial, trivial, trivial, trivial, trivial⟩

theorem not_along_failed {s : State Nat Nat} {slot : Nat} {freelist : List Nat}
    (hfree : s.freelist = slot :: freelist) (hpending : s.pending = []) (hcalls : s.calls = [])
    (hsender : s.sender = .idle) :
    ¬ Along step SendSucceeds s (oneRecord ++ [Event.send (.error .ioFailed)]) := by
  cases s
  subst hfree hpending hcalls hsender
  rintro ⟨-, -, -, -, -, hsend, -⟩
  exact absurd (hsend [slot] 0 rfl) (by simp)

/-- A call of the library that fails takes the slot away for good. -/
theorem slot_lost :
    ¬ ∀ k, Conserved (run step started
      ((oneRecord ++ [Event.send (.error .ioFailed)]).take k)) := by
  rw [conserved_run_iff (initNetflow_inv started_eq)]
  have hslots : started.freelist = 0 :: (List.range 1022).map Nat.succ := by
    have hsize : netflowQueueSize - 1 = 1022 + 1 := rfl
    rw [started, hsize, List.range_succ_eq_map]
  exact not_along_failed hslots rfl rfl rfl

end DocaApps.Proofs.Telemetry
