import DocaApps.Proofs.DmaCopy

namespace DocaApps.Proofs.DmaCopyWaits
open DmaCopy.Core Lib.RelyGuarantee Lib.Runs Proofs.DmaCopyInvariant Proofs.DmaCopy

/-- The next thing a side does is to receive. -/
def Receives : Act Unit → Prop
  | .op (.recvfrom _) _ => True
  | _ => False

instance (x : Act Unit) : Decidable (Receives x) := by
  unfold Receives
  split <;> infer_instance

/-- One side has returned, and the other one waits for a message that is not on its way. -/
def LeftWaiting (y : System Cmd Msg DocaError World) : Prop :=
  (y.left.result?.isSome ∧ Receives y.right ∧ y.state.host.sent.length ≤ y.state.dpu.read) ∨
    (y.right.result?.isSome ∧ Receives y.left ∧ y.state.dpu.sent.length ≤ y.state.host.read)

instance (y : System Cmd Msg DocaError World) : Decidable (LeftWaiting y) :=
  inferInstanceAs (Decidable (_ ∨ _))

/-- The connection comes up, and from then on nothing goes wrong with it. -/
def Connected (c : Cmd) (o : Outcome) : Prop :=
  match c, o with
  | .sendto _, .fails _ => False
  | .recvfrom _, .fails _ => False
  | .call c, .fails _ => c ∉ [.epConnect, .peerAddrUpdateInfo, .allocateDmaCopyResources,
      .getDmaMaxBufSize, .ctxStart, .epListen]
  | _, _ => True

/-- None of the calls fails that the host does not tell the DPU about. -/
def HostTells (c : Cmd) (o : Outcome) : Prop :=
  match c, o with
  | .call c, .fails _ => c ∉ [.openDmaDevice, .mmapCreate, .mmapAddDev, .mmapSetPermissions]
  | .mallocAndStart _, .fails _ => False
  | .exportPci, .fails _ => False
  | .fread _, .fails _ => False
  | _, _ => True

/-- None of the calls fails that the DPU does not tell the host about. -/
def DpuTells (c : Cmd) (o : Outcome) : Prop :=
  match c, o with
  | .call c, .fails _ => c ≠ .mmapSetPermissions
  | .mallocAndStart _, .fails _ => False
  | .createFromExport _, .fails _ => False
  | _, _ => True

instance (c : Cmd) (o : Outcome) : Decidable (Connected c o) := by
  unfold Connected
  split <;> infer_instance

instance (c : Cmd) (o : Outcome) : Decidable (HostTells c o) := by
  unfold HostTells
  split <;> infer_instance

instance (c : Cmd) (o : Outcome) : Decidable (DpuTells c o) := by
  unfold DpuTells
  split <;> infer_instance

def ConnectedTurn : System Cmd Msg DocaError World → Turn Outcome → Prop :=
  System.Careful (fun c o _ => Connected c o) fun c o _ => Connected c o

def TellingTurn : System Cmd Msg DocaError World → Turn Outcome → Prop :=
  System.Careful (fun c o _ => HostTells c o) fun c o _ => DpuTells c o

/-- A message of the DPU after which the host goes on. -/
def good (i : Nat) (msg : Msg) : Bool :=
  if i = 0 then msg.length == directionMsgSize else isSuccess msg

/-- The DPU has not sent its last message yet. -/
structure Open (sent : List Msg) : Prop where
  length : sent.length < 5
  good : ∀ i msg, sent[i]? = some msg → good i msg = true

def Closed (w : World) : Prop := ¬ Open w.dpu.sent

theorem Open.of_longer {l m : List Msg} (h : l <+: m) (hm : Open m) : Open l where
  length := Nat.lt_of_le_of_lt h.length_le hm.length
  good := fun i msg hmsg => hm.good i msg (getElem?_of_longer h hmsg)

theorem Open.concat {l : List Msg} {msg : Msg} (h : Open l) (hlength : l.length < 4)
    (hgood : DmaCopyWaits.good l.length msg = true) : Open (l ++ [msg]) where
  length := by
    rw [List.length_append, List.length_singleton]
    omega
  good := by
    intro i msg' hmsg'
    rcases Nat.lt_or_ge i l.length with hi | hi
    · rw [List.getElem?_append_left hi] at hmsg'
      exact h.good i msg' hmsg'
    · rw [List.getElem?_append_right hi, List.getElem?_singleton] at hmsg'
      split at hmsg'
      · obtain rfl := Option.some.inj hmsg'
        obtain rfl : i = l.length := by omega
        exact hgood
      · contradiction

theorem not_open_concat {l : List Msg} {msg : Msg}
    (h : good l.length msg = false ∨ l.length = 4) : ¬ Open (l ++ [msg]) := by
  intro hopen
  rcases h with hbad | hfour
  · have hgood := hopen.good l.length msg (by simp)
    rw [hbad] at hgood
    contradiction
  · have hlength := hopen.length
    rw [List.length_append, List.length_singleton, hfour] at hlength
    omega

/-- A command that has nothing to do with messages. -/
def Quiet : Cmd → Prop
  | .sendto _ => False
  | .recvfrom _ => False
  | _ => True

section Perform

variable {e : Setup} {c : Cmd} {o : Outcome} {r : Except DocaError Msg} {me other me' other' : Side}

structure SameTraffic (s t : Side) : Prop where
  sent : t.sent = s.sent
  read : t.read = s.read

theorem mayFail_ok {works : Option (Except DocaError Msg × Side × Side)}
    (h : mayFail o me other works = some (r, me', other')) (ho : ∀ err, o ≠ .fails err) :
    works = some (r, me', other') := by
  cases o with
  | ok => exact h
  | fails err => exact absurd rfl (ho err)
  | holds | short | lost => contradiction

theorem memcpyTask_traffic {found : Bool} {addr len : UInt64}
    (h : memcpyTask e found addr len o me other = some (r, me', other')) :
    SameTraffic me me' ∧ SameTraffic other other' := by
  unfold memcpyTask at h
  split at h
  · obtain ⟨-, rfl, rfl⟩ : _ ∧ me = me' ∧ other = other' := by simpa using h
    exact ⟨⟨rfl, rfl⟩, rfl, rfl⟩
  · rw [Option.ite_none_right_eq_some] at h
    cases found with
    | true =>
      obtain ⟨-, rfl, rfl⟩ : _ ∧ _ = me' ∧ _ = other' := by simpa using h.2
      exact ⟨⟨rfl, rfl⟩, rfl, rfl⟩
    | false =>
      obtain ⟨-, rfl, rfl⟩ : _ ∧ _ = me' ∧ _ = other' := by simpa using h.2
      exact ⟨⟨rfl, rfl⟩, rfl, rfl⟩
  · rw [Option.ite_none_right_eq_some] at h
    cases found with
    | true =>
      obtain ⟨-, rfl, rfl⟩ : _ ∧ _ = me' ∧ _ = other' := by simpa using h.2
      exact ⟨⟨rfl, rfl⟩, rfl, rfl⟩
    | false =>
      obtain ⟨-, rfl, rfl⟩ : _ ∧ _ = me' ∧ _ = other' := by simpa using h.2
      exact ⟨⟨rfl, rfl⟩, rfl, rfl⟩
  · contradiction

theorem fwrite_traffic {size : UInt64} (h : fwrite size o me other = some (r, me', other')) :
    SameTraffic me me' ∧ SameTraffic other other' := by
  unfold fwrite at h
  split at h
  · obtain ⟨-, rfl, rfl⟩ : _ ∧ _ = me' ∧ other = other' := by simpa using h
    exact ⟨⟨rfl, rfl⟩, rfl, rfl⟩
  · obtain ⟨-, rfl, rfl⟩ : _ ∧ _ = me' ∧ other = other' := by simpa using h
    exact ⟨⟨rfl, rfl⟩, rfl, rfl⟩
  · obtain ⟨-, rfl, rfl⟩ : _ ∧ _ = me' ∧ other = other' := by simpa using h
    exact ⟨⟨rfl, rfl⟩, rfl, rfl⟩
  · obtain ⟨-, rfl, rfl⟩ : _ ∧ me = me' ∧ other = other' := by simpa using h
    exact ⟨⟨rfl, rfl⟩, rfl, rfl⟩
  · contradiction

/-- Only the two commands that send and receive touch the traffic. -/
theorem perform_quiet (hc : Quiet c) (h : perform e c o me other = some (r, me', other')) :
    SameTraffic me me' ∧ SameTraffic other other' := by
  cases c with
  | sendto | recvfrom => exact hc.elim
  | call call =>
    obtain ⟨rfl, rfl⟩ := perform_call h
    exact ⟨⟨rfl, rfl⟩, rfl, rfl⟩
  | passes cfg =>
    obtain ⟨rfl, -, rfl⟩ := perform_passes h
    exact ⟨⟨rfl, rfl⟩, rfl, rfl⟩
  | mallocAndStart len =>
    obtain ⟨rfl, ⟨_, -, rfl⟩ | ⟨_, -, -, rfl⟩⟩ := perform_mallocAndStart h
    · exact ⟨⟨rfl, rfl⟩, rfl, rfl⟩
    · exact ⟨⟨rfl, rfl⟩, rfl, rfl⟩
  | exportPci =>
    obtain ⟨rfl, ⟨_, -, rfl⟩ | ⟨-, rfl⟩⟩ := perform_exportPci h
    · exact ⟨⟨rfl, rfl⟩, rfl, rfl⟩
    · exact ⟨⟨rfl, rfl⟩, rfl, rfl⟩
  | createFromExport desc =>
    obtain ⟨rfl, rfl⟩ := perform_createFromExport h
    exact ⟨⟨rfl, rfl⟩, rfl, rfl⟩
  | fread size =>
    obtain ⟨rfl, ⟨_, -, rfl⟩ | ⟨_, _, -, -, -, rfl⟩⟩ := perform_fread h
    · exact ⟨⟨rfl, rfl⟩, rfl, rfl⟩
    · exact ⟨⟨rfl, rfl⟩, rfl, rfl⟩
  | fwrite size => exact fwrite_traffic h
  | free =>
    obtain ⟨rfl, rfl⟩ := perform_free h
    exact ⟨⟨rfl, rfl⟩, rfl, rfl⟩
  | mmapDestroy =>
    obtain ⟨rfl, mmap, rfl⟩ := perform_mmapDestroy h
    exact ⟨⟨rfl, rfl⟩, rfl, rfl⟩
  | memcpyTask found addr len => exact memcpyTask_traffic h

/-- Whatever works in only one way works when it does not fail. -/
theorem perform_ok (hc : ∀ size, c ≠ .fwrite size) (ho : ∀ err, o ≠ .fails err)
    (h : perform e c o me other = some (r, me', other')) : ∃ msg, r = .ok msg := by
  cases c with
  | fwrite size => exact absurd rfl (hc size)
  | call call =>
    obtain ⟨rfl, -⟩ : _ = r ∧ _ := by simpa using mayFail_ok h ho
    exact ⟨_, rfl⟩
  | sendto msg =>
    obtain ⟨rfl, -⟩ : _ = r ∧ _ := by simpa using mayFail_ok h ho
    exact ⟨_, rfl⟩
  | recvfrom len =>
    obtain ⟨-, ⟨err, rfl, rfl⟩ | ⟨msg, -, rfl, -⟩⟩ := perform_recvfrom h
    · have hrecv := mayFail_ok h ho
      unfold recvfrom at hrecv
      split at hrecv
      · rw [Option.ite_none_right_eq_some] at hrecv
        simp at hrecv
      · contradiction
    · exact ⟨msg, rfl⟩
  | passes cfg =>
    obtain ⟨-, rfl, -⟩ := perform_passes h
    exact ⟨_, rfl⟩
  | mallocAndStart len =>
    change mallocAndStart len o me other = some (r, me', other') at h
    unfold mallocAndStart at h
    split at h
    · rw [Option.ite_none_right_eq_some] at h
      obtain ⟨rfl, -⟩ : _ = r ∧ _ := by simpa using h.2
      exact ⟨_, rfl⟩
    · exact absurd rfl (ho _)
    · contradiction
  | exportPci =>
    obtain ⟨rfl, -⟩ : _ = r ∧ _ := by simpa using mayFail_ok h ho
    exact ⟨_, rfl⟩
  | createFromExport desc =>
    have hcreate := mayFail_ok h ho
    rw [Option.ite_none_right_eq_some] at hcreate
    obtain ⟨rfl, -⟩ : _ = r ∧ _ := by simpa using hcreate.2
    exact ⟨_, rfl⟩
  | fread size =>
    change fread size o me other = some (r, me', other') at h
    unfold fread at h
    split at h
    · rw [Option.ite_none_right_eq_some] at h
      obtain ⟨rfl, -⟩ : _ = r ∧ _ := by simpa using h.2
      exact ⟨_, rfl⟩
    · exact absurd rfl (ho _)
    · contradiction
  | free =>
    obtain ⟨rfl, -⟩ : _ = r ∧ _ := by simpa [perform] using h
    exact ⟨_, rfl⟩
  | mmapDestroy =>
    obtain ⟨rfl, -⟩ : _ = r ∧ _ := by simpa using mayFail_ok h ho
    exact ⟨_, rfl⟩
  | memcpyTask found addr len =>
    change memcpyTask e found addr len o me other = some (r, me', other') at h
    unfold memcpyTask at h
    split at h
    · exact absurd rfl (ho _)
    · rw [Option.ite_none_right_eq_some] at h
      cases found with
      | true =>
        obtain ⟨rfl, -⟩ : _ = r ∧ _ := by simpa using h.2
        exact ⟨_, rfl⟩
      | false =>
        obtain ⟨rfl, -⟩ : _ = r ∧ _ := by simpa using h.2
        exact ⟨_, rfl⟩
    · rw [Option.ite_none_right_eq_some] at h
      cases found with
      | true =>
        obtain ⟨rfl, -⟩ : _ = r ∧ _ := by simpa using h.2
        exact ⟨_, rfl⟩
      | false =>
        obtain ⟨rfl, -⟩ : _ = r ∧ _ := by simpa using h.2
        exact ⟨_, rfl⟩
    · contradiction

end Perform

/-- What the DPU may do between two steps of the host. -/
structure HostSees (w t : World) : Prop where
  read : t.host.read = w.host.read
  sent : w.dpu.sent <+: t.dpu.sent

/-- What the DPU does: it receives only as long as it has not sent its last message. -/
structure DpuStep (w t : World) : Prop extends HostSees w t where
  receives : t.dpu.read ≠ w.dpu.read → Open w.dpu.sent

/-- What the host may do between two steps of the DPU. -/
structure DpuSees (w t : World) : Prop where
  sent : t.dpu.sent = w.dpu.sent
  read : t.dpu.read = w.dpu.read

/-- What the host does: it receives only as long as what it has got is not the last message
of the DPU. -/
structure HostStep (w t : World) : Prop extends DpuSees w t where
  receives : t.host.read ≠ w.host.read → Open (w.dpu.sent.take w.host.read)

variable (e : Setup)

def hostParty : Party Cmd Msg DocaError Outcome World where
  perform := hostPerform e
  careful c o _ := Connected c o ∧ HostTells c o
  rely := HostSees
  guar := HostStep
  rely_refl := fun _ => ⟨rfl, List.prefix_rfl⟩
  rely_trans := fun h h' => ⟨h'.read.trans h.read, h.sent.trans h'.sent⟩

def dpuParty : Party Cmd Msg DocaError Outcome World where
  perform := dpuPerform e
  careful c o _ := Connected c o ∧ DpuTells c o
  rely := DpuSees
  guar := DpuStep
  rely_refl := fun _ => ⟨rfl, rfl⟩
  rely_trans := fun h h' => ⟨h'.sent.trans h.sent, h'.read.trans h.read⟩

section Host

variable {e : Setup} {c : Cmd} {r : Nat}

/-- The host has received so many messages, and goes on. -/
structure Heard (r : Nat) (w : World) : Prop where
  read : w.host.read = r
  length : r ≤ w.dpu.sent.length
  open_ : Open (w.dpu.sent.take r)

theorem take_of_longer {l m : List Msg} (h : l <+: m) {n : Nat} (hn : n ≤ l.length) :
    m.take n = l.take n := by
  obtain ⟨rest, rfl⟩ := h
  rw [List.take_append_of_le_length hn]

theorem heard_stable : Stable (hostParty e) (Heard r) := by
  intro w t h hw
  refine ⟨(HostSees.read h).trans hw.read,
    Nat.le_trans hw.length (HostSees.sent h).length_le, ?_⟩
  rw [take_of_longer (HostSees.sent h) hw.length]
  exact hw.open_

theorem closed_stable : Stable (hostParty e) Closed :=
  fun _ _ h hw hopen => hw (hopen.of_longer (HostSees.sent h))

theorem host_asks (hc : Quiet c) (hok : ∀ {o : Outcome} {a : Except DocaError Msg}
    {me other me' other' : Side}, Connected c o → HostTells c o →
      perform e c o me other = some (a, me', other') → ∃ msg, a = .ok msg) :
    Triple (hostParty e) (Heard r) (ask c) (fun _ => Heard r) Closed := by
  refine triple_ask heard_stable (fun _ => heard_stable) closed_stable ?_
  intro w o a t hw hcareful hperform
  have hp := hostPerform_eq hperform
  obtain ⟨hme, hother⟩ := perform_quiet hc hp
  obtain ⟨msg, rfl⟩ := hok hcareful.1 hcareful.2 hp
  refine ⟨⟨⟨hother.sent, hother.read⟩, fun hread => absurd hme.read hread⟩, ?_⟩
  refine ⟨hme.read.trans hw.read, ?_, ?_⟩
  · rw [hother.sent]
    exact hw.length
  · rw [hother.sent]
    exact hw.open_

/-- A quiet command whose failure is one of those excluded. -/
theorem host_works (hc : Quiet c) (hwrite : ∀ size, c ≠ .fwrite size)
    (hfails : ∀ err, Connected c (.fails err) → ¬ HostTells c (.fails err)) :
    Triple (hostParty e) (Heard r) (tell c) (fun _ => Heard r) Closed := by
  refine triple_bind (host_asks hc ?_) fun _ => triple_pure heard_stable fun _ hw => hw
  intro o a me other me' other' hconnected htells hperform
  refine perform_ok hwrite ?_ hperform
  rintro err rfl
  exact hfails err hconnected htells

/-- After the last message of the DPU nothing matters any more. -/
theorem host_closes (hc : Quiet c) :
    Triple (hostParty e) Closed (tell c) (fun _ => Closed) Closed := by
  refine triple_tell closed_stable closed_stable closed_stable ?_
  intro w o a t hw _ hperform
  obtain ⟨hme, hother⟩ := perform_quiet hc (hostPerform_eq hperform)
  have hclosed : Closed t := by
    rw [Closed, hother.sent]
    exact hw
  refine ⟨⟨⟨hother.sent, hother.read⟩, fun hread => absurd hme.read hread⟩, ?_⟩
  cases a with
  | ok msg => exact hclosed
  | error err => exact hclosed

theorem host_sends {msg : Msg} :
    Triple (hostParty e) (Heard r) (tell (.sendto msg)) (fun _ => Heard r) Closed := by
  refine triple_tell heard_stable heard_stable closed_stable ?_
  intro w o a t hw hcareful hperform
  obtain ⟨host, dpu⟩ := t
  obtain ⟨hdpu, ⟨err, rfl, hhost⟩ | ⟨rfl, hhost⟩⟩ := perform_sendto (hostPerform_eq hperform)
  · obtain ⟨msg', hmsg'⟩ := perform_ok (by simp) (by
      rintro err' rfl
      exact hcareful.1) (hostPerform_eq hperform)
    contradiction
  · dsimp only at hdpu hhost
    subst hdpu hhost
    exact ⟨⟨⟨rfl, rfl⟩, fun hread => absurd rfl hread⟩, hw.read, hw.length, hw.open_⟩

/-- The host has just received this message. -/
structure Got (r : Nat) (msg : Msg) (w : World) : Prop where
  read : w.host.read = r + 1
  msg : w.dpu.sent[r]? = some msg
  before : Open (w.dpu.sent.take r)

theorem got_stable {msg : Msg} : Stable (hostParty e) (Got r msg) := by
  intro w t h hw
  obtain ⟨hlength, -⟩ := List.getElem?_eq_some_iff.mp hw.msg
  refine ⟨(HostSees.read h).trans hw.read, getElem?_of_longer (HostSees.sent h) hw.msg, ?_⟩
  rw [take_of_longer (HostSees.sent h) (Nat.le_of_lt hlength)]
  exact hw.before

theorem host_receives {len : Nat} :
    Triple (hostParty e) (Heard r) (ask (.recvfrom len)) (Got r) Closed := by
  refine triple_ask heard_stable (fun _ => got_stable) closed_stable ?_
  intro w o a t hw hcareful hperform
  obtain ⟨host, dpu⟩ := t
  obtain ⟨hdpu, ⟨err, rfl, hhost⟩ | ⟨msg, hmsg, rfl, hhost⟩⟩ :=
    perform_recvfrom (hostPerform_eq hperform)
  · obtain ⟨msg', hmsg'⟩ := perform_ok (by simp) (by
      rintro err' rfl
      exact hcareful.1) (hostPerform_eq hperform)
    contradiction
  · dsimp only at hdpu hhost
    subst hdpu hhost
    obtain ⟨hread, hlength, hopen⟩ := hw
    subst hread
    exact ⟨⟨⟨rfl, rfl⟩, fun _ => hopen⟩, rfl, hmsg, hopen⟩

theorem Got.closed {msg : Msg} {w : World} (h : Got r msg w) (hbad : good r msg = false) :
    Closed w := by
  intro hopen
  have hgood := hopen.good r msg h.msg
  rw [hbad] at hgood
  contradiction

theorem Got.heard {msg : Msg} {w : World} (h : Got r msg w) (hgood : good r msg = true)
    (hr : r < 4) : Heard (r + 1) w := by
  obtain ⟨hlength, hget⟩ := List.getElem?_eq_some_iff.mp h.msg
  refine ⟨h.read, hlength, ?_⟩
  rw [List.take_add_one, h.msg]
  have htake : (w.dpu.sent.take r).length = r := List.length_take_of_le (Nat.le_of_lt hlength)
  refine h.before.concat ?_ ?_
  · rw [htake]
    exact hr
  · rw [htake]
    exact hgood

/-- Having received the fifth message, the host does not wait for another one. -/
theorem Got.last {msg : Msg} {w : World} (h : Got 4 msg w) : Closed w := by
  intro hopen
  obtain ⟨hlength, -⟩ := List.getElem?_eq_some_iff.mp h.msg
  exact absurd hopen.length (by omega)

theorem host_wait (hr : r < 4) (hpos : r ≠ 0) :
    Triple (hostParty e) (Heard r) waitForSuccessfulStatusMsg (fun _ => Heard (r + 1))
      Closed := by
  refine triple_bind host_receives fun msg => ?_
  have hgood : good r msg = isSuccess msg := if_neg hpos
  cases hsuccess : isSuccess msg with
  | true => exact triple_pure heard_stable fun w hw => hw.heard (hgood.trans hsuccess) hr
  | false => exact triple_throw closed_stable fun w hw => hw.closed (hgood.trans hsuccess)

theorem host_wait_last :
    Triple (hostParty e) (Heard 4) waitForSuccessfulStatusMsg (fun _ => Closed) Closed := by
  refine triple_bind host_receives fun msg => ?_
  refine (triple_require got_stable closed_stable fun w hw => hw.last).consequence
    (fun _ hw => hw) (fun _ _ hw => hw.1.last) fun _ hw => hw

theorem host_call {call : Call} (h : call ∈ [.epConnect, .peerAddrUpdateInfo, .openDmaDevice,
    .mmapCreate, .mmapAddDev, .mmapSetPermissions]) :
    Triple (hostParty e) (Heard r) (tell (.call call)) (fun _ => Heard r) Closed := by
  refine host_works trivial (by simp) ?_
  intro err hconnected htells
  simp only [Connected, HostTells] at hconnected htells
  simp only [List.mem_cons, List.not_mem_nil, or_false] at h hconnected htells
  rcases h with rfl | rfl | rfl | rfl | rfl | rfl
  · simp at hconnected
  · simp at hconnected
  · simp at htells
  · simp at htells
  · simp at htells
  · simp at htells

theorem host_negotiates {cfg : Cfg} :
    Triple (hostParty e) (Heard 0) (hostNegotiateDmaDirectionAndSize cfg) (fun _ => Heard 1)
      Closed := by
  refine triple_bind (host_call (by simp)) fun _ => ?_
  refine triple_bind (host_call (by simp)) fun _ => ?_
  refine triple_bind host_sends fun _ => ?_
  refine triple_bind host_receives fun msg => ?_
  cases hlength : msg.length == directionMsgSize with
  | false => exact triple_throw closed_stable fun w hw => hw.closed hlength
  | true =>
    refine Triple.consequence (P := Heard 1) ?_ (fun w hw => hw.heard hlength (by omega))
      (fun _ _ hw => hw) fun _ hw => hw
    refine triple_bind (Q := fun _ => Heard 1) (triple_pure heard_stable fun _ hw => hw)
      fun _ => ?_
    refine triple_bind (Q := fun _ => Heard 1) (triple_bind (host_asks trivial ?_) fun _ =>
      triple_pure heard_stable fun _ hw => hw) fun _ => ?_
    · intro o a me other me' other' _ _ hperform
      exact ⟨_, (perform_passes hperform).2.1⟩
    exact triple_pure heard_stable fun _ hw => hw

theorem host_mallocs {len : UInt64} :
    Triple (hostParty e) (Heard r) (memoryAllocAndPopulate len) (fun _ => Heard r) Closed := by
  refine triple_bind (host_call (by simp)) fun _ => ?_
  exact host_works trivial (by simp) fun _ _ htells => htells

theorem host_exports :
    Triple (hostParty e) (Heard 1) hostExportMemoryMapToDpu (fun _ => Heard 2) Closed := by
  refine triple_bind (host_asks trivial ?_) fun desc => ?_
  · intro o a me other me' other' _ htells hperform
    refine perform_ok (by simp) ?_ hperform
    rintro err rfl
    exact htells
  refine triple_bind host_sends fun _ => ?_
  exact host_wait (by omega) (by omega)

theorem host_fills {found : Bool} {size : UInt64} :
    Triple (hostParty e) (Heard r) (onlyIf found (tell (.fread size))) (fun _ => Heard r)
      Closed := by
  cases found with
  | false => exact triple_pure heard_stable fun _ hw => hw
  | true => exact host_works trivial (by simp) fun _ _ htells => htells

theorem host_sends_addr {size : UInt64} :
    Triple (hostParty e) (Heard 2) (hostSendAddrAndOffset e size) (fun _ => Heard 4)
      Closed := by
  refine triple_bind host_sends fun _ => ?_
  refine triple_bind (host_wait (by omega) (by omega)) fun _ => ?_
  refine triple_bind host_sends fun _ => ?_
  exact host_wait (by omega) (by omega)

theorem host_copies {cfg : Cfg} :
    Triple (hostParty e) (Heard 1) (hostCopy e cfg) (fun _ => Closed) Closed := by
  refine triple_bind host_exports fun _ => ?_
  refine triple_bind host_fills fun _ => ?_
  refine triple_bind host_sends_addr fun _ => ?_
  refine triple_bind host_wait_last fun _ => ?_
  cases !cfg.isFileFoundLocally with
  | false => exact triple_pure closed_stable fun _ hw => hw
  | true => exact host_closes trivial

theorem host_releasing {x release : Act Unit}
    (hx : Triple (hostParty e) (Heard r) x (fun _ => Closed) Closed)
    (hrelease : Triple (hostParty e) Closed release (fun _ => Closed) Closed) :
    Triple (hostParty e) (Heard r) (releasing x release) (fun _ => Closed) Closed :=
  triple_releasing hx (fun _ => closed_stable) closed_stable (fun _ => hrelease) hrelease

/-- A host that returns has had the last message of the DPU. -/
theorem host_returns {cfg : Cfg} :
    Triple (hostParty e) (Heard 0) (hostStartDmaCopy e cfg) (fun _ => Closed) Closed := by
  refine triple_bind host_negotiates fun cfg => ?_
  refine triple_bind (host_call (by simp)) fun _ => ?_
  refine host_releasing ?_ (host_closes trivial)
  refine triple_bind (host_call (by simp)) fun _ => ?_
  refine host_releasing ?_ (host_closes trivial)
  refine triple_bind (host_call (by simp)) fun _ => ?_
  refine triple_bind host_mallocs fun _ => ?_
  exact host_releasing host_copies (host_closes trivial)

end Host

section Dpu

variable {e : Setup} {c : Cmd} {n : Nat}

/-- The DPU has sent so many messages, and goes on. -/
structure Said (n : Nat) (w : World) : Prop where
  length : w.dpu.sent.length = n
  open_ : Open w.dpu.sent

theorem said_stable : Stable (dpuParty e) (Said n) := by
  intro w t h hw
  have hsent := DpuSees.sent h
  refine ⟨?_, ?_⟩
  · rw [hsent]
    exact hw.length
  · rw [hsent]
    exact hw.open_

theorem dpu_closed_stable : Stable (dpuParty e) Closed := by
  intro w t h hw
  rw [Closed, DpuSees.sent h]
  exact hw

theorem quiet_step {o : Outcome} {a : Except DocaError Msg} {w t : World} (hc : Quiet c)
    (h : dpuPerform e c o w = some (a, t)) : DpuStep w t ∧ t.dpu.sent = w.dpu.sent := by
  obtain ⟨hme, hother⟩ := perform_quiet hc (dpuPerform_eq h)
  refine ⟨⟨⟨hother.read, ?_⟩, fun hread => absurd hme.read hread⟩, hme.sent⟩
  rw [hme.sent]

/-- A quiet command, whether it works or not. -/
theorem dpu_tries (hc : Quiet c) :
    Triple (dpuParty e) (Said n) (tell c) (fun _ => Said n) (Said n) := by
  refine triple_tell said_stable said_stable said_stable ?_
  intro w o a t hw _ hperform
  obtain ⟨hstep, hsent⟩ := quiet_step hc hperform
  have hsaid : Said n t := by
    refine ⟨?_, ?_⟩
    · rw [hsent]
      exact hw.length
    · rw [hsent]
      exact hw.open_
  refine ⟨hstep, ?_⟩
  cases a with
  | ok msg => exact hsaid
  | error err => exact hsaid

theorem dpu_asks (hc : Quiet c) (hok : ∀ {o : Outcome} {a : Except DocaError Msg}
    {me other me' other' : Side}, Connected c o → DpuTells c o →
      perform e c o me other = some (a, me', other') → ∃ msg, a = .ok msg) :
    Triple (dpuParty e) (Said n) (tell c) (fun _ => Said n) Closed := by
  refine triple_tell said_stable said_stable dpu_closed_stable ?_
  intro w o a t hw hcareful hperform
  obtain ⟨hstep, hsent⟩ := quiet_step hc hperform
  obtain ⟨msg, rfl⟩ := hok hcareful.1 hcareful.2 (dpuPerform_eq hperform)
  refine ⟨hstep, ?_, ?_⟩
  · rw [hsent]
    exact hw.length
  · rw [hsent]
    exact hw.open_

/-- A quiet command whose failure is one of those excluded. -/
theorem dpu_works (hc : Quiet c) (hwrite : ∀ size, c ≠ .fwrite size)
    (hfails : ∀ err, Connected c (.fails err) → ¬ DpuTells c (.fails err)) :
    Triple (dpuParty e) (Said n) (tell c) (fun _ => Said n) Closed := by
  refine dpu_asks hc ?_
  intro o a me other me' other' hconnected htells hperform
  refine perform_ok hwrite ?_ hperform
  rintro err rfl
  exact hfails err hconnected htells

theorem dpu_closes (hc : Quiet c) :
    Triple (dpuParty e) Closed (tell c) (fun _ => Closed) Closed := by
  refine triple_tell dpu_closed_stable dpu_closed_stable dpu_closed_stable ?_
  intro w o a t hw _ hperform
  obtain ⟨hstep, hsent⟩ := quiet_step hc hperform
  have hclosed : Closed t := by
    rw [Closed, hsent]
    exact hw
  refine ⟨hstep, ?_⟩
  cases a with
  | ok msg => exact hclosed
  | error err => exact hclosed

theorem dpu_sends {msg : Msg} {Q E : World → Prop} (hQ : Stable (dpuParty e) Q)
    (hE : Stable (dpuParty e) E)
    (h : ∀ w, Said n w → Q ⟨w.host, { w.dpu with sent := w.dpu.sent ++ [msg] }⟩) :
    Triple (dpuParty e) (Said n) (tell (.sendto msg)) (fun _ => Q) E := by
  refine triple_tell said_stable hQ hE ?_
  intro w o a t hw hcareful hperform
  obtain ⟨host, dpu⟩ := t
  obtain ⟨hhost, ⟨err, rfl, hdpu⟩ | ⟨rfl, hdpu⟩⟩ := perform_sendto (dpuPerform_eq hperform)
  · obtain ⟨msg', hmsg'⟩ := perform_ok (by simp) (by
      rintro err' rfl
      exact hcareful.1) (dpuPerform_eq hperform)
    contradiction
  · dsimp only at hdpu hhost
    subst hdpu hhost
    exact ⟨⟨⟨rfl, List.prefix_append _ _⟩, fun hread => absurd rfl hread⟩, h w hw⟩

theorem dpu_goes_on {msg : Msg} (hn : n < 4) (hgood : good n msg = true) :
    Triple (dpuParty e) (Said n) (tell (.sendto msg)) (fun _ => Said (n + 1)) Closed := by
  refine dpu_sends said_stable dpu_closed_stable ?_
  intro w hw
  obtain ⟨hlength, hopen⟩ := hw
  subst hlength
  refine ⟨?_, hopen.concat hn hgood⟩
  rw [List.length_append, List.length_singleton]

theorem dpu_acks (hn : n < 4) (hpos : n ≠ 0) :
    Triple (dpuParty e) (Said n) (sendStatusMsg true) (fun _ => Said (n + 1)) Closed := by
  refine dpu_goes_on hn ?_
  rw [good, if_neg hpos]
  rfl

theorem dpu_gives_up :
    Triple (dpuParty e) (Said n) (sendStatusMsg false) (fun _ => Closed) Closed := by
  refine dpu_sends dpu_closed_stable dpu_closed_stable ?_
  intro w hw
  refine not_open_concat (.inl ?_)
  unfold good
  split
  · rfl
  · rfl

theorem dpu_finishes :
    Triple (dpuParty e) (Said 4) (sendStatusMsg true) (fun _ => Closed) Closed :=
  dpu_sends dpu_closed_stable dpu_closed_stable fun _ hw => not_open_concat (.inr hw.length)

theorem dpu_receives {len : Nat} :
    Triple (dpuParty e) (Said n) (ask (.recvfrom len)) (fun _ => Said n) (Said n) := by
  refine triple_ask said_stable (fun _ => said_stable) said_stable ?_
  intro w o a t hw _ hperform
  obtain ⟨host, dpu⟩ := t
  obtain ⟨hhost, ⟨err, rfl, hdpu⟩ | ⟨msg, hmsg, rfl, hdpu⟩⟩ :=
    perform_recvfrom (dpuPerform_eq hperform)
  · dsimp only at hdpu hhost
    subst hdpu hhost
    exact ⟨⟨⟨rfl, List.prefix_rfl⟩, fun hread => absurd rfl hread⟩, hw⟩
  · dsimp only at hdpu hhost
    subst hdpu hhost
    exact ⟨⟨⟨rfl, List.prefix_rfl⟩, fun _ => hw.open_⟩, hw.length, hw.open_⟩

theorem dpu_orSendFailure {α : Type} {x : Act α} {Q : World → Prop}
    (hQ : Stable (dpuParty e) Q)
    (h : Triple (dpuParty e) (Said n) x (fun _ => Q) (Said n)) :
    Triple (dpuParty e) (Said n) (orSendFailure x) (fun _ => Q) Closed := by
  refine triple_bind (Q := fun r w => Post (fun _ => Q) (Said n) r w)
    (triple_attempt h fun _ _ hw => hw) ?_
  intro r
  cases r with
  | ok a => exact triple_pure hQ fun _ hw => hw
  | error err =>
    refine triple_bind (Q := fun _ => Closed) (triple_attempt dpu_gives_up ?_) ?_
    · intro _ _ hw
      exact hw
    intro _
    exact triple_throw dpu_closed_stable fun _ hw => hw

theorem dpu_call {call : Call} (h : call ∈ [.allocateDmaCopyResources, .getDmaMaxBufSize,
    .ctxStart, .epListen]) :
    Triple (dpuParty e) (Said n) (tell (.call call)) (fun _ => Said n) Closed := by
  refine dpu_works trivial (by simp) ?_
  intro err hconnected
  simp only [Connected] at hconnected
  simp only [List.mem_cons, List.not_mem_nil, or_false] at h hconnected
  rcases h with rfl | rfl | rfl | rfl
  · simp at hconnected
  · simp at hconnected
  · simp at hconnected
  · simp at hconnected

theorem dpu_requires {b : Bool} {err : DocaError} :
    Triple (dpuParty e) (Said n) (require b err) (fun _ => Said n) (Said n) :=
  (triple_require said_stable said_stable fun _ hw => hw).consequence (fun _ hw => hw)
    (fun _ _ hw => hw.1) fun _ hw => hw

theorem dpu_negotiates {cfg : Cfg} :
    Triple (dpuParty e) (Said 0) (dpuNegotiateDmaDirectionAndSize e cfg) (fun _ => Said 1)
      Closed := by
  refine triple_bind (dpu_call (by simp)) fun _ => ?_
  refine triple_bind (dpu_orSendFailure (Q := Said 0) said_stable ?_) fun cfg => ?_
  · refine triple_bind dpu_receives fun msg => ?_
    refine triple_bind dpu_requires fun _ => ?_
    refine triple_bind dpu_requires fun _ => ?_
    exact triple_pure said_stable fun _ hw => hw
  split
  · refine triple_bind dpu_gives_up fun _ => ?_
    exact triple_throw dpu_closed_stable fun _ hw => hw
  · refine triple_bind (dpu_goes_on (by omega) rfl) fun _ => ?_
    refine triple_bind (dpu_asks trivial ?_) fun _ => ?_
    · intro o a me other me' other' _ _ hperform
      exact ⟨_, (perform_passes hperform).2.1⟩
    exact triple_pure said_stable fun _ hw => hw

theorem dpu_mallocs {len : UInt64} :
    Triple (dpuParty e) (Said n) (memoryAllocAndPopulate len) (fun _ => Said n) Closed := by
  refine triple_bind (dpu_works trivial (by simp) fun _ _ htells => htells rfl) fun _ => ?_
  exact dpu_works trivial (by simp) fun _ _ htells => htells

theorem dpu_receives_desc :
    Triple (dpuParty e) (Said 1) dpuReceiveExportDesc (fun _ => Said 2) Closed := by
  refine triple_bind (dpu_orSendFailure said_stable dpu_receives) fun desc => ?_
  refine triple_bind (dpu_acks (by omega) (by omega)) fun _ => ?_
  exact triple_pure said_stable fun _ hw => hw

theorem dpu_receives_number (hn : n < 4) (hpos : n ≠ 0) :
    Triple (dpuParty e) (Said n) dpuReceiveNumber (fun _ => Said (n + 1)) Closed := by
  refine triple_bind (dpu_orSendFailure (Q := Said n) said_stable ?_) fun received => ?_
  · refine triple_bind dpu_receives fun msg => ?_
    refine triple_bind dpu_requires fun _ => ?_
    exact triple_pure said_stable fun _ hw => hw
  refine triple_bind (dpu_acks hn hpos) fun _ => ?_
  exact triple_pure said_stable fun _ hw => hw

theorem dpu_receives_addr :
    Triple (dpuParty e) (Said 2) dpuReceiveAddrAndOffset (fun _ => Said 4) Closed := by
  refine triple_bind (dpu_receives_number (by omega) (by omega)) fun addr => ?_
  refine triple_bind (dpu_receives_number (by omega) (by omega)) fun len => ?_
  exact triple_pure said_stable fun _ hw => hw

theorem dpu_onlyIf {b : Bool} (hc : Quiet c) :
    Triple (dpuParty e) (Said n) (onlyIf b (tell c)) (fun _ => Said n) (Said n) := by
  cases b with
  | false => exact triple_pure said_stable fun _ hw => hw
  | true => exact dpu_tries hc

theorem dpu_submits {cfg : Cfg} {addr len : UInt64} :
    Triple (dpuParty e) (Said n) (dpuSubmitDmaTask cfg addr len) (fun _ => Said n)
      (Said n) := by
  refine triple_bind (dpu_tries trivial) fun _ => ?_
  refine triple_bind (dpu_tries trivial) fun _ => ?_
  refine triple_bind (dpu_tries trivial) fun _ => ?_
  refine triple_bind (dpu_tries trivial) fun _ => ?_
  refine triple_bind (dpu_tries trivial) fun _ => ?_
  exact dpu_onlyIf trivial

theorem dpu_releasing {x release : Act Unit}
    (hx : Triple (dpuParty e) (Said n) x (fun _ => Closed) Closed)
    (hrelease : Triple (dpuParty e) Closed release (fun _ => Closed) Closed) :
    Triple (dpuParty e) (Said n) (releasing x release) (fun _ => Closed) Closed :=
  triple_releasing hx (fun _ => dpu_closed_stable) dpu_closed_stable (fun _ => hrelease)
    hrelease

theorem dpu_copies {cfg : Cfg} :
    Triple (dpuParty e) (Said 2) (dpuCopy cfg) (fun _ => Closed) Closed := by
  refine triple_bind dpu_receives_addr fun addr => ?_
  refine triple_bind (dpu_orSendFailure said_stable (dpu_tries trivial)) fun _ => ?_
  refine dpu_releasing ?_ (dpu_closes trivial)
  refine triple_bind (dpu_orSendFailure said_stable (dpu_tries trivial)) fun _ => ?_
  refine dpu_releasing ?_ (dpu_closes trivial)
  refine triple_bind (dpu_orSendFailure (Q := Said 4) said_stable ?_) fun _ => ?_
  · exact triple_bind (dpu_onlyIf trivial) fun _ => dpu_submits
  refine triple_bind (Q := fun _ => Closed) (triple_attempt dpu_finishes ?_) fun _ => ?_
  · intro _ _ hw
    exact hw
  exact triple_pure dpu_closed_stable fun _ hw => hw

/-- A DPU that returns has sent its last message. -/
theorem dpu_returns {cfg : Cfg} :
    Triple (dpuParty e) (Said 0) (dpuStartDmaCopy e cfg) (fun _ => Closed) Closed := by
  refine triple_bind (dpu_call (by simp)) fun _ => ?_
  refine dpu_releasing ?_ (dpu_closes trivial)
  refine triple_bind (dpu_call (by simp)) fun _ => ?_
  refine triple_bind (dpu_call (by simp)) fun _ => ?_
  refine dpu_releasing ?_ (dpu_closes trivial)
  refine triple_bind dpu_negotiates fun cfg => ?_
  refine triple_bind dpu_mallocs fun _ => ?_
  refine dpu_releasing ?_ (dpu_closes trivial)
  refine triple_bind dpu_receives_desc fun desc => ?_
  refine triple_bind (dpu_works trivial (by simp) fun _ _ htells => htells) fun _ => ?_
  exact dpu_releasing dpu_copies (dpu_closes trivial)

end Dpu

section Run

variable {e : Setup} {w : World} {x : Act Unit} {turns : List (Turn Outcome)}

theorem recvfrom_perform {n : Nat} {me other : Side} {msg : Msg}
    (hmsg : other.sent[me.read]? = some msg) (hlength : msg.length ≤ n) :
    perform e (.recvfrom n) .ok me other =
      some (.ok msg, { me with read := me.read + 1 }, other) := by
  change recvfrom n me other = _
  unfold recvfrom
  rw [hmsg]
  exact if_pos hlength

/-- A host that waits has not got the last message of the DPU. -/
theorem host_waits (h : Safe (hostParty e) (Post (fun _ => Closed) Closed) x w)
    (hreceives : Receives x) (hread : w.dpu.sent.length ≤ w.host.read) : Open w.dpu.sent := by
  cases x with
  | done r => exact hreceives.elim
  | op c k =>
    cases c with
    | recvfrom n =>
      -- Any message that the DPU might send next would make the host go on.
      have hmsg : (w.dpu.sent ++ List.replicate (w.host.read + 1 - w.dpu.sent.length) [])[
          w.host.read]? = some [] := by
        rw [List.getElem?_append_right hread, List.getElem?_replicate, if_pos (by omega)]
      let dpu := { w.dpu with
        sent := w.dpu.sent ++ List.replicate (w.host.read + 1 - w.dpu.sent.length) [] }
      have hperform : hostPerform e (.recvfrom n) .ok ⟨w.host, dpu⟩ =
          some (.ok [], ⟨{ w.host with read := w.host.read + 1 }, dpu⟩) := by
        rw [hostPerform, recvfrom_perform hmsg (Nat.zero_le n)]
        rfl
      have hsees : HostSees w ⟨w.host, dpu⟩ := ⟨rfl, List.prefix_append _ _⟩
      have hcareful : Connected (.recvfrom n) .ok ∧ HostTells (.recvfrom n) .ok := by
        exact ⟨trivial, trivial⟩
      have hguar := h.guar_next hsees hcareful hperform
      have hstep : HostStep ⟨w.host, dpu⟩ _ := hguar
      refine (hstep.receives (Nat.succ_ne_self _)).of_longer ?_
      rw [List.prefix_take_iff]
      exact ⟨List.prefix_append _ _, hread⟩
    | _ => exact hreceives.elim

theorem dpu_waits (h : Safe (dpuParty e) (Post (fun _ => Closed) Closed) x w)
    (hreceives : Receives x) : Open w.dpu.sent := by
  cases x with
  | done r => exact hreceives.elim
  | op c k =>
    cases c with
    | recvfrom n =>
      have hmsg : (List.replicate (w.dpu.read + 1) [])[w.dpu.read]? = some ([] : Msg) := by
        rw [List.getElem?_replicate, if_pos (Nat.lt_succ_self _)]
      let host := { w.host with sent := List.replicate (w.dpu.read + 1) [] }
      have hperform : dpuPerform e (.recvfrom n) .ok ⟨host, w.dpu⟩ =
          some (.ok [], ⟨host, { w.dpu with read := w.dpu.read + 1 }⟩) := by
        rw [dpuPerform, recvfrom_perform hmsg (Nat.zero_le n)]
        rfl
      have hsees : DpuSees w ⟨host, w.dpu⟩ := ⟨rfl, rfl⟩
      have hcareful : Connected (.recvfrom n) .ok ∧ DpuTells (.recvfrom n) .ok := by
        exact ⟨trivial, trivial⟩
      have hguar := h.guar_next hsees hcareful hperform
      have hstep : DpuStep ⟨host, w.dpu⟩ _ := hguar
      exact hstep.receives (Nat.succ_ne_self _)
    | _ => exact hreceives.elim

theorem returned_closed {A : Party Cmd Msg DocaError Outcome World}
    (h : Safe A (Post (fun _ => Closed) Closed) x w) (hreturned : x.result?.isSome) :
    Closed w := by
  obtain ⟨r, hr⟩ := Option.isSome_iff_exists.mp hreturned
  have hpost := h.ended hr
  cases r with
  | ok u => exact hpost
  | error err => exact hpost

theorem open_nil : Open [] where
  length := by decide
  good := fun _ _ h => absurd h (by simp)

theorem start_talks : Sound (hostParty e) (dpuParty e) (Post (fun _ => Closed) Closed)
    (Post (fun _ => Closed) Closed) (fun _ => True) (start e) where
  left := host_returns _ ⟨rfl, Nat.le_refl _, open_nil⟩
  right := dpu_returns _ ⟨rfl, open_nil⟩
  inv := trivial

/-- Through every run in which no call fails that goes unreported. -/
theorem run_not_left_waiting (hconnected : Along (step e) ConnectedTurn (start e) turns)
    (htelling : Along (step e) TellingTurn (start e) turns) :
    ¬ LeftWaiting (run (step e) (start e) turns) := by
  have hcareful := hconnected.and_imp htelling fun _ _ h h' => System.Careful.and h h'
  have htalks := start_talks.run (fun _ _ h => HostStep.toDpuSees h)
    (fun _ _ h => DpuStep.toHostSees h)
    (fun _ _ _ _ => trivial) (fun _ _ _ _ => trivial) hcareful
  rintro (⟨hreturned, hreceives, -⟩ | ⟨hreturned, hreceives, hread⟩)
  · exact returned_closed htalks.left hreturned (dpu_waits htalks.right hreceives)
  · exact returned_closed htalks.right hreturned (host_waits htalks.left hreceives hread)

end Run

/-- A run to the point where the DPU waits for the export descriptor. -/
def untilDescriptor : List (Turn Outcome) :=
  [dpuWorks 4, hostWorks 3, dpuWorks 4, [.right (.holds [0, 0, 0])], hostWorks 2].flatten

/-- The host cannot open its DMA device. -/
def hostGivesUp : List (Turn Outcome) := untilDescriptor ++ [.left (.fails .notFound)]

/-- The DPU gets the descriptor, and no map out of it. -/
def dpuGivesUp : List (Turn Outcome) :=
  [untilDescriptor, hostWorks 4, [.left (.holds [0, 0, 0])], hostWorks 2, dpuWorks 2, hostWorks 3,
    [.right (.fails .driver)], dpuWorks 3].flatten

theorem run_not_left_waiting_file_on_host :
    ¬ LeftWaiting (runFileOnHost (copyAndSave .ok)) := by
  have hconnected : Along (step fileOnHost) ConnectedTurn (start fileOnHost)
      (untilLength ++ copyAndSave .ok) := by
    unfold ConnectedTurn
    decide +kernel
  have htelling : Along (step fileOnHost) TellingTurn (start fileOnHost)
      (untilLength ++ copyAndSave .ok) := by
    unfold TellingTurn
    decide +kernel
  exact run_not_left_waiting hconnected htelling

/-- A host that gives up leaves the DPU waiting, and the other way round. -/
theorem left_waiting_run :
    (Along (step fileOnHost) ConnectedTurn (start fileOnHost) hostGivesUp ∧
      LeftWaiting (run (step fileOnHost) (start fileOnHost) hostGivesUp)) ∧
    Along (step fileOnHost) ConnectedTurn (start fileOnHost) dpuGivesUp ∧
      LeftWaiting (run (step fileOnHost) (start fileOnHost) dpuGivesUp) := by
  unfold ConnectedTurn
  decide +kernel

end DocaApps.Proofs.DmaCopyWaits
