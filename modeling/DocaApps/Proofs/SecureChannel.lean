import DocaApps.Lib.Runs
import DocaApps.SecureChannel.Core

namespace DocaApps.Proofs.SecureChannel
open DocaApps.SecureChannel Lib.Runs

variable {cfg : ScConfig} {s : State} {answer : Answer} {e : Event} {events : List Event}

/-- The messages whose sending was tried: all but those still to come. -/
def attempted (cfg : ScConfig) (s : State) : Nat := cfg.sendMsgNb - s.sender.msgNb

/-- Success is returned only after every message was tried with no error recorded, and the send
thread was not ended through its interrupt descriptor. -/
structure Truthful (cfg : ScConfig) (s : State) : Prop where
  success : s.start = .returned (.ok ()) →
    attempted cfg s = cfg.sendMsgNb ∧ s.sendtoResult = .ok () ∧ s.recvfromResult = .ok ()
  running : s.sender.pc ≠ .interrupted

/-- The send thread looks at its epoll set with no notification pending for it. -/
def Heard (s : State) (e : Event) : Prop :=
  e = .sendto (.ok ()) → s.sender.pc = .epollWait → s.sigusr1 = false

instance (s : State) (e : Event) : Decidable (Heard s e) :=
  inferInstanceAs (Decidable (_ → _ → _))

/-- What holds in every state of a run without `SIGINT`: the receive thread ends only with its
error recorded, and so `sc_start` does not return success. -/
structure Inv (s : State) : Prop where
  quiet : s.sigint = false
  uninterrupted : s.receiver.pc ≠ .interrupted
  recorded : s.receiver.pc = .failed → s.recvfromResult ≠ .ok ()
  unreturned : s.start ≠ .returned (.ok ())

theorem init_inv (cfg : ScConfig) : Inv (init cfg) := by
  constructor <;> simp [init]

@[simp] theorem intrReadable_recvfrom (s : State) : intrReadable s .recvfrom = s.sigint := by
  simp [intrReadable, signalMask, pendingFor]

@[simp] theorem intrReadable_sendto (s : State) :
    intrReadable s .sendto = (s.sigint || s.sigusr1) := by
  simp [intrReadable, signalMask, pendingFor]

/-- The send thread leaves what belongs to the others alone, except for the one error it
records in the receive thread's place. -/
theorem sendtoChannel_frame (cfg : ScConfig) (s : State) (answer : Answer) :
    (sendtoChannel cfg s answer).sigint = s.sigint ∧
      (sendtoChannel cfg s answer).receiver = s.receiver ∧
      (sendtoChannel cfg s answer).start = s.start ∧
      (sendtoChannel cfg s answer).peer = s.peer ∧
      ((sendtoChannel cfg s answer).recvfromResult = s.recvfromResult ∨
        (sendtoChannel cfg s answer).recvfromResult ≠ .ok ()) := by
  unfold sendtoChannel
  dsimp only
  split
  all_goals repeat' split
  all_goals simp [sendFails]

theorem sendtoChannel_cancel (cfg : ScConfig) (s : State) (answer : Answer) :
    (sendtoChannel cfg s answer).cancel = s.cancel ∨
      (sendtoChannel cfg s answer).sender.pc = .interrupted := by
  unfold sendtoChannel
  dsimp only
  split
  all_goals repeat' split
  all_goals simp [sendFails, Sender.goto]

/-- The send thread is interrupted at its epoll set only, and by a signal only. -/
theorem sendtoChannel_interrupted (h : s.sender.pc ≠ .interrupted) :
    (sendtoChannel cfg s answer).sender.pc = .interrupted ↔
      s.sender.pc = .epollWait ∧ answer = .ok () ∧ s.cancel = false ∧
        (s.sigint = true ∨ s.sigusr1 = true) := by
  unfold sendtoChannel
  dsimp only
  split
  all_goals repeat' split
  all_goals simp_all [sendFails, Sender.goto]

@[simp] theorem recvfromChannel_sender (cfg : ScConfig) (s : State) (answer : Answer) :
    (recvfromChannel cfg s answer).sender = s.sender := by
  unfold recvfromChannel
  dsimp only
  split
  all_goals repeat' split
  all_goals simp [recvFails]

/-- Without `SIGINT` the receive thread goes on or records its error. -/
theorem recvfromChannel_quiet (cfg : ScConfig) (answer : Answer) (h : s.sigint = false) :
    (recvfromChannel cfg s answer).sigint = false ∧
      (recvfromChannel cfg s answer).start = s.start ∧
      (recvfromChannel cfg s answer).cancel = s.cancel ∧
      (s.receiver.pc ≠ .interrupted →
        (recvfromChannel cfg s answer).receiver.pc ≠ .interrupted) ∧
      ((recvfromChannel cfg s answer).receiver.pc = .failed →
        s.receiver.pc = .failed ∧ (recvfromChannel cfg s answer).recvfromResult = s.recvfromResult ∨
          (recvfromChannel cfg s answer).recvfromResult ≠ .ok ()) := by
  unfold recvfromChannel
  dsimp only
  split
  all_goals repeat' split
  all_goals simp_all [recvFails, Receiver.goto]

/-- `sc_start` starts the threads at their first calls, and else leaves them alone. -/
theorem scStart_frame (cfg : ScConfig) (s : State) (answer : Answer) :
    (scStart cfg s answer).sigint = s.sigint ∧ (scStart cfg s answer).cancel = s.cancel ∧
      (scStart cfg s answer).recvfromResult = s.recvfromResult ∧
      ((scStart cfg s answer).sender = s.sender ∨
        (scStart cfg s answer).sender = s.sender.goto .sigemptyset) ∧
      ((scStart cfg s answer).receiver = s.receiver ∨
        (scStart cfg s answer).receiver = s.receiver.goto .epollCtl) := by
  unfold scStart
  dsimp only
  split
  all_goals repeat' split
  all_goals simp

/-- Success is returned by the receive thread's result only, once that thread has ended. -/
theorem scStart_returned (h : (scStart cfg s answer).start = .returned (.ok ())) :
    s.start = .returned (.ok ()) ∨ s.receiver.pc.ended ∧ s.recvfromResult = .ok () := by
  unfold scStart at h
  dsimp only at h
  split at h
  all_goals repeat' split at h
  all_goals simp_all [mergedResult]

theorem step_inv (cfg : ScConfig) (hs : Inv s) (he : e ≠ .sigint) : Inv (step cfg s e) := by
  obtain ⟨hquiet, hrecv, hrecorded, hreturned⟩ := hs
  cases e with
  | sigint => exact absurd rfl he
  | start answer =>
    obtain ⟨hint, -, hres, -, hreceiver⟩ := scStart_frame cfg s answer
    refine ⟨hint.trans hquiet, ?_, ?_, ?_⟩
    · rcases hreceiver with h | h <;> simp [step, h, hrecv, Receiver.goto]
    · rcases hreceiver with h | h
      · simpa [step, h, hres] using hrecorded
      · simp [step, h, Receiver.goto]
    · intro h
      rcases scStart_returned h with h | ⟨hended, hok⟩
      · exact hreturned h
      · cases hpc : s.receiver.pc with
        | failed => exact hrecorded hpc hok
        | interrupted => exact hrecv hpc
        | _ => simp [hpc, RecvPc.ended] at hended
  | sendto answer =>
    obtain ⟨hint, hreceiver, hstart, -, hres⟩ := sendtoChannel_frame cfg s answer
    refine ⟨hint.trans hquiet, ?_, ?_, ?_⟩
    · simpa [step, hreceiver] using hrecv
    · intro hfailed
      rcases hres with h | h
      · simpa [step, h] using hrecorded (by simpa [step, hreceiver] using hfailed)
      · exact h
    · simpa [step, hstart] using hreturned
  | recvfrom answer =>
    obtain ⟨hint, hstart, -, hpc, hfailed⟩ := recvfromChannel_quiet cfg answer hquiet
    refine ⟨hint, hpc hrecv, ?_, ?_⟩
    · intro h
      rcases hfailed h with ⟨hbefore, hres⟩ | hres
      · simpa [step, hres] using hrecorded hbefore
      · exact hres
    · simpa [step, hstart] using hreturned

/-- Without `SIGINT` only the send thread itself is cancelled, as it ends. -/
theorem step_cancel (hs : Inv s) (he : e ≠ .sigint)
    (hrunning : (step cfg s e).sender.pc ≠ .interrupted) : (step cfg s e).cancel = s.cancel := by
  cases e with
  | sigint => exact absurd rfl he
  | start answer => exact (scStart_frame cfg s answer).2.1
  | sendto answer => exact (sendtoChannel_cancel cfg s answer).resolve_right hrunning
  | recvfrom answer => exact (recvfromChannel_quiet cfg answer hs.quiet).2.2.1

/-- A step ends the send thread exactly when it looks at its epoll set with the notification
pending. -/
theorem step_running (hs : Inv s) (hcancel : s.cancel = false) (he : e ≠ .sigint)
    (h : s.sender.pc ≠ .interrupted) :
    (step cfg s e).sender.pc ≠ .interrupted ↔ Heard s e := by
  cases e with
  | sigint => exact absurd rfl he
  | start answer =>
    obtain ⟨-, -, -, hsender, -⟩ := scStart_frame cfg s answer
    rcases hsender with hsame | hfirst
    · simp [step, hsame, h, Heard]
    · simp [step, hfirst, Heard, Sender.goto]
  | sendto answer =>
    simp only [step, ne_eq, sendtoChannel_interrupted h, hcancel, hs.quiet, Heard]
    grind
  | recvfrom answer =>
    simp [step, h, Heard]

theorem truthful_iff (hs : Inv s) : Truthful cfg s ↔ s.sender.pc ≠ .interrupted :=
  ⟨Truthful.running, fun h => ⟨fun hret => absurd hret hs.unreturned, h⟩⟩

/-- Without `SIGINT` the program does not report success: the receive thread runs until a call
of it fails, and its error is the result. -/
theorem success_unreported (cfg : ScConfig) (h : .sigint ∉ events) :
    (run (step cfg) (init cfg) events).start ≠ .returned (.ok ()) := by
  have hall : Along (step cfg) (fun _ e => e ≠ .sigint) (init cfg) events :=
    Along.of_forall fun e he hint => h (hint ▸ he)
  exact (run_invariant (fun s e hs he => step_inv cfg hs he) (init_inv cfg) hall).unreturned

/-- Without `SIGINT` the states of a run are as they should be exactly when the send thread
never looks at its epoll set with the notification still pending. -/
theorem truthful_iff_heard (cfg : ScConfig) (h : .sigint ∉ events) :
    (∀ k, Truthful cfg (run (step cfg) (init cfg) (events.take k))) ↔
      Along (step cfg) Heard (init cfg) events := by
  have hall : Along (step cfg) (fun _ e => e ≠ .sigint) (init cfg) events :=
    Along.of_forall fun e he hint => h (hint ▸ he)
  have hfirst : Truthful cfg (init cfg) := (truthful_iff (init_inv cfg)).mpr (by simp [init])
  have hstep : ∀ s e, Inv s ∧ s.cancel = false → e ≠ .sigint → Truthful cfg (step cfg s e) →
      Inv (step cfg s e) ∧ (step cfg s e).cancel = false := by
    intro s e hs he hgood
    exact ⟨step_inv cfg hs.1 he, (step_cancel hs.1 he hgood.running).trans hs.2⟩
  have hgood : ∀ s e, Inv s ∧ s.cancel = false → e ≠ .sigint → Truthful cfg s →
      (Truthful cfg (step cfg s e) ↔ Heard s e) := by
    intro s e hs he hgood
    exact (truthful_iff (step_inv cfg hs.1 he)).trans (step_running hs.1 hs.2 he hgood.running)
  exact good_iff_along hstep hgood ⟨init_inv cfg, rfl⟩ hfirst hall

/-- The calls before the threads, the start of both, and the send thread's first calls. -/
def started : List Event :=
  List.replicate 11 (.start (.ok ())) ++ List.replicate 3 (.sendto (.ok ()))

/-- A connection is accepted: the peer is published and the notification sent. -/
def accepted : List Event := List.replicate 6 (.recvfrom (.ok ()))

/-- A message is tried while the queue is full, and the send thread looks at its epoll set. -/
def queueFull : List Event :=
  [.sendto (.ok ()), .sendto (.error .again), .sendto (.ok ()), .sendto (.ok ()), .sendto (.ok ())]

/-- The send thread looks at the peer after the connection was accepted. -/
def lateLook : List Event := started ++ accepted ++ .sendto (.ok ()) :: queueFull

/-- The send thread looks at the peer before, and waits for the notification. -/
def earlyLook : List Event :=
  started ++ .sendto (.ok ()) :: accepted ++ .sendto (.ok ()) :: queueFull

/-- The send thread that finds the peer already published never waits: the notification stays
pending, and the first full queue ends the thread with its message unsent. -/
theorem notification_ends_thread :
    .sigint ∉ lateLook ∧ ¬ Truthful ⟨.dpu, 1⟩ (run (step ⟨.dpu, 1⟩) (init ⟨.dpu, 1⟩) lateLook) :=
  ⟨by decide, fun h => h.running (by decide)⟩

theorem truthful_when_waiting :
    .sigint ∉ earlyLook ∧
      ∀ k, Truthful ⟨.dpu, 1⟩ (run (step ⟨.dpu, 1⟩) (init ⟨.dpu, 1⟩) (earlyLook.take k)) :=
  ⟨by decide, (truthful_iff_heard ⟨.dpu, 1⟩ (by decide)).mpr (by decide)⟩

/-- The notification was sent, or failed to be. -/
def Notified (s : State) : Prop :=
  s.receiver.channelCreated = true ∧ s.receiver.pc ≠ .publish ∧ s.receiver.pc ≠ .kill

/-- No notification is pending, and none will come. -/
def Settled (s : State) : Prop := Notified s ∧ s.sigusr1 = false

/-- The send thread has looked at the peer and goes on to send. -/
def sending : SendPc → Bool
  | .lock | .sendto | .unlock _ | .armSend | .epollWait => true
  | _ => false

/-- On the DPU the send thread looks at the peer before it is published, or has its notification
behind it. -/
def Early (cfg : ScConfig) (s : State) (e : Event) : Prop :=
  cfg.mode = .dpu → s.sender.pc = .loop → (∃ answer, e = .sendto answer) →
    s.peer = false ∨ Settled s

theorem scStart_sigusr1 (cfg : ScConfig) (s : State) (answer : Answer) :
    (scStart cfg s answer).sigusr1 = s.sigusr1 := by
  unfold scStart
  dsimp only
  split
  all_goals repeat' split
  all_goals rfl

/-- How far the notification has come, for a send thread that is early. -/
structure Notice (cfg : ScConfig) (s : State) : Prop where
  sent : s.sigusr1 = true → cfg.mode = .dpu ∧ Notified s
  accepting : s.receiver.pc = .publish ∨ s.receiver.pc = .kill →
    cfg.mode = .dpu ∧ s.receiver.channelCreated = true
  heard : sending s.sender.pc → cfg.mode = .dpu → Settled s

theorem init_notice (cfg : ScConfig) : Notice cfg (init cfg) := by
  constructor <;> simp [init, sending]

/-- The send thread goes on to send from a look at the peer, or with the notification
consumed. -/
theorem sendtoChannel_sending (cfg : ScConfig) (s : State) (answer : Answer) :
    ((sendtoChannel cfg s answer).sigusr1 = true → s.sigusr1 = true) ∧
      (sending (sendtoChannel cfg s answer).sender.pc →
        sending s.sender.pc ∨
        (s.sender.pc = .loop ∧ (s.peer = false → cfg.mode ≠ .dpu)) ∨
        (s.sigusr1 = true ∧ (sendtoChannel cfg s answer).sigusr1 = false)) := by
  unfold sendtoChannel
  dsimp only
  split
  all_goals repeat' split
  all_goals simp_all [sendFails, Sender.goto, sending]

/-- The receive thread accepts one connection, on the DPU, and sends one notification. -/
theorem recvfromChannel_accepting (cfg : ScConfig) (s : State) (answer : Answer) :
    (Notified s → Notified (recvfromChannel cfg s answer) ∧
      (recvfromChannel cfg s answer).sigusr1 = s.sigusr1) ∧
    ((recvfromChannel cfg s answer).sigusr1 = true → s.sigusr1 = true ∨
      s.receiver.pc = .kill ∧
        (s.receiver.channelCreated → Notified (recvfromChannel cfg s answer))) ∧
    ((recvfromChannel cfg s answer).receiver.pc = .publish ∨
        (recvfromChannel cfg s answer).receiver.pc = .kill →
      (s.receiver.pc = .publish ∨ cfg.mode = .dpu ∧
        (recvfromChannel cfg s answer).receiver.channelCreated = true)) ∧
    (s.receiver.channelCreated = true →
      (recvfromChannel cfg s answer).receiver.channelCreated = true) := by
  unfold recvfromChannel Notified
  dsimp only
  split
  all_goals repeat' split
  all_goals simp_all [recvFails, Receiver.goto]

theorem step_notice (hs : Notice cfg s) (he : Early cfg s e) : Notice cfg (step cfg s e) := by
  obtain ⟨hsent, haccepting, hheard⟩ := hs
  cases e with
  | sigint => exact ⟨hsent, haccepting, hheard⟩
  | start answer =>
    have hkept : (scStart cfg s answer).sigusr1 = s.sigusr1 := scStart_sigusr1 cfg s answer
    obtain ⟨-, -, -, hsender, hreceiver⟩ := scStart_frame cfg s answer
    have hnotified : Notified s → Notified (scStart cfg s answer) := by
      intro h
      rcases hreceiver with hr | hr
      · simpa [Notified, hr] using h
      · simp [Notified, hr, Receiver.goto, h.1]
    refine ⟨fun h => ?_, fun h => ?_, fun h hdpu => ?_⟩
    · obtain ⟨hdpu, hn⟩ := hsent (hkept ▸ h)
      exact ⟨hdpu, hnotified hn⟩
    · rcases hreceiver with hr | hr
      · simpa [step, hr] using haccepting (by simpa [step, hr] using h)
      · simp [step, hr, Receiver.goto] at h
    · rcases hsender with hsame | hfirst
      · obtain ⟨hn, hnone⟩ := hheard (by simpa [step, hsame] using h) hdpu
        exact ⟨hnotified hn, hkept.trans hnone⟩
      · simp [step, hfirst, Sender.goto, sending] at h
  | sendto answer =>
    obtain ⟨-, hreceiver, -, -, -⟩ := sendtoChannel_frame cfg s answer
    obtain ⟨hkept, hsending⟩ := sendtoChannel_sending cfg s answer
    have hnotified : Notified s → Notified (sendtoChannel cfg s answer) := by
      intro h
      simpa [Notified, hreceiver] using h
    refine ⟨fun h => ?_, fun h => ?_, fun h hdpu => ?_⟩
    · obtain ⟨hdpu, hn⟩ := hsent (hkept h)
      exact ⟨hdpu, hnotified hn⟩
    · simpa [step, hreceiver] using haccepting (by simpa [step, hreceiver] using h)
    · -- the thread was sending already, has looked at the peer, or has consumed the notification
      rcases hsending h with hbefore | ⟨hloop, hpeer⟩ | ⟨hone, hnone⟩
      · obtain ⟨hn, hnone⟩ := hheard hbefore hdpu
        exact ⟨hnotified hn, Bool.eq_false_iff.mpr fun hone => by simp [hkept hone] at hnone⟩
      · rcases he hdpu hloop ⟨answer, rfl⟩ with hnull | ⟨hn, hnone⟩
        · exact absurd hdpu (hpeer hnull)
        · exact ⟨hnotified hn, Bool.eq_false_iff.mpr fun hone => by simp [hkept hone] at hnone⟩
      · exact ⟨hnotified (hsent hone).2, hnone⟩
  | recvfrom answer =>
    obtain ⟨hnotified, hone, hpublish, hcreated⟩ := recvfromChannel_accepting cfg s answer
    refine ⟨fun h => ?_, fun h => ?_, fun h hdpu => ?_⟩
    · rcases hone h with hbefore | ⟨hkill, hn⟩
      · obtain ⟨hdpu, hn⟩ := hsent hbefore
        exact ⟨hdpu, (hnotified hn).1⟩
      · obtain ⟨hdpu, hc⟩ := haccepting (Or.inr hkill)
        exact ⟨hdpu, hn hc⟩
    · rcases hpublish h with hp | hnow
      · obtain ⟨hdpu, hc⟩ := haccepting (Or.inl hp)
        exact ⟨hdpu, hcreated hc⟩
      · exact hnow
    · obtain ⟨hn, hnone⟩ := hheard (by simpa [step] using h) hdpu
      exact ⟨(hnotified hn).1, (hnotified hn).2.trans hnone⟩

/-- A send thread that looks at the peer before it is published hears its notification; on the
host there is none to hear. -/
theorem early_heard (cfg : ScConfig)
    (h : Along (step cfg) (Early cfg) (init cfg) events) :
    Along (step cfg) Heard (init cfg) events := by
  refine h.under (fun s e hs he => step_notice hs he) (fun s e hs he => ?_) (init_notice cfg)
  intro hnow hpc
  cases hone : s.sigusr1 with
  | false => rfl
  | true =>
    have hdpu := (hs.sent hone).1
    exact absurd (hs.heard (by simp [hpc, sending]) hdpu).2 (by simp [hone])

end DocaApps.Proofs.SecureChannel
