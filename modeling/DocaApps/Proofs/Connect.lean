import DocaApps.Proofs.UcxEvents

namespace DocaApps.Proofs.Connect
open Allreduce.Ucx Allreduce.Connect Proofs.UcxEvents

variable {w w' u : World} {k n connection amId maxAmId : Nat} {logErr : Bool} {p new : Posted}
  {post : Post} {result : Option DocaError} {request : Option Nat} {v : Int} {m : Memory}

/-- The operation that was posted last has nothing else to do with the memory. -/
theorem posts_done (hcalm : Calm w u) (hop : new.op = .amSend)
    (huserData : new.userData = connection) (hamId : new.amId = amId)
    (hnew : ∀ k, ¬ new.flying k) :
    Posts w { u with posted := u.posted ++ [new] } connection amId new where
  sound := by
    refine ⟨hcalm.sound.free, ?_⟩
    intro p hp k hk
    rcases List.mem_append.mp hp with hp | hp
    · exact hcalm.sound.flying p hp k hk
    · rw [List.mem_singleton.mp hp] at hk
      exact absurd hk (hnew k)
  grown := hcalm.grown.trans (.append _ _)
  length := by simp [hcalm.length]
  held := hcalm.held
  posted := by simp [← hcalm.length]
  op := hop
  userData := huserData
  amId := hamId

/-- A request is taken out of the pool for the operation. -/
theorem take_sound (hs : Sound u) (hrequest : new.request = some k) :
    Sound { u with memory := u.memory.take k, posted := u.posted ++ [new] } where
  free := by
    intro j hj
    exact hs.free j fun hin => hj (Finset.mem_insert_of_mem hin)
  flying := by
    intro p hp j hj
    rcases List.mem_append.mp hp with hp | hp
    · exact Finset.mem_insert_of_mem (hs.flying p hp j hj)
    · rw [List.mem_singleton.mp hp, Posted.flying, hrequest] at hj
      rw [← Option.some.inj hj.1]
      exact Finset.mem_insert_self ..

theorem take_held (hs : Held u.memory n) : Held (u.memory.take k) n :=
  ⟨Finset.mem_insert_of_mem hs.taken, hs.callback, hs.connection⟩

/-- The request of an operation that has not completed is processed and kept. -/
theorem posts_pending (hcalm : Calm w u) (hk : k ∉ u.memory.taken) (connection ep amId : Nat)
    (logErr : Bool) :
    let new : Posted := ⟨.amSend, connection, ep, amId, some k, none⟩
    let r : Request := ⟨none, none, some connection, logErr, .inProgress, .amSend⟩
    let w' : World := ⟨(u.memory.take k).write k r, u.connections, u.posted ++ [new]⟩
    Posts w w' connection amId new ∧ Waiting w' w.posted.length k new := by
  intro new r w'
  have hsound : Sound { u with memory := u.memory.take k, posted := u.posted ++ [new] } :=
    take_sound hcalm.sound rfl
  have hposted : (u.posted ++ [new])[w.posted.length]? = some new := by
    simp [← hcalm.length]
  have hheld : ∀ j, Held u.memory j → Held w'.memory j := by
    intro j hj
    have hjk : j ≠ k := by
      rintro rfl
      exact hk hj.taken
    refine ⟨Finset.mem_insert_of_mem hj.taken, ?_, ?_⟩
    · rw [write_request_of_ne hjk]
      exact hj.callback
    · rw [write_request_of_ne hjk]
      exact hj.connection
  have hr : w'.memory.request k = r := write_request ..
  constructor
  · refine ⟨⟨?_, hsound.flying⟩, hcalm.grown.trans (.append _ _), ?_, ?_, hposted, rfl, rfl, rfl⟩
    · intro j hj
      have hjk : j ≠ k := by
        rintro rfl
        exact hj (Finset.mem_insert_self ..)
      exact (write_request_of_ne hjk).trans (hsound.free j hj)
    · simp [w', hcalm.length]
    · exact fun j hj => hheld j (hcalm.held j hj)
  · refine ⟨hposted, rfl, ⟨Finset.mem_insert_self .., ?_, ?_⟩, ?_, by simp [new], ?_⟩
    · rw [hr]
    · rw [hr]
      simp [r]
    · rw [hr]
      rfl
    · intro n' q hq hflying
      rcases Nat.lt_or_ge n' u.posted.length with hlt | hge
      · rw [List.getElem?_append_left hlt] at hq
        exact absurd (hcalm.sound.flying q (List.mem_of_getElem? hq) k hflying) hk
      · have hn' := (List.getElem?_eq_some_iff.mp hq).1
        rw [List.length_append, List.length_singleton] at hn'
        have hlen := hcalm.length
        omega

/-- The world in which UCX has taken a request for a message. -/
def takes (u : World) (k connection ep amId : Nat) : World :=
  ⟨u.memory.take k, u.connections, u.posted ++ [⟨.amSend, connection, ep, amId, some k, none⟩]⟩

theorem takes_sound (hs : Sound u) (k connection ep amId : Nat) :
    Sound (takes u k connection ep amId) :=
  take_sound hs rfl

theorem early_status {u₂ : World} {status : UcsStatus} {ep : Nat} (hs : Sound u)
    (hk : k ∉ u.memory.taken)
    (h : (takes u k connection ep amId).completes k status = some u₂) :
    (u₂.memory.request k).status = status ∧ status ≠ .inProgress ∧
      u₂.memory.taken = insert k u.memory.taken := by
  have hinit : (takes u k connection ep amId).memory.request k = requestInit := hs.free k hk
  obtain ⟨hstatus, -, -, -, -, -, ⟨hcallback, -⟩ | ⟨hsame, hstatus', -⟩⟩ := completes_spec h
  · exact absurd (by rw [hinit]; rfl) hcallback
  · exact ⟨hstatus', hstatus, hsame⟩

/-- An operation that completes before its request is processed gives the request back. -/
theorem posts_early {u₂ : World} {status : UcsStatus} {ep : Nat} (hcalm : Calm w u)
    (hk : k ∉ u.memory.taken)
    (h : (takes u k connection ep amId).completes k status = some u₂)
    (hrelease : requestRelease u₂.memory k = some m) :
    let new : Posted := ⟨.amSend, connection, ep, amId, some k, some status⟩
    Posts w { u₂ with memory := m } connection amId new ∧ m.taken = u.memory.taken := by
  intro new
  have hsound := takes_sound hcalm.sound k connection ep amId
  obtain ⟨-, -, -, -, hposted, -, -⟩ := completes_spec h
  have hcalm₂ := completes_calm h hsound
  have hflying : ∀ p ∈ u₂.posted, ¬ p.flying k := by
    intro p hp
    rw [hposted] at hp
    obtain ⟨q, -, rfl⟩ := List.mem_map.mp hp
    exact not_flying_complete q k status
  obtain ⟨hsound', htaken, hheld⟩ := release_sound hrelease hcalm₂.sound hflying
  refine ⟨⟨hsound', ?_, ?_, ?_, ?_, rfl, rfl, rfl⟩, ?_⟩
  · exact (hcalm.grown.trans (.append _ _)).trans hcalm₂.grown
  · rw [hcalm₂.length, takes, List.length_append, hcalm.length]
    rfl
  · intro j hj
    have hju := hcalm.held j hj
    have hjk : j ≠ k := by
      rintro rfl
      exact hk hju.taken
    exact hheld j hjk (hcalm₂.held j (take_held hju))
  · rw [hposted, ← hcalm.length, List.getElem?_map]
    simp [takes, Posted.complete, Posted.flying, new]
  · rw [htaken, (early_status hcalm.sound hk h).2.2, Finset.erase_insert hk]

theorem amSend_spec (h : amSend w connection amId logErr post = some (result, request, w'))
    (hs : Sound w) :
    ∃ p, Posts w w' connection amId p ∧ Sent w w' p post.reply result request := by
  unfold amSend at h
  obtain ⟨⟨ptr, u'⟩, hsend, h⟩ := Option.bind_eq_some_iff.mp h
  obtain ⟨processed, hprocessed, h⟩ := Option.bind_eq_some_iff.mp h
  obtain ⟨memory, hmemory, h⟩ := Option.bind_eq_some_iff.mp h
  cases h
  unfold ucpAmSendNbx at hsend
  split at hsend
  · cases hsend
  · rename_i c hc
    obtain ⟨u, hu, hsend⟩ := Option.bind_eq_some_iff.mp hsend
    have hcalm := events_calm hu hs
    cases hreply : post.reply with
    | null =>
      simp only [hreply] at hsend
      cases hsend
      cases hprocessed
      cases hmemory
      exact ⟨_, posts_done hcalm rfl rfl rfl (by simp [Posted.flying]), rfl, rfl, rfl, rfl,
        hcalm.taken⟩
    | err code =>
      simp only [hreply] at hsend
      cases hsend
      cases hprocessed
      cases hmemory
      exact ⟨_, posts_done hcalm rfl rfl rfl (by simp [Posted.flying]), rfl, rfl, rfl, rfl,
        hcalm.taken⟩
    | request k early =>
      simp only [hreply] at hsend
      split at hsend
      · cases hsend
      · rename_i hk
        have hinit : (u.memory.take k).request k = requestInit := hcalm.sound.free k hk
        cases early with
        | none =>
          cases hsend
          obtain ⟨-, ⟨hstatus, -⟩ | ⟨-, -, rfl⟩⟩ := requestProcess_cases hprocessed
          · rw [hinit] at hstatus
            exact absurd rfl hstatus
          · cases hmemory
            obtain ⟨hposts, hwaiting⟩ := posts_pending hcalm hk connection c.ep amId logErr
            exact ⟨_, hposts, rfl, rfl, hwaiting⟩
        | some status =>
          obtain ⟨u₂, hu₂, hsend⟩ := Option.bind_eq_some_iff.mp hsend
          cases hsend
          have htakes : (takes u k connection c.ep amId).completes k status = some u' := hu₂
          obtain ⟨hsame, hne, -⟩ := early_status hcalm.sound hk htakes
          obtain ⟨-, ⟨-, -, rfl⟩ | ⟨hstatus, -, -⟩⟩ := requestProcess_cases hprocessed
          · obtain ⟨hposts, htaken⟩ := posts_early hcalm hk htakes hmemory
            refine ⟨_, hposts, by rw [hsame], rfl, rfl, rfl, hne, ?_, ?_⟩
            · rw [htaken]
              exact hcalm.taken
            · rw [htaken]
              exact hk
          · exact absurd (hsame.symm.trans hstatus) hne

theorem waitLoop_spec {rounds : List (List Event)} (h : waitLoop k w rounds = some w')
    (hs : Sound w) (hw : Waiting w n k p) :
    Calm w w' ∧ ∃ p', Waiting w' n k p' ∧ Later p p' ∧
      (w'.memory.request k).status ≠ .inProgress := by
  induction rounds generalizing w p with
  | nil =>
    unfold waitLoop at h
    split at h
    · rename_i hstatus
      cases h
      exact ⟨.refl hs, p, hw, .refl p, hstatus⟩
    · cases h
  | cons round rounds ih =>
    unfold waitLoop at h
    split at h
    · rename_i hstatus
      cases h
      exact ⟨.refl hs, p, hw, .refl p, hstatus⟩
    · simp only at h
      split at h
      · cases h
      · obtain ⟨u, hu, hrest⟩ := Option.bind_eq_some_iff.mp h
        have hcalm := events_calm hu hs
        obtain ⟨q, hq, hlater⟩ := events_waiting hu hs hw
        obtain ⟨hcalm', p', hp', hlater', hdone⟩ := ih hrest hcalm.sound hq
        exact ⟨hcalm.trans hcalm', p', hp', hlater.trans hlater', hdone⟩

/-- A request that was waited for is released, and its operation has completed. -/
theorem requestWait_spec {rounds : List (List Event)}
    (h : allreduceUcxRequestWait 0 (some k) w rounds = some (v, w')) (hs : Sound w)
    (hw : Waiting w n k p) :
    Sound w' ∧ Grown w.posted w'.posted ∧ w'.posted.length = w.posted.length ∧
      ∃ p' status, w'.posted[n]? = some p' ∧ Later p p' ∧ p'.status = some status ∧
        v = if status = .ok then 0 else -1 := by
  simp only [allreduceUcxRequestWait, lt_self_iff_false, ↓reduceIte] at h
  obtain ⟨u, hu, h⟩ := Option.bind_eq_some_iff.mp h
  obtain ⟨m, hm, h⟩ := Option.bind_eq_some_iff.mp h
  cases h
  obtain ⟨hcalm, p', hp', hlater, hdone⟩ := waitLoop_spec hu hs hw
  have hstatus : p'.status = some (u.memory.request k).status := by
    cases hp : p'.status with
    | none =>
      rw [hp'.status, hp] at hdone
      exact absurd rfl hdone
    | some status => rw [hp'.status, hp, Option.getD_some]
  have hflying : ∀ q ∈ u.posted, ¬ q.flying k := by
    intro q hq hqk
    obtain ⟨n', hn'⟩ := List.mem_iff_getElem?.mp hq
    have hn := hp'.only n' q hn' hqk
    rw [hn, hp'.posted] at hn'
    cases hn'
    rw [hqk.2] at hstatus
    cases hstatus
  refine ⟨(release_sound hm hcalm.sound hflying).1, hcalm.grown, hcalm.length, p', _, hp'.posted,
    hlater, hstatus, ?_⟩
  by_cases hok : (u.memory.request k).status = .ok
  · simp [hok]
  · simp [hok]

/-- The send comes back with an error, or its request has failed when it comes back. -/
def FailsAtOnce : Reply → Prop
  | .null => False
  | .err _ => True
  | .request _ (some status) => status ≠ .ok
  | .request _ none => False

/-- A turn of the loop ends with the result of its message. -/
theorem connectionCheck_spec {a : Attempt}
    (h : connectionCheck w connection maxAmId a = some (v, w')) (hs : Sound w) :
    Sound w' ∧ Grown w.posted w'.posted ∧ w'.posted.length = w.posted.length + 1 ∧
      ∃ p status, w'.posted[w.posted.length]? = some p ∧ p.op = .amSend ∧
        p.userData = connection ∧ p.amId = maxAmId + 1 ∧ p.status = some status ∧
        ((FailsAtOnce a.post.reply ∧ status ≠ .ok ∧ v = 22) ∨
          (¬ FailsAtOnce a.post.reply ∧ v = if status = .ok then 0 else -1)) := by
  unfold connectionCheck at h
  obtain ⟨⟨result, request, u⟩, hsend, h⟩ := Option.bind_eq_some_iff.mp h
  obtain ⟨p, hposts, hsent⟩ := amSend_spec hsend hs
  cases hreply : a.post.reply with
  | null =>
    rw [hreply] at hsent
    obtain ⟨rfl, rfl, -, hstatus, -⟩ := hsent
    cases h
    exact ⟨hposts.sound, hposts.grown, hposts.length, p, _, hposts.posted, hposts.op,
      hposts.userData, hposts.amId, hstatus, Or.inr ⟨id, rfl⟩⟩
  | err code =>
    rw [hreply] at hsent
    obtain ⟨rfl, rfl, -, hstatus, -⟩ := hsent
    cases h
    exact ⟨hposts.sound, hposts.grown, hposts.length, p, _, hposts.posted, hposts.op,
      hposts.userData, hposts.amId, hstatus, Or.inl ⟨trivial, by simp, rfl⟩⟩
  | request k early =>
    rw [hreply] at hsent
    cases early with
    | some status =>
      obtain ⟨rfl, rfl, -, hstatus, -⟩ := hsent
      by_cases hok : status = .ok
      · subst hok
        cases h
        exact ⟨hposts.sound, hposts.grown, hposts.length, p, _, hposts.posted, hposts.op,
          hposts.userData, hposts.amId, hstatus, Or.inr ⟨fun hne => hne rfl, rfl⟩⟩
      · rw [if_neg hok] at h
        cases h
        exact ⟨hposts.sound, hposts.grown, hposts.length, p, _, hposts.posted, hposts.op,
          hposts.userData, hposts.amId, hstatus, Or.inl ⟨hok, hok, rfl⟩⟩
    | none =>
      obtain ⟨rfl, rfl, hwaiting⟩ := hsent
      obtain ⟨hsound, hgrown, hlength, p', status, hp', hlater, hstatus, hv⟩ :=
        requestWait_spec h hposts.sound hwaiting
      exact ⟨hsound, hposts.grown.trans hgrown, hlength.trans hposts.length, p', status, hp',
        hlater.op.trans hposts.op, hlater.userData.trans hposts.userData,
        hlater.amId.trans hposts.amId, hstatus, Or.inr ⟨id, hv⟩⟩

/-- A connection check message on the connection has completed, and it has arrived. -/
def Checked (w w' : World) (connection maxAmId : Nat) : Prop :=
  ∃ p ∈ w'.posted.drop w.posted.length, p.op = .amSend ∧ p.userData = connection ∧
    p.amId = maxAmId + 1 ∧ p.status = some .ok

theorem mem_drop_of_getElem? {ps : List Posted} {l : Nat} (hl : l ≤ n) (h : ps[n]? = some p) :
    p ∈ ps.drop l := by
  apply List.mem_of_getElem?
  rw [List.getElem?_drop, Nat.add_sub_cancel' hl, h]

theorem getElem?_of_mem_drop {ps : List Posted} {l : Nat} (h : p ∈ ps.drop l) :
    ∃ n, l ≤ n ∧ ps[n]? = some p := by
  obtain ⟨n, hn⟩ := List.mem_iff_getElem?.mp h
  rw [List.getElem?_drop] at hn
  exact ⟨l + n, Nat.le_add_right .., hn⟩

theorem connectLoop_spec {attempts : List Attempt}
    (h : connectLoop connection maxAmId w attempts = some (v, w')) (hs : Sound w) :
    Sound w' ∧ Grown w.posted w'.posted ∧ 0 ≤ v ∧
      w'.posted.length = w.posted.length + attempts.length ∧
      (Checked w w' connection maxAmId ↔ ∀ a ∈ attempts, ¬ FailsAtOnce a.post.reply) := by
  induction attempts generalizing w with
  | nil => cases h
  | cons a attempts ih =>
    obtain ⟨⟨result, u⟩, hcheck, h⟩ := Option.bind_eq_some_iff.mp h
    obtain ⟨hsound, hgrown, hlength, p, status, hp, hop, huserData, hamId, hstatus, hcases⟩ :=
      connectionCheck_spec hcheck hs
    simp only at h
    split at h
    · rename_i hneg
      obtain ⟨hsound', hgrown', hv, hlength', hiff⟩ := ih h hsound
      obtain ⟨-, -, rfl⟩ | ⟨hlater, rfl⟩ := hcases
      · omega
      · have hfailed : status ≠ .ok := by
          rintro rfl
          simp at hneg
        refine ⟨hsound', hgrown.trans hgrown', hv, by rw [hlength', hlength, List.length_cons]; omega,
          ?_⟩
        rw [List.forall_mem_cons, and_iff_right hlater, ← hiff]
        constructor
        · rintro ⟨q, hq, hprops, hdata, hid, hok⟩
          obtain ⟨n, hn, hget⟩ := getElem?_of_mem_drop hq
          rcases Nat.eq_or_lt_of_le hn with rfl | hlt
          · obtain ⟨p', hp', hl⟩ := hgrown' _ p hp
            rw [hp'] at hget
            cases hget
            rw [hl.status status hstatus] at hok
            exact absurd (Option.some.inj hok) hfailed
          · exact ⟨q, mem_drop_of_getElem? (by omega) hget, hprops, hdata, hid, hok⟩
        · rintro ⟨q, hq, hprops⟩
          obtain ⟨n, hn, hget⟩ := getElem?_of_mem_drop hq
          exact ⟨q, mem_drop_of_getElem? (by omega) hget, hprops⟩
    · rename_i hnonneg
      split at h
      · rename_i hlast
        cases h
        subst hlast
        refine ⟨hsound, hgrown, by omega, hlength, ?_⟩
        rw [List.forall_mem_singleton]
        constructor
        · rintro ⟨q, hq, -, -, -, hok⟩ hfails
          obtain ⟨n, hn, hget⟩ := getElem?_of_mem_drop hq
          have hlt := (List.getElem?_eq_some_iff.mp hget).1
          have heq : n = w.posted.length := by omega
          rw [heq, hp] at hget
          cases hget
          rw [hstatus] at hok
          obtain ⟨-, hfailed, -⟩ | ⟨hlater, -⟩ := hcases
          · exact hfailed (Option.some.inj hok)
          · exact hlater hfails
        · intro hlater
          refine ⟨p, mem_drop_of_getElem? le_rfl hp, hop, huserData, hamId, ?_⟩
          obtain ⟨hfails, -⟩ | ⟨-, rfl⟩ := hcases
          · exact absurd hfails hlater
          · by_cases hok : status = .ok
            · rw [hstatus, hok]
            · rw [if_neg hok] at hnonneg
              exact absurd (by decide) hnonneg
      · cases h

/-- The message is sent before the call comes back. -/
def DoneAtOnce : Reply → Prop
  | .null => True
  | .err _ => False
  | .request _ (some status) => status = .ok
  | .request _ none => False

/-- Every message has arrived, so that none is read from the local buffer any more, and no request
is kept. -/
def Delivered (w w' : World) : Prop :=
  ∀ p ∈ w'.posted.drop w.posted.length,
    p.status = some .ok ∧ ∀ k, p.request = some k → k ∉ w'.memory.taken

theorem sent_result {reply : Reply} (h : Sent w u p reply result request) :
    result = none ∨ (result = some .unexpected ∧ request = none) := by
  match reply, h with
  | .null, ⟨hresult, _⟩ => exact Or.inl hresult
  | .err _, ⟨hresult, hrequest, _⟩ => exact Or.inr ⟨hresult, hrequest⟩
  | .request _ none, ⟨hresult, _⟩ => exact Or.inl hresult
  | .request _ (some status), ⟨hresult, hrequest, _⟩ =>
    by_cases hok : status = .ok
    · exact Or.inl (by rw [hresult, if_pos hok])
    · exact Or.inr ⟨by rw [hresult, if_neg hok], hrequest⟩

theorem sent_done {reply : Reply} (h : Sent w u p reply result request) (hd : DoneAtOnce reply) :
    p.status = some .ok ∧ (∀ k, p.request = some k → k ∉ u.memory.taken) ∧
      u.memory.taken ⊆ w.memory.taken := by
  match reply, h, hd with
  | .null, ⟨_, _, hrequest, hstatus, htaken⟩, _ =>
    exact ⟨hstatus, by simp [hrequest], htaken⟩
  | .request k (some status), ⟨_, _, hrequest, hstatus, _, htaken, hfree⟩, hd =>
    refine ⟨hstatus.trans (congrArg some hd), ?_, htaken⟩
    intro j hj
    rw [hrequest] at hj
    cases hj
    exact hfree

theorem sent_not_done {reply : Reply} (h : Sent w u p reply result request)
    (hd : ¬ DoneAtOnce reply) :
    (∃ status, status ≠ .ok ∧ p.status = some status) ∨
      ∃ k, p.request = some k ∧ Held u.memory k := by
  match reply, h, hd with
  | .null, _, hd => exact absurd trivial hd
  | .err code, ⟨_, _, _, hstatus, _⟩, _ => exact Or.inl ⟨_, by simp, hstatus⟩
  | .request k (some status), ⟨_, _, _, hstatus, _⟩, hd => exact Or.inl ⟨status, hd, hstatus⟩
  | .request k none, ⟨_, _, hwaiting⟩, _ => exact Or.inr ⟨k, hwaiting.request, hwaiting.held⟩

/-- The loop goes over all connections, whatever becomes of their messages. -/
theorem handshakeLoop_spec {sends : List (Nat × Attempt)}
    (h : handshakeLoop w sends = some (v, w')) (hs : Sound w) :
    v = 0 ∧ Sound w' ∧ Grown w.posted w'.posted ∧
      w'.posted.length = w.posted.length + sends.length ∧
      (∀ k, Held w.memory k → Held w'.memory k) ∧
      ((∀ s ∈ sends, DoneAtOnce s.2.post.reply) → w'.memory.taken ⊆ w.memory.taken) ∧
      (Delivered w w' ↔ ∀ s ∈ sends, DoneAtOnce s.2.post.reply) := by
  induction sends generalizing w with
  | nil =>
    cases h
    refine ⟨rfl, hs, .refl _, rfl, fun _ hk => hk, fun _ => Finset.Subset.refl _, ?_⟩
    simp [Delivered]
  | cons s sends ih =>
    obtain ⟨connection, a⟩ := s
    obtain ⟨⟨result, request, u⟩, hsend, h⟩ := Option.bind_eq_some_iff.mp h
    unfold allreduceUcxAmSend at hsend
    split at hsend
    · cases hsend
    · obtain ⟨p, hposts, hsent⟩ := amSend_spec hsend hs
      have hrest : handshakeLoop u sends = some (v, w') := by
        rcases sent_result hsent with rfl | ⟨rfl, rfl⟩
        · exact h
        · exact h
      obtain ⟨hv, hsound, hgrown, hlength, hheld, htaken, hiff⟩ := ih hrest hposts.sound
      have hulen := hposts.length
      obtain ⟨p', hp', hlater⟩ := hgrown _ p hposts.posted
      refine ⟨hv, hsound, hposts.grown.trans hgrown, ?_, fun k hk => hheld k (hposts.held k hk), ?_,
        ?_⟩
      · rw [hlength, hulen, List.length_cons]
        omega
      · intro hall
        rw [List.forall_mem_cons] at hall
        exact (htaken hall.2).trans (sent_done hsent hall.1).2.2
      · rw [List.forall_mem_cons, ← hiff]
        constructor
        · intro hdelivered
          constructor
          · by_contra hd
            obtain ⟨hok, hreleased⟩ := hdelivered p' (mem_drop_of_getElem? le_rfl hp')
            rcases sent_not_done hsent hd with ⟨status, hne, hstatus⟩ | ⟨k, hrequest, hk⟩
            · rw [hlater.status status hstatus] at hok
              exact hne (Option.some.inj hok)
            · exact hreleased k (hlater.request.trans hrequest) (hheld k hk).taken
          · intro q hq
            obtain ⟨n, hn, hget⟩ := getElem?_of_mem_drop hq
            exact hdelivered q (mem_drop_of_getElem? (by omega) hget)
        · rintro ⟨hd, hdelivered⟩ q hq
          obtain ⟨hok, hfree, -⟩ := sent_done hsent hd
          obtain ⟨n, hn, hget⟩ := getElem?_of_mem_drop hq
          rcases Nat.eq_or_lt_of_le hn with rfl | hlt
          · rw [hp'] at hget
            cases hget
            refine ⟨hlater.status _ hok, ?_⟩
            intro k hk hin
            rw [hlater.request] at hk
            exact hfree k hk (htaken (hiff.mp hdelivered) hin)
          · exact hdelivered q (mem_drop_of_getElem? (by omega) hget)

/-- `allreduce_ucx_connect` takes a connection check that fails at once for a success, and
`allreduce_outgoing_handshake` waits for no message and overlooks the ones that fail. -/
theorem connection_setup_iff (w : World) (hs : Sound w) :
    (∀ maxAmId inetPton4 inetPton6 connection ep attempts v w',
      allreduceUcxConnect w maxAmId inetPton4 inetPton6 (some (connection, ep)) attempts =
          some (v, w') →
        ((0 ≤ v → Checked w w' connection maxAmId) ↔
          setSockaddr inetPton4 inetPton6 < 0 ∨ ∀ a ∈ attempts, ¬ FailsAtOnce a.post.reply)) ∧
      (∀ maxAmId inetPton4 inetPton6 attempts v w',
        allreduceUcxConnect w maxAmId inetPton4 inetPton6 none attempts = some (v, w') → v < 0) ∧
      ∀ handshakeMsgLen sends ret w',
        allreduceOutgoingHandshake w handshakeMsgLen sends = some (ret, w') →
          ((ret = 0 → Delivered w w') ↔
            (handshakeMsgLen < 0 ∨ handshakeMaxMsgLen ≤ handshakeMsgLen) ∨
              ∀ s ∈ sends, DoneAtOnce s.2.post.reply) := by
  refine ⟨?_, ?_, ?_⟩
  · intro maxAmId inetPton4 inetPton6 connection ep attempts v w' h
    unfold allreduceUcxConnect at h
    split at h
    · rename_i hneg
      cases h
      exact iff_of_true (fun hv => absurd hneg (by omega)) (Or.inl hneg)
    · rename_i hok
      have hsound : Sound (sockaddrConnect w (some (connection, ep))).2 := ⟨hs.free, hs.flying⟩
      obtain ⟨-, -, hv, -, hiff⟩ := connectLoop_spec h hsound
      rw [or_iff_right hok, ← hiff]
      exact ⟨fun hc => hc hv, fun hc _ => hc⟩
  · intro maxAmId inetPton4 inetPton6 attempts v w' h
    unfold allreduceUcxConnect at h
    split at h
    · rename_i hneg
      cases h
      exact hneg
    · cases h
      exact Int.negSucc_lt_zero 0
  · intro handshakeMsgLen sends ret w' h
    unfold allreduceOutgoingHandshake at h
    split at h
    · rename_i hlen
      cases h
      exact iff_of_true (fun hret => absurd hret (by decide)) (Or.inl hlen)
    · rename_i hlen
      obtain ⟨hret, -, -, -, -, -, hiff⟩ := handshakeLoop_spec h hs
      rw [or_iff_right hlen, ← hiff]
      exact ⟨fun hd => hd hret, fun hd _ => hd⟩

/-- Two connections and nothing posted yet. -/
def quiet : World where
  memory := ⟨fun _ => requestInit, ∅⟩
  connections := fun _ => some ⟨0, true⟩
  posted := []

theorem quiet_sound : Sound quiet where
  free := fun _ _ => rfl
  flying := by simp [quiet]

/-- The first check is answered late and fails, the connection breaks, and the second check
arrives. -/
def retry : List Attempt :=
  [⟨⟨[], .request 5 none⟩, [[], [.breaks 1 (some 8), .completes 5 (.err 3)]]⟩, ⟨⟨[], .null⟩, []⟩]

theorem connection_setup_retry : Sound quiet ∧ ∃ w',
    allreduceUcxConnect quiet 2 true false (some (1, 7)) retry = some (0, w') ∧
      Checked quiet w' 1 2 := by
  have hrun : (allreduceUcxConnect quiet 2 true false (some (1, 7)) retry).map Prod.fst =
      some 0 := by decide
  obtain ⟨⟨v, w'⟩, hconnect, rfl⟩ := Option.map_eq_some_iff.mp hrun
  have hlate : ∀ a ∈ retry, ¬ FailsAtOnce a.post.reply := by
    simp [retry, FailsAtOnce]
  exact ⟨quiet_sound, w', hconnect, ((connection_setup_iff quiet quiet_sound).1 2 true false 1 7
    retry 0 w' hconnect).mpr (Or.inr hlate) le_rfl⟩

/-- A check that fails at once is taken for a success, and the handshake is over while its message
is on the way. -/
theorem failed_setup :
    Sound quiet ∧
      (∃ w', allreduceUcxConnect quiet 2 true false (some (1, 7)) [⟨⟨[], .err 3⟩, []⟩] =
          some (22, w') ∧ ¬ Checked quiet w' 1 2) ∧
      ∃ w', allreduceOutgoingHandshake quiet 30 [(1, ⟨⟨[], .request 5 none⟩, []⟩)] =
          some (0, w') ∧ ¬ Delivered quiet w' := by
  refine ⟨quiet_sound, ⟨_, rfl, ?_⟩, _, rfl, ?_⟩
  · simp [Checked, quiet, sockaddrConnect]
  · simp [Delivered, quiet]

end DocaApps.Proofs.Connect
