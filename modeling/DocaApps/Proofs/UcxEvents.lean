import DocaApps.Allreduce.Connect

namespace DocaApps.Proofs.UcxEvents
open Allreduce.Ucx Allreduce.Connect

variable {w w' u : World} {k j n connection amId maxAmId : Nat} {status : UcsStatus} {logErr : Bool}
  {p q : Posted} {post : Post} {result : Option DocaError} {request : Option Nat}

/-- Requests in the pool are as they were put there, and what has not completed is not in it. -/
structure Sound (w : World) : Prop where
  free : ∀ k, k ∉ w.memory.taken → w.memory.request k = requestInit
  flying : ∀ p ∈ w.posted, ∀ k, p.flying k → k ∈ w.memory.taken

/-- A request without a callback that was processed. -/
structure Held (m : Memory) (k : Nat) : Prop where
  taken : k ∈ m.taken
  callback : (m.request k).callback = none
  connection : (m.request k).connection ≠ none

/-- The same operation, completed or not; what has completed stays as it is. -/
structure Later (p p' : Posted) : Prop where
  op : p'.op = p.op
  userData : p'.userData = p.userData
  amId : p'.amId = p.amId
  request : p'.request = p.request
  status : ∀ status, p.status = some status → p'.status = some status

/-- Every operation of a list is there later. -/
def Grown (ps ps' : List Posted) : Prop :=
  ∀ (n : Nat) (p : Posted), ps[n]? = some p → ∃ p', ps'[n]? = some p' ∧ Later p p'

theorem Later.refl (p : Posted) : Later p p := ⟨rfl, rfl, rfl, rfl, fun _ h => h⟩

theorem Later.trans {r : Posted} (h : Later p q) (h' : Later q r) : Later p r where
  op := h'.op.trans h.op
  userData := h'.userData.trans h.userData
  amId := h'.amId.trans h.amId
  request := h'.request.trans h.request
  status := fun status hp => h'.status status (h.status status hp)

theorem Grown.refl (ps : List Posted) : Grown ps ps := fun _ p hp => ⟨p, hp, .refl p⟩

theorem Grown.trans {ps ps' ps'' : List Posted} (h : Grown ps ps') (h' : Grown ps' ps'') :
    Grown ps ps'' := by
  intro n p hp
  obtain ⟨p', hp', hlater⟩ := h n p hp
  obtain ⟨p'', hp'', hlater'⟩ := h' n p' hp'
  exact ⟨p'', hp'', hlater.trans hlater'⟩

theorem Grown.append (ps new : List Posted) : Grown ps (ps ++ new) := by
  intro n p hp
  refine ⟨p, ?_, .refl p⟩
  rw [List.getElem?_append_left (List.getElem?_eq_some_iff.mp hp).1, hp]

theorem complete_later (p : Posted) (k : Nat) (status : UcsStatus) :
    Later p (p.complete k status) := by
  unfold Posted.complete
  split
  · rename_i hflying
    refine ⟨rfl, rfl, rfl, rfl, ?_⟩
    intro status' hstatus
    rw [hflying.2] at hstatus
    cases hstatus
  · exact .refl p

theorem Grown.map_complete (ps : List Posted) (k : Nat) (status : UcsStatus) :
    Grown ps (ps.map (·.complete k status)) := by
  intro n p hp
  exact ⟨p.complete k status, by rw [List.getElem?_map, hp]; rfl, complete_later p k status⟩

/-- What the events inside of a call of UCX keep. -/
structure Calm (w w' : World) : Prop where
  sound : Sound w'
  grown : Grown w.posted w'.posted
  length : w'.posted.length = w.posted.length
  taken : w'.memory.taken ⊆ w.memory.taken
  held : ∀ k, Held w.memory k → Held w'.memory k

theorem Calm.refl (h : Sound w) : Calm w w :=
  ⟨h, .refl _, rfl, Finset.Subset.refl _, fun _ hk => hk⟩

theorem Calm.trans (h : Calm w w') (h' : Calm w' u) : Calm w u where
  sound := h'.sound
  grown := h.grown.trans h'.grown
  length := h'.length.trans h.length
  taken := h'.taken.trans h.taken
  held := fun k hk => h'.held k (h.held k hk)

/-- A completion changes one request, which it may release. -/
theorem completes_spec (h : w.completes k status = some w') :
    status ≠ .inProgress ∧ (∃ p ∈ w.posted, p.flying k) ∧ k ∈ w.memory.taken ∧
      w'.connections = w.connections ∧ w'.posted = w.posted.map (·.complete k status) ∧
      (∀ j, j ≠ k → w'.memory.request j = w.memory.request j) ∧
      (((w.memory.request k).callback ≠ none ∧ w'.memory.request k = requestInit ∧
          w'.memory.taken = w.memory.taken.erase k) ∨
        (w'.memory.taken = w.memory.taken ∧
          (w'.memory.request k).status = status ∧ (w'.memory.request k).connection ≠ none ∧
          (w'.memory.request k).callback = (w.memory.request k).callback)) := by
  unfold World.completes at h
  obtain ⟨p, hp, h⟩ := Option.bind_eq_some_iff.mp h
  split at h
  · cases h
  · rename_i hstatus
    obtain ⟨after, hafter, h⟩ := Option.bind_eq_some_iff.mp h
    obtain ⟨memory, hmemory, h⟩ := Option.bind_eq_some_iff.mp h
    cases h
    have hflying : p.flying k := by simpa using List.find?_some hp
    refine ⟨hstatus, ⟨p, List.mem_of_find?_eq_some hp, hflying⟩, ?_⟩
    obtain ⟨htaken, ⟨c, hconnection, hcallback, rfl⟩ | ⟨hconnection, hcallback, rfl⟩ |
      ⟨hconnection, hop, rfl⟩⟩ := commonRequestCallback_cases hafter
    · obtain ⟨-, rfl⟩ := requestRelease_some hmemory
      refine ⟨htaken, rfl, rfl, ?_, Or.inl ⟨by simp [hcallback], ?_, rfl⟩⟩
      · intro j hj
        simp only [write_request_of_ne hj]
      · exact write_request ..
    · cases hmemory
      refine ⟨htaken, rfl, rfl, fun j hj => write_request_of_ne hj, Or.inr ⟨rfl, ?_⟩⟩
      simp [hconnection]
    · cases hmemory
      refine ⟨htaken, rfl, rfl, fun j hj => write_request_of_ne hj, Or.inr ⟨rfl, ?_⟩⟩
      simp

theorem not_flying_complete (p : Posted) (k : Nat) (status : UcsStatus) :
    ¬ (p.complete k status).flying k := by
  unfold Posted.complete
  split
  · simp [Posted.flying]
  · assumption

theorem flying_of_complete (h : (p.complete k status).flying j) : p.flying j := by
  unfold Posted.complete at h
  split at h
  · simp [Posted.flying] at h
  · exact h

theorem completes_calm (h : w.completes k status = some w') (hs : Sound w) : Calm w w' := by
  obtain ⟨-, -, htaken, -, hposted, hother, hk⟩ := completes_spec h
  have hflying : ∀ p ∈ w'.posted, ∀ j, p.flying j → j ≠ k ∧ j ∈ w.memory.taken := by
    intro p hp j hj
    rw [hposted] at hp
    obtain ⟨q, hq, rfl⟩ := List.mem_map.mp hp
    refine ⟨?_, hs.flying q hq j (flying_of_complete hj)⟩
    rintro rfl
    exact not_flying_complete q j status hj
  have hgrown : Grown w.posted w'.posted := by
    rw [hposted]
    exact Grown.map_complete w.posted k status
  have hlength : w'.posted.length = w.posted.length := by
    rw [hposted, List.length_map]
  rcases hk with ⟨hcallback, hinit, herase⟩ | ⟨hsame, hstatus, hconnection, hcallback⟩
  · refine ⟨⟨?_, ?_⟩, hgrown, hlength, ?_, ?_⟩
    · intro j hj
      by_cases hjk : j = k
      · rw [hjk, hinit]
      · rw [hother j hjk]
        apply hs.free
        intro hin
        rw [herase] at hj
        exact hj (Finset.mem_erase.mpr ⟨hjk, hin⟩)
    · intro p hp j hj
      rw [herase]
      exact Finset.mem_erase.mpr (hflying p hp j hj)
    · rw [herase]
      exact Finset.erase_subset ..
    · intro j hj
      have hjk : j ≠ k := by
        rintro rfl
        exact hcallback hj.callback
      refine ⟨?_, ?_, ?_⟩
      · rw [herase]
        exact Finset.mem_erase.mpr ⟨hjk, hj.taken⟩
      · rw [hother j hjk]
        exact hj.callback
      · rw [hother j hjk]
        exact hj.connection
  · refine ⟨⟨?_, ?_⟩, hgrown, hlength, ?_, ?_⟩
    · intro j hj
      rw [hsame] at hj
      have hjk : j ≠ k := by
        rintro rfl
        exact hj htaken
      rw [hother j hjk]
      exact hs.free j hj
    · intro p hp j hj
      rw [hsame]
      exact (hflying p hp j hj).2
    · rw [hsame]
    · intro j hj
      refine ⟨by rw [hsame]; exact hj.taken, ?_, ?_⟩
      · by_cases hjk : j = k
        · rw [hjk, hcallback, ← hjk]
          exact hj.callback
        · rw [hother j hjk]
          exact hj.callback
      · by_cases hjk : j = k
        · rw [hjk]
          exact hconnection
        · rw [hother j hjk]
          exact hj.connection

theorem errorCallback_calm (hs : Sound w) (connection : Nat) (ep : Option Nat) :
    Calm w (errorCallback w connection ep) := by
  unfold errorCallback
  split
  · exact .refl hs
  · exact ⟨⟨hs.free, hs.flying⟩, .refl _, rfl, Finset.Subset.refl _, fun _ hk => hk⟩

theorem events_calm {es : List Event} (h : w.events es = some w') (hs : Sound w) : Calm w w' := by
  induction es generalizing w with
  | nil =>
    cases h
    exact .refl hs
  | cons e es ih =>
    obtain ⟨u, hu, h⟩ := Option.bind_eq_some_iff.mp h
    have hcalm : Calm w u := by
      cases e with
      | completes k status => exact completes_calm hu hs
      | breaks connection ep =>
        cases hu
        exact errorCallback_calm hs connection ep
    exact hcalm.trans (ih h hcalm.sound)

/-- What stands for an operation that was posted with a request, while the request is kept. -/
structure Waiting (w : World) (n k : Nat) (p : Posted) : Prop where
  posted : w.posted[n]? = some p
  request : p.request = some k
  held : Held w.memory k
  status : (w.memory.request k).status = p.status.getD .inProgress
  settled : p.status ≠ some .inProgress
  only : ∀ (n' : Nat) (q : Posted), w.posted[n']? = some q → q.flying k → n' = n

theorem completes_waiting (h : w.completes k status = some w') (hs : Sound w)
    (hw : Waiting w n j p) : ∃ p', Waiting w' n j p' ∧ Later p p' := by
  obtain ⟨hstatus, ⟨q, hq, hflying⟩, -, -, hposted, hother, hk⟩ := completes_spec h
  have hheld := (completes_calm h hs).held j hw.held
  have hposted' : w'.posted[n]? = some (p.complete k status) := by
    rw [hposted, List.getElem?_map, hw.posted]
    rfl
  have hlater := complete_later p k status
  have honly : ∀ (n' : Nat) (q : Posted), w'.posted[n']? = some q → q.flying j → n' = n := by
    intro n' q hq' hqj
    rw [hposted, List.getElem?_map] at hq'
    obtain ⟨q₀, hq₀, rfl⟩ := Option.map_eq_some_iff.mp hq'
    exact hw.only n' q₀ hq₀ (flying_of_complete hqj)
  refine ⟨p.complete k status, ⟨hposted', hlater.request.trans hw.request, hheld, ?_, ?_, honly⟩,
    hlater⟩
  · by_cases hjk : j = k
    · subst hjk
      obtain ⟨n', hlt, hn'⟩ := List.mem_iff_getElem.mp hq
      have hget : w.posted[n']? = some q := List.getElem?_eq_some_iff.mpr ⟨hlt, hn'⟩
      have hn := hw.only n' q hget hflying
      rw [hn, hw.posted] at hget
      cases hget
      rcases hk with ⟨hcallback, -⟩ | ⟨-, hstatus', -⟩
      · exact absurd hw.held.callback hcallback
      · rw [hstatus', Posted.complete, if_pos hflying]
        rfl
    · have hne : ¬ p.flying k := by
        rintro ⟨hrequest, -⟩
        rw [hw.request] at hrequest
        exact hjk (Option.some.inj hrequest)
      rw [hother j hjk, hw.status, Posted.complete, if_neg hne]
  · unfold Posted.complete
    split
    · simpa using hstatus
    · exact hw.settled

theorem events_waiting {es : List Event} (h : w.events es = some w') (hs : Sound w)
    (hw : Waiting w n k p) : ∃ p', Waiting w' n k p' ∧ Later p p' := by
  induction es generalizing w p with
  | nil =>
    cases h
    exact ⟨p, hw, .refl p⟩
  | cons e es ih =>
    obtain ⟨u, hu, hrest⟩ := Option.bind_eq_some_iff.mp h
    cases e with
    | completes j status =>
      obtain ⟨q, hq, hlater⟩ := completes_waiting hu hs hw
      obtain ⟨p', hp', hlater'⟩ := ih hrest (completes_calm hu hs).sound hq
      exact ⟨p', hp', hlater.trans hlater'⟩
    | breaks connection ep =>
      cases hu
      refine ih hrest (errorCallback_calm hs connection ep).sound ?_
      unfold errorCallback
      split
      · exact hw
      · exact ⟨hw.posted, hw.request, hw.held, hw.status, hw.settled, hw.only⟩

/-- A request that nothing waits for any more goes back to the pool. -/
theorem release_sound {m : Memory} (h : requestRelease w.memory k = some m) (hs : Sound w)
    (hflying : ∀ p ∈ w.posted, ¬ p.flying k) :
    Sound { w with memory := m } ∧ m.taken = w.memory.taken.erase k ∧
      ∀ j, j ≠ k → Held w.memory j → Held m j := by
  obtain ⟨-, rfl⟩ := requestRelease_some h
  refine ⟨⟨?_, ?_⟩, rfl, ?_⟩
  · intro j hj
    by_cases hjk : j = k
    · subst hjk
      exact write_request ..
    · refine (write_request_of_ne hjk).trans (hs.free j ?_)
      intro hin
      exact hj (Finset.mem_erase.mpr ⟨hjk, hin⟩)
  · intro p hp j hj
    refine Finset.mem_erase.mpr ⟨?_, hs.flying p hp j hj⟩
    rintro rfl
    exact hflying p hp hj
  · intro j hj hheld
    refine ⟨Finset.mem_erase.mpr ⟨hj, hheld.taken⟩, ?_, ?_⟩
    · simp only [write_request_of_ne hj]
      exact hheld.callback
    · simp only [write_request_of_ne hj]
      exact hheld.connection

/-- A message that was sent: one operation more, and everything else as before. -/
structure Posts (w w' : World) (connection amId : Nat) (p : Posted) : Prop where
  sound : Sound w'
  grown : Grown w.posted w'.posted
  length : w'.posted.length = w.posted.length + 1
  held : ∀ k, Held w.memory k → Held w'.memory k
  posted : w'.posted[w.posted.length]? = some p
  op : p.op = .amSend
  userData : p.userData = connection
  amId : p.amId = amId

/-- What the sender gets and how its operation stands, for each behaviour of UCX. -/
def Sent (w w' : World) (p : Posted) : Reply → Option DocaError → Option Nat → Prop
  | .null, result, request => result = none ∧ request = none ∧ p.request = none ∧
      p.status = some .ok ∧ w'.memory.taken ⊆ w.memory.taken
  | .err code, result, request => result = some .unexpected ∧ request = none ∧
      p.request = none ∧ p.status = some (.err code) ∧ w'.memory.taken ⊆ w.memory.taken
  | .request k (some status), result, request =>
      result = (if status = .ok then none else some .unexpected) ∧ request = none ∧
        p.request = some k ∧ p.status = some status ∧ status ≠ .inProgress ∧
        w'.memory.taken ⊆ w.memory.taken ∧ k ∉ w'.memory.taken
  | .request k none, result, request => result = none ∧ request = some k ∧
      Waiting w' w.posted.length k p

end DocaApps.Proofs.UcxEvents
