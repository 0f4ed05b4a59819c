import DocaApps.Allreduce.Requests

namespace DocaApps.Proofs.UcxRequests
open Allreduce.Ucx Allreduce.Requests

variable {s s' : System} {m m' : Memory} {i j k : Nat} {p q : Posted} {status : UcsStatus}
  {a : Action} {returning : List (Nat × Nat)}

/-- The status an operation has ended with. -/
def outcome (p : Posted) : Option UcsStatus :=
  match p.ptrStatus with
  | .null => some .ok
  | .err code => some (.err code)
  | .request _ => p.completion

/-- The operation keeps the request. -/
def Holds (p : Posted) (k : Nat) : Prop := p.ptrStatus = .request k ∧ p.frees = 0

/-- What the user of an operation is told when it ends with a status. -/
def told (p : Posted) (status : UcsStatus) : List Call :=
  userRequestComplete p.operation.callback p.operation.arg status

/-- How far an operation has come, and what its request holds then. `inside` says that its
callback has not returned yet. -/
inductive Stage (m : Memory) (inside : Prop) (p : Posted) : Prop where
  | unprocessed (atOnce : ∀ k, p.ptrStatus ≠ .request k) (processed : p.processed = none)
      (calls : p.calls = []) (frees : p.frees = 0) (returned : ¬ inside)
  | done (status : UcsStatus) (result : Option DocaError) (atOnce : ∀ k, p.ptrStatus ≠ .request k)
      (outcome : outcome p = some status) (processed : p.processed = some (result, none))
      (calls : p.calls = told p status) (frees : p.frees = 0) (returned : ¬ inside)
  | posted (k : Nat) (request : p.ptrStatus = .request k) (completion : p.completion = none)
      (processed : p.processed = none) (slot : m.request k = requestInit) (calls : p.calls = [])
      (frees : p.frees = 0) (waited : p.waited = false) (returned : ¬ inside)
  | early (k : Nat) (status : UcsStatus) (request : p.ptrStatus = .request k)
      (completion : p.completion = some status) (ended : status ≠ .inProgress)
      (processed : p.processed = none)
      (slot : m.request k = { requestInit with
        status, connection := some p.operation.userData, op := p.operation.op })
      (calls : p.calls = []) (frees : p.frees = 0) (returned : ¬ inside)
  | pending (k : Nat) (result : Option DocaError) (request : p.ptrStatus = .request k)
      (completion : p.completion = none) (processed : p.processed = some (result, some k))
      (slot : m.request k = ⟨p.operation.callback, p.operation.arg, some p.operation.connection,
        p.operation.logErr, .inProgress, p.operation.op⟩)
      (calls : p.calls = []) (frees : p.frees = 0) (waited : p.waited = false)
      (returned : ¬ inside)
  | kept (k : Nat) (status : UcsStatus) (result : Option DocaError)
      (request : p.ptrStatus = .request k) (completion : p.completion = some status)
      (ended : status ≠ .inProgress) (processed : p.processed = some (result, some k))
      (callback : p.operation.callback = none) (slot : (m.request k).status = status)
      (calls : p.calls = []) (frees : p.frees = 0) (waited : p.waited = false)
      (returned : ¬ inside)
  | called (k c : Nat) (status : UcsStatus) (request : p.ptrStatus = .request k)
      (completion : p.completion = some status) (processed : p.processed ≠ none)
      (callback : p.operation.callback = some c) (calls : p.calls = told p status)
      (frees : p.frees = 0) (returned : inside)
  | freed (k : Nat) (status : UcsStatus) (request : p.ptrStatus = .request k)
      (completion : p.completion = some status) (processed : p.processed ≠ none)
      (calls : p.calls = told p status) (frees : p.frees = 1)
      (user : p.operation.callback = none → ∀ result k, p.processed = some (result, some k) →
        p.waited = true)
      (returned : ¬ inside)

/-- Requests in the pool are as they were put there, and what an operation keeps is its own. -/
structure Inv (s : System) : Prop where
  free : ∀ k, k ∉ s.memory.taken → s.memory.request k = requestInit
  taken : ∀ (i : Nat) (p : Posted) (k : Nat), s.posted[i]? = some p → Holds p k → k ∈ s.memory.taken
  own : ∀ (i j : Nat) (p q : Posted) (k : Nat), s.posted[i]? = some p → s.posted[j]? = some q →
    Holds p k → Holds q k → i = j
  stage : ∀ (i : Nat) (p : Posted), s.posted[i]? = some p →
    Stage s.memory (i ∈ s.returning.map Prod.fst) p
  inside : ∀ r ∈ s.returning, ∃ p, s.posted[r.1]? = some p ∧ p.ptrStatus = .request r.2
  nodup : (s.returning.map Prod.fst).Nodup

/-- Only the request that an operation keeps matters for it. -/
theorem Stage.frame {inside inside' : Prop} (h : Stage m inside p)
    (hk : ∀ k, Holds p k → m'.request k = m.request k) (hinside : inside' ↔ inside) :
    Stage m' inside' p := by
  cases h with
  | unprocessed atOnce processed calls frees returned =>
    exact .unprocessed atOnce processed calls frees (hinside.not.mpr returned)
  | done status result atOnce outcome processed calls frees returned =>
    exact .done status result atOnce outcome processed calls frees (hinside.not.mpr returned)
  | posted k request completion processed slot calls frees waited returned =>
    exact .posted k request completion processed ((hk k ⟨request, frees⟩).trans slot) calls frees
      waited (hinside.not.mpr returned)
  | early k status request completion ended processed slot calls frees returned =>
    exact .early k status request completion ended processed
      ((hk k ⟨request, frees⟩).trans slot) calls frees (hinside.not.mpr returned)
  | pending k result request completion processed slot calls frees waited returned =>
    exact .pending k result request completion processed ((hk k ⟨request, frees⟩).trans slot)
      calls frees waited (hinside.not.mpr returned)
  | kept k status result request completion ended processed callback slot calls frees waited
      returned =>
    refine .kept k status result request completion ended processed callback ?_ calls frees waited
      (hinside.not.mpr returned)
    rw [hk k ⟨request, frees⟩, slot]
  | called k c status request completion processed callback calls frees returned =>
    exact .called k c status request completion processed callback calls frees
      (hinside.mpr returned)
  | freed k status request completion processed calls frees user returned =>
    exact .freed k status request completion processed calls frees user
      (hinside.not.mpr returned)

/-- A step that concerns one operation and at most the request that it keeps. -/
theorem Inv.update {r : List (Nat × Nat)} (h : Inv s) (hp : s.posted[i]? = some p)
    (hptr : q.ptrStatus = p.ptrStatus) (hfrees : p.frees = 0)
    (hfree : ∀ k, k ∉ m.taken → m.request k = requestInit)
    (hother : ∀ k, ¬ Holds p k → m.request k = s.memory.request k ∧
      (k ∈ s.memory.taken → k ∈ m.taken))
    (hkeeps : ∀ k, Holds q k → k ∈ m.taken)
    (hstage : Stage m (i ∈ r.map Prod.fst) q)
    (hreturning : ∀ j, j ≠ i → (j ∈ r.map Prod.fst ↔ j ∈ s.returning.map Prod.fst))
    (hinside : ∀ e ∈ r, e ∈ s.returning ∨ e.1 = i ∧ p.ptrStatus = .request e.2)
    (hnodup : (r.map Prod.fst).Nodup) :
    Inv ⟨m, s.posted.set i q, r⟩ := by
  have hlt := (List.getElem?_eq_some_iff.mp hp).1
  have hget : ∀ j, (s.posted.set i q)[j]? = if i = j then some q else s.posted[j]? := by
    intro j
    rw [List.getElem?_set]
    by_cases hij : i = j
    · simp [hij ▸ hlt, hij]
    · simp [hij]
  have hholds : ∀ k, Holds q k → Holds p k := fun k hk => ⟨hptr ▸ hk.1, hfrees⟩
  have hapart : ∀ (j : Nat) (q' : Posted) (k : Nat), i ≠ j → s.posted[j]? = some q' →
      Holds q' k → ¬ Holds p k := by
    intro j q' k hij hj hk hpk
    exact hij (h.own i j p q' k hp hj hpk hk)
  refine ⟨hfree, ?_, ?_, ?_, ?_, hnodup⟩
  · intro j q' k hj hk
    rw [hget] at hj
    split at hj
    · cases hj
      exact hkeeps k hk
    · rename_i hij
      exact (hother k (hapart j q' k hij hj hk)).2 (h.taken j q' k hj hk)
  · intro j j' q' q'' k hj hj' hk hk'
    rw [hget] at hj hj'
    split at hj
    · rename_i hij
      cases hj
      split at hj'
      · rename_i hij'
        exact hij.symm.trans hij'
      · rename_i hij'
        exact absurd (hholds k hk) (hapart j' q'' k hij' hj' hk')
    · rename_i hij
      split at hj'
      · cases hj'
        exact absurd (hholds k hk') (hapart j q' k hij hj hk)
      · exact h.own j j' q' q'' k hj hj' hk hk'
  · intro j q' hj
    rw [hget] at hj
    split at hj
    · rename_i hij
      cases hj
      rw [← hij]
      exact hstage
    · rename_i hij
      exact (h.stage j q' hj).frame (fun k hk => (hother k (hapart j q' k hij hj hk)).1)
        (hreturning j (Ne.symm hij))
  · intro e he
    rw [hget]
    split
    · rename_i hie
      refine ⟨q, rfl, ?_⟩
      rcases hinside e he with hold | ⟨-, hrequest⟩
      · obtain ⟨p', hp', hrequest⟩ := h.inside e hold
        rw [← hie, hp] at hp'
        cases hp'
        rw [hptr, hrequest]
      · rw [hptr, hrequest]
    · rename_i hie
      rcases hinside e he with hold | ⟨heq, -⟩
      · exact h.inside e hold
      · exact absurd heq.symm hie

theorem Inv.returned (h : Inv s) : ∀ e ∈ s.returning, e.1 < s.posted.length := by
  intro e he
  obtain ⟨p, hp, -⟩ := h.inside e he
  exact (List.getElem?_eq_some_iff.mp hp).1

/-- A new operation keeps at most a request that no other one keeps. -/
theorem Inv.append (h : Inv s) (hrequest : m.request = s.memory.request)
    (hsub : s.memory.taken ⊆ m.taken)
    (hkeeps : ∀ k, Holds q k → k ∈ m.taken ∧ k ∉ s.memory.taken)
    (hstage : ∀ inside, ¬ inside → Stage m inside q) :
    Inv ⟨m, s.posted ++ [q], s.returning⟩ := by
  have hget : ∀ (j : Nat) (p : Posted), (s.posted ++ [q])[j]? = some p →
      s.posted[j]? = some p ∨ j = s.posted.length ∧ p = q := by
    intro j p hj
    rcases Nat.lt_or_ge j s.posted.length with hlt | hge
    · rw [List.getElem?_append_left hlt] at hj
      exact Or.inl hj
    · rw [List.getElem?_append_right hge, List.getElem?_singleton] at hj
      split at hj
      · exact Or.inr ⟨by omega, (Option.some.inj hj).symm⟩
      · cases hj
  have hnew : ∀ (i : Nat) (p : Posted) (k : Nat), s.posted[i]? = some p → Holds p k →
      ¬ Holds q k := fun i p k hi hp hq => (hkeeps k hq).2 (h.taken i p k hi hp)
  refine ⟨?_, ?_, ?_, ?_, ?_, h.nodup⟩
  · intro k hnot
    exact (congrFun hrequest k).trans (h.free k fun hin => hnot (hsub hin))
  · intro i p k hi hp
    rcases hget i p hi with hi | ⟨-, rfl⟩
    · exact hsub (h.taken i p k hi hp)
    · exact (hkeeps k hp).1
  · intro i j p p' k hi hj hp hp'
    rcases hget i p hi with hold | ⟨hil, heq⟩
    · rcases hget j p' hj with hold' | ⟨-, heq'⟩
      · exact h.own i j p p' k hold hold' hp hp'
      · rw [heq'] at hp'
        exact absurd hp' (hnew i p k hold hp)
    · rcases hget j p' hj with hold' | ⟨hjl, -⟩
      · rw [heq] at hp
        exact absurd hp (hnew j p' k hold' hp')
      · exact hil.trans hjl.symm
  · intro i p hi
    rcases hget i p hi with hi | ⟨hil, rfl⟩
    · exact (h.stage i p hi).frame (fun k _ => congrFun hrequest k) Iff.rfl
    · apply hstage
      intro hin
      obtain ⟨e, he, hei⟩ := List.mem_map.mp hin
      have hlt := h.returned e he
      omega
  · intro e he
    obtain ⟨p, hp, hptr⟩ := h.inside e he
    exact ⟨p, (List.getElem?_append_left (h.returned e he)).trans hp, hptr⟩

theorem post_inv (h : Inv s) (operation : Operation) (ptrStatus : StatusPtr)
    (hk : ∀ k, ptrStatus = .request k → k ∉ s.memory.taken) : Inv (s.post operation ptrStatus) := by
  cases ptrStatus with
  | null =>
    refine h.append rfl (Finset.Subset.refl _) ?_ ?_
    · rintro k ⟨⟨⟩, -⟩
    · intro inside returned
      exact .unprocessed (by simp) rfl rfl rfl returned
  | err code =>
    refine h.append rfl (Finset.Subset.refl _) ?_ ?_
    · rintro k ⟨⟨⟩, -⟩
    · intro inside returned
      exact .unprocessed (by simp) rfl rfl rfl returned
  | request k =>
    refine h.append rfl (Finset.subset_insert ..) ?_ ?_
    · rintro j ⟨⟨⟩, -⟩
      exact ⟨Finset.mem_insert_self .., hk k rfl⟩
    · intro inside returned
      exact .posted k rfl rfl rfl (h.free k (hk k rfl)) rfl rfl rfl returned

theorem refuse_inv (h : Inv s) (operation : Operation) : Inv (s.refuse operation) := by
  refine h.append rfl (Finset.Subset.refl _) ?_ ?_
  · rintro k ⟨⟨⟩, -⟩
  · intro inside returned
    exact .done unreachable _ (by simp) rfl rfl rfl rfl returned

/-- A step that writes the request of an operation and leaves the rest. -/
theorem Inv.writes {r : Request} (h : Inv s) (hp : s.posted[i]? = some p)
    (hk : Holds p k) (hptr : q.ptrStatus = p.ptrStatus)
    (hstage : Stage (s.memory.write k r) (i ∈ s.returning.map Prod.fst) q) :
    Inv ⟨s.memory.write k r, s.posted.set i q, s.returning⟩ := by
  refine h.update hp hptr hk.2 ?_ ?_ ?_ hstage (fun _ _ => Iff.rfl) (fun e he => Or.inl he) h.nodup
  · intro j hj
    have hjk : j ≠ k := by
      rintro rfl
      exact hj (h.taken i p j hp hk)
    exact (write_request_of_ne hjk).trans (h.free j hj)
  · intro j hj
    have hjk : j ≠ k := by
      rintro rfl
      exact hj hk
    exact ⟨write_request_of_ne hjk, id⟩
  · intro j hj
    exact h.taken i p j hp ⟨hptr ▸ hj.1, hk.2⟩

theorem complete_eq (hptr : p.ptrStatus = .request k) :
    s.complete i p status =
      (commonRequestCallback k status p.operation.userData p.operation.op s.memory).bind
        (s.leave i { p with completion := some status }) := by
  unfold System.complete
  split
  · rename_i k' hk
    cases hk.symm.trans hptr
    rfl
  · rename_i hnot
    exact absurd hptr (hnot k)

/-- An operation whose request holds a callback is left with the callback running. -/
theorem Inv.calls {c : Nat} (h : Inv s) (hp : s.posted[i]? = some p) (hk : Holds p k)
    (hreturned : i ∉ s.returning.map Prod.fst) {r : Request} (hptr : q.ptrStatus = p.ptrStatus)
    (hcompletion : q.completion = some status) (hprocessed : q.processed ≠ none)
    (hcallback : q.operation.callback = some c) (hcalls : q.calls = told q status)
    (hfrees : q.frees = 0) :
    Inv ⟨s.memory.write k r, s.posted.set i q, (i, k) :: s.returning⟩ := by
  have hnew : ∀ j, j ≠ k → (s.memory.write k r).request j = s.memory.request j :=
    fun j hj => write_request_of_ne hj
  refine h.update hp hptr hk.2 ?_ ?_ ?_ ?_ ?_ ?_ (List.nodup_cons.mpr ⟨hreturned, h.nodup⟩)
  · intro j hj
    have hjk : j ≠ k := by
      rintro rfl
      exact hj (h.taken i p j hp hk)
    exact (hnew j hjk).trans (h.free j hj)
  · intro j hj
    have hjk : j ≠ k := by
      rintro rfl
      exact hj hk
    exact ⟨hnew j hjk, id⟩
  · intro j hj
    exact h.taken i p j hp ⟨hptr ▸ hj.1, hk.2⟩
  · exact .called k c status (hptr.trans hk.1) hcompletion hprocessed hcallback hcalls hfrees
      (List.mem_cons_self ..)
  · intro j hj
    simp [hj]
  · intro e he
    rcases List.mem_cons.mp he with rfl | he
    · exact Or.inr ⟨rfl, hk.1⟩
    · exact Or.inl he

/-- The completion callback finds a request that was handed out, processed or not. -/
theorem complete_inv (h : Inv s) (hp : s.posted[i]? = some p) (hptr : p.ptrStatus = .request k)
    (hnone : p.completion = none) (hended : status ≠ .inProgress) :
    ∃ s', s.complete i p status = some s' ∧ Inv s' := by
  rw [complete_eq hptr]
  have hstage := h.stage i p hp
  cases hstage with
  | unprocessed atOnce processed calls frees returned => exact absurd hptr (atOnce k)
  | done status' result atOnce outcome processed calls frees returned =>
    exact absurd hptr (atOnce k)
  | early k' status' request completion =>
    rw [hnone] at completion
    cases completion
  | kept k' status' result request completion =>
    rw [hnone] at completion
    cases completion
  | called k' c status' request completion =>
    rw [hnone] at completion
    cases completion
  | freed k' status' request completion =>
    rw [hnone] at completion
    cases completion
  | posted k' request completion processed slot calls frees waited returned =>
    cases request.symm.trans hptr
    have hholds : Holds p k := ⟨hptr, frees⟩
    have htaken := h.taken i p k hp hholds
    have hcallback : commonRequestCallback k status p.operation.userData p.operation.op s.memory =
        some ⟨s.memory.write k { requestInit with
          status, connection := some p.operation.userData, op := p.operation.op }, [], none⟩ := by
      simp [commonRequestCallback, htaken, slot, requestInit]
    rw [hcallback]
    refine ⟨_, rfl, h.writes hp hholds rfl ?_⟩
    exact .early k status hptr rfl hended processed (write_request ..) (by simp [calls]) frees
      returned
  | pending k' result request completion processed slot calls frees waited returned =>
    cases request.symm.trans hptr
    have hholds : Holds p k := ⟨hptr, frees⟩
    have htaken := h.taken i p k hp hholds
    cases huser : p.operation.callback with
    | none =>
      have hcallback : commonRequestCallback k status p.operation.userData p.operation.op s.memory =
          some ⟨s.memory.write k { s.memory.request k with status }, [], none⟩ := by
        simp [commonRequestCallback, htaken, slot, huser]
      rw [hcallback]
      refine ⟨_, rfl, h.writes hp hholds rfl ?_⟩
      exact .kept k status result hptr rfl hended processed huser (by simp) (by simp [calls]) frees
        waited returned
    | some c =>
      have hcallback : commonRequestCallback k status p.operation.userData p.operation.op s.memory =
          some ⟨s.memory.write k { s.memory.request k with status },
            [⟨c, p.operation.arg, status⟩], some k⟩ := by
        simp [commonRequestCallback, htaken, slot, huser]
      rw [hcallback]
      refine ⟨_, rfl, h.calls hp hholds returned rfl rfl ?_ huser ?_ frees⟩
      · simp [processed]
      · simp [calls, told, huser, userRequestComplete]

/-- The request of an operation goes back to the pool. -/
theorem Inv.releases {r : List (Nat × Nat)} (h : Inv s) (hp : s.posted[i]? = some p)
    (hk : Holds p k) (hstage : ∀ m, Stage m (i ∈ r.map Prod.fst) q)
    (hptr : q.ptrStatus = p.ptrStatus) (hfrees : q.frees = 1)
    (hreturning : ∀ j, j ≠ i → (j ∈ r.map Prod.fst ↔ j ∈ s.returning.map Prod.fst))
    (hinside : ∀ e ∈ r, e ∈ s.returning) (hnodup : (r.map Prod.fst).Nodup) :
    ∃ m, requestRelease s.memory k = some m ∧ Inv ⟨m, s.posted.set i q, r⟩ := by
  have htaken := h.taken i p k hp hk
  refine ⟨_, if_pos htaken, h.update hp hptr hk.2 ?_ ?_ ?_ (hstage _) hreturning
    (fun e he => Or.inl (hinside e he)) hnodup⟩
  · intro j hj
    by_cases hjk : j = k
    · subst hjk
      exact write_request ..
    · refine (write_request_of_ne hjk).trans (h.free j ?_)
      intro hin
      exact hj (Finset.mem_erase.mpr ⟨hjk, hin⟩)
  · intro j hj
    have hjk : j ≠ k := by
      rintro rfl
      exact hj hk
    exact ⟨write_request_of_ne hjk, fun hin => Finset.mem_erase.mpr ⟨hjk, hin⟩⟩
  · intro j hj
    rw [hj.2] at hfrees
    cases hfrees

theorem process_eq {done : Processed}
    (h : requestProcess p.operation.connection p.operation.op p.ptrStatus p.operation.callback
      p.operation.arg p.operation.logErr s.memory = some done) :
    s.process i p =
      s.leave i { p with processed := some (done.result, done.requestP) } done.toAfter := by
  rw [System.process]
  simp only [h]
  rfl

/-- An operation that UCX has ended at once. -/
theorem process_done {code : Option DocaError} (h : Inv s) (hp : s.posted[i]? = some p)
    (hout : outcome p = some status) (atOnce : ∀ k, p.ptrStatus ≠ .request k)
    (calls : p.calls = []) (frees : p.frees = 0) (returned : i ∉ s.returning.map Prod.fst)
    (hprocess : requestProcess p.operation.connection p.operation.op p.ptrStatus
      p.operation.callback p.operation.arg p.operation.logErr s.memory =
        some ⟨⟨s.memory, told p status, none⟩, code, none⟩) :
    ∃ s', s.process i p = some s' ∧ Inv s' := by
  rw [process_eq hprocess]
  refine ⟨_, rfl, h.update hp rfl frees h.free (fun _ _ => ⟨rfl, id⟩)
    (fun k hk => absurd hk.1 (atOnce k)) ?_ (fun _ _ => Iff.rfl) (fun e he => Or.inl he) h.nodup⟩
  refine .done status code atOnce hout rfl ?_ frees returned
  simp [calls, told]

/-- What `request_process` does with the operation, in each of the ways UCX returns. -/
theorem process_inv (h : Inv s) (hp : s.posted[i]? = some p) (hnone : p.processed = none) :
    ∃ s', s.process i p = some s' ∧ Inv s' := by
  have hstage := h.stage i p hp
  cases hstage with
  | done status result atOnce outcome processed =>
    rw [hnone] at processed
    cases processed
  | pending k result request completion processed =>
    rw [hnone] at processed
    cases processed
  | kept k status result request completion ended processed =>
    rw [hnone] at processed
    cases processed
  | called k c status request completion processed => exact absurd hnone processed
  | freed k status request completion processed => exact absurd hnone processed
  | unprocessed atOnce processed calls frees returned =>
    cases hptr : p.ptrStatus with
    | request k => exact absurd hptr (atOnce k)
    | null =>
      exact process_done h hp (by rw [outcome, hptr]) atOnce calls frees returned
        (by rw [hptr]; rfl)
    | err code =>
      exact process_done h hp (by rw [outcome, hptr]) atOnce calls frees returned
        (by rw [hptr]; rfl)
  | posted k request completion processed slot calls frees waited returned =>
    have hholds : Holds p k := ⟨request, frees⟩
    have htaken := h.taken i p k hp hholds
    have hprocess : requestProcess p.operation.connection p.operation.op p.ptrStatus
        p.operation.callback p.operation.arg p.operation.logErr s.memory =
          some ⟨⟨s.memory.write k ⟨p.operation.callback, p.operation.arg,
            some p.operation.connection, p.operation.logErr, .inProgress, p.operation.op⟩, [],
            none⟩, none, some k⟩ := by
      simp [requestProcess, request, htaken, slot, requestInit]
    rw [process_eq hprocess]
    refine ⟨_, rfl, h.writes hp hholds rfl ?_⟩
    exact .pending k none request completion rfl (write_request ..) (by simp [calls]) frees waited
      returned
  | early k status request completion ended processed slot calls frees returned =>
    have hholds : Holds p k := ⟨request, frees⟩
    have htaken := h.taken i p k hp hholds
    have hprocess : requestProcess p.operation.connection p.operation.op p.ptrStatus
        p.operation.callback p.operation.arg p.operation.logErr s.memory =
          some ⟨⟨s.memory, told p status, some k⟩,
            if status = .ok then none else some .unexpected, none⟩ := by
      simp [requestProcess, request, htaken, slot, ended, told]
    rw [process_eq hprocess]
    cases huser : p.operation.callback with
    | none =>
      have htold : told p status = [] := by
        rw [told, huser]
        rfl
      have hfreed : ∀ m, Stage m (i ∈ s.returning.map Prod.fst) { p with
          processed := some (if status = .ok then none else some .unexpected, none),
          frees := p.frees + 1 } := by
        intro m
        refine .freed k status request completion (by simp) ?_ (by simp [frees]) ?_ returned
        · rw [calls, ← htold]
          rfl
        · rintro - result k ⟨⟩
      obtain ⟨m, hm, hinv⟩ := h.releases hp hholds hfreed rfl (by simp [frees])
        (fun _ _ => Iff.rfl) (fun e he => he) h.nodup
      refine ⟨_, ?_, hinv⟩
      simp only [System.leave, htold, hm]
      rfl
    | some c =>
      have htold : told p status = [⟨c, p.operation.arg, status⟩] := by
        rw [told, huser]
        rfl
      have hsame : s.memory = s.memory.write k (s.memory.request k) := by
        simp [Memory.write]
      rw [htold]
      refine ⟨⟨s.memory, s.posted.set i { p with
        processed := some (if status = .ok then none else some .unexpected, none),
        calls := p.calls ++ [⟨c, p.operation.arg, status⟩] }, (i, k) :: s.returning⟩, rfl, ?_⟩
      rw [hsame]
      refine h.calls hp hholds returned rfl completion (by simp) huser ?_ frees
      rw [calls, ← htold]
      rfl

/-- The innermost of the functions that wait for a callback releases the request of its
operation. -/
theorem callbackReturns_inv (h : Inv s) : ∃ s', s.callbackReturns = some s' ∧ Inv s' := by
  cases hreturning : s.returning with
  | nil => exact ⟨s, by rw [System.callbackReturns, hreturning], h⟩
  | cons e returning =>
    obtain ⟨i, k⟩ := e
    obtain ⟨p, hp, hptr⟩ := h.inside (i, k) (by rw [hreturning]; exact List.mem_cons_self ..)
    have hin : i ∈ s.returning.map Prod.fst := by
      rw [hreturning]
      exact List.mem_cons_self ..
    have hnodup := h.nodup
    rw [hreturning, List.map_cons, List.nodup_cons] at hnodup
    have hset : s.posted.modify i (fun p => { p with frees := p.frees + 1 }) =
        s.posted.set i { p with frees := p.frees + 1 } := by
      rw [List.modify_eq_set_getElem?, hp]
      rfl
    have hstage := h.stage i p hp
    cases hstage with
    | called k' c status request completion processed callback calls frees _ =>
      have hfreed : ∀ m, Stage m (i ∈ returning.map Prod.fst) { p with frees := p.frees + 1 } := by
        intro m
        refine .freed k status hptr completion processed calls (by simp [frees]) ?_ hnodup.1
        intro hnone
        rw [callback] at hnone
        cases hnone
      have hothers : ∀ j, j ≠ i →
          (j ∈ returning.map Prod.fst ↔ j ∈ s.returning.map Prod.fst) := by
        intro j hj
        simp [hreturning, hj]
      have hinner : ∀ e ∈ returning, e ∈ s.returning := by
        intro e he
        rw [hreturning]
        exact List.mem_cons_of_mem _ he
      obtain ⟨m, hm, hinv⟩ := h.releases hp ⟨hptr, frees⟩ hfreed rfl (by simp [frees]) hothers
        hinner hnodup.2
      refine ⟨_, ?_, hinv⟩
      rw [System.callbackReturns, hreturning]
      simp only [hm, hset]
      rfl
    | unprocessed atOnce processed calls frees returned => exact absurd hin returned
    | done status result atOnce outcome processed calls frees returned => exact absurd hin returned
    | posted k' request completion processed slot calls frees waited returned =>
      exact absurd hin returned
    | early k' status request completion ended processed slot calls frees returned =>
      exact absurd hin returned
    | pending k' result request completion processed slot calls frees waited returned =>
      exact absurd hin returned
    | kept k' status result request completion ended processed callback slot calls frees waited
        returned => exact absurd hin returned
    | freed k' status request completion processed calls frees user returned =>
      exact absurd hin returned

theorem wait_inv {result : Option DocaError} (h : Inv s) (hp : s.posted[i]? = some p)
    (huser : p.operation.callback = none) (hprocessed : p.processed = some (result, some k))
    (hwaited : p.waited = false) : ∃ s', s.wait i p = some s' ∧ Inv s' := by
  have hstage := h.stage i p hp
  cases hstage with
  | unprocessed atOnce processed =>
    rw [hprocessed] at processed
    cases processed
  | done status result' atOnce outcome processed =>
    rw [hprocessed] at processed
    cases processed
  | posted k' request completion processed =>
    rw [hprocessed] at processed
    cases processed
  | early k' status request completion ended processed =>
    rw [hprocessed] at processed
    cases processed
  | called k' c status request completion processed callback =>
    rw [huser] at callback
    cases callback
  | freed k' status request completion processed calls frees user returned =>
    rw [user huser result k hprocessed] at hwaited
    cases hwaited
  | pending k' result' request completion processed slot calls frees waited returned =>
    cases hprocessed.symm.trans processed
    refine ⟨s, ?_, h⟩
    simp [System.wait, hprocessed, slot]
  | kept k' status result' request completion ended processed callback slot calls frees waited
      returned =>
    cases hprocessed.symm.trans processed
    have hfreed : ∀ m, Stage m (i ∈ s.returning.map Prod.fst)
        { p with waited := true, frees := p.frees + 1 } := by
      intro m
      refine .freed k status request completion (by simp [hprocessed]) ?_ (by simp [frees])
        (fun _ _ _ _ => rfl) returned
      rw [calls, told, callback]
      rfl
    obtain ⟨m, hm, hinv⟩ := h.releases hp ⟨request, frees⟩ hfreed rfl (by simp [frees])
      (fun _ _ => Iff.rfl) (fun e he => he) h.nodup
    refine ⟨_, ?_, hinv⟩
    rw [System.wait, hprocessed]
    simp only [slot, if_neg ended, hm]
    rfl

/-- No step that can be taken fails an assertion or uses a request that was not handed out. -/
theorem step_inv (h : Inv s) (ha : Enabled s a) : ∃ s', step s a = some s' ∧ Inv s' := by
  cases a with
  | post operation ptrStatus => exact ⟨_, rfl, post_inv h operation ptrStatus ha⟩
  | refuse operation => exact ⟨_, rfl, refuse_inv h operation⟩
  | complete i status =>
    obtain ⟨hended, p, k, hp, hptr, hnone⟩ := ha
    simp only [step, hp]
    exact complete_inv h hp hptr hnone hended
  | process i =>
    obtain ⟨p, hp, hnone⟩ := ha
    simp only [step, hp]
    exact process_inv h hp hnone
  | callbackReturns => exact callbackReturns_inv h
  | wait i =>
    obtain ⟨p, result, k, hp, huser, hprocessed, hwaited⟩ := ha
    simp only [step, hp]
    exact wait_inv h hp huser hprocessed hwaited

/-- The operation has ended and `request_process` has seen it. -/
def Finished (p : Posted) (status : UcsStatus) : Prop :=
  p.processed ≠ none ∧ outcome p = some status

theorem Finished.unique {status' : UcsStatus} (h : Finished p status) (h' : Finished p status') :
    status = status' := Option.some.inj (h.2.symm.trans h'.2)

/-- What the user finds in `*request_p`: the request of an operation that has not ended yet. -/
def given (p : Posted) : Option Nat :=
  match p.ptrStatus with
  | .request k => if p.completion = none then some k else none
  | _ => none

def send (callback : Option Nat) : Operation := ⟨.amSend, 1, 1, callback, some 7, true, by decide⟩

end DocaApps.Proofs.UcxRequests
