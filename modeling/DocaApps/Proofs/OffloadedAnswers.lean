import DocaApps.Allreduce.Offloaded
import DocaApps.Proofs.MemPool
import DocaApps.Lib.KeyedList

namespace DocaApps.Proofs.OffloadedAnswers
open Lib.Command Lib.KeyedList Allreduce.MemPool Allreduce.Core Allreduce.Client Allreduce.Offloaded
open Proofs.MemPool

variable {w : Nat} {cfg : Config} {s t : OffloadedClient w} {p : Participant w}
  {sr : SuperRequest} {addr id : Nat}

section Core

/-- A super-request of an offloaded client has nothing but its result vector, which belongs to the
user. -/
structure Plain (sr : SuperRequest) : Prop where
  owner : sr.resultVectorOwner = false
  result : sr.resultVector ≠ none
  peer : sr.peerResultVector = none
  recv : sr.recvVectors = none
  requests : sr.numAllreduceRequests = 0

theorem superOf_run (h : p.hash.find? (fun sr => sr.addr = addr) = some sr) :
    superOf addr p = .ok sr p := by
  rw [superOf, run_get, h]
  rfl

theorem superRequestGet_run {len : Nat} {rv : Option Loc} : superRequestGet cfg id len rv p =
    (match p.hash.find? (fun sr => sr.id = id) with
    | some sr => pure (some sr.addr)
    | none => do
      match ← superRequestAllocate cfg id len rv with
      | none => pure none
      | some sr =>
        modify fun s => { s with hash := sr :: s.hash }
        pure (some sr.addr) : Cmd w (Option Nat)) p := rfl

theorem superRequestGet_known {len : Nat} {rv : Option Loc}
    (h : p.hash.find? (fun sr => sr.id = id) = some sr) :
    superRequestGet cfg id len rv p = .ok (some sr.addr) p := by
  rw [superRequestGet_run, h]
  rfl

/-- The super-request that `allreduce_super_request_get` makes. -/
def fresh (cfg : Config) (addr id len : Nat) (rv : Option Loc) : SuperRequest :=
  { addr, id
    requestsList := []
    numAllreduceRequests := 0
    numAllreduceOperations := 2 * cfg.numPeers + 1
    resultVectorOwner := rv.isNone
    resultVector := rv
    peerResultVector := none
    recvVectorIter := 0
    recvVectors := none
    recvArray := []
    resultVectorSize := len }

/-- The process after its pool of super-requests changed. -/
def withPool (p : Participant w) (mp : Mpool) (heap : Heap) : Participant w :=
  { p with pools := Function.update p.pools .superReqs mp, heap }

theorem superRequestGet_refused (cfg : Config) (len : Nat) (rv : Option Loc) {mp : Mpool}
    {heap : Heap}
    (h : p.hash.find? (fun sr => sr.id = id) = none)
    (haloc : alocVec (p.pools .superReqs) p.heap = .ok (none, mp, heap)) :
    superRequestGet cfg id len rv p = .ok none (withPool p mp heap) := by
  have hallocate : superRequestAllocate cfg id len rv p = .ok none (withPool p mp heap) := by
    have hfrom : alocVecFrom .superReqs p = .ok none (withPool p mp heap) := by
      simp only [alocVecFrom, haloc]
      rfl
    rw [superRequestAllocate, run_bind hfrom]
    rfl
  rw [superRequestGet_run, h]
  dsimp only
  rw [run_bind hallocate]
  rfl

theorem superRequestGet_fresh (len : Nat) (rv : Option Loc) {mp : Mpool} {heap : Heap}
    (hpeers : cfg.numPeers ≤ 1) (h : p.hash.find? (fun sr => sr.id = id) = none)
    (haloc : alocVec (p.pools .superReqs) p.heap = .ok (some addr, mp, heap)) :
    superRequestGet cfg id len rv p = .ok (some addr)
      { withPool p mp heap with hash := fresh cfg addr id len rv :: p.hash } := by
  have hallocate : superRequestAllocate cfg id len rv p =
      .ok (some (fresh cfg addr id len rv)) (withPool p mp heap) := by
    have hfrom : alocVecFrom .superReqs p = .ok (some addr) (withPool p mp heap) := by
      simp only [alocVecFrom, haloc]
      rfl
    have hrecv : alocRecvVectors cfg (withPool p mp heap) =
        .ok (some none) (withPool p mp heap) := by
      rw [alocRecvVectors, if_pos hpeers]
      rfl
    rw [superRequestAllocate, run_bind hfrom]
    dsimp only
    rw [run_bind hrecv]
    rfl
  rw [superRequestGet_run, h]
  dsimp only
  rw [run_bind hallocate]
  rfl

theorem freeVecsTo_nil (name : PoolName) : freeVecsTo name [] p = .ok () p := by
  simp only [freeVecsTo, freeVecs, Function.update_eq_self]

/-- The process without the super-request of an operation. -/
def closed (p : Participant w) (mp : Mpool) (id : Nat) : Participant w :=
  { withPool p mp p.heap with
    hash := p.hash.filter fun sr => sr.id ≠ id
    log := { p.log with finished := p.log.finished ++ [id] } }

theorem superRequestFinish_plain {mp : Mpool}
    (h : p.hash.find? (fun sr => sr.id = id) = some sr) (hplain : Plain sr)
    (hfree : freeVec (p.pools .superReqs) sr.addr = .ok mp) :
    superRequestFinish id p = .ok () (closed p mp id) := by
  have hrun : superRequestFinish id p =
      (match p.hash.find? (fun sr => sr.id = id) with
      | none => pure ()
      | some sr => do
        modify fun s => { s with hash := s.hash.filter fun sr => sr.id ≠ id }
        note fun log => { log with finished := log.finished ++ [id] }
        superRequestDestroy sr : Cmd w Unit) p := rfl
  have hdestroy : ∀ q : Participant w, q.pools = p.pools → q.heap = p.heap →
      superRequestDestroy sr q = .ok () (withPool q mp q.heap) := by
    intro q hpools hheap
    have hresult : freeResultVector sr q = .ok () q := by
      rw [freeResultVector, hplain.owner]
      cases sr.resultVector <;> rfl
    have hvec : freeVecTo .superReqs sr.addr q = .ok () (withPool q mp q.heap) := by
      simp only [freeVecTo, freeVecsTo, freeVecs, hpools, hfree, withPool]
    rw [superRequestDestroy, run_bind hresult, hplain.peer, hplain.recv, hplain.requests]
    refine (run_bind (freeVecsTo_nil .vecs)).trans ?_
    refine (run_bind (freeVecsTo_nil .bufs)).trans ?_
    exact hvec
  rw [hrun, h]
  exact hdestroy _ rfl rfl

theorem clientDone_plain {mp : Mpool} (hpos : p.clientActive ≠ 0)
    (h : p.hash.find? (fun sr => sr.id = id) = some sr) (hplain : Plain sr)
    (hfree : freeVec (p.pools .superReqs) sr.addr = .ok mp) :
    clientDone id p = .ok () { closed p mp id with clientActive := p.clientActive - 1 } := by
  have hrun : clientDone id p = (if p.clientActive = 0 then throw .underflow
    else do
      set { p with clientActive := p.clientActive - 1 }
      superRequestFinish id : Cmd w Unit) p := rfl
  rw [hrun, if_neg hpos]
  exact superRequestFinish_plain (p := { p with clientActive := p.clientActive - 1 }) h hplain hfree

end Core

section Client

/-- The hash holds the operations that are not answered, each with an object of its own, and the
counter counts them. -/
structure Tidy (cfg : Config) (s : OffloadedClient w) : Prop where
  pool : PoolOk (s.proc.pools .superReqs) s.proc.heap.next
    (s.proc.hash.map SuperRequest.addr : Multiset Nat)
  room : cfg.batchSize ≠ 0 → 0 < (s.proc.pools .superReqs).size
  ids : (s.proc.hash.map SuperRequest.id).Perm s.submitted
  nodup : s.submitted.Nodup
  below : ∀ id ∈ s.submitted, id < s.proc.nextId
  plain : ∀ sr ∈ s.proc.hash, Plain sr
  active : s.proc.clientActive = s.submitted.length
  started : (s.answers.map Answer.superRequest).Nodup
  answers : ∀ a ∈ s.answers,
    a.buffer ≠ none ∧ a.superRequest ∈ s.proc.hash.map SuperRequest.addr

theorem onProc_run {α : Type} {c : Cmd w α} {a : α} {q : Participant w}
    (h : c s.proc = .ok a q) : onProc c s = .ok a { s with proc := q } := by
  simp only [onProc, h]

theorem onProc_modify (f : Participant w → Participant w) :
    onProc (modify f) s = .ok () { s with proc := f s.proc } := rfl

theorem noteSubmitted_run (f : List Nat → List Nat) :
    noteSubmitted f s = .ok () { s with submitted := f s.submitted } := rfl

theorem Tidy.ids_nodup (h : Tidy cfg s) : (s.proc.hash.map SuperRequest.id).Nodup :=
  h.ids.nodup_iff.mpr h.nodup

theorem Tidy.addrs_nodup (h : Tidy cfg s) : (s.proc.hash.map SuperRequest.addr).Nodup :=
  Multiset.coe_nodup.mp (Multiset.nodup_add.mp h.pool.nodup).2.1

theorem Tidy.mem_iff (h : Tidy cfg s) : id ∈ s.submitted ↔ ∃ sr ∈ s.proc.hash, sr.id = id := by
  rw [← h.ids.mem_iff, List.mem_map]

/-- An answer to an operation ends it. -/
theorem clientRecvDataComplete_tidy (h : Tidy cfg s) (hsr : sr ∈ s.proc.hash)
    (hlast : ∀ a ∈ s.answers, a.superRequest ≠ sr.addr) :
    ∃ t, clientRecvDataComplete sr.addr s = .ok () t ∧ Tidy cfg t := by
  have hids := perm_cons_filter h.ids_nodup hsr
  have haddrs : (s.proc.hash.map SuperRequest.addr : Multiset Nat) = sr.addr ::ₘ
      ((s.proc.hash.filter fun x => x.id ≠ sr.id).map SuperRequest.addr : Multiset Nat) := by
    rw [Multiset.cons_coe, Multiset.coe_eq_coe]
    exact hids.map SuperRequest.addr
  have hpool := h.pool
  rw [haddrs] at hpool
  obtain ⟨mp, hfree, hmp, hsize⟩ := freeVec_ok hpool
  have hmem : sr.id ∈ s.submitted := h.mem_iff.mpr ⟨sr, hsr, rfl⟩
  have hpos : s.proc.clientActive ≠ 0 := by
    rw [h.active]
    exact Nat.ne_of_gt (List.length_pos_of_mem hmem)
  have hsuper : superOf sr.addr s.proc = .ok sr s.proc :=
    superOf_run (find_key h.addrs_nodup hsr)
  have hdone := clientDone_plain hpos (find_key h.ids_nodup hsr) (h.plain sr hsr) hfree
  refine ⟨{ s with
    proc := { closed s.proc mp sr.id with clientActive := s.proc.clientActive - 1 }
    submitted := s.submitted.erase sr.id }, ?_, ?_⟩
  · rw [clientRecvDataComplete, run_bind (onProc_run hsuper), run_bind (onProc_run hdone)]
    rfl
  · have hpools : (closed s.proc mp sr.id).pools .superReqs = mp := by
      simp only [closed, withPool, Function.update_self]
    refine ⟨?_, ?_, ?_, h.nodup.erase _, ?_, ?_, ?_, h.started, ?_⟩
    · rw [hpools]
      exact hmp
    · intro hbatch
      rw [hpools, hsize]
      exact h.room hbatch
    · have hperm := (h.ids.symm.trans (hids.map SuperRequest.id)).erase sr.id
      rw [List.map_cons, List.erase_cons_head] at hperm
      exact hperm.symm
    · intro id hid
      exact h.below id (List.mem_of_mem_erase hid)
    · intro x hx
      exact h.plain x (List.mem_of_mem_filter hx)
    · rw [List.length_erase_of_mem hmem, ← h.active]
    · intro a ha
      obtain ⟨hbuffer, hin⟩ := h.answers a ha
      refine ⟨hbuffer, ?_⟩
      have hin' := (hids.map SuperRequest.addr).mem_iff.mp hin
      rw [List.map_cons, List.mem_cons] at hin'
      exact hin'.resolve_left (hlast a ha)

theorem setResultVector_run {slot n : Nat} (h : ∀ sr ∈ p.hash, sr.resultVector ≠ none) :
    setResultVector addr slot n p = .ok () p := by
  have hmap : (p.hash.map fun sr => if sr.addr = addr then
      if sr.resultVector = none then { sr with
        resultVector := some (.user slot)
        resultVectorOwner := false
        resultVectorSize := n }
      else sr else sr) = p.hash := by
    conv_rhs => rw [← List.map_id p.hash]
    apply List.map_congr_left
    intro sr hsr
    rw [if_neg (h sr hsr), ite_self]
    rfl
  have hrun : setResultVector addr slot n p = .ok () { p with
      hash := p.hash.map fun sr => if sr.addr = addr then
        if sr.resultVector = none then { sr with
          resultVector := some (.user slot)
          resultVectorOwner := false
          resultVectorSize := n }
        else sr else sr } := rfl
  rw [hrun, hmap]

/-- A new operation in the hash, counted in. -/
theorem Tidy.submit {mp : Mpool} {heap : Heap} {len slot : Nat} (h : Tidy cfg s)
    (htaken : Taken (s.proc.pools .superReqs) s.proc.heap
      (s.proc.hash.map SuperRequest.addr : Multiset Nat) (some addr) mp heap)
    (remaining : Nat) :
    Tidy cfg { s with
      proc := { s.proc with
        pools := Function.update s.proc.pools .superReqs mp
        heap
        hash := fresh cfg addr s.proc.nextId len (some (.user slot)) :: s.proc.hash
        clientActive := s.proc.clientActive + 1
        nextId := s.proc.nextId + 1
        remaining }
      submitted := s.submitted ++ [s.proc.nextId] } := by
  have hmp : Function.update s.proc.pools .superReqs mp .superReqs = mp :=
    Function.update_self PoolName.superReqs mp s.proc.pools
  have hnew : s.proc.nextId ∉ s.submitted := fun hmem => Nat.lt_irrefl _ (h.below _ hmem)
  refine ⟨?_, ?_, ?_, ?_, ?_, ?_, ?_, h.started, ?_⟩
  · dsimp only
    rw [hmp]
    exact htaken.ok
  · intro hbatch
    dsimp only
    rw [hmp]
    exact Nat.lt_of_lt_of_le (h.room hbatch) htaken.size
  · exact (h.ids.cons s.proc.nextId).trans (List.perm_append_singleton _ _).symm
  · exact (List.perm_append_singleton _ _).nodup_iff.mpr (List.nodup_cons.mpr ⟨hnew, h.nodup⟩)
  · intro id hid
    rcases List.mem_append.mp hid with hold | hlast
    · exact Nat.lt_succ_of_lt (h.below id hold)
    · rw [List.mem_singleton.mp hlast]
      exact Nat.lt_succ_self _
  · intro sr hsr
    rcases List.mem_cons.mp hsr with rfl | hold
    · exact ⟨rfl, Option.some_ne_none _, rfl, rfl, rfl⟩
    · exact h.plain sr hold
  · rw [List.length_append, ← h.active]
    rfl
  · intro a ha
    obtain ⟨hbuffer, hin⟩ := h.answers a ha
    exact ⟨hbuffer, List.mem_cons_of_mem _ hin⟩

theorem Tidy.refused {mp : Mpool} {heap : Heap} (h : Tidy cfg s)
    (hok : PoolOk mp heap.next (s.proc.hash.map SuperRequest.addr : Multiset Nat))
    (hsize : (s.proc.pools .superReqs).size ≤ mp.size) {nextId : Nat}
    (hnext : s.proc.nextId ≤ nextId) (remaining : Nat) :
    Tidy cfg { s with proc := { s.proc with
      pools := Function.update s.proc.pools .superReqs mp, heap, nextId, remaining } } := by
  have hmp : Function.update s.proc.pools .superReqs mp .superReqs = mp :=
    Function.update_self PoolName.superReqs mp s.proc.pools
  refine ⟨?_, ?_, h.ids, h.nodup, ?_, h.plain, h.active, h.started, h.answers⟩
  · dsimp only
    rw [hmp]
    exact hok
  · intro hbatch
    dsimp only
    rw [hmp]
    exact Nat.lt_of_lt_of_le (h.room hbatch) hsize
  · intro id hid
    exact Nat.lt_of_lt_of_le (h.below id hid) hnext

/-- Sending the vector leaves the bookkeeping alone. -/
theorem offloadedSubmit_tidy {daemon : Nat} (hconn : cfg.connections = [daemon]) (h : Tidy cfg s)
    (hsr : sr ∈ s.proc.hash) :
    ∃ t, onProc (offloadedSubmit cfg sr.addr) s = .ok () t ∧ Tidy cfg t := by
  obtain ⟨loc, hloc⟩ := Option.ne_none_iff_exists'.mp (h.plain sr hsr).result
  have hsend : offloadedSubmit cfg sr.addr s.proc = .ok () { s.proc with
      outbox := s.proc.outbox ++ [⟨.peer daemon, sr.id, sr.resultVectorSize, s.proc.mem loc⟩] } := by
    rw [offloadedSubmit, hconn]
    dsimp only
    rw [run_bind (superOf_run (find_key h.addrs_nodup hsr)), hloc]
    rfl
  exact ⟨_, onProc_run hsend, h.pool, h.room, h.ids, h.nodup, h.below, h.plain, h.active, h.started,
    h.answers⟩

theorem batchSubmitNext_tidy (hpeers : cfg.connections.length = 1) (h : Tidy cfg s)
    (hbatch : cfg.batchSize ≠ 0) :
    ∃ t, batchSubmitNext cfg s = .ok () t ∧ Tidy cfg t := by
  obtain ⟨daemon, hconn⟩ := List.length_eq_one_iff.mp hpeers
  have hfind : s.proc.hash.find? (fun sr => sr.id = s.proc.nextId) = none := by
    refine find_none ?_
    intro hmem
    exact Nat.lt_irrefl _ (h.below _ (h.ids.mem_iff.mp hmem))
  obtain ⟨vec, mp, heap, haloc, htaken⟩ := alocVec_taken h.pool (h.room hbatch)
  have hcount : onProc (set { s.proc with
      nextId := s.proc.nextId + 1, remaining := s.proc.remaining - 1 }) s = .ok () { s with
        proc := { s.proc with
          nextId := s.proc.nextId + 1, remaining := s.proc.remaining - 1 } } := rfl
  rw [Allreduce.Offloaded.batchSubmitNext, run_get, run_bind hcount, if_neg hbatch]
  cases vec with
  | none =>
    have hget := superRequestGet_refused cfg s.proc.batchVectorSize
      (some (.user (s.proc.nextId % cfg.batchSize))) (p := { s.proc with
        nextId := s.proc.nextId + 1, remaining := s.proc.remaining - 1 }) hfind haloc
    rw [run_bind (onProc_run hget)]
    exact ⟨_, rfl, h.refused htaken.ok htaken.size (Nat.le_succ _) _⟩
  | some addr =>
    have hget := superRequestGet_fresh s.proc.batchVectorSize
      (some (.user (s.proc.nextId % cfg.batchSize))) (p := { s.proc with
        nextId := s.proc.nextId + 1, remaining := s.proc.remaining - 1 })
      (Nat.le_of_eq hpeers) hfind haloc
    rw [run_bind (onProc_run hget)]
    dsimp only
    rw [run_bind (onProc_run (setResultVector_run ?_)), run_bind (onProc_modify _),
      run_bind (noteSubmitted_run _)]
    · exact offloadedSubmit_tidy hconn (h.submit htaken (s.proc.remaining - 1)) List.mem_cons_self
    · intro sr hsr
      rcases List.mem_cons.mp hsr with rfl | hold
      · exact Option.some_ne_none _
      · exact (h.plain sr hold).result

theorem copyData_tidy {buffer : Option Loc} (length : Nat) (data : Nat → BitVec w)
    (h : Tidy cfg s) (hbuffer : buffer ≠ none) :
    ∃ mem, onProc (copyData buffer length data) s = .ok () { s with proc := { s.proc with mem } } ∧
      Tidy cfg { s with proc := { s.proc with mem } } := by
  obtain ⟨loc, rfl⟩ := Option.ne_none_iff_exists'.mp hbuffer
  exact ⟨_, rfl, h.pool, h.room, h.ids, h.nodup, h.below, h.plain, h.active, h.started, h.answers⟩

/-- The pool of super-requests has no free element and gets no new one. -/
def CannotGrow (s : OffloadedClient w) : Prop :=
  (s.proc.pools .superReqs).head = (s.proc.pools .superReqs).size ∧
    (s.proc.pools .superReqs).size ≠ 0 ∧
    (s.proc.heap.grants.headD (some (s.proc.pools .superReqs).size)).getD 0 = 0

/-- A message answers an operation that waits and has no receive under way, or nothing can be
made of it. -/
def Expected (s : OffloadedClient w) : Event w → Prop
  | .message msg =>
    (∃ sr ∈ s.proc.hash, sr.id = msg.id ∧ ∀ a ∈ s.answers, a.superRequest ≠ sr.addr) ∨
      msg.id ∉ s.submitted ∧ CannotGrow s
  | _ => True

variable {msg : CtrlMsg w}

theorem alocVec_refused (h : CannotGrow s) :
    alocVec (s.proc.pools .superReqs) s.proc.heap = .ok (none, s.proc.pools .superReqs,
      { s.proc.heap with grants := s.proc.heap.grants.tail }) := by
  obtain ⟨hfull, hsize, hgrant⟩ := h
  rw [alocVec, if_pos hfull, if_neg hsize]
  cases hhead : s.proc.heap.grants.headD (some (s.proc.pools .superReqs).size) with
  | none => rfl
  | some n =>
    rw [hhead] at hgrant
    obtain rfl : n = 0 := hgrant
    dsimp only
    rw [if_pos (Nat.pos_of_ne_zero hsize), Nat.zero_min]
    simp only [Mpool.extend, List.range'_zero, List.append_nil, Nat.add_zero]

theorem clientRecvCtrl_refused (h : Tidy cfg s) (hid : msg.id ∉ s.submitted)
    (hpool : CannotGrow s) :
    clientRecvCtrl cfg msg s = .ok (.error .notFound) { s with proc := { s.proc with
      heap := { s.proc.heap with grants := s.proc.heap.grants.tail } } } := by
  have hfind : s.proc.hash.find? (fun sr => sr.id = msg.id) = none :=
    find_none fun hmem => hid (h.ids.mem_iff.mp hmem)
  have hget := superRequestGet_refused cfg msg.length none hfind (alocVec_refused hpool)
  rw [clientRecvCtrl, run_bind (onProc_run hget), withPool, Function.update_eq_self]
  rfl

theorem clientRecvCtrl_known (h : Tidy cfg s) (hsr : sr ∈ s.proc.hash) (hid : sr.id = msg.id)
    (hfirst : ∀ a ∈ s.answers, a.superRequest ≠ sr.addr) :
    ∃ t, clientRecvCtrl cfg msg s = .ok (.ok ()) t ∧ Tidy cfg t := by
  have hget : superRequestGet cfg msg.id msg.length none s.proc = .ok (some sr.addr) s.proc := by
    rw [← hid]
    exact superRequestGet_known (find_key h.ids_nodup hsr)
  have hsuper : superOf sr.addr s.proc = .ok sr s.proc :=
    superOf_run (find_key h.addrs_nodup hsr)
  rw [clientRecvCtrl, run_bind (onProc_run hget)]
  dsimp only
  rw [run_bind (onProc_run hsuper)]
  by_cases hrndv : msg.rndv = true
  · rw [if_pos hrndv]
    refine ⟨_, rfl, h.pool, h.room, h.ids, h.nodup, h.below, h.plain, h.active, ?_, ?_⟩
    · dsimp only
      rw [List.map_append, List.nodup_append]
      refine ⟨h.started, List.nodup_singleton _, ?_⟩
      intro a ha b hb
      obtain ⟨answer, hanswer, rfl⟩ := List.mem_map.mp ha
      rw [List.map_singleton, List.mem_singleton] at hb
      rw [hb]
      exact hfirst answer hanswer
    · intro a ha
      rcases List.mem_append.mp ha with hold | hnew
      · exact h.answers a hold
      · rw [List.mem_singleton.mp hnew]
        exact ⟨(h.plain sr hsr).result, List.mem_map_of_mem hsr⟩
  · rw [if_neg hrndv]
    obtain ⟨mem, hcopy, hmem⟩ := copyData_tidy msg.length msg.data h
      (h.plain sr hsr).result
    obtain ⟨t, hdone, ht⟩ := clientRecvDataComplete_tidy hmem hsr hfirst
    refine ⟨t, ?_, ht⟩
    rw [run_bind hcopy, run_bind hdone]
    rfl

theorem answerDone_tidy {i : Nat} (h : Tidy cfg s) (hi : i < s.answers.length) :
    ∃ t, answerDone i s = .ok () t ∧ Tidy cfg t := by
  have hget : s.answers[i]? = some s.answers[i] := List.getElem?_eq_getElem hi
  obtain ⟨hbuffer, hin⟩ := h.answers _ (List.getElem_mem hi)
  obtain ⟨sr, hsr, haddr⟩ := List.mem_map.mp hin
  have hperm := (List.getElem_cons_eraseIdx_perm hi).map Answer.superRequest
  have hstarted := hperm.nodup_iff.mpr h.started
  rw [List.map_cons, List.nodup_cons] at hstarted
  have hremoved : Tidy cfg { s with answers := s.answers.eraseIdx i } :=
    ⟨h.pool, h.room, h.ids, h.nodup, h.below, h.plain, h.active, hstarted.2,
      fun a ha => h.answers a (List.mem_of_mem_eraseIdx ha)⟩
  obtain ⟨mem, hcopy, hmem⟩ := copyData_tidy s.answers[i].length s.answers[i].data
    hremoved hbuffer
  obtain ⟨t, hdone, ht⟩ := clientRecvDataComplete_tidy hmem hsr (by
    intro a ha heq
    rw [haddr] at heq
    exact hstarted.1 (heq ▸ List.mem_map_of_mem ha))
  refine ⟨t, ?_, ht⟩
  rw [haddr] at hdone
  rw [answerDone, run_get, hget]
  exact (run_bind hcopy).trans hdone

/-- Along expected events the bookkeeping stays in order, and the counter never goes below zero. -/
theorem handle_tidy {e : Event w} (hpeers : cfg.connections.length = 1) (h : Tidy cfg s)
    (henabled : Enabled s e) (hexpected : Expected s e) :
    (∃ t, handle cfg e s = .error .divideByZero t) ∨ ∃ t, handle cfg e s = .ok () t ∧ Tidy cfg t := by
  cases e with
  | batchStart vectors =>
    exact .inr ⟨_, rfl, h.pool, h.room, h.ids, h.nodup, h.below, h.plain, h.active, h.started,
      h.answers⟩
  | submit =>
    by_cases hbatch : cfg.batchSize = 0
    · refine .inl ⟨{ s with proc := { s.proc with
        nextId := s.proc.nextId + 1, remaining := s.proc.remaining - 1 } }, ?_⟩
      exact congrFun (if_pos hbatch) _
    · exact .inr (batchSubmitNext_tidy hpeers h hbatch)
  | message msg =>
    rcases hexpected with ⟨sr, hsr, hid, hfirst⟩ | ⟨hid, hpool⟩
    · obtain ⟨t, hrun, ht⟩ := clientRecvCtrl_known h hsr hid hfirst
      exact .inr ⟨t, run_bind hrun, ht⟩
    · exact .inr ⟨_, run_bind (clientRecvCtrl_refused h hid hpool), h.pool, h.room, h.ids, h.nodup,
        h.below, h.plain, h.active, h.started, h.answers⟩
  | answerDone i => exact .inr (answerDone_tidy h henabled)

/-- A message with an id that no operation waits for is refused, and the tables stay. -/
def RefusesUnknown (cfg : Config) (s : OffloadedClient w) (msg : CtrlMsg w) : Prop :=
  msg.id ∉ s.submitted → ∃ t, clientRecvCtrl cfg msg s = .ok (.error .notFound) t ∧
    t.proc.hash = s.proc.hash ∧ t.proc.pools = s.proc.pools ∧
    t.proc.clientActive = s.proc.clientActive

/-- Once there is a super-request the message is taken. -/
theorem clientRecvCtrl_taken {q : Participant w} {r : Except DocaError Unit}
    (hget : superRequestGet cfg msg.id msg.length none s.proc = .ok (some addr) q)
    (h : clientRecvCtrl cfg msg s = .ok r t) : r = .ok () := by
  rw [clientRecvCtrl, run_bind (onProc_run hget)] at h
  dsimp only at h
  obtain ⟨sr, s₁, hsuper, h1⟩ := bind_eq_ok.mp h
  split at h1
  · obtain ⟨_, s₂, hmodify, h2⟩ := bind_eq_ok.mp h1
    injection h2 with h2
    exact h2.symm
  · obtain ⟨_, s₂, hcopy, h2⟩ := bind_eq_ok.mp h1
    obtain ⟨_, s₃, hdone, h3⟩ := bind_eq_ok.mp h2
    injection h3 with h3
    exact h3.symm

theorem alocVec_none {mp mp' : Mpool} {heap heap' : Heap} (hsize : mp.size ≠ 0)
    (h : alocVec mp heap = .ok (none, mp', heap')) (hsame : mp' = mp) :
    mp.head = mp.size ∧ (heap.grants.headD (some mp.size)).getD 0 = 0 := by
  unfold alocVec at h
  split at h
  · rename_i hfull
    refine ⟨hfull, ?_⟩
    cases hgrant : heap.grants.headD (some mp.size) with
    | none => rfl
    | some n =>
      rw [hgrant] at h
      dsimp only at h
      split at h
      · rename_i hless
        simp only [Except.ok.injEq, Prod.mk.injEq, true_and] at h
        have hgrown : mp'.size = mp.size + min n mp.size := by
          rw [← h.1]
          simp only [Mpool.extend, Mpool.size, List.length_append, List.length_range']
        rw [hsame] at hgrown
        exact (by omega : n = 0)
      · split at h
        · cases h
        · cases h
  · split at h
    · cases h
    · cases h

theorem refusesUnknown_iff (hpeers : cfg.connections.length = 1) (h : Tidy cfg s) :
    RefusesUnknown cfg s msg ↔ msg.id ∈ s.submitted ∨ CannotGrow s := by
  by_cases hid : msg.id ∈ s.submitted
  · exact iff_of_true (fun hnot => absurd hid hnot) (.inl hid)
  rw [or_iff_right hid]
  constructor
  · intro hrefuses
    obtain ⟨t, hrun, -, hpools, -⟩ := hrefuses hid
    have hfind : s.proc.hash.find? (fun sr => sr.id = msg.id) = none :=
      find_none fun hmem => hid (h.ids.mem_iff.mp hmem)
    have hkept : ∀ mp heap, alocVec (s.proc.pools .superReqs) s.proc.heap = .ok (none, mp, heap) →
        mp = s.proc.pools .superReqs := by
      intro mp heap haloc
      have hget := superRequestGet_refused cfg msg.length none hfind haloc
      rw [clientRecvCtrl, run_bind (onProc_run hget)] at hrun
      injection hrun with _ hrun
      rw [← hpools, ← hrun]
      exact (Function.update_self PoolName.superReqs mp s.proc.pools).symm
    by_cases hsize : (s.proc.pools .superReqs).size = 0
    · have hdangling := congrArg Mpool.dangling (hkept _ _ (alocVec_empty h.pool hsize))
      rw [h.pool.intact] at hdangling
      cases hdangling
    · obtain ⟨vec, mp, heap, haloc, -⟩ := alocVec_taken h.pool (Nat.pos_of_ne_zero hsize)
      cases vec with
      | none =>
        obtain ⟨hfull, hgrant⟩ := alocVec_none hsize haloc (hkept mp heap haloc)
        exact ⟨hfull, hsize, hgrant⟩
      | some addr =>
        have hget := superRequestGet_fresh msg.length none (Nat.le_of_eq hpeers) hfind haloc
        cases clientRecvCtrl_taken hget hrun
  · intro hpool _
    exact ⟨_, clientRecvCtrl_refused h hid hpool, rfl, rfl, rfl⟩

theorem start_tidy (cfg : Config) (grants : List (Option Nat)) (mem : Loc → Nat → BitVec w) :
    Tidy cfg (start cfg grants mem) where
  pool := createMpool_ok ⟨0, grants⟩ (2 * cfg.batchSize)
  room := by
    intro hbatch
    change 0 < (List.range' 0 (2 * cfg.batchSize)).length
    rw [List.length_range']
    omega
  ids := List.Perm.refl _
  nodup := List.nodup_nil
  below := by
    intro id hid
    cases hid
  plain := by
    intro sr hsr
    cases hsr
  active := rfl
  started := List.nodup_nil
  answers := by
    intro a ha
    cases ha

end Client

section Run

/-- The states of a client, when every event meets a condition. -/
inductive Reach (cfg : Config) (ok : OffloadedClient w → Event w → Prop) :
    OffloadedClient w → Prop where
  | start (grants : List (Option Nat)) (mem : Loc → Nat → BitVec w) :
      Reach cfg ok (start cfg grants mem)
  | step {s t : OffloadedClient w} {e : Event w} (hs : Reach cfg ok s) (henabled : Enabled s e)
      (he : ok s e) (ht : handle cfg e s = .ok () t) : Reach cfg ok t

theorem Reach.tidy (hpeers : cfg.connections.length = 1) (h : Reach cfg Expected s) :
    Tidy cfg s := by
  induction h with
  | start grants mem => exact start_tidy cfg grants mem
  | step hs henabled he ht ih =>
    rcases handle_tidy hpeers ih henabled he with ⟨t', hrun⟩ | ⟨t', hrun, htidy⟩
    · rw [hrun] at ht
      cases ht
    · rw [hrun] at ht
      injection ht with _ ht
      exact ht ▸ htidy

/-- As long as every message is an expected one, the counter is the number of the operations that
wait for their answers and does not go below zero, and a message for none of them is refused
exactly when no super-request can be made for it. -/
theorem unknown_message_refused_iff (hpeers : cfg.connections.length = 1)
    (h : Reach cfg Expected s) : s.proc.clientActive = s.submitted.length ∧
      (∀ e t, Enabled s e → Expected s e → handle cfg e s ≠ .error .underflow t) ∧
      ∀ msg, RefusesUnknown cfg s msg ↔ msg.id ∈ s.submitted ∨ CannotGrow s := by
  have htidy := h.tidy hpeers
  refine ⟨htidy.active, ?_, fun msg => refusesUnknown_iff hpeers htidy⟩
  intro e t henabled he hrun
  rcases handle_tidy hpeers htidy henabled he with ⟨t', hstop⟩ | ⟨t', hgood, -⟩
  · rw [hstop] at hrun
    cases hrun
  · rw [hgood] at hrun
    cases hrun

/-- A client with batches of one vector, and its daemon. -/
def oneDaemon : Config := ⟨.client, [0], 1, 1, 1, .sum⟩

/-- The client after an event. -/
def next (e : Event 32) (s : OffloadedClient 32) : OffloadedClient 32 :=
  match handle oneDaemon e s with
  | .ok () t => t
  | .error _ t => t

/-- The client that has submitted its barrier. -/
def waiting : OffloadedClient 32 :=
  next .submit (next (.batchStart fun _ _ => 0) (start oneDaemon [] fun _ _ => 0))

theorem waiting_reached : Reach oneDaemon Expected waiting := by
  have hidle : Reach oneDaemon Expected (start (w := 32) oneDaemon [] fun _ _ => 0) :=
    Reach.start [] fun _ _ => 0
  have hbegun : Reach oneDaemon Expected
      (next (.batchStart fun _ _ => 0) (start oneDaemon [] fun _ _ => 0)) :=
    hidle.step (e := .batchStart fun _ _ => 0) ⟨rfl, rfl⟩ trivial rfl
  exact hbegun.step (e := .submit) (Nat.lt_succ_self 0) trivial rfl

theorem unknown_message_refused_waiting :
    RefusesUnknown oneDaemon waiting ⟨0, 4, fun _ => 7, false⟩ ↔
      0 ∈ waiting.submitted ∨ CannotGrow waiting :=
  (unknown_message_refused_iff rfl waiting_reached).2.2 _

/-- An empty message with an id that was never submitted counts the waiting operation out. -/
theorem unknown_message_counted : ∃ (s t : OffloadedClient 32),
    Reach oneDaemon Expected s ∧ s.submitted = [0] ∧ s.proc.clientActive = 1 ∧
      clientRecvCtrl oneDaemon ⟨5, 0, fun _ => 0, false⟩ s = .ok (.ok ()) t ∧
      t.submitted = [0] ∧ t.proc.clientActive = 0 :=
  ⟨waiting, _, waiting_reached, rfl, rfl, rfl, rfl, rfl⟩

end Run

end DocaApps.Proofs.OffloadedAnswers
