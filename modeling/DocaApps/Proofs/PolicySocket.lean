import DocaApps.Ipsec.PolicySocket

namespace DocaApps.Proofs.PolicySocket
open Common.Pack Lib.CutStream Ipsec.PolicySocket

/-- The stream law. After any number of rounds the policies read are those of some
first messages and the bytes still unread are exactly the frames of the others;
and from some round on all messages have been read. -/
structure StreamLaw (msgs : List Message) (fd : Socket) : Prop where
  aligned : ∀ k, ∃ r sent rest, pollPolicies k fd = some r ∧ msgs = sent ++ rest ∧
    r.policies = sent.map Message.policy ∧ payload r.fd = frames rest
  complete : ∃ n, ∀ k ≥ n, ∃ r, pollPolicies k fd = some r ∧
    r.policies = msgs.map Message.policy

/-- These bytes are the frames of some first messages. -/
def Boundary (msgs : List Message) (q : List Byte) : Prop :=
  ∃ sent rest, msgs = sent ++ rest ∧ q = frames sent

variable {fd fd' : Socket} {msgs : List Message} {n : Nat}

theorem frames_cons (m : Message) (ms : List Message) :
    frames (m :: ms) = m.frame ++ frames ms := rfl

theorem frames_append (as bs : List Message) : frames (as ++ bs) = frames as ++ frames bs :=
  List.flatMap_append

theorem record_length (m : Message) : m.record.length = 208 + m.encKey.length := by
  simp [Message.record, packUint8, packUint16, packUint32, AddrText.length_eq, maxIpAddrLen]
  omega

theorem frame_length (m : Message) : m.frame.length = 4 + m.record.length := by
  simp [Message.frame, packUint32]
  omega

theorem frames_eq_nil (h : frames msgs = []) : msgs = [] := by
  cases msgs with
  | nil => rfl
  | cons m ms =>
    have hl := congrArg List.length h
    rw [frames_cons, List.length_append, frame_length] at hl
    simp at hl

/-- Reading a record back gives the policy of its message, whatever follows the
record in the buffer. -/
theorem unpack_record (m : Message) (rest : List Byte) :
    unpackPolicyBuffer (BitVec.ofNat 32 m.record.length) .zero (m.record ++ rest) =
      some (m.policy, rest) := by
  have hkey : (if BitVec.ofNat 32 m.record.length = policyRecordMaxSize then 32 else 16) =
      m.encKey.length := by
    rw [record_length]
    rcases m.key_length with h | h <;> rw [h] <;> rfl
  have hpad : (IpsecPolicy.zero.encKeyData).drop m.encKey.length =
      List.replicate (maxKeyLen - m.encKey.length) 0#8 := by
    simp [IpsecPolicy.zero]
  unfold unpackPolicyBuffer
  rw [hkey]
  unfold Message.record
  simp only [List.append_assoc]
  rw [unpack_bind (unpack_packUint16 _ _), unpack_bind (unpack_packUint16 _ _),
    unpack_bind (unpack_packUint8 _ _), unpack_bind (unpack_packUint8 _ _),
    unpack_bind (unpack_packUint8 _ _), unpack_bind (unpack_packUint8 _ _),
    unpack_bind (unpack_packUint8 _ _), unpack_bind (unpack_packUint8 _ _),
    unpack_bind (unpack_packUint8 _ _), unpack_bind (unpack_packUint8 _ _),
    unpack_bind (unpack_packUint32 _ _), unpack_bind (unpack_packUint32 _ _),
    unpack_bind (unpackBlob_append m.srcIpAddr.length_eq),
    unpack_bind (unpackBlob_append m.dstIpAddr.length_eq),
    unpack_bind (unpackBlob_append m.outerSrcIp.length_eq),
    unpack_bind (unpackBlob_append m.outerDstIp.length_eq),
    unpack_bind (unpackBlob_append rfl)]
  simp only [hpad, AddrText.last_zero]
  rfl

/-- A read of `n` bytes that meets no stop before them. -/
theorem fill_ready (hn : 0 < n) (hlen : n ≤ (payload fd).length)
    (hstops : StopsAt (fun q => n ≤ q.length) fd) :
    ∃ fd', fillBufferFromSocket n fd = (.ok ((payload fd).take n), fd') ∧
      payload fd' = (payload fd).drop n ∧
      (∀ P, StopsAt P fd → StopsAt (fun q => P ((payload fd).take n ++ q)) fd') ∧
      (∀ e, .stop e ∈ fd' → .stop e ∈ fd) ∧ weight fd' < weight fd := by
  induction fd generalizing n with
  | nil => simp [payload] at hlen; omega
  | cons p fd ih =>
    cases p with
    | stop e => have := hstops.1; simp at this; omega
    | data b bs =>
      by_cases hshort : bs.length + 1 < n
      · have htake : (b :: bs).take n = b :: bs := List.take_of_length_le (by simp; omega)
        have hdrop : (b :: bs).drop n = [] := List.drop_of_length_le (by simp; omega)
        have hlen' : n - (bs.length + 1) ≤ (payload fd).length := by
          simp [payload] at hlen
          omega
        have hstops' : StopsAt (fun q => n - (bs.length + 1) ≤ q.length) fd :=
          StopsAt.mono hstops (fun q hq => by simp at hq; omega)
        obtain ⟨fd', hr, hp, hs, hm, hw⟩ := ih (by omega) hlen' hstops'
        have hcut : (payload (.data b bs :: fd)).take n =
            (b :: bs) ++ (payload fd).take (n - (bs.length + 1)) := by
          rw [payload, List.take_append, htake]
          rfl
        refine ⟨fd', ?_, ?_, ?_, fun e he => List.mem_cons_of_mem _ (hm e he), ?_⟩
        · rw [fillBufferFromSocket]
          simp only [recv, htake, hdrop, push, hshort, ↓reduceIte, hr, hcut]
        · rw [hp, payload, List.drop_append, hdrop]
          rfl
        · intro P hP
          rw [hcut]
          simpa only [List.append_assoc] using hs _ hP
        · simp only [weight, payload, List.length_append, List.length_cons] at hw ⊢
          omega
      · have hle : n ≤ (b :: bs).length := by simp; omega
        have hcut : (payload (.data b bs :: fd)).take n = (b :: bs).take n :=
          List.take_append_of_le_length hle
        obtain ⟨c, cs, hc⟩ : ∃ c cs, (b :: bs).take n = c :: cs := by
          cases n with
          | zero => omega
          | succ n => exact ⟨b, bs.take n, rfl⟩
        have hfull : ¬ cs.length + 1 < n := by
          have := congrArg List.length hc
          simp at this
          omega
        refine ⟨push ((b :: bs).drop n) fd, ?_, ?_, ?_, ?_, ?_⟩
        · rw [fillBufferFromSocket]
          simp only [recv, hc, hfull, ↓reduceIte, hcut]
        · rw [payload_push, payload, List.drop_append_of_le_length hle]
        · intro P hP
          rw [stopsAt_push, hcut]
          have hall : ∀ q, (b :: bs).take n ++ ((b :: bs).drop n ++ q) = (b :: bs) ++ q :=
            fun q => by rw [← List.append_assoc, List.take_append_drop]
          have hP' : StopsAt (fun q => P ((b :: bs) ++ q)) fd := hP
          simpa only [hall] using hP'
        · intro e he
          exact List.mem_cons_of_mem _ (mem_push.mp he)
        · cases n with
          | zero => omega
          | succ n =>
            have hw := weight_push_lt (bs.drop n) b (bs.take n) fd
            rwa [List.take_append_drop] at hw

/-- Whatever a read returns, it takes some first bytes off the socket, and the only
stop it may pass is one right after them, when it fails. -/
theorem fill_consumes {r : Except DocaError (List Byte)} (hn : 0 < n)
    (h : fillBufferFromSocket n fd = (r, fd')) :
    ∃ taken, payload fd = taken ++ payload fd' ∧
      (∀ P, ((∃ e, r = .error e) → P taken) → StopsAt (fun q => P (taken ++ q)) fd' →
        StopsAt P fd) ∧ (fd = [] ∧ fd' = [] ∨ weight fd' < weight fd) := by
  induction fd generalizing n r fd' with
  | nil =>
    rw [fillBufferFromSocket] at h
    simp only [recv, Prod.mk.injEq] at h
    obtain ⟨rfl, rfl⟩ := h
    exact ⟨[], rfl, fun P _ hs => hs, .inl ⟨rfl, rfl⟩⟩
  | cons p fd ih =>
    cases p with
    | stop e =>
      have herr : ∃ e', r = .error e' ∧ fd' = fd := by
        rw [fillBufferFromSocket] at h
        cases e <;> simp only [recv, Prod.mk.injEq] at h <;> exact ⟨_, h.1.symm, h.2.symm⟩
      obtain ⟨e', rfl, rfl⟩ := herr
      exact ⟨[], rfl, fun P hP hs => ⟨hP ⟨e', rfl⟩, hs⟩, .inr (by simp [weight, payload])⟩
    | data b bs =>
      obtain ⟨k, rfl⟩ : ∃ k, n = k + 1 := ⟨n - 1, by omega⟩
      rw [fillBufferFromSocket] at h
      simp only [recv, List.take_succ_cons, List.drop_succ_cons] at h
      have hall : ∀ q, (b :: bs.take k) ++ (bs.drop k ++ q) = (b :: bs) ++ q :=
        fun q => by rw [List.cons_append, ← List.append_assoc, List.take_append_drop]; rfl
      have hlt := weight_push_lt (bs.drop k) b (bs.take k) fd
      rw [List.take_append_drop] at hlt
      split at h
      · rename_i hshort
        have hdrop : bs.drop k = [] := List.drop_of_length_le (by simp at hshort; omega)
        have htake : bs.take k = bs := List.take_of_length_le (by simpa using hdrop)
        rw [hdrop, htake] at h
        simp only [push] at h
        cases hr : fillBufferFromSocket (k + 1 - (bs.length + 1)) fd with
        | mk r1 fd1 =>
          obtain ⟨taken, hp, hs, hw⟩ := ih (by rw [htake] at hshort; omega) hr
          have hfd : fd' = fd1 ∧ ((∃ e, r1 = .error e) → ∃ e, r = .error e) := by
            rw [hr] at h
            cases r1 with
            | ok rest =>
              simp only [Prod.mk.injEq] at h
              exact ⟨h.2.symm, fun he => by simp at he⟩
            | error e =>
              simp only [Prod.mk.injEq] at h
              exact ⟨h.2.symm, fun _ => ⟨e, h.1.symm⟩⟩
          obtain ⟨rfl, herr⟩ := hfd
          refine ⟨(b :: bs) ++ taken, ?_, ?_, ?_⟩
          · rw [payload, hp, List.append_assoc]
          · intro P hP hq
            refine hs _ (fun he => hP (herr he)) ?_
            simpa only [List.append_assoc] using hq
          · right
            rcases hw with ⟨rfl, rfl⟩ | hw
            · simp [weight, payload]
            · simp only [weight, payload, List.length_append, List.length_cons] at hw ⊢
              omega
      · simp only [Prod.mk.injEq] at h
        obtain ⟨rfl, rfl⟩ := h
        refine ⟨b :: bs.take k, ?_, ?_, .inr hlt⟩
        · rw [payload_push, hall, payload]
        · intro P _ hq
          rw [stopsAt_push] at hq
          simp only [hall] at hq
          exact hq

theorem lengthWord_toNat (m : Message) :
    (BitVec.ofNat 32 m.record.length).toNat = m.record.length := by
  rw [record_length]
  rcases m.key_length with h | h <;> rw [h] <;> rfl

theorem lengthWord_valid (m : Message) :
    ¬ (BitVec.ofNat 32 m.record.length ≠ policyRecordMinSize ∧
      BitVec.ofNat 32 m.record.length ≠ policyRecordMaxSize) := by
  rw [record_length]
  rcases m.key_length with h | h <;> rw [h] <;> decide

/-- One call on a socket that holds a whole frame before its next stop. -/
theorem read_frame {m : Message} {rest : List Byte} {P : List Byte → Prop}
    (hp : payload fd = m.frame ++ rest)
    (hstops : StopsAt (fun q => ∃ q', q = m.frame ++ q' ∧ P q') fd) :
    ∃ fd', readMessageFromSocket .zero fd = some (.ok m.policy, fd') ∧ payload fd' = rest ∧
      StopsAt P fd' ∧ (∀ e, .stop e ∈ fd' → .stop e ∈ fd) ∧ weight fd' < weight fd := by
  have hword : (packUint32 (BitVec.ofNat 32 m.record.length)).length = 4 := rfl
  have hpos : 0 < m.record.length := by
    rw [record_length]
    omega
  have hlen : (payload fd).length = 4 + m.record.length + rest.length := by
    rw [hp, List.length_append, frame_length]
  obtain ⟨fd1, hr1, hp1, hs1, hm1, hw1⟩ := @fill_ready fd 4 (by omega) (by omega)
    (hstops.mono (fun q ⟨q', hq, _⟩ => by rw [hq, List.length_append, frame_length]; omega))
  have htake : (payload fd).take 4 = packUint32 (BitVec.ofNat 32 m.record.length) := by
    rw [hp, Message.frame, List.append_assoc]
    exact List.take_left' hword
  have hdrop : payload fd1 = m.record ++ rest := by
    rw [hp1, hp, Message.frame, List.append_assoc]
    exact List.drop_left' hword
  have hstops1 : StopsAt (fun q => ∃ q', q = m.record ++ q' ∧ P q') fd1 := by
    refine StopsAt.mono (hs1 _ hstops) (fun q ⟨q', hq, hP⟩ => ⟨q', ?_, hP⟩)
    rw [htake, Message.frame, List.append_assoc] at hq
    exact List.append_cancel_left hq
  obtain ⟨fd2, hr2, hp2, hs2, hm2, hw2⟩ := fill_ready hpos
    (by rw [hdrop, List.length_append]; omega)
    (hstops1.mono (fun q ⟨q', hq, _⟩ => by rw [hq, List.length_append]; omega))
  have htake2 : (payload fd1).take m.record.length = m.record := by
    rw [hdrop]
    exact List.take_left' rfl
  have hread : readMessageLength fd =
      some (.ok (BitVec.ofNat 32 m.record.length), fd1) := by
    unfold readMessageLength
    rw [hr1, htake]
    simp only [unpack_packUint32, Option.map_some, lengthWord_valid, ↓reduceIte]
  refine ⟨fd2, ?_, ?_, ?_, fun e he => hm1 e (hm2 e he), Nat.lt_trans hw2 hw1⟩
  · unfold readMessageFromSocket
    rw [hread]
    simp only [Option.bind_some, lengthWord_toNat, hr2, htake2, unpack_record, Option.map_some]
  · rw [hp2, hdrop]
    exact List.drop_left' rfl
  · refine StopsAt.mono (hs2 _ hstops1) (fun q ⟨q', hq, hP⟩ => ?_)
    rw [htake2] at hq
    exact List.append_cancel_left hq ▸ hP

/-- The state the reader must be in between two calls: whole frames are unread, and
the connection only pauses, and only between two frames. -/
structure Aligned (msgs : List Message) (fd : Socket) : Prop where
  unread : payload fd = frames msgs
  pauses : ∀ e, .stop e ∈ fd → e = .again
  stops : StopsAt (Boundary msgs) fd

theorem read_nil : readMessageFromSocket .zero [] = some (.error .again, []) := by
  rw [readMessageFromSocket, readMessageLength, fillBufferFromSocket]
  rfl

theorem read_pause (fd : Socket) :
    readMessageFromSocket .zero (.stop .again :: fd) = some (.error .again, fd) := by
  rw [readMessageFromSocket, readMessageLength, fillBufferFromSocket]
  rfl

/-- What one call can do from an aligned socket: wait, or deliver the next message. -/
theorem Aligned.read (h : Aligned msgs fd) :
    ∃ r fd', readMessageFromSocket .zero fd = some (r, fd') ∧
      (r = .error .again ∧ Aligned msgs fd' ∧ (msgs = [] ∨ weight fd' < weight fd) ∨
        ∃ m ms, msgs = m :: ms ∧ r = .ok m.policy ∧ Aligned ms fd' ∧ weight fd' < weight fd) := by
  cases fd with
  | nil =>
    refine ⟨_, _, read_nil, .inl ⟨rfl, h, .inl ?_⟩⟩
    exact frames_eq_nil h.unread.symm
  | cons p fd =>
    cases p with
    | stop e =>
      obtain rfl : e = .again := h.pauses e (List.mem_cons_self ..)
      refine ⟨_, _, read_pause fd, .inl ⟨rfl, ⟨h.unread, ?_, h.stops.2⟩, .inr ?_⟩⟩
      · intro e he
        exact h.pauses e (List.mem_cons_of_mem _ he)
      · simp [weight, payload]
    | data b bs =>
      cases msgs with
      | nil => cases h.unread
      | cons m ms =>
        have hstops : StopsAt (fun q => ∃ q', q = m.frame ++ q' ∧ Boundary ms q')
            (.data b bs :: fd : Socket) := by
          have hdata : StopsAt (fun q => Boundary (m :: ms) ((b :: bs) ++ q)) fd := h.stops
          apply StopsAt.mono hdata
          rintro q ⟨sent, rest, hms, hq⟩
          cases sent with
          | nil => cases hq
          | cons m' sent =>
            obtain ⟨rfl, rfl⟩ := List.cons.inj hms
            exact ⟨frames sent, hq, sent, rest, rfl, rfl⟩
        obtain ⟨fd', hr, hp, hs, hm, hw⟩ := read_frame h.unread hstops
        exact ⟨_, _, hr, .inr ⟨m, ms, rfl, rfl,
          ⟨hp, fun e he => h.pauses e (hm e he), hs⟩, hw⟩⟩

/-- From an aligned socket the rounds stay aligned. -/
theorem Aligned.poll (k : Nat) (h : Aligned msgs fd) :
    ∃ r sent rest, pollPolicies k fd = some r ∧ msgs = sent ++ rest ∧
      r.policies = sent.map Message.policy ∧ payload r.fd = frames rest := by
  induction k generalizing msgs fd with
  | zero => exact ⟨_, [], msgs, rfl, rfl, rfl, h.unread⟩
  | succ k ih =>
    obtain ⟨_, fd', hread, ⟨rfl, h', _⟩ | ⟨m, ms, rfl, rfl, h', _⟩⟩ := h.read
    · obtain ⟨r, sent, rest, hr, hms, hp, hf⟩ := ih h'
      refine ⟨r, sent, rest, ?_, hms, hp, hf⟩
      rw [pollPolicies, hread]
      exact hr
    · obtain ⟨r, sent, rest, hr, rfl, hp, hf⟩ := ih h'
      refine ⟨{ r with policies := m.policy :: r.policies }, m :: sent, rest, ?_, rfl, ?_, hf⟩
      · rw [pollPolicies, hread]
        simp only [Option.bind_some, hr, Option.map_some]
      · rw [hp]
        rfl

theorem Aligned.poll_all (h : Aligned msgs fd) :
    ∃ n, ∀ k ≥ n, ∃ r, pollPolicies k fd = some r ∧ r.policies = msgs.map Message.policy := by
  induction hw : weight fd using Nat.strong_induction_on generalizing msgs fd with
  | _ w ih =>
    subst hw
    by_cases hnil : msgs = []
    · subst hnil
      refine ⟨0, fun k _ => ?_⟩
      obtain ⟨r, sent, rest, hr, hms, hp, _⟩ := h.poll k
      obtain ⟨rfl, rfl⟩ := List.append_eq_nil_iff.mp hms.symm
      exact ⟨r, hr, hp⟩
    · obtain ⟨_, fd', hread, ⟨rfl, h', hlt⟩ | ⟨m, ms, rfl, rfl, h', hlt⟩⟩ := h.read
      · obtain ⟨n, hn⟩ := ih _ (hlt.resolve_left hnil) h' rfl
        refine ⟨n + 1, fun k hk => ?_⟩
        obtain ⟨j, rfl⟩ : ∃ j, k = j + 1 := ⟨k - 1, by omega⟩
        obtain ⟨r, hr, hp⟩ := hn j (by omega)
        refine ⟨r, ?_, hp⟩
        rw [pollPolicies, hread]
        exact hr
      · obtain ⟨n, hn⟩ := ih _ hlt h' rfl
        refine ⟨n + 1, fun k hk => ?_⟩
        obtain ⟨j, rfl⟩ : ∃ j, k = j + 1 := ⟨k - 1, by omega⟩
        obtain ⟨r, hr, hp⟩ := hn j (by omega)
        refine ⟨{ r with policies := m.policy :: r.policies }, ?_, ?_⟩
        · rw [pollPolicies, hread]
          simp only [Option.bind_some, hr, Option.map_some]
        · rw [hp]
          rfl

theorem Aligned.streamLaw (h : Aligned msgs fd) : StreamLaw msgs fd :=
  ⟨fun k => h.poll k, h.poll_all⟩

/-- Whatever one call returns, it takes some first bytes off the socket and passes
at most one stop, right after them. -/
theorem read_consumes {r : Except DocaError IpsecPolicy}
    (h : readMessageFromSocket .zero fd = some (r, fd')) :
    ∃ taken, payload fd = taken ++ payload fd' ∧
      (∀ P, P taken → StopsAt (fun q => P (taken ++ q)) fd' → StopsAt P fd) ∧
      (fd = [] ∧ fd' = [] ∨ weight fd' < weight fd) := by
  unfold readMessageFromSocket readMessageLength at h
  cases h1 : fillBufferFromSocket 4 fd with
  | mk r1 fd1 =>
    obtain ⟨t1, hp1, hs1, hw1⟩ := fill_consumes (by omega) h1
    rw [h1] at h
    cases r1 with
    | error e =>
      simp only [Option.bind_some, Option.some.injEq, Prod.mk.injEq] at h
      obtain ⟨_, rfl⟩ := h
      exact ⟨t1, hp1, fun P hP hq => hs1 P (fun _ => hP) hq, hw1⟩
    | ok bytes =>
      have hpass1 : ∀ P, StopsAt (fun q => P (t1 ++ q)) fd1 → StopsAt P fd :=
        fun P hq => hs1 P (fun he => by simp at he) hq
      dsimp only at h
      cases hu : unpackUint32 (bytes ++ List.replicate (8 - bytes.length) 0#8) with
      | none => simp [hu] at h
      | some word =>
        obtain ⟨len, tail⟩ := word
        simp only [hu, Option.map_some, Option.bind_some] at h
        split at h
        · rename_i hcond
          split at hcond
          · cases hcond
            cases h
            exact ⟨t1, hp1, fun P _ hq => hpass1 P hq, hw1⟩
          · cases hcond
        · rename_i len' fd2 hcond
          split at hcond
          · cases hcond
          · rename_i hvalid
            cases hcond
            have hpos : 0 < len.toNat := by
              by_contra hz
              apply hvalid
              have hlen : len = 0#32 := BitVec.eq_of_toNat_eq (by simp; omega)
              subst hlen
              decide
            cases h2 : fillBufferFromSocket len.toNat fd1 with
            | mk r2 fd2 =>
              obtain ⟨t2, hp2, hs2, hw2⟩ := fill_consumes hpos h2
              rw [h2] at h
              have hfd : fd' = fd2 := by
                cases r2 with
                | error e =>
                  simp only [Option.some.injEq, Prod.mk.injEq] at h
                  exact h.2.symm
                | ok bytes2 =>
                  obtain ⟨x, _, hx⟩ := Option.map_eq_some_iff.mp h
                  exact (Prod.mk.inj hx).2.symm
              subst hfd
              refine ⟨t1 ++ t2, ?_, ?_, ?_⟩
              · rw [hp1, hp2, List.append_assoc]
              · intro P hP hq
                apply hpass1
                refine hs2 _ (fun _ => hP) ?_
                simpa only [List.append_assoc] using hq
              · rcases hw1 with ⟨rfl, rfl⟩ | hw1
                · rcases hw2 with ⟨_, rfl⟩ | hw2
                  · exact .inl ⟨rfl, rfl⟩
                  · exact .inr hw2
                · rcases hw2 with ⟨rfl, rfl⟩ | hw2
                  · exact .inr hw1
                  · exact .inr (Nat.lt_trans hw2 hw1)

theorem poll_of_ok {p : IpsecPolicy} (hread : readMessageFromSocket .zero fd = some (.ok p, fd'))
    (k : Nat) : pollPolicies (k + 1) fd =
      (pollPolicies k fd').map fun r => { r with policies := p :: r.policies } := by
  rw [pollPolicies, hread]
  rfl

theorem poll_of_again (hread : readMessageFromSocket .zero fd = some (.error .again, fd'))
    (k : Nat) : pollPolicies (k + 1) fd = pollPolicies k fd' := by
  rw [pollPolicies, hread]
  rfl

theorem poll_of_exit {e : DocaError} (hread : readMessageFromSocket .zero fd = some (.error e, fd'))
    (he : e ≠ .again) (k : Nat) : pollPolicies (k + 1) fd = some ⟨[], fd', some e⟩ := by
  rw [pollPolicies, hread]
  cases e <;> first | rfl | exact absurd rfl he

theorem StreamLaw.unread (h : StreamLaw msgs fd) : payload fd = frames msgs := by
  obtain ⟨r, sent, rest, hr, rfl, hp, hf⟩ := h.aligned 0
  cases hr
  obtain rfl : sent = [] := List.map_eq_nil_iff.mp hp.symm
  exact hf

theorem StreamLaw.defined (h : StreamLaw msgs fd) :
    ∃ out, readMessageFromSocket .zero fd = some out := by
  obtain ⟨r, _, _, hr, _⟩ := h.aligned 1
  cases hread : readMessageFromSocket .zero fd with
  | none => simp [pollPolicies, hread] at hr
  | some out => exact ⟨out, rfl⟩

theorem StreamLaw.of_again (h : StreamLaw msgs fd)
    (hread : readMessageFromSocket .zero fd = some (.error .again, fd')) :
    StreamLaw msgs fd' := by
  obtain ⟨n, hn⟩ := h.complete
  refine ⟨fun k => ?_, n, fun k hk => ?_⟩
  · rw [← poll_of_again hread]
    exact h.aligned (k + 1)
  · rw [← poll_of_again hread]
    exact hn (k + 1) (by omega)

theorem StreamLaw.of_ok {p : IpsecPolicy} (h : StreamLaw msgs fd)
    (hread : readMessageFromSocket .zero fd = some (.ok p, fd')) :
    ∃ m ms, msgs = m :: ms ∧ StreamLaw ms fd' := by
  have hstep : ∀ k, ∃ m sent rest r, pollPolicies k fd' = some r ∧ msgs = m :: (sent ++ rest) ∧
      r.policies = sent.map Message.policy ∧ payload r.fd = frames rest := by
    intro k
    obtain ⟨r, sent, rest, hr, rfl, hp, hf⟩ := h.aligned (k + 1)
    rw [poll_of_ok hread] at hr
    obtain ⟨r', hr', rfl⟩ := Option.map_eq_some_iff.mp hr
    obtain ⟨m, sent, rfl, _, hp⟩ := List.map_eq_cons_iff.mp hp.symm
    exact ⟨m, sent, rest, r', hr', rfl, hp.symm, hf⟩
  obtain ⟨m, sent, rest, _, _, rfl, _⟩ := hstep 0
  refine ⟨m, sent ++ rest, rfl, fun k => ?_, ?_⟩
  · obtain ⟨m', sent', rest', r, hr, hms, hp, hf⟩ := hstep k
    exact ⟨r, sent', rest', hr, (List.cons.inj hms).2, hp, hf⟩
  · obtain ⟨n, hn⟩ := h.complete
    refine ⟨n, fun k hk => ?_⟩
    obtain ⟨r, hr, hp⟩ := hn (k + 1) (by omega)
    rw [poll_of_ok hread] at hr
    obtain ⟨r', hr', rfl⟩ := Option.map_eq_some_iff.mp hr
    exact ⟨r', hr', (List.cons.inj hp).2⟩

theorem StreamLaw.of_exit {e : DocaError} (h : StreamLaw msgs fd)
    (hread : readMessageFromSocket .zero fd = some (.error e, fd')) (he : e ≠ .again) :
    msgs = [] := by
  obtain ⟨n, hn⟩ := h.complete
  obtain ⟨r, hr, hp⟩ := hn (n + 1) (by omega)
  rw [poll_of_exit hread he] at hr
  cases hr
  exact List.map_eq_nil_iff.mp hp.symm

/-- The other direction: a law-abiding run never passes a stop inside a frame. The
induction is on what is left to read; a call that delivers a message moves on to
the remaining messages, and one that ends the loop leaves nothing to deliver. -/
theorem StreamLaw.stops (h : StreamLaw msgs fd) : StopsAt (Boundary msgs) fd := by
  induction hw : weight fd using Nat.strong_induction_on generalizing msgs fd with
  | _ w ih =>
    subst hw
    obtain ⟨out, hread⟩ := h.defined
    obtain ⟨r, fd'⟩ := out
    obtain ⟨taken, hp, hpass, hlt⟩ := read_consumes hread
    rcases hlt with ⟨rfl, _⟩ | hlt
    · trivial
    have hnext : ∃ sent rest, msgs = sent ++ rest ∧ payload fd' = frames rest ∧
        StopsAt (Boundary rest) fd' := by
      cases r with
      | ok p =>
        obtain ⟨m, ms, rfl, h'⟩ := h.of_ok hread
        exact ⟨[m], ms, rfl, h'.unread, ih _ hlt h' rfl⟩
      | error e =>
        by_cases he : e = .again
        · subst he
          have h' := h.of_again hread
          exact ⟨[], msgs, rfl, h'.unread, ih _ hlt h' rfl⟩
        · obtain rfl := h.of_exit hread he
          have hnil := h.unread
          rw [hp] at hnil
          have hnil' : payload fd' = [] := (List.append_eq_nil_iff.mp hnil).2
          exact ⟨[], [], rfl, hnil', stopsAt_of_payload_nil hnil' ⟨[], [], rfl, rfl⟩⟩
    obtain ⟨sent, rest, rfl, hunread, hstops⟩ := hnext
    have htaken : taken = frames sent := by
      have hall := h.unread
      rw [hp, hunread, frames_append] at hall
      exact List.append_cancel_right hall
    subst htaken
    refine hpass _ ⟨sent, rest, rfl, rfl⟩ (hstops.mono ?_)
    rintro q ⟨sent', rest', rfl, rfl⟩
    exact ⟨sent ++ sent', rest', by simp, (frames_append _ _).symm⟩

/-- The reader keeps no state across a retry, so it obeys the stream law exactly
when every pause of the connection falls between two messages. -/
theorem streamLaw_iff_pauses_between_messages (msgs : List Message) (fd : Socket)
    (hsent : payload fd = frames msgs) (hpauses : ∀ e, .stop e ∈ fd → e = .again) :
    StreamLaw msgs fd ↔ StopsAt (Boundary msgs) fd :=
  ⟨StreamLaw.stops, fun hstops => Aligned.streamLaw ⟨hsent, hpauses, hstops⟩⟩

def blankAddr : AddrText := ⟨List.replicate 47 0, rfl, rfl⟩

def blankMessage : Message :=
  ⟨0, 0, 4, 6, 4, 0, 0, 0, 16, 0, 1, 2, blankAddr, blankAddr, blankAddr, blankAddr,
    List.replicate 16 7, .inl rfl⟩

/-- Two messages with a pause between them arrive. -/
theorem streamLaw_pause_between :
    StreamLaw [blankMessage, blankMessage]
      (push blankMessage.frame (.stop .again :: push blankMessage.frame [])) := by
  apply (streamLaw_iff_pauses_between_messages _ _ ?_ ?_).mpr
  · rw [stopsAt_push]
    refine ⟨⟨[blankMessage], [blankMessage], rfl, ?_⟩, ?_⟩
    · simp [frames]
    · rw [stopsAt_push]
      trivial
  · simp [payload, frames]
  · intro e he
    rw [mem_push, List.mem_cons, mem_push] at he
    simpa using he

/-- One message, with a pause after its first byte. -/
def pausedInLength : Socket :=
  push (blankMessage.frame.take 1) (.stop .again :: push (blankMessage.frame.drop 1) [])

theorem blankMessage_frame :
    blankMessage.frame = 0 :: 0 :: 0 :: 224 :: 0 :: blankMessage.record.tail := by
  rw [Message.frame, record_length]
  rfl

theorem read_first_byte (fd : Socket) :
    readMessageFromSocket .zero (.data 0 [] :: .stop .again :: fd) = some (.error .again, fd) := by
  rw [readMessageFromSocket, readMessageLength, fillBufferFromSocket, recv]
  simp only [List.take_succ_cons, List.take_nil, List.drop_succ_cons, List.drop_nil, push,
    List.length_nil, Nat.zero_add, Nat.reduceLT, ↓reduceIte, Nat.reduceSub]
  rw [fillBufferFromSocket]
  rfl

theorem read_misaligned (tail : List Byte) :
    ∃ fd', readMessageFromSocket .zero [.data 0 (0 :: 224 :: 0 :: tail)] =
      some (.error .ioFailed, fd') := by
  refine ⟨push tail [], ?_⟩
  rw [readMessageFromSocket, readMessageLength, fillBufferFromSocket, recv]
  rfl

/-- The first byte is lost with the first call, the second call takes the four
bytes after it for a length, and the loop ends with an I/O error. -/
theorem pause_in_length_ends_loop :
    payload pausedInLength = frames [blankMessage] ∧ ¬ StreamLaw [blankMessage] pausedInLength ∧
      ∀ k, ∃ fd', pollPolicies (k + 2) pausedInLength = some ⟨[], fd', some .ioFailed⟩ := by
  have hpoll : ∀ k, ∃ fd', pollPolicies (k + 2) pausedInLength =
      some ⟨[], fd', some .ioFailed⟩ := by
    intro k
    rw [pausedInLength, blankMessage_frame]
    obtain ⟨fd', hread⟩ := read_misaligned blankMessage.record.tail
    refine ⟨fd', ?_⟩
    rw [← poll_of_exit hread (by decide) k]
    exact poll_of_again (read_first_byte _) (k + 1)
  refine ⟨?_, ?_, hpoll⟩
  · rw [pausedInLength, payload_push, payload, payload_push, payload, List.append_nil,
      List.take_append_drop, frames, List.flatMap_singleton]
  · rintro ⟨_, n, hn⟩
    obtain ⟨r, hr, hp⟩ := hn (n + 2) (by omega)
    obtain ⟨fd', hfd⟩ := hpoll n
    rw [hfd] at hr
    cases hr
    cases hp

end DocaApps.Proofs.PolicySocket
