import DocaApps.Lib.Segments
import DocaApps.Common.FileClient
import DocaApps.Proofs.FileIntegrity
import DocaApps.Proofs.FileCompression

namespace DocaApps.Proofs.FileTransfer
open Common.FileServer Common.FileClient Lib.Segments Lib.Overwrite

variable {countCall : Sent} {dataCalls : Nat → Sent} {b : List UInt8} {m : Nat}

theorem sendto_ok {s : Sent} (hs : s.failure = none) (wire : Wire) (msg : List UInt8) :
    s.sendto wire msg = .ok (wire ++ [msg]) := by
  rw [Sent.sendto, hs]
  induction s.again with
  | zero => rfl
  | succ again ih => exact ih

theorem take_min_length (k : Nat) : b.take (min b.length k) = b.take k := by
  rw [← List.take_take]
  simp

theorem drop_min_length (k : Nat) : b.drop (min b.length k) = b.drop k := by
  rcases Nat.le_total b.length k with hle | hle
  · rw [Nat.min_eq_left hle, List.drop_length, List.drop_of_length_le hle]
  · rw [Nat.min_eq_right hle]

/-- When no call fails, the loop sends the segments of the data. -/
theorem sendSegments_ok (hdata : ∀ i, (dataCalls i).failure = none) (k n i : Nat)
    (b : List UInt8) (wire : Wire) :
    sendSegments dataCalls k n i b wire = .ok (wire ++ segments k n b) := by
  induction n generalizing i b wire with
  | zero => simp [sendSegments, segments]
  | succ n ih =>
    simp only [sendSegments, sendto_ok (hdata i), take_min_length, drop_min_length, segments]
    exact (ih (i + 1) _ _).trans (by simp)

@[simp] theorem length_htonl (n : Nat) : (htonl n).length = 4 := rfl

theorem ntoh_htonl {n : Nat} (hn : n < 2 ^ 32) : ntoh (htonl n) = n := by
  simp only [ntoh, htonl, List.foldl_cons, List.foldl_nil, UInt8.toNat_ofNat']
  omega

/-- A message with their number comes before the messages, which are not empty, fit, and together
are the data. -/
structure Announces (maxMsgSize : Nat) (b count : List UInt8) (msgs : Wire) : Prop where
  length : count.length = 4
  announced : ntoh count = msgs.length
  data : msgs.flatten = b
  fits : ∀ msg ∈ msgs, 0 < msg.length ∧ msg.length ≤ maxMsgSize

/-- The segments of the data are announced by their number. -/
theorem announces_segments {k maxMsgSize : Nat} (hk : 0 < k) (hmax : k ≤ maxMsgSize)
    (hne : b ≠ []) (hlen : b.length ≤ k * (2 ^ 32 - 1)) :
    Announces maxMsgSize b (htonl (count k b.length)) (segments k (count k b.length) b) := by
  have hpos : 0 < b.length := List.length_pos_iff.mpr hne
  obtain ⟨hlast, henough⟩ := count_bounds hk hpos
  have hcount := count_le hk hpos hlen
  refine ⟨length_htonl _, ?_, flatten_segments_of_le henough, ?_⟩
  · rw [length_segments]
    exact ntoh_htonl (by omega)
  · intro msg hmsg
    exact ⟨length_pos_of_mem hk hlast hmsg, (length_le_of_mem hmsg).trans hmax⟩

/-- The messages come in order, each after `DOCA_ERROR_AGAIN` fewer times than the timeout
allows. -/
structure Comes (numOfIterations : Nat) (countMsg : Received) (dataMsg : Nat → Received)
    (count : List UInt8) (msgs : Wire) : Prop where
  count : countMsg.again < numOfIterations ∧ countMsg.answer = .ok count
  data : ∀ i (h : i < msgs.length),
    (dataMsg i).again < numOfIterations ∧ (dataMsg i).answer = .ok msgs[i]

theorem waitFor_ok {r : Received} {n : Nat} {msg : List UInt8} {timedOut : DocaError}
    (h : r.again < n ∧ r.answer = .ok msg) : r.waitFor n timedOut = .ok msg := by
  rw [Received.waitFor, if_neg (by omega), h.2]

namespace Integrity
open FileIntegrity.Server FileIntegrity.Client Proofs.FileIntegrity

theorem partialBlockSize_eq : partialBlockSize m = m * (maxMsgSize / m) := by
  have hdiv := Nat.div_add_mod maxMsgSize m
  rw [partialBlockSize]
  omega

theorem partialBlockSize_pos (hm : 1 ≤ m) (hmax : m ≤ maxMsgSize) : 0 < partialBlockSize m := by
  rw [partialBlockSize_eq]
  exact Nat.mul_pos hm (Nat.div_pos hmax hm)

theorem partialBlockSize_le : partialBlockSize m ≤ maxMsgSize := Nat.sub_le _ _

theorem totalMsgs_eq {k len : Nat} (hk : 0 < k) (hmax : k ≤ maxMsgSize) (hpos : 0 < len)
    (hlen : len ≤ k * (2 ^ 32 - 1)) : totalMsgs len k = count k len := by
  have hcount := count_le hk hpos hlen
  have hle : k * (2 ^ 32 - 1) ≤ maxMsgSize * (2 ^ 32 - 1) := Nat.mul_le_mul_right _ hmax
  have hwrap : (len + 2 ^ 64 - 1) % 2 ^ 64 = len - 1 := by
    rw [maxMsgSize] at hle
    omega
  rw [totalMsgs, hwrap, ← count_eq hk hpos]
  exact Nat.mod_eq_of_lt (by omega)

theorem sendFile_ok (hm : 1 ≤ m) (hmax : m ≤ maxMsgSize) (hne : b ≠ [])
    (hlen : b.length ≤ partialBlockSize m * (2 ^ 32 - 1)) (hcount : countCall.failure = none)
    (hdata : ∀ i, (dataCalls i).failure = none) :
    sendFile (.ok m) countCall dataCalls b =
      .ok (htonl (count (partialBlockSize m) b.length) ::
        segments (partialBlockSize m) (count (partialBlockSize m) b.length) b) := by
  have htotal := totalMsgs_eq (partialBlockSize_pos hm hmax) partialBlockSize_le
    (List.length_pos_iff.mpr hne) hlen
  simp only [sendFile, bind, Except.bind, sendto_ok hcount, htotal, sendSegments_ok hdata]
  rfl

/-- No call of the server fails, and the engine takes whole messages. -/
structure Healthy (env : Env) (msgs : Wire) : Prop where
  calls : ∀ c, env.fails c = none
  size : maxMsgSize ≤ env.maxSourceBufferSize
  task : env.noTask = false
  written : ∀ i (h : i < msgs.length), env.written i = some msgs[i].length

variable {env : Env} {msgs : Wire} {countMsg : List UInt8}

theorem Healthy.firstError (h : Healthy env msgs) (calls : List Call) :
    firstError env calls = none := by
  simp [FileIntegrity.Server.firstError, List.findSome?_eq_none_iff, check, h.calls]

theorem Healthy.hashed (h : Healthy env msgs) (hpos : 0 < msgs.length)
    (hcomes : Comes env.numOfIterations env.countMsg env.dataMsg countMsg msgs) :
    Hashed env msgs.length msgs := by
  by_cases hone : msgs.length = 1
  · obtain ⟨msg, rfl⟩ := List.length_eq_one_iff.mp hone
    exact .inl ⟨rfl, msg, rfl, waitFor_ok (hcomes.data 0 hpos), h.written 0 hpos,
      h.firstError _⟩
  · refine .inr ⟨hone, ⟨?_, h.size, h.firstError _⟩, h.task, rfl, ?_⟩
    · simp [check, h.calls]
    · intro i hi
      have hmsg : (env.dataMsg i).waitFor env.numOfIterations .timeOut = .ok msgs[i] :=
        waitFor_ok (hcomes.data i hi)
      simp [partialItem, hmsg, h.firstError, h.written i hi, check, h.calls]

/-- What `send_file` sends is received as it was, whichever of its two ways the server takes, and
the engine hashes the same bytes on both. -/
def Transfers (m : Nat) (b : List UInt8) : Prop :=
  ∀ (countCall : Sent) (dataCalls : Nat → Sent), countCall.failure = none →
    (∀ i, (dataCalls i).failure = none) → ∃ count msgs,
      sendFile (.ok m) countCall dataCalls b = .ok (count :: msgs) ∧
        Announces maxMsgSize b count msgs ∧
        (∀ i (h : i < msgs.length), i + 1 < msgs.length → m ∣ msgs[i].length) ∧
        ∀ env file, Healthy env msgs →
          Comes env.numOfIterations env.countMsg env.dataMsg count msgs →
            transfer env (ntoh count) file = ⟨none, overwrite file 0 b, env.sha b, true⟩

theorem transfers (hm : 1 ≤ m) (hmax : m ≤ maxMsgSize) (hne : b ≠ [])
    (hlen : b.length ≤ partialBlockSize m * (2 ^ 32 - 1)) : Transfers m b := by
  intro countCall dataCalls hcount hdata
  have hk := partialBlockSize_pos hm hmax
  have hannounces := announces_segments hk partialBlockSize_le hne hlen
  have hlast := (count_bounds hk (List.length_pos_iff.mpr hne)).1
  refine ⟨_, _, sendFile_ok hm hmax hne hlen hcount hdata, hannounces, ?_, ?_⟩
  · intro i hi hnext
    rw [length_segments] at hnext
    rw [length_of_not_last hlast hi hnext, partialBlockSize_eq]
    exact Nat.dvd_mul_right m _
  · intro env file hhealthy hcomes
    have hpos : 0 < (segments (partialBlockSize m) (count (partialBlockSize m) b.length) b).length := by
      apply Nat.pos_of_ne_zero
      intro hzero
      have hflat := hannounces.data
      rw [List.length_eq_zero_iff.mp hzero] at hflat
      exact hne hflat.symm
    rw [hannounces.announced, transfer_hashed (hhealthy.hashed hpos hcomes), hannounces.data]

end Integrity

namespace Compression
open FileCompression.Server FileCompression.Client Proofs.FileCompression

theorem sendFile_ok (hne : b ≠ []) (hlen : b.length ≤ maxMsgSize * (2 ^ 32 - 1))
    (hcount : countCall.failure = none) (hdata : ∀ i, (dataCalls i).failure = none) :
    sendFile countCall dataCalls b = .ok (htonl (count maxMsgSize b.length) ::
      segments maxMsgSize (count maxMsgSize b.length) b) := by
  have hpos : 0 < b.length := List.length_pos_iff.mpr hne
  have htotal : totalMsgs b.length = count maxMsgSize b.length := by
    have hle : count maxMsgSize b.length ≤ 2 ^ 32 - 1 := count_le (by decide) hpos hlen
    have hwrap : (b.length + maxMsgSize - 1) % 2 ^ 64 = b.length + maxMsgSize - 1 := by
      rw [maxMsgSize] at hlen ⊢
      omega
    rw [totalMsgs, hwrap, ← count]
    exact Nat.mod_eq_of_lt (by omega)
  simp only [sendFile, bind, Except.bind, sendto_ok hcount, htotal, sendSegments_ok hdata]
  rfl

/-- What `send_file` sends is received as it was by a server whose buffer it fits. -/
def Transfers (b : List UInt8) : Prop :=
  ∀ (countCall : Sent) (dataCalls : Nat → Sent), countCall.failure = none →
    (∀ i, (dataCalls i).failure = none) → ∃ count msgs,
      sendFile countCall dataCalls b = .ok (count :: msgs) ∧ Announces maxMsgSize b count msgs ∧
        ∀ env : Env, b.length ≤ env.maxBufSize →
          FileTransfer.Comes env.numOfIterations env.countMsg env.dataMsg count msgs →
            receiveFile env (ntoh count) 0 [] = .ok b

theorem transfers (hne : b ≠ []) (hlen : b.length ≤ maxMsgSize * (2 ^ 32 - 1)) : Transfers b := by
  intro countCall dataCalls hcount hdata
  have hannounces := announces_segments (by decide) le_rfl hne hlen
  refine ⟨_, _, sendFile_ok hne hlen hcount hdata, hannounces, ?_⟩
  intro env hfits hcomes
  rw [hannounces.announced]
  apply (receiveFile_eq_ok (Nat.zero_le _)).mpr
  refine ⟨_, rfl, ?_, by rw [List.nil_append, hannounces.data], hfits⟩
  intro i hi
  rw [Nat.zero_add]
  exact waitFor_ok (hcomes.data i hi)

end Compression

/-- Both applications cut a file into messages from which the server puts it together again, where
`file_compression_server` takes no more than its buffer holds. -/
theorem fileTransfer (b : List UInt8) (m : Nat) (hne : b ≠ []) (hm : 1 ≤ m)
    (hmax : m ≤ FileIntegrity.Server.maxMsgSize) :
    (b.length ≤ FileIntegrity.Client.partialBlockSize m * (2 ^ 32 - 1) →
      Integrity.Transfers m b) ∧
    (b.length ≤ FileCompression.Client.maxMsgSize * (2 ^ 32 - 1) → Compression.Transfers b) :=
  ⟨Integrity.transfers hm hmax hne, Compression.transfers hne⟩

theorem fileTransfer_byte : Integrity.Transfers 64 [7] ∧ Compression.Transfers [7] :=
  have h := fileTransfer [7] 64 (by simp) (by decide) (by decide)
  ⟨h.1 (by decide), h.2 (by decide)⟩

/-- A server with a buffer of one byte. -/
def smallServer : FileCompression.Server.Env where
  fails _ := none
  numOfIterations := 1
  maxBufSize := 1
  checksumMsg := ⟨0, .ok []⟩
  countMsg := ⟨0, .ok [0, 0, 0, 1]⟩
  dataMsg _ := ⟨0, .ok [7, 8]⟩
  engine _ _ := ⟨[], 0, 0⟩
  written := none
  oldFile := none
  finishMsg := none

/-- Data that is longer than the buffer of the server is sent and does not get through. -/
theorem longer_than_buffer :
    ¬ ∀ (b : List UInt8) (env : FileCompression.Server.Env) (count : List UInt8) (msgs : Wire),
      b ≠ [] → FileCompression.Client.sendFile ⟨0, none⟩ (fun _ => ⟨0, none⟩) b =
        .ok (count :: msgs) →
      Comes env.numOfIterations env.countMsg env.dataMsg count msgs →
      FileCompression.Server.receiveFile env (ntoh count) 0 [] = .ok b := by
  intro h
  have hcomes : Comes smallServer.numOfIterations smallServer.countMsg smallServer.dataMsg
      [0, 0, 0, 1] [[7, 8]] := by
    refine ⟨⟨Nat.one_pos, rfl⟩, ?_⟩
    intro i hi
    obtain rfl : i = 0 := by simpa using hi
    exact ⟨Nat.one_pos, rfl⟩
  have hlost := h [7, 8] smallServer _ _ (by simp) rfl hcomes
  obtain ⟨_, -, -, -, hfits⟩ :=
    (Proofs.FileCompression.receiveFile_eq_ok (Nat.zero_le _)).mp hlost
  exact absurd hfits (by decide)

end DocaApps.Proofs.FileTransfer
