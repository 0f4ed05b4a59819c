import DocaApps.FileIntegrity.Server

namespace DocaApps.Proofs.FileIntegrity
open Common.FileServer FileIntegrity.Server Lib.Overwrite

variable {env : Env} {shaMsg countMsg : List UInt8} {totalMsgs : Nat}
  {msgs : List (List UInt8)} {file : List UInt8}

/-- The hash and a number of messages have come. -/
def Announced (env : Env) (shaMsg countMsg : List UInt8) : Prop :=
  firstError env [.minDstBufferSize, .partialBlockSize, .allocReceivedSha] = none ∧
    env.shaMsg.answer = .ok shaMsg ∧
    env.countMsg.waitFor env.numOfIterations .again = .ok countMsg

/-- The server is about to receive data for the file. -/
def Opened (env : Env) (shaMsg : List UInt8) (totalMsgs : Nat) : Prop :=
  ∃ countMsg, Announced env shaMsg countMsg ∧ countMsg.length = 4 ∧ ntoh countMsg = totalMsgs ∧
    1 ≤ totalMsgs ∧ check env .openFile = none

/-- The engine is ready for several messages. -/
def Ready (env : Env) : Prop :=
  check env .maxSrcBufferSize = none ∧ maxMsgSize ≤ env.maxSourceBufferSize ∧
    firstError env partialCalls = none

/-- Every one of the messages is received, written and hashed. -/
def AllDone (env : Env) (totalMsgs i : Nat) (msgs : List (List UInt8)) : Prop :=
  ∀ k (h : k < msgs.length), partialItem env totalMsgs (i + k) = .done msgs[k]

/-- These are the messages, and the engine has hashed them. -/
def Hashed (env : Env) (totalMsgs : Nat) (msgs : List (List UInt8)) : Prop :=
  (totalMsgs = 1 ∧ ∃ msg, msgs = [msg] ∧
    (env.dataMsg 0).waitFor env.numOfIterations .again = .ok msg ∧
    env.written 0 = some msg.length ∧ firstError env calculateSha = none) ∨
  (totalMsgs ≠ 1 ∧ Ready env ∧ env.noTask = false ∧ msgs.length = totalMsgs ∧
    AllDone env totalMsgs 0 msgs)

/-- There are several messages and there is no task, or the task has failed at the last of
these messages. -/
def Unhashed (env : Env) (totalMsgs : Nat) (msgs : List (List UInt8)) : Prop :=
  totalMsgs ≠ 1 ∧ Ready env ∧
    ((env.noTask = true ∧ msgs = []) ∨
      (env.noTask = false ∧ ∃ done last, msgs = done ++ [last] ∧ done.length < totalMsgs ∧
        AllDone env totalMsgs 0 done ∧ partialItem env totalMsgs done.length = .taskFailed last))

theorem AllDone.tail {i : Nat} {msg : List UInt8} (h : AllDone env totalMsgs i (msg :: msgs)) :
    AllDone env totalMsgs (i + 1) msgs := by
  intro k hk
  rw [Nat.add_assoc, Nat.add_comm 1 k]
  exact h (k + 1) (Nat.succ_lt_succ hk)

theorem AllDone.cons {i : Nat} {msg : List UInt8} (hmsg : partialItem env totalMsgs i = .done msg)
    (h : AllDone env totalMsgs (i + 1) msgs) : AllDone env totalMsgs i (msg :: msgs) := by
  intro k hk
  cases k with
  | zero => exact hmsg
  | succ k =>
    have hitem := h k (Nat.lt_of_succ_lt_succ hk)
    rwa [Nat.add_assoc, Nat.add_comm 1 k] at hitem

theorem partialLoop_done {i : Nat} {sofar : List UInt8} (h : AllDone env totalMsgs i msgs) :
    partialLoop env totalMsgs file msgs.length i sofar =
      ⟨none, overwrite file 0 (sofar ++ msgs.flatten), env.sha (sofar ++ msgs.flatten), true⟩ := by
  induction msgs generalizing i sofar with
  | nil => simp only [List.length_nil, partialLoop, List.flatten_nil, List.append_nil]
  | cons msg msgs ih =>
    have hfirst : partialItem env totalMsgs i = .done msg := h 0 (Nat.succ_pos _)
    simp only [List.length_cons, partialLoop, hfirst, ih h.tail, List.flatten_cons,
      List.append_assoc]

theorem partialLoop_taskFailed {i n : Nat} {sofar last : List UInt8}
    (h : AllDone env totalMsgs i msgs) (hn : msgs.length < n)
    (hlast : partialItem env totalMsgs (i + msgs.length) = .taskFailed last) :
    partialLoop env totalMsgs file n i sofar =
      ⟨none, overwrite file 0 (sofar ++ (msgs ++ [last]).flatten), env.leftover, false⟩ := by
  induction msgs generalizing i n sofar with
  | nil =>
    obtain ⟨n, rfl⟩ := Nat.exists_eq_succ_of_ne_zero (by omega : n ≠ 0)
    have hfirst : partialItem env totalMsgs i = .taskFailed last := hlast
    simp only [partialLoop, hfirst, List.nil_append, List.flatten_cons,
      List.flatten_nil, List.append_nil]
  | cons msg msgs ih =>
    obtain ⟨n, rfl⟩ := Nat.exists_eq_succ_of_ne_zero (by omega : n ≠ 0)
    have hfirst : partialItem env totalMsgs i = .done msg := h 0 (Nat.succ_pos _)
    rw [List.length_cons] at hn hlast
    have hrest := @ih (i + 1) n (sofar ++ msg) h.tail (by omega) (by
      rw [Nat.add_assoc, Nat.add_comm 1]
      exact hlast)
    simp only [partialLoop, hfirst, hrest, List.cons_append,
      List.flatten_cons, List.append_assoc]

theorem partialLoop_cases (env : Env) (totalMsgs : Nat) (file : List UInt8) (n i : Nat)
    (sofar : List UInt8) :
    (∃ err, (partialLoop env totalMsgs file n i sofar).result = some err) ∨
      (∃ msgs, msgs.length = n ∧ AllDone env totalMsgs i msgs) ∨
      ∃ msgs last, msgs.length < n ∧ AllDone env totalMsgs i msgs ∧
        partialItem env totalMsgs (i + msgs.length) = .taskFailed last := by
  induction n generalizing i sofar with
  | zero => exact .inr (.inl ⟨[], rfl, fun k hk => absurd hk (Nat.not_lt_zero k)⟩)
  | succ n ih =>
    unfold partialLoop
    cases hitem : partialItem env totalMsgs i with
    | failed err written => exact .inl ⟨err, rfl⟩
    | taskFailed msg =>
      exact .inr (.inr ⟨[], msg, Nat.succ_pos n, fun k hk => absurd hk (Nat.not_lt_zero k), hitem⟩)
    | done msg =>
      rcases ih (i + 1) (sofar ++ msg) with herr | ⟨msgs, hlength, hdone⟩ |
        ⟨msgs, last, hlength, hdone, hlast⟩
      · exact .inl herr
      · exact .inr (.inl ⟨msg :: msgs, congrArg (· + 1) hlength, hdone.cons hitem⟩)
      · refine .inr (.inr ⟨msg :: msgs, last, Nat.succ_lt_succ hlength, hdone.cons hitem, ?_⟩)
        rw [List.length_cons, ← hlast]
        congr 1
        omega

theorem transfer_hashed (h : Hashed env totalMsgs msgs) :
    transfer env totalMsgs file =
      ⟨none, overwrite file 0 msgs.flatten, env.sha msgs.flatten, true⟩ := by
  unfold transfer
  rcases h with ⟨rfl, msg, rfl, hmsg, hwritten, hsha⟩ |
    ⟨hone, ⟨hmax, hsize, hcalls⟩, htask, rfl, hdone⟩
  · unfold receiveOne
    simp only [if_true, hmsg, hwritten, ne_eq, not_true_eq_false, if_false, hsha, writeAt,
      List.take_length, List.flatten_cons, List.flatten_nil, List.append_nil]
  · unfold receiveAndCalculatePartialSha
    rw [if_neg hone, hmax]
    simp only [if_neg (Nat.not_lt.mpr hsize), hcalls, htask, Bool.false_eq_true, if_false,
      partialLoop_done hdone, List.nil_append]

theorem transfer_unhashed (h : Unhashed env totalMsgs msgs) :
    transfer env totalMsgs file =
      ⟨none, overwrite file 0 msgs.flatten, env.leftover, false⟩ := by
  obtain ⟨hone, ⟨hmax, hsize, hcalls⟩, htask⟩ := h
  unfold transfer receiveAndCalculatePartialSha
  rw [if_neg hone, hmax]
  simp only [if_neg (Nat.not_lt.mpr hsize), hcalls]
  rcases htask with ⟨htask, rfl⟩ | ⟨htask, done, last, rfl, hlength, hdone, hlast⟩
  · rw [htask, if_pos rfl, List.flatten_nil, overwrite_zero]
    rfl
  · rw [htask, if_neg Bool.false_ne_true,
      partialLoop_taskFailed hdone hlength (by rw [Nat.zero_add]; exact hlast), List.nil_append]

theorem transfer_cases (env : Env) (totalMsgs : Nat) (file : List UInt8) :
    (∃ err, (transfer env totalMsgs file).result = some err) ∨
      (∃ msgs, Hashed env totalMsgs msgs) ∨ ∃ msgs, Unhashed env totalMsgs msgs := by
  by_cases hone : totalMsgs = 1
  · unfold transfer receiveOne
    rw [if_pos hone]
    cases hmsg : (env.dataMsg 0).waitFor env.numOfIterations .again with
    | error err => exact .inl ⟨err, rfl⟩
    | ok msg =>
      dsimp only
      by_cases hwritten : env.written 0 = some msg.length
      · rw [if_neg (not_not_intro hwritten)]
        cases hsha : firstError env calculateSha with
        | some err => exact .inl ⟨err, rfl⟩
        | none => exact .inr (.inl ⟨[msg], .inl ⟨hone, msg, rfl, hmsg, hwritten, hsha⟩⟩)
      · rw [if_pos hwritten]
        exact .inl ⟨_, rfl⟩
  · unfold transfer receiveAndCalculatePartialSha
    rw [if_neg hone]
    cases hmax : check env .maxSrcBufferSize with
    | some err => exact .inl ⟨err, rfl⟩
    | none =>
      dsimp only
      by_cases hsize : env.maxSourceBufferSize < maxMsgSize
      · rw [if_pos hsize]
        exact .inl ⟨_, rfl⟩
      · rw [if_neg hsize]
        cases hcalls : firstError env partialCalls with
        | some err => exact .inl ⟨err, rfl⟩
        | none =>
          have hready : Ready env := ⟨hmax, Nat.not_lt.mp hsize, hcalls⟩
          cases htask : env.noTask with
          | true => exact .inr (.inr ⟨[], hone, hready, .inl ⟨htask, rfl⟩⟩)
          | false =>
            dsimp only
            rw [if_neg Bool.false_ne_true]
            rcases partialLoop_cases env totalMsgs file totalMsgs 0 [] with herr | ⟨msgs, hlength, hdone⟩ | ⟨msgs, last, hlength, hdone, hlast⟩
            · exact .inl herr
            · exact .inr (.inl ⟨msgs, .inr ⟨hone, hready, htask, hlength, hdone⟩⟩)
            · rw [Nat.zero_add] at hlast
              exact .inr (.inr ⟨msgs ++ [last], hone, hready,
                .inr ⟨htask, msgs, last, rfl, hlength, hdone, hlast⟩⟩)

/-- The hash in the destination buffer can be read and shown. -/
def Readable (env : Env) : Prop :=
  firstError env [.getDataLen, .getData] = none ∧ check env .allocShaOutput = none

/-- The file that the comparison leaves. -/
def keptFile (env : Env) (shaMsg digest file : List UInt8) : Option (List UInt8) :=
  if digest = (receivedSha env shaMsg).take digest.length then some file
  else if env.removeFails then some file else none

theorem compareSha_readable (h : Readable env) (t : Transfer) :
    compareSha env shaMsg t =
      ⟨env.finishMsg, keptFile env shaMsg t.digest t.file, t.hashed⟩ := by
  unfold compareSha keptFile
  rw [h.1, h.2]
  dsimp only
  split
  · rfl
  · rfl

theorem server_wrong_count (h : Announced env shaMsg countMsg) (hlength : countMsg.length ≠ 4) :
    fileIntegrityServer env = ⟨env.finishMsg, env.oldFile, false⟩ := by
  unfold fileIntegrityServer
  rw [h.1, h.2.1, h.2.2]
  dsimp only
  rw [if_pos hlength]
  rfl

theorem server_opened (h : Opened env shaMsg totalMsgs) :
    fileIntegrityServer env = match (transfer env totalMsgs (env.oldFile.getD [])).result with
      | some err => finish env (some err) (some (transfer env totalMsgs (env.oldFile.getD [])).file)
        false
      | none => compareSha env shaMsg (transfer env totalMsgs (env.oldFile.getD [])) := by
  obtain ⟨countMsg, ⟨hcalls, hsha, hcount⟩, hlength, rfl, hpos, hopen⟩ := h
  unfold fileIntegrityServer
  rw [hcalls, hsha, hcount]
  dsimp only
  rewrite [if_neg (not_not_intro hlength), receiveData, if_neg (Nat.not_lt.mpr hpos), hopen]
  rfl

theorem server_hashed (h : Opened env shaMsg totalMsgs) (hhashed : Hashed env totalMsgs msgs)
    (hread : Readable env) :
    fileIntegrityServer env = ⟨env.finishMsg, keptFile env shaMsg (env.sha msgs.flatten)
      (overwrite (env.oldFile.getD []) 0 msgs.flatten), true⟩ := by
  rw [server_opened h, transfer_hashed hhashed]
  exact compareSha_readable hread _

theorem server_unhashed (h : Opened env shaMsg totalMsgs) (hlost : Unhashed env totalMsgs msgs)
    (hread : Readable env) :
    fileIntegrityServer env = ⟨env.finishMsg, keptFile env shaMsg env.leftover
      (overwrite (env.oldFile.getD []) 0 msgs.flatten), false⟩ := by
  rw [server_opened h, transfer_unhashed hlost]
  exact compareSha_readable hread _

/-- On every other way the server ends with an error and has not compared the hashes. -/
theorem server_cases (env : Env) :
    (∃ err, (fileIntegrityServer env).result = some err ∧
        (fileIntegrityServer env).compared = false) ∨
      (∃ shaMsg countMsg, Announced env shaMsg countMsg ∧ countMsg.length ≠ 4) ∨
      ∃ shaMsg totalMsgs msgs, Opened env shaMsg totalMsgs ∧ Readable env ∧
        (Hashed env totalMsgs msgs ∨ Unhashed env totalMsgs msgs) := by
  cases hcalls : firstError env [.minDstBufferSize, .partialBlockSize, .allocReceivedSha] with
  | some err =>
    refine .inl ⟨err, ?_⟩
    simp only [fileIntegrityServer, hcalls, and_self]
  | none =>
  cases hsha : env.shaMsg.answer with
  | error err =>
    refine .inl ⟨err, ?_⟩
    simp only [fileIntegrityServer, hcalls, hsha, finish, afterFinish, and_self]
  | ok shaMsg =>
  cases hcount : env.countMsg.waitFor env.numOfIterations .again with
  | error err =>
    refine .inl ⟨err, ?_⟩
    simp only [fileIntegrityServer, hcalls, hsha, hcount, finish, afterFinish, and_self]
  | ok countMsg =>
  have hannounced : Announced env shaMsg countMsg := ⟨hcalls, hsha, hcount⟩
  by_cases hlength : countMsg.length = 4
  · by_cases hpos : ntoh countMsg < 1
    · refine .inl ⟨.unexpected, ?_⟩
      simp only [fileIntegrityServer, hcalls, hsha, hcount, hlength, ne_eq, not_true_eq_false,
        if_false, receiveData, if_pos hpos, finish, afterFinish, and_self]
    · cases hopen : check env .openFile with
      | some err =>
        refine .inl ⟨err, ?_⟩
        simp only [fileIntegrityServer, hcalls, hsha, hcount, hlength, ne_eq, not_true_eq_false,
          if_false, receiveData, if_neg hpos, hopen, finish, afterFinish, and_self]
      | none =>
        have hopened : Opened env shaMsg (ntoh countMsg) :=
          ⟨countMsg, hannounced, hlength, rfl, Nat.not_lt.mp hpos, hopen⟩
        have hunread : (transfer env (ntoh countMsg) (env.oldFile.getD [])).result = none →
            ¬ Readable env → ∃ err, (fileIntegrityServer env).result = some err ∧
              (fileIntegrityServer env).compared = false := by
          intro hresult hread
          rw [server_opened hopened, hresult]
          unfold compareSha
          cases hlen : firstError env [.getDataLen, .getData] with
          | some err => exact ⟨err, rfl, rfl⟩
          | none =>
            cases halloc : check env .allocShaOutput with
            | some err => exact ⟨err, rfl, rfl⟩
            | none => exact absurd ⟨hlen, halloc⟩ hread
        rcases transfer_cases env (ntoh countMsg) (env.oldFile.getD []) with
          ⟨err, herr⟩ | ⟨msgs, hhashed⟩ | ⟨msgs, hlost⟩
        · refine .inl ⟨err, ?_⟩
          rw [server_opened hopened, herr]
          exact ⟨rfl, rfl⟩
        · by_cases hread : Readable env
          · exact .inr (.inr ⟨shaMsg, _, msgs, hopened, hread, .inl hhashed⟩)
          · exact .inl (hunread (by rw [transfer_hashed hhashed]) hread)
        · by_cases hread : Readable env
          · exact .inr (.inr ⟨shaMsg, _, msgs, hopened, hread, .inr hlost⟩)
          · exact .inl (hunread (by rw [transfer_unhashed hlost]) hread)
  · exact .inr (.inl ⟨shaMsg, countMsg, hannounced, hlength⟩)

/-- What the client sends: a hash, the number of the data messages, and the data messages. -/
structure Sends (env : Env) (shaMsg : List UInt8) (totalMsgs : Nat) (msgs : List (List UInt8)) :
    Prop where
  sha : env.shaMsg.answer = .ok shaMsg
  count : ∃ countMsg, env.countMsg.answer = .ok countMsg ∧ countMsg.length = 4 ∧
    ntoh countMsg = totalMsgs
  length : msgs.length = totalMsgs
  data : ∀ i (h : i < msgs.length), (env.dataMsg i).answer = .ok msgs[i]

/-- A server that succeeds has the data in its file, with the hash it received; one that
finds another hash fails and leaves no file. -/
structure Sound (env : Env) : Prop where
  success : (fileIntegrityServer env).result = none → ∃ shaMsg totalMsgs msgs,
    Sends env shaMsg totalMsgs msgs ∧ (fileIntegrityServer env).file = some msgs.flatten ∧
      env.sha msgs.flatten = shaMsg
  differs : (fileIntegrityServer env).compared = true → ∀ shaMsg totalMsgs msgs,
    Sends env shaMsg totalMsgs msgs → env.sha msgs.flatten ≠ shaMsg →
      (fileIntegrityServer env).result ≠ none ∧ (fileIntegrityServer env).file = none

theorem answer_of_waitFor {r : Received} {n : Nat} {err : DocaError} {msg : List UInt8}
    (h : r.waitFor n err = .ok msg) : r.answer = .ok msg := by
  unfold Received.waitFor at h
  split at h
  · contradiction
  · exact h

theorem Sends.unique {shaMsg' : List UInt8} {totalMsgs' : Nat} {msgs' : List (List UInt8)}
    (h : Sends env shaMsg totalMsgs msgs) (h' : Sends env shaMsg' totalMsgs' msgs') :
    shaMsg = shaMsg' ∧ totalMsgs = totalMsgs' ∧ msgs = msgs' := by
  obtain ⟨countMsg, hcount, -, htotal⟩ := h.count
  obtain ⟨countMsg', hcount', -, htotal'⟩ := h'.count
  have hsha := Except.ok.inj (h.sha.symm.trans h'.sha)
  obtain rfl := Except.ok.inj (hcount.symm.trans hcount')
  refine ⟨hsha, htotal.symm.trans htotal', ?_⟩
  apply List.ext_getElem
  · rw [h.length, h'.length, ← htotal, htotal']
  · intro i hi hi'
    exact Except.ok.inj ((h.data i hi).symm.trans (h'.data i hi'))

theorem done_answer {i : Nat} {msg : List UInt8} (h : partialItem env totalMsgs i = .done msg) :
    (env.dataMsg i).answer = .ok msg := by
  unfold partialItem at h
  cases hmsg : (env.dataMsg i).waitFor env.numOfIterations .timeOut with
  | error err =>
    rw [hmsg] at h
    contradiction
  | ok msg' =>
    rw [answer_of_waitFor hmsg]
    rw [hmsg] at h
    dsimp only at h
    split at h
    · contradiction
    · split at h
      · contradiction
      · split at h
        · contradiction
        · split at h
          · contradiction
          · split at h
            · contradiction
            · rw [Item.done.inj h]

theorem hashed_sends (h : Opened env shaMsg totalMsgs) (hhashed : Hashed env totalMsgs msgs) :
    Sends env shaMsg totalMsgs msgs := by
  obtain ⟨countMsg, ⟨-, hsha, hcount⟩, hlength, htotal, -, -⟩ := h
  have hcount' : ∃ countMsg, env.countMsg.answer = .ok countMsg ∧ countMsg.length = 4 ∧
      ntoh countMsg = totalMsgs := ⟨countMsg, answer_of_waitFor hcount, hlength, htotal⟩
  rcases hhashed with ⟨rfl, msg, rfl, hmsg, -, -⟩ | ⟨-, -, -, hmsgs, hdone⟩
  · refine ⟨hsha, hcount', rfl, ?_⟩
    intro i hi
    obtain rfl : i = 0 := by
      rw [List.length_singleton] at hi
      omega
    exact answer_of_waitFor hmsg
  · refine ⟨hsha, hcount', hmsgs, ?_⟩
    intro i hi
    have hitem := hdone i hi
    rw [Nat.zero_add] at hitem
    exact done_answer hitem

/-- The ways on which the server goes wrong are not taken: the count has four bytes, no task
for several messages is missing or fails, and where the hash is compared it is that of the
data and the file before is no longer than the data; or else the finish message cannot be
sent, which makes it an error. -/
structure GoesWell (env : Env) : Prop where
  count : ∀ shaMsg countMsg, Announced env shaMsg countMsg → countMsg.length ≠ 4 →
    env.finishMsg ≠ none
  task : ∀ shaMsg totalMsgs msgs, Opened env shaMsg totalMsgs → Unhashed env totalMsgs msgs →
    Readable env → env.finishMsg = none → ∃ all, Sends env shaMsg totalMsgs all ∧
      keptFile env shaMsg env.leftover (overwrite (env.oldFile.getD []) 0 msgs.flatten) =
        some all.flatten ∧ env.sha all.flatten = shaMsg
  same : ∀ shaMsg totalMsgs msgs, Opened env shaMsg totalMsgs → Hashed env totalMsgs msgs →
    Readable env → env.sha msgs.flatten = receivedSha env shaMsg →
      env.sha msgs.flatten = shaMsg ∧
        (env.finishMsg = none → (env.oldFile.getD []).length ≤ msgs.flatten.length)
  other : ∀ shaMsg totalMsgs msgs, Opened env shaMsg totalMsgs → Hashed env totalMsgs msgs →
    Readable env → env.sha msgs.flatten ≠ receivedSha env shaMsg →
      env.finishMsg ≠ none ∧ env.removeFails = false

theorem length_receivedSha (env : Env) (shaMsg : List UInt8) :
    (receivedSha env shaMsg).length = env.shaSize := by
  rw [receivedSha, List.length_take, List.length_append, List.length_replicate]
  omega

theorem receivedSha_eq (h : shaMsg.length = env.shaSize) : receivedSha env shaMsg = shaMsg := by
  rw [receivedSha, ← h, List.take_left]

section Law

variable (hsha : ∀ data, (env.sha data).length = env.shaSize)
include hsha

theorem keptFile_hashed (data : List UInt8) :
    keptFile env shaMsg (env.sha data) file =
      if env.sha data = receivedSha env shaMsg then some file
      else if env.removeFails then some file else none := by
  rw [keptFile, hsha, ← length_receivedSha env shaMsg, List.take_length]

theorem sound_of_goesWell (h : GoesWell env) : Sound env := by
  rcases server_cases env with ⟨err, herr, hcompared⟩ | ⟨shaMsg, countMsg, hannounced, hlength⟩ |
    ⟨shaMsg, totalMsgs, msgs, hopened, hread, hhashed | hlost⟩
  · constructor
    · intro hnone
      rw [herr] at hnone
      contradiction
    · intro htrue
      rw [hcompared] at htrue
      contradiction
  · have hserver := server_wrong_count hannounced hlength
    constructor
    · intro hnone
      rw [hserver] at hnone
      exact absurd hnone (h.count shaMsg countMsg hannounced hlength)
    · intro htrue
      rw [hserver] at htrue
      contradiction
  · have hserver := server_hashed hopened hhashed hread
    have hsends := hashed_sends hopened hhashed
    rw [keptFile_hashed hsha] at hserver
    by_cases hsame : env.sha msgs.flatten = receivedSha env shaMsg
    · obtain ⟨hequal, hold⟩ := h.same shaMsg totalMsgs msgs hopened hhashed hread hsame
      rw [if_pos hsame] at hserver
      constructor
      · intro hnone
        rw [hserver] at hnone ⊢
        refine ⟨shaMsg, totalMsgs, msgs, hsends, ?_, hequal⟩
        exact congrArg some ((overwrite_zero_eq_iff).mpr (hold hnone))
      · intro _ shaMsg' totalMsgs' msgs' hsends' hne
        obtain ⟨rfl, rfl, rfl⟩ := hsends.unique hsends'
        exact absurd hequal hne
    · obtain ⟨hfinish, hremove⟩ := h.other shaMsg totalMsgs msgs hopened hhashed hread hsame
      rw [if_neg hsame, hremove, if_neg Bool.false_ne_true] at hserver
      constructor
      · intro hnone
        rw [hserver] at hnone
        exact absurd hnone hfinish
      · intro _ _ _ _ _ _
        rw [hserver]
        exact ⟨hfinish, rfl⟩
  · have hserver := server_unhashed hopened hlost hread
    constructor
    · intro hnone
      rw [hserver] at hnone ⊢
      obtain ⟨all, hsends, hfile, hequal⟩ :=
        h.task shaMsg totalMsgs msgs hopened hlost hread hnone
      exact ⟨shaMsg, totalMsgs, all, hsends, hfile, hequal⟩
    · intro htrue
      rw [hserver] at htrue
      contradiction

theorem goesWell_of_sound (h : Sound env) : GoesWell env where
  count := by
    intro shaMsg countMsg hannounced hlength hfinish
    have hnone : (fileIntegrityServer env).result = none := by
      rw [server_wrong_count hannounced hlength]
      exact hfinish
    obtain ⟨_, _, _, hsends, -⟩ := h.success hnone
    obtain ⟨countMsg', hcount, hfour, -⟩ := hsends.count
    obtain rfl := Except.ok.inj ((answer_of_waitFor hannounced.2.2).symm.trans hcount)
    exact hlength hfour
  task := by
    intro shaMsg totalMsgs msgs hopened hlost hread hfinish
    have hserver := server_unhashed hopened hlost hread
    have hnone : (fileIntegrityServer env).result = none := by
      rw [hserver]
      exact hfinish
    obtain ⟨shaMsg', totalMsgs', all, hsends, hfile, hequal⟩ := h.success hnone
    obtain ⟨countMsg, ⟨-, hshaMsg, hcount⟩, -, htotal, -, -⟩ := hopened
    obtain ⟨countMsg', hcount', -, htotal'⟩ := hsends.count
    obtain rfl := Except.ok.inj ((answer_of_waitFor hcount).symm.trans hcount')
    obtain rfl := Except.ok.inj (hshaMsg.symm.trans hsends.sha)
    obtain rfl : totalMsgs = totalMsgs' := htotal.symm.trans htotal'
    rw [hserver] at hfile
    exact ⟨all, hsends, hfile, hequal⟩
  same := by
    intro shaMsg totalMsgs msgs hopened hhashed hread hsame
    have hserver := server_hashed hopened hhashed hread
    have hsends := hashed_sends hopened hhashed
    rw [keptFile_hashed hsha, if_pos hsame] at hserver
    constructor
    · by_contra hne
      obtain ⟨-, hgone⟩ := h.differs (by rw [hserver]) shaMsg totalMsgs msgs hsends hne
      rw [hserver] at hgone
      contradiction
    · intro hfinish
      have hnone : (fileIntegrityServer env).result = none := by
        rw [hserver]
        exact hfinish
      obtain ⟨shaMsg', totalMsgs', all, hsends', hfile, -⟩ := h.success hnone
      obtain ⟨rfl, rfl, rfl⟩ := hsends.unique hsends'
      rw [hserver] at hfile
      exact (overwrite_zero_eq_iff).mp (Option.some.inj hfile)
  other := by
    intro shaMsg totalMsgs msgs hopened hhashed hread hdiffer
    have hserver := server_hashed hopened hhashed hread
    have hsends := hashed_sends hopened hhashed
    rw [keptFile_hashed hsha, if_neg hdiffer] at hserver
    have hne : env.sha msgs.flatten ≠ shaMsg := by
      intro heq
      apply hdiffer
      rw [receivedSha_eq (by rw [← heq, hsha]), heq]
    obtain ⟨hresult, hgone⟩ := h.differs (by rw [hserver]) shaMsg totalMsgs msgs hsends hne
    rw [hserver] at hresult hgone
    refine ⟨hresult, ?_⟩
    by_contra hremove
    rw [Bool.not_eq_false] at hremove
    rw [hremove, if_pos rfl] at hgone
    contradiction

end Law

def hi : List UInt8 := [104, 105]

end DocaApps.Proofs.FileIntegrity
