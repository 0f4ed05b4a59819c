import DocaApps.FileCompression.Server
import DocaApps.Lib.Fallible

namespace DocaApps.Proofs.FileCompression
open Common.FileServer FileCompression.Server Lib.Overwrite Lib.Fallible

variable {env : Env} {checksumMsg countMsg : List UInt8} {totalMsgs : Nat}
  {msgs : List (List UInt8)}

theorem leaving_eq_ok {α : Type} {call : Except DocaError α} {a : α} :
    leaving call = .ok a ↔ call = .ok a := by
  cases call with
  | error err => simp [leaving, Except.mapError]
  | ok b => simp [leaving, Except.mapError]

theorem leaving_ne_none {α : Type} {call : Except DocaError α} : leaving call ≠ .error none := by
  cases call with
  | error err => simp [leaving, Except.mapError]
  | ok b => simp [leaving, Except.mapError]

theorem require_eq_ok {p : Prop} [Decidable p] {u : Unit} : require p = .ok u ↔ p := by
  unfold require
  split
  · simp [*]
  · simp [*]

theorem require_eq_none {p : Prop} [Decidable p] : require p = .error none ↔ ¬ p := by
  unfold require
  split
  · simp [*]
  · simp [*]

/-- These are the data messages from the `i`-th on that come in time. -/
def Comes (env : Env) (i : Nat) (msgs : List (List UInt8)) : Prop :=
  ∀ k (h : k < msgs.length),
    (env.dataMsg (i + k)).waitFor env.numOfIterations .again = .ok msgs[k]

theorem comes_cons {i : Nat} {msg : List UInt8} :
    Comes env i (msg :: msgs) ↔
      (env.dataMsg i).waitFor env.numOfIterations .again = .ok msg ∧ Comes env (i + 1) msgs := by
  constructor
  · intro h
    refine ⟨h 0 (Nat.succ_pos _), ?_⟩
    intro k hk
    rw [Nat.add_assoc, Nat.add_comm 1 k]
    exact h (k + 1) (Nat.succ_lt_succ hk)
  · rintro ⟨hmsg, h⟩ k hk
    cases k with
    | zero => exact hmsg
    | succ k =>
      have hnext := h k (Nat.lt_of_succ_lt_succ hk)
      rwa [Nat.add_assoc, Nat.add_comm 1 k] at hnext

/-- The loop goes through when the messages come and fit. -/
theorem receiveFile_eq_ok {n i : Nat} {sofar data : List UInt8}
    (hfits : sofar.length ≤ env.maxBufSize) :
    receiveFile env n i sofar = .ok data ↔ ∃ msgs, msgs.length = n ∧ Comes env i msgs ∧
      data = sofar ++ msgs.flatten ∧ data.length ≤ env.maxBufSize := by
  induction n generalizing i sofar with
  | zero =>
    simp only [receiveFile, Except.ok.injEq, List.length_eq_zero_iff]
    constructor
    · rintro rfl
      exact ⟨[], rfl, fun k hk => absurd hk (Nat.not_lt_zero k), by simp, hfits⟩
    · rintro ⟨_, rfl, -, rfl, -⟩
      simp
  | succ n ih =>
    simp only [receiveFile, bind_eq_ok, leaving_eq_ok, require_eq_ok]
    constructor
    · rintro ⟨msg, hmsg, -, hmsgfits, hrest⟩
      obtain ⟨msgs, hlength, hcomes, hdata, hdatafits⟩ := (ih (by simpa using hmsgfits)).mp hrest
      refine ⟨msg :: msgs, congrArg (· + 1) hlength, comes_cons.mpr ⟨hmsg, hcomes⟩, ?_, hdatafits⟩
      rw [hdata, List.flatten_cons, List.append_assoc]
    · rintro ⟨msgs, hlength, hcomes, hdata, hdatafits⟩
      obtain ⟨msg, msgs, rfl⟩ := List.exists_cons_of_length_eq_add_one hlength
      obtain ⟨hmsg, hcomes⟩ := comes_cons.mp hcomes
      rw [List.flatten_cons, ← List.append_assoc] at hdata
      have hmsgfits : (sofar ++ msg).length ≤ env.maxBufSize := by
        rw [hdata, List.length_append] at hdatafits
        omega
      refine ⟨msg, hmsg, (), by simpa using hmsgfits, ?_⟩
      exact (ih hmsgfits).mpr ⟨msgs, Nat.succ.inj hlength, hcomes, hdata, hdatafits⟩

/-- The loop leaves with a success when messages come that do not fit. -/
theorem receiveFile_eq_none {n i : Nat} {sofar : List UInt8}
    (hfits : sofar.length ≤ env.maxBufSize) :
    receiveFile env n i sofar = .error none ↔ ∃ msgs, msgs.length ≤ n ∧ Comes env i msgs ∧
      env.maxBufSize < (sofar ++ msgs.flatten).length := by
  induction n generalizing i sofar with
  | zero =>
    simp only [receiveFile, reduceCtorEq, Nat.le_zero, List.length_eq_zero_iff, false_iff]
    rintro ⟨_, rfl, -, hlong⟩
    rw [List.flatten_nil, List.append_nil] at hlong
    omega
  | succ n ih =>
    simp only [receiveFile, bind_eq_error, leaving_eq_ok, leaving_ne_none, require_eq_ok,
      require_eq_none, false_or]
    constructor
    · rintro ⟨msg, hmsg, hlong | ⟨-, hmsgfits, hrest⟩⟩
      · refine ⟨[msg], by simp, comes_cons.mpr ⟨hmsg, fun k hk => absurd hk (Nat.not_lt_zero k)⟩, ?_⟩
        simpa using hlong
      · obtain ⟨msgs, hlength, hcomes, hlong⟩ := (ih (by simpa using hmsgfits)).mp hrest
        refine ⟨msg :: msgs, Nat.succ_le_succ hlength, comes_cons.mpr ⟨hmsg, hcomes⟩, ?_⟩
        rwa [List.flatten_cons, ← List.append_assoc]
    · rintro ⟨msgs, hlength, hcomes, hlong⟩
      cases msgs with
      | nil =>
        rw [List.flatten_nil, List.append_nil] at hlong
        omega
      | cons msg msgs =>
        obtain ⟨hmsg, hcomes⟩ := comes_cons.mp hcomes
        refine ⟨msg, hmsg, ?_⟩
        by_cases hmsgfits : sofar.length + msg.length ≤ env.maxBufSize
        · refine .inr ⟨(), hmsgfits, (ih (by simpa using hmsgfits)).mpr ?_⟩
          rw [List.flatten_cons, ← List.append_assoc] at hlong
          exact ⟨msgs, Nat.le_of_succ_le_succ hlength, hcomes, hlong⟩
        · exact .inl hmsgfits

/-- The checksum and the number of messages have come, and there is a buffer for the data. -/
structure Announced (env : Env) (checksumMsg : List UInt8) (totalMsgs : Nat) : Prop where
  checksum : env.checksumMsg.answer = .ok checksumMsg
  checksumLength : checksumMsg.length = 8
  count : ∃ countMsg, env.countMsg.waitFor env.numOfIterations .again = .ok countMsg ∧
    countMsg.length = 4 ∧ ntoh countMsg = totalMsgs
  alloc : check env .allocCompressedFile = .ok ()

/-- All the announced messages have come, and they fit. -/
structure Uploads (env : Env) (checksumMsg : List UInt8) (msgs : List (List UInt8)) : Prop where
  announced : Announced env checksumMsg msgs.length
  comes : Comes env 0 msgs
  fits : msgs.flatten.length ≤ env.maxBufSize

theorem receiveUpload_eq_ok {upload : Upload} :
    receiveUpload env = .ok upload ↔ ∃ checksumMsg msgs, Uploads env checksumMsg msgs ∧
      upload = ⟨ntohq checksumMsg, msgs.flatten⟩ := by
  have hnil : ([] : List UInt8).length ≤ env.maxBufSize := Nat.zero_le _
  simp only [receiveUpload, bind_eq_ok, leaving_eq_ok, require_eq_ok, pure_eq_ok,
    receiveFile_eq_ok hnil, List.nil_append]
  constructor
  · rintro ⟨checksumMsg, hchecksum, -, height, countMsg, hcount, -, hfour, ⟨⟩, halloc, data,
      ⟨msgs, hlength, hcomes, rfl, hfits⟩, rfl⟩
    exact ⟨checksumMsg, msgs,
      ⟨⟨hchecksum, height, ⟨countMsg, hcount, hfour, hlength.symm⟩, halloc⟩, hcomes, hfits⟩, rfl⟩
  · rintro ⟨checksumMsg, msgs,
      ⟨⟨hchecksum, height, ⟨countMsg, hcount, hfour, hlength⟩, halloc⟩, hcomes, hfits⟩, rfl⟩
    exact ⟨checksumMsg, hchecksum, (), height, countMsg, hcount, (), hfour, (), halloc, _,
      ⟨msgs, hlength.symm, hcomes, rfl, hfits⟩, rfl⟩

/-- The three checks that leave with a success. -/
theorem receiveUpload_eq_none :
    receiveUpload env = .error none ↔
      (∃ checksumMsg, env.checksumMsg.answer = .ok checksumMsg ∧ checksumMsg.length ≠ 8) ∨
      (∃ checksumMsg countMsg, env.checksumMsg.answer = .ok checksumMsg ∧
        checksumMsg.length = 8 ∧ env.countMsg.waitFor env.numOfIterations .again = .ok countMsg ∧
        countMsg.length ≠ 4) ∨
      ∃ checksumMsg totalMsgs msgs, Announced env checksumMsg totalMsgs ∧
        msgs.length ≤ totalMsgs ∧ Comes env 0 msgs ∧ env.maxBufSize < msgs.flatten.length := by
  have hnil : ([] : List UInt8).length ≤ env.maxBufSize := Nat.zero_le _
  simp only [receiveUpload, bind_eq_error, leaving_eq_ok, leaving_ne_none, require_eq_ok,
    require_eq_none, false_or, receiveFile_eq_none hnil, List.nil_append]
  constructor
  · rintro ⟨checksumMsg, hchecksum, hlength | ⟨-, height, countMsg, hcount,
      hlength | ⟨-, hfour, ⟨⟩, halloc, ⟨msgs, hmsgs, hcomes, hlong⟩ | ⟨_, -, hpure⟩⟩⟩⟩
    · exact .inl ⟨checksumMsg, hchecksum, hlength⟩
    · exact .inr (.inl ⟨checksumMsg, countMsg, hchecksum, height, hcount, hlength⟩)
    · exact .inr (.inr ⟨checksumMsg, ntoh countMsg, msgs,
        ⟨hchecksum, height, ⟨countMsg, hcount, hfour, rfl⟩, halloc⟩, hmsgs, hcomes, hlong⟩)
    · contradiction
  · rintro (⟨checksumMsg, hchecksum, hlength⟩ |
      ⟨checksumMsg, countMsg, hchecksum, height, hcount, hlength⟩ |
      ⟨checksumMsg, _, msgs, ⟨hchecksum, height, ⟨countMsg, hcount, hfour, rfl⟩, halloc⟩,
        hmsgs, hcomes, hlong⟩)
    · exact ⟨checksumMsg, hchecksum, .inl hlength⟩
    · exact ⟨checksumMsg, hchecksum, .inr ⟨(), height, countMsg, hcount, .inl hlength⟩⟩
    · exact ⟨checksumMsg, hchecksum, .inr ⟨(), height, countMsg, hcount,
        .inr ⟨(), hfour, (), halloc, .inl ⟨msgs, hmsgs, hcomes, hlong⟩⟩⟩⟩

/-- The data is decompressed, has the checksum that was sent, and is written. -/
structure Delivers (env : Env) (checksumMsg : List UInt8) (msgs : List (List UInt8))
    (out : Decompressed) : Prop where
  uploads : Uploads env checksumMsg msgs
  decompressed : compressFile env msgs.flatten = .ok out
  checksum : calculateChecksum out.crc out.adler = ntohq checksumMsg
  opened : check env .openFile = .ok ()
  written : env.written = some out.data.length

theorem server_delivers {out : Decompressed} (h : Delivers env checksumMsg msgs out) :
    fileCompressionServer env = ⟨env.finishMsg,
      some (overwrite (env.oldFile.getD []) 0 out.data), some msgs.flatten⟩ := by
  unfold fileCompressionServer
  rw [receiveUpload_eq_ok.mpr ⟨checksumMsg, msgs, h.uploads, rfl⟩]
  dsimp only
  rw [h.decompressed]
  dsimp only
  rw [if_pos h.checksum, writeFile, h.opened]
  dsimp only
  rw [if_pos h.written, h.written, writeAt, List.take_length]
  rfl

theorem server_slips (h : receiveUpload env = .error none) :
    fileCompressionServer env = ⟨env.finishMsg, env.oldFile, none⟩ := by
  unfold fileCompressionServer
  rw [h]
  rfl

/-- A success comes from one of these two ways, with the finish message sent. -/
theorem server_cases (h : (fileCompressionServer env).result = none) :
    env.finishMsg = none ∧ (receiveUpload env = .error none ∨
      ∃ checksumMsg msgs out, Delivers env checksumMsg msgs out) := by
  unfold fileCompressionServer at h
  cases hupload : receiveUpload env with
  | error result =>
    cases result with
    | some err =>
      rw [hupload] at h
      contradiction
    | none =>
      rw [hupload] at h
      exact ⟨h, .inl rfl⟩
  | ok upload =>
    obtain ⟨checksumMsg, msgs, huploads, rfl⟩ := receiveUpload_eq_ok.mp hupload
    rw [hupload] at h
    dsimp only at h
    cases hout : compressFile env msgs.flatten with
    | error err =>
      rw [hout] at h
      contradiction
    | ok out =>
      rw [hout] at h
      dsimp only at h
      split at h
      · rename_i hchecksum
        unfold writeFile at h
        cases hopen : check env .openFile with
        | error err =>
          rw [hopen] at h
          contradiction
        | ok u =>
          rw [hopen] at h
          dsimp only at h
          split at h
          · rename_i hwritten
            exact ⟨h, .inr ⟨checksumMsg, msgs, out, huploads, hout, hchecksum, hopen, hwritten⟩⟩
          · contradiction
      · contradiction

theorem compressFile_engine {data : List UInt8} {out : Decompressed}
    (h : compressFile env data = .ok out) :
    env.engine data (dstBufSize env data.length) = out := by
  simp only [compressFile, compressFileHw, bind_eq_ok, pure_eq_ok] at h
  obtain ⟨-, -, -, -, hout⟩ := h
  exact hout

/-- A server that succeeds has received all the messages and decompressed them, with the
checksum it received, into its file. -/
def Sound (env : Env) : Prop :=
  (fileCompressionServer env).result = none → ∃ checksumMsg msgs,
    Uploads env checksumMsg msgs ∧
      (fileCompressionServer env).decompressed = some msgs.flatten ∧
      ∃ out, env.engine msgs.flatten (dstBufSize env msgs.flatten.length) = out ∧
        calculateChecksum out.crc out.adler = ntohq checksumMsg ∧
        (fileCompressionServer env).file = some out.data

/-- The messages have the lengths they should have and fit, and the file before is no longer
than the data that is written to it. -/
structure GoesWell (env : Env) : Prop where
  checksum : ∀ checksumMsg, env.checksumMsg.answer = .ok checksumMsg → checksumMsg.length = 8
  count : ∀ checksumMsg countMsg, env.checksumMsg.answer = .ok checksumMsg →
    env.countMsg.waitFor env.numOfIterations .again = .ok countMsg → countMsg.length = 4
  fits : ∀ checksumMsg totalMsgs msgs, Announced env checksumMsg totalMsgs →
    msgs.length ≤ totalMsgs → Comes env 0 msgs → msgs.flatten.length ≤ env.maxBufSize
  oldFile : ∀ checksumMsg msgs out, Delivers env checksumMsg msgs out →
    (env.oldFile.getD []).length ≤ out.data.length

theorem GoesWell.no_slip (h : GoesWell env) : receiveUpload env ≠ .error none := by
  rw [ne_eq, receiveUpload_eq_none]
  rintro (⟨checksumMsg, hchecksum, hlength⟩ |
    ⟨checksumMsg, countMsg, hchecksum, -, hcount, hlength⟩ |
    ⟨checksumMsg, totalMsgs, msgs, hannounced, hmsgs, hcomes, hlong⟩)
  · exact hlength (h.checksum checksumMsg hchecksum)
  · exact hlength (h.count checksumMsg countMsg hchecksum hcount)
  · exact Nat.not_lt.mpr (h.fits checksumMsg totalMsgs msgs hannounced hmsgs hcomes) hlong

theorem sound_of_goesWell (h : env.finishMsg = none → GoesWell env) : Sound env := by
  intro hnone
  obtain ⟨hfinish, hslip | ⟨checksumMsg, msgs, out, hdelivers⟩⟩ := server_cases hnone
  · exact absurd hslip (h hfinish).no_slip
  · have hold := (h hfinish).oldFile checksumMsg msgs out hdelivers
    rw [server_delivers hdelivers]
    refine ⟨checksumMsg, msgs, hdelivers.uploads, rfl, out,
      compressFile_engine hdelivers.decompressed, hdelivers.checksum, ?_⟩
    exact congrArg some ((overwrite_zero_eq_iff).mpr hold)

theorem Sound.no_slip (h : Sound env) (hfinish : env.finishMsg = none) :
    receiveUpload env ≠ .error none := by
  intro hslip
  rw [Sound, server_slips hslip] at h
  obtain ⟨_, _, -, hdecompressed, -⟩ := h hfinish
  contradiction

theorem goesWell_of_sound (h : Sound env) (hfinish : env.finishMsg = none) : GoesWell env := by
  have hslip := h.no_slip hfinish
  rw [ne_eq, receiveUpload_eq_none] at hslip
  have hchecksum : ∀ checksumMsg, env.checksumMsg.answer = .ok checksumMsg →
      checksumMsg.length = 8 := by
    intro checksumMsg hmsg
    by_contra hlength
    exact hslip (.inl ⟨checksumMsg, hmsg, hlength⟩)
  refine ⟨hchecksum, ?_, ?_, ?_⟩
  · intro checksumMsg countMsg hmsg hcount
    by_contra hlength
    exact hslip (.inr (.inl ⟨checksumMsg, countMsg, hmsg, hchecksum _ hmsg, hcount, hlength⟩))
  · intro checksumMsg totalMsgs msgs hannounced hmsgs hcomes
    by_contra hlong
    exact hslip (.inr (.inr ⟨checksumMsg, totalMsgs, msgs, hannounced, hmsgs, hcomes,
      Nat.not_le.mp hlong⟩))
  · intro checksumMsg msgs out hdelivers
    rw [Sound, server_delivers hdelivers] at h
    obtain ⟨_, msgs', -, hdecompressed, _, rfl, -, hfile⟩ := h hfinish
    rw [← Option.some.inj hdecompressed, compressFile_engine hdelivers.decompressed] at hfile
    exact (overwrite_zero_eq_iff).mp (Option.some.inj hfile)

/-- The server is sound on exactly the runs that go well, or whose finish message fails. -/
theorem server_succeeds_soundly_iff : Sound env ↔ (env.finishMsg = none → GoesWell env) :=
  ⟨goesWell_of_sound, sound_of_goesWell⟩

/-- A client that sends an empty checksum message. -/
def emptyChecksumEnv : Env where
  fails _ := none
  numOfIterations := 1000000
  maxBufSize := 134217728
  checksumMsg := ⟨0, .ok []⟩
  countMsg := ⟨0, .ok [0, 0, 0, 0]⟩
  dataMsg _ := ⟨0, .error .notConnected⟩
  engine _ _ := ⟨[], 0, 1⟩
  written := none
  oldFile := none
  finishMsg := none

/-- The server succeeds without having received any data. -/
theorem empty_checksum_succeeds : ¬ Sound emptyChecksumEnv := by
  intro h
  have hserver : fileCompressionServer emptyChecksumEnv = ⟨none, none, none⟩ := by decide +kernel
  rw [Sound, hserver] at h
  obtain ⟨_, _, -, hdecompressed, -⟩ := h rfl
  contradiction

end DocaApps.Proofs.FileCompression
