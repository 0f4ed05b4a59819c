import DocaApps.Proofs.ParamsLists

namespace DocaApps.Proofs.ParamsItems
open Common.FlowParser Common.StructParser Common.ParamsParser Common.ParamsLists Lib.CStrings
open Lib.Numerals Proofs.Strtol Proofs.ParamsParser Proofs.ParamsLists
open Common.FlowSkeleton (PipeType)

variable {K σ : Type} {key text rest : List Char} {strLen n : Nat} {st : σ}

theorem follows_ends (h : Follows rest) : Ends rest := by
  rcases h with rfl | ⟨t, rfl⟩
  · simp [Ends]
  · simpa [Ends] using (by decide : isDigitOf 36 ',' = false)

/-- A number is left where it ends; without one the text is left as it is. -/
def numberReading (text : List Char) : Reading := .left (strtol text 0).2

/-- A flag is left behind its first character, when the number that stands there is 0 or 1. -/
def flagReading (text : List Char) : Reading :=
  if (strtol text 0).2 = text then .refused
  else if BitVec.ofInt 32 (strtol text 0).1 = 1 ∨ BitVec.ofInt 32 (strtol text 0).1 = 0 then
    .left (text.drop 1)
  else .refused

/-- Commas in front are not counted, but a text is left behind as many characters as it has up to
the next one. -/
def tokenReading (text : List Char) : Reading :=
  match strtok text ',' with
  | none => .null
  | some token => .left (text.drop token.length)

def portReading (text : List Char) : Reading :=
  if (strtol text 0).2 = text then .refused else tokenReading text

/-- The name of a type, within the characters that are copied. -/
def typeReading (text : List Char) : Reading :=
  match strtok (text.take 127) ',' with
  | none => .null
  | some token =>
    if token = "basic".toList ∨ token = "control".toList then .left (text.drop token.length)
    else .refused

theorem strtoull_rest (s : List Char) : (strtoull s 0).2 = (strtol s 0).2 := by
  unfold strtoull strtol
  split
  · rfl
  · dsimp only
    generalize strtol.numberBase 0 (strtol.signed (s.dropWhile isSpace)).2 = number
    cases number.2.takeWhile (isDigitOf number.1) <;> rfl

theorem takeStrtoull_key (hkey : key.length = strLen)
    (hlen : (key ++ text).length < maxCmdlineInputLen) :
    takeStrtoull strLen (key ++ text) = strtoull text 0 := by
  rw [List.length_append] at hlen
  rw [takeStrtoull, List.drop_left' hkey, strlcpy_of_short (by omega)]

theorem takeStrtol_key (hkey : key.length = strLen)
    (hlen : (key ++ text).length < maxCmdlineInputLen) :
    takeStrtol strLen (key ++ text) = strtol text 0 := by
  rw [List.length_append] at hlen
  rw [takeStrtol, List.drop_left' hkey, strlcpy_of_short (by omega)]

theorem takeBool_does {flag : Bool} {set : Bool → σ} {good : σ → Prop} (hkey : key.length = strLen)
    (hgood : ∀ b, good (set b)) :
    Does (takeBool strLen (key ++ text) st flag set) good (flagReading text) := by
  unfold takeBool parseBoolParamsInput flagReading
  rw [List.drop_left' hkey]
  dsimp only
  by_cases hnone : (strtol text 0).2 = text
  · simp [hnone, Does]
  · by_cases hone : BitVec.ofInt 32 (strtol text 0).1 = 1#32
    · simp [hnone, hone, Does, hgood]
    · by_cases hzero : BitVec.ofInt 32 (strtol text 0).1 = 0#32
      · simp [hnone, hzero, Does, hgood]
      · simp [hnone, hone, hzero, Does]

def flagText : Bool → List Char
  | true => ['1']
  | false => ['0']

theorem flagText_number (v : Bool) : CNumber (flagText v) v.toNat := by
  cases v with
  | false => exact .octal ⟨by simp, by simp [isDigitOf, digitValue], rfl⟩
  | true =>
    exact .decimal ⟨by simp [flagText], by simp [flagText, isDigitOf, digitValue], rfl⟩
      (by simp [flagText])

theorem takeBool_takes {flag : Bool} {set : Bool → σ} (hkey : key.length = strLen) (v : Bool)
    (hrest : Follows rest) :
    takeBool strLen (key ++ (flagText v ++ rest)) st flag set = some (.ok rest, set (flag || v)) := by
  have hread := strtol_eq (flagText_number v) (follows_ends hrest)
  unfold takeBool parseBoolParamsInput
  rw [List.drop_left' hkey]
  dsimp only
  rw [hread]
  cases v with
  | false => simp [flagText, clampLong]
  | true => simp [flagText, clampLong]

theorem takeStrtol_takes (hkey : key.length = strLen) (h : CNumber text n) (hn : n < 2 ^ 63)
    (hrest : Follows rest) (hlen : (key ++ (text ++ rest)).length < maxCmdlineInputLen) :
    takeStrtol strLen (key ++ (text ++ rest)) = ((n : Int), rest) := by
  rw [takeStrtol_key hkey hlen, strtol_eq h (follows_ends hrest), clampLong_natCast hn]

theorem takeStrtoull_takes (hkey : key.length = strLen) (h : CNumber text n) (hn : n < 2 ^ 64)
    (hrest : Follows rest) (hlen : (key ++ (text ++ rest)).length < maxCmdlineInputLen) :
    takeStrtoull strLen (key ++ (text ++ rest)) = (n, rest) := by
  rw [takeStrtoull_key hkey hlen, strtoull_eq h (follows_ends hrest), clampUlong_of_lt hn]

theorem number_notMem {d : Char} (h : CNumber text n) (hd : isDigitOf 36 d = false) :
    d ∉ text := by
  have hsmall : ∀ base ≤ 36, isDigitOf base d = false := fun _ hle => isDigitOf_smaller hd hle
  cases h with
  | decimal number _ => exact number.sep_notMem (hsmall 10 (by decide))
  | octal number => exact number.sep_notMem (hsmall 8 (by decide))
  | hex number mark =>
    have htext := number.sep_notMem (hsmall 16 (by decide))
    have hzero : d ≠ '0' := by
      rintro rfl
      exact absurd hd (by decide)
    have hmark : d ≠ 'x' ∧ d ≠ 'X' := by
      constructor <;> rintro rfl <;> exact absurd hd (by decide)
    rcases mark with rfl | rfl <;> simp [htext, hzero, hmark]

theorem number_ne_nil (h : CNumber text n) : text ≠ [] := by
  obtain ⟨c, cs, rfl, -⟩ := number_head h
  simp

theorem strtok_follows (hne : text ≠ []) (hcomma : ',' ∉ text) (hrest : Follows rest) :
    strtok (text ++ rest) ',' = some text := by
  apply strtok_token hne hcomma
  rcases hrest with rfl | ⟨t, rfl⟩ <;> simp

def TypeWritten (text : List Char) (v : PipeType) : Prop :=
  text = "basic".toList ∧ v = .basic ∨ text = "control".toList ∧ v = .control

def createPipeValue : CreatePipeKey → Type
  | .portId => BitVec 16
  | .name => Option (List Char)
  | .type => PipeType
  | _ => Bool

/-- What the parameters of a pipe write: a port, a name, whether a part is used, and a type. -/
def createPipeWritten : (k : CreatePipeKey) → List Char → createPipeValue k → Prop
  | .portId, text, (v : BitVec 16) => CNumber text v.toNat
  | .name, text, (v : Option (List Char)) => v = some text ∧ text ≠ [] ∧ ',' ∉ text
  | .type, text, (v : PipeType) => TypeWritten text v
  | .rootEnable, text, (v : Bool) => text = flagText v
  | .monitor, text, (v : Bool) => text = flagText v
  | .matchMask, text, (v : Bool) => text = flagText v
  | .fwdMiss, text, (v : Bool) => text = flagText v
  | .fwd, text, (v : Bool) => text = flagText v

def createPipeView (cfg : CreatePipeParams) : (k : CreatePipeKey) → createPipeValue k
  | .portId => cfg.pipePortId
  | .name => cfg.name
  | .type => cfg.type
  | .rootEnable => cfg.isRoot
  | .monitor => cfg.monitor
  | .matchMask => cfg.matchMask
  | .fwdMiss => cfg.fwdMissAction
  | .fwd => cfg.fwdAction

/-- A name that is given again is left as it stands. -/
def createPipeReading (read : List CreatePipeKey) : CreatePipeKey → List Char → Reading
  | .portId, text => portReading text
  | .name, text => if .name ∈ read then .left ("name=".toList ++ text) else tokenReading text
  | .type, text => typeReading text
  | _, text => flagReading text

/-- Of a name its first characters are kept. -/
def createPipeKept : (k : CreatePipeKey) → createPipeValue k → createPipeValue k
  | .name, (v : Option (List Char)) => v.map (List.take maxFieldInputLen)
  | .portId, v => v
  | .type, v => v
  | .rootEnable, v => v
  | .monitor, v => v
  | .matchMask, v => v
  | .fwdMiss, v => v
  | .fwd, v => v

/-- The state tells of a port and of a name that were read. -/
def CreatePipeKnows (read : List CreatePipeKey) (cfg : CreatePipeParams) : Prop :=
  ∀ m ∈ [CreatePipeKey.portId, .name], createPipeParams.has cfg m = true ↔ m ∈ read

theorem createPipeKnows_iff {read : List CreatePipeKey} {cfg : CreatePipeParams} :
    CreatePipeKnows read cfg ↔
      (cfg.hasPortId = true ↔ .portId ∈ read) ∧ (cfg.name.isSome = true ↔ .name ∈ read) := by
  simp [CreatePipeKnows, createPipeParams]

theorem tokenReading_does {good : σ → Prop} {set : List Char → σ} (hgood : ∀ v, good (set v)) :
    Does (match strtok text ',' with
      | none => none
      | some token => some (.ok (text.drop token.length), set token)) good (tokenReading text) := by
  unfold tokenReading
  cases strtok text ',' with
  | none => rfl
  | some token => exact ⟨_, rfl, hgood token⟩

theorem parsePipeType_cases (token : List Char) :
    (token = "basic".toList ∨ token = "control".toList) ∧ (∃ t, parsePipeType token = .ok t) ∨
      ¬ (token = "basic".toList ∨ token = "control".toList) ∧
        ∃ e, parsePipeType token = .error e := by
  unfold parsePipeType
  split
  · exact .inl ⟨.inl ‹_›, _, rfl⟩
  · split
    · exact .inl ⟨.inr ‹_›, _, rfl⟩
    · exact .inr ⟨not_or.mpr ⟨‹_›, ‹_›⟩, _, rfl⟩

theorem createPipe_reads {read : List CreatePipeKey} {k : CreatePipeKey}
    {cfg : CreatePipeParams} (hlen : (k.text ++ text).length < maxCmdlineInputLen)
    (hknows : CreatePipeKnows read cfg) :
    Does (k.take (k.text ++ text) cfg) (CreatePipeKnows (k :: read))
      (createPipeReading read k text) := by
  have hknows' := createPipeKnows_iff.mp hknows
  rw [List.length_append] at hlen
  have hcopy : strlcpy text maxCmdlineInputLen = text := strlcpy_of_short (by omega)
  cases k with
  | portId =>
    have hdrop : (CreatePipeKey.portId.text ++ text).drop portIdStrLen = text :=
      List.drop_left' (by decide)
    simp only [CreatePipeKey.take, createPipeReading, portReading, hdrop, hcopy]
    split
    · exact ⟨_, _, rfl⟩
    · apply tokenReading_does
      intro v
      simpa [createPipeKnows_iff] using hknows'.2
  | name =>
    have hdrop : (CreatePipeKey.name.text ++ text).drop nameStrLen = text :=
      List.drop_left' (by decide)
    simp only [CreatePipeKey.take, createPipeReading, hdrop, hcopy]
    cases hname : cfg.name with
    | some v =>
      rw [if_pos (hknows'.2.mp (by simp [hname]))]
      refine ⟨cfg, rfl, createPipeKnows_iff.mpr ?_⟩
      simpa [hname] using hknows'.1
    | none =>
      rw [if_neg (fun h => by simpa [hname] using hknows'.2.mpr h)]
      apply tokenReading_does
      intro v
      simpa [createPipeKnows_iff] using hknows'.1
  | rootEnable =>
    apply takeBool_does (by decide)
    intro b
    cases b <;> simpa [createPipeKnows_iff] using hknows'
  | monitor =>
    apply takeBool_does (by decide)
    intro b
    cases b <;> simpa [createPipeKnows_iff] using hknows'
  | matchMask =>
    apply takeBool_does (by decide)
    intro b
    cases b <;> simpa [createPipeKnows_iff] using hknows'
  | fwdMiss =>
    apply takeBool_does (by decide)
    intro b
    simpa [createPipeKnows_iff] using hknows'
  | fwd =>
    apply takeBool_does (by decide)
    intro b
    simpa [createPipeKnows_iff] using hknows'
  | type =>
    have hdrop : (CreatePipeKey.type.text ++ text).drop typeStrLen = text :=
      List.drop_left' (by decide)
    have hcut : strlcpy text maxFieldInputLen = text.take 127 := rfl
    simp only [CreatePipeKey.take, createPipeReading, typeReading, hdrop, hcut]
    cases strtok (text.take 127) ',' with
    | none => rfl
    | some token =>
      rcases parsePipeType_cases token with ⟨hname, t, hparse⟩ | ⟨hname, e, hparse⟩
      · simp only [hparse, if_pos hname]
        refine ⟨_, rfl, createPipeKnows_iff.mpr ?_⟩
        simpa using hknows'
      · simp only [hparse, if_neg hname]
        exact ⟨_, _, rfl⟩

theorem ofInt_toNat {w : Nat} (v : BitVec w) : BitVec.ofInt w (v.toNat : Int) = v := by simp

theorem follows_take (h : Follows rest) (m : Nat) : Follows (rest.take m) := by
  rcases h with rfl | ⟨t, rfl⟩
  · exact .inl (by simp)
  · cases m with
    | zero => exact .inl rfl
    | succ m => exact .inr ⟨_, rfl⟩

theorem typeWritten_parse {v : PipeType} (h : TypeWritten text v) : parsePipeType text = .ok v := by
  rcases h with ⟨rfl, rfl⟩ | ⟨rfl, rfl⟩ <;> decide

theorem strtok_type {v : PipeType} (h : TypeWritten text v) (hrest : Follows rest) :
    strtok (strlcpy (text ++ rest) maxFieldInputLen) ',' = some text := by
  have hlen : text.length ≤ 127 ∧ text ≠ [] ∧ ',' ∉ text := by
    rcases h with ⟨rfl, -⟩ | ⟨rfl, -⟩ <;> decide
  have hcut : strlcpy (text ++ rest) maxFieldInputLen = text ++ rest.take (127 - text.length) := by
    have hsize : maxFieldInputLen - 1 = 127 := rfl
    rw [strlcpy, hsize, List.take_append, List.take_of_length_le hlen.1]
  rw [hcut]
  exact strtok_follows hlen.2.1 hlen.2.2 (follows_take hrest _)

theorem ofNat_toNat {w : Nat} (v : BitVec w) : BitVec.ofNat w v.toNat = v := by simp

theorem createPipe_takes {k : CreatePipeKey} {v : createPipeValue k} {port : BitVec 16}
    {cfg : CreatePipeParams} (hw : createPipeWritten k text v)
    (hfresh : createPipeView cfg k = createPipeView { pipePortId := port } k)
    (hrest : Follows rest) (hlen : (k.text ++ (text ++ rest)).length < maxCmdlineInputLen) :
    ∃ cfg', k.take (k.text ++ (text ++ rest)) cfg = some (.ok rest, cfg') ∧
      createPipeView cfg' k = createPipeKept k v ∧
      ∀ k', k' ≠ k → createPipeView cfg' k' = createPipeView cfg k' := by
  rw [List.length_append] at hlen
  have hcopy : strlcpy (text ++ rest) maxCmdlineInputLen = text ++ rest :=
    strlcpy_of_short (by omega)
  cases k with
  | portId =>
    have hnumber : CNumber text (BitVec.toNat v) := hw
    have hdrop : (CreatePipeKey.portId.text ++ (text ++ rest)).drop portIdStrLen = text ++ rest :=
      List.drop_left' (by decide)
    have hread := strtol_eq hnumber (follows_ends hrest)
    have hlt := BitVec.isLt v
    have htoken := strtok_follows (number_ne_nil hnumber) (number_notMem hnumber (by decide)) hrest
    have hmoved : rest ≠ text ++ rest := by simpa using number_ne_nil hnumber
    simp only [CreatePipeKey.take, hdrop, hcopy, hread, if_neg hmoved, htoken, List.drop_left]
    refine ⟨_, rfl, ?_, ?_⟩
    · rw [clampLong_natCast (by omega)]
      exact ofInt_toNat v
    · intro k' hk'
      cases k' <;> first | rfl | exact absurd rfl hk'
  | name =>
    obtain ⟨rfl, hne, hcomma⟩ := hw
    have hnone : cfg.name = none := hfresh
    have hdrop : (CreatePipeKey.name.text ++ (text ++ rest)).drop nameStrLen = text ++ rest :=
      List.drop_left' (by decide)
    have htoken := strtok_follows hne hcomma hrest
    simp only [CreatePipeKey.take, hnone, hdrop, hcopy, htoken, List.drop_left]
    refine ⟨_, rfl, rfl, ?_⟩
    intro k' hk'
    cases k' <;> first | rfl | exact absurd rfl hk'
  | rootEnable =>
    obtain rfl : text = flagText v := hw
    have hfalse : cfg.isRoot = false := hfresh
    refine ⟨_, takeBool_takes (by decide) v hrest, ?_, ?_⟩
    · cases v with
      | false => exact hfalse
      | true => rfl
    · intro k' hk'
      cases v <;> cases k' <;> first | rfl | exact absurd rfl hk'
  | monitor =>
    obtain rfl : text = flagText v := hw
    have hfalse : cfg.monitor = false := hfresh
    refine ⟨_, takeBool_takes (by decide) v hrest, ?_, ?_⟩
    · cases v with
      | false => exact hfalse
      | true => rfl
    · intro k' hk'
      cases v <;> cases k' <;> first | rfl | exact absurd rfl hk'
  | matchMask =>
    obtain rfl : text = flagText v := hw
    have hfalse : cfg.matchMask = false := hfresh
    refine ⟨_, takeBool_takes (by decide) v hrest, ?_, ?_⟩
    · cases v with
      | false => exact hfalse
      | true => rfl
    · intro k' hk'
      cases v <;> cases k' <;> first | rfl | exact absurd rfl hk'
  | fwdMiss =>
    obtain rfl : text = flagText v := hw
    have hfalse : cfg.fwdMissAction = false := hfresh
    refine ⟨_, takeBool_takes (by decide) v hrest, by rw [hfalse]; rfl, ?_⟩
    intro k' hk'
    cases k' <;> first | rfl | exact absurd rfl hk'
  | fwd =>
    obtain rfl : text = flagText v := hw
    have hfalse : cfg.fwdAction = false := hfresh
    refine ⟨_, takeBool_takes (by decide) v hrest, by rw [hfalse]; rfl, ?_⟩
    intro k' hk'
    cases k' <;> first | rfl | exact absurd rfl hk'
  | type =>
    have hdrop : (CreatePipeKey.type.text ++ (text ++ rest)).drop typeStrLen = text ++ rest :=
      List.drop_left' (by decide)
    have htoken := strtok_type hw hrest
    simp only [CreatePipeKey.take, hdrop]
    rw [htoken]
    simp only [typeWritten_parse hw, List.drop_left]
    refine ⟨_, rfl, rfl, ?_⟩
    intro k' hk'
    cases k' <;> first | rfl | exact absurd rfl hk'

/-- `create pipe`, on whatever port the last one was. -/
def createPipe (port : BitVec 16) : Command CreatePipeKey CreatePipeParams where
  params := createPipeParams
  Value := createPipeValue
  Written := createPipeWritten
  view := createPipeView
  start := { pipePortId := port }
  reading := createPipeReading
  kept := createPipeKept
  regular _ := True
  noted := [.portId, .name]
  mandatory_nonempty := by simp [createPipeParams]
  mandatory_noted := by simp [createPipeParams]
  start_noted := by simp [createPipeParams]
  finds := by
    intro k text
    cases k <;> rfl
  reads := fun _ _ _ _ hlen hknows => createPipe_reads hlen hknows
  takes := fun _ _ _ _ _ hw _ hfresh hrest hlen => createPipe_takes hw hfresh hrest hlen

theorem takeStrtol_does {taken : Taken σ} {good : σ → Prop} (hkey : key.length = strLen)
    (hlen : (key ++ text).length < maxCmdlineInputLen)
    (htaken : taken = some (.ok (takeStrtol strLen (key ++ text)).2, st)) (hgood : good st) :
    Does taken good (numberReading text) := by
  rw [htaken, takeStrtol_key hkey hlen]
  exact ⟨st, rfl, hgood⟩

theorem takeStrtoull_does {taken : Taken σ} {good : σ → Prop} (hkey : key.length = strLen)
    (hlen : (key ++ text).length < maxCmdlineInputLen)
    (htaken : taken = some (.ok (takeStrtoull strLen (key ++ text)).2, st)) (hgood : good st) :
    Does taken good (numberReading text) := by
  rw [htaken, takeStrtoull_key hkey hlen, strtoull_rest]
  exact ⟨st, rfl, hgood⟩

def addEntryValue : AddEntryKey → Type
  | .pipeId => BitVec 64
  | .pipeQueue => BitVec 32
  | _ => Bool

/-- What the parameters of an entry write; the queue is an `int`. -/
def addEntryWritten : (k : AddEntryKey) → List Char → addEntryValue k → Prop
  | .pipeId, text, (v : BitVec 64) => CNumber text v.toNat
  | .pipeQueue, text, (v : BitVec 32) => CNumber text v.toNat ∧ v.toNat < 2 ^ 31
  | .monitor, text, (v : Bool) => text = flagText v
  | .fwd, text, (v : Bool) => text = flagText v

def addEntryView (st : AddEntryParams) : (k : AddEntryKey) → addEntryValue k
  | .pipeId => st.pipeId
  | .pipeQueue => st.pipeQueue
  | .monitor => st.monitorAction
  | .fwd => st.fwdAction

def addEntryReading : AddEntryKey → List Char → Reading
  | .pipeId, text => numberReading text
  | .pipeQueue, text => numberReading text
  | _, text => flagReading text

def AddEntryKnows (read : List AddEntryKey) (st : AddEntryParams) : Prop :=
  ∀ m ∈ [AddEntryKey.pipeId, .pipeQueue], addEntryParams.has st m = true ↔ m ∈ read

theorem addEntryKnows_iff {read : List AddEntryKey} {st : AddEntryParams} :
    AddEntryKnows read st ↔
      (st.hasPipeId = true ↔ .pipeId ∈ read) ∧ (st.hasPipeQueue = true ↔ .pipeQueue ∈ read) := by
  simp [AddEntryKnows, addEntryParams]

theorem addEntry_reads {read : List AddEntryKey} {k : AddEntryKey} {st : AddEntryParams}
    (hlen : (k.text ++ text).length < maxCmdlineInputLen) (hknows : AddEntryKnows read st) :
    Does (k.take (k.text ++ text) st) (AddEntryKnows (k :: read)) (addEntryReading k text) := by
  have hknows' := addEntryKnows_iff.mp hknows
  cases k with
  | pipeId =>
    have hkey : AddEntryKey.pipeId.text.length = pipeIdStrLen := by decide
    apply takeStrtoull_does hkey hlen rfl
    simpa [addEntryKnows_iff] using hknows'.2
  | pipeQueue =>
    have hkey : AddEntryKey.pipeQueue.text.length = pipeQueueStrLen := by decide
    apply takeStrtol_does hkey hlen rfl
    simpa [addEntryKnows_iff] using hknows'.1
  | monitor =>
    apply takeBool_does (by decide)
    intro b
    simpa [addEntryKnows_iff] using hknows'
  | fwd =>
    apply takeBool_does (by decide)
    intro b
    simpa [addEntryKnows_iff] using hknows'

theorem addEntry_takes {k : AddEntryKey} {v : addEntryValue k} {st : AddEntryParams}
    (hw : addEntryWritten k text v) (hfresh : addEntryView st k = addEntryView {} k)
    (hrest : Follows rest) (hlen : (k.text ++ (text ++ rest)).length < maxCmdlineInputLen) :
    ∃ st', k.take (k.text ++ (text ++ rest)) st = some (.ok rest, st') ∧
      addEntryView st' k = v ∧ ∀ k', k' ≠ k → addEntryView st' k' = addEntryView st k' := by
  cases k with
  | pipeId =>
    have hkey : AddEntryKey.pipeId.text.length = pipeIdStrLen := by decide
    have hlt := BitVec.isLt v
    have hread := takeStrtoull_takes hkey hw hlt hrest hlen
    simp only [AddEntryKey.take, hread]
    refine ⟨_, rfl, ofNat_toNat v, ?_⟩
    intro k' hk'
    cases k' <;> first | rfl | exact absurd rfl hk'
  | pipeQueue =>
    have hkey : AddEntryKey.pipeQueue.text.length = pipeQueueStrLen := by decide
    have hlt := BitVec.isLt v
    have hread := takeStrtol_takes hkey hw.1 (by omega) hrest hlen
    simp only [AddEntryKey.take, hread]
    refine ⟨_, rfl, ofInt_toNat v, ?_⟩
    intro k' hk'
    cases k' <;> first | rfl | exact absurd rfl hk'
  | monitor =>
    obtain rfl : text = flagText v := hw
    have hfalse : st.monitorAction = false := hfresh
    refine ⟨_, takeBool_takes (by decide) v hrest, by rw [hfalse]; rfl, ?_⟩
    intro k' hk'
    cases k' <;> first | rfl | exact absurd rfl hk'
  | fwd =>
    obtain rfl : text = flagText v := hw
    have hfalse : st.fwdAction = false := hfresh
    refine ⟨_, takeBool_takes (by decide) v hrest, by rw [hfalse]; rfl, ?_⟩
    intro k' hk'
    cases k' <;> first | rfl | exact absurd rfl hk'

def addEntry : Command AddEntryKey AddEntryParams where
  params := addEntryParams
  Value := addEntryValue
  Written := addEntryWritten
  view := addEntryView
  start := {}
  reading _ := addEntryReading
  kept _ v := v
  regular _ := True
  noted := [.pipeId, .pipeQueue]
  mandatory_nonempty := by simp [addEntryParams]
  mandatory_noted := by simp [addEntryParams]
  start_noted := by simp [addEntryParams]
  finds := by
    intro k text
    cases k <;> rfl
  reads := fun _ _ _ _ hlen hknows => addEntry_reads hlen hknows
  takes := fun _ _ _ _ _ hw _ hfresh hrest hlen => addEntry_takes hw hfresh hrest hlen

def controlEntryValue : ControlEntryKey → Type
  | .pipeId => BitVec 64
  | .pipeQueue => BitVec 16
  | .priority => BitVec 8
  | _ => Bool

def controlEntryWritten : (k : ControlEntryKey) → List Char → controlEntryValue k → Prop
  | .pipeId, text, (v : BitVec 64) => CNumber text v.toNat
  | .pipeQueue, text, (v : BitVec 16) => CNumber text v.toNat
  | .priority, text, (v : BitVec 8) => CNumber text v.toNat
  | .matchMask, text, (v : Bool) => text = flagText v
  | .fwd, text, (v : Bool) => text = flagText v

def controlEntryView (st : ControlEntryParams) : (k : ControlEntryKey) → controlEntryValue k
  | .pipeId => st.pipeId
  | .pipeQueue => st.pipeQueue
  | .priority => st.priority
  | .matchMask => st.matchMaskAction
  | .fwd => st.fwdAction

def controlEntryReading : ControlEntryKey → List Char → Reading
  | .pipeId, text => numberReading text
  | .pipeQueue, text => numberReading text
  | .priority, text => numberReading text
  | _, text => flagReading text

def ControlEntryKnows (read : List ControlEntryKey) (st : ControlEntryParams) : Prop :=
  ∀ m ∈ [ControlEntryKey.pipeId, .pipeQueue, .priority],
    controlEntryParams.has st m = true ↔ m ∈ read

theorem controlEntryKnows_iff {read : List ControlEntryKey} {st : ControlEntryParams} :
    ControlEntryKnows read st ↔
      (st.hasPipeId = true ↔ .pipeId ∈ read) ∧ (st.hasPipeQueue = true ↔ .pipeQueue ∈ read) ∧
        (st.hasPriority = true ↔ .priority ∈ read) := by
  simp [ControlEntryKnows, controlEntryParams]

theorem controlEntry_reads {read : List ControlEntryKey} {k : ControlEntryKey}
    {st : ControlEntryParams} (hlen : (k.text ++ text).length < maxCmdlineInputLen)
    (hknows : ControlEntryKnows read st) :
    Does (k.take (k.text ++ text) st) (ControlEntryKnows (k :: read))
      (controlEntryReading k text) := by
  have hknows' := controlEntryKnows_iff.mp hknows
  cases k with
  | pipeId =>
    have hkey : ControlEntryKey.pipeId.text.length = pipeIdStrLen := by decide
    apply takeStrtoull_does hkey hlen rfl
    simpa [controlEntryKnows_iff] using hknows'.2
  | pipeQueue =>
    have hkey : ControlEntryKey.pipeQueue.text.length = pipeQueueStrLen := by decide
    apply takeStrtol_does hkey hlen rfl
    simpa [controlEntryKnows_iff] using ⟨hknows'.1, hknows'.2.2⟩
  | priority =>
    have hkey : ControlEntryKey.priority.text.length = priorityStrLen := by decide
    apply takeStrtol_does hkey hlen rfl
    simpa [controlEntryKnows_iff] using ⟨hknows'.1, hknows'.2.1⟩
  | matchMask =>
    apply takeBool_does (by decide)
    intro b
    simpa [controlEntryKnows_iff] using hknows'
  | fwd =>
    apply takeBool_does (by decide)
    intro b
    simpa [controlEntryKnows_iff] using hknows'

theorem controlEntry_takes {k : ControlEntryKey} {v : controlEntryValue k}
    {st : ControlEntryParams} (hw : controlEntryWritten k text v)
    (hfresh : controlEntryView st k = controlEntryView {} k) (hrest : Follows rest)
    (hlen : (k.text ++ (text ++ rest)).length < maxCmdlineInputLen) :
    ∃ st', k.take (k.text ++ (text ++ rest)) st = some (.ok rest, st') ∧
      controlEntryView st' k = v ∧
      ∀ k', k' ≠ k → controlEntryView st' k' = controlEntryView st k' := by
  cases k with
  | pipeId =>
    have hkey : ControlEntryKey.pipeId.text.length = pipeIdStrLen := by decide
    have hlt := BitVec.isLt v
    have hread := takeStrtoull_takes hkey hw hlt hrest hlen
    simp only [ControlEntryKey.take, hread]
    refine ⟨_, rfl, ofNat_toNat v, ?_⟩
    intro k' hk'
    cases k' <;> first | rfl | exact absurd rfl hk'
  | pipeQueue =>
    have hkey : ControlEntryKey.pipeQueue.text.length = pipeQueueStrLen := by decide
    have hlt := BitVec.isLt v
    have hread := takeStrtol_takes hkey hw (by omega) hrest hlen
    simp only [ControlEntryKey.take, hread]
    refine ⟨_, rfl, ofInt_toNat v, ?_⟩
    intro k' hk'
    cases k' <;> first | rfl | exact absurd rfl hk'
  | priority =>
    have hkey : ControlEntryKey.priority.text.length = priorityStrLen := by decide
    have hlt := BitVec.isLt v
    have hread := takeStrtol_takes hkey hw (by omega) hrest hlen
    simp only [ControlEntryKey.take, hread]
    refine ⟨_, rfl, ofInt_toNat v, ?_⟩
    intro k' hk'
    cases k' <;> first | rfl | exact absurd rfl hk'
  | matchMask =>
    obtain rfl : text = flagText v := hw
    have hfalse : st.matchMaskAction = false := hfresh
    refine ⟨_, takeBool_takes (by decide) v hrest, by rw [hfalse]; rfl, ?_⟩
    intro k' hk'
    cases k' <;> first | rfl | exact absurd rfl hk'
  | fwd =>
    obtain rfl : text = flagText v := hw
    have hfalse : st.fwdAction = false := hfresh
    refine ⟨_, takeBool_takes (by decide) v hrest, by rw [hfalse]; rfl, ?_⟩
    intro k' hk'
    cases k' <;> first | rfl | exact absurd rfl hk'

def controlEntry : Command ControlEntryKey ControlEntryParams where
  params := controlEntryParams
  Value := controlEntryValue
  Written := controlEntryWritten
  view := controlEntryView
  start := {}
  reading _ := controlEntryReading
  kept _ v := v
  regular _ := True
  noted := [.pipeId, .pipeQueue, .priority]
  mandatory_nonempty := by simp [controlEntryParams]
  mandatory_noted := by simp [controlEntryParams]
  start_noted := by simp [controlEntryParams]
  finds := by
    intro k text
    cases k <;> rfl
  reads := fun _ _ _ _ hlen hknows => controlEntry_reads hlen hknows
  takes := fun _ _ _ _ _ hw _ hfresh hrest hlen => controlEntry_takes hw hfresh hrest hlen

def entryValue : EntryKey → Type
  | .pipeQueue => BitVec 16
  | .entryId => BitVec 64

def entryWritten : (k : EntryKey) → List Char → entryValue k → Prop
  | .pipeQueue, text, (v : BitVec 16) => CNumber text v.toNat
  | .entryId, text, (v : BitVec 64) => CNumber text v.toNat

def entryView (st : EntryParams) : (k : EntryKey) → entryValue k
  | .pipeQueue => st.pipeQueue
  | .entryId => st.entryId

/-- Without a place for the queue the reading stops in front of its number. -/
def entryReading (queueGiven : Bool) : EntryKey → List Char → Reading
  | .pipeQueue, text => if queueGiven then numberReading text else .left text
  | .entryId, text => numberReading text

def EntryKnows (read : List EntryKey) (st : EntryParams) : Prop :=
  ∀ m ∈ [EntryKey.pipeQueue, .entryId], (entryParams true true).has st m = true ↔ m ∈ read

theorem entryKnows_iff {read : List EntryKey} {st : EntryParams} :
    EntryKnows read st ↔
      (st.hasPipeQueue = true ↔ .pipeQueue ∈ read) ∧
        (st.hasEntryId = true ↔ .entryId ∈ read) := by
  simp [EntryKnows, entryParams]

theorem entry_reads {queueGiven : Bool} {read : List EntryKey} {k : EntryKey} {st : EntryParams}
    (hlen : (k.text ++ text).length < maxCmdlineInputLen) (hknows : EntryKnows read st) :
    Does (k.take queueGiven (k.text ++ text) st) (EntryKnows (k :: read))
      (entryReading queueGiven k text) := by
  have hknows' := entryKnows_iff.mp hknows
  cases k with
  | pipeQueue =>
    have hkey : EntryKey.pipeQueue.text.length = pipeQueueStrLen := by decide
    cases queueGiven with
    | true =>
      apply takeStrtol_does hkey hlen rfl
      simpa [entryKnows_iff] using hknows'.2
    | false =>
      have hdrop : (EntryKey.pipeQueue.text ++ text).drop pipeQueueStrLen = text :=
        List.drop_left' hkey
      refine ⟨{ st with hasPipeQueue := true }, by simp [EntryKey.take, hdrop], ?_⟩
      simpa [entryKnows_iff] using hknows'.2
  | entryId =>
    have hkey : EntryKey.entryId.text.length = entryIdStrLen := by decide
    apply takeStrtoull_does hkey hlen rfl
    simpa [entryKnows_iff] using hknows'.1

theorem entry_takes {queueGiven : Bool} {k : EntryKey} {v : entryValue k} {st : EntryParams}
    (hw : entryWritten k text v) (hgiven : queueGiven = true ∨ k ≠ .pipeQueue)
    (hrest : Follows rest) (hlen : (k.text ++ (text ++ rest)).length < maxCmdlineInputLen) :
    ∃ st', k.take queueGiven (k.text ++ (text ++ rest)) st = some (.ok rest, st') ∧
      entryView st' k = v ∧ ∀ k', k' ≠ k → entryView st' k' = entryView st k' := by
  cases k with
  | pipeQueue =>
    obtain rfl : queueGiven = true := by simpa using hgiven
    have hkey : EntryKey.pipeQueue.text.length = pipeQueueStrLen := by decide
    have hlt := BitVec.isLt v
    have hread := takeStrtol_takes hkey hw (by omega) hrest hlen
    simp only [EntryKey.take, hread]
    refine ⟨_, rfl, ofInt_toNat v, ?_⟩
    intro k' hk'
    cases k' <;> first | rfl | exact absurd rfl hk'
  | entryId =>
    have hkey : EntryKey.entryId.text.length = entryIdStrLen := by decide
    have hlt := BitVec.isLt v
    have hread := takeStrtoull_takes hkey hw hlt hrest hlen
    simp only [EntryKey.take, hread]
    refine ⟨_, rfl, ofNat_toNat v, ?_⟩
    intro k' hk'
    cases k' <;> first | rfl | exact absurd rfl hk'

/-- `rm entry` gives a place for the queue and demands it; `query` does neither. -/
def entry (queueGiven : Bool) : Command EntryKey EntryParams where
  params := entryParams queueGiven queueGiven
  Value := entryValue
  Written := entryWritten
  view := entryView
  start := {}
  reading _ := entryReading queueGiven
  kept _ v := v
  regular k := queueGiven = true ∨ k ≠ .pipeQueue
  noted := [.pipeQueue, .entryId]
  mandatory_nonempty := by cases queueGiven <;> simp [entryParams]
  mandatory_noted := by cases queueGiven <;> simp [entryParams]
  start_noted := by simp [entryParams]
  finds := by
    intro k text
    cases k <;> rfl
  reads := fun _ _ _ _ hlen hknows => entry_reads hlen hknows
  takes := fun _ _ _ _ _ hw hregular _ hrest hlen => entry_takes hw hregular hrest hlen

end DocaApps.Proofs.ParamsItems
