import DocaApps.Common.ParamsParser
import DocaApps.Common.FlowSkeleton

namespace DocaApps.Common.ParamsLists
open Common.FlowParser Common.StructParser Common.ParamsParser Lib.CStrings
open Common.FlowSkeleton (PipeType)

theorem signed_shorter (s : List Char) : (strtol.signed s).2.length ≤ s.length := by
  unfold strtol.signed
  split <;> simp

theorem numberBase_shorter (base : Nat) (s : List Char) :
    (strtol.numberBase base s).2.length ≤ s.length := by
  unfold strtol.numberBase
  split
  · split
    · simp
    · split <;> simp
  · split <;> simp
  · split <;> simp

theorem digits_shorter (p : Char → Bool) (base : Nat) (s : List Char) :
    ((strtol.numberBase base (strtol.signed (s.dropWhile isSpace)).2).2.dropWhile p).length ≤
      s.length :=
  calc _ ≤ (strtol.numberBase base (strtol.signed (s.dropWhile isSpace)).2).2.length :=
        (List.dropWhile_sublist _).length_le
    _ ≤ (strtol.signed (s.dropWhile isSpace)).2.length := numberBase_shorter _ _
    _ ≤ (s.dropWhile isSpace).length := signed_shorter _
    _ ≤ s.length := (List.dropWhile_sublist _).length_le

theorem strtol_shorter (s : List Char) (base : Nat) : (strtol s base).2.length ≤ s.length := by
  unfold strtol
  split
  · exact le_rfl
  · dsimp only
    split
    · exact le_rfl
    · exact digits_shorter _ _ _

theorem strtoull_shorter (s : List Char) (base : Nat) :
    (strtoull s base).2.length ≤ s.length := by
  unfold strtoull
  split
  · exact le_rfl
  · dsimp only
    split
    · exact le_rfl
    · exact digits_shorter _ _ _

variable {K σ : Type}

/-- What a branch of the loop makes of the text at its key: an error, or the text from where the
reading goes on. `none` stands for a read through `NULL`. -/
abbrev Taken (σ : Type) := Option (Except DocaError (List Char) × σ)

/-- The parameters of a command: its keys in the order of the branches, what each branch takes,
and the parameters that are asked for behind the loop. The reading never goes back. -/
structure Params (K σ : Type) where
  keys : List K
  text : K → List Char
  take : K → List Char → σ → Taken σ
  mandatory : List K
  has : σ → K → Bool
  onward : ∀ k s st rest st', take k s st = some (.ok rest, st') → rest.length ≤ s.length

def Params.round (p : Params K σ) (s : List Char) (st : σ) : Taken σ :=
  match p.keys.find? (fun k => (p.text k).isPrefixOf s) with
  | none => some (.error .invalidValue, st)
  | some k => p.take k s st

theorem Params.round_onward (p : Params K σ) {s rest : List Char} {st st' : σ}
    (h : p.round s st = some (.ok rest, st')) : rest.length ≤ s.length := by
  unfold Params.round at h
  split at h
  · cases h
  · exact p.onward _ _ _ _ _ h

/-- The loop goes on as long as the character behind what was read is a comma. -/
def Params.loop (p : Params K σ) (s : List Char) (st : σ) : Option (Except DocaError Unit × σ) :=
  match _hround : p.round s st with
  | none => none
  | some (.error e, st) => some (.error e, st)
  | some (.ok [], st) => some (.ok (), st)
  | some (.ok (tmpChar :: paramsStr), st) =>
    if tmpChar = ',' then p.loop paramsStr st else some (.ok (), st)
termination_by s.length
decreasing_by
  have hlen := p.round_onward _hround
  simpa using hlen

def Params.parse (p : Params K σ) (s : List Char) (st : σ) :
    Option (Except DocaError Unit × σ) :=
  match p.loop s st with
  | some (.ok (), st) =>
    if p.mandatory.all (p.has st) then some (.ok (), st) else some (.error .invalidValue, st)
  | ended => ended

def portIdStrLen : Nat := 8
def nameStrLen : Nat := 5
def rootEnableStrLen : Nat := 12
def monitorStrLen : Nat := 8
def matchMaskStrLen : Nat := 11
def missFwdStrLen : Nat := 9
def fwdStrLen : Nat := 4
def typeStrLen : Nat := 5
def pipeIdStrLen : Nat := 8
def pipeQueueStrLen : Nat := 11
def priorityStrLen : Nat := 9
def entryIdStrLen : Nat := 9

/-- The number behind a key, in a copy of the text that the reading then goes on in. -/
def takeStrtol (strLen : Nat) (s : List Char) : Int × List Char :=
  strtol (strlcpy (s.drop strLen) maxCmdlineInputLen) 0

def takeStrtoull (strLen : Nat) (s : List Char) : Nat × List Char :=
  strtoull (strlcpy (s.drop strLen) maxCmdlineInputLen) 0

def parseBoolParamsInput (paramsStr : List Char) (paramStrLen : Nat) (takeAction : Bool) :
    Except DocaError (List Char × Bool) :=
  let paramsStr := paramsStr.drop paramStrLen
  let (value, ptr) := strtol paramsStr 0
  let value := BitVec.ofInt 32 value
  if ptr = paramsStr then .error .invalidValue
  else if value = 1 then .ok (paramsStr.drop 1, true)
  else if value ≠ 0 then .error .badState
  else .ok (paramsStr.drop 1, takeAction)

/-- A flag of a command, set in its state where the item says so. -/
def takeBool (strLen : Nat) (s : List Char) (st : σ) (flag : Bool) (set : Bool → σ) : Taken σ :=
  match parseBoolParamsInput s strLen flag with
  | .error _ => some (.error .invalidValue, st)
  | .ok (paramsStr, flag) => some (.ok paramsStr, set flag)

theorem takeStrtol_onward (strLen : Nat) (s : List Char) :
    (takeStrtol strLen s).2.length ≤ s.length := by
  have hle := strtol_shorter (strlcpy (s.drop strLen) maxCmdlineInputLen) 0
  simp only [length_strlcpy, List.length_drop] at hle
  unfold takeStrtol
  omega

theorem takeStrtoull_onward (strLen : Nat) (s : List Char) :
    (takeStrtoull strLen s).2.length ≤ s.length := by
  have hle := strtoull_shorter (strlcpy (s.drop strLen) maxCmdlineInputLen) 0
  simp only [length_strlcpy, List.length_drop] at hle
  unfold takeStrtoull
  omega

theorem takeBool_onward {strLen : Nat} {s rest : List Char} {st st' : σ} {flag : Bool}
    {set : Bool → σ} (h : takeBool strLen s st flag set = some (.ok rest, st')) :
    rest.length ≤ s.length := by
  unfold takeBool parseBoolParamsInput at h
  dsimp only at h
  split at h
  · cases h
  · rename_i heq
    cases h
    split at heq
    · cases heq
    · split at heq
      · cases heq
        simp
      · split at heq
        · cases heq
        · cases heq
          simp

def parsePipeType (pipeType : List Char) : Except DocaError PipeType :=
  if pipeType = "basic".toList then .ok .basic
  else if pipeType = "control".toList then .ok .control
  else .error .invalidValue

inductive CreatePipeKey where
  | portId | name | rootEnable | monitor | matchMask | fwdMiss | fwd | type
  deriving DecidableEq, Repr

def CreatePipeKey.text : CreatePipeKey → List Char
  | .portId => "port_id=".toList
  | .name => "name=".toList
  | .rootEnable => "root_enable=".toList
  | .monitor => "monitor=".toList
  | .matchMask => "match_mask=".toList
  | .fwdMiss => "fwd_miss=".toList
  | .fwd => "fwd=".toList
  | .type => "type=".toList

/-- What `parse_create_pipe_params` fills: the members of the configuration, a pointer of it as
whether it is set, the two flags and `pipe_port_id`. -/
structure CreatePipeParams where
  pipePortId : BitVec 16 := 0
  hasPortId : Bool := false
  name : Option (List Char) := none
  isRoot : Bool := false
  monitor : Bool := false
  matchMask : Bool := false
  fwdMissAction : Bool := false
  fwdAction : Bool := false
  type : PipeType := .basic
  deriving DecidableEq, Repr

/-- The branches of `parse_create_pipe_params`. A name that is there already is not read over. -/
def CreatePipeKey.take : CreatePipeKey → List Char → CreatePipeParams → Taken CreatePipeParams
  | .portId, s, cfg =>
    let paramsStr := s.drop portIdStrLen
    let ptr := strlcpy paramsStr maxCmdlineInputLen
    let (value, endptr) := strtol ptr 0
    if endptr = ptr then some (.error .invalidValue, cfg)
    else match strtok ptr ',' with
      | none => none
      | some paramStrValue =>
        some (.ok (paramsStr.drop paramStrValue.length),
          { cfg with pipePortId := BitVec.ofInt 16 value, hasPortId := true })
  | .name, s, cfg =>
    match cfg.name with
    | some _ => some (.ok s, cfg)
    | none =>
      let paramsStr := s.drop nameStrLen
      match strtok (strlcpy paramsStr maxCmdlineInputLen) ',' with
      | none => none
      | some paramStrValue =>
        some (.ok (paramsStr.drop paramStrValue.length),
          { cfg with name := some (paramStrValue.take maxFieldInputLen) })
  | .rootEnable, s, cfg =>
    takeBool rootEnableStrLen s cfg false fun takeAction =>
      if takeAction then { cfg with isRoot := true } else cfg
  | .monitor, s, cfg =>
    takeBool monitorStrLen s cfg false fun takeAction =>
      if takeAction then { cfg with monitor := true } else cfg
  | .matchMask, s, cfg =>
    takeBool matchMaskStrLen s cfg false fun takeAction =>
      if takeAction then { cfg with matchMask := true } else cfg
  | .fwdMiss, s, cfg =>
    takeBool missFwdStrLen s cfg cfg.fwdMissAction fun fwdMissAction => { cfg with fwdMissAction }
  | .fwd, s, cfg =>
    takeBool fwdStrLen s cfg cfg.fwdAction fun fwdAction => { cfg with fwdAction }
  | .type, s, cfg =>
    let paramsStr := s.drop typeStrLen
    match strtok (strlcpy paramsStr maxFieldInputLen) ',' with
    | none => none
    | some typeStr =>
      match parsePipeType typeStr with
      | .error _ => some (.error .invalidValue, cfg)
      | .ok value => some (.ok (paramsStr.drop typeStr.length), { cfg with type := value })

theorem CreatePipeKey.take_onward (k : CreatePipeKey) (s : List Char) (cfg : CreatePipeParams)
    (rest : List Char) (cfg' : CreatePipeParams) (h : k.take s cfg = some (.ok rest, cfg')) :
    rest.length ≤ s.length := by
  cases k with
  | portId =>
    simp only [CreatePipeKey.take] at h
    split at h
    · cases h
    · split at h
      · cases h
      · cases h
        simp
  | name =>
    simp only [CreatePipeKey.take] at h
    split at h
    · cases h
      exact le_rfl
    · split at h
      · cases h
      · cases h
        simp
  | rootEnable => exact takeBool_onward h
  | monitor => exact takeBool_onward h
  | matchMask => exact takeBool_onward h
  | fwdMiss => exact takeBool_onward h
  | fwd => exact takeBool_onward h
  | type =>
    simp only [CreatePipeKey.take] at h
    split at h
    · cases h
    · split at h
      · cases h
      · cases h
        simp

def createPipeParams : Params CreatePipeKey CreatePipeParams where
  keys := [.portId, .name, .rootEnable, .monitor, .matchMask, .fwdMiss, .fwd, .type]
  text := CreatePipeKey.text
  take := CreatePipeKey.take
  mandatory := [.portId]
  has cfg
    | .name => cfg.name.isSome
    | _ => cfg.hasPortId
  onward := CreatePipeKey.take_onward

def parseCreatePipeParams (paramsStr : List Char) (cfg : CreatePipeParams) :
    Option (Except DocaError Unit × CreatePipeParams) :=
  createPipeParams.parse paramsStr { cfg with hasPortId := false }

inductive AddEntryKey where
  | pipeId | pipeQueue | monitor | fwd
  deriving DecidableEq, Repr

def AddEntryKey.text : AddEntryKey → List Char
  | .pipeId => "pipe_id=".toList
  | .pipeQueue => "pipe_queue=".toList
  | .monitor => "monitor=".toList
  | .fwd => "fwd=".toList

structure AddEntryParams where
  fwdAction : Bool := false
  monitorAction : Bool := false
  pipeId : BitVec 64 := 0
  pipeQueue : BitVec 32 := 0
  hasPipeId : Bool := false
  hasPipeQueue : Bool := false
  deriving DecidableEq, Repr

def AddEntryKey.take : AddEntryKey → List Char → AddEntryParams → Taken AddEntryParams
  | .pipeId, s, st =>
    let (value, paramsStr) := takeStrtoull pipeIdStrLen s
    some (.ok paramsStr, { st with pipeId := BitVec.ofNat 64 value, hasPipeId := true })
  | .pipeQueue, s, st =>
    let (value, paramsStr) := takeStrtol pipeQueueStrLen s
    some (.ok paramsStr, { st with pipeQueue := BitVec.ofInt 32 value, hasPipeQueue := true })
  | .monitor, s, st =>
    takeBool monitorStrLen s st st.monitorAction fun monitorAction => { st with monitorAction }
  | .fwd, s, st => takeBool fwdStrLen s st st.fwdAction fun fwdAction => { st with fwdAction }

theorem AddEntryKey.take_onward (k : AddEntryKey) (s : List Char) (st : AddEntryParams)
    (rest : List Char) (st' : AddEntryParams) (h : k.take s st = some (.ok rest, st')) :
    rest.length ≤ s.length := by
  cases k with
  | pipeId =>
    cases h
    exact takeStrtoull_onward _ _
  | pipeQueue =>
    cases h
    exact takeStrtol_onward _ _
  | monitor => exact takeBool_onward h
  | fwd => exact takeBool_onward h

def addEntryParams : Params AddEntryKey AddEntryParams where
  keys := [.pipeId, .pipeQueue, .monitor, .fwd]
  text := AddEntryKey.text
  take := AddEntryKey.take
  mandatory := [.pipeId, .pipeQueue]
  has st
    | .pipeId => st.hasPipeId
    | _ => st.hasPipeQueue
  onward := AddEntryKey.take_onward

def parseAddEntryParams (paramsStr : List Char) (st : AddEntryParams) :
    Option (Except DocaError Unit × AddEntryParams) :=
  addEntryParams.parse paramsStr { st with hasPipeId := false, hasPipeQueue := false }

inductive ControlEntryKey where
  | pipeId | pipeQueue | priority | matchMask | fwd
  deriving DecidableEq, Repr

def ControlEntryKey.text : ControlEntryKey → List Char
  | .pipeId => "pipe_id=".toList
  | .pipeQueue => "pipe_queue=".toList
  | .priority => "priority=".toList
  | .matchMask => "match_mask=".toList
  | .fwd => "fwd=".toList

structure ControlEntryParams where
  fwdAction : Bool := false
  matchMaskAction : Bool := false
  pipeId : BitVec 64 := 0
  pipeQueue : BitVec 16 := 0
  priority : BitVec 8 := 0
  hasPipeId : Bool := false
  hasPipeQueue : Bool := false
  hasPriority : Bool := false
  deriving DecidableEq, Repr

def ControlEntryKey.take :
    ControlEntryKey → List Char → ControlEntryParams → Taken ControlEntryParams
  | .pipeId, s, st =>
    let (value, paramsStr) := takeStrtoull pipeIdStrLen s
    some (.ok paramsStr, { st with pipeId := BitVec.ofNat 64 value, hasPipeId := true })
  | .pipeQueue, s, st =>
    let (value, paramsStr) := takeStrtol pipeQueueStrLen s
    some (.ok paramsStr, { st with pipeQueue := BitVec.ofInt 16 value, hasPipeQueue := true })
  | .priority, s, st =>
    let (value, paramsStr) := takeStrtol priorityStrLen s
    some (.ok paramsStr, { st with priority := BitVec.ofInt 8 value, hasPriority := true })
  | .matchMask, s, st =>
    takeBool matchMaskStrLen s st st.matchMaskAction fun matchMaskAction =>
      { st with matchMaskAction }
  | .fwd, s, st => takeBool fwdStrLen s st st.fwdAction fun fwdAction => { st with fwdAction }

theorem ControlEntryKey.take_onward (k : ControlEntryKey) (s : List Char)
    (st : ControlEntryParams) (rest : List Char) (st' : ControlEntryParams)
    (h : k.take s st = some (.ok rest, st')) : rest.length ≤ s.length := by
  cases k with
  | pipeId =>
    cases h
    exact takeStrtoull_onward _ _
  | pipeQueue =>
    cases h
    exact takeStrtol_onward _ _
  | priority =>
    cases h
    exact takeStrtol_onward _ _
  | matchMask => exact takeBool_onward h
  | fwd => exact takeBool_onward h

def controlEntryParams : Params ControlEntryKey ControlEntryParams where
  keys := [.pipeId, .pipeQueue, .priority, .matchMask, .fwd]
  text := ControlEntryKey.text
  take := ControlEntryKey.take
  mandatory := [.pipeId, .pipeQueue, .priority]
  has st
    | .pipeId => st.hasPipeId
    | .pipeQueue => st.hasPipeQueue
    | _ => st.hasPriority
  onward := ControlEntryKey.take_onward

def parseAddControlPipeEntryParams (paramsStr : List Char) (st : ControlEntryParams) :
    Option (Except DocaError Unit × ControlEntryParams) :=
  controlEntryParams.parse paramsStr
    { st with hasPipeId := false, hasPipeQueue := false, hasPriority := false }

inductive EntryKey where
  | pipeQueue | entryId
  deriving DecidableEq, Repr

def EntryKey.text : EntryKey → List Char
  | .pipeQueue => "pipe_queue=".toList
  | .entryId => "entry_id=".toList

structure EntryParams where
  pipeQueue : BitVec 16 := 0
  entryId : BitVec 64 := 0
  hasPipeQueue : Bool := false
  hasEntryId : Bool := false
  deriving DecidableEq, Repr

/-- The branches of `parse_entry_params`. Where the caller passes `NULL` for the queue, its number
is not read over. -/
def EntryKey.take (queueGiven : Bool) : EntryKey → List Char → EntryParams → Taken EntryParams
  | .pipeQueue, s, st =>
    if queueGiven then
      let (value, params) := takeStrtol pipeQueueStrLen s
      some (.ok params, { st with pipeQueue := BitVec.ofInt 16 value, hasPipeQueue := true })
    else some (.ok (s.drop pipeQueueStrLen), { st with hasPipeQueue := true })
  | .entryId, s, st =>
    let (value, params) := takeStrtoull entryIdStrLen s
    some (.ok params, { st with entryId := BitVec.ofNat 64 value, hasEntryId := true })

theorem EntryKey.take_onward (queueGiven : Bool) (k : EntryKey) (s : List Char)
    (st : EntryParams) (rest : List Char) (st' : EntryParams)
    (h : k.take queueGiven s st = some (.ok rest, st')) : rest.length ≤ s.length := by
  cases k with
  | pipeQueue =>
    cases queueGiven with
    | false =>
      cases h
      simp
    | true =>
      cases h
      exact takeStrtol_onward _ _
  | entryId =>
    cases h
    exact takeStrtoull_onward _ _

def entryParams (pipeQueueMandatory queueGiven : Bool) : Params EntryKey EntryParams where
  keys := [.pipeQueue, .entryId]
  text := EntryKey.text
  take := EntryKey.take queueGiven
  mandatory := if pipeQueueMandatory then [.pipeQueue, .entryId] else [.entryId]
  has st
    | .pipeQueue => st.hasPipeQueue
    | .entryId => st.hasEntryId
  onward := EntryKey.take_onward queueGiven

def parseEntryParams (params : List Char) (pipeQueueMandatory queueGiven : Bool)
    (st : EntryParams) : Option (Except DocaError Unit × EntryParams) :=
  (entryParams pipeQueueMandatory queueGiven).parse params
    { st with hasPipeQueue := false, hasEntryId := false }

end DocaApps.Common.ParamsLists
