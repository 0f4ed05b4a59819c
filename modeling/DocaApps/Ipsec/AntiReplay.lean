import DocaApps.Doca

namespace DocaApps.Ipsec.AntiReplay

/-- `WINDOW_SIZE` of ipsec_security_gw.c. -/
def windowSize : BitVec 32 := 64#32

/-- `struct antireplay_state`: the lowest bit belongs to the lowest sequence number. -/
structure AntireplayState where
  windowSize : BitVec 32
  endWinSn : BitVec 32
  bitmap : BitVec 64
  deriving DecidableEq, Repr

/-- `x << n` on `uint64_t`. A shift by 64 or more is undefined and has no result. -/
def shiftLeft (x : BitVec 64) (n : BitVec 32) : Option (BitVec 64) :=
  if n.toNat < 64 then some (x <<< n.toNat) else none

/-- `x >> n` on `uint64_t`, with the same limit on the amount. -/
def shiftRight (x : BitVec 64) (n : BitVec 32) : Option (BitVec 64) :=
  if n.toNat < 64 then some (x >>> n.toNat) else none

/-- `anti_replay`: the updated state and the `drop` verdict, or nothing when a
shift is undefined. All arithmetic on sequence numbers is modulo `2^32`. -/
def antiReplay (sn : BitVec 32) (state : AntireplayState) : Option (AntireplayState × Bool) :=
  let begWinSn := state.endWinSn + 1#32 - state.windowSize
  if sn < begWinSn then
    some (state, true)
  else if sn ≤ state.endWinSn then
    let diff := sn - begWinSn
    (shiftLeft 1#64 diff).bind fun bit =>
      if state.bitmap &&& bit ≠ 0#64 then
        some (state, true)
      else
        some ({ state with bitmap := state.bitmap ||| bit }, false)
  else
    let diff := sn - state.endWinSn
    (shiftLeft 1#64 (state.windowSize - 1#32)).bind fun last =>
      if diff ≥ state.windowSize then
        some ({ state with bitmap := last, endWinSn := sn }, false)
      else
        (shiftRight state.bitmap diff).bind fun moved =>
          some ({ state with bitmap := moved ||| last, endWinSn := sn }, false)

/-- `init_anti_replay_states`: the first `nbEntries` states of the array are set. -/
def initAntiReplayStates (nbEntries : Nat) (initialSn : BitVec 32)
    (states : List AntireplayState) : Except DocaError (List AntireplayState) :=
  let endWinSn := initialSn + windowSize - 1#32
  if BitVec.allOnes 32 - initialSn < windowSize then
    .error .badState
  else
    .ok (List.replicate nbEntries ⟨windowSize, endWinSn, 0#64⟩ ++ states.drop nbEntries)

/-- `anti_replay` on each number of a list in turn, with the verdicts in order. -/
def antiReplayRun (state : AntireplayState) :
    List (BitVec 32) → Option (AntireplayState × List Bool)
  | [] => some (state, [])
  | sn :: sns =>
    (antiReplay sn state).bind fun (next, drop) =>
      (antiReplayRun next sns).map fun (last, drops) => (last, drop :: drops)

/-- The numbers of a run that were not dropped, oldest first. -/
def accepted (sns : List (BitVec 32)) (drops : List Bool) : List Nat :=
  ((sns.zip drops).filter (fun p => !p.2)).map (fun p => p.1.toNat)

/-- The top of the window of the abstract receiver: the initial top or the
largest number accepted so far. -/
def windowTop (initialSn : Nat) (seen : List Nat) : Nat :=
  seen.foldl max (initialSn + 63)

end DocaApps.Ipsec.AntiReplay
