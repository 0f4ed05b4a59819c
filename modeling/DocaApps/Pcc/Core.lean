import DocaApps.Doca
import DocaApps.Common.FlowParser

namespace DocaApps.Pcc.Core
open Common.FlowParser (isSpace leadingDigits)

def maxUserArgSize : Nat := 256
def maxArgSize : Nat := maxUserArgSize + 1

/-- The character that ends a text. -/
def nul : Char := Char.ofNat 0

/-- How many characters there are in front of the first that fails; none of them may be behind the
end of the memory. -/
def span (p : Char → Bool) : List Char → Option Nat
  | [] => none
  | c :: mem => if p c then (span p mem).map (· + 1) else some 0

/-- `strnlen`, which looks at no more than `maxlen` characters. -/
def strnlen : List Char → Nat → Option Nat
  | _, 0 => some 0
  | [], _ + 1 => none
  | c :: mem, maxlen + 1 => if c = nul then some 0 else (strnlen mem maxlen).map (· + 1)

/-- The memory that `strtok` cuts, and the place where it goes on. -/
structure Strtok where
  mem : List Char
  saved : Option Nat
  deriving DecidableEq, Repr

/-- `strtok`, which starts at `str` or else where it was; `none` is a read behind the memory. -/
def strtok (delim : Char) (str : Option Nat) (st : Strtok) : Option (Option Nat × Strtok) :=
  match str.or st.saved with
  | none => some (none, st)
  | some start => do
    let skipped ← span (· = delim) (st.mem.drop start)
    let token := start + skipped
    let length ← span (fun c => c ≠ delim ∧ c ≠ nul) (st.mem.drop token)
    if length = 0 then some (none, { st with saved := none })
    else if st.mem[token + length]? = some nul then some (some token, { st with saved := none })
    else some (some token, ⟨st.mem.set (token + length) nul, some (token + length + 1)⟩)

/-- What `atoi` makes of a number that does not fit is left open by C. -/
abbrev Unfit := List Char → BitVec 32

def signedDigits : List Char → Int
  | '-' :: s => -leadingDigits s
  | '+' :: s => leadingDigits s
  | s => leadingDigits s

def atoi (unfit : Unfit) (s : List Char) : BitVec 32 :=
  let value := signedDigits (s.dropWhile isSpace)
  if -2 ^ 31 ≤ value ∧ value < 2 ^ 31 then BitVec.ofInt 32 value else unfit s

/-- The text that begins at the front of the memory. -/
def textAt (mem : List Char) : Option (List Char) := (span (· ≠ nul) mem).map mem.take

/-- The list and its length in `struct pcc_config`. -/
structure PccConfig where
  pccThreadsNum : BitVec 32
  pccThreadsList : List (BitVec 32)
  size : pccThreadsList.length = maxArgSize
  deriving DecidableEq

theorem PccConfig.size_store (cfg : PccConfig) (currPcc : BitVec 32) :
    (cfg.pccThreadsList.set cfg.pccThreadsNum.toNat currPcc).length = maxArgSize :=
  List.length_set.trans cfg.size

def PccConfig.store (cfg : PccConfig) (currPcc : BitVec 32) : PccConfig :=
  ⟨cfg.pccThreadsNum + 1, cfg.pccThreadsList.set cfg.pccThreadsNum.toNat currPcc,
    cfg.size_store currPcc⟩

/-- `pcc_threads_list[pcc_threads_num++]`, unless that is outside the list. -/
def PccConfig.append (cfg : PccConfig) (currPcc : BitVec 32) : Option PccConfig :=
  if cfg.pccThreadsNum.toNat < maxArgSize then some (cfg.store currPcc) else none

/-- The loop over the first `len` characters. -/
def allDigits : Nat → List Char → Option Bool
  | 0, _ => some true
  | _ + 1, [] => none
  | len + 1, c :: mem => if c.isDigit then allDigits len mem else some false

/-- The walk through the tokens, which are fewer than `fuel`. -/
def walkThreads (unfit : Unfit) : Nat → Option Nat → Strtok → PccConfig →
    Option (Except DocaError Unit × PccConfig)
  | _, none, _, cfg => some (.ok (), cfg)
  | 0, some _, _, _ => none
  | fuel + 1, some currPccString, st, cfg => do
    let len ← strnlen st.mem maxArgSize
    let digits ← allDigits len (st.mem.drop currPccString)
    if digits = false then some (.error .invalidValue, cfg)
    else
      let currPcc := atoi unfit (← textAt (st.mem.drop currPccString))
      if currPcc.toInt < 0 then some (.error .invalidValue, cfg)
      else
        let cfg ← cfg.append currPcc
        let (next, st) ← strtok ' ' none st
        walkThreads unfit fuel next st cfg

/-- The callback on a text, which a `nul` follows; `none` is a read behind that, or a write outside
the list. -/
def pccThreadsListCallback (unfit : Unfit) (param : List Char) (cfg : PccConfig) :
    Option (Except DocaError Unit × PccConfig) := do
  let pccThreadsListString := param ++ [nul]
  let len ← strnlen pccThreadsListString maxArgSize
  if len = maxArgSize then some (.error .invalidValue, cfg)
  else
    let cfg := { cfg with pccThreadsNum := 0 }
    let (currPccString, st) ← strtok ' ' (some 0) ⟨pccThreadsListString, none⟩
    match currPccString with
    | none => some (.error .invalidValue, cfg)
    | some _ => walkThreads unfit param.length currPccString st cfg

end DocaApps.Pcc.Core
