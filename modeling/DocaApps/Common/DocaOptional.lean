import Mathlib

namespace DocaApps.Common.DocaOptional

variable {E : Type}

/-- An object of the type `Element`, with the number of its construction. -/
structure Element (E : Type) where
  serial : Nat
  value : E
  deriving DecidableEq, Repr

/-- An `optional`: the storage that `m_ptr` names, and the element that lives in its own. -/
structure Opt (E : Type) where
  mPtr : Option Nat
  mData : Option (Element E)
  deriving DecidableEq, Repr

/-- The optionals by their addresses, `none` where one has come to its end; how many elements were
constructed, and which of them destroyed. -/
structure Memory (E : Type) where
  opts : List (Option (Opt E))
  constructed : Nat
  destroyed : List Nat
  deriving DecidableEq, Repr

def Memory.opt (m : Memory E) (this : Nat) : Option (Opt E) := m.opts[this]?.join

def Memory.setOpt (m : Memory E) (this : Nat) (o : Opt E) : Memory E :=
  { m with opts := m.opts.set this (some o) }

/-- What a reference to a value refers to: a value outside, or the element in the storage of an
optional. -/
inductive Ref (E : Type) where
  | outside (value : E)
  | held (other : Nat)
  deriving DecidableEq, Repr

/-- A `const Element&`, or an `Element&&` that is moved from. -/
structure Arg (E : Type) where
  ref : Ref E
  moved : Bool
  deriving DecidableEq, Repr

section Members
variable (gone : E → E)

/-- The constructor of an element reads its argument and leaves `gone` of what it has moved; it is
undefined to read where no element lives. -/
def fetch (arg : Arg E) (m : Memory E) : Option (E × Memory E) :=
  match arg.ref with
  | .outside value => some (value, m)
  | .held other => do
    let o ← m.opt other
    let e ← o.mData
    if arg.moved then
      some (e.value, m.setOpt other { o with mData := some { e with value := gone e.value } })
    else some (e.value, m)

def construct (this : Nat) (arg : Arg E) (m : Memory E) : Option (Memory E) := do
  let (value, m) ← fetch gone arg m
  let _ ← m.opt this
  some { m.setOpt this ⟨some this, some ⟨m.constructed, value⟩⟩ with
    constructed := m.constructed + 1 }

/-- It is undefined to destroy an element where none lives. -/
def destruct (this : Nat) (m : Memory E) : Option (Memory E) := do
  let o ← m.opt this
  match o.mPtr with
  | none => some m
  | some mPtr =>
    let storage ← m.opt mPtr
    let e ← storage.mData
    let m := m.setOpt mPtr { storage with mData := none }
    let o ← m.opt this
    some { m.setOpt this { o with mPtr := none } with destroyed := m.destroyed ++ [e.serial] }

def assign (this : Nat) (arg : Arg E) (m : Memory E) : Option (Memory E) := do
  let o ← m.opt this
  let m ← if o.mPtr.isSome then destruct this m else some m
  construct gone this arg m

/-- `operator=(const optional&)` and `operator=(optional&&)`. -/
def assignOptional (this : Nat) (moved : Bool) (other : Nat) (m : Memory E) :
    Option (Memory E) := do
  let o ← m.opt this
  let otherOpt ← m.opt other
  if o.mPtr = otherOpt.mPtr then some m
  else match otherOpt.mPtr with
    | some mPtr => assign gone this ⟨.held mPtr, moved⟩ m
    | none => destruct this m

/-- A new optional, with no value yet. -/
def create (m : Memory E) : Memory E := { m with opts := m.opts ++ [some ⟨none, none⟩] }

/-- `optional(const Element&)` and `optional(Element&&)`. -/
def createValue (arg : Arg E) (m : Memory E) : Option (Memory E) :=
  assign gone m.opts.length arg (create m)

/-- `optional(const optional&)` and `optional(optional&&)`. -/
def createOptional (moved : Bool) (other : Nat) (m : Memory E) : Option (Memory E) := do
  let this := m.opts.length
  let m := create m
  let o ← m.opt this
  let otherOpt ← m.opt other
  if o.mPtr = otherOpt.mPtr then some m
  else match otherOpt.mPtr with
    | some mPtr => assign gone this ⟨.held mPtr, moved⟩ m
    | none => some m

def fetchAll : List (Arg E) → Memory E → Option (List E × Memory E)
  | [], m => some ([], m)
  | arg :: args, m => do
    let (value, m) ← fetch gone arg m
    let (values, m) ← fetchAll args m
    some (value :: values, m)

/-- `emplace`, with the constructor of the element that fits the arguments. The temporary object is
destroyed at the end. -/
def emplace (this : Nat) (args : List (Arg E)) (make : List E → E) (m : Memory E) :
    Option (Memory E) := do
  let (values, m) ← fetchAll gone args m
  let temporary := m.constructed
  let m ← assign gone this ⟨.outside (make values), true⟩
    { m with constructed := m.constructed + 1 }
  some { m with destroyed := m.destroyed ++ [temporary] }

/-- `~optional`. -/
def destroy (this : Nat) (m : Memory E) : Option (Memory E) := do
  let m ← destruct this m
  some { m with opts := m.opts.set this none }

/-- `optional()` and `optional(nullopt)` are one operation, as are `= nullopt` and `reset`. -/
inductive Op (E : Type) where
  | create
  | createValue (arg : Arg E)
  | createOptional (moved : Bool) (other : Nat)
  | assignValue (this : Nat) (arg : Arg E)
  | assignOptional (this : Nat) (moved : Bool) (other : Nat)
  | reset (this : Nat)
  | emplace (this : Nat) (args : List (Arg E)) (make : List E → E)
  | destroy (this : Nat)

def step : Op E → Memory E → Option (Memory E)
  | .create, m => some (create m)
  | .createValue arg, m => createValue gone arg m
  | .createOptional moved other, m => createOptional gone moved other m
  | .assignValue this arg, m => assign gone this arg m
  | .assignOptional this moved other, m => assignOptional gone this moved other m
  | .reset this, m => destruct this m
  | .emplace this args make, m => emplace gone this args make m
  | .destroy this, m => destroy this m

def run : List (Op E) → Memory E → Option (Memory E)
  | [], m => some m
  | op :: ops, m => (step gone op m).bind (run ops)

end Members

end DocaApps.Common.DocaOptional
