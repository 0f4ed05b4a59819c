import DocaApps.Pcc.RttTemplate

namespace DocaApps.Pcc.DevMain
open RttTemplate

/-- `doca_pcc_dev_error_t`. -/
inductive Status where
  | ok | fail
  deriving DecidableEq, Repr

def rttTemplateParamNum : UInt32 := 6

/-- The status, and the parameters behind the pointer. A null pointer is `none`. -/
def rttTemplateSetAlgoParams (paramIdBase paramNum : UInt32)
    (newParamValues : Option (List UInt32)) (params : Option Params) : Status × Option Params :=
  if paramNum > rttTemplateParamNum ∨ paramIdBase ≥ rttTemplateParamNum then (.fail, params)
  else if newParamValues = none ∨ params = none then (.fail, params)
  else (.ok, params)

/-- `doca_pcc_dev_user_set_algo_params`; the library knows which algorithm a slot runs. -/
def userSetAlgoParams (getAlgoIndex : UInt32 → UInt32 → UInt32)
    (portNum algoSlot paramIdBase paramNum : UInt32) (newParamValues : Option (List UInt32))
    (params : Option Params) : Status × Option Params :=
  if algoSlot = 0 then
    if getAlgoIndex portNum algoSlot = 0 then
      rttTemplateSetAlgoParams paramIdBase paramNum newParamValues params
    else (.fail, params)
  else (.ok, params)

/-- The parameters of each port, and the flows. -/
structure Device where
  params : UInt32 → Params
  flows : Nat → Flow

/-- An update, its pointer to the parameters of the port given or null, or an event of a flow. -/
inductive Input where
  | setAlgoParams (portNum algoSlot paramIdBase paramNum : UInt32)
      (newParamValues : Option (List UInt32)) (given : Bool)
  | event (portNum : UInt32) (flow : Nat) (call : Call)

def Device.step (wide : WideShift) (getAlgoIndex : UInt32 → UInt32 → UInt32) (dev : Device) :
    Input → Device
  | .setAlgoParams portNum algoSlot paramIdBase paramNum newParamValues given =>
    let params := if given then some (dev.params portNum) else none
    match (userSetAlgoParams getAlgoIndex portNum algoSlot paramIdBase paramNum newParamValues
        params).2 with
    | none => dev
    | some p => { dev with params := Function.update dev.params portNum p }
  | .event portNum flow call =>
    { dev with
      flows := Function.update dev.flows flow
        (rttTemplateAlgo wide (dev.params portNum) (dev.flows flow) call) }

end DocaApps.Pcc.DevMain
