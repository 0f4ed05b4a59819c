import DocaApps.Ipsec.Policy

namespace DocaApps.Ipsec.SaRelease
open Rules Encap FlowCommon FlowEncrypt FlowDecrypt Policy PolicySocket Config

/-- What the gateway works on from the moment its contexts run. `steps` are the results of the
other set-up calls to come, and when it is used up each of them succeeds; `destroys` holds the
SAs handed to the library to be destroyed, with whether the full-offload context was named. -/
structure App where
  gateway : Gateway
  dummyEncryptSa : Sa
  dummyDecryptSa : Sa
  steps : List (Option DocaError)
  destroys : List (Nat × Bool)
  deriving DecidableEq, Repr

abbrev AppCmd := EStateM DocaError App

/-- A command of the rule installation, in the application. -/
def onGateway {α : Type} (c : Cmd α) : AppCmd α := fun app =>
  match c app.gateway with
  | .ok a gateway => .ok a { app with gateway }
  | .error e gateway => .error e { app with gateway }

/-- A call that neither creates nor destroys an SA: the creation of a pipe, of its control
entries, of the socket, or the start of the packet processing. -/
def setupStep : AppCmd Unit := fun app =>
  match app.steps with
  | some e :: steps => .error e { app with steps }
  | none :: steps => .ok () { app with steps }
  | [] => .ok () app

def setupSteps : Nat → AppCmd Unit
  | 0 => pure ()
  | n + 1 => do
    setupStep
    setupSteps n

/-- The sequence numbers that software counts start anew. -/
def initSequenceNumbers (cfg : Config) (snInitial : BitVec 32) : AppCmd Unit :=
  if cfg.swSnIncEnable then
    modify fun app => { app with gateway := { app.gateway with
      encryptRules := app.gateway.encryptRules.map fun r => { r with currentSn := snInitial } } }
  else pure ()

/-- The anti-replay states are allocated and then initialized. -/
def initAntiReplay (cfg : Config) : AppCmd Unit :=
  if cfg.swAntireplay then setupSteps 2 else pure ()

/-- The first part of `ipsec_security_gw_wait_for_traffic`, up to the start of the packet
processing. -/
def startTraffic (cfg : Config) (snInitial : BitVec 32) : AppCmd Unit :=
  if cfg.offload = .both then setupStep
  else do
    initSequenceNumbers cfg snInitial
    initAntiReplay cfg
    setupStep

/-- `ipsec_security_gw_wait_for_traffic` with the policies that the socket brings before the
loop is left, by a signal or by an error of the last read. -/
def waitForTraffic (libs : Libs) (cfg : Config) (socketConf : Bool) (snInitial : BitVec 32)
    (policies : List IpsecPolicy) : AppCmd Unit := do
  startTraffic cfg snInitial
  if socketConf then
    onGateway (handlePolicies libs cfg policies)
    setupStep

end DocaApps.Ipsec.SaRelease
