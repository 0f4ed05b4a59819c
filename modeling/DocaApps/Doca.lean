import Mathlib

namespace DocaApps

/-- The `doca_error_t` values the modelled code returns, other than `DOCA_SUCCESS`. -/
inductive DocaError where
  | notPermitted | invalidValue | noMemory | initialization | ioFailed | badState
  | notFound | notConnected | again | notSupported | driver | unexpected | timeOut
  | operatingSystem
  deriving DecidableEq, Repr

end DocaApps
