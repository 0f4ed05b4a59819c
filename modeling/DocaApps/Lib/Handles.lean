import Mathlib

namespace DocaApps.Lib.Handles

/-- The handles that were made and not released yet, the newest first, those of them that were
started, and whether a call was ever given a handle that was not there for it. -/
structure Table (η : Type) where
  live : List η
  started : List η
  misused : Bool
  deriving DecidableEq, Repr

namespace Table

variable {η : Type} [DecidableEq η]

def empty : Table η := ⟨[], [], false⟩

@[simp] def create (h : η) (t : Table η) : Table η := { t with live := h :: t.live }

/-- A call that works on these handles. -/
@[simp] def use (hs : List η) (t : Table η) : Table η :=
  { t with misused := t.misused || hs.any fun h => decide (h ∉ t.live) }

/-- A call that needs this handle started. -/
@[simp] def useStarted (h : η) (t : Table η) : Table η :=
  { t with misused := t.misused || decide (h ∉ t.started) }

@[simp] def start (h : η) (t : Table η) : Table η :=
  { t.use [h] with started := h :: t.started }

/-- A handle is released when nothing that depends on it is left. -/
@[simp] def release (dependents : List η) (h : η) (t : Table η) : Table η :=
  if h ∉ t.live then { t with misused := true }
  else if dependents.any fun d => decide (d ∈ t.live) then t
  else { t with live := t.live.erase h, started := t.started.erase h }

/-- From now on the owner is who releases the handle. -/
@[simp] def handOver (owner h : η) (t : Table η) : Table η := (t.use [owner]).release [] h

/-- A release leaves the other handles. -/
theorem mem_release {t : Table η} {h k : η} {ds : List η} (hne : k ≠ h) (hk : k ∈ t.live) :
    k ∈ (t.release ds h).live := by
  unfold release
  split
  · exact hk
  · split
    · exact hk
    · exact (List.mem_erase_of_ne hne).mpr hk

/-- Every handle was released, and each call was given a handle that was there. -/
structure Settled (t : Table η) : Prop where
  released : t.live = []
  proper : t.misused = false

end Table

end DocaApps.Lib.Handles
