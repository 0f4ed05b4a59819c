import DocaApps.Proofs.A2aRelease

namespace DocaApps.Proofs.A2aSetup
open Lib Lib.Handles Lib.Command Lib.Endings Lib.Ownership DpaAllToAll.Setup A2aRelease

variable {drv : Driver} {comm : Comm} {s t : Request} {err : DocaError}

/-- The call ends in an error with all released, each once, and a request for a new attempt. -/
structure ReleasedAll (r : EStateM.Result DocaError Request Unit) : Prop where
  ended : ∃ err t, r = .error err t ∧ t.toTable.Settled ∧ t.resources = false

theorem onResources_ok {x : A2aM Unit} {u : Resources} (h : x s.toResources = .ok () u) :
    onResources x s = .ok () { s with toResources := u } := by
  simp only [onResources, h]

theorem onResources_error {x : A2aM Unit} {u : Resources} (h : x s.toResources = .error err u) :
    onResources x s = .error err { s with toResources := u } := by
  simp only [onResources, h]

/-- What is given the resources cannot change the pointer to them. -/
theorem onResources_steady (x : A2aM Unit) : Steady Request.resources (onResources x) := by
  constructor
  intro s
  cases hx : x s.toResources with
  | ok a u => exact (ends_of_ok (onResources_ok hx)).mpr rfl
  | error err u => exact (ends_of_error (onResources_error hx)).mpr rfl

theorem allocResources_error (hfails : drv.fails (.acquire .resources) = true) :
    allocResources drv .initial = .error .noMemory .initial := by
  have hcall : call drv (.acquire .resources) [] .noMemory Request.initial.toResources =
      .error .noMemory Request.initial.toResources := by
    unfold call
    rw [hfails]
    rfl
  exact run_bind_error (onResources_error (run_bind_error (run_bind_error hcall)))

theorem allocResources_ok (hok : drv.fails (.acquire .resources) = false) :
    ∃ u, allocResources drv .initial = .ok () u ∧ u.resources = true ∧
      Owned {.resources} u.toResources := by
  unfold allocResources onResources acquire call
  rw [hok]
  refine ⟨_, rfl, rfl, ⟨?_, ?_⟩⟩
  · constructor
    · rfl
    · rfl
  · simp

theorem dpaIalltoall_new (drv : Driver) (comm : Comm) : dpaIalltoall drv (some comm) .initial =
    (do initRequest drv comm; onResources (kernelLaunch drv)) .initial := rfl

/-- Once its block is allocated the request keeps the pointer to it, wherever the call fails. -/
theorem pointer_kept (hok : drv.fails (.acquire .resources) = false)
    (hrun : dpaIalltoall drv (some comm) .initial = .error err t) : t.resources = true := by
  obtain ⟨u, halloc, hset, -⟩ := allocResources_ok hok
  have hrest : Steady Request.resources (do
      onResources (orElse (dpaA2aInit drv comm) (destroy .resources))
      onResources (kernelLaunch drv)) :=
    (onResources_steady _).bind fun _ => onResources_steady _
  rw [dpaIalltoall_new] at hrun
  unfold initRequest at hrun
  rw [bind_assoc, run_bind halloc] at hrun
  exact ((hrest.settles u).error hrun).trans hset

/-- Only a call that gets no block for the resources, and so makes no step of `dpa_a2a_init`, ends
with everything released and a request for a new attempt. -/
theorem releasedAll_iff (drv : Driver) (comm : Comm) :
    ReleasedAll (dpaIalltoall drv (some comm) .initial) ↔
      drv.fails (.acquire .resources) = true := by
  constructor
  · intro h
    obtain ⟨err, t, hrun, -, hnull⟩ := h.ended
    by_contra hok
    have hkept := pointer_kept (Bool.eq_false_iff.mpr hok) hrun
    rw [hnull] at hkept
    cases hkept
  · intro hfails
    have hrun : dpaIalltoall drv (some comm) .initial = .error .noMemory .initial := by
      rw [dpaIalltoall_new]
      exact run_bind_error (run_bind_error (allocResources_error hfails))
    refine ⟨.noMemory, .initial, hrun, ?_, rfl⟩
    constructor
    · rfl
    · rfl

/-- A driver with one device, where this step fails. -/
def failing (c : Call) : Driver :=
  { devices := [⟨true, some ['m', 'l', 'x']⟩]
    device1Name := ibDeviceDefaultName
    device2Name := ibDeviceDefaultName
    fails := fun d => decide (d = c)
    staleDevice := false
    staleExportData := false }

/-- The DPA context cannot be created, and the next call is given the block that was freed. -/
theorem pointer_left : ∃ t, dpaIalltoall (failing (.acquire .docaDpa)) (some ⟨2, 0⟩) .initial =
      .error .driver t ∧ t.toTable.Settled ∧ t.resources = true ∧
    ¬ ReleasedAll (dpaIalltoall (failing (.acquire .docaDpa)) (some ⟨2, 0⟩) .initial) := by
  refine ⟨_, rfl, ⟨rfl, rfl⟩, rfl, ?_⟩
  intro h
  obtain ⟨err, t, hrun, -, hnull⟩ := h.ended
  cases hrun
  cases hnull

/-- An error before the buffers of other processes are imported releases everything once, but for
the pointer. -/
theorem early_failure_settles
    (hdevice : drv.devices.any (DevInfo.wanted (deviceName drv comm)) = true)
    (hearly : ∀ c, drv.fails c = true → early c = true)
    (hrun : initRequest drv comm .initial = .error err t) : t.toTable.Settled := by
  cases hok : drv.fails (.acquire .resources) with
  | true =>
    have hnone : initRequest drv comm .initial = .error .noMemory .initial :=
      run_bind_error (allocResources_error hok)
    rw [hnone] at hrun
    cases hrun
    constructor
    · rfl
    · rfl
  | false =>
    obtain ⟨u, halloc, -, howned⟩ := allocResources_ok hok
    unfold initRequest at hrun
    rw [run_bind halloc] at hrun
    have hinit := (orElse_undone (dpaA2aInit_owned hearly hdevice)
      (destroy_owned (h := .resources) (m := 0))).ends u.toResources howned
    cases hx : orElse (dpaA2aInit drv comm) (destroy .resources) u.toResources with
    | ok a v =>
      rw [onResources_ok hx] at hrun
      cases hrun
    | error err' v =>
      rw [onResources_error hx] at hrun
      cases hrun
      exact owns_zero_iff.mp (hinit.error hx).owns

/-- After a later one the blocks of the exports are freed for the second time. -/
theorem exports_freed_twice :
    ∃ t, initRequest (failing (.acquire .devptrRecvbufs)) ⟨1, 0⟩ .initial = .error .driver t ∧
      t.misused = true := ⟨_, rfl, rfl⟩

end DocaApps.Proofs.A2aSetup
