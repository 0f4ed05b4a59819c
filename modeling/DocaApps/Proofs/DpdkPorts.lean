import DocaApps.Common.DpdkPorts

namespace DocaApps.Proofs.DpdkPorts
open Lib Lib.FirstStop Common.DpdkPorts

variable {drv : Ethdev} {cfg : DpdkConfig} {s : Ports} {ps pre post : List Nat} {p n : Nat}

/-- The valid ports, upwards. -/
def ports (drv : Ethdev) : List Nat := (List.range rteMaxEthports).filter drv.isValidPort

/-- Those that a set-up starts. -/
def lowest (drv : Ethdev) (cfg : DpdkConfig) : List Nat := (ports drv).take cfg.nbPorts.toNat

/-- All that are valid, downwards from this one. -/
def below (drv : Ethdev) (port : Nat) : List Nat :=
  (List.range (port + 1)).reverse.filter drv.isValidPort

/-- The pairs that binding a port binds, when nothing fails. -/
def pairs (drv : Ethdev) (port : Nat) : List (Nat × Nat) :=
  [Direction.tx, .rx].flatMap fun dir => (drv.peers dir port).map (dir.pair port)

def pair? : Step → Option (Nat × Nat)
  | .call (.hairpinBind port dir _ peer) => some (dir.pair port peer)
  | _ => none

def portStop (drv : Ethdev) (cfg : DpdkConfig) (port : Nat) : Option Stop :=
  (portInitSteps drv cfg port).findSome? (Step.stop drv)

def bindStop (drv : Ethdev) (port : Nat) : Option Stop :=
  (bindSteps drv port).findSome? (Step.stop drv)

/-- The pairs bound before the first failing step of `bind_hairpin_queues`. -/
def boundBefore (drv : Ethdev) (port : Nat) : List (Nat × Nat) :=
  (performed (Step.stop drv) (bindSteps drv port)).filterMap pair?

/-- The state with more ports started, with more pairs bound, and so on. -/
def start (ps : List Nat) (s : Ports) : Ports := { s with
  started := s.started ∪ ps.toFinset
  everStarted := s.everStarted ∪ ps.toFinset }

def bind (pairs : List (Nat × Nat)) (s : Ports) : Ports :=
  { s with bound := s.bound ∪ pairs.toFinset }

def unbind (drv : Ethdev) (ps : List Nat) (s : Ports) : Ports := { s with
  bound := s.bound \ (ps.flatMap (pairs drv)).toFinset
  unbound := s.unbound ++ ps }

def close (ps : List Nat) (s : Ports) : Ports := { s with
  started := s.started \ ps.toFinset
  stopped := s.stopped ++ ps
  closed := s.closed ++ ps
  poolsFreed := if s.mbufPool then s.poolsFreed + 1 else s.poolsFreed }

@[simp] theorem bind_nil (s : Ports) : bind [] s = s := by
  simp [bind]

theorem perform_behaves (drv : Ethdev) :
    Behaves (perform drv) (Step.stop drv) Step.effect fun _ _ s => s where
  ok hk := by
    rw [perform, hk]
    rfl
  error hk := by
    rw [perform, hk]
    rfl

theorem effect_setup (port peer : Nat) (queues : List Nat) :
    ∀ step ∈ setupHairpinQueues port peer queues, ∀ s, step.effect s = s := by
  intro step h s
  simp only [setupHairpinQueues, List.mem_flatMap, List.mem_cons, List.not_mem_nil, or_false] at h
  obtain ⟨queue, -, rfl | rfl⟩ := h
  · rfl
  · rfl

theorem effect_hairpin (drv : Ethdev) (cfg : DpdkConfig) (port : Nat) :
    ∀ step ∈ hairpinSteps drv cfg port, ∀ s, step.effect s = s := by
  unfold hairpinSteps
  dsimp only
  split
  · simp only [List.cons_append, List.forall_mem_cons, List.forall_mem_append]
    exact ⟨fun _ => rfl, effect_setup _ _ _, effect_setup _ _ _⟩
  · split
    · split
      · exact effect_setup _ _ _
      · exact effect_setup _ _ _
    · simp

/-- Nothing is started or bound before a port starts. -/
theorem effect_prepare (drv : Ethdev) (cfg : DpdkConfig) (port : Nat) :
    ∀ step ∈ prepareSteps drv cfg port, ∀ s, step.effect s = s := by
  unfold prepareSteps
  simp only [List.forall_mem_append, List.forall_mem_cons, List.forall_mem_map]
  refine ⟨⟨⟨⟨⟨?_, ?_, ?_, ?_⟩, ?_⟩, ?_⟩, effect_hairpin drv cfg port⟩, ?_, ?_⟩
  all_goals simp [Step.effect, Call.effect]

/-- A port that does not start leaves everything as it was. -/
theorem portInit_behaves (drv : Ethdev) (cfg : DpdkConfig) :
    Behaves (portInit drv cfg) (portStop drv cfg) (fun p => start [p]) fun _ _ s => s := by
  refine ((perform_behaves drv).loop (portInitSteps drv cfg)).congr ?_ ?_
  · intro port s _
    rw [portInitSteps, total_append, total_eq_self (effect_prepare drv cfg port)]
    simp [Step.effect, Call.effect, start]
  · intro port e s hstop
    obtain ⟨pre, step, post, hsteps, hstep, hpre⟩ := List.findSome?_eq_some_iff.mp hstop
    rw [hsteps, performed_eq hpre hstep]
    have hprepare : pre ++ (step :: post).dropLast = prepareSteps drv cfg port := by
      rw [← List.dropLast_append_of_ne_nil (List.cons_ne_nil step post), ← hsteps, portInitSteps,
        List.dropLast_concat]
    apply total_eq_self
    intro step' hmem
    apply effect_prepare drv cfg port
    rw [← hprepare]
    exact List.mem_append_left _ hmem

theorem effect_bind {step : Step} (h : step ∈ bindSteps drv p) (s : Ports) :
    step.effect s = bind (pair? step).toList s := by
  simp only [bindSteps, List.mem_flatMap, List.mem_cons, List.mem_mapIdx] at h
  obtain ⟨dir, -, rfl | ⟨i, hi, rfl⟩⟩ := h
  · simp [Step.effect, Call.effect, pair?, bind]
  · simp [Step.effect, Call.effect, pair?, bind]

theorem total_bind {steps : List Step} (h : ∀ step ∈ steps, step ∈ bindSteps drv p) (s : Ports) :
    total Step.effect steps s = bind (steps.filterMap pair?) s := by
  induction steps generalizing s with
  | nil => simp [bind]
  | cons step steps ih =>
    rw [total_cons, ih fun step' hmem => h step' (List.mem_cons_of_mem step hmem),
      effect_bind (h step List.mem_cons_self)]
    cases hpair : pair? step with
    | none => simp [bind, hpair]
    | some pair => simp [bind, hpair]

theorem filterMap_bindSteps (drv : Ethdev) (port : Nat) :
    (bindSteps drv port).filterMap pair? = pairs drv port := by
  have hdir : ∀ dir, ((drv.peers dir port).mapIdx fun index peer =>
      Step.call (.hairpinBind port dir index peer)).filterMap pair? =
        (drv.peers dir port).map (dir.pair port) := by
    intro dir
    rw [List.mapIdx_eq_zipIdx_map, List.filterMap_map]
    have hpair : (pair? ∘ fun x : Nat × Nat => Step.call (.hairpinBind port dir x.2 x.1)) =
        fun x => some (dir.pair port x.1) := rfl
    rw [hpair, List.filterMap_eq_map', ← Function.comp_def, ← List.map_map, List.zipIdx_map_fst]
  simp only [bindSteps, pairs, List.filterMap_flatMap]
  congr 1
  funext dir
  rw [List.filterMap_cons, hdir]
  rfl

theorem bindHairpinQueues_behaves (drv : Ethdev) :
    Behaves (bindHairpinQueues drv) (bindStop drv) (fun p => bind (pairs drv p))
      fun p _ => bind (boundBefore drv p) := by
  refine ((perform_behaves drv).loop (bindSteps drv)).congr ?_ ?_
  · intro port s _
    rw [total_bind (fun _ h => h), filterMap_bindSteps]
  · intro port e s _
    apply total_bind
    intro step h
    exact List.takeWhile_subset _ h

theorem erase_pairs (pairs : List (Nat × Nat)) (s : Ports) :
    total (fun pair s => { s with bound := s.bound.erase pair }) pairs s =
      { s with bound := s.bound \ pairs.toFinset } := by
  induction pairs generalizing s with
  | nil => simp
  | cons pair pairs ih =>
    rw [total_cons, ih, List.toFinset_cons, Finset.sdiff_insert, ← Finset.erase_sdiff_comm]

theorem unbindHairpinQueues_behaves (drv : Ethdev) :
    Behaves (unbindHairpinQueues drv) (fun _ => none) (fun p => unbind drv [p]) fun _ _ s => s where
  ok {port s} _ := by
    have hdir : ∀ (dir : Direction) (s : Ports), ((drv.peers dir port).forM fun peer =>
        modify fun s => { s with bound := s.bound.erase (dir.pair port peer) } : Dpdk PUnit) s =
          .ok ⟨⟩ { s with
            bound := s.bound \ ((drv.peers dir port).map (dir.pair port)).toFinset } := by
      intro dir s
      rw [← erase_pairs, total, List.foldl_map]
      apply (Behaves.modify _).forM_ok
      simp
    have hboth : ([Direction.tx, .rx].forM fun dir => (drv.peers dir port).forM fun peer =>
        modify fun s => { s with bound := s.bound.erase (dir.pair port peer) } : Dpdk PUnit) s =
          .ok ⟨⟩ { s with bound := s.bound \ (pairs drv port).toFinset } := by
      rw [List.forM_eq_forM, List.forM_cons, Command.run_bind (hdir .tx s), List.forM_cons,
        Command.run_bind (hdir .rx _), List.forM_nil]
      simp [pairs, EStateM.pure, pure, sdiff_sdiff_left]
    rw [unbindHairpinQueues, Command.run_bind hboth]
    simp [modify, modifyGet, MonadStateOf.modifyGet, EStateM.modifyGet, unbind]
  error hk := by cases hk

theorem total_unbind (ps : List Nat) (s : Ports) :
    total (fun p => unbind drv [p]) ps s = unbind drv ps s := by
  induction ps generalizing s with
  | nil => simp [unbind]
  | cons p ps ih =>
    rw [total_cons, ih]
    simp [unbind, sdiff_sdiff_left]

theorem disableHairpinQueues_eq (drv : Ethdev) (n : Nat) (s : Ports) :
    disableHairpinQueues drv n s =
      .ok ⟨⟩ (unbind drv ((List.range n).filter drv.isValidPort) s) := by
  rw [← total_unbind]
  apply (unbindHairpinQueues_behaves drv).forM_ok
  simp

/-- Tear-down closes the ports it comes to, and frees the pool if there is one. -/
theorem dpdkPortsFini_eq (drv : Ethdev) (cfg : DpdkConfig) (n : Nat) (s : Ports) :
    dpdkPortsFini drv cfg n s =
      .ok ⟨⟩ (close (visited drv.isValidPort cfg.nbPorts (List.range (n + 1)).reverse) s) := by
  unfold dpdkPortsFini
  rw [visit_eq]
  have hclose : ∀ ps s, total (fun port s => { s with
      started := s.started.erase port
      stopped := s.stopped ++ [port]
      closed := s.closed ++ [port] }) ps s = ({ s with
        started := s.started \ ps.toFinset
        stopped := s.stopped ++ ps
        closed := s.closed ++ ps } : Ports) := by
    intro ps
    induction ps with
    | nil => simp
    | cons p ps ih =>
      intro s
      rw [total_cons, ih]
      simp [Finset.sdiff_insert, Finset.erase_sdiff_comm]
  rw [Command.run_bind ((Behaves.modify _).forM_ok (by simp)), hclose]
  rfl

/-- What cleaning up after a stop leaves: an assertion leaves everything. -/
def cleaned (drv : Ethdev) (cfg : DpdkConfig) (n : Nat) : Stop → Ports → Ports
  | .failed _, s => close (visited drv.isValidPort cfg.nbPorts (List.range (n + 1)).reverse) s
  | .aborted, s => s

theorem cleanUp_eq (drv : Ethdev) (cfg : DpdkConfig) (n : Nat) (stop : Stop) (s : Ports) :
    cleanUp (dpdkPortsFini drv cfg n) stop s = .error stop (cleaned drv cfg n stop s) := by
  cases stop with
  | failed err =>
    rw [cleanUp, Command.run_bind (dpdkPortsFini_eq drv cfg n s)]
    rfl
  | aborted => rfl

theorem total_start (ps : List Nat) (s : Ports) : total (fun p => start [p]) ps s = start ps s := by
  induction ps generalizing s with
  | nil => simp [start]
  | cons p ps ih =>
    rw [total_cons, ih]
    simp [start]

theorem total_pairs (ps : List Nat) (s : Ports) :
    total (fun p => bind (pairs drv p)) ps s = bind (ps.flatMap (pairs drv)) s := by
  induction ps generalizing s with
  | nil => simp [bind]
  | cons p ps ih =>
    rw [total_cons, ih]
    simp [bind, Finset.union_assoc]

theorem portInit_cleaned (drv : Ethdev) (cfg : DpdkConfig) :
    Behaves (fun port => tryCatch (portInit drv cfg port) (cleanUp (dpdkPortsFini drv cfg port)))
      (portStop drv cfg) (fun p => start [p]) (cleaned drv cfg) :=
  (portInit_behaves drv cfg).tryCatch (cleanUp_eq drv cfg)

theorem bindHairpinQueues_cleaned (drv : Ethdev) :
    Behaves (fun port => tryCatch (bindHairpinQueues drv port) fun stop => do
        disableHairpinQueues drv port
        throw stop)
      (bindStop drv) (fun p => bind (pairs drv p)) fun p _ s =>
        unbind drv ((List.range p).filter drv.isValidPort) (bind (boundBefore drv p) s) := by
  apply (bindHairpinQueues_behaves drv).tryCatch
  intro port stop s
  rw [Command.run_bind (disableHairpinQueues_eq drv port s)]
  rfl

/-- The ports that a set-up binds. -/
def enabled (drv : Ethdev) (cfg : DpdkConfig) : List Nat :=
  visited drv.isValidPort (cfg.nbPorts % 2 ^ 8) (List.range rteMaxEthports)

/-- The set-up ends before it has created anything. -/
def Refused (drv : Ethdev) (cfg : DpdkConfig) : Prop :=
  0 < cfg.nbPorts ∧ (drv.countAvail : Int) < cfg.nbPorts ∨
    0 < cfg.nbQueues ∧ drv.lcoreCount < cfg.nbQueues ∨
    0 < cfg.nbPorts ∧ drv.fails (.poolCreate (totalNbMbufs (cfg.withQueues drv))) = true

def MetadataFails (drv : Ethdev) (cfg : DpdkConfig) : Prop :=
  0 < cfg.nbPorts ∧ cfg.enableMbufMetadata = true ∧ drv.fails .metadataRegister = true

def pooled (cfg : DpdkConfig) : Ports :=
  if 0 < cfg.nbPorts then { Ports.initial with mbufPool := true, poolsCreated := 1 }
  else .initial

/-- All ports have started. -/
structure Prepared (drv : Ethdev) (cfg : DpdkConfig) : Prop where
  accepted : ¬ Refused drv cfg
  registered : ¬ MetadataFails drv cfg
  started : ∀ p ∈ lowest drv cfg, portStop drv (cfg.withQueues drv) p = none

/-- How a set-up ends, with what it leaves. -/
inductive Ended (drv : Ethdev) (cfg : DpdkConfig) :
    EStateM.Result Stop Ports DpdkConfig → Prop where
  | refused (h : Refused drv cfg) : Ended drv cfg (.error (.failed .driver) .initial)
  | leaked (haccepted : ¬ Refused drv cfg) (h : MetadataFails drv cfg) :
      Ended drv cfg (.error (.failed .driver) (pooled cfg))
  | unprepared (pre : List Nat) (p : Nat) (stop : Stop) (post : List Nat)
      (haccepted : ¬ Refused drv cfg) (hregistered : ¬ MetadataFails drv cfg)
      (hports : lowest drv cfg = pre ++ p :: post)
      (hpre : ∀ q ∈ pre, portStop drv (cfg.withQueues drv) q = none)
      (hstop : portStop drv (cfg.withQueues drv) p = some stop) :
      Ended drv cfg (.error stop (cleaned drv cfg p stop (start pre (pooled cfg))))
  | unbound (pre : List Nat) (p : Nat) (stop : Stop) (post : List Nat)
      (hprepared : Prepared drv cfg) (hhairpin : 0 < cfg.nbHairpinQ)
      (hports : enabled drv cfg = pre ++ p :: post) (hpre : ∀ q ∈ pre, bindStop drv q = none)
      (hstop : bindStop drv p = some stop) :
      Ended drv cfg (.error stop (cleaned drv cfg rteMaxEthports stop
        (unbind drv ((List.range p).filter drv.isValidPort) (bind (boundBefore drv p)
          (bind (pre.flatMap (pairs drv)) (start (lowest drv cfg) (pooled cfg)))))))
  | ready (hprepared : Prepared drv cfg)
      (hbound : 0 < cfg.nbHairpinQ → ∀ p ∈ enabled drv cfg, bindStop drv p = none) :
      Ended drv cfg (.ok (cfg.withQueues drv)
        (bind (if 0 < cfg.nbHairpinQ then (enabled drv cfg).flatMap (pairs drv) else [])
          (start (lowest drv cfg) (pooled cfg))))

theorem nbPorts_le (h : ¬ Refused drv cfg) : cfg.nbPorts ≤ (ports drv).length := by
  have hle := drv.countAvail_le
  simp only [Refused, not_or, not_and] at h
  by_cases hpos : 0 < cfg.nbPorts
  · have havail := h.1 hpos
    unfold ports
    omega
  · omega

theorem ports_length_le (drv : Ethdev) : (ports drv).length ≤ rteMaxEthports :=
  (List.length_filter_le ..).trans_eq List.length_range

theorem toNat_uint8 (nb : Int) : ((nb % 2 ^ 8).toNat : Int) = nb % 2 ^ 8 :=
  Int.toNat_of_nonneg (Int.emod_nonneg nb (by norm_num))

theorem enableHairpinQueues_ok (hnone : ∀ p ∈ enabled drv cfg, bindStop drv p = none) :
    enableHairpinQueues drv (cfg.nbPorts % 2 ^ 8).toNat s =
      .ok ⟨⟩ (bind ((enabled drv cfg).flatMap (pairs drv)) s) := by
  rw [enableHairpinQueues, visit_eq, toNat_uint8, ← total_pairs]
  exact (bindHairpinQueues_cleaned drv).forM_ok hnone

theorem enableHairpinQueues_error {stop : Stop} (hports : enabled drv cfg = pre ++ p :: post)
    (hpre : ∀ q ∈ pre, bindStop drv q = none) (hstop : bindStop drv p = some stop) :
    enableHairpinQueues drv (cfg.nbPorts % 2 ^ 8).toNat s =
      .error stop (unbind drv ((List.range p).filter drv.isValidPort)
        (bind (boundBefore drv p) (bind (pre.flatMap (pairs drv)) s))) := by
  have hvisited : visited drv.isValidPort (cfg.nbPorts % 2 ^ 8) (List.range rteMaxEthports) =
      pre ++ p :: post := hports
  rw [enableHairpinQueues, visit_eq, toNat_uint8, hvisited, ← total_pairs]
  exact (bindHairpinQueues_cleaned drv).forM_error hpre hstop

/-- The second part of the set-up, once the ports have started. -/
theorem hairpin_ended (hprepared : Prepared drv cfg) : Ended drv cfg (
    (do
      if 0 < cfg.nbHairpinQ then
        tryCatch (enableHairpinQueues drv (cfg.nbPorts % 2 ^ 8).toNat)
          (cleanUp (dpdkPortsFini drv (cfg.withQueues drv) rteMaxEthports))
      return cfg.withQueues drv : Dpdk DpdkConfig) (start (lowest drv cfg) (pooled cfg))) := by
  by_cases hhairpin : 0 < cfg.nbHairpinQ
  · rw [if_pos hhairpin]
    rcases none_or_first (bindStop drv) (enabled drv cfg) with
      hnone | ⟨pre, p, stop, post, hports, hpre, hstop⟩
    · rw [Command.run_bind (Command.tryCatch_ok (enableHairpinQueues_ok hnone))]
      have hready := Ended.ready hprepared fun _ => hnone
      rwa [if_pos hhairpin] at hready
    · rw [Command.run_bind_error ((Command.tryCatch_error
        (enableHairpinQueues_error hports hpre hstop)).trans (cleanUp_eq ..))]
      exact .unbound pre p stop post hprepared hhairpin hports hpre hstop
  · rw [if_neg hhairpin]
    have hready := Ended.ready hprepared fun h => absurd h hhairpin
    rw [if_neg hhairpin, bind_nil] at hready
    exact hready

theorem visited_lowest (h : 0 < cfg.nbPorts) (hle : cfg.nbPorts ≤ (ports drv).length) :
    visited drv.isValidPort (cfg.nbPorts % 2 ^ 16) (List.range rteMaxEthports) =
      lowest drv cfg := by
  have hlen := ports_length_le drv
  have hmax : rteMaxEthports = 32 := rfl
  have hmod : cfg.nbPorts % 2 ^ 16 = cfg.nbPorts := Int.emod_eq_of_lt h.le (by omega)
  have hone : max 1 cfg.nbPorts.toNat = cfg.nbPorts.toNat := by omega
  rw [visited, hmod, hone]
  rfl

theorem lowest_nonpos (h : ¬ 0 < cfg.nbPorts) : lowest drv cfg = [] := by
  have hzero : cfg.nbPorts.toNat = 0 := by omega
  rw [lowest, hzero, List.take_zero]

theorem perform_call_ok {c : Call} (h : drv.fails c = false) :
    perform drv (.call c) s = .ok ⟨⟩ (c.effect s) := by
  apply (perform_behaves drv).ok
  simp [Step.stop, h]

theorem perform_call_error {c : Call} (h : drv.fails c = true) :
    perform drv (.call c) s = .error (.failed .driver) s := by
  apply (perform_behaves drv).error
  simp [Step.stop, h]

/-- The ports, when there is a pool for them. -/
theorem dpdkPortsInit_ended (haccepted : ¬ Refused drv cfg) (hpos : 0 < cfg.nbPorts) :
    (dpdkPortsInit drv (cfg.withQueues drv) .initial =
        .ok ⟨⟩ (start (lowest drv cfg) (pooled cfg)) ∧ Prepared drv cfg) ∨
      ∃ stop t, dpdkPortsInit drv (cfg.withQueues drv) .initial = .error stop t ∧
        Ended drv cfg (.error stop t) := by
  have hpool : drv.fails (.poolCreate (totalNbMbufs (cfg.withQueues drv))) = false := by
    simp only [Refused, not_or, not_and, Bool.not_eq_true] at haccepted
    exact haccepted.2.2 hpos
  have hstate : (Call.poolCreate (totalNbMbufs (cfg.withQueues drv))).effect .initial =
      pooled cfg := by
    rw [pooled, if_pos hpos]
    rfl
  have hvisited := visited_lowest hpos (nbPorts_le haccepted)
  have hlimit : (cfg.withQueues drv).nbPorts % 2 ^ 16 = cfg.nbPorts % 2 ^ 16 := rfl
  by_cases hfails : MetadataFails drv cfg
  · refine .inr ⟨_, _, ?_, .leaked haccepted hfails⟩
    have henable : (cfg.withQueues drv).enableMbufMetadata = true := hfails.2.1
    unfold dpdkPortsInit
    rw [Command.run_bind (perform_call_ok hpool), hstate, if_pos henable]
    exact Command.run_bind_error (perform_call_error hfails.2.2)
  have hrun : dpdkPortsInit drv (cfg.withQueues drv) .initial =
      (lowest drv cfg).forM (fun port => tryCatch (portInit drv (cfg.withQueues drv) port)
        (cleanUp (dpdkPortsFini drv (cfg.withQueues drv) port))) (pooled cfg) := by
    unfold dpdkPortsInit
    rw [Command.run_bind (perform_call_ok hpool), hstate, visit_eq, hlimit, hvisited]
    split
    · rename_i henable
      apply Command.run_bind
      apply perform_call_ok
      simpa using fun h => hfails ⟨hpos, henable, h⟩
    · rfl
  rw [hrun]
  rcases none_or_first (portStop drv (cfg.withQueues drv)) (lowest drv cfg) with
    hnone | ⟨pre, p, stop, post, hports, hpre, hstop⟩
  · refine .inl ⟨?_, haccepted, hfails, hnone⟩
    rw [← total_start]
    exact (portInit_cleaned drv (cfg.withQueues drv)).forM_ok hnone
  · refine .inr ⟨_, _, ?_, .unprepared pre p stop post haccepted hfails hports hpre hstop⟩
    rw [hports, ← total_start]
    exact (portInit_cleaned drv (cfg.withQueues drv)).forM_error hpre hstop

/-- Every end of a set-up is one of these. -/
theorem dpdkQueuesAndPortsInit_ended (drv : Ethdev) (cfg : DpdkConfig) :
    Ended drv cfg (dpdkQueuesAndPortsInit drv cfg .initial) := by
  unfold dpdkQueuesAndPortsInit
  by_cases havail : 0 < cfg.nbPorts ∧ (drv.countAvail : Int) < cfg.nbPorts
  · rw [if_pos havail]
    exact .refused (.inl havail)
  by_cases hcores : 0 < cfg.nbQueues ∧ drv.lcoreCount < cfg.nbQueues
  · rw [if_neg havail, if_pos hcores]
    exact .refused (.inr (.inl hcores))
  rw [if_neg havail, if_neg hcores]
  dsimp only [pure_bind]
  have hnb : (cfg.withQueues drv).nbPorts = cfg.nbPorts := rfl
  rw [hnb]
  by_cases hpos : 0 < cfg.nbPorts
  · rw [if_pos hpos]
    by_cases hrefused : Refused drv cfg
    · have hpool : drv.fails (.poolCreate (totalNbMbufs (cfg.withQueues drv))) = true := by
        simp only [Refused, havail, hcores, false_or] at hrefused
        exact hrefused.2
      have hrun : dpdkPortsInit drv (cfg.withQueues drv) .initial =
          .error (.failed .driver) .initial := Command.run_bind_error (perform_call_error hpool)
      rw [Command.run_bind_error hrun]
      exact .refused hrefused
    · rcases dpdkPortsInit_ended hrefused hpos with ⟨hrun, hprepared⟩ | ⟨stop, t, hrun, hend⟩
      · rw [Command.run_bind hrun]
        exact hairpin_ended hprepared
      · rw [Command.run_bind_error hrun]
        exact hend
  · rw [if_neg hpos]
    have hprepared : Prepared drv cfg := by
      constructor
      · simp [Refused, hcores, hpos]
      · exact fun h => hpos h.1
      · simp [lowest_nonpos hpos]
    have hstart : start (lowest drv cfg) (pooled cfg) = .initial := by
      rw [lowest_nonpos hpos, pooled, if_neg hpos]
      rfl
    have hend := hairpin_ended hprepared
    rw [hstart] at hend
    exact hend

/-- What a successful set-up and the tear-down after it leave: so many ports started, and just
these unbound, stopped and closed. -/
structure Balanced (cfg : DpdkConfig) (up down : Ports) : Prop where
  count : (up.started.card : Int) = cfg.nbPorts
  started : down.started = ∅
  bound : down.bound = ∅
  unbound : (down.unbound : Multiset Nat) = up.started.val
  stopped : (down.stopped : Multiset Nat) = up.started.val
  closed : (down.closed : Multiset Nat) = up.started.val

/-- What a failed set-up has to leave. -/
structure Undone (s : Ports) : Prop where
  started : s.started = ∅
  bound : s.bound = ∅
  freed : s.poolsFreed = if 0 < s.poolsCreated then 1 else 0
  touched : ∀ p ∈ s.stopped ++ s.closed, p ∈ s.everStarted

/-- Set-up and tear-down touch the same ports. -/
def Matches (drv : Ethdev) (cfg : DpdkConfig) : Prop :=
  match dpdkQueuesAndPortsInit drv cfg .initial with
  | .ok cfg' up => ∃ down, dpdkQueuesAndPortsFini drv cfg' up = .ok ⟨⟩ down ∧ Balanced cfg up down
  | .error (.failed _) s => Undone s
  | .error .aborted _ => True

/-- The configuration needs all valid ports, each of them starts, and where a port cannot be bound,
the pairs bound for it before belong to a lower port too. -/
structure Fits (drv : Ethdev) (cfg : DpdkConfig) : Prop where
  prepared : Prepared drv cfg
  count : ((ports drv).length : Int) = cfg.nbPorts
  unbinds : 0 < cfg.nbHairpinQ → ∀ p ∈ ports drv, bindStop drv p ≠ none →
    (∀ q ∈ ports drv, q < p → bindStop drv q = none) →
    ∀ pair ∈ boundBefore drv p, ∃ q ∈ ports drv, q < p ∧ pair ∈ pairs drv q

/-- A set-up that an assertion ends. -/
def Aborts (drv : Ethdev) (cfg : DpdkConfig) : Prop :=
  ¬ MetadataFails drv cfg ∧
    (lowest drv cfg).findSome? (portStop drv (cfg.withQueues drv)) = some .aborted

theorem ports_sorted (drv : Ethdev) : (ports drv).Pairwise (· < ·) :=
  List.pairwise_lt_range.filter _

theorem mem_ports : p ∈ ports drv ↔ drv.isValidPort p = true := by
  rw [ports, List.mem_filter, List.mem_range]
  exact ⟨And.right, fun h => ⟨drv.valid_lt p h, h⟩⟩

/-- Tear-down looks at the highest ports. -/
theorem visited_highest (drv : Ethdev) (cfg : DpdkConfig) :
    visited drv.isValidPort cfg.nbPorts (List.range (rteMaxEthports + 1)).reverse =
      (ports drv).reverse.take (max 1 cfg.nbPorts.toNat) := by
  have hinvalid : drv.isValidPort rteMaxEthports = false := by
    by_contra h
    exact lt_irrefl _ (drv.valid_lt _ (Bool.not_eq_false _ ▸ h))
  rw [visited, List.range_succ, List.reverse_append, List.reverse_singleton, List.singleton_append,
    List.filter_cons_of_neg (by simp [hinvalid]), List.filter_reverse]
  rfl

theorem fini_eq (drv : Ethdev) (cfg : DpdkConfig) (s : Ports) :
    dpdkQueuesAndPortsFini drv cfg s = .ok ⟨⟩
      (close ((ports drv).reverse.take (max 1 cfg.nbPorts.toNat)) (unbind drv (ports drv) s)) := by
  rw [dpdkQueuesAndPortsFini, Command.run_bind (disableHairpinQueues_eq drv _ s), dpdkPortsFini_eq,
    visited_highest]
  rfl

/-- Where there are more ports than needed, tear-down closes one that was never started. -/
theorem closes_another (hne : ((ports drv).length : Int) ≠ cfg.nbPorts)
    (hle : cfg.nbPorts ≤ (ports drv).length) (hsome : ports drv ≠ []) :
    ∃ p ∈ (ports drv).reverse.take (max 1 cfg.nbPorts.toNat), p ∉ lowest drv cfg := by
  have hsorted := ports_sorted drv
  rcases List.eq_nil_or_concat (ports drv) with hnil | ⟨init, last, hports⟩
  · exact absurd hnil hsome
  rw [List.concat_eq_append] at hports
  rw [hports, List.pairwise_append] at hsorted
  refine ⟨last, ?_, ?_⟩
  · obtain ⟨k, hk⟩ : ∃ k, max 1 cfg.nbPorts.toNat = k + 1 :=
      ⟨max 1 cfg.nbPorts.toNat - 1, by omega⟩
    rw [hports, hk, List.reverse_append, List.reverse_singleton, List.singleton_append,
      List.take_succ_cons]
    exact List.mem_cons_self
  · have hlen : (ports drv).length = init.length + 1 := by rw [hports, List.length_append]; rfl
    rw [lowest, hports, List.take_append_of_le_length (by omega)]
    intro hlast
    exact lt_irrefl last (hsorted.2.2 last (List.mem_of_mem_take hlast) last List.mem_cons_self)

/-- Where just as many are needed as there are, every part comes to all of them. -/
theorem all_ports (h : ((ports drv).length : Int) = cfg.nbPorts) :
    lowest drv cfg = ports drv ∧ enabled drv cfg = ports drv ∧
      (ports drv).reverse.take (max 1 cfg.nbPorts.toNat) = (ports drv).reverse := by
  have hlen := ports_length_le drv
  have hmax : rteMaxEthports = 32 := rfl
  have hmod : cfg.nbPorts % 2 ^ 8 = cfg.nbPorts := Int.emod_eq_of_lt (by omega) (by omega)
  refine ⟨List.take_of_length_le (by omega), ?_, List.take_of_length_le ?_⟩
  · rw [enabled, visited, hmod]
    exact List.take_of_length_le (show (ports drv).length ≤ _ by omega)
  · rw [List.length_reverse]
    omega

theorem bindStop_failed {stop : Stop} (h : bindStop drv p = some stop) :
    stop = .failed .driver := by
  obtain ⟨step, hmem, hstep⟩ := List.exists_of_findSome?_eq_some h
  simp only [bindSteps, List.mem_flatMap, List.mem_cons, List.mem_mapIdx] at hmem
  obtain ⟨dir, -, rfl | ⟨i, hi, rfl⟩⟩ := hmem
  all_goals
    simp only [Step.stop] at hstep
    split at hstep
    · exact (Option.some.inj hstep).symm
    · cases hstep

/-- After the ports have started the rest decides. -/
theorem fits_iff (hprepared : Prepared drv cfg) :
    Refused drv cfg ∨ Aborts drv cfg ∨ Fits drv cfg ↔ Fits drv cfg := by
  have haborts : ¬ Aborts drv cfg := by
    intro h
    have hnone := List.findSome?_eq_none_iff.mpr hprepared.started
    rw [h.2] at hnone
    cases hnone
  simp [hprepared.accepted, haborts]

theorem pooled_freed (cfg : DpdkConfig) : (if (pooled cfg).mbufPool then (pooled cfg).poolsFreed + 1
    else (pooled cfg).poolsFreed) = if 0 < (pooled cfg).poolsCreated then 1 else 0 := by
  unfold pooled
  split <;> rfl

@[simp] theorem pooled_untouched (cfg : DpdkConfig) : (pooled cfg).started = ∅ ∧
    (pooled cfg).bound = ∅ ∧ (pooled cfg).everStarted = ∅ ∧ (pooled cfg).unbound = [] ∧
    (pooled cfg).stopped = [] ∧ (pooled cfg).closed = [] := by
  unfold pooled
  split <;> simp [Ports.initial]

/-- A set-up that succeeded. -/
theorem ready_iff (hprepared : Prepared drv cfg)
    (hbound : 0 < cfg.nbHairpinQ → ∀ p ∈ enabled drv cfg, bindStop drv p = none) :
    Balanced cfg
      (bind (if 0 < cfg.nbHairpinQ then (enabled drv cfg).flatMap (pairs drv) else [])
        (start (lowest drv cfg) (pooled cfg)))
      (close ((ports drv).reverse.take (max 1 cfg.nbPorts.toNat)) (unbind drv (ports drv)
        (bind (if 0 < cfg.nbHairpinQ then (enabled drv cfg).flatMap (pairs drv) else [])
          (start (lowest drv cfg) (pooled cfg))))) ↔ Fits drv cfg := by
  have hclean := pooled_untouched cfg
  constructor
  · intro h
    have hcount : ((ports drv).length : Int) = cfg.nbPorts := by
      by_contra hne
      by_cases hsome : ports drv = []
      · have hcard := h.count
        simp [bind, start, lowest, hsome] at hcard
        simp [hsome, ← hcard] at hne
      · obtain ⟨p, hp, hlow⟩ := closes_another hne (nbPorts_le hprepared.accepted) hsome
        have hmem : p ∈ ((ports drv).reverse.take (max 1 cfg.nbPorts.toNat) : Multiset Nat) := hp
        have hstopped := h.stopped
        simp only [close, unbind, bind, start, hclean, List.nil_append,
          Finset.empty_union] at hstopped
        rw [hstopped, Finset.mem_val, List.mem_toFinset] at hmem
        exact hlow hmem
    refine ⟨hprepared, hcount, ?_⟩
    intro hhairpin p hp hstop
    exact absurd (hbound hhairpin p ((all_ports hcount).2.1 ▸ hp)) hstop
  · intro h
    obtain ⟨hlowest, henabled, hhighest⟩ := all_ports h.count
    have hnodup : (ports drv).Nodup := (ports_sorted drv).imp Nat.ne_of_lt
    have hval : ((ports drv : List Nat) : Multiset Nat) = (ports drv).toFinset.val := by
      rw [List.toFinset_val, hnodup.dedup]
    rw [hlowest, henabled, hhighest]
    constructor
    · simp [bind, start, List.toFinset_card_of_nodup hnodup, h.count]
    · simp [close, unbind, bind, start]
    · simp only [close, unbind, bind, start, hclean, Finset.empty_union,
        Finset.sdiff_eq_empty_iff_subset]
      split
      · exact subset_rfl
      · simp
    · simp [close, unbind, bind, start, hval]
    · simp only [close, unbind, bind, start, hclean, Finset.empty_union, List.nil_append,
        Multiset.coe_reverse, hval]
    · simp only [close, unbind, bind, start, hclean, Finset.empty_union, List.nil_append,
        Multiset.coe_reverse, hval]

/-- The ports before one of the ports are lower valid ports. -/
theorem lower_of_split (h : ports drv = pre ++ p :: post) {q : Nat} (hq : q ∈ pre) :
    q < p ∧ drv.isValidPort q = true := by
  have hsorted := ports_sorted drv
  have hmem : q ∈ ports drv := by
    rw [h]
    exact List.mem_append_left _ hq
  rw [h, List.pairwise_append] at hsorted
  exact ⟨hsorted.2.2 q hq p List.mem_cons_self, mem_ports.mp hmem⟩

/-- A set-up that failed to bind a port. -/
theorem unbound_iff (hprepared : Prepared drv cfg) (hhairpin : 0 < cfg.nbHairpinQ)
    (hports : enabled drv cfg = pre ++ p :: post) (hpre : ∀ q ∈ pre, bindStop drv q = none)
    {stop : Stop} (hstop : bindStop drv p = some stop) :
    Undone (close ((ports drv).reverse.take (max 1 cfg.nbPorts.toNat))
      (unbind drv ((List.range p).filter drv.isValidPort) (bind (boundBefore drv p)
        (bind (pre.flatMap (pairs drv)) (start (lowest drv cfg) (pooled cfg)))))) ↔
      Fits drv cfg := by
  have hclean := pooled_untouched cfg
  have hlower : ∀ q, q ∈ (List.range p).filter drv.isValidPort ↔
      q < p ∧ drv.isValidPort q = true := by
    intro q
    rw [List.mem_filter, List.mem_range]
  constructor
  · intro h
    have hmem : p ∈ enabled drv cfg := by
      rw [hports]
      exact List.mem_append_right _ List.mem_cons_self
    have hcount : ((ports drv).length : Int) = cfg.nbPorts := by
      by_contra hne
      have hsome : ports drv ≠ [] := List.ne_nil_of_mem (List.mem_of_mem_take hmem)
      obtain ⟨q, hq, hlow⟩ := closes_another hne (nbPorts_le hprepared.accepted) hsome
      have htouched := h.touched q
      simp only [close, unbind, bind, start, hclean, List.nil_append, Finset.empty_union,
        List.mem_append, List.mem_toFinset] at htouched
      exact hlow (htouched (.inl hq))
    refine ⟨hprepared, hcount, ?_⟩
    intro _ p' hp' hstop' hfirst pair hpair
    rw [(all_ports hcount).2.1] at hports
    -- the first port that fails is the one the loop stopped at
    have hsame : p' = p := by
      rcases lt_trichotomy p' p with hlt | heq | hgt
      · have hsorted := ports_sorted drv
        rw [hports, List.mem_append, List.mem_cons] at hp'
        rw [hports, List.pairwise_append, List.pairwise_cons] at hsorted
        rcases hp' with hin | rfl | hin
        · exact absurd (hpre p' hin) hstop'
        · exact absurd hlt (lt_irrefl _)
        · exact absurd hlt (hsorted.2.1.1 p' hin).not_gt
      · exact heq
      · have hin : p ∈ ports drv := by
          rw [hports]
          exact List.mem_append_right _ List.mem_cons_self
        have hnone := hfirst p hin hgt
        rw [hstop] at hnone
        cases hnone
    subst hsame
    have hbound := h.bound
    simp only [close, unbind, bind, start, hclean, Finset.empty_union,
      Finset.sdiff_eq_empty_iff_subset] at hbound
    have hgone := hbound (Finset.mem_union_right _ (List.mem_toFinset.mpr hpair))
    obtain ⟨q, hq, hin⟩ := List.mem_flatMap.mp (List.mem_toFinset.mp hgone)
    obtain ⟨hlt, hvalid⟩ := (hlower q).mp hq
    exact ⟨q, mem_ports.mpr hvalid, hlt, hin⟩
  · intro h
    obtain ⟨hlowest, henabled, hhighest⟩ := all_ports h.count
    rw [henabled] at hports
    have hin : p ∈ ports drv := by
      rw [hports]
      exact List.mem_append_right _ List.mem_cons_self
    have hfirst : ∀ q ∈ ports drv, q < p → bindStop drv q = none := by
      intro q hq hlt
      have hsorted := ports_sorted drv
      rw [hports, List.mem_append, List.mem_cons] at hq
      rw [hports, List.pairwise_append, List.pairwise_cons] at hsorted
      rcases hq with hpre' | rfl | hpost
      · exact hpre q hpre'
      · exact absurd hlt (lt_irrefl _)
      · exact absurd hlt (hsorted.2.1.1 q hpost).not_gt
    have hunbinds := h.unbinds hhairpin p hin (by simp [hstop]) hfirst
    rw [hlowest, hhighest]
    constructor
    · simp [close, unbind, bind, start]
    · simp only [close, unbind, bind, start, hclean, Finset.empty_union,
        Finset.sdiff_eq_empty_iff_subset]
      intro pair hpair
      rw [List.mem_toFinset, List.mem_flatMap]
      simp only [Finset.mem_union, List.mem_toFinset, List.mem_flatMap] at hpair
      rcases hpair with ⟨q, hq, hmem⟩ | hmem
      · exact ⟨q, (hlower q).mpr (lower_of_split hports hq), hmem⟩
      · obtain ⟨q, hq, hlt, hpair⟩ := hunbinds pair hmem
        exact ⟨q, (hlower q).mpr ⟨hlt, mem_ports.mp hq⟩, hpair⟩
    · exact pooled_freed cfg
    · simp [close, unbind, bind, start]

/-- A port that did not start is closed all the same. -/
theorem unprepared_touched (hports : lowest drv cfg = pre ++ p :: post) :
    ¬ Undone (close (visited drv.isValidPort cfg.nbPorts (List.range (p + 1)).reverse)
      (start pre (pooled cfg))) := by
  intro h
  have hclean := pooled_untouched cfg
  have hsplit : ports drv = pre ++ p :: (post ++ (ports drv).drop cfg.nbPorts.toNat) := by
    rw [← List.cons_append, ← List.append_assoc, ← hports]
    exact (List.take_append_drop ..).symm
  have hvalid : drv.isValidPort p = true := by
    apply mem_ports.mp
    rw [hsplit]
    exact List.mem_append_right _ List.mem_cons_self
  have hvisited : p ∈ visited drv.isValidPort cfg.nbPorts (List.range (p + 1)).reverse := by
    obtain ⟨k, hk⟩ : ∃ k, max 1 cfg.nbPorts.toNat = k + 1 :=
      ⟨max 1 cfg.nbPorts.toNat - 1, by omega⟩
    rw [visited, List.range_succ, List.reverse_append, List.reverse_singleton,
      List.singleton_append, List.filter_cons_of_pos hvalid, hk, List.take_succ_cons]
    exact List.mem_cons_self
  have htouched := h.touched p
  simp only [close, start, hclean, List.nil_append, Finset.empty_union, List.mem_append,
    List.mem_toFinset] at htouched
  exact lt_irrefl p (lower_of_split hsplit (htouched (.inl hvisited))).1

theorem portsMatch_iff (drv : Ethdev) (cfg : DpdkConfig) :
    Matches drv cfg ↔ Refused drv cfg ∨ Aborts drv cfg ∨ Fits drv cfg := by
  have hend := dpdkQueuesAndPortsInit_ended drv cfg
  unfold Matches
  generalize dpdkQueuesAndPortsInit drv cfg .initial = r at hend
  cases hend with
  | refused h =>
    refine iff_of_true ?_ (.inl h)
    constructor <;> simp [Ports.initial]
  | leaked haccepted h =>
    refine iff_of_false ?_ ?_
    · intro hundone
      have hfreed := hundone.freed
      rw [pooled, if_pos h.1] at hfreed
      simp [Ports.initial] at hfreed
    · rintro (hrefused | haborts | hfits)
      · exact haccepted hrefused
      · exact haborts.1 h
      · exact hfits.prepared.registered h
  | unprepared pre p stop post haccepted hregistered hports hpre hstop =>
    have hfirst := findSome?_first hpre hstop post
    rw [← hports] at hfirst
    cases stop with
    | aborted => exact iff_of_true trivial (.inr (.inl ⟨hregistered, hfirst⟩))
    | failed err =>
      refine iff_of_false (unprepared_touched hports) ?_
      rintro (hrefused | haborts | hfits)
      · exact haccepted hrefused
      · rw [haborts.2] at hfirst
        cases hfirst
      · have hnone := List.findSome?_eq_none_iff.mpr hfits.prepared.started
        rw [hnone] at hfirst
        cases hfirst
  | unbound pre p stop post hprepared hhairpin hports hpre hstop =>
    obtain rfl := bindStop_failed hstop
    rw [fits_iff hprepared, ← unbound_iff hprepared hhairpin hports hpre hstop, ← visited_highest]
    exact Iff.rfl
  | ready hprepared hbound =>
    rw [fits_iff hprepared, ← ready_iff hprepared hbound]
    constructor
    · rintro ⟨down, hdown, hbalanced⟩
      rw [fini_eq] at hdown
      cases hdown
      exact hbalanced
    · intro hbalanced
      exact ⟨_, fini_eq drv _ _, hbalanced⟩

/-- Three ports, two of them needed, and nothing fails: set-up starts ports 0 and 1, tear-down
closes 1 and 2. -/
def threePorts : Ethdev :=
  { isValidPort := fun port => decide (port < 3)
    valid_lt := fun _ h => (of_decide_eq_true h).trans (by decide)
    countAvail := 3
    countAvail_le := by decide
    lcoreCount := 4
    peers := fun _ _ => []
    fails := fun _ => false }

def twoNeeded : DpdkConfig :=
  { nbPorts := 2, nbQueues := 1, nbHairpinQ := 0, enableMbufMetadata := false, selfHairpin := false,
    rssSupport := false, lpbkSupport := false, isolatedMode := false, reserveMainThread := false }

theorem other_ports_closed : ¬ Matches threePorts twoNeeded := by
  have hup : ∃ cfg' up, dpdkQueuesAndPortsInit threePorts twoNeeded .initial = .ok cfg' up ∧
      up.started = {0, 1} ∧ up.stopped = [] := ⟨_, _, rfl, by decide, rfl⟩
  obtain ⟨cfg', up, hinit, hstarted, hstopped⟩ := hup
  intro h
  rw [Matches, hinit] at h
  obtain ⟨down, hdown, hbalanced⟩ := h
  have hnb : cfg'.nbPorts = 2 := by
    cases hinit
    rfl
  rw [dpdkQueuesAndPortsFini, Command.run_bind (disableHairpinQueues_eq ..), dpdkPortsFini_eq,
    visited, hnb] at hdown
  cases hdown
  have hclosed := hbalanced.stopped
  rw [hstarted] at hclosed
  simp only [close, unbind, hstopped] at hclosed
  revert hclosed
  decide

end DocaApps.Proofs.DpdkPorts
