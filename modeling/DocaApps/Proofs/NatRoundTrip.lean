import DocaApps.NatApp.Core
import DocaApps.Proofs.FlowPipe

namespace DocaApps.Proofs.NatRoundTrip
open Common.FlowPipe Lib.CountedLoop NatApp.Core Proofs.FlowPipe

/-- Every call of the library succeeds, and the processing of entries gets through all it
is asked for. -/
structure Works (lib : FlowLib) : Prop where
  pipeCreate : ∀ n, lib.pipeCreate n = none
  addEntry : ∀ n, lib.addEntry n = none
  entriesProcess : ∀ n asked, lib.entriesProcess n asked = ⟨none, asked, false⟩
  controlAddEntry : ∀ n, lib.controlAddEntry n = none

variable {lib : FlowLib} {natRules : List NatRuleMatch} {fuel : Nat} {portId : UInt16}

/-- The first rules are in, and the accounts of the batch are in order. -/
def Added (adds : NatRuleMatch → List (PipeName × Entry)) (natRules : List NatRuleMatch)
    (i : Nat) (s : Building) : Prop :=
  s.added = (natRules.take i).flatMap adds ∧ s.isFailure = false ∧ s.nbProcessed = 0

theorem processFull_works (h : Works lib) {s : Building} (hfailure : s.isFailure = false)
    (hprocessed : s.nbProcessed = 0) :
    ∃ s', processFull lib s = .ok s' ∧ s'.added = s.added ∧ s'.isFailure = false ∧
      s'.nbProcessed = 0 := by
  unfold processFull
  split
  · rename_i hfull
    simp only [entriesProcess, h.entriesProcess, hfailure, hprocessed, hfull, queueDepth]
    exact ⟨_, rfl, rfl, rfl, rfl⟩
  · exact ⟨s, rfl, rfl, hfailure, hprocessed⟩

theorem ruleAt_ofNat {i : Nat} (hi : i < natRules.length) (hlength : natRules.length < 2 ^ 16) :
    ruleAt natRules (BitVec.ofNat 16 i) = natRules[i] := by
  have hnat : (BitVec.ofNat 16 i).toNat = i :=
    (BitVec.toNat_ofNat i 16).trans (Nat.mod_eq_of_lt (by omega))
  rw [ruleAt, hnat, List.getD_eq_getElem _ _ hi]

theorem take_flatMap {adds : NatRuleMatch → List (PipeName × Entry)} {i : Nat}
    (hi : i < natRules.length) :
    (natRules.take (i + 1)).flatMap adds =
      (natRules.take i).flatMap adds ++ adds natRules[i] := by
  rw [List.take_succ_eq_append_getElem hi, List.flatMap_append, List.flatMap_singleton]

theorem addStaticRule_works (h : Works lib) (hlength : natRules.length < 2 ^ 16)
    (entry : NatRuleMatch → Entry) (i : Nat) (s : Building) (hi : i < natRules.length)
    (hs : Added (fun r => [(.static, entry r)]) natRules i s) :
    ∃ s', addStaticRule lib entry natRules (BitVec.ofNat 16 i) s = .ok s' ∧
      Added (fun r => [(.static, entry r)]) natRules (i + 1) s' := by
  obtain ⟨hadded, hfailure, hprocessed⟩ := hs
  unfold addStaticRule pipeAddEntry
  rw [h.addEntry, ruleAt_ofNat hi hlength]
  dsimp only
  obtain ⟨s', hok, hadded', hrest⟩ := processFull_works h
    (s := { s with
      adds := s.adds + 1
      added := s.added ++ [(.static, entry natRules[i])]
      nbEntries := s.nbEntries + 1 }) hfailure hprocessed
  refine ⟨s', hok, ?_, hrest⟩
  rw [hadded', take_flatMap hi, ← hadded]

theorem addPatRule_works (h : Works lib) (hlength : natRules.length < 2 ^ 16)
    (tcpEntry : NatRuleMatch → Entry) (toUdp : NatRuleMatch → Entry → Entry) (i : Nat)
    (s : Building) (hi : i < natRules.length)
    (hs : Added (fun r => [(.tcp, tcpEntry r), (.udp, toUdp r (tcpEntry r))]) natRules i s) :
    ∃ s', addPatRule lib tcpEntry toUdp natRules (BitVec.ofNat 16 i) s = .ok s' ∧
      Added (fun r => [(.tcp, tcpEntry r), (.udp, toUdp r (tcpEntry r))]) natRules (i + 1) s' := by
  obtain ⟨hadded, hfailure, hprocessed⟩ := hs
  unfold addPatRule pipeAddEntry
  simp only [h.addEntry, ruleAt_ofNat hi hlength]
  let r := natRules[i]
  obtain ⟨s', hok, hadded', hrest⟩ := processFull_works h
    (s := { s with
      adds := s.adds + 1 + 1
      added := s.added ++ [(.tcp, tcpEntry r)] ++ [(.udp, toUdp r (tcpEntry r))]
      nbEntries := s.nbEntries + 2 }) hfailure hprocessed
  refine ⟨s', hok, ?_, hrest⟩
  rw [hadded', take_flatMap hi, ← hadded, List.append_assoc]
  rfl

theorem processRest_works (h : Works lib) {s : Building} (hfailure : s.isFailure = false)
    (hfuel : 2 ≤ fuel) : ∃ r, processRest lib fuel s = some r := by
  obtain ⟨fuel, rfl⟩ := Nat.exists_eq_add_of_le' hfuel
  unfold processRest
  split
  · simp only [entriesProcess, h.entriesProcess, hfailure, Bool.or_self, Bool.false_eq_true,
      if_false]
    unfold processRest
    rw [if_neg (by dsimp only; omega)]
    exact ⟨_, rfl⟩
  · exact ⟨_, rfl⟩

theorem processRest_ok (h : Works lib) {s : Building} {r : Except DocaError Building}
    (hfailure : s.isFailure = false) (hr : processRest lib fuel s = some r) :
    ∃ s', r = .ok s' ∧ s'.added = s.added := by
  induction fuel generalizing s with
  | zero => contradiction
  | succ fuel ih =>
    unfold processRest at hr
    split at hr
    · simp only [entriesProcess, h.entriesProcess, hfailure, Bool.or_self, Bool.false_eq_true,
        if_false] at hr
      obtain ⟨s', heq, hsame⟩ := ih (s := _) rfl hr
      exact ⟨s', heq, hsame⟩
    · exact ⟨s, (Option.some.inj hr).symm, rfl⟩

section Rules

variable {add : BitVec 16 → Building → Except DocaError Building}
  {adds : NatRuleMatch → List (PipeName × Entry)}

theorem addRules_ok (h : Works lib) (hlength : natRules.length < 2 ^ 16)
    (hadd : ∀ i s, i < natRules.length → Added adds natRules i s →
      ∃ s', add (BitVec.ofNat 16 i) s = .ok s' ∧ Added adds natRules (i + 1) s')
    {s : Building} (hs : addRules lib add natRules.length fuel = some (.ok s)) :
    s.added = natRules.flatMap adds := by
  obtain ⟨s₁, hloop, hrest⟩ := andThen_eq_ok.mp hs
  obtain ⟨s₂, heq, hadded, hfailure, -⟩ :=
    loop_inv hlength hadd (Nat.zero_le _) ⟨rfl, rfl, rfl⟩ hloop
  obtain rfl := Except.ok.inj heq
  obtain ⟨s₃, heq', hsame⟩ := processRest_ok h hfailure hrest
  obtain rfl := Except.ok.inj heq'
  rw [hsame, hadded, List.take_length]

theorem addRules_finishes (h : Works lib) (hlength : natRules.length < 2 ^ 16)
    (hadd : ∀ i s, i < natRules.length → Added adds natRules i s →
      ∃ s', add (BitVec.ofNat 16 i) s = .ok s' ∧ Added adds natRules (i + 1) s')
    (hfuel : natRules.length + 2 ≤ fuel) :
    ∃ s, addRules lib add natRules.length fuel = some (.ok s) := by
  have hstart : Added adds natRules 0 .start := ⟨rfl, rfl, rfl⟩
  obtain ⟨r, hloop⟩ := loop_finishes hlength hadd (Nat.zero_le _) hstart
    (by omega : natRules.length - 0 < fuel)
  obtain ⟨s₁, rfl, -, hfailure, -⟩ := loop_inv hlength hadd (Nat.zero_le _) hstart hloop
  obtain ⟨r, hrest⟩ := processRest_works h hfailure (by omega : 2 ≤ fuel)
  obtain ⟨s₂, rfl, -⟩ := processRest_ok h hfailure hrest
  exact ⟨s₂, andThen_eq_ok.mpr ⟨s₁, hloop, hrest⟩⟩

/-- With as many rules as the counter has values the loop goes round. -/
theorem addRules_never_ok (hlength : 2 ^ 16 ≤ natRules.length) (s : Building) :
    addRules lib add natRules.length fuel ≠ some (.ok s) := by
  intro h
  obtain ⟨s₁, hloop, -⟩ := andThen_eq_ok.mp h
  exact loop_never_ok hlength _ _ hloop

end Rules

/-- An address, with a port in the mode that translates ports. -/
abbrev Endpoint := BitVec 32 × Option (BitVec 16)

/-- The port that an `int` of a rule stands for. -/
def port16 (port : Int) : BitVec 16 := BitVec.ofInt 16 port

def endpoint (mode : NatMode) (ip : BitVec 32) (port : BitVec 16) : Endpoint :=
  match mode with
  | .static => (ip, none)
  | .pat => (ip, some port)

def localEndpoint (mode : NatMode) (r : NatRuleMatch) : Endpoint :=
  endpoint mode r.localIp (rteCpuToBe16 (port16 r.localPort))

def globalEndpoint (mode : NatMode) (r : NatRuleMatch) : Endpoint :=
  endpoint mode r.globalIp (rteCpuToBe16 (port16 r.globalPort))

/-- The packets that the mode is for. -/
def Translatable (mode : NatMode) (p : Packet) : Prop :=
  p.l3 = .ipv4 ∧ (mode = .pat → p.l4 = .tcp ∨ p.l4 = .udp)

def source (mode : NatMode) (p : Packet) : Endpoint := endpoint mode p.srcIp p.srcPort

def destination (mode : NatMode) (p : Packet) : Endpoint := endpoint mode p.dstIp p.dstPort

def setSource (p : Packet) (e : Endpoint) : Packet :=
  { p with srcIp := e.1, srcPort := e.2.getD p.srcPort }

def setDestination (p : Packet) (e : Endpoint) : Packet :=
  { p with dstIp := e.1, dstPort := e.2.getD p.dstPort }

/-- Packets from a local endpoint leave from the global one of its rule, packets to a global
endpoint go on to the local one, and all others are dropped, on both ports. -/
def RoundTrips (mode : NatMode) (lanPort wanPort : UInt16) (natRules : List NatRuleMatch)
    (lan wan : NatPort) : Prop :=
  ((∀ r ∈ natRules, ∀ p, Translatable mode p → source mode p = localEndpoint mode r →
      Only (lan.process p) (.port (lanPort ^^^ 1), setSource p (globalEndpoint mode r))) ∧
    ∀ p, (¬ Translatable mode p ∨ ∀ r ∈ natRules, source mode p ≠ localEndpoint mode r) →
      Only (lan.process p) (.drop, p)) ∧
  (∀ r ∈ natRules, ∀ p, Translatable mode p → destination mode p = globalEndpoint mode r →
      Only (wan.process p) (.port (wanPort ^^^ 1), setDestination p (localEndpoint mode r))) ∧
    ∀ p, (¬ Translatable mode p ∨ ∀ r ∈ natRules, destination mode p ≠ globalEndpoint mode r) →
      Only (wan.process p) (.drop, p)

theorem entriesOf_static {s : Building} {entry : NatRuleMatch → Entry}
    (h : s.added = natRules.flatMap fun r => [(.static, entry r)]) :
    s.entriesOf .static = natRules.map entry := by
  rw [Building.entriesOf, h]
  induction natRules generalizing s with
  | nil => rfl
  | cons r rs ih =>
    rw [List.flatMap_cons, List.filter_append, List.map_append, ih (s := { s with added := _ }) rfl]
    rfl

theorem entriesOf_pat {s : Building} {tcpEntry udpEntry : NatRuleMatch → Entry}
    (h : s.added = natRules.flatMap fun r => [(.tcp, tcpEntry r), (.udp, udpEntry r)]) :
    s.entriesOf .tcp = natRules.map tcpEntry ∧ s.entriesOf .udp = natRules.map udpEntry := by
  rw [Building.entriesOf, Building.entriesOf, h]
  induction natRules generalizing s with
  | nil => exact ⟨rfl, rfl⟩
  | cons r rs ih =>
    obtain ⟨htcp, hudp⟩ := ih (s := { s with added := _ }) rfl
    simp only [List.flatMap_cons, List.filter_append, List.map_append, htcp, hudp]
    exact ⟨rfl, rfl⟩

/-- The pipe that a template and the entries of the rules make. -/
def rulePipe (template : Entry) (portId : UInt16) (entries : List Entry) : Pipe :=
  ⟨template.pattern, template.actions, .port (portId ^^^ 1), .drop, entries⟩

section Built

variable {pattern : Match} {actions : Actions} {entry : NatRuleMatch → Entry}
  {template : Entry} {toUdpTemplate : Entry → Entry} {tcpEntry : NatRuleMatch → Entry}
  {toUdp : NatRuleMatch → Entry → Entry} {port : NatPort}

theorem buildStaticPipe_iff (h : Works lib) :
    (∃ fuel, buildStaticPipe lib pattern actions entry portId natRules fuel = some (.ok port)) ↔
      natRules.length < 2 ^ 16 ∧
        port = .static (rulePipe ⟨pattern, actions⟩ portId (natRules.map entry)) := by
  have hbuild : ∀ fuel, buildStaticPipe lib pattern actions entry portId natRules fuel =
      (addRules lib (addStaticRule lib entry natRules) natRules.length fuel).andThen fun s =>
        some (.ok (.static (rulePipe ⟨pattern, actions⟩ portId (s.entriesOf .static)))) := by
    intro fuel
    rw [buildStaticPipe, h.pipeCreate]
    rfl
  simp only [hbuild, andThen_eq_ok]
  by_cases hlength : natRules.length < 2 ^ 16
  · have hadd := addStaticRule_works h hlength entry
    constructor
    · rintro ⟨fuel, s, hs, hport⟩
      rw [← Except.ok.inj (Option.some.inj hport), entriesOf_static (addRules_ok h hlength hadd hs)]
      exact ⟨hlength, rfl⟩
    · rintro ⟨-, rfl⟩
      obtain ⟨s, hs⟩ := addRules_finishes h hlength hadd le_rfl
      refine ⟨_, s, hs, ?_⟩
      rw [entriesOf_static (addRules_ok h hlength hadd hs)]
  · constructor
    · rintro ⟨fuel, s, hs, -⟩
      exact absurd hs (addRules_never_ok (by omega) s)
    · exact fun hport => absurd hport.1 hlength

def controlEntries : List (Match × PipeName) :=
  [(⟨.ipv4, .udp, .zero⟩, .udp), (⟨.ipv4, .tcp, .zero⟩, .tcp)]

theorem buildPatPipe_iff (h : Works lib) :
    (∃ fuel, buildPatPipe lib template toUdpTemplate tcpEntry toUdp portId natRules fuel =
      some (.ok port)) ↔
      natRules.length < 2 ^ 16 ∧ port = .pat controlEntries
        (rulePipe template portId (natRules.map tcpEntry))
        (rulePipe (toUdpTemplate template) portId
          (natRules.map fun r => toUdp r (tcpEntry r))) := by
  have hbuild : ∀ fuel,
      buildPatPipe lib template toUdpTemplate tcpEntry toUdp portId natRules fuel =
        (addRules lib (addPatRule lib tcpEntry toUdp natRules) natRules.length fuel).andThen
          fun s => some (.ok (.pat controlEntries
            (rulePipe template portId (s.entriesOf .tcp))
            (rulePipe (toUdpTemplate template) portId (s.entriesOf .udp)))) := by
    intro fuel
    simp only [buildPatPipe, addControlPipeEntries, h.pipeCreate, h.controlAddEntry]
    rfl
  simp only [hbuild, andThen_eq_ok]
  by_cases hlength : natRules.length < 2 ^ 16
  · have hadd := addPatRule_works h hlength tcpEntry toUdp
    constructor
    · rintro ⟨fuel, s, hs, hport⟩
      obtain ⟨htcp, hudp⟩ := entriesOf_pat (addRules_ok h hlength hadd hs)
      rw [← Except.ok.inj (Option.some.inj hport), htcp, hudp]
      exact ⟨hlength, rfl⟩
    · rintro ⟨-, rfl⟩
      obtain ⟨s, hs⟩ := addRules_finishes h hlength hadd le_rfl
      obtain ⟨htcp, hudp⟩ := entriesOf_pat (addRules_ok h hlength hadd hs)
      refine ⟨_, s, hs, ?_⟩
      rw [htcp, hudp]
  · constructor
    · rintro ⟨fuel, s, hs, -⟩
      exact absurd hs (addRules_never_ok (by omega) s)
    · exact fun hport => absurd hport.1 hlength

end Built

section Tables

variable {E : Type} {ok : Packet → Prop} {key : Packet → E} {put : Packet → E → Packet}

theorem rulePipe_table {template : Entry} {entry : NatRuleMatch → Entry}
    {pair : NatRuleMatch → E × E}
    (haccepts : ∀ r p, template.pattern.accepts (entry r).pattern p = true ↔
      ok p ∧ key p = (pair r).1)
    (happly : ∀ r p, template.actions.apply (entry r).actions p = put p (pair r).2) :
    IsTable (rulePipe template portId (natRules.map entry)) ok key put (natRules.map pair) :=
  isTable_of_map rfl rfl (fun h => nomatch h) haccepts happly

def IsIpv4 (p : Packet) : Prop := p.l3 = .ipv4

def IsL4 (l4 : L4Meta) (p : Packet) : Prop := p.l3 = .ipv4 ∧ p.l4 = l4

instance (l4 : L4Meta) (p : Packet) : Decidable (IsL4 l4 p) :=
  inferInstanceAs (Decidable (_ ∧ _))

def setSrcIp (p : Packet) (ip : BitVec 32) : Packet := { p with srcIp := ip }

def setDstIp (p : Packet) (ip : BitVec 32) : Packet := { p with dstIp := ip }

def src (p : Packet) : BitVec 32 × BitVec 16 := (p.srcIp, p.srcPort)

def dst (p : Packet) : BitVec 32 × BitVec 16 := (p.dstIp, p.dstPort)

def setSrc (p : Packet) (e : BitVec 32 × BitVec 16) : Packet :=
  { p with srcIp := e.1, srcPort := e.2 }

def setDst (p : Packet) (e : BitVec 32 × BitVec 16) : Packet :=
  { p with dstIp := e.1, dstPort := e.2 }

def localPair (r : NatRuleMatch) : BitVec 32 × BitVec 16 := (r.localIp, bePort r.localPort)

def globalPair (r : NatRuleMatch) : BitVec 32 × BitVec 16 := (r.globalIp, bePort r.globalPort)

def staticLocalTemplate : Entry where
  pattern := ⟨.ipv4, .none, { HeaderFormat.zero with srcIp := changeable32, l3Type := .ip4 }⟩
  actions := ⟨{ HeaderFormat.zero with l3Type := .ip4, srcIp := changeable32 }⟩

def staticGlobalTemplate : Entry where
  pattern := ⟨.ipv4, .none, { HeaderFormat.zero with dstIp := changeable32, l3Type := .ip4 }⟩
  actions := ⟨{ HeaderFormat.zero with l3Type := .ip4, dstIp := changeable32 }⟩

theorem static_local_table :
    IsTable (rulePipe staticLocalTemplate portId (natRules.map staticLocalEntry)) IsIpv4
      Packet.srcIp setSrcIp (natRules.map fun r => (r.localIp, r.globalIp)) := by
  apply rulePipe_table
  · intro r p
    simp [Match.accepts, staticLocalTemplate, staticLocalEntry, HeaderFormat.zero, Match.zero,
      L3Meta.accepts, L4Meta.accepts, L3Type.accepts, L4TypeExt.accepts, changeable32, IsIpv4]
  · intro r p
    simp [Actions.apply, staticLocalTemplate, staticLocalEntry, HeaderFormat.zero, changeable32,
      setSrcIp]

theorem static_global_table :
    IsTable (rulePipe staticGlobalTemplate portId (natRules.map staticGlobalEntry)) IsIpv4
      Packet.dstIp setDstIp (natRules.map fun r => (r.globalIp, r.localIp)) := by
  apply rulePipe_table
  · intro r p
    simp [Match.accepts, staticGlobalTemplate, staticGlobalEntry, HeaderFormat.zero, Match.zero,
      L3Meta.accepts, L4Meta.accepts, L3Type.accepts, L4TypeExt.accepts, changeable32, IsIpv4]
  · intro r p
    simp [Actions.apply, staticGlobalTemplate, staticGlobalEntry, HeaderFormat.zero, changeable32,
      setDstIp]

theorem pat_local_tcp_table :
    IsTable (rulePipe patLocalTemplate portId (natRules.map patLocalTcpEntry)) (IsL4 .tcp)
      src setSrc (natRules.map fun r => (localPair r, globalPair r)) := by
  apply rulePipe_table
  · intro r p
    simp [Match.accepts, patLocalTemplate, patLocalTcpEntry, HeaderFormat.zero, Match.zero,
      HeaderFormat.setTcpSrcPort, L3Meta.accepts, L4Meta.accepts, L3Type.accepts,
      L4TypeExt.accepts, changeable32, changeable16, IsL4, src, localPair, and_assoc]
  · intro r p
    simp [Actions.apply, patLocalTemplate, patLocalTcpEntry, HeaderFormat.zero,
      HeaderFormat.setTcpSrcPort, changeable32, changeable16, setSrc, globalPair]

theorem pat_local_udp_table :
    IsTable (rulePipe (patLocalToUdpTemplate patLocalTemplate) portId
      (natRules.map fun r => patLocalToUdp r (patLocalTcpEntry r))) (IsL4 .udp)
      src setSrc (natRules.map fun r => (localPair r, globalPair r)) := by
  apply rulePipe_table
  · intro r p
    simp [Match.accepts, patLocalToUdpTemplate, patLocalTemplate, patLocalToUdp, edit,
      patLocalTcpEntry, HeaderFormat.zero, Match.zero, HeaderFormat.setTcpSrcPort,
      HeaderFormat.setUdpSrcPort, L3Meta.accepts, L4Meta.accepts, L3Type.accepts,
      L4TypeExt.accepts, changeable32, changeable16, IsL4, src, localPair, and_assoc]
  · intro r p
    simp [Actions.apply, patLocalToUdpTemplate, patLocalTemplate, patLocalToUdp, edit,
      patLocalTcpEntry, HeaderFormat.zero, HeaderFormat.setTcpSrcPort,
      HeaderFormat.setUdpSrcPort, changeable32, changeable16, setSrc, globalPair]

theorem pat_global_tcp_table :
    IsTable (rulePipe patGlobalTemplate portId (natRules.map patGlobalTcpEntry)) (IsL4 .tcp)
      dst setDst (natRules.map fun r => (globalPair r, localPair r)) := by
  apply rulePipe_table
  · intro r p
    simp [Match.accepts, patGlobalTemplate, patGlobalTcpEntry, HeaderFormat.zero, Match.zero,
      HeaderFormat.setTcpDstPort, L3Meta.accepts, L4Meta.accepts, L3Type.accepts,
      L4TypeExt.accepts, changeable32, changeable16, IsL4, dst, globalPair, and_assoc]
  · intro r p
    simp [Actions.apply, patGlobalTemplate, patGlobalTcpEntry, HeaderFormat.zero,
      HeaderFormat.setTcpDstPort, changeable32, changeable16, setDst, localPair]

/-- The UDP entries of the WAN port have the two ports of a rule exchanged. -/
theorem pat_global_udp_table :
    IsTable (rulePipe (patGlobalToUdpTemplate patGlobalTemplate) portId
      (natRules.map fun r => patGlobalToUdp r (patGlobalTcpEntry r))) (IsL4 .udp)
      dst setDst (natRules.map fun r =>
        ((r.globalIp, bePort r.localPort), (r.localIp, bePort r.globalPort))) := by
  apply rulePipe_table
  · intro r p
    simp [Match.accepts, patGlobalToUdpTemplate, patGlobalTemplate, patGlobalToUdp, edit,
      patGlobalTcpEntry, HeaderFormat.zero, Match.zero, HeaderFormat.setTcpDstPort,
      HeaderFormat.setUdpDstPort, L3Meta.accepts, L4Meta.accepts, L3Type.accepts,
      L4TypeExt.accepts, changeable32, changeable16, IsL4, dst, and_assoc]
  · intro r p
    simp [Actions.apply, patGlobalToUdpTemplate, patGlobalTemplate, patGlobalToUdp, edit,
      patGlobalTcpEntry, HeaderFormat.zero, HeaderFormat.setTcpDstPort,
      HeaderFormat.setUdpDstPort, changeable32, changeable16, setDst]

end Tables

section Pat

variable {tcpPipe udpPipe : Pipe} {E : Type} {key : Packet → E} {put : Packet → E → Packet}
  {wanted tcpInstalled udpInstalled : List (E × E)} {fwd : Fwd}

theorem pat_process (p : Packet) :
    (NatPort.pat controlEntries tcpPipe udpPipe).process p =
      if IsL4 .tcp p then tcpPipe.process p
      else if IsL4 .udp p then udpPipe.process p
      else [(.drop, p)] := by
  obtain ⟨l3, l4, _, _, _, _⟩ := p
  cases l3 <;> cases l4 <;>
    simp [NatPort.process, controlEntries, Match.accepts, HeaderFormat.zero, L3Meta.accepts,
      L4Meta.accepts, L3Type.accepts, L4TypeExt.accepts, IsL4]

theorem translatable_pat (p : Packet) :
    Translatable .pat p ↔ IsL4 .tcp p ∨ IsL4 .udp p := by
  simp only [Translatable, IsL4, true_implies]
  tauto

/-- The port translates when each of its two pipes does. -/
theorem pat_translates_iff (htcp : IsTable tcpPipe (IsL4 .tcp) key put tcpInstalled)
    (hudp : IsTable udpPipe (IsL4 .udp) key put udpInstalled) :
    Translates (NatPort.pat controlEntries tcpPipe udpPipe).process fwd (Translatable .pat) key
      put wanted ↔
      Translates tcpPipe.process fwd (IsL4 .tcp) key put wanted ∧
        Translates udpPipe.process fwd (IsL4 .udp) key put wanted := by
  have hnot : ∀ p, IsL4 .udp p → ¬ IsL4 .tcp p := by
    rintro p ⟨-, hudp⟩ ⟨-, htcp⟩
    rw [hudp] at htcp
    contradiction
  have htcpProcess : ∀ p, IsL4 .tcp p →
      (NatPort.pat controlEntries tcpPipe udpPipe).process p = tcpPipe.process p := by
    intro p h
    rw [pat_process, if_pos h]
  have hudpProcess : ∀ p, IsL4 .udp p →
      (NatPort.pat controlEntries tcpPipe udpPipe).process p = udpPipe.process p := by
    intro p h
    rw [pat_process, if_neg (hnot p h), if_pos h]
  constructor
  · rintro ⟨hgood, hbad⟩
    refine ⟨⟨?_, ?_⟩, ?_, ?_⟩
    · intro x hx p hp hkey
      rw [← htcpProcess p hp]
      exact hgood x hx p ((translatable_pat p).mpr (.inl hp)) hkey
    · intro p hp
      by_cases h : IsL4 .tcp p
      · rw [← htcpProcess p h]
        exact hbad p (.inr (hp.resolve_left (not_not_intro h)))
      · exact htcp.only_drop_iff.mpr (.inl h)
    · intro x hx p hp hkey
      rw [← hudpProcess p hp]
      exact hgood x hx p ((translatable_pat p).mpr (.inr hp)) hkey
    · intro p hp
      by_cases h : IsL4 .udp p
      · rw [← hudpProcess p h]
        exact hbad p (.inr (hp.resolve_left (not_not_intro h)))
      · exact hudp.only_drop_iff.mpr (.inl h)
  · rintro ⟨⟨htcpGood, htcpBad⟩, hudpGood, hudpBad⟩
    refine ⟨?_, ?_⟩
    · intro x hx p hp hkey
      rcases (translatable_pat p).mp hp with hp | hp
      · rw [htcpProcess p hp]
        exact htcpGood x hx p hp hkey
      · rw [hudpProcess p hp]
        exact hudpGood x hx p hp hkey
    · intro p hp
      by_cases h : IsL4 .tcp p
      · rw [htcpProcess p h]
        exact htcpBad p (hp.imp_left fun hn _ => hn ((translatable_pat p).mpr (.inl h)))
      · by_cases h' : IsL4 .udp p
        · rw [hudpProcess p h']
          exact hudpBad p (hp.imp_left fun hn _ => hn ((translatable_pat p).mpr (.inr h')))
        · rw [pat_process, if_neg h, if_neg h']
          exact ⟨List.cons_ne_nil _ _, fun o ho => List.mem_singleton.mp ho⟩

end Pat

theorem translates_map {E : Type} {ok : Packet → Prop} {key : Packet → E}
    {put : Packet → E → Packet} {process : Packet → List (Fwd × Packet)} {fwd : Fwd}
    (pair : NatRuleMatch → E × E) :
    Translates process fwd ok key put (natRules.map pair) ↔
      (∀ r ∈ natRules, ∀ p, ok p → key p = (pair r).1 →
        Only (process p) (fwd, put p (pair r).2)) ∧
      ∀ p, (¬ ok p ∨ ∀ r ∈ natRules, key p ≠ (pair r).1) → Only (process p) (.drop, p) := by
  simp only [Translates, List.forall_mem_map]

theorem roundTrips_static_iff {lanPort wanPort : UInt16} {lan wan : NatPort} :
    RoundTrips .static lanPort wanPort natRules lan wan ↔
      Translates lan.process (.port (lanPort ^^^ 1)) IsIpv4 Packet.srcIp setSrcIp
        (natRules.map fun r => (r.localIp, r.globalIp)) ∧
      Translates wan.process (.port (wanPort ^^^ 1)) IsIpv4 Packet.dstIp setDstIp
        (natRules.map fun r => (r.globalIp, r.localIp)) := by
  have hok : ∀ p, Translatable .static p ↔ IsIpv4 p := by
    intro p
    simp [Translatable, IsIpv4]
  simp only [translates_map, RoundTrips, hok, source, destination, endpoint, localEndpoint,
    globalEndpoint, setSource, setDestination, setSrcIp, setDstIp, Prod.mk.injEq, and_true, ne_eq,
    Option.getD_none]

theorem roundTrips_pat_iff {lanPort wanPort : UInt16} {lan wan : NatPort} :
    RoundTrips .pat lanPort wanPort natRules lan wan ↔
      Translates lan.process (.port (lanPort ^^^ 1)) (Translatable .pat) src setSrc
        (natRules.map fun r => (localPair r, globalPair r)) ∧
      Translates wan.process (.port (wanPort ^^^ 1)) (Translatable .pat) dst setDst
        (natRules.map fun r => (globalPair r, localPair r)) := by
  simp only [translates_map, RoundTrips, source, destination, endpoint, localEndpoint,
    globalEndpoint, setSource, setDestination, setSrc, setDst, src, dst, localPair, globalPair,
    bePort, port16, Prod.mk.injEq, Option.some.injEq, ne_eq, Option.getD_some]

/-- The list has every rule of the list with its two ports exchanged. -/
def PortsExchange (natRules : List NatRuleMatch) : Prop :=
  ∀ r ∈ natRules, ∃ r' ∈ natRules, r'.localIp = r.localIp ∧ r'.globalIp = r.globalIp ∧
    port16 r'.localPort = port16 r.globalPort ∧ port16 r'.globalPort = port16 r.localPort

theorem bePort_inj {a b : Int} : bePort a = bePort b ↔ port16 a = port16 b := rteCpuToBe16_inj

/-- The UDP table of the WAN port has the wanted pairs just when exchanging ports leads
from rule to rule. -/
theorem exchanged_iff :
    (∀ x, x ∈ natRules.map (fun r =>
        ((r.globalIp, bePort r.localPort), (r.localIp, bePort r.globalPort))) ↔
      x ∈ natRules.map fun r => (globalPair r, localPair r)) ↔ PortsExchange natRules := by
  constructor
  · intro h r hr
    obtain ⟨r', hr', heq⟩ := List.mem_map.mp ((h _).mpr (List.mem_map_of_mem hr))
    simp only [globalPair, localPair, Prod.mk.injEq, bePort_inj] at heq
    obtain ⟨⟨hgip, hport⟩, hlip, hport'⟩ := heq
    exact ⟨r', hr', hlip, hgip, hport, hport'⟩
  · intro h x
    constructor
    · intro hx
      obtain ⟨r, hr, rfl⟩ := List.mem_map.mp hx
      obtain ⟨r', hr', hlip, hgip, hport, hport'⟩ := h r hr
      refine List.mem_map.mpr ⟨r', hr', ?_⟩
      simp only [globalPair, localPair, hlip, hgip, bePort_inj.mpr hport, bePort_inj.mpr hport']
    · intro hx
      obtain ⟨r, hr, rfl⟩ := List.mem_map.mp hx
      obtain ⟨r', hr', hlip, hgip, hport, hport'⟩ := h r hr
      refine List.mem_map.mpr ⟨r', hr', ?_⟩
      simp only [globalPair, localPair, hlip, hgip, bePort_inj.mpr hport, bePort_inj.mpr hport']

section Law

variable {lanLib wanLib : FlowLib} {lanPort wanPort : UInt16}

/-- The pipes of both ports get built, and they translate there and back. -/
def BuiltAndRoundTrips (lanLib wanLib : FlowLib) (mode : NatMode) (lanPort wanPort : UInt16)
    (natRules : List NatRuleMatch) : Prop :=
  ∃ lan wan, (∃ fuel, buildLocalPipe lanLib mode lanPort natRules fuel = some (.ok lan)) ∧
    (∃ fuel, buildGlobalPipe wanLib mode wanPort natRules fuel = some (.ok wan)) ∧
    RoundTrips mode lanPort wanPort natRules lan wan

theorem static_round_trip (hlan : Works lanLib) (hwan : Works wanLib)
    (hlocal : (natRules.map (localEndpoint .static)).Nodup)
    (hglobal : (natRules.map (globalEndpoint .static)).Nodup) :
    BuiltAndRoundTrips lanLib wanLib .static lanPort wanPort natRules ↔
      natRules.length < 65536 := by
  have hlanTable := @static_local_table natRules lanPort
  have hwanTable := @static_global_table natRules wanPort
  have hlocalIps : (natRules.map NatRuleMatch.localIp).Nodup := by
    refine List.Nodup.of_map (fun ip => (ip, (none : Option (BitVec 16)))) ?_
    rw [List.map_map]
    exact hlocal
  have hglobalIps : (natRules.map NatRuleMatch.globalIp).Nodup := by
    refine List.Nodup.of_map (fun ip => (ip, (none : Option (BitVec 16)))) ?_
    rw [List.map_map]
    exact hglobal
  have hlanGood := (translates_iff hlanTable (fun a => ⟨⟨.ipv4, .none, a, 0, 0, 0⟩, rfl, rfl⟩)
    (fun p b b' h => congrArg Packet.srcIp h) (by rw [List.map_map]; exact hlocalIps)).mpr
      fun _ => Iff.rfl
  have hwanGood := (translates_iff hwanTable (fun a => ⟨⟨.ipv4, .none, 0, a, 0, 0⟩, rfl, rfl⟩)
    (fun p b b' h => congrArg Packet.dstIp h) (by rw [List.map_map]; exact hglobalIps)).mpr
      fun _ => Iff.rfl
  unfold BuiltAndRoundTrips buildLocalPipe buildGlobalPipe buildStaticLocalPipe
    buildStaticGlobalPipe
  simp only [buildStaticPipe_iff hlan, buildStaticPipe_iff hwan, roundTrips_static_iff]
  constructor
  · rintro ⟨_, _, ⟨hlength, -⟩, -⟩
    exact hlength
  · intro hlength
    exact ⟨_, _, ⟨hlength, rfl⟩, ⟨hlength, rfl⟩, hlanGood, hwanGood⟩

theorem pat_round_trip (hlan : Works lanLib) (hwan : Works wanLib)
    (hlocal : (natRules.map (localEndpoint .pat)).Nodup)
    (hglobal : (natRules.map (globalEndpoint .pat)).Nodup) :
    BuiltAndRoundTrips lanLib wanLib .pat lanPort wanPort natRules ↔
      natRules.length < 65536 ∧ PortsExchange natRules := by
  have hlocalPairs : (natRules.map localPair).Nodup := by
    refine List.Nodup.of_map (fun e => (e.1, some e.2)) ?_
    rw [List.map_map]
    exact hlocal
  have hglobalPairs : (natRules.map globalPair).Nodup := by
    refine List.Nodup.of_map (fun e => (e.1, some e.2)) ?_
    rw [List.map_map]
    exact hglobal
  have hsrc : ∀ l4 a, ∃ p, IsL4 l4 p ∧ src p = a := fun l4 a =>
    ⟨⟨.ipv4, l4, a.1, 0, a.2, 0⟩, ⟨rfl, rfl⟩, rfl⟩
  have hdst : ∀ l4 a, ∃ p, IsL4 l4 p ∧ dst p = a := fun l4 a =>
    ⟨⟨.ipv4, l4, 0, a.1, 0, a.2⟩, ⟨rfl, rfl⟩, rfl⟩
  have hsetSrc : ∀ p b b', setSrc p b = setSrc p b' → b = b' := fun p b b' h =>
    Prod.ext (congrArg Packet.srcIp h) (congrArg Packet.srcPort h)
  have hsetDst : ∀ p b b', setDst p b = setDst p b' → b = b' := fun p b b' h =>
    Prod.ext (congrArg Packet.dstIp h) (congrArg Packet.dstPort h)
  have hlanKeys : ((natRules.map fun r => (localPair r, globalPair r)).map Prod.fst).Nodup := by
    rw [List.map_map]
    exact hlocalPairs
  have hwanKeys : ((natRules.map fun r => (globalPair r, localPair r)).map Prod.fst).Nodup := by
    rw [List.map_map]
    exact hglobalPairs
  have hlanTcp := @pat_local_tcp_table natRules lanPort
  have hlanUdp := @pat_local_udp_table natRules lanPort
  have hwanTcp := @pat_global_tcp_table natRules wanPort
  have hwanUdp := @pat_global_udp_table natRules wanPort
  have hlanTcpGood :=
    (translates_iff hlanTcp (hsrc .tcp) hsetSrc hlanKeys).mpr fun _ => Iff.rfl
  have hlanUdpGood :=
    (translates_iff hlanUdp (hsrc .udp) hsetSrc hlanKeys).mpr fun _ => Iff.rfl
  have hwanTcpGood :=
    (translates_iff hwanTcp (hdst .tcp) hsetDst hwanKeys).mpr fun _ => Iff.rfl
  have hwanUdpIff := (translates_iff hwanUdp (hdst .udp) hsetDst hwanKeys).trans exchanged_iff
  unfold BuiltAndRoundTrips buildLocalPipe buildGlobalPipe buildPatLocalPipe buildPatGlobalPipe
  simp only [buildPatPipe_iff hlan, buildPatPipe_iff hwan, roundTrips_pat_iff]
  constructor
  · rintro ⟨_, _, ⟨hlength, rfl⟩, ⟨-, rfl⟩, -, hwanPort⟩
    exact ⟨hlength, hwanUdpIff.mp ((pat_translates_iff hwanTcp hwanUdp).mp hwanPort).2⟩
  · rintro ⟨hlength, hexchange⟩
    exact ⟨_, _, ⟨hlength, rfl⟩, ⟨hlength, rfl⟩,
      (pat_translates_iff hlanTcp hlanUdp).mpr ⟨hlanTcpGood, hlanUdpGood⟩,
      (pat_translates_iff hwanTcp hwanUdp).mpr ⟨hwanTcpGood, hwanUdpIff.mpr hexchange⟩⟩

/-- With distinct endpoints the two ports translate there and back just when the counter of
the rules does not go round and, with ports, every rule is there with its ports exchanged. -/
theorem nat_round_trip_iff (hlan : Works lanLib) (hwan : Works wanLib) (mode : NatMode)
    (hlocal : (natRules.map (localEndpoint mode)).Nodup)
    (hglobal : (natRules.map (globalEndpoint mode)).Nodup) :
    BuiltAndRoundTrips lanLib wanLib mode lanPort wanPort natRules ↔
      natRules.length < 65536 ∧ (mode = .pat → PortsExchange natRules) := by
  cases mode with
  | static =>
    rw [static_round_trip hlan hwan hlocal hglobal]
    simp only [reduceCtorEq, false_implies, and_true]
  | pat =>
    rw [pat_round_trip hlan hwan hlocal hglobal]
    simp only [true_implies]

/-- A library whose calls succeed. -/
def workingLib : FlowLib where
  pipeCreate _ := none
  addEntry _ := none
  entriesProcess _ asked := ⟨none, asked, false⟩
  controlAddEntry _ := none

theorem workingLib_works : Works workingLib :=
  ⟨fun _ => rfl, fun _ => rfl, fun _ _ => rfl, fun _ => rfl⟩

/-- A web server at 192.168.0.1, seen from outside at 10.0.0.1. -/
def webRule (localPort globalPort : Int) : NatRuleMatch :=
  ⟨0x0100a8c0, localPort, 0x0100000a, globalPort⟩

theorem nat_round_trip_web :
    BuiltAndRoundTrips workingLib workingLib .pat 0 1 [webRule 80 8080, webRule 8080 80] ∧
      BuiltAndRoundTrips workingLib workingLib .static 0 1 [webRule 80 8080] := by
  constructor
  · refine (nat_round_trip_iff workingLib_works workingLib_works .pat
      (by decide +kernel) (by decide +kernel)).mpr ⟨by decide, fun _ => ?_⟩
    unfold PortsExchange
    decide +kernel
  · exact (nat_round_trip_iff workingLib_works workingLib_works .static
      (by decide +kernel) (by decide +kernel)).mpr ⟨by decide, fun h => nomatch h⟩

/-- A reply over UDP to the outside port of the server. -/
def udpReply : Packet := ⟨.ipv4, .udp, 0x08080808, 0x0100000a, bePort 5353, bePort 8080⟩

/-- The reply to a rule that moves the port is dropped. -/
theorem udp_reply_dropped :
    destination .pat udpReply = globalEndpoint .pat (webRule 80 8080) ∧
      (∃ wan, buildGlobalPipe workingLib .pat 1 [webRule 80 8080] 3 = some (.ok wan) ∧
        wan.process udpReply = [(.drop, udpReply)]) ∧
      ¬ BuiltAndRoundTrips workingLib workingLib .pat 0 1 [webRule 80 8080] := by
  refine ⟨by decide +kernel, ⟨_, rfl, by decide +kernel⟩, ?_⟩
  rw [pat_round_trip workingLib_works workingLib_works (by decide +kernel) (by decide +kernel)]
  unfold PortsExchange
  decide +kernel

end Law

end DocaApps.Proofs.NatRoundTrip
