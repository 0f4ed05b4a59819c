import DocaApps.Firewall.Core
import DocaApps.Lib.Fallible
import DocaApps.Proofs.FlowPipe
import DocaApps.Proofs.FlowParser

namespace DocaApps.Proofs.FirewallDrop
open Common.FlowPipe Common.FlowParser Firewall.Core Lib.Fallible Proofs.FlowPipe

variable {replies : Replies} {s s' : Server} {rules : List RuleMatch} {m : Match}

theorem call_ok (h : call replies s = .ok s') : s'.pipes = s.pipes := by
  unfold call at h
  split at h
  · contradiction
  · rw [← Except.ok.inj h]

theorem pipeCreate_ok {pipe : Pipe} {id : Nat} (h : pipeCreate replies pipe s = .ok (id, s')) :
    id = s.pipes.length ∧ s'.pipes = s.pipes ++ [pipe] := by
  obtain ⟨s₁, hcall, hpure⟩ := bind_eq_ok.mp h
  obtain ⟨rfl, rfl⟩ := Prod.mk.inj (pure_eq_ok.mp hpure)
  rw [call_ok hcall]
  exact ⟨rfl, rfl⟩

theorem pipeAddEntry_ok {id : Nat} {e : Entry} (h : pipeAddEntry replies id e s = .ok s') :
    s'.pipes = s.pipes.modify id fun pipe => { pipe with entries := pipe.entries ++ [e] } := by
  obtain ⟨s₁, hcall, hpure⟩ := bind_eq_ok.mp h
  rw [← pure_eq_ok.mp hpure, call_ok hcall]

theorem awaitEntry_ok (h : awaitEntry replies s = .ok s') : s'.pipes = s.pipes := by
  obtain ⟨s₁, hcall, hrest⟩ := bind_eq_ok.mp h
  cases hstatus : call replies s₁ with
  | error err =>
    rw [hstatus] at hrest
    contradiction
  | ok s₂ =>
    rw [hstatus] at hrest
    rw [← pure_eq_ok.mp hrest, call_ok hstatus, call_ok hcall]

/-- The entry of a rule. -/
def dropEntry (r : RuleMatch) : Entry := ⟨dropMatch r .zero, .zero⟩

/-- What one rule leaves in the match does not reach the next. -/
theorem dropMatch_over (r r' : RuleMatch) (m : Match) :
    dropMatch r (dropMatch r' m) = dropMatch r m := rfl

theorem addDropEntries_ok {id : Nat} (h : addDropEntries replies id m rules s = .ok s') :
    s'.pipes = s.pipes.modify id fun pipe => { pipe with
      entries := pipe.entries ++ rules.map fun r => ⟨dropMatch r m, .zero⟩ } := by
  induction rules generalizing m s with
  | nil =>
    rw [← Except.ok.inj h]
    simp only [List.map_nil, List.append_nil]
    exact (List.modify_id id s.pipes).symm
  | cons r rules ih =>
    obtain ⟨s₁, hadd, hrest⟩ := bind_eq_ok.mp h
    obtain ⟨s₂, hawait, htail⟩ := bind_eq_ok.mp hrest
    rw [ih htail, awaitEntry_ok hawait, pipeAddEntry_ok hadd, List.modify_modify_eq]
    simp only [dropMatch_over, Function.comp_def, List.append_assoc, List.map_cons,
      List.singleton_append]

def hairpinPipe (portId : UInt16) : Pipe :=
  ⟨.zero, .zero, .port (portId ^^^ 1), .drop, [⟨.zero, .zero⟩]⟩

def dropPipe (nextPipeId : Nat) (entries : List Entry) : Pipe :=
  ⟨dropPattern, .zero, .drop, .pipe nextPipeId, entries⟩

theorem modify_last {α : Type} (l : List α) (x : α) (f : α → α) :
    (l ++ [x]).modify l.length f = l ++ [f x] :=
  List.modifyTailIdx_add (List.modifyHead f) 0 l [x]

theorem portPipesInit_ok {portId : UInt16} {id : Nat}
    (h : portPipesInit replies portId s = .ok (id, s')) :
    id = s.pipes.length + 1 ∧
      s'.pipes = s.pipes ++ [hairpinPipe portId, dropPipe s.pipes.length []] := by
  obtain ⟨⟨hairpinId, s₁⟩, hhairpin, hdrop⟩ := bind_eq_ok.mp h
  obtain ⟨⟨id', s₂⟩, hcreate, hrest⟩ := bind_eq_ok.mp hhairpin
  obtain ⟨s₃, hadd, hrest⟩ := bind_eq_ok.mp hrest
  obtain ⟨s₄, hawait, hpure⟩ := bind_eq_ok.mp hrest
  obtain ⟨rfl, rfl⟩ := Prod.mk.inj (pure_eq_ok.mp hpure)
  obtain ⟨rfl, hpipes⟩ := pipeCreate_ok hcreate
  have hone : s₄.pipes = s.pipes ++ [hairpinPipe portId] := by
    rw [awaitEntry_ok hawait, pipeAddEntry_ok hadd, hpipes]
    exact modify_last _ _ _
  obtain ⟨rfl, hpipes'⟩ := pipeCreate_ok hdrop
  rw [hpipes', hone]
  simp [dropPipe]

theorem firewallStatic_ok {allocated : Bool} {json : List Json} {ids : Nat × Nat}
    (h : firewallStatic replies allocated json = .ok (ids, s)) :
    ∃ rules, createDropRules allocated json = .ok rules ∧ ids = (1, 3) ∧
      s.pipes = [hairpinPipe 0, dropPipe 0 (rules.map dropEntry), hairpinPipe 1,
        dropPipe 2 (rules.map dropEntry)] := by
  obtain ⟨⟨ids', s₁⟩, hinit, hrest⟩ := bind_eq_ok.mp h
  obtain ⟨rules, hrules, hrest⟩ := bind_eq_ok.mp hrest
  obtain ⟨s₂, hadd, hpure⟩ := bind_eq_ok.mp hrest
  obtain ⟨rfl, rfl⟩ := Prod.mk.inj (pure_eq_ok.mp hpure)
  obtain ⟨⟨id₀, s₃⟩, hfirst, hrest⟩ := bind_eq_ok.mp hinit
  obtain ⟨⟨id₁, s₄⟩, hsecond, hpure⟩ := bind_eq_ok.mp hrest
  obtain ⟨rfl, rfl⟩ := Prod.mk.inj (pure_eq_ok.mp hpure)
  obtain ⟨rfl, hpipes⟩ := portPipesInit_ok hfirst
  obtain ⟨rfl, hpipes'⟩ := portPipesInit_ok hsecond
  obtain ⟨s₅, hport₀, hport₁⟩ := bind_eq_ok.mp hadd
  rw [hpipes] at hpipes'
  refine ⟨rules, hrules, by rw [hpipes]; rfl, ?_⟩
  rw [addDropEntries_ok hport₁, addDropEntries_ok hport₀, hpipes', hpipes]
  rfl

def Dropped (s : Server) (pipeId : Nat) (p : Packet) : Prop :=
  Only (s.process pipeId p) (.drop, p)

theorem hairpin_process (portId : UInt16) (p : Packet) :
    (hairpinPipe portId).process p = [(.port (portId ^^^ 1), p)] := by
  have hhits : (hairpinPipe portId).hits p = [⟨.zero, .zero⟩] := by
    simp [Pipe.hits, hairpinPipe, Match.accepts, Match.zero, HeaderFormat.zero, L3Meta.accepts,
      L4Meta.accepts, L3Type.accepts, L4TypeExt.accepts]
  unfold Pipe.process
  rw [hhits]
  simp [hairpinPipe, Actions.apply, Actions.zero, HeaderFormat.zero]

theorem dropPipe_accepts (r : RuleMatch) (p : Packet) :
    dropPattern.accepts (dropEntry r).pattern p = true ↔
      p.l3 = .ipv4 ∧ (p.l4 = .tcp ∨ p.l4 = .udp) ∧ p.srcIp = r.srcIp ∧ p.dstIp = r.dstIp ∧
        p.srcPort = bePort r.dstPort ∧ p.dstPort = bePort r.srcPort := by
  simp [Match.accepts, dropPattern, dropEntry, dropMatch, Match.zero, HeaderFormat.zero,
    HeaderFormat.setTransportSrcPort, HeaderFormat.setTransportDstPort, L3Meta.accepts,
    L4Meta.accepts, L3Type.accepts, L4TypeExt.accepts, and_assoc]

theorem dropped_iff_hit {pipeId next : Nat} {portId : UInt16} {entries : List Entry} {p : Packet}
    (hlength : 2 ≤ s.pipes.length) (hdrop : s.pipes[pipeId]? = some (dropPipe next entries))
    (hnext : s.pipes[next]? = some (hairpinPipe portId)) :
    Dropped s pipeId p ↔ (dropPipe next entries).hits p ≠ [] := by
  obtain ⟨fuel, hfuel⟩ := Nat.exists_eq_add_of_le' hlength
  unfold Dropped Server.process
  rw [hfuel]
  have hhairpin : s.follow (fuel + 1) next p = [(.port (portId ^^^ 1), p)] := by
    rw [Server.follow, hnext]
    simp only [hairpin_process, List.flatMap_singleton]
  rw [Server.follow, hdrop]
  cases hhits : (dropPipe next entries).hits p with
  | nil =>
    have hprocess : (dropPipe next entries).process p = [(.pipe next, p)] := by
      rw [Pipe.process, hhits]
      rfl
    simp [hprocess, hhairpin, Only]
  | cons e es =>
    have hprocess : (dropPipe next entries).process p = (e :: es).map fun _ => (.drop, p) := by
      rw [Pipe.process, hhits]
      simp [dropPipe, Actions.apply, Actions.zero, HeaderFormat.zero]
    simp [hprocess, Only]

theorem dropped_iff {pipeId next : Nat} {portId : UInt16} {p : Packet}
    (hlength : 2 ≤ s.pipes.length)
    (hdrop : s.pipes[pipeId]? = some (dropPipe next (rules.map dropEntry)))
    (hnext : s.pipes[next]? = some (hairpinPipe portId)) :
    Dropped s pipeId p ↔ ∃ r ∈ rules, p.l3 = .ipv4 ∧ (p.l4 = .tcp ∨ p.l4 = .udp) ∧
      p.srcIp = r.srcIp ∧ p.dstIp = r.dstIp ∧ p.srcPort = bePort r.dstPort ∧
        p.dstPort = bePort r.srcPort := by
  rw [dropped_iff_hit hlength hdrop hnext]
  constructor
  · intro hne
    obtain ⟨e, he⟩ := List.exists_mem_of_ne_nil _ hne
    obtain ⟨hmem, haccepts⟩ := List.mem_filter.mp he
    obtain ⟨r, hr, rfl⟩ := List.mem_map.mp hmem
    exact ⟨r, hr, (dropPipe_accepts r p).mp haccepts⟩
  · rintro ⟨r, hr, hp⟩
    have hmem : dropEntry r ∈ (dropPipe next (rules.map dropEntry)).hits p :=
      List.mem_filter.mpr ⟨List.mem_map_of_mem hr, (dropPipe_accepts r p).mpr hp⟩
    exact List.ne_nil_of_mem hmem

/-- What a rule of the JSON file says. -/
structure RuleText where
  protocol : List Char
  srcIp : List Char
  dstIp : List Char
  srcPort : Int
  dstPort : Int

/-- The JSON object is a rule that says this. -/
def Says (json : Json) (t : RuleText) : Prop :=
  objectGetEx json "protocol" = some (.string t.protocol) ∧
    objectGetEx json "src-ip" = some (.string t.srcIp) ∧
    objectGetEx json "dst-ip" = some (.string t.dstIp) ∧
    objectGetEx json "src-port" = some (.int t.srcPort) ∧
    objectGetEx json "dst-port" = some (.int t.dstPort)

/-- A rule as the program holds it is what its text says. -/
structure Holds (t : RuleText) (r : RuleMatch) : Prop where
  protocol : parseProtocolString (cString t.protocol) = .ok r.protocol
  srcIp : parseIpv4Str (cString t.srcIp) = .ok r.srcIp
  dstIp : parseIpv4Str (cString t.dstIp) = .ok r.dstIp
  srcPort : r.srcPort = objectGetInt t.srcPort
  dstPort : r.dstPort = objectGetInt t.dstPort

theorem createString_ok {α : Type} {key : String} {parse : List Char → Except DocaError α}
    {json : Json} {a : α} (h : createString key parse json = .ok a) :
    ∃ text, objectGetEx json key = some (.string text) ∧ parse (cString text) = .ok a := by
  unfold createString at h
  split at h
  · rename_i text heq
    exact ⟨text, heq, h⟩
  · contradiction

theorem createPort_ok {key : String} {json : Json} {port : Int}
    (h : createPort key json = .ok port) :
    ∃ value, objectGetEx json key = some (.int value) ∧ port = objectGetInt value := by
  unfold createPort at h
  split at h
  · rename_i value heq
    exact ⟨value, heq, (Except.ok.inj h).symm⟩
  · contradiction

theorem createRule_ok {json : Json} {r : RuleMatch} (h : createRule json = .ok r) :
    ∃ t, Says json t ∧ Holds t r := by
  obtain ⟨protocol, hprotocol, h⟩ := bind_eq_ok.mp h
  obtain ⟨srcIp, hsrcIp, h⟩ := bind_eq_ok.mp h
  obtain ⟨dstIp, hdstIp, h⟩ := bind_eq_ok.mp h
  obtain ⟨srcPort, hsrcPort, h⟩ := bind_eq_ok.mp h
  obtain ⟨dstPort, hdstPort, h⟩ := bind_eq_ok.mp h
  obtain rfl := pure_eq_ok.mp h
  obtain ⟨t₁, hs₁, hp₁⟩ := createString_ok hprotocol
  obtain ⟨t₂, hs₂, hp₂⟩ := createString_ok hsrcIp
  obtain ⟨t₃, hs₃, hp₃⟩ := createString_ok hdstIp
  obtain ⟨v₁, hs₄, hp₄⟩ := createPort_ok hsrcPort
  obtain ⟨v₂, hs₅, hp₅⟩ := createPort_ok hdstPort
  exact ⟨⟨t₁, t₂, t₃, v₁, v₂⟩, ⟨hs₁, hs₂, hs₃, hs₄, hs₅⟩, hp₁, hp₂, hp₃, hp₄, hp₅⟩

theorem Says.unique {json : Json} {t t' : RuleText} (h : Says json t) (h' : Says json t') :
    t = t' := by
  obtain ⟨h₁, h₂, h₃, h₄, h₅⟩ := h
  obtain ⟨h₁', h₂', h₃', h₄', h₅'⟩ := h'
  rw [h₁, Option.some.injEq, Json.string.injEq] at h₁'
  rw [h₂, Option.some.injEq, Json.string.injEq] at h₂'
  rw [h₃, Option.some.injEq, Json.string.injEq] at h₃'
  rw [h₄, Option.some.injEq, Json.int.injEq] at h₄'
  rw [h₅, Option.some.injEq, Json.int.injEq] at h₅'
  obtain ⟨_, _, _, _, _⟩ := t
  obtain ⟨_, _, _, _, _⟩ := t'
  simp_all

/-- The rules the program holds are those of the file. -/
theorem createDropRules_ok {allocated : Bool} {json : List Json}
    (h : createDropRules allocated json = .ok rules) :
    (∀ r ∈ rules, ∃ j ∈ json, ∃ t, Says j t ∧ Holds t r) ∧
      ∀ j ∈ json, ∃ t, Says j t ∧ ∃ r ∈ rules, Holds t r := by
  cases allocated with
  | false => contradiction
  | true =>
    have hall : List.Forall₂ (fun j r => createRule j = .ok r) json rules := mapM_eq_ok.mp h
    clear h
    induction hall with
    | nil => simp
    | cons hr _ ih =>
      obtain ⟨t, hsays, hholds⟩ := createRule_ok hr
      obtain ⟨ih₁, ih₂⟩ := ih
      constructor
      · intro r hmem
        rcases List.mem_cons.mp hmem with rfl | hmem
        · exact ⟨_, List.mem_cons_self, t, hsays, hholds⟩
        · obtain ⟨j, hj, hrest⟩ := ih₁ r hmem
          exact ⟨j, List.mem_cons_of_mem _ hj, hrest⟩
      · intro j hmem
        rcases List.mem_cons.mp hmem with rfl | hmem
        · exact ⟨t, hsays, _, List.mem_cons_self, hholds⟩
        · obtain ⟨t', hsays', r, hr, hholds'⟩ := ih₂ j hmem
          exact ⟨t', hsays', r, List.mem_cons_of_mem _ hr, hholds'⟩

def isTransport (l4 : L4Meta) : Prop := l4 = .tcp ∨ l4 = .udp

def protocolName : L4Meta → List Char
  | .tcp => ['t', 'c', 'p']
  | .udp => ['u', 'd', 'p']
  | .none => []

def protocolExt : L4Meta → L4TypeExt
  | .tcp => .tcp
  | .udp => .udp
  | .none => .none

/-- The number of a port of a packet. -/
def portNumber (port : BitVec 16) : Int := (rteCpuToBe16 port).toNat

/-- The number of the port that the program makes of a number in the file. -/
def portOf (value : Int) : Int := (BitVec.ofInt 16 (objectGetInt value)).toNat

/-- Some rule of the file has the protocol, the addresses and the ports of the packet. -/
def Listed (json : List Json) (p : Packet) : Prop :=
  ∃ j ∈ json, ∃ t, Says j t ∧ cString t.protocol = protocolName p.l4 ∧
    parseIpv4Str (cString t.srcIp) = .ok p.srcIp ∧ parseIpv4Str (cString t.dstIp) = .ok p.dstIp ∧
    t.srcPort = portNumber p.srcPort ∧ t.dstPort = portNumber p.dstPort

/-- With every rule the file has, for both protocols, the rule with the same addresses and
the ports exchanged. -/
def Mirrored (json : List Json) : Prop :=
  ∀ j ∈ json, ∀ t, Says j t → ∀ l4, isTransport l4 → ∃ j' ∈ json, ∃ t', Says j' t' ∧
    cString t'.protocol = protocolName l4 ∧
    parseIpv4Str (cString t'.srcIp) = parseIpv4Str (cString t.srcIp) ∧
    parseIpv4Str (cString t'.dstIp) = parseIpv4Str (cString t.dstIp) ∧
    t'.srcPort = portOf t.dstPort ∧ t'.dstPort = portOf t.srcPort

theorem parseProtocolString_iff {text : List Char} {l4 : L4Meta} (h : isTransport l4) :
    parseProtocolString text = .ok (protocolExt l4) ↔ text = protocolName l4 := by
  unfold parseProtocolString
  rcases h with rfl | rfl
  · constructor
    · intro h
      split at h
      · assumption
      · split at h <;> contradiction
    · rintro rfl
      rfl
  · constructor
    · intro h
      split at h
      · contradiction
      · split at h
        · assumption
        · contradiction
    · rintro rfl
      rfl

theorem objectGetInt_eq {value : Int} {port : BitVec 16} :
    objectGetInt value = (port.toNat : Int) ↔ value = port.toNat := by
  have := port.isLt
  unfold objectGetInt
  omega

/-- A rule of the program is what some text of the file says. -/
def RuleHas (r : RuleMatch) (l4 : L4Meta) (srcIp dstIp : BitVec 32) (srcPort dstPort : BitVec 16) :
    Prop :=
  r.protocol = protocolExt l4 ∧ r.srcIp = srcIp ∧ r.dstIp = dstIp ∧
    r.srcPort = srcPort.toNat ∧ r.dstPort = dstPort.toNat

theorem exists_rule_iff {allocated : Bool} {json : List Json} {l4 : L4Meta}
    (h : createDropRules allocated json = .ok rules) (hl4 : isTransport l4)
    (srcIp dstIp : BitVec 32) (srcPort dstPort : BitVec 16) :
    (∃ r ∈ rules, RuleHas r l4 srcIp dstIp srcPort dstPort) ↔
      ∃ j ∈ json, ∃ t, Says j t ∧ cString t.protocol = protocolName l4 ∧
        parseIpv4Str (cString t.srcIp) = .ok srcIp ∧ parseIpv4Str (cString t.dstIp) = .ok dstIp ∧
        t.srcPort = srcPort.toNat ∧ t.dstPort = dstPort.toNat := by
  obtain ⟨hrules, hjson⟩ := createDropRules_ok h
  constructor
  · rintro ⟨r, hr, hprotocol, rfl, rfl, hsrcPort, hdstPort⟩
    obtain ⟨j, hj, t, hsays, hholds⟩ := hrules r hr
    refine ⟨j, hj, t, hsays, ?_, hholds.srcIp, hholds.dstIp, ?_, ?_⟩
    · exact (parseProtocolString_iff hl4).mp (hprotocol ▸ hholds.protocol)
    · exact objectGetInt_eq.mp (hholds.srcPort ▸ hsrcPort)
    · exact objectGetInt_eq.mp (hholds.dstPort ▸ hdstPort)
  · rintro ⟨j, hj, t, hsays, hprotocol, hsrcIp, hdstIp, hsrcPort, hdstPort⟩
    obtain ⟨t', hsays', r, hr, hholds⟩ := hjson j hj
    obtain rfl := hsays.unique hsays'
    refine ⟨r, hr, ?_, ?_, ?_, ?_, ?_⟩
    · exact Except.ok.inj (hholds.protocol.symm.trans ((parseProtocolString_iff hl4).mpr hprotocol))
    · exact Except.ok.inj (hholds.srcIp.symm.trans hsrcIp)
    · exact Except.ok.inj (hholds.dstIp.symm.trans hdstIp)
    · rw [hholds.srcPort]
      exact objectGetInt_eq.mpr hsrcPort
    · rw [hholds.dstPort]
      exact objectGetInt_eq.mpr hdstPort

/-- The packet is one that the entries of these rules drop. -/
def Hits (rules : List RuleMatch) (p : Packet) : Prop :=
  ∃ r ∈ rules, p.srcIp = r.srcIp ∧ p.dstIp = r.dstIp ∧ p.srcPort = bePort r.dstPort ∧
    p.dstPort = bePort r.srcPort

theorem bePort_number (port : BitVec 16) : bePort port.toNat = rteCpuToBe16 port := by
  rw [bePort, BitVec.ofInt_natCast, BitVec.ofNat_toNat, BitVec.setWidth_eq]

/-- The entries drop what the rules list just when the rules are mirrored. -/
theorem hits_iff_mirrored (rules : List RuleMatch) :
    (∀ p, isTransport p.l4 → (Hits rules p ↔ ∃ r ∈ rules, RuleHas r p.l4 p.srcIp p.dstIp
      (rteCpuToBe16 p.srcPort) (rteCpuToBe16 p.dstPort))) ↔
    ∀ r ∈ rules, ∀ l4, isTransport l4 → ∃ r' ∈ rules, RuleHas r' l4 r.srcIp r.dstIp
      (BitVec.ofInt 16 r.dstPort) (BitVec.ofInt 16 r.srcPort) := by
  constructor
  · intro h r hr l4 hl4
    have hlisted := (h ⟨.ipv4, l4, r.srcIp, r.dstIp, bePort r.dstPort, bePort r.srcPort⟩ hl4).mp
      ⟨r, hr, rfl, rfl, rfl, rfl⟩
    simpa only [bePort, rteCpuToBe16_involutive] using hlisted
  · intro h p hl4
    constructor
    · rintro ⟨r, hr, hsrcIp, hdstIp, hsrcPort, hdstPort⟩
      have hmirror := h r hr p.l4 hl4
      rw [hsrcIp, hdstIp, hsrcPort, hdstPort, bePort, bePort, rteCpuToBe16_involutive,
        rteCpuToBe16_involutive]
      exact hmirror
    · rintro ⟨r, hr, -, hsrcIp, hdstIp, hsrcPort, hdstPort⟩
      obtain ⟨r', hr', -, hsrcIp', hdstIp', hsrcPort', hdstPort'⟩ := h r hr p.l4 hl4
      refine ⟨r', hr', ?_, ?_, ?_, ?_⟩
      · rw [hsrcIp', hsrcIp]
      · rw [hdstIp', hdstIp]
      · rw [hdstPort', bePort_number, hsrcPort, BitVec.ofInt_natCast, BitVec.ofNat_toNat,
          BitVec.setWidth_eq, rteCpuToBe16_involutive]
      · rw [hsrcPort', bePort_number, hdstPort, BitVec.ofInt_natCast, BitVec.ofNat_toNat,
          BitVec.setWidth_eq, rteCpuToBe16_involutive]

theorem mirrored_iff {allocated : Bool} {json : List Json}
    (h : createDropRules allocated json = .ok rules) :
    Mirrored json ↔ ∀ r ∈ rules, ∀ l4, isTransport l4 → ∃ r' ∈ rules,
      RuleHas r' l4 r.srcIp r.dstIp (BitVec.ofInt 16 r.dstPort) (BitVec.ofInt 16 r.srcPort) := by
  obtain ⟨hrules, hjson⟩ := createDropRules_ok h
  constructor
  · intro hmirrored r hr l4 hl4
    obtain ⟨j, hj, t, hsays, hholds⟩ := hrules r hr
    rw [exists_rule_iff h hl4]
    obtain ⟨j', hj', t', hsays', hprotocol, hsrcIp, hdstIp, hsrcPort, hdstPort⟩ :=
      hmirrored j hj t hsays l4 hl4
    refine ⟨j', hj', t', hsays', hprotocol, ?_, ?_, ?_, ?_⟩
    · rw [hsrcIp, hholds.srcIp]
    · rw [hdstIp, hholds.dstIp]
    · rw [hsrcPort, hholds.dstPort]
      rfl
    · rw [hdstPort, hholds.srcPort]
      rfl
  · intro hmirror j hj t hsays l4 hl4
    obtain ⟨t', hsays', r, hr, hholds⟩ := hjson j hj
    obtain rfl := hsays.unique hsays'
    obtain ⟨j', hj', t', hsays', hprotocol, hsrcIp, hdstIp, hsrcPort, hdstPort⟩ :=
      (exists_rule_iff h hl4 _ _ _ _).mp (hmirror r hr l4 hl4)
    refine ⟨j', hj', t', hsays', hprotocol, ?_, ?_, ?_, ?_⟩
    · rw [hsrcIp, hholds.srcIp]
    · rw [hdstIp, hholds.dstIp]
    · rw [hsrcPort, hholds.dstPort]
      rfl
    · rw [hdstPort, hholds.srcPort]
      rfl

/-- Every IPv4 packet over TCP or UDP that comes to either port is dropped just when the file
lists it. -/
def DropsListed (json : List Json) (ids : Nat × Nat) (s : Server) : Prop :=
  ∀ pipeId ∈ [ids.1, ids.2], ∀ p : Packet, p.l3 = .ipv4 → isTransport p.l4 →
    (Dropped s pipeId p ↔ Listed json p)

/-- With the rules in place the packets of the file are dropped and no others just when the
file is its own mirror image. -/
theorem drops_listed_iff_mirrored {allocated : Bool} {json : List Json} {ids : Nat × Nat}
    (h : firewallStatic replies allocated json = .ok (ids, s)) :
    DropsListed json ids s ↔ Mirrored json := by
  obtain ⟨rules, hrules, rfl, hpipes⟩ := firewallStatic_ok h
  have hdropped : ∀ pipeId ∈ [1, 3], ∀ p : Packet, p.l3 = .ipv4 → isTransport p.l4 →
      (Dropped s pipeId p ↔ Hits rules p) := by
    intro pipeId hmem p hl3 hl4
    have hlength : 2 ≤ s.pipes.length := by
      rw [hpipes, List.length_cons, List.length_cons]
      omega
    have hiff : ∀ next portId, s.pipes[pipeId]? = some (dropPipe next (rules.map dropEntry)) →
        s.pipes[next]? = some (hairpinPipe portId) → (Dropped s pipeId p ↔ Hits rules p) := by
      intro next portId hdrop hnext
      rw [dropped_iff hlength hdrop hnext]
      simp only [Hits, hl3, true_and, show p.l4 = .tcp ∨ p.l4 = .udp from hl4]
    rcases List.mem_cons.mp hmem with rfl | hmem
    · exact hiff 0 0 (by rw [hpipes]; rfl) (by rw [hpipes]; rfl)
    · obtain rfl := List.mem_singleton.mp hmem
      exact hiff 2 1 (by rw [hpipes]; rfl) (by rw [hpipes]; rfl)
  rw [mirrored_iff hrules, ← hits_iff_mirrored]
  constructor
  · intro hlaw p hl4
    have hp := hlaw 1 List.mem_cons_self { p with l3 := .ipv4 } rfl hl4
    have hhits := hdropped 1 List.mem_cons_self { p with l3 := .ipv4 } rfl hl4
    rw [exists_rule_iff hrules hl4]
    exact hhits.symm.trans hp
  · intro hlaw pipeId hmem p hl3 hl4
    rw [hdropped pipeId hmem p hl3 hl4, hlaw p hl4, exists_rule_iff hrules hl4]
    rfl


/-- A rule of a file, from 10.0.0.1 to 10.0.0.2. -/
def ruleJson (protocol : List Char) (srcPort dstPort : Int) : Json :=
  .object [("protocol", .string protocol), ("src-ip", .string (FlowParser.dottedQuad 10 0 0 1)),
    ("dst-ip", .string (FlowParser.dottedQuad 10 0 0 2)), ("src-port", .int srcPort),
    ("dst-port", .int dstPort)]

def ruleText (protocol : List Char) (srcPort dstPort : Int) : RuleText :=
  ⟨protocol, FlowParser.dottedQuad 10 0 0 1, FlowParser.dottedQuad 10 0 0 2, srcPort, dstPort⟩

theorem ruleJson_given (protocol : List Char) (srcPort dstPort : Int) :
    Says (ruleJson protocol srcPort dstPort) (ruleText protocol srcPort dstPort) :=
  ⟨rfl, rfl, rfl, rfl, rfl⟩

def echoFile : List Json := [ruleJson ['t', 'c', 'p'] 7 7, ruleJson ['u', 'd', 'p'] 7 7]

theorem echoFile_mirrored : Mirrored echoFile := by
  have hport : portOf 7 = 7 := by decide
  intro j hj t hsays l4 hl4
  have htext : ∃ protocol, t = ruleText protocol 7 7 := by
    rcases List.mem_cons.mp hj with rfl | hj
    · exact ⟨_, hsays.unique (ruleJson_given _ 7 7)⟩
    · obtain rfl := List.mem_singleton.mp hj
      exact ⟨_, hsays.unique (ruleJson_given _ 7 7)⟩
  obtain ⟨protocol, rfl⟩ := htext
  rcases hl4 with rfl | rfl
  · exact ⟨_, List.mem_cons_self, _, ruleJson_given _ _ _, by decide, rfl, rfl, hport.symm,
      hport.symm⟩
  · exact ⟨_, List.mem_cons_of_mem _ List.mem_cons_self, _, ruleJson_given _ _ _, by decide, rfl,
      rfl, hport.symm, hport.symm⟩

theorem drops_listed_echo :
    ∃ ids s, firewallStatic (fun _ => none) true echoFile = .ok (ids, s) ∧
      DropsListed echoFile ids s := by
  have hrun : ∃ ids s, firewallStatic (fun _ => none) true echoFile = .ok (ids, s) := ⟨_, _, rfl⟩
  obtain ⟨ids, s, hrun⟩ := hrun
  exact ⟨ids, s, hrun, (drops_listed_iff_mirrored hrun).mpr echoFile_mirrored⟩

def webFile : List Json := [ruleJson ['t', 'c', 'p'] 1234 80]

/-- A packet of the rule, from port 1234 to port 80. -/
def webPacket : Packet :=
  ⟨.ipv4, .tcp, beIpv4Addr 10 0 0 1, beIpv4Addr 10 0 0 2, bePort 1234, bePort 80⟩

/-- A packet that the only rule of the file lists goes through. -/
theorem listed_packet_passes :
    ∃ ids s, firewallStatic (fun _ => none) true webFile = .ok (ids, s) ∧
      s.process ids.1 webPacket = [(.port 1, webPacket)] ∧ ¬ DropsListed webFile ids s := by
  refine ⟨_, _, rfl, by decide +kernel, ?_⟩
  intro h
  have hlisted : Listed webFile webPacket :=
    ⟨_, List.mem_cons_self, _, ruleJson_given _ _ _, by decide, by decide +kernel,
      by decide +kernel, by decide +kernel, by decide +kernel⟩
  have hdropped := (h 1 List.mem_cons_self webPacket rfl (.inl rfl)).mpr hlisted
  revert hdropped
  unfold Dropped Only
  decide +kernel

end DocaApps.Proofs.FirewallDrop
