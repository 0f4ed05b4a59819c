import DocaApps.Proofs.StructFields

namespace DocaApps.Proofs.MatchFields
open Common.FlowPipe (L3Type L4TypeExt rteCpuToBe16 rteCpuToBe32)
open Common.FlowParser Common.StructFields Lib.Numerals Lib.Members
open Proofs.AddressTexts Proofs.StructFields Proofs.Strtol

variable {types : Layer → L3Type} {p q : MatchField × List Char}
  {L L' : List (MatchField × List Char)} {w w' : Sigma MatchMember.Value} {s : Match}

def layerName : Layer → String
  | .outer => "outer"
  | .inner => "inner"

def sideName : Side → String
  | .src => "src"
  | .dst => "dst"

def l4HeaderName : L4Header → String
  | .tcp => "tcp"
  | .udp => "udp"

def tunKeyName : TunKey → String
  | .vxlanTunId => "vxlan_tun_id"
  | .greKey => "gre_key"
  | .gtpTeid => "gtp_teid"

theorem vlans_neZero : NeZero 2 := ⟨two_ne_zero⟩

attribute [local instance] vlans_neZero

def fieldName : MatchField → String
  | .flags => "flags"
  | .portMeta => "port_meta"
  | .mac l side => layerName l ++ ".eth." ++ sideName side ++ "_mac"
  | .ethType l => layerName l ++ ".eth.type"
  | .vlanTci l i => layerName l ++ ".eth_vlan[" ++ (if i = 0 then "0" else "1") ++ "].tci"
  | .l3Type l => layerName l ++ ".l3_type"
  | .ipAddr l side => layerName l ++ "." ++ sideName side ++ "_ip_addr"
  | .l4TypeExt l => layerName l ++ ".l4_type_ext"
  | .tcpFlags l => layerName l ++ ".tcp.flags"
  | .port l header side =>
    layerName l ++ "." ++ l4HeaderName header ++ "_" ++ sideName side ++ "_port"
  | .tunType => "tun_type"
  | .tunKey key => tunKeyName key

theorem ofName_fieldName (f : MatchField) : MatchField.ofName (fieldName f) = some f := by
  cases f with
  | flags => rfl
  | portMeta => rfl
  | mac l side => cases l <;> cases side <;> rfl
  | ethType l => cases l <;> rfl
  | vlanTci l i => cases l <;> fin_cases i <;> rfl
  | l3Type l => cases l <;> rfl
  | ipAddr l side => cases l <;> cases side <;> rfl
  | l4TypeExt l => cases l <;> rfl
  | tcpFlags l => cases l <;> rfl
  | port l header side => cases l <;> cases header <;> cases side <;> rfl
  | tunType => rfl
  | tunKey key => cases key <;> rfl

/-- The fields have no other names than these. -/
theorem eq_fieldName {name : String} {f : MatchField} (h : MatchField.ofName name = some f) :
    name = fieldName f := by
  unfold MatchField.ofName at h
  split at h <;> cases h <;> rfl

/-- What a pair says: the member that the field stands for, and its value. `types` is the IP
version of each layer. Ports are in the byte order of the network. -/
inductive Names (types : Layer → L3Type) :
    MatchField × List Char → Sigma MatchMember.Value → Prop where
  | flags {text : List Char} {n : Nat} (h : HexNumber text n) (range : n < 2 ^ 32) :
      Names types (.flags, text) ⟨.flags, BitVec.ofNat 32 n⟩
  | portMeta {text : List Char} {n : Nat} (h : CNumber text n) (range : n < 2 ^ 32) :
      Names types (.portMeta, text) ⟨.portMeta, BitVec.ofNat 32 n⟩
  | mac {l : Layer} {side : Side} {text : List Char} {bytes : List Nat} (h : MacText text bytes) :
      Names types (.mac l side, text) ⟨.ethMac l side, bytes.map (BitVec.ofNat 8)⟩
  | ethType {l : Layer} {text : List Char} {n : Nat} (h : HexNumber text n) (range : n < 2 ^ 16) :
      Names types (.ethType l, text) ⟨.ethType l, BitVec.ofNat 16 n⟩
  | vlanTci {l : Layer} {i : Fin 2} {text : List Char} {n : Nat} (h : CNumber text n)
      (range : n < 2 ^ 16) : Names types (.vlanTci l i, text) ⟨.vlanTci l i, BitVec.ofNat 16 n⟩
  | l3Type {l : Layer} {text : List Char} (h : (text, types l) ∈ l3Names) :
      Names types (.l3Type l, text) ⟨.l3Type l, types l⟩
  | ip4Addr {l : Layer} {side : Side} {text : List Char} {addr : BitVec 32}
      (version : types l = .ip4) (h : Ipv4Value text addr) :
      Names types (.ipAddr l side, text) ⟨.ip4Addr l side, addr⟩
  | ip6Addr {l : Layer} {side : Side} {text : List Char} {groups : List Nat}
      (version : types l = .ip6) (h : Ipv6Text text groups) :
      Names types (.ipAddr l side, text) ⟨.ip6Addr l side, ip6Words groups⟩
  | l4TypeExt {l : Layer} {text : List Char} {v : L4TypeExt} (h : (text, v) ∈ l4Names) :
      Names types (.l4TypeExt l, text) ⟨.l4TypeExt l, v⟩
  | tcpFlags {l : Layer} {text : List Char} {v : BitVec 8} (h : (text, v) ∈ tcpFlagNames) :
      Names types (.tcpFlags l, text) ⟨.tcpFlags l, v⟩
  | port {l : Layer} {header : L4Header} {side : Side} {text : List Char} {n : Nat}
      (h : CNumber text n) (range : n < 2 ^ 16) :
      Names types (.port l header side, text)
        ⟨.l4Port l side, rteCpuToBe16 (BitVec.ofNat 16 n)⟩
  | tunType {text : List Char} {v : TunType} (h : (text, v) ∈ tunNames) :
      Names types (.tunType, text) ⟨.tunType, v⟩
  | tunKey {key : TunKey} {text : List Char} {n : Nat} (h : CNumber text n) (range : n < 2 ^ 32) :
      Names types (.tunKey key, text) ⟨.tunWord key.word, BitVec.ofNat 32 n⟩

/-- An address waits for the type of its layer. -/
def Needs (p q : MatchField × List Char) : Prop :=
  ∃ l side, p.1 = .ipAddr l side ∧ q.1 = .l3Type l

/-- A list of pairs as a user may write it: fields named once and in range, address types in
front of the addresses and at most one L4 header in each layer. -/
structure Admissible (types : Layer → L3Type) (L : List (MatchField × List Char)) : Prop where
  distinct : (L.map Prod.fst).Nodup
  inRange : ∀ p ∈ L, ∃ w, Names types p w
  typed : ∀ l side, .ipAddr l side ∈ L.map Prod.fst → .l3Type l ∈ L.map Prod.fst
  typesFirst : L.Pairwise fun p q => ¬ Needs p q
  oneL4 : ∀ l side side', .port l .udp side ∈ L.map Prod.fst →
    .port l .tcp side' ∉ L.map Prod.fst ∧ .tcpFlags l ∉ L.map Prod.fst

/-- Whatever admissible order the pairs come in, the same match is filled: every named member
holds its value and every other one is still zero. -/
def FieldsLand (types : Layer → L3Type) (L : List (MatchField × List Char)) : Prop :=
  ∃ r : Match,
    (∀ L' : List (MatchField × List Char), L'.Perm L → (L'.Pairwise fun p q => ¬ Needs p q) →
      fillFields parseMatchField (L'.map fun p => (fieldName p.1, p.2)) zeroMatch =
        some (.ok (), r)) ∧
    (∀ p ∈ L, ∀ w, Names types p w → r w.1 = w.2) ∧
    ∀ m, (∀ p ∈ L, ∀ w, Names types p w → w.1 ≠ m) → r m = zeroMatch m

/-- The hexadecimal numbers are zero, the ports of the inner layer are, too, with those that the
outer layer has on the same side, and two tunnel keys in one word are equal. -/
structure Sound (types : Layer → L3Type) (L : List (MatchField × List Char)) : Prop where
  flags : ∀ text, (.flags, text) ∈ L → HexNumber text 0
  macs : ∀ l side text, (.mac l side, text) ∈ L → MacText text (List.replicate 6 0)
  ethTypes : ∀ l text, (.ethType l, text) ∈ L → HexNumber text 0
  ip6Addrs : ∀ l side text, (.ipAddr l side, text) ∈ L → types l = .ip6 →
    Ipv6Text text (List.replicate 8 0)
  innerPorts : ∀ header side text, (.port .inner header side, text) ∈ L → CNumber text 0 ∧
    ∀ header' text', (.port .outer header' side, text') ∈ L → CNumber text' 0
  tunKeys : ∀ key key' text text', (.tunKey key, text) ∈ L → (.tunKey key', text') ∈ L →
    key.word = key'.word → ∃ n, CNumber text n ∧ CNumber text' n

theorem Names.unique (h : Names types p w) (h' : Names types p w') : w = w' := by
  cases h with
  | flags h =>
    cases h' with
    | flags h' => rw [h.unique h']
  | portMeta h =>
    cases h' with
    | portMeta h' => rw [h.unique h']
  | mac h =>
    cases h' with
    | mac h' => rw [h.2.unique h'.2 (by decide)]
  | ethType h =>
    cases h' with
    | ethType h' => rw [h.unique h']
  | vlanTci h =>
    cases h' with
    | vlanTci h' => rw [h.unique h']
  | l3Type h =>
    cases h' with
    | l3Type h' => rfl
  | ip4Addr version h =>
    cases h' with
    | ip4Addr version' h' => rw [Except.ok.inj (h.parse.symm.trans h'.parse)]
    | ip6Addr version' h' => simp [version] at version'
  | ip6Addr version h =>
    cases h' with
    | ip4Addr version' h' => simp [version] at version'
    | ip6Addr version' h' => rw [h.2.unique h'.2 (by decide)]
  | l4TypeExt h =>
    cases h' with
    | l4TypeExt h' =>
      rw [Except.ok.inj ((parseProtocolString_name h).symm.trans (parseProtocolString_name h'))]
  | tcpFlags h =>
    cases h' with
    | tcpFlags h' =>
      rw [Except.ok.inj ((parseTcpFlagString_name h).symm.trans (parseTcpFlagString_name h'))]
  | port h =>
    cases h' with
    | port h' => rw [h.unique h']
  | tunType h =>
    cases h' with
    | tunType h' =>
      rw [Except.ok.inj ((parseTunTypeString_name h).symm.trans (parseTunTypeString_name h'))]
  | tunKey h =>
    cases h' with
    | tunKey h' => rw [h.unique h']

/-- What the code assigns where a value is named. -/
def matchStored : Sigma MatchMember.Value → Sigma MatchMember.Value
  | ⟨.flags, _⟩ => ⟨.flags, 0⟩
  | ⟨.ethMac l side, _⟩ => ⟨.ethMac l side, List.replicate 6 0⟩
  | ⟨.ethType l, _⟩ => ⟨.ethType l, 0⟩
  | ⟨.ip6Addr l side, _⟩ => ⟨.ip6Addr l side, List.replicate 4 0⟩
  | ⟨.l4Port .inner side, v⟩ => ⟨.l4Port .outer side, v⟩
  | w => w

/-- The arrays of addresses have their lengths. -/
def Sized : (m : MatchMember) → m.Value → Prop
  | .ethMac _ _, v => v.length = 6
  | .ip6Addr _ _, v => v.length = 4
  | _, _ => True

theorem ofInt_strtol {k n : Nat} {text : List Char} (h : CNumber text n) (hn : n < 2 ^ 63) :
    BitVec.ofInt k (strtol text 0).1 = BitVec.ofNat k n := by
  rw [strtol_number h hn, BitVec.ofInt_natCast]

theorem setMatchField_names (h : Names types p w) (hsized : ∀ m, Sized m (s m))
    (htype : ∀ l side, p.1 = .ipAddr l side → s (.l3Type l) = types l) :
    setMatchField p.1 p.2 s = some (.ok (), assign s (matchStored w)) := by
  cases h with
  | flags h range => rfl
  | portMeta h range =>
    rw [setMatchField, ofInt_strtol h (by omega)]
    rfl
  | @mac l side text bytes h =>
    have hcolons := h.2.count_sep (by decide)
    have hlen : (s (.ethMac l side)).length = 6 := hsized (.ethMac l side)
    rw [h.1] at hcolons
    have hmac := parseMacAddress_of_colons (s := text) (hlen.trans_le (by omega))
    rw [hlen] at hmac
    simp only [setMatchField, hmac]
    rfl
  | ethType h range => rfl
  | vlanTci h range =>
    rw [setMatchField, ofInt_strtol h (by omega)]
    rfl
  | l3Type h =>
    rw [setMatchField, parseL3Type_name h]
    rfl
  | @ip4Addr l side text addr version h =>
    have hl3 : s (.l3Type l) = .ip4 := (htype l side rfl).trans version
    rw [setMatchField, hl3, h.parse]
    rfl
  | @ip6Addr l side text groups version h =>
    have hl3 : s (.l3Type l) = .ip6 := (htype l side rfl).trans version
    have hlen : (s (.ip6Addr l side)).length = 4 := hsized (.ip6Addr l side)
    rw [setMatchField, hl3, parseIpv6Str_zero, hlen]
    rfl
  | l4TypeExt h =>
    rw [setMatchField, parseProtocolString_name h]
    rfl
  | tcpFlags h =>
    rw [setMatchField, parseTcpFlagString_name h]
    rfl
  | @port l header side text n h range =>
    cases l with
    | outer =>
      rw [setMatchField, ofInt_strtol h (by omega)]
      rfl
    | inner =>
      rw [setMatchField, ofInt_strtol h (by omega)]
      rfl
  | tunType h =>
    rw [setMatchField, parseTunTypeString_name h]
    rfl
  | tunKey h range =>
    rw [setMatchField, ofInt_strtol h (by omega)]
    rfl

theorem parseMatchField_fieldName (f : MatchField) (text : List Char) (s : Match) :
    parseMatchField (fieldName f) text s = setMatchField f text s := by
  rw [parseMatchField, ofName_fieldName]

/-- The fields of the firewall. -/
def FwField : MatchField → Prop
  | .ipAddr .outer _ => True
  | .l4TypeExt .outer => True
  | .port .outer _ _ => True
  | _ => False

/-- The firewall reads its fields as a match does whose outer type has been set to IPv4. -/
theorem parseFwMatchField_fieldName {f : MatchField} (h : FwField f) (text : List Char)
    (s : Match) :
    parseFwMatchField (fieldName f) text s =
      setMatchField f text (assign s ⟨.l3Type .outer, .ip4⟩) := by
  cases f with
  | ipAddr l side =>
    cases l with
    | outer =>
      cases side <;>
        simp [parseFwMatchField, fieldName, layerName, sideName, setMatchField, assign]
    | inner => cases h
  | l4TypeExt l =>
    cases l with
    | outer => rfl
    | inner => cases h
  | port l header side =>
    cases l with
    | outer => cases header <;> cases side <;> rfl
    | inner => cases h
  | _ => cases h

theorem matchStored_sized (h : Names types p w) : Sized (matchStored w).1 (matchStored w).2 := by
  cases h with
  | @port l header side => cases l <;> trivial
  | _ => trivial

theorem zeroMatch_sized (m : MatchMember) : Sized m (zeroMatch m) := by
  cases m <;> trivial

theorem Names.l3Type_inv {l : Layer} {text : List Char} (h : Names types (.l3Type l, text) w) :
    w = ⟨.l3Type l, types l⟩ := by
  cases h
  rfl

/-- Only the field of a type writes it. -/
theorem stored_l3Type {l : Layer} (h : Names types p w) (hm : (matchStored w).1 = .l3Type l) :
    matchStored w = ⟨.l3Type l, types l⟩ := by
  cases h with
  | l3Type h =>
    cases hm
    rfl
  | @port l header side => cases l <;> cases hm
  | _ => cases hm

theorem run_admissible {named : MatchField × List Char → Sigma MatchMember.Value}
    (h : Admissible types L) (hnamed : ∀ p ∈ L, Names types p (named p)) (hperm : L'.Perm L)
    (horder : L'.Pairwise fun p q => ¬ Needs p q) :
    fillFields parseMatchField (L'.map fun p => (fieldName p.1, p.2)) zeroMatch =
      some (.ok (), assignAll zeroMatch (L'.map fun p => matchStored (named p))) := by
  rw [fillFields_map parseMatchField_fieldName]
  have hmem : ∀ p ∈ L', Names types p (named p) := fun p hp => hnamed p (hperm.mem_iff.mp hp)
  have hfields : ∀ f, f ∈ L.map Prod.fst → ∃ q ∈ L', q.1 = f := by
    intro f hf
    obtain ⟨q, hq, rfl⟩ := List.mem_map.mp hf
    exact ⟨q, hperm.mem_iff.mpr hq, rfl⟩
  have hset : ∀ p ∈ L', ∀ s : Match, (∀ m, Sized m (s m)) →
      (∀ l, (∃ side, p.1 = .ipAddr l side) → s (.l3Type l) = types l) →
      setMatchField p.1 p.2 s = some (.ok (), assign s (matchStored (named p))) := by
    intro p hp s hsized htypes
    exact setMatchField_names (hmem p hp) hsized fun l side hside => htypes l ⟨side, hside⟩
  have htyped : ∀ p ∈ L', ∀ l, (∃ side, p.1 = .ipAddr l side) → ∃ q ∈ L', q.1 = .l3Type l := by
    rintro p hp l ⟨side, hside⟩
    apply hfields
    apply h.typed l side
    rw [← hside]
    exact List.mem_map_of_mem (hperm.mem_iff.mp hp)
  have hpairs : L'.Pairwise fun p q => ∀ l, (∃ side, p.1 = .ipAddr l side) → q.1 ≠ .l3Type l := by
    apply horder.imp
    rintro p q hneeds l ⟨side, hside⟩ hq
    exact hneeds ⟨l, side, hside, hq⟩
  have htype : ∀ q ∈ L', ∀ l, q.1 = .l3Type l →
      matchStored (named q) = ⟨.l3Type l, types l⟩ := by
    rintro ⟨f, text⟩ hq l rfl
    rw [(hmem _ hq).l3Type_inv]
    rfl
  exact fillFields_ordered zeroMatch_sized (fun p hp => matchStored_sized (hmem p hp)) hset htyped
    hpairs (fun l p ⟨side, hside⟩ hp => by simp [hside] at hp) htype
    fun q hq l hm => stored_l3Type (hmem q hq) hm

/-- The member that a field stands for. -/
def memberOf (types : Layer → L3Type) : MatchField → MatchMember
  | .flags => .flags
  | .portMeta => .portMeta
  | .mac l side => .ethMac l side
  | .ethType l => .ethType l
  | .vlanTci l i => .vlanTci l i
  | .l3Type l => .l3Type l
  | .ipAddr l side => if types l = .ip6 then .ip6Addr l side else .ip4Addr l side
  | .l4TypeExt l => .l4TypeExt l
  | .tcpFlags l => .tcpFlags l
  | .port l _ side => .l4Port l side
  | .tunType => .tunType
  | .tunKey key => .tunWord key.word

theorem Names.member (h : Names types p w) : w.1 = memberOf types p.1 := by
  cases h with
  | ip4Addr version h => simp [memberOf, version]
  | ip6Addr version h => simp [memberOf, version]
  | _ => rfl

/-- Two fields stand for one member only as ports of one side or as keys in one word. -/
theorem memberOf_eq {f g : MatchField} (h : memberOf types f = memberOf types g) :
    f = g ∨ (∃ l side header header', f = .port l header side ∧ g = .port l header' side) ∨
      ∃ key key', f = .tunKey key ∧ g = .tunKey key' ∧ key.word = key'.word := by
  cases f <;> cases g <;> simp only [memberOf, reduceCtorEq] at h
  all_goals grind

theorem eq_of_field (h : Admissible types L) (hp : p ∈ L) (hq : q ∈ L) (hfield : p.1 = q.1) :
    p = q := List.inj_on_of_nodup_map h.distinct hp hq hfield

/-- Two pairs of a list name one member only where two keys of the tunnel do. -/
theorem same_member (h : Admissible types L) (hp : p ∈ L) (hq : q ∈ L) (hw : Names types p w)
    (hw' : Names types q w') (hm : w.1 = w'.1) :
    w = w' ∨ ∃ key key', p.1 = .tunKey key ∧ q.1 = .tunKey key' ∧ key.word = key'.word := by
  rw [hw.member, hw'.member] at hm
  rcases memberOf_eq hm with hfield | ⟨l, side, header, header', hport, hport'⟩ | hkeys
  · obtain rfl := eq_of_field h hp hq hfield
    exact Or.inl (hw.unique hw')
  · have hsame : header = header' := by
      have hin := List.mem_map_of_mem (f := Prod.fst) hp
      have hin' := List.mem_map_of_mem (f := Prod.fst) hq
      rw [hport] at hin
      rw [hport'] at hin'
      cases header <;> cases header'
      · rfl
      · exact absurd hin (h.oneL4 l side side hin').1
      · exact absurd hin' (h.oneL4 l side side hin).1
      · rfl
    obtain rfl := eq_of_field h hp hq (by rw [hport, hport', hsame])
    exact Or.inl (hw.unique hw')
  · exact Or.inr hkeys

theorem matchStored_ne_inner (w : Sigma MatchMember.Value) (side : Side) :
    (matchStored w).1 ≠ .l4Port .inner side := by
  obtain ⟨m, v⟩ := w
  cases m with
  | l4Port l side' => cases l <;> simp [matchStored]
  | _ => simp [matchStored]

theorem sound_of_fits {named : MatchField × List Char → Sigma MatchMember.Value}
    (hnamed : ∀ p ∈ L, Names types p (named p))
    (h : Fits zeroMatch matchStored (L.map named)) : Sound types L := by
  have hkept : ∀ {f : MatchField} {text : List Char}, (f, text) ∈ L → ∃ w,
      Names types (f, text) w ∧ ((matchStored w).1 = w.1 → w = matchStored w) := by
    intro f text hp
    have hin := List.mem_map_of_mem (f := named) hp
    exact ⟨_, hnamed _ hp, fun hm => h.named _ hin _ hin hm.symm⟩
  have hinner : ∀ {header : L4Header} {side : Side} {text : List Char},
      (.port .inner header side, text) ∈ L → named (.port .inner header side, text) =
        ⟨.l4Port .inner side, 0⟩ := by
    intro header side text hp
    have hmissing := h.missing _ (List.mem_map_of_mem hp)
    have hw := hnamed _ hp
    generalize named (.port .inner header side, text) = w at hw hmissing
    cases hw with
    | port hn range =>
      have hzero := hmissing fun w' _ => matchStored_ne_inner w' side
      exact congrArg (Sigma.mk _) hzero
  constructor
  · intro text hp
    obtain ⟨w, hw, hsame⟩ := hkept hp
    cases hw with
    | flags hn range =>
      have hzero := value_eq (hsame rfl)
      rwa [eq_zero_of_ofNat range hzero] at hn
  · intro l side text hp
    obtain ⟨w, hw, hsame⟩ := hkept hp
    cases hw with
    | mac htext =>
      have hzero := value_eq (hsame rfl)
      rwa [zeros_of_map htext.1 htext.2.bounded hzero] at htext
  · intro l text hp
    obtain ⟨w, hw, hsame⟩ := hkept hp
    cases hw with
    | ethType hn range =>
      have hzero := value_eq (hsame rfl)
      rwa [eq_zero_of_ofNat range hzero] at hn
  · intro l side text hp version
    obtain ⟨w, hw, hsame⟩ := hkept hp
    cases hw with
    | ip4Addr version' htext => simp [version] at version'
    | ip6Addr version' htext =>
      have hzero := value_eq (hsame rfl)
      rw [ip6Words_zero htext.1 htext.2.bounded] at hzero
      rwa [hzero] at htext
  · intro header side text hp
    have hzero := hinner hp
    have hnumber : ∀ {l : Layer} {header : L4Header} {text : List Char},
        (.port l header side, text) ∈ L →
        named (.port l header side, text) = ⟨.l4Port l side, 0⟩ → CNumber text 0 := by
      intro l header text hp hw
      have hnames := hnamed _ hp
      rw [hw] at hnames
      generalize hv : (⟨.l4Port l side, 0⟩ : Sigma MatchMember.Value) = w at hnames
      cases hnames with
      | port hn range =>
        have hn0 := port_eq_zero range (value_eq hv).symm
        rwa [hn0] at hn
    refine ⟨hnumber hp hzero, ?_⟩
    intro header' text' hp'
    apply hnumber hp'
    have hstored := h.named _ (List.mem_map_of_mem hp) _ (List.mem_map_of_mem hp')
    rw [hzero] at hstored
    exact hstored (hnamed _ hp').member
  · intro key key' text text' hp hp' hword
    have heq := h.consistent _ (List.mem_map_of_mem hp) _ (List.mem_map_of_mem hp')
    have hw := hnamed _ hp
    have hw' := hnamed _ hp'
    generalize named (.tunKey key, text) = w at hw heq
    generalize named (.tunKey key', text') = w' at hw' heq
    cases hw with
    | tunKey hn range =>
      cases hw' with
      | @tunKey _ _ n' hn' range' =>
        have hvalue : BitVec.ofNat 32 _ = BitVec.ofNat 32 n' :=
          eq_of_heq (Sigma.mk.inj (heq (congrArg MatchMember.tunWord hword))).2
        rw [ofNat_inj range range' hvalue] at hn
        exact ⟨n', hn, hn'⟩

/-- In a sound list the code stores what is named, but for zeros in the inner ports. -/
theorem stored_of_sound (hsound : Sound types L) (hp : p ∈ L) (hw : Names types p w) :
    matchStored w = w ∨ ∃ header side, p.1 = .port .inner header side ∧
      w = ⟨.l4Port .inner side, 0⟩ := by
  cases hw with
  | @flags text n hn range =>
    left
    rw [hn.unique (hsound.flags text hp)]
    rfl
  | @mac l side text bytes htext =>
    left
    have hzero := hsound.macs l side text hp
    rw [htext.2.unique hzero.2 (by decide)]
    rfl
  | @ethType l text n hn range =>
    left
    rw [hn.unique (hsound.ethTypes l text hp)]
    rfl
  | @ip6Addr l side text groups version htext =>
    left
    have hzero := hsound.ip6Addrs l side text hp version
    rw [htext.2.unique hzero.2 (by decide)]
    rfl
  | @port l header side text n hn range =>
    cases l with
    | outer => exact Or.inl rfl
    | inner =>
      right
      refine ⟨header, side, rfl, ?_⟩
      rw [hn.unique (hsound.innerPorts header side text hp).1]
      rfl
  | _ => exact Or.inl rfl

theorem fits_of_sound {named : MatchField × List Char → Sigma MatchMember.Value}
    (h : Admissible types L) (hnamed : ∀ p ∈ L, Names types p (named p)) (hsound : Sound types L) :
    Fits zeroMatch matchStored (L.map named) := by
  have hof : ∀ w ∈ L.map named, ∃ p ∈ L, Names types p w := by
    intro w hw
    obtain ⟨p, hp, rfl⟩ := List.mem_map.mp hw
    exact ⟨p, hp, hnamed p hp⟩
  have hconsistent : ∀ w ∈ L.map named, ∀ w' ∈ L.map named, w.1 = w'.1 → w = w' := by
    intro w hw w' hw' hm
    obtain ⟨⟨f, text⟩, hp, hnames⟩ := hof w hw
    obtain ⟨⟨g, text'⟩, hq, hnames'⟩ := hof w' hw'
    rcases same_member h hp hq hnames hnames' hm with heq | ⟨key, key', rfl, rfl, hword⟩
    · exact heq
    · obtain ⟨n, hn, hn'⟩ := hsound.tunKeys key key' text text' hp hq hword
      cases hnames with
      | tunKey hkey =>
        cases hnames' with
        | tunKey hkey' => rw [hkey.unique hn, hkey'.unique hn', hword]
  constructor
  · exact hconsistent
  · intro w hw w' hw' hm
    obtain ⟨p, hp, hnames⟩ := hof w hw
    rcases stored_of_sound hsound hp hnames with hsame | ⟨header, side, hport, rfl⟩
    · rw [hsame] at hm ⊢
      exact hconsistent w' hw' w hw hm
    · obtain ⟨q, hq, hnames'⟩ := hof w' hw'
      cases hnames' with
      | @port l header' side' text' n hn range =>
        cases hm
        obtain ⟨f, text⟩ := p
        obtain rfl : f = .port .inner header side := hport
        have hzero := (hsound.innerPorts header side text hp).2 header' text' hq
        rw [hn.unique hzero]
        rfl
      | _ => cases hm
  · intro w hw hnone
    obtain ⟨p, hp, hnames⟩ := hof w hw
    rcases stored_of_sound hsound hp hnames with hsame | ⟨header, side, hport, rfl⟩
    · exact absurd (by rw [hsame]) (hnone w hw)
    · rfl
  · intro w hw hnone
    obtain ⟨p, hp, hnames⟩ := hof w hw
    rcases stored_of_sound hsound hp hnames with hsame | ⟨header, side, hport, rfl⟩
    · exact absurd (by rw [hsame]) (hnone w hw)
    · rfl

theorem fieldsLand_iff (h : Admissible types L) : FieldsLand types L ↔ Sound types L := by
  have hex : ∀ p, ∃ w, p ∈ L → Names types p w := by
    intro p
    by_cases hp : p ∈ L
    · obtain ⟨w, hw⟩ := h.inRange p hp
      exact ⟨w, fun _ => hw⟩
    · exact ⟨⟨.flags, 0⟩, fun hin => absurd hin hp⟩
  choose named hnamed using hex
  have hlast : ∀ p ∈ L, matchStored (named p) = named p ∨ ∀ q, ¬ Needs q p := by
    rintro ⟨f, text⟩ hp
    by_cases htype : ∃ l, f = .l3Type l
    · obtain ⟨l, rfl⟩ := htype
      rw [(hnamed _ hp).l3Type_inv]
      exact Or.inl rfl
    · right
      rintro q ⟨l, side, -, hf⟩
      exact htype ⟨l, hf⟩
  have hiff : FieldsLand types L ↔ Fits zeroMatch matchStored (L.map named) :=
    land_iff (fun p hp w => ⟨fun hw => hw.unique (hnamed p hp), fun hw => hw ▸ hnamed p hp⟩)
      (fun _ hperm horder => run_admissible h hnamed hperm horder) h.typesFirst hlast
  exact hiff.trans ⟨sound_of_fits hnamed, fits_of_sound h hnamed⟩

end DocaApps.Proofs.MatchFields
