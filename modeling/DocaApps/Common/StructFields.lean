import DocaApps.Common.FlowParser
import DocaApps.Lib.Members

namespace DocaApps.Common.StructFields
open Common.FlowPipe Common.FlowParser Lib.Members

inductive TunType where
  | none | vxlan | gtpu | gre
  deriving DecidableEq, Repr

inductive Layer where
  | outer | inner
  deriving DecidableEq, Repr

inductive Header where
  | outer | encap
  deriving DecidableEq, Repr

inductive Side where
  | src | dst
  deriving DecidableEq, Repr

/-- The header through which the ports of a layer are named. -/
inductive L4Header where
  | tcp | udp
  deriving DecidableEq, Repr

inductive TunKey where
  | vxlanTunId | greKey | gtpTeid
  deriving DecidableEq, Repr

/-- The words of the tunnel's union: the identifier of VXLAN and that of GTP are one word. -/
inductive TunWord where
  | first | second
  deriving DecidableEq, Repr

def TunKey.word : TunKey → TunWord
  | .vxlanTunId => .first
  | .greKey => .second
  | .gtpTeid => .first

def parseTunTypeString (tunTypeStr : List Char) : Except DocaError TunType :=
  if tunTypeStr = "vxlan".toList then .ok .vxlan
  else if tunTypeStr = "gtpu".toList then .ok .gtpu
  else if tunTypeStr = "gre".toList then .ok .gre
  else .error .invalidValue

def parseIpType (ipTypeStr : List Char) : Except DocaError L3Type :=
  if ipTypeStr = "ipv4".toList then .ok .ip4
  else if ipTypeStr = "ipv6".toList then .ok .ip6
  else .error .invalidValue

def parseL3Type (l3TypeStr : List Char) : Except DocaError L3Type :=
  if l3TypeStr = "ipv4".toList then .ok .ip4
  else if l3TypeStr = "ipv6".toList then .ok .ip6
  else .error .invalidValue

def parseTcpFlagString (tcpFlagStr : List Char) : Except DocaError (BitVec 8) :=
  if tcpFlagStr = "FIN".toList then .ok (1 <<< 0)
  else if tcpFlagStr = "SYN".toList then .ok (1 <<< 1)
  else if tcpFlagStr = "RST".toList then .ok (1 <<< 2)
  else if tcpFlagStr = "PSH".toList then .ok (1 <<< 3)
  else if tcpFlagStr = "ACK".toList then .ok (1 <<< 4)
  else if tcpFlagStr = "URG".toList then .ok (1 <<< 5)
  else if tcpFlagStr = "ECE".toList then .ok (1 <<< 6)
  else if tcpFlagStr = "CWR".toList then .ok (1 <<< 7)
  else .error .invalidValue

def parseBoolString (boolStr : List Char) : Except DocaError Bool :=
  if boolStr = "true".toList then .ok true
  else if boolStr = "false".toList then .ok false
  else .error .invalidValue

/-- What a call does to a structure. It may fail with part of a field written; there is no
result when it would read behind the end of a text. -/
abbrev Filled (S : Type) : Type := Option (Except DocaError Unit × S)

section Store

variable {M : Type} [DecidableEq M] {V : M → Type}

/-- A field is stored when its value could be parsed. -/
def store (m : M) (value : Except DocaError (V m)) (s : (m : M) → V m) :
    Filled ((m : M) → V m) :=
  match value with
  | .ok v => some (.ok (), assign s ⟨m, v⟩)
  | .error e => some (.error e, s)

/-- An array is written while it is parsed. -/
def storeArray (m : M) (written : Except DocaError Unit × V m) (s : (m : M) → V m) :
    Filled ((m : M) → V m) :=
  some (written.1, assign s ⟨m, written.2⟩)

end Store

/-- The members of a match that fields are stored in. The ports of a layer are the same in its
TCP and its UDP header; the addresses of the two IP versions also share their storage, but a
layer has one version and they are kept apart here. -/
inductive MatchMember where
  | flags
  | portMeta
  | ethMac (l : Layer) (side : Side)
  | ethType (l : Layer)
  | vlanTci (l : Layer) (i : Fin 2)
  | l3Type (l : Layer)
  | ip4Addr (l : Layer) (side : Side)
  | ip6Addr (l : Layer) (side : Side)
  | l4TypeExt (l : Layer)
  | tcpFlags (l : Layer)
  | l4Port (l : Layer) (side : Side)
  | tunType
  | tunWord (word : TunWord)
  deriving DecidableEq, Repr

abbrev MatchMember.Value : MatchMember → Type
  | .flags => BitVec 32
  | .portMeta => BitVec 32
  | .ethMac _ _ => List (BitVec 8)
  | .ethType _ => BitVec 16
  | .vlanTci _ _ => BitVec 16
  | .l3Type _ => L3Type
  | .ip4Addr _ _ => BitVec 32
  | .ip6Addr _ _ => List (BitVec 32)
  | .l4TypeExt _ => L4TypeExt
  | .tcpFlags _ => BitVec 8
  | .l4Port _ _ => BitVec 16
  | .tunType => TunType
  | .tunWord _ => BitVec 32

abbrev Match := (m : MatchMember) → m.Value

def zeroMatch : Match
  | .flags => 0
  | .portMeta => 0
  | .ethMac _ _ => List.replicate 6 0
  | .ethType _ => 0
  | .vlanTci _ _ => 0
  | .l3Type _ => .none
  | .ip4Addr _ _ => 0
  | .ip6Addr _ _ => List.replicate 4 0
  | .l4TypeExt _ => .none
  | .tcpFlags _ => 0
  | .l4Port _ _ => 0
  | .tunType => .none
  | .tunWord _ => 0

/-- The fields of a match by their names. -/
inductive MatchField where
  | flags
  | portMeta
  | mac (l : Layer) (side : Side)
  | ethType (l : Layer)
  | vlanTci (l : Layer) (i : Fin 2)
  | l3Type (l : Layer)
  | ipAddr (l : Layer) (side : Side)
  | l4TypeExt (l : Layer)
  | tcpFlags (l : Layer)
  | port (l : Layer) (header : L4Header) (side : Side)
  | tunType
  | tunKey (key : TunKey)
  deriving DecidableEq, Repr

def MatchField.ofName : String → Option MatchField
  | "flags" => some .flags
  | "port_meta" => some .portMeta
  | "outer.eth.src_mac" => some (.mac .outer .src)
  | "outer.eth.dst_mac" => some (.mac .outer .dst)
  | "outer.eth.type" => some (.ethType .outer)
  | "outer.eth_vlan[0].tci" => some (.vlanTci .outer 0)
  | "outer.eth_vlan[1].tci" => some (.vlanTci .outer 1)
  | "outer.l3_type" => some (.l3Type .outer)
  | "outer.src_ip_addr" => some (.ipAddr .outer .src)
  | "outer.dst_ip_addr" => some (.ipAddr .outer .dst)
  | "outer.l4_type_ext" => some (.l4TypeExt .outer)
  | "outer.tcp.flags" => some (.tcpFlags .outer)
  | "outer.tcp_src_port" => some (.port .outer .tcp .src)
  | "outer.tcp_dst_port" => some (.port .outer .tcp .dst)
  | "outer.udp_src_port" => some (.port .outer .udp .src)
  | "outer.udp_dst_port" => some (.port .outer .udp .dst)
  | "tun_type" => some .tunType
  | "vxlan_tun_id" => some (.tunKey .vxlanTunId)
  | "gre_key" => some (.tunKey .greKey)
  | "gtp_teid" => some (.tunKey .gtpTeid)
  | "inner.eth.src_mac" => some (.mac .inner .src)
  | "inner.eth.dst_mac" => some (.mac .inner .dst)
  | "inner.eth.type" => some (.ethType .inner)
  | "inner.eth_vlan[0].tci" => some (.vlanTci .inner 0)
  | "inner.eth_vlan[1].tci" => some (.vlanTci .inner 1)
  | "inner.l3_type" => some (.l3Type .inner)
  | "inner.src_ip_addr" => some (.ipAddr .inner .src)
  | "inner.dst_ip_addr" => some (.ipAddr .inner .dst)
  | "inner.l4_type_ext" => some (.l4TypeExt .inner)
  | "inner.tcp.flags" => some (.tcpFlags .inner)
  | "inner.tcp_src_port" => some (.port .inner .tcp .src)
  | "inner.tcp_dst_port" => some (.port .inner .tcp .dst)
  | "inner.udp_src_port" => some (.port .inner .udp .src)
  | "inner.udp_dst_port" => some (.port .inner .udp .dst)
  | _ => none

/-- The addresses of a layer are parsed as its type says, which has to be set before. The ports
of both layers are stored in the outer one. -/
def setMatchField (field : MatchField) (value : List Char) (s : Match) : Filled Match :=
  match field with
  | .flags => store .flags (.ok (BitVec.ofInt 32 (strtol value hexadecimalBase).1)) s
  | .portMeta => store .portMeta (.ok (BitVec.ofInt 32 (strtol value 0).1)) s
  | .mac l side => storeArray (.ethMac l side) (parseMacAddress value (s (.ethMac l side))) s
  | .ethType l => store (.ethType l) (.ok (BitVec.ofInt 16 (strtol value hexadecimalBase).1)) s
  | .vlanTci l i => store (.vlanTci l i) (.ok (BitVec.ofInt 16 (strtol value 0).1)) s
  | .l3Type l => store (.l3Type l) (parseL3Type value) s
  | .ipAddr l side =>
    match s (.l3Type l) with
    | .ip4 => store (.ip4Addr l side) (parseIpv4Str value) s
    | .ip6 => (parseIpv6Str (some value) (s (.ip6Addr l side))).bind fun written =>
      storeArray (.ip6Addr l side) written s
    | .none => some (.error .invalidValue, s)
  | .l4TypeExt l => store (.l4TypeExt l) (parseProtocolString value) s
  | .tcpFlags l => store (.tcpFlags l) (parseTcpFlagString value) s
  | .port .outer _ side =>
    store (.l4Port .outer side) (.ok (rteCpuToBe16 (BitVec.ofInt 16 (strtol value 0).1))) s
  | .port .inner _ side =>
    store (.l4Port .outer side) (.ok (rteCpuToBe16 (BitVec.ofInt 16 (strtol value 0).1))) s
  | .tunType => store .tunType (parseTunTypeString value) s
  | .tunKey key => store (.tunWord key.word) (.ok (BitVec.ofInt 32 (strtol value 0).1)) s

def parseMatchField (fieldName : String) (value : List Char) (s : Match) : Filled Match :=
  match MatchField.ofName fieldName with
  | some field => setMatchField field value s
  | none => some (.error .invalidValue, s)

/-- The fields of the firewall, whose addresses are all of version 4. -/
def parseFwMatchField (fieldName : String) (value : List Char) (s : Match) : Filled Match :=
  let s := assign s ⟨.l3Type .outer, .ip4⟩
  let setPort (side : Side) :=
    store (.l4Port .outer side) (.ok (rteCpuToBe16 (BitVec.ofInt 16 (strtol value 0).1))) s
  match fieldName with
  | "outer.src_ip_addr" => store (.ip4Addr .outer .src) (parseIpv4Str value) s
  | "outer.dst_ip_addr" => store (.ip4Addr .outer .dst) (parseIpv4Str value) s
  | "outer.l4_type_ext" => store (.l4TypeExt .outer) (parseProtocolString value) s
  | "outer.tcp_src_port" => setPort .src
  | "outer.tcp_dst_port" => setPort .dst
  | "outer.udp_src_port" => setPort .src
  | "outer.udp_dst_port" => setPort .dst
  | _ => some (.error .invalidValue, s)

/-- A list of fields, until one fails. -/
def fillFields {N S : Type} (fillStruct : N → List Char → S → Filled S) :
    List (N × List Char) → S → Filled S
  | [], s => some (.ok (), s)
  | (fieldName, value) :: fields, s =>
    match fillStruct fieldName value s with
    | some (.ok (), s) => fillFields fillStruct fields s
    | stopped => stopped

/-- The members of the actions that fields are stored in. -/
inductive ActionsMember where
  | decap
  | hasEncap
  | ethMac (h : Header) (side : Side)
  | l3Type (h : Header)
  | ip4Addr (h : Header) (side : Side)
  | ip6Addr (h : Header) (side : Side)
  | ip4Ttl
  | l4TypeExt
  | l4Port (side : Side)
  | tunType
  | tunWord (word : TunWord)
  deriving DecidableEq, Repr

abbrev ActionsMember.Value : ActionsMember → Type
  | .decap => Bool
  | .hasEncap => Bool
  | .ethMac _ _ => List (BitVec 8)
  | .l3Type _ => L3Type
  | .ip4Addr _ _ => BitVec 32
  | .ip6Addr _ _ => List (BitVec 32)
  | .ip4Ttl => BitVec 8
  | .l4TypeExt => L4TypeExt
  | .l4Port _ => BitVec 16
  | .tunType => TunType
  | .tunWord _ => BitVec 32

abbrev Actions := (m : ActionsMember) → m.Value

def zeroActions : Actions
  | .decap => false
  | .hasEncap => false
  | .ethMac _ _ => List.replicate 6 0
  | .l3Type _ => .none
  | .ip4Addr _ _ => 0
  | .ip6Addr _ _ => List.replicate 4 0
  | .ip4Ttl => 0
  | .l4TypeExt => .none
  | .l4Port _ => 0
  | .tunType => .none
  | .tunWord _ => 0

/-- The fields of the actions by their names. -/
inductive ActionsField where
  | decap
  | hasEncap
  | mac (h : Header) (side : Side)
  | l3Type
  | encapIpType (side : Side)
  | ipAddr (h : Header) (side : Side)
  | ip4Ttl
  | l4TypeExt
  | port (header : L4Header) (side : Side)
  | tunType
  | tunKey (key : TunKey)
  deriving DecidableEq, Repr

def ActionsField.ofName : String → Option ActionsField
  | "decap" => some .decap
  | "outer.eth.src_mac" => some (.mac .outer .src)
  | "outer.eth.dst_mac" => some (.mac .outer .dst)
  | "outer.l3_type" => some .l3Type
  | "outer.src_ip_addr" => some (.ipAddr .outer .src)
  | "outer.dst_ip_addr" => some (.ipAddr .outer .dst)
  | "outer.l4_type_ext" => some .l4TypeExt
  | "outer.tcp_src_port" => some (.port .tcp .src)
  | "outer.tcp_dst_port" => some (.port .tcp .dst)
  | "outer.udp_src_port" => some (.port .udp .src)
  | "outer.udp_dst_port" => some (.port .udp .dst)
  | "outer.ip4.ttl" => some .ip4Ttl
  | "has_encap" => some .hasEncap
  | "encap_src_mac" => some (.mac .encap .src)
  | "encap_dst_mac" => some (.mac .encap .dst)
  | "encap_src_ip_type" => some (.encapIpType .src)
  | "encap_src_ip_addr" => some (.ipAddr .encap .src)
  | "encap_dst_ip_type" => some (.encapIpType .dst)
  | "encap_dst_ip_addr" => some (.ipAddr .encap .dst)
  | "encap_tun_type" => some .tunType
  | "encap_vxlan_tun_id" => some (.tunKey .vxlanTunId)
  | "encap_gre_key" => some (.tunKey .greKey)
  | "encap_gtp_teid" => some (.tunKey .gtpTeid)
  | _ => none

/-- Both types of the encapsulation's addresses are one member. The ports are stored in the byte
order of the host. -/
def setActionsField (field : ActionsField) (value : List Char) (s : Actions) : Filled Actions :=
  match field with
  | .decap => store .decap (parseBoolString value) s
  | .hasEncap => store .hasEncap (parseBoolString value) s
  | .mac h side => storeArray (.ethMac h side) (parseMacAddress value (s (.ethMac h side))) s
  | .l3Type => store (.l3Type .outer) (parseIpType value) s
  | .encapIpType _ => store (.l3Type .encap) (parseIpType value) s
  | .ipAddr h side =>
    match s (.l3Type h) with
    | .ip4 => store (.ip4Addr h side) (parseIpv4Str value) s
    | .ip6 => (parseIpv6Str (some value) (s (.ip6Addr h side))).bind fun written =>
      storeArray (.ip6Addr h side) written s
    | .none => some (.error .invalidValue, s)
  | .ip4Ttl => store .ip4Ttl (.ok (BitVec.ofInt 8 (strtol value 0).1)) s
  | .l4TypeExt => store .l4TypeExt (parseProtocolString value) s
  | .port _ side => store (.l4Port side) (.ok (BitVec.ofInt 16 (strtol value 0).1)) s
  | .tunType => store .tunType (parseTunTypeString value) s
  | .tunKey key => store (.tunWord key.word) (.ok (BitVec.ofInt 32 (strtol value 0).1)) s

def parseActionsField (fieldName : String) (value : List Char) (s : Actions) : Filled Actions :=
  match ActionsField.ofName fieldName with
  | some field => setActionsField field value s
  | none => some (.error .invalidValue, s)

end DocaApps.Common.StructFields
