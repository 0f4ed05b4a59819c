import DocaApps.Proofs.MatchFields

namespace DocaApps.Proofs.ActionsFields
open Common.FlowPipe (L3Type L4TypeExt rteCpuToBe16 rteCpuToBe32)
open Common.FlowParser Common.StructFields Lib.Numerals Lib.Members
open Proofs.AddressTexts Proofs.StructFields
open Proofs.MatchFields (sideName l4HeaderName tunKeyName ofInt_strtol)

variable {types : Header → L3Type} {p q : ActionsField × List Char}
  {L L' : List (ActionsField × List Char)} {w w' : Sigma ActionsMember.Value} {s : Actions}

def fieldName : ActionsField → String
  | .decap => "decap"
  | .hasEncap => "has_encap"
  | .mac .outer side => "outer.eth." ++ sideName side ++ "_mac"
  | .mac .encap side => "encap_" ++ sideName side ++ "_mac"
  | .l3Type => "outer.l3_type"
  | .encapIpType side => "encap_" ++ sideName side ++ "_ip_type"
  | .ipAddr .outer side => "outer." ++ sideName side ++ "_ip_addr"
  | .ipAddr .encap side => "encap_" ++ sideName side ++ "_ip_addr"
  | .ip4Ttl => "outer.ip4.ttl"
  | .l4TypeExt => "outer.l4_type_ext"
  | .port header side => "outer." ++ l4HeaderName header ++ "_" ++ sideName side ++ "_port"
  | .tunType => "encap_tun_type"
  | .tunKey key => "encap_" ++ tunKeyName key

theorem ofName_fieldName (f : ActionsField) : ActionsField.ofName (fieldName f) = some f := by
  cases f with
  | decap => rfl
  | hasEncap => rfl
  | mac h side => cases h <;> cases side <;> rfl
  | l3Type => rfl
  | encapIpType side => cases side <;> rfl
  | ipAddr h side => cases h <;> cases side <;> rfl
  | ip4Ttl => rfl
  | l4TypeExt => rfl
  | port header side => cases header <;> cases side <;> rfl
  | tunType => rfl
  | tunKey key => cases key <;> rfl

/-- The fields have no other names than these. -/
theorem eq_fieldName {name : String} {f : ActionsField} (h : ActionsField.ofName name = some f) :
    name = fieldName f := by
  unfold ActionsField.ofName at h
  split at h <;> cases h <;> rfl

/-- What a pair says: the member that the field stands for, and its value. `types` is the IP
version of the outer header and of the encapsulation. -/
inductive Names (types : Header → L3Type) :
    ActionsField × List Char → Sigma ActionsMember.Value → Prop where
  | decap {text : List Char} {v : Bool} (h : (text, v) ∈ boolNames) :
      Names types (.decap, text) ⟨.decap, v⟩
  | hasEncap {text : List Char} {v : Bool} (h : (text, v) ∈ boolNames) :
      Names types (.hasEncap, text) ⟨.hasEncap, v⟩
  | mac {hdr : Header} {side : Side} {text : List Char} {bytes : List Nat}
      (h : MacText text bytes) :
      Names types (.mac hdr side, text) ⟨.ethMac hdr side, bytes.map (BitVec.ofNat 8)⟩
  | l3Type {text : List Char} (h : (text, types .outer) ∈ l3Names) :
      Names types (.l3Type, text) ⟨.l3Type .outer, types .outer⟩
  | encapIpType {side : Side} {text : List Char} (h : (text, types .encap) ∈ l3Names) :
      Names types (.encapIpType side, text) ⟨.l3Type .encap, types .encap⟩
  | ip4Addr {hdr : Header} {side : Side} {text : List Char} {addr : BitVec 32}
      (version : types hdr = .ip4) (h : Ipv4Value text addr) :
      Names types (.ipAddr hdr side, text) ⟨.ip4Addr hdr side, addr⟩
  | ip6Addr {hdr : Header} {side : Side} {text : List Char} {groups : List Nat}
      (version : types hdr = .ip6) (h : Ipv6Text text groups) :
      Names types (.ipAddr hdr side, text) ⟨.ip6Addr hdr side, ip6Words groups⟩
  | ip4Ttl {text : List Char} {n : Nat} (version : types .outer ≠ .ip6) (h : CNumber text n)
      (range : n < 2 ^ 8) : Names types (.ip4Ttl, text) ⟨.ip4Ttl, BitVec.ofNat 8 n⟩
  | l4TypeExt {text : List Char} {v : L4TypeExt} (h : (text, v) ∈ l4Names) :
      Names types (.l4TypeExt, text) ⟨.l4TypeExt, v⟩
  | port {header : L4Header} {side : Side} {text : List Char} {n : Nat} (h : CNumber text n)
      (range : n < 2 ^ 16) :
      Names types (.port header side, text) ⟨.l4Port side, rteCpuToBe16 (BitVec.ofNat 16 n)⟩
  | tunType {text : List Char} {v : TunType} (h : (text, v) ∈ tunNames) :
      Names types (.tunType, text) ⟨.tunType, v⟩
  | tunKey {key : TunKey} {text : List Char} {n : Nat} (h : CNumber text n) (range : n < 2 ^ 32) :
      Names types (.tunKey key, text) ⟨.tunWord key.word, BitVec.ofNat 32 n⟩

/-- The fields that give the IP version of a header. -/
def IsType : Header → ActionsField → Prop
  | .outer, f => f = .l3Type
  | .encap, f => ∃ side, f = .encapIpType side

/-- An address waits for the types of its header. -/
def Needs (p q : ActionsField × List Char) : Prop :=
  ∃ hdr side, p.1 = .ipAddr hdr side ∧ IsType hdr q.1

structure Admissible (types : Header → L3Type) (L : List (ActionsField × List Char)) : Prop where
  distinct : (L.map Prod.fst).Nodup
  inRange : ∀ p ∈ L, ∃ w, Names types p w
  typed : ∀ hdr side, .ipAddr hdr side ∈ L.map Prod.fst → ∃ q ∈ L, IsType hdr q.1
  typesFirst : L.Pairwise fun p q => ¬ Needs p q
  oneL4 : ∀ side side', .port .udp side ∈ L.map Prod.fst → .port .tcp side' ∉ L.map Prod.fst

/-- Whatever admissible order the pairs come in, the same actions are filled: every named member
holds its value and every other one is still zero. -/
def FieldsLand (types : Header → L3Type) (L : List (ActionsField × List Char)) : Prop :=
  ∃ r : Actions,
    (∀ L' : List (ActionsField × List Char), L'.Perm L → (L'.Pairwise fun p q => ¬ Needs p q) →
      fillFields parseActionsField (L'.map fun p => (fieldName p.1, p.2)) zeroActions =
        some (.ok (), r)) ∧
    (∀ p ∈ L, ∀ w, Names types p w → r w.1 = w.2) ∧
    ∀ m, (∀ p ∈ L, ∀ w, Names types p w → w.1 ≠ m) → r m = zeroActions m

/-- The hexadecimal numbers are zero, the ports are the same in both byte orders, and two tunnel
keys in one word are equal. -/
structure Sound (types : Header → L3Type) (L : List (ActionsField × List Char)) : Prop where
  macs : ∀ hdr side text, (.mac hdr side, text) ∈ L → MacText text (List.replicate 6 0)
  ip6Addrs : ∀ hdr side text, (.ipAddr hdr side, text) ∈ L → types hdr = .ip6 →
    Ipv6Text text (List.replicate 8 0)
  ports : ∀ header side text, (.port header side, text) ∈ L →
    ∃ n, CNumber text n ∧ n / 256 = n % 256
  tunKeys : ∀ key key' text text', (.tunKey key, text) ∈ L → (.tunKey key', text') ∈ L →
    key.word = key'.word → ∃ n, CNumber text n ∧ CNumber text' n

theorem Names.unique (h : Names types p w) (h' : Names types p w') : w = w' := by
  cases h with
  | decap h =>
    cases h' with
    | decap h' => rw [Except.ok.inj ((parseBoolString_name h).symm.trans (parseBoolString_name h'))]
  | hasEncap h =>
    cases h' with
    | hasEncap h' =>
      rw [Except.ok.inj ((parseBoolString_name h).symm.trans (parseBoolString_name h'))]
  | mac h =>
    cases h' with
    | mac h' => rw [h.2.unique h'.2 (by decide)]
  | l3Type h =>
    cases h' with
    | l3Type h' => rfl
  | encapIpType h =>
    cases h' with
    | encapIpType h' => rfl
  | ip4Addr version h =>
    cases h' with
    | ip4Addr version' h' => rw [Except.ok.inj (h.parse.symm.trans h'.parse)]
    | ip6Addr version' h' => simp [version] at version'
  | ip6Addr version h =>
    cases h' with
    | ip4Addr version' h' => simp [version] at version'
    | ip6Addr version' h' => rw [h.2.unique h'.2 (by decide)]
  | ip4Ttl version h =>
    cases h' with
    | ip4Ttl version' h' => rw [h.unique h']
  | l4TypeExt h =>
    cases h' with
    | l4TypeExt h' =>
      rw [Except.ok.inj ((parseProtocolString_name h).symm.trans (parseProtocolString_name h'))]
  | port h =>
    cases h' with
    | port h' => rw [h.unique h']
  | tunType h =>
    cases h' with
    | tunType h' =>
      rw [Except.ok.inj ((parseTunTypeString_name h).symm.trans (parseTunTypeString_name h'))]
  | tunKey h =>
    cases h' with
    | tunKey h' => rw [h.unique h']

/-- What the code assigns where a value is named. -/
def actionsStored : Sigma ActionsMember.Value → Sigma ActionsMember.Value
  | ⟨.ethMac hdr side, _⟩ => ⟨.ethMac hdr side, List.replicate 6 0⟩
  | ⟨.ip6Addr hdr side, _⟩ => ⟨.ip6Addr hdr side, List.replicate 4 0⟩
  | ⟨.l4Port side, v⟩ => ⟨.l4Port side, rteCpuToBe16 v⟩
  | w => w

/-- The arrays of addresses have their lengths. -/
def Sized : (m : ActionsMember) → m.Value → Prop
  | .ethMac _ _, v => v.length = 6
  | .ip6Addr _ _, v => v.length = 4
  | _, _ => True

theorem setActionsField_names (h : Names types p w) (hsized : ∀ m, Sized m (s m))
    (htype : ∀ hdr side, p.1 = .ipAddr hdr side → s (.l3Type hdr) = types hdr) :
    setActionsField p.1 p.2 s = some (.ok (), assign s (actionsStored w)) := by
  cases h with
  | decap h =>
    rw [setActionsField, parseBoolString_name h]
    rfl
  | hasEncap h =>
    rw [setActionsField, parseBoolString_name h]
    rfl
  | @mac hdr side text bytes h =>
    have hcolons := h.2.count_sep (by decide)
    have hlen : (s (.ethMac hdr side)).length = 6 := hsized (.ethMac hdr side)
    rw [h.1] at hcolons
    have hmac := parseMacAddress_of_colons (s := text) (hlen.trans_le (by omega))
    rw [hlen] at hmac
    simp only [setActionsField, hmac]
    rfl
  | l3Type h =>
    rw [setActionsField, parseIpType_name h]
    rfl
  | encapIpType h =>
    rw [setActionsField, parseIpType_name h]
    rfl
  | @ip4Addr hdr side text addr version h =>
    have hl3 : s (.l3Type hdr) = .ip4 := (htype hdr side rfl).trans version
    rw [setActionsField, hl3, h.parse]
    rfl
  | @ip6Addr hdr side text groups version h =>
    have hl3 : s (.l3Type hdr) = .ip6 := (htype hdr side rfl).trans version
    have hlen : (s (.ip6Addr hdr side)).length = 4 := hsized (.ip6Addr hdr side)
    rw [setActionsField, hl3, parseIpv6Str_zero, hlen]
    rfl
  | ip4Ttl version h range =>
    rw [setActionsField, ofInt_strtol h (by omega)]
    rfl
  | l4TypeExt h =>
    rw [setActionsField, parseProtocolString_name h]
    rfl
  | port h range =>
    rw [setActionsField, ofInt_strtol h (by omega), actionsStored,
      FlowPipe.rteCpuToBe16_involutive]
    rfl
  | tunType h =>
    rw [setActionsField, parseTunTypeString_name h]
    rfl
  | tunKey h range =>
    rw [setActionsField, ofInt_strtol h (by omega)]
    rfl

theorem parseActionsField_fieldName (f : ActionsField) (text : List Char) (s : Actions) :
    parseActionsField (fieldName f) text s = setActionsField f text s := by
  rw [parseActionsField, ofName_fieldName]

theorem actionsStored_sized (h : Names types p w) :
    Sized (actionsStored w).1 (actionsStored w).2 := by
  cases h <;> trivial

theorem zeroActions_sized (m : ActionsMember) : Sized m (zeroActions m) := by
  cases m <;> trivial

theorem actionsStored_member (w : Sigma ActionsMember.Value) : (actionsStored w).1 = w.1 := by
  obtain ⟨m, v⟩ := w
  cases m <;> rfl

theorem Names.isType {hdr : Header} (h : Names types p w) (ht : IsType hdr p.1) :
    w = ⟨.l3Type hdr, types hdr⟩ := by
  cases h with
  | l3Type h =>
    cases hdr with
    | outer => rfl
    | encap => obtain ⟨side, hside⟩ := ht; cases hside
  | encapIpType h =>
    cases hdr with
    | outer => cases ht
    | encap => rfl
  | _ =>
    cases hdr with
    | outer => cases ht
    | encap => obtain ⟨side, hside⟩ := ht; cases hside

/-- Only the fields of a type write it. -/
theorem stored_l3Type {hdr : Header} (h : Names types p w)
    (hm : (actionsStored w).1 = .l3Type hdr) :
    actionsStored w = ⟨.l3Type hdr, types hdr⟩ := by
  cases h with
  | l3Type h =>
    cases hm
    rfl
  | encapIpType h =>
    cases hm
    rfl
  | _ => cases hm

theorem run_admissible {named : ActionsField × List Char → Sigma ActionsMember.Value}
    (h : Admissible types L) (hnamed : ∀ p ∈ L, Names types p (named p)) (hperm : L'.Perm L)
    (horder : L'.Pairwise fun p q => ¬ Needs p q) :
    fillFields parseActionsField (L'.map fun p => (fieldName p.1, p.2)) zeroActions =
      some (.ok (), assignAll zeroActions (L'.map fun p => actionsStored (named p))) := by
  rw [fillFields_map parseActionsField_fieldName]
  have hmem : ∀ p ∈ L', Names types p (named p) := fun p hp => hnamed p (hperm.mem_iff.mp hp)
  have hset : ∀ p ∈ L', ∀ s : Actions, (∀ m, Sized m (s m)) →
      (∀ hdr, (∃ side, p.1 = .ipAddr hdr side) → s (.l3Type hdr) = types hdr) →
      setActionsField p.1 p.2 s = some (.ok (), assign s (actionsStored (named p))) := by
    intro p hp s hsized htypes
    exact setActionsField_names (hmem p hp) hsized fun hdr side hside => htypes hdr ⟨side, hside⟩
  have htyped : ∀ p ∈ L', ∀ hdr, (∃ side, p.1 = .ipAddr hdr side) →
      ∃ q ∈ L', IsType hdr q.1 := by
    rintro p hp hdr ⟨side, hside⟩
    have hfield : .ipAddr hdr side ∈ L.map Prod.fst := by
      rw [← hside]
      exact List.mem_map_of_mem (hperm.mem_iff.mp hp)
    obtain ⟨q, hq, hqt⟩ := h.typed hdr side hfield
    exact ⟨q, hperm.mem_iff.mpr hq, hqt⟩
  have hpairs : L'.Pairwise fun p q =>
      ∀ hdr, (∃ side, p.1 = .ipAddr hdr side) → ¬ IsType hdr q.1 := by
    apply horder.imp
    rintro p q hneeds hdr ⟨side, hside⟩ hq
    exact hneeds ⟨hdr, side, hside, hq⟩
  have hself : ∀ (hdr : Header) (p : ActionsField × List Char),
      (∃ side, p.1 = .ipAddr hdr side) → ¬ IsType hdr p.1 := by
    rintro hdr p ⟨side, hside⟩ hp
    rw [hside] at hp
    cases hdr with
    | outer => cases hp
    | encap =>
      obtain ⟨side', hside'⟩ := hp
      cases hside'
  have htype : ∀ q ∈ L', ∀ hdr, IsType hdr q.1 →
      actionsStored (named q) = ⟨.l3Type hdr, types hdr⟩ := by
    intro q hq hdr ht
    rw [(hmem q hq).isType ht]
    rfl
  exact fillFields_ordered zeroActions_sized (fun p hp => actionsStored_sized (hmem p hp)) hset
    htyped hpairs hself htype fun q hq hdr hm => stored_l3Type (hmem q hq) hm

/-- The member that a field stands for. -/
def memberOf (types : Header → L3Type) : ActionsField → ActionsMember
  | .decap => .decap
  | .hasEncap => .hasEncap
  | .mac hdr side => .ethMac hdr side
  | .l3Type => .l3Type .outer
  | .encapIpType _ => .l3Type .encap
  | .ipAddr hdr side => if types hdr = .ip6 then .ip6Addr hdr side else .ip4Addr hdr side
  | .ip4Ttl => .ip4Ttl
  | .l4TypeExt => .l4TypeExt
  | .port _ side => .l4Port side
  | .tunType => .tunType
  | .tunKey key => .tunWord key.word

theorem Names.member (h : Names types p w) : w.1 = memberOf types p.1 := by
  cases h with
  | ip4Addr version h => simp [memberOf, version]
  | ip6Addr version h => simp [memberOf, version]
  | _ => rfl

/-- Two fields stand for one member only as ports of one side, as types of the encapsulation or
as keys in one word. -/
theorem memberOf_eq {f g : ActionsField} (h : memberOf types f = memberOf types g) :
    f = g ∨ (∃ side header header', f = .port header side ∧ g = .port header' side) ∨
      (∃ side side', f = .encapIpType side ∧ g = .encapIpType side') ∨
      ∃ key key', f = .tunKey key ∧ g = .tunKey key' ∧ key.word = key'.word := by
  cases f <;> cases g <;> simp only [memberOf, reduceCtorEq] at h
  all_goals grind

theorem eq_of_field (h : Admissible types L) (hp : p ∈ L) (hq : q ∈ L) (hfield : p.1 = q.1) :
    p = q := List.inj_on_of_nodup_map h.distinct hp hq hfield

/-- Two pairs of a list that name one member name the same, but for two keys of the tunnel. -/
theorem same_member (h : Admissible types L) (hp : p ∈ L) (hq : q ∈ L) (hw : Names types p w)
    (hw' : Names types q w') (hm : w.1 = w'.1) :
    w = w' ∨ ∃ key key', p.1 = .tunKey key ∧ q.1 = .tunKey key' ∧ key.word = key'.word := by
  rw [hw.member, hw'.member] at hm
  rcases memberOf_eq hm with hfield | ⟨side, header, header', hport, hport'⟩ |
    ⟨side, side', htype, htype'⟩ | hkeys
  · obtain rfl := eq_of_field h hp hq hfield
    exact Or.inl (hw.unique hw')
  · have hsame : header = header' := by
      have hin := List.mem_map_of_mem (f := Prod.fst) hp
      have hin' := List.mem_map_of_mem (f := Prod.fst) hq
      rw [hport] at hin
      rw [hport'] at hin'
      cases header <;> cases header'
      · rfl
      · exact absurd hin (h.oneL4 side side hin')
      · exact absurd hin' (h.oneL4 side side hin)
      · rfl
    obtain rfl := eq_of_field h hp hq (by rw [hport, hport', hsame])
    exact Or.inl (hw.unique hw')
  · left
    have hencap : IsType .encap p.1 := ⟨side, htype⟩
    have hencap' : IsType .encap q.1 := ⟨side', htype'⟩
    rw [hw.isType hencap, hw'.isType hencap']
  · exact Or.inr hkeys

/-- A port is the same in both byte orders when its two bytes are equal. -/
theorem port_swapped {n : Nat} (hn : n < 2 ^ 16) :
    rteCpuToBe16 (rteCpuToBe16 (BitVec.ofNat 16 n)) = rteCpuToBe16 (BitVec.ofNat 16 n) ↔
      n / 256 = n % 256 := by
  rw [FlowPipe.rteCpuToBe16_inj]
  have hlow : ((BitVec.ofNat 16 n).extractLsb' 0 8).toNat = n % 256 := by
    rw [BitVec.extractLsb'_toNat, BitVec.toNat_ofNat, Nat.shiftRight_zero]
    omega
  have hhigh : ((BitVec.ofNat 16 n).extractLsb' 8 8).toNat = n / 256 := by
    rw [BitVec.extractLsb'_toNat, BitVec.toNat_ofNat, Nat.shiftRight_eq_div_pow]
    omega
  have hwhole : ∀ x : BitVec 16, x.extractLsb' 8 8 ++ x.extractLsb' 0 8 = x := by
    intro x
    have happend : x.extractLsb' 8 8 ++ x.extractLsb' 0 8 = x.extractLsb' 0 16 :=
      BitVec.extractLsb'_append_extractLsb'_eq_extractLsb' rfl
    exact happend.trans BitVec.extractLsb'_eq_self
  constructor
  · intro h
    have hbyte : (rteCpuToBe16 (BitVec.ofNat 16 n)).extractLsb' 0 8 =
        (BitVec.ofNat 16 n).extractLsb' 8 8 := BitVec.extractLsb'_append_eq_right
    rw [← hlow, ← hhigh, ← hbyte, h]
  · intro h
    have hbytes : (BitVec.ofNat 16 n).extractLsb' 0 8 = (BitVec.ofNat 16 n).extractLsb' 8 8 := by
      apply BitVec.eq_of_toNat_eq
      rw [hlow, hhigh, h]
    have hswap : rteCpuToBe16 (BitVec.ofNat 16 n) =
        (BitVec.ofNat 16 n).extractLsb' 0 8 ++ (BitVec.ofNat 16 n).extractLsb' 8 8 := rfl
    rw [hswap, hbytes]
    exact (congrArg _ hbytes).symm.trans (hwhole _)

theorem sound_of_fits {named : ActionsField × List Char → Sigma ActionsMember.Value}
    (hnamed : ∀ p ∈ L, Names types p (named p))
    (h : Fits zeroActions actionsStored (L.map named)) : Sound types L := by
  have hkept : ∀ {f : ActionsField} {text : List Char}, (f, text) ∈ L → ∃ w,
      Names types (f, text) w ∧ w = actionsStored w := by
    intro f text hp
    have hin := List.mem_map_of_mem (f := named) hp
    exact ⟨_, hnamed _ hp, h.named _ hin _ hin (actionsStored_member _).symm⟩
  constructor
  · intro hdr side text hp
    obtain ⟨w, hw, hsame⟩ := hkept hp
    cases hw with
    | mac htext =>
      have hzero := value_eq hsame
      rwa [zeros_of_map htext.1 htext.2.bounded hzero] at htext
  · intro hdr side text hp version
    obtain ⟨w, hw, hsame⟩ := hkept hp
    cases hw with
    | ip4Addr version' htext => simp [version] at version'
    | ip6Addr version' htext =>
      have hzero := value_eq hsame
      rw [ip6Words_zero htext.1 htext.2.bounded] at hzero
      rwa [hzero] at htext
  · intro header side text hp
    obtain ⟨w, hw, hsame⟩ := hkept hp
    cases hw with
    | @port _ _ _ n hn range =>
      exact ⟨n, hn, (port_swapped range).mp (value_eq hsame).symm⟩
  · intro key key' text text' hp hp' hword
    have heq := h.consistent _ (List.mem_map_of_mem hp) _ (List.mem_map_of_mem hp')
    have hw := hnamed _ hp
    have hw' := hnamed _ hp'
    generalize named (.tunKey key, text) = w at hw heq
    generalize named (.tunKey key', text') = w' at hw' heq
    cases hw with
    | tunKey hn range =>
      cases hw' with
      | @tunKey _ _ n' hn' range' =>
        have hvalue : BitVec.ofNat 32 _ = BitVec.ofNat 32 n' :=
          eq_of_heq (Sigma.mk.inj (heq (congrArg ActionsMember.tunWord hword))).2
        rw [ofNat_inj range range' hvalue] at hn
        exact ⟨n', hn, hn'⟩

/-- In a sound list the code stores what is named. -/
theorem stored_of_sound (hsound : Sound types L) (hp : p ∈ L) (hw : Names types p w) :
    actionsStored w = w := by
  cases hw with
  | @mac hdr side text bytes htext =>
    have hzero := hsound.macs hdr side text hp
    rw [htext.2.unique hzero.2 (by decide)]
    rfl
  | @ip6Addr hdr side text groups version htext =>
    have hzero := hsound.ip6Addrs hdr side text hp version
    rw [htext.2.unique hzero.2 (by decide)]
    rfl
  | @port header side text n hn range =>
    obtain ⟨m, hm, hbytes⟩ := hsound.ports header side text hp
    rw [hm.unique hn] at hbytes
    rw [actionsStored, (port_swapped range).mpr hbytes]
  | _ => rfl

theorem fits_of_sound {named : ActionsField × List Char → Sigma ActionsMember.Value}
    (h : Admissible types L) (hnamed : ∀ p ∈ L, Names types p (named p)) (hsound : Sound types L) :
    Fits zeroActions actionsStored (L.map named) := by
  have hof : ∀ w ∈ L.map named, ∃ p ∈ L, Names types p w := by
    intro w hw
    obtain ⟨p, hp, rfl⟩ := List.mem_map.mp hw
    exact ⟨p, hp, hnamed p hp⟩
  have hsame : ∀ w ∈ L.map named, actionsStored w = w := by
    intro w hw
    obtain ⟨p, hp, hnames⟩ := hof w hw
    exact stored_of_sound hsound hp hnames
  have hconsistent : ∀ w ∈ L.map named, ∀ w' ∈ L.map named, w.1 = w'.1 → w = w' := by
    intro w hw w' hw' hm
    obtain ⟨⟨f, text⟩, hp, hnames⟩ := hof w hw
    obtain ⟨⟨g, text'⟩, hq, hnames'⟩ := hof w' hw'
    rcases same_member h hp hq hnames hnames' hm with heq | ⟨key, key', rfl, rfl, hword⟩
    · exact heq
    · obtain ⟨n, hn, hn'⟩ := hsound.tunKeys key key' text text' hp hq hword
      cases hnames with
      | tunKey hkey =>
        cases hnames' with
        | tunKey hkey' => rw [hkey.unique hn, hkey'.unique hn', hword]
  constructor
  · exact hconsistent
  · intro w hw w' hw' hm
    rw [hsame w hw] at hm ⊢
    exact hconsistent w' hw' w hw hm
  · intro w hw hnone
    exact absurd (by rw [hsame w hw]) (hnone w hw)
  · intro w hw hnone
    exact absurd (by rw [hsame w hw]) (hnone w hw)

theorem fieldsLand_iff (h : Admissible types L) : FieldsLand types L ↔ Sound types L := by
  have hex : ∀ p, ∃ w, p ∈ L → Names types p w := by
    intro p
    by_cases hp : p ∈ L
    · obtain ⟨w, hw⟩ := h.inRange p hp
      exact ⟨w, fun _ => hw⟩
    · exact ⟨⟨.decap, false⟩, fun hin => absurd hin hp⟩
  choose named hnamed using hex
  have hlast : ∀ p ∈ L, actionsStored (named p) = named p ∨ ∀ q, ¬ Needs q p := by
    intro p hp
    by_cases htype : ∃ hdr, IsType hdr p.1
    · obtain ⟨hdr, ht⟩ := htype
      rw [(hnamed p hp).isType ht]
      exact Or.inl rfl
    · right
      rintro q ⟨hdr, side, -, ht⟩
      exact htype ⟨hdr, ht⟩
  have hiff : FieldsLand types L ↔ Fits zeroActions actionsStored (L.map named) :=
    land_iff (fun p hp w => ⟨fun hw => hw.unique (hnamed p hp), fun hw => hw ▸ hnamed p hp⟩)
      (fun _ hperm horder => run_admissible h hnamed hperm horder) h.typesFirst hlast
  exact hiff.trans ⟨sound_of_fits hnamed, fits_of_sound h hnamed⟩

/-- Which lists of fields land where they are named, in a match and in actions. -/
theorem create_fields_land_iff (layerTypes : Layer → L3Type) (headerTypes : Header → L3Type)
    (matched : List (MatchField × List Char)) (acted : List (ActionsField × List Char))
    (hmatched : MatchFields.Admissible layerTypes matched)
    (hacted : Admissible headerTypes acted) :
    (MatchFields.FieldsLand layerTypes matched ↔ MatchFields.Sound layerTypes matched) ∧
      (FieldsLand headerTypes acted ↔ Sound headerTypes acted) :=
  ⟨MatchFields.fieldsLand_iff hmatched, fieldsLand_iff hacted⟩

theorem cNumber_toDigits {n : Nat} (h : (Nat.toDigits 10 n).head? ≠ some '0') :
    CNumber (Nat.toDigits 10 n) n := .decimal (numeral_toDigits n) h

theorem matchPort_admissible {l : Layer} {header : L4Header} {side : Side} {text : List Char}
    {n : Nat} (h : CNumber text n) (range : n < 2 ^ 16) :
    MatchFields.Admissible (fun _ => .none) [(.port l header side, text)] where
  distinct := by simp
  inRange := by
    intro p hp
    rw [List.mem_singleton.mp hp]
    exact ⟨_, .port h range⟩
  typed := by simp
  typesFirst := List.pairwise_singleton _ _
  oneL4 := by
    simp +contextual
    rintro _ _ _ - rfl - h
    cases h

theorem actionsPort_admissible {header : L4Header} {side : Side} {text : List Char} {n : Nat}
    (h : CNumber text n) (range : n < 2 ^ 16) :
    Admissible (fun _ => .none) [(.port header side, text)] where
  distinct := by simp
  inRange := by
    intro p hp
    rw [List.mem_singleton.mp hp]
    exact ⟨_, .port h range⟩
  typed := by simp
  typesFirst := List.pairwise_singleton _ _
  oneL4 := by
    simp +contextual
    rintro _ _ rfl - h
    cases h

/-- A port of the outer layer lands in a match, and one with two equal bytes in actions. -/
theorem create_fields_land_ports :
    MatchFields.FieldsLand (fun _ => .none) [(.port .outer .tcp .dst, Nat.toDigits 10 80)] ∧
      FieldsLand (fun _ => .none) [(.port .tcp .dst, Nat.toDigits 10 257)] := by
  have hmatch : CNumber (Nat.toDigits 10 80) 80 := cNumber_toDigits (by decide)
  have hactions : CNumber (Nat.toDigits 10 257) 257 := cNumber_toDigits (by decide)
  have hmatched : MatchFields.Admissible (fun _ => .none)
      [(.port .outer .tcp .dst, Nat.toDigits 10 80)] := matchPort_admissible hmatch (by decide)
  have hacted : Admissible (fun _ => .none) [(.port .tcp .dst, Nat.toDigits 10 257)] :=
    actionsPort_admissible hactions (by decide)
  obtain ⟨hland, hland'⟩ := create_fields_land_iff _ _ _ _ hmatched hacted
  constructor
  · apply hland.mpr
    constructor <;> simp
  · apply hland'.mpr
    constructor
    · simp
    · simp
    · intro header side text hp
      simp only [List.mem_singleton, Prod.mk.injEq] at hp
      exact ⟨257, hp.2 ▸ hactions, by decide⟩
    · simp

/-- Port 80 of the inner layer is not where it is named, and as an action it is another port. -/
theorem ports_astray :
    ¬ MatchFields.FieldsLand (fun _ => .none) [(.port .inner .tcp .dst, Nat.toDigits 10 80)] ∧
      ¬ FieldsLand (fun _ => .none) [(.port .tcp .dst, Nat.toDigits 10 80)] := by
  have hnumber : CNumber (Nat.toDigits 10 80) 80 := cNumber_toDigits (by decide)
  constructor
  · rw [MatchFields.fieldsLand_iff (matchPort_admissible hnumber (by decide))]
    intro h
    have hzero := (h.innerPorts .tcp .dst _ List.mem_cons_self).1
    exact absurd (hnumber.unique hzero) (by decide)
  · rw [fieldsLand_iff (actionsPort_admissible hnumber (by decide))]
    intro h
    obtain ⟨n, hn, hbytes⟩ := h.ports .tcp .dst _ List.mem_cons_self
    rw [← hnumber.unique hn] at hbytes
    exact absurd hbytes (by decide)

end DocaApps.Proofs.ActionsFields
