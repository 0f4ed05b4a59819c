import DocaApps.Ipsec.PolicyRecord
import DocaApps.Proofs.PolicyRun

namespace DocaApps.Proofs.PolicyParse
open Common.Pack Lib.Endings Ipsec.Rules Ipsec.FlowCommon Ipsec.Config Ipsec.Policy
open Ipsec.PolicySocket Ipsec.PolicyRecord

variable {libs : Libs} {cfg : Config} {p : IpsecPolicy} {g : Gateway} {slot : Nat}
  {T : List (Ip6Addr × Nat)}

/-- The gateway with another encrypt rule in the slot and another table. -/
def encryptAt (g : Gateway) (slot : Nat) (r : EncryptRule) (T : List (Ip6Addr × Nat)) : Gateway :=
  { g with encryptRules := g.encryptRules.set slot r, ip6Table := T }

def decryptAt (g : Gateway) (slot : Nat) (r : DecryptRule) : Gateway :=
  { g with decryptRules := g.decryptRules.set slot r }

theorem modify_set {α : Type} (l : List α) (i : Nat) (a : α) (f : α → α) :
    (l.set i a).modify i f = l.set i (f a) := by
  induction l generalizing i with
  | nil => simp
  | cons b l ih =>
    cases i with
    | zero => rfl
    | succ i => simpa using ih i

theorem ends_setEncryptRule {f : EncryptRule → EncryptRule} {r : EncryptRule}
    {q : PUnit → Gateway → Prop} {e : DocaError → Gateway → Prop} :
    Ends (setEncryptRule slot f) q e (encryptAt g slot r T) ↔ q ⟨⟩ (encryptAt g slot (f r) T) := by
  have hset : { encryptAt g slot r T with
      encryptRules := (encryptAt g slot r T).encryptRules.modify slot f } =
      encryptAt g slot (f r) T := by
    simp only [encryptAt, modify_set]
  rw [setEncryptRule, ends_modify, hset]

theorem ends_setDecryptRule {f : DecryptRule → DecryptRule} {r : DecryptRule}
    {q : PUnit → Gateway → Prop} {e : DocaError → Gateway → Prop} :
    Ends (setDecryptRule slot f) q e (decryptAt g slot r) ↔ q ⟨⟩ (decryptAt g slot (f r)) := by
  have hset : { decryptAt g slot r with
      decryptRules := (decryptAt g slot r).decryptRules.modify slot f } =
      decryptAt g slot (f r) := by
    simp only [decryptAt, modify_set]
  rw [setDecryptRule, ends_modify, hset]

theorem ends_parseIpv4Str {text : List Byte} {q : BitVec 32 → Gateway → Prop}
    {e : DocaError → Gateway → Prop} :
    Ends (parseIpv4Str libs text) q e g ↔ (∀ ip, libs.inetPton4 text = some ip → q ip g) ∧
      (libs.inetPton4 text = none → e .invalidValue g) := by
  unfold parseIpv4Str
  cases libs.inetPton4 text <;> simp

theorem ends_parseIpv6Str {text : List Byte} {q : Ip6Addr → Gateway → Prop}
    {e : DocaError → Gateway → Prop} :
    Ends (parseIpv6Str libs text) q e g ↔ (∀ ip, libs.inetPton6 text = some ip → q ip g) ∧
      (libs.inetPton6 text = none → e .invalidValue g) := by
  unfold parseIpv6Str
  cases libs.inetPton6 text <;> simp

theorem ends_addToIp6Table {ip : Ip6Addr} {r : EncryptRule} {q : Unit → Gateway → Prop}
    {e : DocaError → Gateway → Prop} :
    Ends (addToIp6Table libs ip) q e (encryptAt g slot r T) ↔
      (∀ T', learn libs T ip = some T' → q () (encryptAt g slot r T')) ∧
        (learn libs T ip = none → e .driver (encryptAt g slot r T)) := by
  have htable : (encryptAt g slot r T).ip6Table = T := rfl
  unfold addToIp6Table learn
  rw [ends_bind, ends_get]
  dsimp only
  rw [htable]
  cases T.lookup ip with
  | some position => simp
  | none =>
    cases libs.hashPosition T ip with
    | none => simp
    | some position => simp [encryptAt]

theorem learn_lookup {T' : List (Ip6Addr × Nat)} {ip : Ip6Addr} (h : learn libs T ip = some T') :
    (T'.lookup ip).isSome := by
  unfold learn at h
  cases hl : T.lookup ip with
  | some position =>
    rw [hl] at h
    cases h
    rw [hl]
    rfl
  | none =>
    rw [hl] at h
    obtain ⟨position, _, rfl⟩ := Option.map_eq_some_iff.mp h
    simp

/-- A table that learns an address keeps its rows, and is longer if that was new. -/
theorem learn_spec {T' : List (Ip6Addr × Nat)} {ip : Ip6Addr} (h : learn libs T ip = some T') :
    (IsNew libs T ip ∧ T.length < T'.length) ∨ (¬ IsNew libs T ip ∧ (T.lookup ip).isSome ∧ T' = T) := by
  unfold learn at h
  unfold IsNew
  cases hl : T.lookup ip with
  | some position =>
    rw [hl] at h
    cases h
    exact .inr (by simp)
  | none =>
    rw [hl] at h
    obtain ⟨position, hp, rfl⟩ := Option.map_eq_some_iff.mp h
    exact .inl (by simp [hp])

theorem learn_none {ip : Ip6Addr} (h : learn libs T ip = none) :
    ¬ IsNew libs T ip ∧ T.lookup ip = none := by
  unfold learn at h
  cases hl : T.lookup ip with
  | some position =>
    rw [hl] at h
    cases h
  | none =>
    rw [hl, Option.map_eq_none_iff] at h
    simp [IsNew, h]

theorem l3TypeOf_eq_ip4 {b : Byte} : l3TypeOf b = .ip4 ↔ b = policyL3TypeIpv4 := by
  unfold l3TypeOf
  split <;> simp_all

/-- The table after the inner addresses: longer if one of them was new. -/
def Moved (libs : Libs) (T : List (Ip6Addr × Nat)) (p : IpsecPolicy)
    (T' : List (Ip6Addr × Nat)) : Prop :=
  (NewAddress libs T p ∧ T.length < T'.length) ∨ (¬ NewAddress libs T p ∧ T' = T)

theorem Moved.refl (h : ¬ NewAddress libs T p) : Moved libs T p T := .inr ⟨h, rfl⟩

theorem not_newAddress_of_ip4 (h : p.l3Protocol = policyL3TypeIpv4) : ¬ NewAddress libs T p :=
  fun hnew => hnew.1 h

variable {src dst : Ip6Addr} {T1 T2 : List (Ip6Addr × Nat)}

/-- The table after a destination that was not registered. -/
theorem moved_first (h6 : p.l3Protocol ≠ policyL3TypeIpv4)
    (hsrc : libs.inetPton6 p.srcIpAddr = some src) (hT1 : learn libs T src = some T1)
    (hdst : libs.inetPton6 p.dstIpAddr = none ∨
      ∃ dst, libs.inetPton6 p.dstIpAddr = some dst ∧ learn libs T1 dst = none) :
    Moved libs T p T1 := by
  rcases learn_spec hT1 with ⟨hnew, hlen⟩ | ⟨hnew, _, rfl⟩
  · exact .inl ⟨⟨h6, src, hsrc, .inl hnew⟩, hlen⟩
  · refine Moved.refl ?_
    rintro ⟨_, src', hsrc', hnew' | ⟨_, dst', hdst', hnew'⟩⟩
    · rw [hsrc] at hsrc'
      cases hsrc'
      exact hnew hnew'
    · rcases hdst with hdst | ⟨dst, hdst, hnone⟩
      · rw [hdst] at hdst'
        cases hdst'
      · rw [hdst] at hdst'
        cases hdst'
        exact (learn_none hnone).1 hnew'

theorem moved_both (h6 : p.l3Protocol ≠ policyL3TypeIpv4)
    (hsrc : libs.inetPton6 p.srcIpAddr = some src) (hT1 : learn libs T src = some T1)
    (hdst : libs.inetPton6 p.dstIpAddr = some dst) (hT2 : learn libs T1 dst = some T2) :
    Moved libs T p T2 := by
  rcases learn_spec hT1 with ⟨hnew, hlen⟩ | ⟨hnew, hknown, rfl⟩
  · have hle : T1.length ≤ T2.length := by
      rcases learn_spec hT2 with ⟨_, hlt⟩ | ⟨_, _, rfl⟩
      · exact hlt.le
      · exact Nat.le_refl _
    exact .inl ⟨⟨h6, src, hsrc, .inl hnew⟩, by omega⟩
  · rcases learn_spec hT2 with ⟨hnew2, hlt⟩ | ⟨hnew2, _, rfl⟩
    · exact .inl ⟨⟨h6, src, hsrc, .inr ⟨hknown, dst, hdst, hnew2⟩⟩, hlt⟩
    · refine Moved.refl ?_
      rintro ⟨_, src', hsrc', hnew' | ⟨_, dst', hdst', hnew'⟩⟩
      · rw [hsrc] at hsrc'
        cases hsrc'
        exact hnew hnew'
      · rw [hdst] at hdst'
        cases hdst'
        exact hnew2 hnew'

/-- The words of the inner addresses as the parser stores them. -/
def InnerStored (libs : Libs) (p : IpsecPolicy) (src dst : Ip6Addr) : Prop :=
  if p.l3Protocol = policyL3TypeIpv4 then
    libs.inetPton4 p.srcIpAddr = some src.w0 ∧ libs.inetPton4 p.dstIpAddr = some src.w1
  else libs.inetPton6 p.srcIpAddr = some src ∧ libs.inetPton6 p.dstIpAddr = some dst

theorem parseInnerAddresses_ends {r : EncryptRule} :
    Ends (parseInnerAddresses libs p slot)
      (fun _ t => ∃ src dst T', t = encryptAt g slot { r with ip6Src := src, ip6Dst := dst } T' ∧
        InnerStored libs p src dst ∧
        (p.l3Protocol ≠ policyL3TypeIpv4 → (T'.lookup dst).isSome) ∧
        InnerParsed libs T p ∧ Moved libs T p T')
      (fun _ t => ∃ src dst T', t = encryptAt g slot { r with ip6Src := src, ip6Dst := dst } T' ∧
        ¬ InnerParsed libs T p ∧ Moved libs T p T')
      (encryptAt g slot r T) := by
  unfold parseInnerAddresses
  by_cases h4 : p.l3Protocol = policyL3TypeIpv4
  · rw [if_pos (l3TypeOf_eq_ip4.mpr h4)]
    have hmoved : Moved libs T p T := Moved.refl (not_newAddress_of_ip4 h4)
    simp only [ends_bind, ends_parseIpv4Str, ends_setEncryptRule]
    refine ⟨fun src hsrc => ⟨fun dst hdst => ?_, fun hdst => ?_⟩, fun hsrc => ?_⟩
    · refine ⟨_, _, T, rfl, ?_, fun h => absurd h4 h, ?_, hmoved⟩
      · rw [InnerStored, if_pos h4]
        exact ⟨hsrc, hdst⟩
      · rw [InnerParsed, if_pos h4, hsrc, hdst]
        exact ⟨rfl, rfl⟩
    · refine ⟨_, _, T, rfl, ?_, hmoved⟩
      rw [InnerParsed, if_pos h4, hdst]
      exact fun h => absurd h.2 (by simp)
    · refine ⟨_, _, T, rfl, ?_, hmoved⟩
      rw [InnerParsed, if_pos h4, hsrc]
      exact fun h => absurd h.1 (by simp)
  · rw [if_neg (mt l3TypeOf_eq_ip4.mp h4)]
    simp only [ends_bind, ends_parseIpv6Str, ends_setEncryptRule, ends_addToIp6Table]
    refine ⟨fun src hsrc => ⟨fun T1 hT1 => ⟨fun dst hdst => ⟨fun T2 hT2 => ?_, fun hT2 => ?_⟩,
      fun hdst => ?_⟩, fun hT1 => ?_⟩, fun hsrc => ?_⟩
    · refine ⟨src, dst, T2, rfl, ?_, fun _ => learn_lookup hT2, ?_,
        moved_both h4 hsrc hT1 hdst hT2⟩
      · rw [InnerStored, if_neg h4]
        exact ⟨hsrc, hdst⟩
      · rw [InnerParsed, if_neg h4]
        exact ⟨src, dst, T1, hsrc, hT1, hdst, by rw [hT2]; rfl⟩
    · refine ⟨src, dst, T1, rfl, ?_, moved_first h4 hsrc hT1 (.inr ⟨dst, hdst, hT2⟩)⟩
      rw [InnerParsed, if_neg h4]
      rintro ⟨src', dst', T1', hsrc', hT1', hdst', hsome⟩
      simp_all
    · refine ⟨src, r.ip6Dst, T1, rfl, ?_, moved_first h4 hsrc hT1 (.inl hdst)⟩
      rw [InnerParsed, if_neg h4]
      rintro ⟨src', dst', T1', hsrc', hT1', hdst', hsome⟩
      simp_all
    · refine ⟨src, r.ip6Dst, T, rfl, ?_, Moved.refl ?_⟩
      · rw [InnerParsed, if_neg h4]
        rintro ⟨src', dst', T1', hsrc', hT1', hdst', hsome⟩
        simp_all
      · rintro ⟨_, src', hsrc', hnew | ⟨hknown, _⟩⟩
        · rw [hsrc] at hsrc'
          cases hsrc'
          exact (learn_none hT1).1 hnew
        · rw [hsrc] at hsrc'
          cases hsrc'
          simp [(learn_none hT1).2] at hknown
    · refine ⟨r.ip6Src, r.ip6Dst, T, rfl, ?_, Moved.refl ?_⟩
      · rw [InnerParsed, if_neg h4]
        rintro ⟨src', dst', T1', hsrc', hT1', hdst', hsome⟩
        simp_all
      · rintro ⟨_, src', hsrc', _⟩
        simp_all

/-- The words of one address as the parsers store them. -/
def AddressStored (libs : Libs) (l3Protocol : Byte) (text : List Byte) (ip : Ip6Addr) : Prop :=
  if l3Protocol = policyL3TypeIpv4 then libs.inetPton4 text = some ip.w0
  else libs.inetPton6 text = some ip

theorem AddressStored.valid {b : Byte} {text : List Byte} (h : AddressStored libs b text dst) :
    ValidAddress libs b text := by
  unfold AddressStored at h
  unfold ValidAddress
  split at h
  · rw [if_pos ‹_›, h]
    rfl
  · rw [if_neg ‹_›, h]
    rfl

def OuterStored (libs : Libs) (p : IpsecPolicy) (l3Type : L3Type) (dst : Ip6Addr) : Prop :=
  p.policyMode = policyModeTunnel →
    l3Type = l3TypeOf p.outerL3Protocol ∧ AddressStored libs p.outerL3Protocol p.outerDstIp dst

theorem parseOuterAddress_ends {r : EncryptRule} :
    Ends (parseOuterAddress libs p slot)
      (fun _ t => ∃ dst, t = encryptAt g slot { r with encapDstIp6 := dst } T ∧
        AddressStored libs p.outerL3Protocol p.outerDstIp dst)
      (fun _ t => t = encryptAt g slot r T ∧ ¬ ValidAddress libs p.outerL3Protocol p.outerDstIp)
      (encryptAt g slot r T) := by
  unfold parseOuterAddress
  by_cases h4 : p.outerL3Protocol = policyL3TypeIpv4
  · rw [if_pos (l3TypeOf_eq_ip4.mpr h4)]
    simp only [ends_bind, ends_parseIpv4Str, ends_setEncryptRule, AddressStored, ValidAddress,
      if_pos h4]
    refine ⟨fun dst hdst => ⟨_, rfl, hdst⟩, fun hdst => ⟨trivial, ?_⟩⟩
    rw [hdst]
    simp
  · rw [if_neg (mt l3TypeOf_eq_ip4.mp h4)]
    simp only [ends_bind, ends_parseIpv6Str, ends_setEncryptRule, AddressStored, ValidAddress,
      if_neg h4]
    refine ⟨fun dst hdst => ⟨_, rfl, hdst⟩, fun hdst => ⟨trivial, ?_⟩⟩
    rw [hdst]
    simp

theorem parseEncap_ends {r : EncryptRule} :
    Ends (parseEncap libs p slot)
      (fun _ t => ∃ l3 dst, t = encryptAt g slot { r with encapL3Type := l3, encapDstIp6 := dst } T ∧
        OuterStored libs p l3 dst)
      (fun _ t => ∃ l3, t = encryptAt g slot { r with encapL3Type := l3 } T ∧
        p.policyMode = policyModeTunnel ∧ ¬ ValidAddress libs p.outerL3Protocol p.outerDstIp)
      (encryptAt g slot r T) := by
  unfold parseEncap
  split
  · rename_i hmode
    rw [ends_bind, ends_setEncryptRule]
    refine parseOuterAddress_ends.mono ?_ ?_
    · rintro _ _ ⟨dst, rfl, hdst⟩
      exact ⟨_, dst, rfl, fun _ => ⟨rfl, hdst⟩⟩
    · rintro _ _ ⟨rfl, hdst⟩
      exact ⟨_, rfl, hmode, hdst⟩
  · rename_i hmode
    exact (ends_pure _).mpr ⟨r.encapL3Type, r.encapDstIp6, rfl, fun h => absurd h hmode⟩

/-- The attributes as `parse_sa_attrs` stores them. -/
structure SaStored (p : IpsecPolicy) (direction : SaDirection) (sa : SaAttrs) : Prop where
  icv : sa.icvLength.bytes = p.icvLength.toNat
  keyType : sa.keyType = convertToDocaKeyType p.keyType
  key : sa.encKeyData = p.encKeyData
  salt : sa.salt = p.salt
  direction : sa.direction = direction

theorem parseSaAttrs_ends (direction : SaDirection) :
    Ends (parseSaAttrs p direction) (fun sa t => t = g ∧ ValidIcv p ∧ SaStored p direction sa)
      (fun _ t => t = g ∧ ¬ ValidIcv p) g := by
  unfold parseSaAttrs convertToDocaIcv ValidIcv
  by_cases h8 : p.icvLength = 8
  · rw [if_pos h8]
    exact (ends_pure _).mpr ⟨rfl, .inl h8, by rw [h8]; rfl, rfl, rfl, rfl, rfl⟩
  · rw [if_neg h8]
    by_cases h12 : p.icvLength = 12
    · rw [if_pos h12]
      exact (ends_pure _).mpr ⟨rfl, .inr (.inl h12), by rw [h12]; rfl, rfl, rfl, rfl, rfl⟩
    · rw [if_neg h12]
      by_cases h16 : p.icvLength = 16
      · rw [if_pos h16]
        exact (ends_pure _).mpr ⟨rfl, .inr (.inr h16), by rw [h16]; rfl, rfl, rfl, rfl, rfl⟩
      · rw [if_neg h16]
        exact (ends_throw _).mpr ⟨rfl, fun h => h.elim h8 (fun h => h.elim h12 h16)⟩

/-- An encrypt rule as the parser fills it. -/
structure EncryptStored (libs : Libs) (p : IpsecPolicy) (r : EncryptRule) : Prop where
  l3Type : r.l3Type = l3TypeOf p.l3Protocol
  protocol : r.protocol = if p.l4Protocol = policyL4TypeUdp then .udp else .tcp
  srcPort : r.srcPort = p.srcPort.toNat
  dstPort : r.dstPort = p.dstPort.toNat
  inner : InnerStored libs p r.ip6Src r.ip6Dst
  outer : OuterStored libs p r.encapL3Type r.encapDstIp6
  spi : r.espSpi = p.spi
  sa : SaStored p .egressEncrypt r.saAttrs

/-- The encrypt parser, for any policy: it accepts those it can read, and before it
refuses one it has written the slot and may have put an address in the table. -/
theorem policyEncryptParse_ends {r : EncryptRule} :
    Ends (policyEncryptParse libs p slot)
      (fun _ t => ∃ r' T', t = encryptAt g slot r' T' ∧ EncryptStored libs p r' ∧
        (p.l3Protocol ≠ policyL3TypeIpv4 → (T'.lookup r'.ip6Dst).isSome) ∧
        EncryptParsed libs T p ∧ Moved libs T p T')
      (fun _ t => ∃ r' T', t = encryptAt g slot r' T' ∧ r'.l3Type = l3TypeOf p.l3Protocol ∧
        ¬ EncryptParsed libs T p ∧ Moved libs T p T')
      (encryptAt g slot r T) := by
  unfold policyEncryptParse
  rw [ends_bind, ends_setEncryptRule]
  refine ends_bind.mpr (parseInnerAddresses_ends.mono ?_ ?_)
  · rintro _ _ ⟨src, dst, T', rfl, hstored, hlookup, hparsed, hmoved⟩
    refine ends_bind.mpr (parseEncap_ends.mono ?_ ?_)
    · rintro _ _ ⟨l3, outer, rfl, houter⟩
      refine ends_bind.mpr ((parseSaAttrs_ends .egressEncrypt).mono ?_ ?_)
      · rintro sa _ ⟨rfl, hicv, hsa⟩
        rw [ends_setEncryptRule]
        exact ⟨_, T', rfl, ⟨rfl, rfl, rfl, rfl, hstored, houter, rfl, hsa⟩, hlookup,
          ⟨hparsed, fun hmode => (houter hmode).2.valid, hicv⟩, hmoved⟩
      · rintro _ _ ⟨rfl, hicv⟩
        exact ⟨_, T', rfl, rfl, fun h => hicv h.2.2, hmoved⟩
    · rintro _ _ ⟨l3, rfl, hmode, houter⟩
      exact ⟨_, T', rfl, rfl, fun h => houter (h.2.1 hmode), hmoved⟩
  · rintro _ _ ⟨src, dst, T', rfl, hparsed, hmoved⟩
    exact ⟨_, T', rfl, rfl, fun h => hparsed h.1, hmoved⟩

/-- A decrypt rule as the parser fills it. -/
structure DecryptStored (libs : Libs) (cfg : Config) (p : IpsecPolicy) (r : DecryptRule) :
    Prop where
  innerL3Type : r.innerL3Type = l3TypeOf p.l3Protocol
  l3Type : r.l3Type = l3TypeOf (wireDst cfg p).1
  dst : AddressStored libs (wireDst cfg p).1 (wireDst cfg p).2 r.dstIp6
  spi : r.espSpi = p.spi
  sa : SaStored p .ingressDecrypt r.saAttrs

theorem parseDstAddress_ends {r : DecryptRule} {b : Byte} {text : List Byte} :
    Ends (parseDstAddress libs (l3TypeOf b) text slot)
      (fun _ t => ∃ dst, t = decryptAt g slot { r with dstIp6 := dst } ∧
        AddressStored libs b text dst)
      (fun _ t => t = decryptAt g slot r ∧ ¬ ValidAddress libs b text) (decryptAt g slot r) := by
  unfold parseDstAddress
  by_cases h4 : b = policyL3TypeIpv4
  · rw [if_pos (l3TypeOf_eq_ip4.mpr h4)]
    simp only [ends_bind, ends_parseIpv4Str, ends_setDecryptRule, AddressStored, ValidAddress,
      if_pos h4]
    refine ⟨fun dst hdst => ⟨_, rfl, hdst⟩, fun hdst => ⟨trivial, ?_⟩⟩
    rw [hdst]
    simp
  · rw [if_neg (mt l3TypeOf_eq_ip4.mp h4)]
    simp only [ends_bind, ends_parseIpv6Str, ends_setDecryptRule, AddressStored, ValidAddress,
      if_neg h4]
    refine ⟨fun dst hdst => ⟨_, rfl, hdst⟩, fun hdst => ⟨trivial, ?_⟩⟩
    rw [hdst]
    simp

/-- The decrypt parser, for any policy. -/
theorem policyDecryptParse_ends {r : DecryptRule} :
    Ends (policyDecryptParse libs cfg p slot)
      (fun _ t => ∃ r', t = decryptAt g slot r' ∧ DecryptStored libs cfg p r' ∧
        DecryptParsed libs cfg p)
      (fun _ t => ∃ r', t = decryptAt g slot r' ∧ r'.l3Type = l3TypeOf (wireDst cfg p).1 ∧
        ¬ DecryptParsed libs cfg p)
      (decryptAt g slot r) := by
  have htype : (if cfg.mode = .tunnel then l3TypeOf p.outerL3Protocol else l3TypeOf p.l3Protocol) =
      l3TypeOf (wireDst cfg p).1 := by
    unfold wireDst
    split <;> rfl
  have htext : (if cfg.mode = .tunnel then p.outerDstIp else p.dstIpAddr) = (wireDst cfg p).2 := by
    unfold wireDst
    split <;> rfl
  unfold policyDecryptParse
  dsimp only
  rw [htype, htext, ends_bind, ends_setDecryptRule]
  refine ends_bind.mpr (parseDstAddress_ends.mono ?_ ?_)
  · rintro _ _ ⟨dst, rfl, hdst⟩
    rw [ends_bind, ends_setDecryptRule]
    refine ends_bind.mpr ((parseSaAttrs_ends .ingressDecrypt).mono ?_ ?_)
    · rintro sa _ ⟨rfl, hicv, hsa⟩
      rw [ends_setDecryptRule]
      exact ⟨_, rfl, ⟨rfl, rfl, hdst, rfl, hsa⟩, hdst.valid, hicv⟩
    · rintro _ _ ⟨rfl, hicv⟩
      exact ⟨_, rfl, rfl, fun h => hicv h.2⟩
  · rintro _ _ ⟨rfl, hdst⟩
    exact ⟨_, rfl, rfl, fun h => hdst h.1⟩

end DocaApps.Proofs.PolicyParse
