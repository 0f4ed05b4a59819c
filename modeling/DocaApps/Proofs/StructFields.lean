import DocaApps.Common.StructFields
import DocaApps.Proofs.Strtol
import DocaApps.Proofs.FlowPipe

namespace DocaApps.Proofs.StructFields
open Common.FlowPipe Common.FlowParser Common.StructFields Lib.Numerals Lib.Members
open Proofs.FlowParser Proofs.AddressTexts Proofs.Strtol

variable {text : List Char} {n : Nat}

def l3Names : List (List Char × L3Type) := [("ipv4".toList, .ip4), ("ipv6".toList, .ip6)]

def l4Names : List (List Char × L4TypeExt) := [(['t', 'c', 'p'], .tcp), (['u', 'd', 'p'], .udp)]

def tunNames : List (List Char × TunType) :=
  [("vxlan".toList, .vxlan), ("gtpu".toList, .gtpu), ("gre".toList, .gre)]

def tcpFlagNames : List (List Char × BitVec 8) :=
  [("FIN".toList, 1), ("SYN".toList, 2), ("RST".toList, 4), ("PSH".toList, 8),
    ("ACK".toList, 16), ("URG".toList, 32), ("ECE".toList, 64), ("CWR".toList, 128)]

def boolNames : List (List Char × Bool) := [("true".toList, true), ("false".toList, false)]

theorem parseL3Type_name {v : L3Type} (h : (text, v) ∈ l3Names) : parseL3Type text = .ok v := by
  have hall : ∀ p ∈ l3Names, parseL3Type p.1 = .ok p.2 := by decide
  exact hall _ h

theorem parseIpType_name {v : L3Type} (h : (text, v) ∈ l3Names) : parseIpType text = .ok v := by
  have hall : ∀ p ∈ l3Names, parseIpType p.1 = .ok p.2 := by decide
  exact hall _ h

theorem parseProtocolString_name {v : L4TypeExt} (h : (text, v) ∈ l4Names) :
    parseProtocolString text = .ok v := by
  have hall : ∀ p ∈ l4Names, parseProtocolString p.1 = .ok p.2 := by decide
  exact hall _ h

theorem parseTunTypeString_name {v : TunType} (h : (text, v) ∈ tunNames) :
    parseTunTypeString text = .ok v := by
  have hall : ∀ p ∈ tunNames, parseTunTypeString p.1 = .ok p.2 := by decide
  exact hall _ h

theorem parseTcpFlagString_name {v : BitVec 8} (h : (text, v) ∈ tcpFlagNames) :
    parseTcpFlagString text = .ok v := by
  have hall : ∀ p ∈ tcpFlagNames, parseTcpFlagString p.1 = .ok p.2 := by decide
  exact hall _ h

theorem parseBoolString_name {v : Bool} (h : (text, v) ∈ boolNames) :
    parseBoolString text = .ok v := by
  have hall : ∀ p ∈ boolNames, parseBoolString p.1 = .ok p.2 := by decide
  exact hall _ h

/-- The value of an IPv4 address: four bytes as they go over the wire, or the mark of a field
that each entry gives. -/
inductive Ipv4Value : List Char → BitVec 32 → Prop where
  | quad {text : List Char} {a b c d : Nat} (literal : Literal 10 256 '.' text [a, b, c, d]) :
      Ipv4Value text (rteCpuToBe32 (BitVec.ofNat 32
        (a * 2 ^ 24 + b * 2 ^ 16 + c * 2 ^ 8 + d)))
  | changeable : Ipv4Value uint32ChangeableField 0xffffffff

theorem Ipv4Value.parse {v : BitVec 32} (h : Ipv4Value text v) : parseIpv4Str text = .ok v := by
  cases h with
  | quad literal => exact parseIpv4Str_literal literal
  | changeable => rfl

/-- The words of an IPv6 address, each from two of its groups. -/
def ip6Words : List Nat → List (BitVec 32)
  | g :: g' :: groups => rteCpuToBe32 (BitVec.ofNat 32 (g * 2 ^ 16 + g')) :: ip6Words groups
  | _ => []

theorem rteCpuToBe32_involutive (x : BitVec 32) : rteCpuToBe32 (rteCpuToBe32 x) = x := by
  have hbytes := inMemory_rteCpuToBe32 x
  simp only [inMemory, List.cons.injEq, and_true] at hbytes
  obtain ⟨h₀, h₁, h₂, h₃⟩ := hbytes
  have hlow : x.extractLsb' 8 8 ++ x.extractLsb' 0 8 = x.extractLsb' 0 16 :=
    BitVec.extractLsb'_append_extractLsb'_eq_extractLsb' rfl
  have hmid : x.extractLsb' 16 8 ++ x.extractLsb' 0 16 = x.extractLsb' 0 24 :=
    BitVec.extractLsb'_append_extractLsb'_eq_extractLsb' rfl
  have hall : x.extractLsb' 24 8 ++ x.extractLsb' 0 24 = x.extractLsb' 0 32 :=
    BitVec.extractLsb'_append_extractLsb'_eq_extractLsb' rfl
  have hself : x.extractLsb' 0 32 = x := BitVec.extractLsb'_eq_self
  unfold rteCpuToBe32 at h₀ h₁ h₂ h₃ ⊢
  rw [h₀, h₁, h₂, h₃]
  exact (congrArg _ ((congrArg _ hlow).trans hmid)).trans (hall.trans hself)

theorem rteCpuToBe32_eq_zero {x : BitVec 32} (h : rteCpuToBe32 x = 0) : x = 0 := by
  rw [← rteCpuToBe32_involutive x, h]
  decide

theorem port_eq_zero {n : Nat} (hn : n < 2 ^ 16) (h : rteCpuToBe16 (BitVec.ofNat 16 n) = 0) :
    n = 0 := by
  apply eq_zero_of_ofNat hn
  rw [← FlowPipe.rteCpuToBe16_involutive (BitVec.ofNat 16 n), h]
  decide

theorem ip6Words_zero {groups : List Nat} (hlen : groups.length = 8)
    (hrange : ∀ g ∈ groups, g < 2 ^ 16) :
    ip6Words groups = List.replicate 4 0 ↔ groups = List.replicate 8 0 := by
  match groups, hlen with
  | [a, b, c, d, e, f, g, h], _ =>
    have hword : ∀ {a b : Nat}, a < 2 ^ 16 → b < 2 ^ 16 →
        (rteCpuToBe32 (BitVec.ofNat 32 (a * 2 ^ 16 + b)) = 0 ↔ a = 0 ∧ b = 0) := by
      intro a b ha hb
      constructor
      · intro hzero
        have hsum := eq_zero_of_ofNat (by omega) (rteCpuToBe32_eq_zero hzero)
        omega
      · rintro ⟨rfl, rfl⟩
        decide
    have hab := hword (hrange a (by simp)) (hrange b (by simp))
    have hcd := hword (hrange c (by simp)) (hrange d (by simp))
    have hef := hword (hrange e (by simp)) (hrange f (by simp))
    have hgh := hword (hrange g (by simp)) (hrange h (by simp))
    simp only [ip6Words, List.replicate, List.cons.injEq, and_true, hab, hcd, hef, hgh, and_assoc]

section Fill

variable {F M : Type} [DecidableEq M] {V : M → Type}
  {set : F → List Char → ((m : M) → V m) → Filled ((m : M) → V m)}
  {zero : (m : M) → V m} {effect : F × List Char → Sigma V} {L : List (F × List Char)}

/-- Fields may be given by their names. -/
theorem fillFields_map {N : Type} {S : Type} {name : F → N} {fill : N → List Char → S → Filled S}
    {set : F → List Char → S → Filled S} (h : ∀ f text s, fill (name f) text s = set f text s)
    (L : List (F × List Char)) (s : S) :
    fillFields fill (L.map fun p => (name p.1, p.2)) s = fillFields set L s := by
  induction L generalizing s with
  | nil => rfl
  | cons p L ih =>
    rw [List.map_cons, fillFields, fillFields, h]
    cases set p.1 p.2 s with
    | none => rfl
    | some result =>
      obtain ⟨_ | _, s'⟩ := result
      · rfl
      · exact ih s'

/-- Fields that each assign one member assign all of them, one after the other. -/
theorem fillFields_run
    (hstep : ∀ before p after, L = before ++ p :: after →
      set p.1 p.2 (assignAll zero (before.map effect)) =
        some (.ok (), assign (assignAll zero (before.map effect)) (effect p))) :
    fillFields set L zero = some (.ok (), assignAll zero (L.map effect)) := by
  have hrest : ∀ after before, L = before ++ after →
      fillFields set after (assignAll zero (before.map effect)) =
        some (.ok (), assignAll zero (L.map effect)) := by
    intro after
    induction after with
    | nil =>
      intro before hL
      rw [hL, List.append_nil]
      rfl
    | cons p after ih =>
      intro before hL
      have hnext := ih (before ++ [p]) (by simp [hL])
      rw [List.map_append, assignAll_append] at hnext
      rw [fillFields, hstep before p after hL]
      exact hnext
  exact hrest L [] rfl

/-- Fields of which some wait for the type of their header: in an order that respects this, every
field finds the type that it waits for. -/
theorem fillFields_ordered {T : Type} {waits isType : T → F × List Char → Prop}
    {typeOf : T → Sigma V} {Sized : (m : M) → V m → Prop} (hzero : ∀ m, Sized m (zero m))
    (hsized : ∀ p ∈ L, Sized (effect p).1 (effect p).2)
    (hset : ∀ p ∈ L, ∀ s : (m : M) → V m, (∀ m, Sized m (s m)) →
      (∀ t, waits t p → s (typeOf t).1 = (typeOf t).2) →
      set p.1 p.2 s = some (.ok (), assign s (effect p)))
    (htyped : ∀ p ∈ L, ∀ t, waits t p → ∃ q ∈ L, isType t q)
    (horder : L.Pairwise fun p q => ∀ t, waits t p → ¬ isType t q)
    (hself : ∀ t p, waits t p → ¬ isType t p)
    (htype : ∀ q ∈ L, ∀ t, isType t q → effect q = typeOf t)
    (honly : ∀ q ∈ L, ∀ t, (effect q).1 = (typeOf t).1 → effect q = typeOf t) :
    fillFields set L zero = some (.ok (), assignAll zero (L.map effect)) := by
  apply fillFields_run
  rintro before p after rfl
  apply hset p (by simp)
  · apply assignAll_forall hzero
    intro w hw
    obtain ⟨q, hq, rfl⟩ := List.mem_map.mp hw
    exact hsized q (by simp [hq])
  · intro t hp
    obtain ⟨q, hq, hqt⟩ := htyped p (by simp) t hp
    have hset : q ∈ before := by
      rw [List.pairwise_append] at horder
      rw [List.mem_append, List.mem_cons] at hq
      rcases hq with hq | rfl | hq
      · exact hq
      · exact absurd hqt (hself t q hp)
      · exact absurd hqt (List.rel_of_pairwise_cons horder.2.1 hq t hp)
    have hin : typeOf t ∈ before.map effect := by
      rw [← htype q (by simp [hset]) t hqt]
      exact List.mem_map_of_mem hset
    apply assignAll_written hin
    intro w hw hm
    obtain ⟨q', hq', rfl⟩ := List.mem_map.mp hw
    exact honly q' (by simp [hq']) t hm

variable {Names : F × List Char → Sigma V → Prop} {named : F × List Char → Sigma V}
  {stored : Sigma V → Sigma V} {needs : F × List Char → F × List Char → Prop}
  {run : List (F × List Char) → Filled ((m : M) → V m)}

/-- A pair that no other one waits for can come last. -/
theorem last_order {p : F × List Char} (hp : p ∈ L) (horder : L.Pairwise fun p q => ¬ needs p q)
    (hfree : ∀ q, ¬ needs q p) :
    ∃ L', (L' ++ [p]).Perm L ∧ (L' ++ [p]).Pairwise fun p q => ¬ needs p q := by
  obtain ⟨before, after, rfl⟩ := List.append_of_mem hp
  have hsub : (before ++ after).Sublist (before ++ p :: after) :=
    (List.sublist_cons_self p after).append_left before
  refine ⟨before ++ after, ?_, ?_⟩
  · rw [List.append_assoc]
    exact (List.perm_append_comm.trans (by rfl)).append_left before
  · rw [List.pairwise_append]
    refine ⟨horder.sublist hsub, List.pairwise_singleton _ _, ?_⟩
    intro q hq p' hp'
    rw [List.mem_singleton.mp hp']
    exact hfree q

/-- What the pairs of a list name, in an order in which none comes before what it waits for. -/
def Ordered (named : F × List Char → Sigma V) (needs : F × List Char → F × List Char → Prop)
    (L : List (F × List Char)) (ws : List (Sigma V)) : Prop :=
  ∃ L' : List (F × List Char), L'.Perm L ∧ (L'.Pairwise fun p q => ¬ needs p q) ∧
    ws = L'.map named

/-- Every order gives the record with what is named, and only when what is stored fits that. -/
theorem land_iff (hnamed : ∀ p ∈ L, ∀ w, Names p w ↔ w = named p)
    (hrun : ∀ L' : List (F × List Char), L'.Perm L → (L'.Pairwise fun p q => ¬ needs p q) →
      run L' = some (.ok (), assignAll zero (L'.map fun p => stored (named p))))
    (horder : L.Pairwise fun p q => ¬ needs p q)
    (hlast : ∀ p ∈ L, stored (named p) = named p ∨ ∀ q, ¬ needs q p) :
    (∃ r, (∀ L' : List (F × List Char), L'.Perm L → (L'.Pairwise fun p q => ¬ needs p q) →
        run L' = some (.ok (), r)) ∧
      (∀ p ∈ L, ∀ w, Names p w → r w.1 = w.2) ∧
      ∀ m, (∀ p ∈ L, ∀ w, Names p w → w.1 ≠ m) → r m = zero m) ↔
      Fits zero stored (L.map named) := by
  have hmem : ∀ ws', Ordered named needs L ws' → ∀ w, w ∈ ws' ↔ w ∈ L.map named := by
    rintro ws' ⟨L', hperm, -, rfl⟩ w
    exact (hperm.map named).mem_iff
  have hlast' : ∀ w ∈ L.map named,
      stored w = w ∨ ∃ ws', Ordered named needs L (ws' ++ [w]) := by
    intro w hw
    obtain ⟨p, hp, rfl⟩ := List.mem_map.mp hw
    rcases hlast p hp with hsame | hfree
    · exact Or.inl hsame
    · obtain ⟨L', hperm, hpairs⟩ := last_order hp horder hfree
      exact Or.inr ⟨L'.map named, L' ++ [p], hperm, hpairs, by simp⟩
  rw [← lands_iff hmem ⟨L, List.Perm.refl L, horder, rfl⟩ hlast']
  constructor
  · rintro ⟨r, hall, hheld, hothers⟩
    refine ⟨r, ?_, ?_, ?_⟩
    · rintro ws' ⟨L', hperm, hpairs, rfl⟩
      have hresult := (hrun L' hperm hpairs).symm.trans (hall L' hperm hpairs)
      simp only [Option.some.injEq, Prod.mk.injEq, true_and] at hresult
      rw [← hresult, List.map_map]
      rfl
    · intro w hw
      obtain ⟨p, hp, rfl⟩ := List.mem_map.mp hw
      exact hheld p hp _ ((hnamed p hp _).mpr rfl)
    · intro m hm
      apply hothers
      intro p hp w hw
      rw [(hnamed p hp w).mp hw]
      exact hm _ (List.mem_map_of_mem hp)
  · rintro ⟨r, hall, hlands⟩
    refine ⟨r, ?_, ?_, ?_⟩
    · intro L' hperm hpairs
      rw [hrun L' hperm hpairs, ← hall _ ⟨L', hperm, hpairs, rfl⟩, List.map_map]
      rfl
    · intro p hp w hw
      rw [(hnamed p hp w).mp hw]
      exact hlands.named _ (List.mem_map_of_mem hp)
    · intro m hm
      apply hlands.others
      intro w hw
      obtain ⟨p, hp, rfl⟩ := List.mem_map.mp hw
      exact hm p hp _ ((hnamed p hp _).mpr rfl)

end Fill

end DocaApps.Proofs.StructFields
