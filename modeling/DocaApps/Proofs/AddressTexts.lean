import DocaApps.Proofs.FlowParser

namespace DocaApps.Proofs.AddressTexts
open Common.FlowPipe Common.FlowParser Lib.Numerals Proofs.FlowParser

variable {s : List Char} {c : Char} {mac : List (BitVec 8)} {bytes groups : List Nat}

/-- Four decimal bytes. -/
def Ipv4Text (s : List Char) (bytes : List Nat) : Prop :=
  bytes.length = 4 ∧ Literal 10 256 '.' s bytes

/-- Six hexadecimal bytes. -/
def MacText (s : List Char) (bytes : List Nat) : Prop :=
  bytes.length = 6 ∧ Literal 16 256 ':' s bytes

/-- Eight hexadecimal groups of two bytes. -/
def Ipv6Text (s : List Char) (groups : List Nat) : Prop :=
  groups.length = 8 ∧ Literal 16 (2 ^ 16) ':' s groups

/-- The bytes of a word in the order they lie in memory. -/
def inMemory (x : BitVec 32) : List (BitVec 8) :=
  [x.extractLsb' 0 8, x.extractLsb' 8 8, x.extractLsb' 16 8, x.extractLsb' 24 8]

/-- The address of a text is stored as it goes over the wire, and no other text is taken for
an address. -/
structure Ipv4Read (s : List Char) : Prop where
  stores : ∀ bytes, Ipv4Text s bytes → ∃ addr, parseIpv4Str s = .ok addr ∧
    inMemory addr = bytes.map (BitVec.ofNat 8)
  rejects : (∀ bytes, ¬ Ipv4Text s bytes) → s ≠ uint32ChangeableField →
    ∃ e, parseIpv4Str s = .error e

structure MacRead (s : List Char) : Prop where
  stores : ∀ bytes, MacText s bytes → ∀ mac, mac.length = 6 →
    parseMacAddress s mac = (.ok (), bytes.map (BitVec.ofNat 8))
  rejects : (∀ bytes, ¬ MacText s bytes) → ∀ mac, mac.length = 6 →
    ∃ e, (parseMacAddress s mac).1 = .error e

structure Ipv6Read (s : List Char) : Prop where
  stores : ∀ groups, Ipv6Text s groups → ∀ addr, addr.length = 4 →
    ∃ words, parseIpv6Str (some s) addr = some (.ok (), words) ∧
      words.flatMap inMemory =
        groups.flatMap fun g => [BitVec.ofNat 8 (g / 256), BitVec.ofNat 8 g]
  rejects : (∀ groups, ¬ Ipv6Text s groups) → ∀ addr, addr.length = 4 →
    ∃ e words, parseIpv6Str (some s) addr = some (.error e, words)

theorem afterChar_of_notMem (h : c ∉ s) : afterChar s c = none := by
  have hskip : s.dropWhile (· ≠ c) = [] := by
    rw [List.dropWhile_eq_nil_iff]
    intro d hd
    apply decide_eq_true
    rintro rfl
    exact h hd
  rw [afterChar, hskip]

theorem afterChar_of_mem (h : c ∈ s) :
    ∃ rest, afterChar s c = some rest ∧ s.count c = rest.count c + 1 := by
  obtain ⟨text, rest, rfl, hnot⟩ := List.eq_append_cons_of_mem h
  refine ⟨rest, afterChar_append hnot, ?_⟩
  simp [List.count_eq_zero_of_not_mem hnot]

theorem afterDot_of_mem (h : '.' ∈ s) :
    ∃ rest, afterDot s = .ok rest ∧ s.count '.' = rest.count '.' + 1 := by
  obtain ⟨rest, hafter, hcount⟩ := afterChar_of_mem h
  refine ⟨rest, ?_, hcount⟩
  rw [afterDot_eq, hafter]

theorem afterDot_of_notMem (h : '.' ∉ s) : afterDot s = .error .invalidValue := by
  rw [afterDot_eq, afterChar_of_notMem h]

/-- Three dots are all that an IPv4 address is asked for. -/
theorem parseIpv4Str_of_dots (h : 3 ≤ s.count '.') : ∃ addr, parseIpv4Str s = .ok addr := by
  unfold parseIpv4Str
  split
  · exact ⟨_, rfl⟩
  · obtain ⟨ptr₁, h₁, hcount₁⟩ :=
      afterDot_of_mem (List.count_pos_iff.mp (by omega : 0 < s.count '.'))
    obtain ⟨ptr₂, h₂, hcount₂⟩ :=
      afterDot_of_mem (List.count_pos_iff.mp (by omega : 0 < ptr₁.count '.'))
    obtain ⟨ptr₃, h₃, -⟩ :=
      afterDot_of_mem (List.count_pos_iff.mp (by omega : 0 < ptr₂.count '.'))
    refine ⟨beIpv4Addr (atoi s) (atoi ptr₁) (atoi ptr₂) (atoi ptr₃), ?_⟩
    simp [h₁, h₂, h₃, bind, Except.bind, pure, Except.pure]

theorem parseIpv4Str_of_few_dots (h : s.count '.' < 3) (hne : s ≠ uint32ChangeableField) :
    parseIpv4Str s = .error .invalidValue := by
  rw [parseIpv4Str, if_neg hne]
  by_cases hmem : '.' ∈ s
  · obtain ⟨ptr₁, h₁, hcount₁⟩ := afterDot_of_mem hmem
    by_cases hmem₁ : '.' ∈ ptr₁
    · obtain ⟨ptr₂, h₂, hcount₂⟩ := afterDot_of_mem hmem₁
      have hnone : '.' ∉ ptr₂ := List.count_eq_zero.mp (by omega)
      simp [h₁, h₂, afterDot_of_notMem hnone, bind, Except.bind]
    · simp [h₁, afterDot_of_notMem hmem₁, bind, Except.bind]
  · simp [afterDot_of_notMem hmem, bind, Except.bind]

/-- The first byte of a word that is put together is the last in memory. -/
theorem inMemory_append (a b c d : BitVec 8) :
    inMemory (a ++ (b ++ (c ++ d))) = [d, c, b, a] := by
  have hskip : ∀ (v w k : Nat) (x : BitVec v) (y : BitVec w), k + 8 ≤ w →
      (x ++ y).extractLsb' k 8 = y.extractLsb' k 8 := by
    intro v w k x y h
    exact BitVec.extractLsb'_append_eq_of_add_le h
  have hfront : ∀ (w : Nat) (x : BitVec 8) (y : BitVec w), (x ++ y).extractLsb' w 8 = x := by
    intro w x y
    exact BitVec.extractLsb'_append_eq_left
  have hwhole : d.extractLsb' 0 8 = d := BitVec.extractLsb'_eq_self
  have hd : (a ++ (b ++ (c ++ d))).extractLsb' 0 8 = d := by
    rw [hskip _ _ _ _ _ (by decide), hskip _ _ _ _ _ (by decide), hskip _ _ _ _ _ (by decide),
      hwhole]
  have hc : (a ++ (b ++ (c ++ d))).extractLsb' 8 8 = c := by
    rw [hskip _ _ _ _ _ (by decide), hskip _ _ _ _ _ (by decide)]
    exact hfront _ c d
  have hb : (a ++ (b ++ (c ++ d))).extractLsb' 16 8 = b := by
    rw [hskip _ _ _ _ _ (by decide)]
    exact hfront _ b (c ++ d)
  have ha : (a ++ (b ++ (c ++ d))).extractLsb' 24 8 = a := hfront _ a (b ++ (c ++ d))
  exact congrArg₂ _ hd (congrArg₂ _ hc (congrArg₂ _ hb (congrArg₂ _ ha rfl)))

theorem inMemory_rteCpuToBe32 (x : BitVec 32) : inMemory (rteCpuToBe32 x) =
    [x.extractLsb' 24 8, x.extractLsb' 16 8, x.extractLsb' 8 8, x.extractLsb' 0 8] :=
  inMemory_append _ _ _ _

theorem byte_of_word {n k b m : Nat} (hk : k ≤ 24) (h : n / 2 ^ k = 256 * m + b) :
    (BitVec.ofNat 32 n).extractLsb' k 8 = BitVec.ofNat 8 b := by
  apply BitVec.eq_of_toNat_eq
  have hpow : 2 ^ 32 = 2 ^ k * 2 ^ (32 - k) := by
    rw [← Nat.pow_add]
    congr 1
    omega
  have hdvd : 2 ^ 8 ∣ 2 ^ (32 - k) := Nat.pow_dvd_pow 2 (by omega)
  rw [BitVec.extractLsb'_toNat, BitVec.toNat_ofNat, BitVec.toNat_ofNat, Nat.shiftRight_eq_div_pow,
    hpow, Nat.mod_mul_right_div_self, Nat.mod_mod_of_dvd _ hdvd, h]
  omega
/-- Four bytes put together to a word lie in memory with the first in front. -/
theorem inMemory_bytes {a b c d : Nat} (hb : b < 256) (hc : c < 256) (hd : d < 256) :
    inMemory (rteCpuToBe32 (BitVec.ofNat 32 (a * 2 ^ 24 + b * 2 ^ 16 + c * 2 ^ 8 + d))) =
      [a, b, c, d].map (BitVec.ofNat 8) := by
  rw [inMemory_rteCpuToBe32, byte_of_word (m := 0) (b := a) (by decide) (by omega),
    byte_of_word (m := a) (b := b) (by decide) (by omega),
    byte_of_word (m := a * 2 ^ 8 + b) (b := c) (by decide) (by omega),
    byte_of_word (m := a * 2 ^ 16 + b * 2 ^ 8 + c) (b := d) (by decide) (by omega)]
  rfl

theorem ipv4Read_iff (s : List Char) :
    Ipv4Read s ↔ s.count '.' < 3 ∨ ∃ bytes, Ipv4Text s bytes := by
  constructor
  · intro h
    by_cases htext : ∃ bytes, Ipv4Text s bytes
    · exact Or.inr htext
    · left
      by_contra hdots
      have hnone : ∀ bytes, ¬ Ipv4Text s bytes := fun bytes hb => htext ⟨bytes, hb⟩
      have hne : s ≠ uint32ChangeableField := by
        rintro rfl
        revert hdots
        decide
      obtain ⟨addr, hok⟩ := parseIpv4Str_of_dots (s := s) (by omega)
      obtain ⟨e, herror⟩ := h.rejects hnone hne
      rw [hok] at herror
      cases herror
  · intro h
    constructor
    · rintro bytes ⟨hlen, hliteral⟩
      obtain ⟨a, b, c, d, rfl⟩ : ∃ a b c d, bytes = [a, b, c, d] := by
        match bytes, hlen with
        | [a, b, c, d], _ => exact ⟨a, b, c, d, rfl⟩
      have hrange := hliteral.bounded
      refine ⟨_, parseIpv4Str_literal hliteral, ?_⟩
      exact inMemory_bytes (hrange b (by simp)) (hrange c (by simp)) (hrange d (by simp))
    · intro hnone hne
      rcases h with hdots | ⟨bytes, hbytes⟩
      · exact ⟨_, parseIpv4Str_of_few_dots hdots hne⟩
      · exact absurd hbytes (hnone bytes)

theorem strtol_hexadecimalBase (s : List Char) : strtol s hexadecimalBase = (0, s) := rfl

/-- A text with enough colons gives an address of zeros. -/
theorem parseMacAddress_of_colons (h : mac.length ≤ s.count ':' + 1) :
    parseMacAddress s mac = (.ok (), List.replicate mac.length 0) := by
  induction mac generalizing s with
  | nil => rfl
  | cons b mac ih =>
    rw [parseMacAddress, strtol_hexadecimalBase]
    by_cases hlast : mac = []
    · subst hlast
      rfl
    · have hlen := List.length_pos_iff.mpr hlast
      rw [List.length_cons] at h
      obtain ⟨ptr, hafter, hcount⟩ :=
        afterChar_of_mem (List.count_pos_iff.mp (by omega : 0 < s.count ':'))
      simp [hlast, hafter, ih (s := ptr) (by omega), List.replicate_succ]

theorem parseMacAddress_of_few_colons (h : s.count ':' + 1 < mac.length) :
    (parseMacAddress s mac).1 = .error .invalidValue := by
  induction mac generalizing s with
  | nil => simp at h
  | cons b mac ih =>
    rw [List.length_cons] at h
    have hlast : mac ≠ [] := by
      rintro rfl
      simp at h
    rw [parseMacAddress, if_neg hlast]
    by_cases hmem : ':' ∈ s
    · obtain ⟨ptr, hafter, hcount⟩ := afterChar_of_mem hmem
      simp [hafter, ih (s := ptr) (by omega)]
    · simp [afterChar_of_notMem hmem]

theorem ofNat_inj {w n m : Nat} (hn : n < 2 ^ w) (hm : m < 2 ^ w)
    (h : BitVec.ofNat w n = BitVec.ofNat w m) : n = m := by
  have hnat := congrArg BitVec.toNat h
  rwa [BitVec.toNat_ofNat, BitVec.toNat_ofNat, Nat.mod_eq_of_lt hn, Nat.mod_eq_of_lt hm] at hnat

theorem eq_zero_of_ofNat {w n : Nat} (hn : n < 2 ^ w) (h : BitVec.ofNat w n = 0) : n = 0 :=
  ofNat_inj hn Nat.one_le_two_pow h

theorem zeros_of_map {k : Nat} (hlen : bytes.length = k) (hrange : ∀ n ∈ bytes, n < 256)
    (h : bytes.map (BitVec.ofNat 8) = List.replicate k 0) : bytes = List.replicate k 0 := by
  refine List.eq_replicate_iff.mpr ⟨hlen, ?_⟩
  intro n hn
  have hmem : BitVec.ofNat 8 n ∈ bytes.map (BitVec.ofNat 8) := List.mem_map_of_mem hn
  rw [h] at hmem
  exact eq_zero_of_ofNat (hrange n hn) (List.eq_of_mem_replicate hmem)

theorem macRead_iff (s : List Char) :
    MacRead s ↔ s.count ':' < 5 ∨ MacText s (List.replicate 6 0) := by
  have hlen : (List.replicate 6 (0 : BitVec 8)).length = 6 := List.length_replicate
  constructor
  · intro h
    by_cases hcolons : s.count ':' < 5
    · exact Or.inl hcolons
    · right
      have hok := parseMacAddress_of_colons (s := s) (hlen.trans_le (by omega))
      by_cases htext : ∃ bytes, MacText s bytes
      · obtain ⟨bytes, hbytes⟩ := htext
        have hstored := h.stores bytes hbytes _ hlen
        rw [hok, hlen] at hstored
        have hzero : bytes.map (BitVec.ofNat 8) = List.replicate 6 0 := (Prod.mk.inj hstored).2.symm
        rwa [zeros_of_map hbytes.1 hbytes.2.bounded hzero] at hbytes
      · obtain ⟨e, herror⟩ := h.rejects (fun bytes hb => htext ⟨bytes, hb⟩) _ hlen
        rw [hok] at herror
        cases herror
  · intro h
    constructor
    · rintro bytes hbytes mac hmac
      have hcount := hbytes.2.count_sep (by decide)
      rw [hbytes.1] at hcount
      rcases h with hcolons | hzero
      · omega
      · rw [parseMacAddress_of_colons (by omega), hmac, ← hzero.2.unique hbytes.2 (by decide)]
        rfl
    · intro hnone mac hmac
      rcases h with hcolons | hzero
      · exact ⟨_, parseMacAddress_of_few_colons (by omega)⟩
      · exact absurd hzero (hnone _)

/-- Every text gives the address of zeros, since no base is 1. -/
theorem parseIpv6Str_zero (strIp : Cursor) (addr : List (BitVec 32)) :
    parseIpv6Str strIp addr = some (.ok (), List.replicate addr.length 0) := by
  have hat : ∀ ptr : Cursor, strtolAt ptr hexadecimalBase = some (0, ptr) := by
    intro ptr
    cases ptr <;> rfl
  induction addr generalizing strIp with
  | nil => rfl
  | cons w addr ih =>
    simp [parseIpv6Str, hat, ih, List.replicate_succ]
    decide

theorem ipv6Read_iff (s : List Char) : Ipv6Read s ↔ Ipv6Text s (List.replicate 8 0) := by
  have hlen : (List.replicate 4 (0 : BitVec 32)).length = 4 := List.length_replicate
  have hok := parseIpv6Str_zero (some s) (List.replicate 4 0)
  rw [hlen] at hok
  constructor
  · intro h
    by_cases htext : ∃ groups, Ipv6Text s groups
    · obtain ⟨groups, hgroups⟩ := htext
      obtain ⟨words, hwords, hmemory⟩ := h.stores groups hgroups _ hlen
      rw [hok, Option.some.injEq, Prod.mk.injEq] at hwords
      have hzero : groups.flatMap (fun g => [BitVec.ofNat 8 (g / 256), BitVec.ofNat 8 g]) =
          List.replicate 16 0 := by
        rw [← hmemory, ← hwords.2]
        decide
      have hall : ∀ g ∈ groups, g = 0 := by
        intro g hg
        have hrange := hgroups.2.bounded g hg
        have hbyte : ∀ b ∈ [BitVec.ofNat 8 (g / 256), BitVec.ofNat 8 g], b = 0 := by
          intro b hb
          have hmem : b ∈ groups.flatMap fun g => [BitVec.ofNat 8 (g / 256), BitVec.ofNat 8 g] :=
            List.mem_flatMap.mpr ⟨g, hg, hb⟩
          rw [hzero] at hmem
          exact List.eq_of_mem_replicate hmem
        have hhigh : g / 256 = 0 := eq_zero_of_ofNat (by omega) (hbyte _ (by simp))
        exact eq_zero_of_ofNat (by omega) (hbyte _ (by simp))
      have heq : groups = List.replicate 8 0 := List.eq_replicate_iff.mpr ⟨hgroups.1, hall⟩
      rwa [heq] at hgroups
    · obtain ⟨e, words, herror⟩ := h.rejects (fun groups hg => htext ⟨groups, hg⟩) _ hlen
      rw [hok, Option.some.injEq, Prod.mk.injEq] at herror
      cases herror.1
  · intro h
    constructor
    · intro groups hgroups addr haddr
      refine ⟨List.replicate 4 0, ?_, ?_⟩
      · rw [parseIpv6Str_zero, haddr]
      · rw [← h.2.unique hgroups.2 (by decide)]
        decide
    · intro hnone
      exact absurd h (hnone _)

/-- Which texts the three parsers take for what they are. The parts of an IPv4 address are not
checked, and in base 1 every hexadecimal number is zero. -/
theorem address_texts_iff (s : List Char) :
    (Ipv4Read s ↔ s.count '.' < 3 ∨ ∃ bytes, Ipv4Text s bytes) ∧
      (MacRead s ↔ s.count ':' < 5 ∨ MacText s (List.replicate 6 0)) ∧
      (Ipv6Read s ↔ Ipv6Text s (List.replicate 8 0)) :=
  ⟨ipv4Read_iff s, macRead_iff s, ipv6Read_iff s⟩

/-- A letter behind an IPv4 address is not noticed, and a MAC address is read as zeros. -/
theorem wrong_addresses :
    ¬ Ipv4Read ['1', '.', '2', '.', '3', '.', '4', 'x'] ∧
      ¬ MacRead ['a', ':', 'b', ':', 'c', ':', 'd', ':', 'e', ':', 'f'] := by
  constructor
  · intro h
    have hnone : ∀ bytes, ¬ Ipv4Text ['1', '.', '2', '.', '3', '.', '4', 'x'] bytes := by
      rintro bytes ⟨-, hliteral⟩
      have hx : ∀ {s : List Char} {values : List Nat}, Literal 10 256 '.' s values → 'x' ∉ s := by
        intro s values hs
        induction hs with
        | last number range => exact number.sep_notMem (by decide)
        | cons number range tail ih =>
          have hx : 'x' ∉ _ := number.sep_notMem (by decide)
          simp [hx, ih]
      exact hx hliteral (by simp)
    have hok : parseIpv4Str ['1', '.', '2', '.', '3', '.', '4', 'x'] = .ok 0x04030201 := by decide
    obtain ⟨e, herror⟩ := h.rejects hnone (by decide)
    rw [hok] at herror
    cases herror
  · intro h
    have hdigit : ∀ (c : Char) (n : Nat) {rest : List Char} {values : List Nat},
        digitValue c = some n → n < 16 → Literal 16 256 ':' rest values →
          Literal 16 256 ':' (c :: ':' :: rest) (n :: values) := by
      intro c n rest values hvalue hn htail
      exact .cons (numeral_digit hvalue hn) (by omega) htail
    have htext : MacText ['a', ':', 'b', ':', 'c', ':', 'd', ':', 'e', ':', 'f']
        [10, 11, 12, 13, 14, 15] := by
      refine ⟨rfl, ?_⟩
      apply hdigit 'a' 10 rfl (by decide)
      apply hdigit 'b' 11 rfl (by decide)
      apply hdigit 'c' 12 rfl (by decide)
      apply hdigit 'd' 13 rfl (by decide)
      apply hdigit 'e' 14 rfl (by decide)
      exact .last (numeral_digit rfl (by decide)) (by decide)
    have hstored := h.stores _ htext (List.replicate 6 0) rfl
    revert hstored
    decide

end DocaApps.Proofs.AddressTexts
