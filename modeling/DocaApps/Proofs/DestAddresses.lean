import DocaApps.Allreduce.Addresses
import DocaApps.Proofs.AddressTexts

namespace DocaApps.Proofs.DestAddresses
open Common.FlowParser Allreduce.Addresses Lib.CStrings Lib.Numerals Proofs.FlowParser
open Proofs.AddressTexts (afterChar_of_notMem)

variable {malloc : Nat → Bool} {destPort : BitVec 16} {s str : List Char}
  {strs : List (List Char)} {dest d : DestAddresses} {n : Nat}

/-- What `inet_pton` takes for an IPv4 address. -/
def InetPton4 (s : List Char) : Prop := ∃ a b c d, s = dottedQuad a b c d

def HexGroup (s : List Char) : Prop := s.length ≤ 4 ∧ ∃ n, Numeral 16 s n

/-- Hexadecimal groups, one colon between each two. -/
inductive HexGroups : List Char → Nat → Prop where
  | nil : HexGroups [] 0
  | one {s : List Char} (group : HexGroup s) : HexGroups s 1
  | cons {s rest : List Char} {n : Nat} (group : HexGroup s) (tail : HexGroups rest (n + 1)) :
      HexGroups (s ++ ':' :: rest) (n + 2)

/-- The last two groups may be written as an IPv4 address. -/
inductive Groups : List Char → Nat → Prop where
  | hex {s : List Char} {n : Nat} (groups : HexGroups s n) : Groups s n
  | quad {s : List Char} (quad : InetPton4 s) : Groups s 2
  | mixed {s quad : List Char} {n : Nat} (groups : HexGroups s (n + 1)) (last : InetPton4 quad) :
      Groups (s ++ ':' :: quad) (n + 3)

/-- What `inet_pton` takes for an IPv6 address: eight groups, or less of them around two
colons. -/
inductive InetPton6 : List Char → Prop where
  | full {s : List Char} (groups : Groups s 8) : InetPton6 s
  | short {left right : List Char} {n m : Nat} (front : HexGroups left n) (back : Groups right m)
      (few : n + m < 8) : InetPton6 (left ++ ':' :: ':' :: right)

def SetSockaddr (s : List Char) : Prop := InetPton4 s ∨ InetPton6 s

/-- An element of the list: an address, and a port where it has one. -/
structure Element where
  ip : List Char
  port : Option Nat

structure Element.Valid (e : Element) : Prop where
  ip : SetSockaddr e.ip
  port : ∀ p ∈ e.port, 1 ≤ p ∧ p ≤ 65535

def Element.text (e : Element) : List Char :=
  match e.port with
  | none => e.ip
  | some p => e.ip ++ ':' :: Nat.toDigits 10 p

def Element.address (destPort : BitVec 16) (e : Element) : AllreduceAddress :=
  ⟨e.ip, (e.port.map (BitVec.ofNat 16)).getD destPort⟩

def listText (es : List Element) : List Char := [','].intercalate (es.map Element.text)

/-- The list is read as it was written, unless the memory runs out. -/
def Yields (es : List Element) : Prop :=
  ∀ destPort malloc, (∀ n, malloc n = true) →
    destAddressesInit malloc destPort (listText es) =
      .success ⟨es.map (·.address destPort), es.length⟩

/-- Nothing is written behind a buffer, and every IP address has room for its end. -/
structure Safe (s : List Char) : Prop where
  inside : ∀ destPort malloc, destAddressesInit malloc destPort s ≠ .overrun
  fits : ∀ destPort malloc d, destAddressesInit malloc destPort s = .success d →
    ∀ a ∈ d.list, a.ipAddressStr.length < ipAddressStrLen

/-- The text in front of the first colon fits into the buffer. -/
def FitsBuffer (str : List Char) : Prop :=
  ':' ∈ str → (str.takeWhile (· ≠ ':')).length < ipAddressStrLen

theorem parseElement_none (h : FitsBuffer str) : parseElement destPort str ≠ none := by
  unfold parseElement
  by_cases hmem : ':' ∈ str
  · obtain ⟨text, rest, rfl, hnot⟩ := List.eq_append_cons_of_mem hmem
    have hshort := h hmem
    simp only [afterChar_append hnot, if_pos hshort]
    simp
  · simp [afterChar_of_notMem hmem]

theorem parseElement_overrun (h : ¬ FitsBuffer str) : parseElement destPort str = none := by
  obtain ⟨hmem, hlong⟩ := Classical.not_imp.mp h
  obtain ⟨text, rest, rfl, hnot⟩ := List.eq_append_cons_of_mem hmem
  rw [parseElement, afterChar_append hnot]
  exact if_neg hlong

/-- An address that is read has no colon and fits. -/
theorem parseElement_some {a : AllreduceAddress} (h : parseElement destPort str = some a) :
    ':' ∉ a.ipAddressStr ∧ a.ipAddressStr.length < ipAddressStrLen := by
  by_cases hmem : ':' ∈ str
  · obtain ⟨text, rest, rfl, hnot⟩ := List.eq_append_cons_of_mem hmem
    simp only [parseElement, afterChar_append hnot] at h
    split at h
    · rename_i hshort
      cases h
      refine ⟨?_, hshort⟩
      intro hin
      simpa using List.mem_takeWhile_imp hin
    · cases h
  · simp only [parseElement, afterChar_of_notMem hmem] at h
    cases h
    refine ⟨fun hin => hmem (List.mem_of_mem_take hin), ?_⟩
    rw [List.length_take, ipAddressStrLen]
    omega

/-- A list that is returned holds what was read of each element. -/
theorem initFrom_success (h : initFrom malloc destPort strs dest = .success d) :
    ∃ as, strs.map (parseElement destPort) = as.map some ∧ d.list = dest.list ++ as := by
  induction strs generalizing dest with
  | nil =>
    cases h
    exact ⟨[], rfl, (List.append_nil _).symm⟩
  | cons str strs ih =>
    unfold initFrom at h
    split at h
    · split at h
      · rename_i address hparse
        obtain ⟨as, has, hd⟩ := ih h
        refine ⟨address :: as, ?_, ?_⟩
        · rw [List.map_cons, hparse, has, List.map_cons]
        · rw [hd, DestAddresses.insertTail, List.append_assoc, List.singleton_append]
      · cases h
    · cases h

theorem initFrom_yields {as : List AllreduceAddress} (hmalloc : ∀ n, malloc n = true)
    (h : strs.map (parseElement destPort) = as.map some) :
    initFrom malloc destPort strs dest = .success ⟨dest.list ++ as, dest.num + as.length⟩ := by
  induction strs generalizing as dest with
  | nil =>
    rw [List.map_nil, eq_comm, List.map_eq_nil_iff] at h
    subst h
    simp [initFrom]
  | cons str strs ih =>
    cases as with
    | nil => cases h
    | cons a as =>
      obtain ⟨hparse, hrest⟩ := List.cons.inj h
      simp only [initFrom, hmalloc, hparse, ih hrest, DestAddresses.insertTail, ↓reduceIte,
        List.append_assoc, List.singleton_append, List.length_cons, Init.success.injEq,
        DestAddresses.mk.injEq, true_and]
      omega

theorem initFrom_inside (h : ∀ str ∈ strs, FitsBuffer str) :
    initFrom malloc destPort strs dest ≠ .overrun := by
  induction strs generalizing dest with
  | nil => simp [initFrom]
  | cons str strs ih =>
    unfold initFrom
    split
    · split
      · exact ih fun s hs => h s (List.mem_cons_of_mem _ hs)
      · rename_i hnone
        exact absurd hnone (parseElement_none (h str List.mem_cons_self))
    · simp

theorem initFrom_overrun (hmalloc : ∀ n, malloc n = true) (hstr : str ∈ strs)
    (h : ¬ FitsBuffer str) : initFrom malloc destPort strs dest = .overrun := by
  induction strs generalizing dest with
  | nil => cases hstr
  | cons first strs ih =>
    rw [initFrom, if_pos (hmalloc _)]
    rcases List.mem_cons.mp hstr with rfl | hstr
    · rw [parseElement_overrun h]
    · cases hfirst : parseElement destPort first with
      | none => rfl
      | some address => exact ih hstr

/-- The texts whose elements fit are the ones that nothing is written too far for. -/
theorem safe_iff (s : List Char) : Safe s ↔ ∀ str ∈ tokens s ',', FitsBuffer str := by
  constructor
  · intro h str hstr
    by_contra hlong
    exact h.inside 0 (fun _ => true) (initFrom_overrun (fun _ => rfl) hstr hlong)
  · intro h
    constructor
    · intro destPort malloc
      exact initFrom_inside h
    · intro destPort malloc d hd a ha
      obtain ⟨as, has, hlist⟩ := initFrom_success hd
      rw [hlist, List.nil_append] at ha
      have hmem : some a ∈ (tokens s ',').map (parseElement destPort) := by
        rw [has]
        exact List.mem_map_of_mem ha
      obtain ⟨str, -, hparse⟩ := List.mem_map.mp hmem
      exact (parseElement_some hparse).2

theorem toDigits_notMem (p : Nat) : ',' ∉ Nat.toDigits 10 p ∧ ':' ∉ Nat.toDigits 10 p :=
  ⟨(numeral_toDigits p).sep_notMem (by decide), (numeral_toDigits p).sep_notMem (by decide)⟩

theorem InetPton4.notMem (h : InetPton4 s) : ',' ∉ s ∧ ':' ∉ s := by
  obtain ⟨a, b, c, d, rfl⟩ := h
  simp [dottedQuad, toDigits_notMem]

theorem InetPton4.length_le (h : InetPton4 s) : s.length ≤ 15 := by
  obtain ⟨a, b, c, d, rfl⟩ := h
  have hbyte : ∀ x : BitVec 8, (Nat.toDigits 10 x.toNat).length ≤ 3 := by
    intro x
    exact Nat.toDigits_length 10 x.toNat 3 (by decide) (x.isLt.trans (by decide))
  have ha := hbyte a
  have hb := hbyte b
  have hc := hbyte c
  have hd := hbyte d
  simp only [dottedQuad, List.length_append, List.length_cons]
  omega

theorem InetPton4.ne_nil (h : InetPton4 s) : s ≠ [] := by
  obtain ⟨a, b, c, d, rfl⟩ := h
  simp [dottedQuad]

theorem HexGroup.comma_notMem (h : HexGroup s) : ',' ∉ s := by
  obtain ⟨-, n, hn⟩ := h
  exact hn.sep_notMem (by decide)

theorem HexGroups.comma_notMem (h : HexGroups s n) : ',' ∉ s := by
  induction h with
  | nil => simp
  | one group => exact group.comma_notMem
  | cons group tail ih => simp [group.comma_notMem, ih]

theorem Groups.comma_notMem (h : Groups s n) : ',' ∉ s := by
  cases h with
  | hex groups => exact groups.comma_notMem
  | quad quad => exact quad.notMem.1
  | mixed groups last => simp [groups.comma_notMem, last.notMem.1]

theorem Groups.colon_mem (h : Groups s 8) : ':' ∈ s := by
  cases h with
  | hex groups =>
    cases groups with
    | cons group tail => simp
  | mixed groups last => simp

theorem InetPton6.comma_notMem (h : InetPton6 s) : ',' ∉ s := by
  cases h with
  | full groups => exact groups.comma_notMem
  | short front back few => simp [front.comma_notMem, back.comma_notMem]

theorem InetPton6.colon_mem (h : InetPton6 s) : ':' ∈ s := by
  cases h with
  | full groups => exact groups.colon_mem
  | short front back few => simp

theorem SetSockaddr.token (h : SetSockaddr s) : s ≠ [] ∧ ',' ∉ s := by
  rcases h with h4 | h6
  · exact ⟨h4.ne_nil, h4.notMem.1⟩
  · exact ⟨List.ne_nil_of_mem h6.colon_mem, h6.comma_notMem⟩

theorem Element.Valid.token {e : Element} (h : e.Valid) : e.text ≠ [] ∧ ',' ∉ e.text := by
  obtain ⟨hne, hcomma⟩ := h.ip.token
  unfold Element.text
  cases e.port with
  | none => exact ⟨hne, hcomma⟩
  | some p => simp [hcomma, toDigits_notMem]

theorem tokens_listText {es : List Element} (h : ∀ e ∈ es, e.Valid) :
    tokens (listText es) ',' = es.map Element.text := by
  apply tokens_intercalate
  intro t ht
  obtain ⟨e, he, rfl⟩ := List.mem_map.mp ht
  exact (h e he).token

/-- An element with an IPv4 address is read as it was written. -/
theorem parseElement_ipv4 {e : Element} (h : e.Valid) (h4 : InetPton4 e.ip) :
    parseElement destPort e.text = some (e.address destPort) := by
  have hshort := h4.length_le
  have hcolon := h4.notMem.2
  obtain ⟨ip, port⟩ := e
  cases port with
  | none =>
    have htake : ip.take (ipAddressStrLen - 1) = ip :=
      List.take_of_length_le (hshort.trans (by decide))
    simp only [parseElement, Element.text, afterChar_of_notMem hcolon, htake]
    rfl
  | some p =>
    have hrange := h.port p rfl
    have hport : atoi (Nat.toDigits 10 p ++ []) = p :=
      atoi_numeral (numeral_toDigits p) (by omega) rfl
    rw [List.append_nil] at hport
    have hip : (ip ++ ':' :: Nat.toDigits 10 p).takeWhile (· ≠ ':') = ip := by
      rw [List.takeWhile_append_of_pos, List.takeWhile_cons_of_neg (by simp), List.append_nil]
      intro c hc
      apply decide_eq_true
      rintro rfl
      exact hcolon hc
    have hfits : ip.length < ipAddressStrLen := hshort.trans_lt (by decide)
    simp only [parseElement, Element.text, afterChar_append hcolon, hip, if_pos hfits, hport]
    rfl

theorem yields_iff {es : List Element} (h : ∀ e ∈ es, e.Valid) :
    Yields es ↔ ∀ e ∈ es, InetPton4 e.ip := by
  constructor
  · intro hyields e he
    have hinit := hyields 0 (fun _ => true) (fun _ => rfl)
    obtain ⟨as, has, hlist⟩ := initFrom_success hinit
    have hmem : some (e.address 0) ∈ as.map some := by
      apply List.mem_map_of_mem
      rw [List.nil_append] at hlist
      rw [← hlist]
      exact List.mem_map_of_mem he
    rw [← has] at hmem
    obtain ⟨str, -, hparse⟩ := List.mem_map.mp hmem
    have hcolon := (parseElement_some hparse).1
    exact (h e he).ip.resolve_right fun h6 => hcolon h6.colon_mem
  · intro h4 destPort malloc hmalloc
    have helements : (tokens (listText es) ',').map (parseElement destPort) =
        (es.map (·.address destPort)).map some := by
      rw [tokens_listText h, List.map_map, List.map_map]
      apply List.map_congr_left
      intro e he
      exact parseElement_ipv4 (h e he) (h4 e he)
    rw [destAddressesInit, initFrom_yields hmalloc helements]
    simp

/-- The list is read as it was written if and only if all addresses are IPv4, since the first
colon of an element is taken for the one in front of its port. Nothing is written too far if and
only if what stands in front of the first colon of each element fits. -/
theorem dest_addresses_init_iff (es : List Element) (s : List Char)
    (hvalid : ∀ e ∈ es, e.Valid) :
    (Yields es ↔ ∀ e ∈ es, InetPton4 e.ip) ∧ (Safe s ↔ ∀ str ∈ tokens s ',', FitsBuffer str) :=
  ⟨yields_iff hvalid, safe_iff s⟩

def loopback4 : Element := ⟨['1', '2', '7', '.', '0', '.', '0', '.', '1'], some 8080⟩

def loopback6 : Element := ⟨[':', ':', '1'], none⟩

theorem loopback4_ipv4 : InetPton4 loopback4.ip := ⟨127, 0, 0, 1, by decide⟩

theorem loopback4_valid : loopback4.Valid where
  ip := Or.inl loopback4_ipv4
  port := by
    rintro p ⟨⟩
    decide

theorem loopback6_valid : loopback6.Valid where
  ip := by
    have hone : HexGroup ['1'] := ⟨by decide, 1, numeral_digit rfl (by decide)⟩
    exact Or.inr (.short .nil (.hex (.one hone)) (by decide))
  port := by
    rintro p ⟨⟩

theorem dest_addresses_init_loopback :
    ([loopback4] ≠ [] ∧ ∀ e ∈ [loopback4], e.Valid) ∧ Yields [loopback4] ∧ Safe [',', ','] := by
  have hvalid : ∀ e ∈ [loopback4], e.Valid := by
    simpa using loopback4_valid
  obtain ⟨hyields, hsafe⟩ := dest_addresses_init_iff [loopback4] [',', ','] hvalid
  refine ⟨⟨by simp, hvalid⟩, ?_, ?_⟩
  · exact hyields.mpr (by simpa using loopback4_ipv4)
  · have hnone : tokens [',', ','] ',' = [] := by decide
    exact hsafe.mpr (by simp [hnone])

/-- An IPv6 address is cut at its first colon, and a long text in front of a colon is written
behind its buffer. -/
theorem cut_address :
    (loopback6.Valid ∧ ¬ Yields [loopback6]) ∧ ¬ Safe (List.replicate 64 '1' ++ [':']) := by
  refine ⟨⟨loopback6_valid, ?_⟩, ?_⟩
  · intro h
    have hread := h 0 (fun _ => true) fun _ => rfl
    revert hread
    decide
  · intro h
    exact h.inside 0 (fun _ => true) (by decide +kernel)

end DocaApps.Proofs.DestAddresses
