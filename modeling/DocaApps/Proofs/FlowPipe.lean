import DocaApps.Common.FlowPipe

namespace DocaApps.Proofs.FlowPipe
open Common.FlowPipe

@[simp] theorem fieldMatches_zero {n : Nat} (entry value : BitVec n) :
    fieldMatches (0#n) entry value = true := by
  simp [fieldMatches]

@[simp] theorem fieldMatches_changeable32 (entry value : BitVec 32) :
    fieldMatches 4294967295#32 entry value = (value == entry) := by
  simp [fieldMatches]

@[simp] theorem fieldMatches_changeable16 (entry value : BitVec 16) :
    fieldMatches 65535#16 entry value = (value == entry) := by
  simp [fieldMatches]

@[simp] theorem setField_zero {n : Nat} (entry value : BitVec n) :
    setField (0#n) entry value = value := by
  simp [setField]

@[simp] theorem setField_changeable32 (entry value : BitVec 32) :
    setField 4294967295#32 entry value = entry := by
  simp [setField]

@[simp] theorem setField_changeable16 (entry value : BitVec 16) :
    setField 65535#16 entry value = entry := by
  simp [setField]

theorem rteCpuToBe16_involutive (x : BitVec 16) : rteCpuToBe16 (rteCpuToBe16 x) = x := by
  apply BitVec.eq_of_getLsbD_eq
  intro i hi
  simp only [rteCpuToBe16, BitVec.getLsbD_append, BitVec.getLsbD_extractLsb']
  interval_cases i <;> simp

theorem rteCpuToBe16_inj {x y : BitVec 16} : rteCpuToBe16 x = rteCpuToBe16 y ↔ x = y := by
  constructor
  · intro h
    rw [← rteCpuToBe16_involutive x, h, rteCpuToBe16_involutive]
  · exact fun h => h ▸ rfl

variable {pipe : Pipe} {p q : Packet}

theorem only_fwd_iff (hne : pipe.fwd ≠ pipe.missFwd) :
    Only (pipe.process p) (pipe.fwd, q) ↔
      pipe.hits p ≠ [] ∧ ∀ e ∈ pipe.hits p, pipe.actions.apply e.actions p = q := by
  unfold Pipe.process
  cases h : pipe.hits p with
  | nil =>
    simp only [Only, List.mem_singleton, ne_eq, not_true_eq_false, false_and, iff_false, not_and]
    intro _ hall
    exact hne (congrArg Prod.fst (hall _ rfl)).symm
  | cons e es =>
    simp only [Only, ne_eq, List.map_eq_nil_iff, List.mem_map, forall_exists_index, and_imp,
      forall_apply_eq_imp_iff₂, Prod.mk.injEq, true_and]

theorem only_miss_iff (hne : pipe.fwd ≠ pipe.missFwd) :
    Only (pipe.process p) (pipe.missFwd, p) ↔ pipe.hits p = [] := by
  unfold Pipe.process
  cases h : pipe.hits p with
  | nil => simp [Only]
  | cons e es =>
    simp only [Only, reduceCtorEq, iff_false, not_and]
    intro _ hall
    exact hne (congrArg Prod.fst (hall _ (List.mem_map_of_mem List.mem_cons_self)))

section Translation

variable {E : Type} {ok : Packet → Prop} {key : Packet → E} {put : Packet → E → Packet}

/-- The pipe is an exact-match table: a packet hits the pairs that have its key and is
given their targets. -/
structure IsTable (pipe : Pipe) (ok : Packet → Prop) (key : Packet → E)
    (put : Packet → E → Packet) (installed : List (E × E)) : Prop where
  misses : pipe.missFwd = .drop
  forwards : pipe.fwd ≠ .drop
  hit : ∀ p x, x ∈ installed → ok p → key p = x.1 →
    ∃ e ∈ pipe.hits p, pipe.actions.apply e.actions p = put p x.2
  of_hit : ∀ p, ∀ e ∈ pipe.hits p, ok p ∧
    ∃ x ∈ installed, key p = x.1 ∧ pipe.actions.apply e.actions p = put p x.2

/-- Packets with the key of a wanted pair leave with its target, the others are dropped. -/
def Translates (process : Packet → List (Fwd × Packet)) (fwd : Fwd) (ok : Packet → Prop)
    (key : Packet → E) (put : Packet → E → Packet) (wanted : List (E × E)) : Prop :=
  (∀ x ∈ wanted, ∀ p, ok p → key p = x.1 → Only (process p) (fwd, put p x.2)) ∧
    ∀ p, (¬ ok p ∨ ∀ x ∈ wanted, key p ≠ x.1) → Only (process p) (.drop, p)

variable {installed wanted : List (E × E)}

theorem isTable_of_map {α : Type} {items : List α} {entry : α → Entry} {pair : α → E × E}
    (hentries : pipe.entries = items.map entry) (hmiss : pipe.missFwd = .drop)
    (hfwd : pipe.fwd ≠ .drop)
    (haccepts : ∀ a p, pipe.pattern.accepts (entry a).pattern p = true ↔ ok p ∧ key p = (pair a).1)
    (happly : ∀ a p, pipe.actions.apply (entry a).actions p = put p (pair a).2) :
    IsTable pipe ok key put (items.map pair) where
  misses := hmiss
  forwards := hfwd
  hit := by
    intro p x hx hok hkey
    obtain ⟨a, ha, rfl⟩ := List.mem_map.mp hx
    refine ⟨entry a, ?_, happly a p⟩
    rw [Pipe.hits, hentries]
    exact List.mem_filter.mpr ⟨List.mem_map_of_mem ha, (haccepts a p).mpr ⟨hok, hkey⟩⟩
  of_hit := by
    intro p e he
    rw [Pipe.hits, hentries] at he
    obtain ⟨hmem, hacc⟩ := List.mem_filter.mp he
    obtain ⟨a, ha, rfl⟩ := List.mem_map.mp hmem
    obtain ⟨hok, hkey⟩ := (haccepts a p).mp hacc
    exact ⟨hok, pair a, List.mem_map_of_mem ha, hkey, happly a p⟩

theorem IsTable.only_put_iff (h : IsTable pipe ok key put installed) :
    Only (pipe.process p) (pipe.fwd, q) ↔ ok p ∧ (∃ x ∈ installed, key p = x.1) ∧
      ∀ x ∈ installed, key p = x.1 → put p x.2 = q := by
  rw [only_fwd_iff (by rw [h.misses]; exact h.forwards)]
  constructor
  · rintro ⟨hne, hall⟩
    obtain ⟨e, he⟩ := List.exists_mem_of_ne_nil _ hne
    obtain ⟨hok, x, hx, hkey, -⟩ := h.of_hit p e he
    refine ⟨hok, ⟨x, hx, hkey⟩, ?_⟩
    intro y hy hkey'
    obtain ⟨e', he', hput⟩ := h.hit p y hy hok hkey'
    rw [← hput]
    exact hall e' he'
  · rintro ⟨hok, ⟨x, hx, hkey⟩, hall⟩
    obtain ⟨e, he, -⟩ := h.hit p x hx hok hkey
    refine ⟨List.ne_nil_of_mem he, ?_⟩
    intro e' he'
    obtain ⟨-, y, hy, hkey', hput⟩ := h.of_hit p e' he'
    rw [hput]
    exact hall y hy hkey'

theorem IsTable.only_drop_iff (h : IsTable pipe ok key put installed) :
    Only (pipe.process p) (.drop, p) ↔ ¬ ok p ∨ ∀ x ∈ installed, key p ≠ x.1 := by
  rw [← h.misses, only_miss_iff (by rw [h.misses]; exact h.forwards)]
  constructor
  · intro hnil
    by_cases hok : ok p
    · refine .inr fun x hx hkey => ?_
      obtain ⟨e, he, -⟩ := h.hit p x hx hok hkey
      rw [hnil] at he
      contradiction
    · exact .inl hok
  · intro hmiss
    apply List.eq_nil_iff_forall_not_mem.mpr
    intro e he
    obtain ⟨hok, x, hx, hkey, -⟩ := h.of_hit p e he
    rcases hmiss with hnot | hnone
    · exact hnot hok
    · exact hnone x hx hkey

/-- A table translates as wanted just when it has the wanted pairs and no others. -/
theorem translates_iff (h : IsTable pipe ok key put installed)
    (hpackets : ∀ a, ∃ p, ok p ∧ key p = a) (hput : ∀ p b b', put p b = put p b' → b = b')
    (hwanted : (wanted.map Prod.fst).Nodup) :
    Translates pipe.process pipe.fwd ok key put wanted ↔ ∀ x, x ∈ installed ↔ x ∈ wanted := by
  have hfun : ∀ x ∈ wanted, ∀ y ∈ wanted, x.1 = y.1 → x = y := fun x hx y hy =>
    List.inj_on_of_nodup_map hwanted hx hy
  unfold Translates
  simp only [h.only_put_iff, h.only_drop_iff]
  constructor
  · rintro ⟨hgood, hbad⟩ x
    obtain ⟨p, hok, hkey⟩ := hpackets x.1
    constructor
    · intro hx
      by_cases hw : ∃ y ∈ wanted, key p = y.1
      · obtain ⟨y, hy, hkey'⟩ := hw
        have htarget := hput _ _ _ ((hgood y hy p hok hkey').2.2 x hx hkey)
        rwa [Prod.ext (hkey.symm.trans hkey') htarget]
      · have hnone : ∀ y ∈ wanted, key p ≠ y.1 := fun y hy heq => hw ⟨y, hy, heq⟩
        rcases hbad p (.inr hnone) with hnot | hmiss
        · exact absurd hok hnot
        · exact absurd hkey (hmiss x hx)
    · intro hx
      obtain ⟨-, ⟨y, hy, hkey'⟩, hall⟩ := hgood x hx p hok hkey
      have htarget := hput _ _ _ (hall y hy hkey')
      rwa [← Prod.ext (hkey'.symm.trans hkey) htarget]
  · intro hsame
    constructor
    · intro x hx p hok hkey
      refine ⟨hok, ⟨x, (hsame x).mpr hx, hkey⟩, ?_⟩
      intro y hy hkey'
      rw [hfun y ((hsame y).mp hy) x hx (hkey'.symm.trans hkey)]
    · rintro p (hnot | hnone)
      · exact .inl hnot
      · exact .inr fun x hx => hnone x ((hsame x).mp hx)

end Translation

end DocaApps.Proofs.FlowPipe
