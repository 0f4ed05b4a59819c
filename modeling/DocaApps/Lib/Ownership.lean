import DocaApps.Lib.Endings
import DocaApps.Lib.Handles

namespace DocaApps.Lib.Ownership
open Handles Command Endings

section Triples
variable {ε σ α β : Type} {p p' q q' r r' : σ → Prop}

/-- From every state in `p` the command ends in `q`, or with an error in `r`. -/
structure Triple (p : σ → Prop) (c : EStateM ε σ α) (q r : σ → Prop) : Prop where
  ends : ∀ s, p s → Ends c (fun _ => q) (fun _ => r) s

/-- No state. -/
def Never (_ : σ) : Prop := False

theorem Triple.mono {c : EStateM ε σ α} (h : Triple p c q r) (hp : ∀ s, p' s → p s)
    (hq : ∀ s, q s → q' s) (hr : ∀ s, r s → r' s) : Triple p' c q' r' :=
  ⟨fun s hs => (h.ends s (hp s hs)).mono (fun _ => hq) fun _ => hr⟩

/-- A command that cannot fail does so in no state. -/
theorem Triple.sure {c : EStateM ε σ α} (h : Triple p c q Never) : Triple p c q r :=
  h.mono (fun _ hs => hs) (fun _ hs => hs) fun _ hs => hs.elim

theorem Triple.pure (a : α) : Triple p (pure a : EStateM ε σ α) p r :=
  ⟨fun _ hs => (ends_pure a).mpr hs⟩

theorem Triple.raise (e : ε) : Triple p (throw e : EStateM ε σ α) q p :=
  ⟨fun _ hs => (ends_throw e).mpr hs⟩

theorem Triple.modify {g : σ → σ} (hg : ∀ s, p s → q (g s)) :
    Triple p (modify g : EStateM ε σ PUnit) q r :=
  ⟨fun s hs => ends_modify.mpr (hg s hs)⟩

theorem Triple.bind {c : EStateM ε σ α} {f : α → EStateM ε σ β} (hc : Triple p c q r)
    (hf : ∀ a, Triple q (f a) q' r) : Triple p (c >>= f) q' r :=
  ⟨fun s hs => Ends.bind (hc.ends s hs) fun a t ht => (hf a).ends t ht⟩

theorem Triple.ite {b : Prop} [Decidable b] {c d : EStateM ε σ α} (hc : b → Triple p c q r)
    (hd : ¬ b → Triple p d q r) : Triple p (if b then c else d) q r := by
  split
  · exact hc ‹_›
  · exact hd ‹_›

/-- An error is handled where the command left the state. -/
theorem Triple.handled {c : EStateM ε σ α} {handle : ε → EStateM ε σ α} (hc : Triple p c q r)
    (hh : ∀ e, Triple r (handle e) q r') : Triple p (tryCatch c handle) q r' := by
  constructor
  intro s hs
  cases hrun : c s with
  | ok a t => exact (ends_of_ok (tryCatch_ok hrun)).mpr ((hc.ends s hs).ok hrun)
  | error e t =>
    have ht := (hh e).ends t ((hc.ends s hs).error hrun)
    have hcatch : tryCatch c handle s = handle e t := tryCatch_error hrun
    exact ⟨fun ha => ht.ok (hcatch.symm.trans ha), fun he => ht.error (hcatch.symm.trans he)⟩

/-- A step whose clean-up undoes what there was. -/
theorem Triple.undone {c cleanup : EStateM ε σ PUnit} (hc : Triple p c q r)
    (hcleanup : Triple r cleanup r' Never) :
    Triple p (tryCatch c fun e => do cleanup; throw e) q r' :=
  hc.handled fun e => hcleanup.sure.bind fun _ => .raise e

/-- A step that cannot fail, for a caller that asks whether it did. -/
theorem Triple.succeeds {c : EStateM ε σ PUnit} {f : Bool → EStateM ε σ β}
    (hc : Triple p c q Never) (hf : Triple q (f true) q' r) :
    Triple p (succeeded c >>= f) q' r := by
  constructor
  intro s hs
  obtain ⟨a, t, hrun, ht⟩ := Ends.succeeds (hc.ends s hs)
  have hbind : (succeeded c >>= f) s = f true t := run_bind (succeeded_ok hrun)
  have hrest := hf.ends t ht
  exact ⟨fun ha => hrest.ok (hbind.symm.trans ha), fun he => hrest.error (hbind.symm.trans he)⟩

/-- A loop, by what holds before each of its passes. -/
theorem Triple.forM_Ico (inv : Nat → σ → Prop) {body : Nat → EStateM ε σ PUnit} {a b : Nat}
    (hab : a ≤ b) (hbody : ∀ i, a ≤ i → i < b → Triple (inv i) (body i) (inv (i + 1)) r) :
    Triple (inv a) ((List.Ico a b).forM body) (inv b) r := by
  induction hk : b - a generalizing a with
  | zero =>
    have hend : a = b := by omega
    rw [hend, List.Ico.self_empty]
    exact .pure _
  | succ k ih =>
    have hlt : a < b := by omega
    rw [List.Ico.eq_cons hlt]
    refine Triple.bind (hbody a le_rfl hlt) fun _ => ?_
    exact ih hlt (fun i hi => hbody i (by omega)) (by omega)

theorem Triple.forM_range (inv : Nat → σ → Prop) {body : Nat → EStateM ε σ PUnit} {n : Nat}
    (hbody : ∀ i, i < n → Triple (inv i) (body i) (inv (i + 1)) r) :
    Triple (inv 0) ((List.range n).forM body) (inv n) r := by
  rw [← List.Ico.zero_bot]
  exact .forM_Ico inv n.zero_le fun i _ => hbody i

end Triples

section Handles
variable {η : Type} {m : Multiset η} {t : Table η} {h : η}

/-- The table holds just these handles, and nothing was done with any other. -/
structure Owns (m : Multiset η) (t : Table η) : Prop where
  live : (t.live : Multiset η) = m
  proper : t.misused = false

theorem Owns.create (ht : Owns m t) (h : η) : Owns (h ::ₘ m) (t.create h) := by
  constructor
  · rw [Table.create, ← Multiset.cons_coe, ht.live]
  · exact ht.proper

theorem Owns.mem (ht : Owns m t) : h ∈ t.live ↔ h ∈ m := by
  rw [← ht.live, Multiset.mem_coe]

theorem Owns.use [DecidableEq η] (ht : Owns m t) {hs : List η} (hmem : ∀ k ∈ hs, k ∈ m) :
    Owns m (t.use hs) := by
  constructor
  · exact ht.live
  · simp only [Table.use, ht.proper, Bool.false_or, List.any_eq_false, decide_eq_true_eq]
    intro k hk
    exact not_not_intro (ht.mem.mpr (hmem k hk))

theorem Owns.release [DecidableEq η] (ht : Owns (h ::ₘ m) t) : Owns m (t.release [] h) := by
  have hlive : h ∈ t.live := ht.mem.mpr (Multiset.mem_cons_self h m)
  have hrelease : t.release [] h =
      { t with live := t.live.erase h, started := t.started.erase h } := by
    simp only [Table.release, if_neg (not_not_intro hlive), List.any_nil, Bool.false_eq_true,
      if_false]
  rw [hrelease]
  constructor
  · rw [← Multiset.coe_erase, ht.live, Multiset.erase_cons_head]
  · exact ht.proper

theorem owns_zero_iff : Owns 0 t ↔ t.Settled := by
  constructor
  · intro ht
    exact ⟨Multiset.coe_eq_zero _ |>.mp ht.live, ht.proper⟩
  · intro ht
    exact ⟨(Multiset.coe_eq_zero _).mpr ht.released, ht.proper⟩

/-- The entries of an array from one index up to another. -/
def entries (f : Nat → η) (a b : Nat) : Multiset η := ((List.Ico a b).map f : List η)

@[simp] theorem entries_self (f : Nat → η) (a : Nat) : entries f a a = 0 := by
  rw [entries, List.Ico.self_empty]
  rfl

theorem entries_top (f : Nat → η) {a b : Nat} (h : a ≤ b) :
    entries f a (b + 1) = f b ::ₘ entries f a b := by
  rw [entries, List.Ico.succ_top h, List.map_append, ← Multiset.coe_add, add_comm]
  rfl

theorem entries_bottom (f : Nat → η) {a b : Nat} (h : a < b) :
    entries f a b = f a ::ₘ entries f (a + 1) b := by
  rw [entries, List.Ico.eq_cons h]
  rfl

@[simp] theorem mem_entries {f : Nat → η} {a b : Nat} :
    h ∈ entries f a b ↔ ∃ i, (a ≤ i ∧ i < b) ∧ f i = h := by
  rw [entries, Multiset.mem_coe, List.mem_map]
  simp only [List.Ico.mem]

end Handles

end DocaApps.Lib.Ownership
