import DocaApps.Lib.Command

namespace DocaApps.Lib.FirstStop

variable {ε σ κ ι : Type}

/-- Commands that either change the state or stop: what the one for an item does, when it stops,
and what it leaves when it does. -/
structure Behaves (body : κ → EStateM ε σ PUnit) (stop : κ → Option ε) (effect : κ → σ → σ)
    (undo : κ → ε → σ → σ) : Prop where
  ok : ∀ {k s}, stop k = none → body k s = .ok ⟨⟩ (effect k s)
  error : ∀ {k e s}, stop k = some e → body k s = .error e (undo k e s)

/-- The items before the first one that stops. -/
def performed (stop : κ → Option ε) (ks : List κ) : List κ :=
  ks.takeWhile fun k => (stop k).isNone

def total (effect : κ → σ → σ) (ks : List κ) (s : σ) : σ := ks.foldl (fun s k => effect k s) s

variable {body : κ → EStateM ε σ PUnit} {stop : κ → Option ε} {effect : κ → σ → σ}
  {undo : κ → ε → σ → σ} {k : κ} {e : ε} {ks pre post : List κ} {s : σ}

@[simp] theorem total_nil : total effect [] s = s := rfl

@[simp] theorem total_cons : total effect (k :: ks) s = total effect ks (effect k s) := rfl

@[simp] theorem total_append :
    total effect (pre ++ post) s = total effect post (total effect pre s) := List.foldl_append ..

/-- Items without an effect. -/
theorem total_eq_self (h : ∀ k ∈ ks, ∀ s, effect k s = s) : total effect ks s = s := by
  induction ks with
  | nil => rfl
  | cons k ks ih =>
    rw [total_cons, h k List.mem_cons_self]
    apply ih
    intro j hj
    exact h j (List.mem_cons_of_mem k hj)

theorem performed_eq (hpre : ∀ j ∈ pre, stop j = none) (hk : stop k = some e) :
    performed stop (pre ++ k :: post) = pre := by
  induction pre with
  | nil => simp [performed, hk]
  | cons j pre ih =>
    have hj := hpre j List.mem_cons_self
    have htail : performed stop (pre ++ k :: post) = pre := by
      apply ih
      intro i hi
      exact hpre i (List.mem_cons_of_mem j hi)
    simpa [performed, hj] using htail

/-- Either nothing stops, or something does first. -/
theorem none_or_first (stop : κ → Option ε) (ks : List κ) : (∀ k ∈ ks, stop k = none) ∨
    ∃ pre k e post, ks = pre ++ k :: post ∧ (∀ j ∈ pre, stop j = none) ∧ stop k = some e := by
  cases hfirst : ks.findSome? stop with
  | none => exact .inl (List.findSome?_eq_none_iff.mp hfirst)
  | some e =>
    obtain ⟨pre, k, post, hks, hk, hpre⟩ := List.findSome?_eq_some_iff.mp hfirst
    exact .inr ⟨pre, k, e, post, hks, hpre, hk⟩

theorem findSome?_first (hpre : ∀ j ∈ pre, stop j = none) (hk : stop k = some e) (post : List κ) :
    (pre ++ k :: post).findSome? stop = some e :=
  List.findSome?_eq_some_iff.mpr ⟨pre, k, post, rfl, hk, hpre⟩

theorem Behaves.congr {effect' : κ → σ → σ} {undo' : κ → ε → σ → σ}
    (h : Behaves body stop effect undo) (hok : ∀ k s, stop k = none → effect k s = effect' k s)
    (herror : ∀ k e s, stop k = some e → undo k e s = undo' k e s) :
    Behaves body stop effect' undo' where
  ok hk := (h.ok hk).trans (by rw [hok _ _ hk])
  error hk := (h.error hk).trans (by rw [herror _ _ _ hk])

/-- Commands that never stop. -/
theorem Behaves.modify (effect : κ → σ → σ) :
    @Behaves ε σ κ (fun k => modify (effect k)) (fun _ => none) effect fun _ _ s => s where
  ok _ := rfl
  error hk := by cases hk

theorem Behaves.forM_ok (h : Behaves body stop effect undo) (hks : ∀ k ∈ ks, stop k = none) :
    ks.forM body s = .ok ⟨⟩ (total effect ks s) := by
  induction ks generalizing s with
  | nil => rfl
  | cons k ks ih =>
    have hk := h.ok (s := s) (hks k List.mem_cons_self)
    rw [List.forM_eq_forM, List.forM_cons, Command.run_bind hk]
    apply ih
    intro j hj
    exact hks j (List.mem_cons_of_mem k hj)

/-- A loop ends at the first item that stops. -/
theorem Behaves.forM_error (h : Behaves body stop effect undo) (hpre : ∀ j ∈ pre, stop j = none)
    (hk : stop k = some e) :
    (pre ++ k :: post).forM body s = .error e (undo k e (total effect pre s)) := by
  induction pre generalizing s with
  | nil =>
    rw [List.nil_append, List.forM_eq_forM, List.forM_cons, Command.run_bind_error (h.error hk)]
    rfl
  | cons j pre ih =>
    have hj := h.ok (s := s) (hpre j List.mem_cons_self)
    rw [List.cons_append, List.forM_eq_forM, List.forM_cons, Command.run_bind hj]
    apply ih
    intro i hi
    exact hpre i (List.mem_cons_of_mem j hi)

/-- A loop of such commands, as one command: it stops when one of them does, and leaves what those
before that one did. -/
theorem Behaves.loop (h : Behaves body stop effect fun _ _ s => s) (items : ι → List κ) :
    Behaves (fun i => (items i).forM body) (fun i => (items i).findSome? stop)
      (fun i => total effect (items i)) fun i _ => total effect (performed stop (items i)) where
  ok hnone := h.forM_ok (List.findSome?_eq_none_iff.mp hnone)
  error hsome := by
    obtain ⟨pre, k, post, hks, hk, hpre⟩ := List.findSome?_eq_some_iff.mp hsome
    rw [hks, h.forM_error hpre hk, performed_eq hpre hk]

/-- A command that cleans up when it stops. -/
theorem Behaves.tryCatch {handle : κ → ε → EStateM ε σ PUnit} {clean : κ → ε → σ → σ}
    (h : Behaves body stop effect undo) (hclean : ∀ k e s, handle k e s = .error e (clean k e s)) :
    Behaves (fun k => tryCatch (body k) (handle k)) stop effect
      fun k e s => clean k e (undo k e s) where
  ok hnone := Command.tryCatch_ok (h.ok hnone)
  error hsome := (Command.tryCatch_error (h.error hsome)).trans (hclean ..)

variable {m : Type → Type} [Monad m] {valid : κ → Bool} {limit : Int} {n : Nat}

/-- The loop over all items that passes over some of them, and ends early when it has counted so
many of the others. -/
def visit (valid : κ → Bool) (limit : Int) (body : κ → m PUnit) : Nat → List κ → m PUnit
  | _, [] => pure ⟨⟩
  | n, k :: ks =>
    if valid k then do
      body k
      if limit ≤ n + 1 then pure ⟨⟩ else visit valid limit body (n + 1) ks
    else visit valid limit body n ks

/-- The items it comes to: at least one, whatever the limit. -/
def visited (valid : κ → Bool) (limit : Int) (ks : List κ) : List κ :=
  (ks.filter valid).take (max 1 limit.toNat)

theorem visit_counted (body : κ → m PUnit) : visit valid limit body n ks =
    ((ks.filter valid).take (max 1 (limit.toNat - n))).forM body := by
  induction ks generalizing n with
  | nil => rw [List.filter_nil, List.take_nil, visit, List.forM_eq_forM, List.forM_nil]
  | cons k ks ih =>
    unfold visit
    by_cases hk : valid k = true
    · rw [if_pos hk, List.filter_cons_of_pos hk]
      obtain ⟨l, hl⟩ : ∃ l, max 1 (limit.toNat - n) = l + 1 :=
        ⟨max 1 (limit.toNat - n) - 1, by omega⟩
      rw [hl, List.take_succ_cons, List.forM_eq_forM, List.forM_cons]
      congr 1
      funext _
      split
      · obtain rfl : l = 0 := by omega
        rw [List.take_zero, List.forM_nil]
      · obtain rfl : l = max 1 (limit.toNat - (n + 1)) := by omega
        exact ih
    · rw [if_neg hk, List.filter_cons_of_neg hk]
      exact ih

theorem visit_eq (body : κ → m PUnit) :
    visit valid limit body 0 ks = (visited valid limit ks).forM body := visit_counted body

end DocaApps.Lib.FirstStop
