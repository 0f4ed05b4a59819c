import Mathlib

namespace DocaApps.Lib.EntryQueue

variable {π κ : Type}

/-- The queue of a port: the entries held back until a later one releases them, and the
released ones that have not completed. Each entry is known by a tag. -/
structure Queue (κ : Type) where
  held : Multiset κ
  released : Multiset κ

def Queue.all (q : Queue κ) : Multiset κ := q.held + q.released

def Queue.add (q : Queue κ) (tag : κ) (wait : Bool) : Queue κ :=
  if wait then ⟨tag ::ₘ q.held, q.released⟩ else ⟨0, q.released + tag ::ₘ q.held⟩

theorem all_add (q : Queue κ) (tag : κ) (wait : Bool) : (Queue.add q tag wait).all = tag ::ₘ q.all := by
  cases wait with
  | false => simp [Queue.add, Queue.all, add_comm]
  | true => simp [Queue.add, Queue.all]

@[simp] theorem card_add (q : Queue κ) (tag : κ) (wait : Bool) : (Queue.add q tag wait).all.card = q.all.card + 1 := by
  rw [all_add, Multiset.card_cons]

@[simp] theorem held_add_release (q : Queue κ) (tag : κ) : (q.add tag false).held = 0 := rfl

variable [DecidableEq π] [DecidableEq κ]

def Queue.complete (q : Queue κ) (done : Multiset κ) : Queue κ := ⟨q.held, q.released - done⟩

/-- What a port sees: an entry is added, or a processing call completes some. -/
inductive Event (π κ : Type) where
  | add (port : π) (tag : κ) (wait : Bool)
  | process (port : π) (done : Multiset κ)
  | other

abbrev Queues (π κ : Type) := π → Queue κ

def Queues.empty : Queues π κ := fun _ => ⟨0, 0⟩

def step (qs : Queues π κ) : Event π κ → Queues π κ
  | .add port tag wait => Function.update qs port ((qs port).add tag wait)
  | .process port done => Function.update qs port ((qs port).complete done)
  | .other => qs

def after (qs : Queues π κ) (es : List (Event π κ)) : Queues π κ := es.foldl step qs

/-- A processing call only completes entries that were released. -/
def Allowed (qs : Queues π κ) : Event π κ → Prop
  | .process port done => done ≤ (qs port).released
  | _ => True

def Documented (qs : Queues π κ) : List (Event π κ) → Prop
  | [] => True
  | e :: es => Allowed qs e ∧ Documented (step qs e) es

/-- No port has more than `depth` entries outstanding. -/
def Fits (depth : Nat) (qs : Queues π κ) : Prop := ∀ port, (qs port).all.card ≤ depth

/-- No port ever has more than `depth` entries outstanding. -/
def Within (depth : Nat) (qs : Queues π κ) : List (Event π κ) → Prop
  | [] => Fits depth qs
  | e :: es => Fits depth qs ∧ Within depth (step qs e) es

variable {q : Queue κ} {qs : Queues π κ} {es : List (Event π κ)} {e : Event π κ} {depth : Nat}
  {tag : κ} {done : Multiset κ} {port : π}

theorem count_add (wait : Bool) (k : κ) :
    (q.add tag wait).all.count k = q.all.count k + if k = tag then 1 else 0 := by
  rw [all_add, Multiset.count_cons]

@[simp] theorem held_complete : (q.complete done).held = q.held := rfl

theorem count_complete (h : done ≤ q.released) (k : κ) :
    (q.complete done).all.count k + done.count k = q.all.count k := by
  have hle := Multiset.count_le_of_le k h
  simp only [Queue.complete, Queue.all, Multiset.count_add, Multiset.count_sub]
  omega

theorem card_complete_le : (q.complete done).all.card ≤ q.all.card := by
  apply Multiset.card_le_card
  exact add_le_add (le_refl _) (Multiset.sub_le_self _ _)

theorem after_snoc : after qs (es ++ [e]) = step (after qs es) e := by
  simp [after]

theorem documented_snoc :
    Documented qs (es ++ [e]) ↔ Documented qs es ∧ Allowed (after qs es) e := by
  induction es generalizing qs with
  | nil => simp [Documented, after]
  | cons d es ih => simp only [List.cons_append, Documented, ih, and_assoc, after, List.foldl_cons]

theorem within_snoc :
    Within depth qs (es ++ [e]) ↔ Within depth qs es ∧ Fits depth (step (after qs es) e) := by
  induction es generalizing qs with
  | nil => simp [Within, after]
  | cons d es ih => simp only [List.cons_append, Within, ih, and_assoc, after, List.foldl_cons]

/-- What holds over a whole run holds over its first part. -/
theorem documented_of_append {fs : List (Event π κ)} (h : Documented qs (es ++ fs)) :
    Documented qs es := by
  induction es generalizing qs with
  | nil => trivial
  | cons d es ih => exact ⟨h.1, ih h.2⟩

theorem within_of_append {fs : List (Event π κ)} (h : Within depth qs (es ++ fs)) :
    Within depth qs es := by
  induction es generalizing qs with
  | nil =>
    cases fs with
    | nil => exact h
    | cons f fs => exact h.1
  | cons d es ih => exact ⟨h.1, ih h.2⟩

theorem Within.fits (h : Within depth qs es) : Fits depth (after qs es) := by
  induction es generalizing qs with
  | nil => exact h
  | cons d es ih => exact ih h.2

end DocaApps.Lib.EntryQueue
