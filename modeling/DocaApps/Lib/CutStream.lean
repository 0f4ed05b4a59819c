import Mathlib

namespace DocaApps.Lib.CutStream

/-- What one read of a stream finds: a nonempty run of data, or a stop without any. -/
inductive Piece (α ε : Type) where
  | data (first : α) (more : List α)
  | stop (why : ε)
  deriving DecidableEq, Repr

variable {α ε : Type}

def payload : List (Piece α ε) → List α
  | [] => []
  | .data a as :: s => (a :: as) ++ payload s
  | .stop _ :: s => payload s

/-- The part of a run that a read left behind goes back in front of the stream. -/
def push : List α → List (Piece α ε) → List (Piece α ε)
  | [], s => s
  | a :: as, s => .data a as :: s

/-- Every stop of the stream stands after a payload of which `P` holds. -/
def StopsAt (P : List α → Prop) : List (Piece α ε) → Prop
  | [] => True
  | .data a as :: s => StopsAt (fun q => P ((a :: as) ++ q)) s
  | .stop _ :: s => P [] ∧ StopsAt P s

/-- What is left to read; every read of a nonempty stream makes it smaller. -/
def weight (s : List (Piece α ε)) : Nat := (payload s).length + s.length

variable {P Q : List α → Prop} {s : List (Piece α ε)}

@[simp] theorem payload_push (as : List α) (s : List (Piece α ε)) :
    payload (push as s) = as ++ payload s := by
  cases as <;> simp [push, payload]

theorem stopsAt_push (as : List α) (s : List (Piece α ε)) :
    StopsAt P (push as s) ↔ StopsAt (fun q => P (as ++ q)) s := by
  cases as <;> simp [push, StopsAt]

theorem mem_push {e : ε} {as : List α} : .stop e ∈ push as s ↔ .stop e ∈ s := by
  cases as <;> simp [push]

theorem StopsAt.mono (h : StopsAt P s) (hPQ : ∀ q, P q → Q q) : StopsAt Q s := by
  induction s generalizing P Q with
  | nil => trivial
  | cons p s ih =>
    cases p with
    | data a as => exact ih h (fun q hq => hPQ _ hq)
    | stop e => exact ⟨hPQ _ h.1, ih h.2 hPQ⟩

theorem stopsAt_of_payload_nil (hs : payload s = []) (hP : P []) : StopsAt P s := by
  induction s with
  | nil => trivial
  | cons p s ih =>
    cases p with
    | data a as => simp [payload] at hs
    | stop e => exact ⟨hP, ih hs⟩

theorem weight_push_lt (as : List α) (a : α) (bs : List α) (s : List (Piece α ε)) :
    weight (push as s) < weight (.data a (bs ++ as) :: s) := by
  cases as with
  | nil =>
    simp only [weight, push, payload, List.length_cons, List.length_append]
    omega
  | cons b as =>
    simp only [weight, push, payload, List.length_cons, List.length_append]
    omega

end DocaApps.Lib.CutStream
