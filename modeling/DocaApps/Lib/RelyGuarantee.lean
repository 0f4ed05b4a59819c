import DocaApps.Lib.Runs

namespace DocaApps.Lib.RelyGuarantee
open Lib.Runs

/-- A sequential program: it gives commands one after the other and goes on with the answer
or the error that each of them gets. -/
inductive Prog (κ ρ ε α : Type) where
  | done (r : Except ε α)
  | op (c : κ) (k : Except ε ρ → Prog κ ρ ε α)

variable {κ ρ ε ω σ α β : Type}

namespace Prog

def bind : Prog κ ρ ε α → (α → Prog κ ρ ε β) → Prog κ ρ ε β
  | .done (.ok a), f => f a
  | .done (.error e), _ => .done (.error e)
  | .op c k, f => .op c fun r => (k r).bind f

instance : Monad (Prog κ ρ ε) where
  pure a := .done (.ok a)
  bind := bind

/-- Giving a command and taking its answer. -/
def ask (c : κ) : Prog κ ρ ε ρ := .op c .done

/-- Giving a command for its effect. -/
def tell (c : κ) : Prog κ ρ ε Unit := (ask c).bind fun _ => pure ()

/-- Running a program to its end, whether it fails or not. -/
def attempt : Prog κ ρ ε α → Prog κ ρ ε (Except ε α)
  | .done r => .done (.ok r)
  | .op c k => .op c fun r => (k r).attempt

/-- The result of a program that has ended. -/
def result? : Prog κ ρ ε α → Option (Except ε α)
  | .done r => some r
  | .op _ _ => none

end Prog

open Prog

/-- What the commands of a party do, under an outcome that the environment chooses: an answer
and a new state, or nothing while the command has to wait. `careful` are the outcomes that
are considered, `rely` is what the others may do between its steps, and `guar` what it may
do itself. -/
structure Party (κ ρ ε ω σ : Type) where
  perform : κ → ω → σ → Option (Except ε ρ × σ)
  careful : κ → ω → σ → Prop
  rely : σ → σ → Prop
  guar : σ → σ → Prop
  rely_refl : ∀ s, rely s s
  rely_trans : ∀ {s t u}, rely s t → rely t u → rely s u

/-- From this state on every step of the program keeps the guarantee, and its result is as
stated, whatever the others do in between. -/
def Safe (A : Party κ ρ ε ω σ) (Q : Except ε α → σ → Prop) : Prog κ ρ ε α → σ → Prop
  | .done r, s => ∀ t, A.rely s t → Q r t
  | .op c k, s => ∀ t, A.rely s t → ∀ o r u, A.careful c o t → A.perform c o t = some (r, u) →
      A.guar t u ∧ Safe A Q (k r) u

/-- What the others do leaves an assertion true. -/
def Stable (A : Party κ ρ ε ω σ) (P : σ → Prop) : Prop := ∀ s t, A.rely s t → P s → P t

theorem Stable.and {A : Party κ ρ ε ω σ} {P P' : σ → Prop} (h : Stable A P) (h' : Stable A P') :
    Stable A fun s => P s ∧ P' s :=
  fun s t hst hs => ⟨h s t hst hs.1, h' s t hst hs.2⟩

theorem Stable.imp {A : Party κ ρ ε ω σ} {P : σ → Prop} (p : Prop) (h : Stable A P) :
    Stable A fun s => p → P s :=
  fun s t hst hs hp => h s t hst (hs hp)

theorem Stable.of_const (A : Party κ ρ ε ω σ) (p : Prop) : Stable A fun _ => p :=
  fun _ _ _ hs => hs

/-- What holds at the end: `Q` with the value, or `E` with an error. -/
def Post (Q : α → σ → Prop) (E : σ → Prop) : Except ε α → σ → Prop
  | .ok a, s => Q a s
  | .error _, s => E s

def Triple (A : Party κ ρ ε ω σ) (P : σ → Prop) (x : Prog κ ρ ε α) (Q : α → σ → Prop)
    (E : σ → Prop) : Prop :=
  ∀ s, P s → Safe A (Post Q E) x s

variable {A : Party κ ρ ε ω σ} {x : Prog κ ρ ε α} {s t : σ}

theorem Safe.rely {Q : Except ε α → σ → Prop} (h : Safe A Q x s) (hst : A.rely s t) :
    Safe A Q x t := by
  cases x with
  | done r => exact fun u hu => h u (A.rely_trans hst hu)
  | op c k => exact fun u hu => h u (A.rely_trans hst hu)

theorem Safe.mono {Q Q' : Except ε α → σ → Prop} (h : Safe A Q x s)
    (hQ : ∀ r t, Q r t → Q' r t) : Safe A Q' x s := by
  induction x generalizing s with
  | done r => exact fun t ht => hQ r t (h t ht)
  | op c k ih =>
    intro t ht o r u hcareful hperform
    obtain ⟨hguar, hrest⟩ := h t ht o r u hcareful hperform
    exact ⟨hguar, ih r hrest⟩

theorem Safe.bind {f : α → Prog κ ρ ε β} {Q : Except ε β → σ → Prop}
    {M : Except ε α → σ → Prop} (h : Safe A M x s) (hok : ∀ a t, M (.ok a) t → Safe A Q (f a) t)
    (herror : ∀ e t, M (.error e) t → Q (.error e) t) : Safe A Q (x >>= f) s := by
  induction x generalizing s with
  | done r =>
    cases r with
    | error e => exact fun t ht => herror e t (h t ht)
    | ok a => exact hok a s (h s (A.rely_refl s))
  | op c k ih =>
    intro t ht o r u hcareful hperform
    obtain ⟨hguar, hrest⟩ := h t ht o r u hcareful hperform
    exact ⟨hguar, ih r hrest⟩

theorem Safe.attempt {Q : Except ε (Except ε α) → σ → Prop}
    (h : Safe A (fun r => Q (.ok r)) x s) : Safe A Q x.attempt s := by
  induction x generalizing s with
  | done r => exact h
  | op c k ih =>
    intro t ht o r u hcareful hperform
    obtain ⟨hguar, hrest⟩ := h t ht o r u hcareful hperform
    exact ⟨hguar, ih r hrest⟩

section Rules

variable {P P' : σ → Prop} {Q Q' : α → σ → Prop} {E E' : σ → Prop}

theorem Triple.consequence (h : Triple A P x Q E) (hP : ∀ s, P' s → P s)
    (hQ : ∀ a s, Q a s → Q' a s) (hE : ∀ s, E s → E' s) : Triple A P' x Q' E' := by
  intro s hs
  refine (h s (hP s hs)).mono ?_
  intro r t hr
  cases r with
  | ok a => exact hQ a t hr
  | error e => exact hE t hr

/-- A fact that does not depend on the state may be used from here on. -/
theorem triple_have {p : Prop} (hp : ∀ s, P s → p) (h : p → Triple A P x Q E) :
    Triple A P x Q E :=
  fun s hs => h (hp s hs) s hs

theorem triple_pure {a : α} (hstable : Stable A (Q a)) (h : ∀ s, P s → Q a s) :
    Triple A P (pure a) Q E :=
  fun s hs _ ht => hstable _ _ ht (h s hs)

theorem triple_throw {e : ε} (hstable : Stable A E) (h : ∀ s, P s → E s) :
    Triple A P (.done (.error e)) Q E :=
  fun s hs _ ht => hstable _ _ ht (h s hs)

theorem triple_ask {c : κ} {Q : ρ → σ → Prop} (hP : Stable A P) (hQ : ∀ a, Stable A (Q a))
    (hE : Stable A E)
    (h : ∀ s o r t, P s → A.careful c o s → A.perform c o s = some (r, t) →
      A.guar s t ∧ Post Q E r t) : Triple A P (ask c) Q E := by
  intro s hs t ht o r u hcareful hperform
  obtain ⟨hguar, hpost⟩ := h t o r u (hP s t ht hs) hcareful hperform
  refine ⟨hguar, ?_⟩
  intro v hv
  cases r with
  | ok a => exact hQ a u v hv hpost
  | error e => exact hE u v hv hpost

theorem triple_bind {f : α → Prog κ ρ ε β} {Q' : β → σ → Prop} (hx : Triple A P x Q E)
    (hf : ∀ a, Triple A (Q a) (f a) Q' E) : Triple A P (x >>= f) Q' E := by
  intro s hs
  refine (hx s hs).bind ?_ ?_
  · intro a t ha
    exact hf a t ha
  · intro e t he
    exact he

theorem triple_tell {c : κ} {Q : σ → Prop} (hP : Stable A P) (hQ : Stable A Q)
    (hE : Stable A E)
    (h : ∀ s o r t, P s → A.careful c o s → A.perform c o s = some (r, t) →
      A.guar s t ∧ Post (fun _ => Q) E r t) : Triple A P (tell c) (fun _ => Q) E :=
  triple_bind (triple_ask hP (fun _ => hQ) hE h) fun _ => triple_pure hQ fun _ hs => hs

theorem triple_attempt {Q : Except ε α → σ → Prop}
    (h : Triple A P x (fun a => Q (.ok a)) E) (hE : ∀ e s, E s → Q (.error e) s) :
    Triple A P x.attempt Q E' := by
  intro s hs
  refine Safe.attempt ((h s hs).mono ?_)
  intro r t hr
  cases r with
  | ok a => exact hr
  | error e => exact hE e t hr

end Rules

/-- Two programs that share a state. -/
structure System (κ ρ ε σ : Type) where
  left : Prog κ ρ ε Unit
  right : Prog κ ρ ε Unit
  state : σ

/-- Whose turn it is, and the outcome of its next command. -/
inductive Turn (ω : Type) where
  | left (o : ω)
  | right (o : ω)

/-- The next command of a program, when it has one that need not wait. -/
def advance (perform : κ → ω → σ → Option (Except ε ρ × σ)) (x : Prog κ ρ ε α) (o : ω) (s : σ) :
    Option (Prog κ ρ ε α × σ) :=
  match x with
  | .done _ => none
  | .op c k => (perform c o s).map fun a => (k a.1, a.2)

def CarefulAt (careful : κ → ω → σ → Prop) (x : Prog κ ρ ε α) (o : ω) (s : σ) : Prop :=
  match x with
  | .done _ => True
  | .op c _ => careful c o s

/-- One turn. The system stays where it is when the party has to wait or has ended. -/
def System.step (left right : κ → ω → σ → Option (Except ε ρ × σ)) (y : System κ ρ ε σ) :
    Turn ω → System κ ρ ε σ
  | .left o =>
    match advance left y.left o y.state with
    | some (x, s) => { y with left := x, state := s }
    | none => y
  | .right o =>
    match advance right y.right o y.state with
    | some (x, s) => { y with right := x, state := s }
    | none => y

def System.Careful (left right : κ → ω → σ → Prop) (y : System κ ρ ε σ) : Turn ω → Prop
  | .left o => CarefulAt left y.left o y.state
  | .right o => CarefulAt right y.right o y.state

theorem CarefulAt.and {careful careful' : κ → ω → σ → Prop} {x : Prog κ ρ ε α} {o : ω} {s : σ}
    (h : CarefulAt careful x o s) (h' : CarefulAt careful' x o s) :
    CarefulAt (fun c o s => careful c o s ∧ careful' c o s) x o s := by
  cases x with
  | done r => trivial
  | op c k => exact ⟨h, h'⟩

instance {careful : κ → ω → σ → Prop} [∀ c o s, Decidable (careful c o s)]
    (x : Prog κ ρ ε α) (o : ω) (s : σ) : Decidable (CarefulAt careful x o s) :=
  match x with
  | .done _ => inferInstanceAs (Decidable True)
  | .op c _ => inferInstanceAs (Decidable (careful c o s))

theorem System.Careful.and {left right left' right' : κ → ω → σ → Prop} {y : System κ ρ ε σ}
    {turn : Turn ω} (h : y.Careful left right turn) (h' : y.Careful left' right' turn) :
    y.Careful (fun c o s => left c o s ∧ left' c o s)
      (fun c o s => right c o s ∧ right' c o s) turn := by
  cases turn with
  | left o => exact CarefulAt.and h h'
  | right o => exact CarefulAt.and h h'

instance {left right : κ → ω → σ → Prop} [∀ c o s, Decidable (left c o s)]
    [∀ c o s, Decidable (right c o s)] (y : System κ ρ ε σ) (turn : Turn ω) :
    Decidable (y.Careful left right turn) :=
  match turn with
  | .left o => inferInstanceAs (Decidable (CarefulAt left y.left o y.state))
  | .right o => inferInstanceAs (Decidable (CarefulAt right y.right o y.state))

variable {L R : Party κ ρ ε ω σ}

theorem Safe.advance {Q : Except ε α → σ → Prop} {x' : Prog κ ρ ε α} {o : ω}
    (h : Safe A Q x s) (hcareful : CarefulAt A.careful x o s)
    (hstep : RelyGuarantee.advance A.perform x o s = some (x', t)) :
    A.guar s t ∧ Safe A Q x' t := by
  cases x with
  | done r => contradiction
  | op c k =>
    obtain ⟨⟨r, u⟩, hperform, heq⟩ := Option.map_eq_some_iff.mp hstep
    obtain ⟨rfl, rfl⟩ := Prod.mk.inj heq
    exact h s (A.rely_refl s) o r u hcareful hperform

/-- Both programs are safe, and the state has an invariant that both guarantees keep. -/
structure Sound (L R : Party κ ρ ε ω σ) (QL QR : Except ε Unit → σ → Prop) (Inv : σ → Prop)
    (y : System κ ρ ε σ) : Prop where
  left : Safe L QL y.left y.state
  right : Safe R QR y.right y.state
  inv : Inv y.state

section Parallel

variable {QL QR : Except ε Unit → σ → Prop} {Inv : σ → Prop}
  (hL : ∀ s t, L.guar s t → R.rely s t) (hR : ∀ s t, R.guar s t → L.rely s t)
  (hLinv : ∀ s t, L.guar s t → Inv s → Inv t) (hRinv : ∀ s t, R.guar s t → Inv s → Inv t)
include hL hR hLinv hRinv

theorem Sound.step (y : System κ ρ ε σ) (turn : Turn ω) (h : Sound L R QL QR Inv y)
    (hcareful : y.Careful L.careful R.careful turn) :
    Sound L R QL QR Inv (y.step L.perform R.perform turn) := by
  cases turn with
  | left o =>
    cases hstep : advance L.perform y.left o y.state with
    | none => simpa only [System.step, hstep] using h
    | some a =>
      obtain ⟨x, s⟩ := a
      obtain ⟨hguar, hleft⟩ := h.left.advance hcareful hstep
      simp only [System.step, hstep]
      exact ⟨hleft, h.right.rely (hL _ _ hguar), hLinv _ _ hguar h.inv⟩
  | right o =>
    cases hstep : advance R.perform y.right o y.state with
    | none => simpa only [System.step, hstep] using h
    | some a =>
      obtain ⟨x, s⟩ := a
      obtain ⟨hguar, hright⟩ := h.right.advance hcareful hstep
      simp only [System.step, hstep]
      exact ⟨h.left.rely (hR _ _ hguar), hright, hRinv _ _ hguar h.inv⟩

/-- Programs that keep to what each relies on in the other are safe through every run. -/
theorem Sound.run {y : System κ ρ ε σ} {turns : List (Turn ω)} (h : Sound L R QL QR Inv y)
    (hcareful : Along (System.step L.perform R.perform) (System.Careful L.careful R.careful) y
      turns) :
    Sound L R QL QR Inv (run (System.step L.perform R.perform) y turns) :=
  run_invariant (Sound.step hL hR hLinv hRinv) h hcareful

end Parallel

/-- The guarantee of a step that a program would take if the others let it. -/
theorem Safe.guar_next {Q : Except ε α → σ → Prop} {c : κ} {k : Except ε ρ → Prog κ ρ ε α}
    {o : ω} {r : Except ε ρ} {u : σ} (h : Safe A Q (.op c k) s) (hst : A.rely s t)
    (hcareful : A.careful c o t) (hperform : A.perform c o t = some (r, u)) : A.guar t u :=
  (h t hst o r u hcareful hperform).1

/-- A program that has ended has the result stated for it. -/
theorem Safe.ended {Q : Except ε α → σ → Prop} {r : Except ε α} (h : Safe A Q x s)
    (hx : x.result? = some r) : Q r s := by
  cases x with
  | done r' =>
    obtain rfl := Option.some.inj hx
    exact h s (A.rely_refl s)
  | op c k => contradiction

end DocaApps.Lib.RelyGuarantee
