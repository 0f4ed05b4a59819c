import DocaApps.Proofs.FlowEncrypt
import DocaApps.Proofs.FlowDecrypt

namespace DocaApps.Proofs.IdleGateway
open Lib.Endings Ipsec.Rules Ipsec.FlowCommon Ipsec.FlowEncrypt Ipsec.FlowDecrypt Ipsec.Policy
open Proofs.FlowCommon

/-- Every library call to come succeeds, and the counters of these contexts show no
failure and at most `n` entries. -/
structure Idle (ctxs : StatusCtx → Prop) (n : Int) (g : Gateway) : Prop where
  outcomes : g.outcomes = []
  failure : ∀ ctx, ctxs ctx → (g.status ctx).failure = false
  entries : ∀ ctx, ctxs ctx → (g.status ctx).entriesInQueue ≤ n

/-- A command that succeeds on an idle gateway and leaves it idle, with at most `k` more
entries. -/
def Runs {α : Type} (ctxs : StatusCtx → Prop) (n k : Int) (c : Cmd α) : Prop :=
  ∀ g, Idle ctxs n g → Ends c (fun _ t => Idle ctxs (n + k) t) (fun _ _ => False) g

variable {ctxs : StatusCtx → Prop} {n : Int} {g : Gateway} {ctx : StatusCtx} {port : Port}
  {α β : Type}

@[simp] theorem outcomes_setStatus (g : Gateway) (ctx : StatusCtx) (st : EntriesStatus) :
    (g.setStatus ctx st).outcomes = g.outcomes := by
  cases ctx <;> rfl

theorem status_setStatus (g : Gateway) (ctx ctx' : StatusCtx) (st : EntriesStatus) :
    (g.setStatus ctx st).status ctx' = if ctx' = ctx then st else g.status ctx' := by
  cases ctx <;> cases ctx' <;> rfl

theorem Idle.setStatus {st : EntriesStatus} (h : Idle ctxs n g)
    (hst : ctxs ctx → st.failure = false ∧ st.entriesInQueue ≤ n) :
    Idle ctxs n (g.setStatus ctx st) := by
  refine ⟨by rw [outcomes_setStatus, h.outcomes], fun ctx' hctx => ?_, fun ctx' hctx => ?_⟩
  · rw [status_setStatus]
    split
    · exact (hst (‹ctx' = ctx› ▸ hctx)).1
    · exact h.failure ctx' hctx
  · rw [status_setStatus]
    split
    · exact (hst (‹ctx' = ctx› ▸ hctx)).2
    · exact h.entries ctx' hctx

theorem Idle.mono {m : Int} (h : Idle ctxs n g) (hle : n ≤ m) : Idle ctxs m g :=
  ⟨h.outcomes, h.failure, fun ctx hctx => (h.entries ctx hctx).trans hle⟩

theorem Runs.pure (a : α) : Runs ctxs n 0 (pure a) := by
  intro g h
  exact (ends_pure a).mpr (h.mono (by omega))

theorem Runs.bind {k m : Int} {c : Cmd α} {f : α → Cmd β} (hc : Runs ctxs n k c)
    (hf : ∀ a, Runs ctxs (n + k) m (f a)) : Runs ctxs n (k + m) (c >>= f) := by
  intro g h
  refine ends_bind.mpr ((hc g h).mono (fun a t ht => ?_) (fun _ _ hfalse => hfalse))
  exact (hf a t ht).mono (fun _ _ hu => hu.mono (by omega)) (fun _ _ hfalse => hfalse)

theorem Runs.get_bind {m : Int} {f : Gateway → Cmd β} (hf : ∀ g, Runs ctxs n m (f g)) :
    Runs ctxs n m (get >>= f) := by
  intro g h
  exact ends_bind.mpr (ends_get.mpr (hf g g h))

theorem Runs.mono {k m : Int} {c : Cmd α} (h : Runs ctxs n k c) (hle : k ≤ m) : Runs ctxs n m c :=
  fun g hg => (h g hg).mono (fun _ _ ht => ht.mono (by omega)) (fun _ _ hfalse => hfalse)

theorem Runs.succeeds {k : Int} {c : Cmd α} (h : Runs ctxs n k c) (hg : Idle ctxs n g) :
    Ends c (fun _ _ => True) (fun _ _ => False) g :=
  (h g hg).mono (fun _ _ _ => trivial) (fun _ _ hfalse => hfalse)

theorem Idle.completions {cs : List (StatusCtx × Bool)} (hcs : ∀ e ∈ cs, e.2 = true)
    (h : Idle ctxs n g) :
    Idle ctxs n (cs.foldl (fun g (ctx, success) =>
      g.setStatus ctx (checkForValidEntry success (g.status ctx))) g) := by
  induction cs generalizing g with
  | nil => exact h
  | cons c cs ih =>
    obtain ⟨ctx, success⟩ := c
    obtain rfl : success = true := hcs _ (List.mem_cons_self ..)
    refine ih (fun e he => hcs e (List.mem_cons_of_mem _ he)) (h.setStatus fun hctx => ?_)
    have hn := h.entries ctx hctx
    simp only [checkForValidEntry, h.failure ctx hctx]
    exact ⟨rfl, by omega⟩

end DocaApps.Proofs.IdleGateway
