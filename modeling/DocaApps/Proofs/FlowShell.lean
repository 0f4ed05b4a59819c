import DocaApps.Common.FlowShell
import DocaApps.Proofs.StructSplitting

namespace DocaApps.Proofs.FlowShell
open Common.FlowParser Common.StructParser Common.ParamsParser Common.ParamsLists
open Common.FlowShell Common.StructFields
open Firewall.Shell (filling)
open Lib.Runs Proofs.StructSplitting

section Related
variable {σ τ : Type} {fill : FillStruct σ} {fill' : FillStruct τ} {R E : σ → τ → Prop}

/-- Two callbacks that answer alike, and keep their structures related as long as they accept what
they are given. -/
structure Alike (fill : FillStruct σ) (fill' : FillStruct τ) (R E : σ → τ → Prop) : Prop where
  answer : ∀ fieldName value s t, R s t →
    (fill fieldName value s).1 = (fill' fieldName value t).1
  accepted : ∀ fieldName value s t, R s t → (fill fieldName value s).1 = .ok () →
    R (fill fieldName value s).2 (fill' fieldName value t).2
  left : ∀ fieldName value s t, R s t → E (fill fieldName value s).2 (fill' fieldName value t).2
  ended : ∀ s t, R s t → E s t

theorem parseStruct_alike (h : Alike fill fill' R E) (input : List Char) {s : σ} {t : τ}
    (hst : R s t) :
    (parseStruct fill input s).calls = (parseStruct fill' input t).calls ∧
      (parseStruct fill input s).ending = (parseStruct fill' input t).ending ∧
      E (parseStruct fill input s).structPtr (parseStruct fill' input t).structPtr := by
  induction hlen : input.length using Nat.strong_induction_on generalizing input s t with
  | _ n ih =>
    subst hlen
    rw [parseStruct, parseStruct]
    split
    · exact ⟨rfl, rfl, h.ended s t hst⟩
    · exact ⟨rfl, rfl, h.ended s t hst⟩
    · rename_i fieldName value rest hcut
      have hanswer := h.answer fieldName value s t hst
      have hleft := h.left fieldName value s t hst
      have haccepted := h.accepted fieldName value s t hst
      have hlt := cutField_rest hcut
      generalize fill fieldName value s = filled at *
      generalize fill' fieldName value t = filled' at *
      obtain ⟨result, s'⟩ := filled
      obtain ⟨result', t'⟩ := filled'
      obtain rfl : result = result' := hanswer
      cases result with
      | error e => exact ⟨rfl, rfl, hleft⟩
      | ok u =>
        dsimp only
        by_cases hcomma : rest.head? = some ','
        · rw [if_pos hcomma, if_pos hcomma]
          obtain ⟨hcalls, hending, hend⟩ :=
            ih rest.tail.length (by rw [List.length_tail]; omega) rest.tail (haccepted rfl) rfl
          exact ⟨congrArg _ hcalls, hending, hend⟩
        · rw [if_neg hcomma, if_neg hcomma]
          exact ⟨rfl, rfl, hleft⟩

/-- The structure is what the calls make of it, one after the other. -/
theorem structPtr_eq (fill : FillStruct σ) (input : List Char) (s : σ) :
    (parseStruct fill input s).structPtr =
      (parseStruct fill input s).calls.foldl (fun s call => (fill call.1 call.2 s).2) s := by
  induction hlen : input.length using Nat.strong_induction_on generalizing input s with
  | _ n ih =>
    subst hlen
    cases hcut : cutField input with
    | invalid =>
      rw [parseStruct_invalid hcut]
      rfl
    | outside =>
      rw [parseStruct_outside hcut]
      rfl
    | field fieldName value rest =>
      have hlt := cutField_rest hcut
      cases hcall : fill fieldName value s with
      | mk result s' =>
        have hnext : s' = (fill fieldName value s).2 := by rw [hcall]
        cases result with
        | error e =>
          rw [parseStruct_failed hcut hcall]
          exact hnext
        | ok u =>
          by_cases hcomma : rest.head? = some ','
          · obtain ⟨rest', rfl⟩ : ∃ rest', rest = ',' :: rest' := by
              cases rest with
              | nil => cases hcomma
              | cons c rest => exact ⟨rest, by rw [Option.some.inj hcomma]⟩
            rw [parseStruct_again hcut hcall]
            have hrest := ih rest'.length (by simp at hlt; omega) rest' s' rfl
            simp only [Parsed.called, List.foldl_cons, ← hnext, hrest]
          · rw [parseStruct_done hcut hcall hcomma]
            exact hnext

/-- A property of the structure that the calls keep. -/
theorem parseStruct_keeps {P : σ → Prop} {input : List Char} {s : σ}
    (hfill : ∀ call ∈ (parseStruct fill input s).calls, ∀ s, P s → P (fill call.1 call.2 s).2)
    (hs : P s) : P (parseStruct fill input s).structPtr := by
  rw [structPtr_eq]
  exact List.foldlRecOn _ _ hs fun s hs call hmem => hfill call hmem s hs

/-- A property that one of the calls establishes, and all of them keep. -/
theorem parseStruct_sets {I P : σ → Prop} {input : List Char} {s : σ}
    {call : List Char × List Char} (hmem : call ∈ (parseStruct fill input s).calls) (hs : I s)
    (hinv : ∀ fieldName value s, I s → I (fill fieldName value s).2)
    (hset : ∀ s, I s → P (fill call.1 call.2 s).2)
    (hkeep : ∀ fieldName value s, P s → P (fill fieldName value s).2) :
    P (parseStruct fill input s).structPtr := by
  obtain ⟨before, after, hcalls⟩ := List.append_of_mem hmem
  rw [structPtr_eq, hcalls, List.foldl_append, List.foldl_cons]
  have hbefore := List.foldlRecOn before (fun s call => (fill call.1 call.2 s).2) hs
    fun s hs call _ => hinv call.1 call.2 s hs
  exact List.foldlRecOn _ _ (hset _ hbefore) fun s hs call _ => hkeep call.1 call.2 s hs

end Related

section Forward
variable {allocates : Nat → Bool} {d o : Forward} {g g' : Globals} {e : DocaError}

/-- A forward structure without its queues. -/
structure Plain where
  type : FwdType
  rssOuterFlags : BitVec 32
  rssInnerFlags : BitVec 32
  numOfQueues : BitVec 32

def plain (f : Fwd) : Plain := ⟨f.type, f.rssOuterFlags, f.rssInnerFlags, f.numOfQueues⟩

def Plain.with (p : Plain) (rssQueues : Option Nat) : Fwd :=
  ⟨p.type, p.rssOuterFlags, p.rssInnerFlags, rssQueues, p.numOfQueues⟩

def Plain.setPortId (p : Plain) (portId : BitVec 16) : Plain :=
  plain ((p.with none).setPortId portId)

/-- What a field of a forward structure does: it is refused, or it is about the structure without
its queues, about the next pipe or about the queues. -/
inductive Effect where
  | refuse (e : DocaError)
  | edit (change : Plain → Plain)
  | nextPipe (id : BitVec 64)
  | queues (value : List Char)

def effect (fieldName : String) (value : List Char) : Effect :=
  match fieldName with
  | "type" =>
    match parseFwdType value with
    | .error e => .refuse e
    | .ok type => .edit fun p => { p with type }
  | "rss_outer_flags" =>
    .edit fun p => { p with rssOuterFlags := BitVec.ofInt 32 (strtol value 0).1 }
  | "rss_inner_flags" =>
    .edit fun p => { p with rssInnerFlags := BitVec.ofInt 32 (strtol value 0).1 }
  | "rss_queues" => .queues value
  | "num_of_queues" => .edit fun p => { p with numOfQueues := BitVec.ofInt 32 (strtol value 0).1 }
  | "port_id" => .edit fun p => p.setPortId (BitVec.ofInt 16 (strtol value 0).1)
  | "next_pipe_id" => .nextPipe (BitVec.ofNat 64 (strtoull value 0).1)
  | _ => .refuse .invalidValue

def withoutQueues (g : Globals) : Globals := { g.freeQueues with rssQueues := none }

def withQueues (g : Globals) (queues : List (BitVec 16)) : Globals :=
  { g.freeQueues with
    rssQueues := some g.blocks.length, blocks := g.freeQueues.blocks ++ [some queues] }

def Effect.apply (allocates : Nat → Bool) (d : Forward) (g : Globals) : Effect → Filled Globals
  | .refuse e => some (.error e, g)
  | .edit change =>
    some (.ok (), g.setFwd d ((change (plain (g.fwds d))).with (g.fwds d).rssQueues))
  | .nextPipe id => some (.ok (), g.setNextPipeId d id)
  | .queues value =>
    (Common.FwdFields.parseRssQueues allocates value (g.fwds d).numOfQueues.toInt).map fun
      | .error e => (.error e, withoutQueues g)
      | .ok parsed =>
        (.ok (), (withQueues g parsed).setFwd d ((plain (g.fwds d)).with (some g.blocks.length)))

theorem parseForwardField_effect (fieldName : String) (value : List Char) :
    parseForwardField allocates d fieldName value g =
      (effect fieldName value).apply allocates d g := by
  unfold parseForwardField effect
  dsimp only
  split
  · cases parseFwdType value <;> rfl
  · rfl
  · rfl
  · unfold parseRssQueues
    rw [Option.map_map]
    refine congrFun (congrArg _ (funext fun result => ?_)) _
    cases result <;> rfl
  · rfl
  · rfl
  · rfl
  · first
    | rfl
    | split <;> first | contradiction | rfl

theorem effect_queues {fieldName : String} {value text : List Char}
    (h : effect fieldName value = .queues text) : fieldName = "rss_queues" := by
  unfold effect at h
  split at h
  · split at h <;> cases h
  · cases h
  · cases h
  · rfl
  · cases h
  · cases h
  · cases h
  · cases h

theorem effect_nextPipe {fieldName : String} {value : List Char} {id : BitVec 64}
    (h : effect fieldName value = .nextPipe id) : fieldName = "next_pipe_id" := by
  unfold effect at h
  split at h
  · split at h <;> cases h
  · cases h
  · cases h
  · cases h
  · cases h
  · cases h
  · rfl
  · cases h

@[simp] theorem setFwd_fwds (g : Globals) (d : Forward) (f : Fwd) : (g.setFwd d f).fwds d = f :=
  Function.update_self ..

@[simp] theorem setFwd_other (g : Globals) (h : o ≠ d) (f : Fwd) :
    (g.setFwd d f).fwds o = g.fwds o := Function.update_of_ne h ..

@[simp] theorem setFwd_blocks (g : Globals) (d : Forward) (f : Fwd) :
    (g.setFwd d f).blocks = g.blocks := rfl

@[simp] theorem setFwd_rssQueues (g : Globals) (d : Forward) (f : Fwd) :
    (g.setFwd d f).rssQueues = g.rssQueues := rfl

@[simp] theorem plain_with (p : Plain) (rssQueues : Option Nat) :
    plain (p.with rssQueues) = p := rfl

@[simp] theorem with_rssQueues (p : Plain) (rssQueues : Option Nat) :
    (p.with rssQueues).rssQueues = rssQueues := rfl

@[simp] theorem freeQueues_fwds (g : Globals) : g.freeQueues.fwds = g.fwds := by
  unfold Globals.freeQueues
  split <;> rfl

@[simp] theorem freeQueues_nextPipeIds (g : Globals) :
    g.freeQueues.nextPipeIds = g.nextPipeIds := by
  unfold Globals.freeQueues
  split <;> rfl

@[simp] theorem freeQueues_length (g : Globals) :
    g.freeQueues.blocks.length = g.blocks.length := by
  unfold Globals.freeQueues
  split <;> simp

/-- What is in the queues that a pointer leads to. -/
def queuesAt (blocks : List (Option (List (BitVec 16)))) (rssQueues : Option Nat) :
    Option (Option (List (BitVec 16))) := rssQueues.map fun b => blocks[b]?.join

theorem fwdArg_eq_iff : g.fwdArg d = g'.fwdArg d ↔ plain (g.fwds d) = plain (g'.fwds d) ∧
    queuesAt g.blocks (g.fwds d).rssQueues = queuesAt g'.blocks (g'.fwds d).rssQueues := by
  simp only [Globals.fwdArg, FwdArg.mk.injEq, plain, Plain.mk.injEq, queuesAt, and_assoc]

/-- The two states give the same forward structure to a callback, and its queues, if it has any, are
those of the last allocation in both. -/
structure Tracked (d : Forward) (g g' : Globals) : Prop where
  same : g.fwdArg d = g'.fwdArg d
  last : (g.fwds d).rssQueues = none ∨ (g.fwds d).rssQueues = g.rssQueues
  last' : (g'.fwds d).rssQueues = none ∨ (g'.fwds d).rssQueues = g'.rssQueues

/-- What two calls for one field come to. -/
structure Stays (d : Forward) (r r' : Except DocaError Unit × Globals) : Prop where
  answer : r.1 = r'.1
  accepted : r.1 = .ok () → Tracked d r.2 r'.2
  same : r.2.fwdArg d = r'.2.fwdArg d

theorem Tracked.stays (h : Tracked d g g') (result : Except DocaError Unit) :
    Stays d (result, g) (result, g') := ⟨rfl, fun _ => h, h.same⟩

/-- The queues of the last allocation are gone when they are freed. -/
theorem queuesAt_freed {rssQueues : Option Nat} (h : rssQueues = none ∨ rssQueues = g.rssQueues) :
    queuesAt g.freeQueues.blocks rssQueues = rssQueues.map fun _ => none := by
  cases rssQueues with
  | none => rfl
  | some b =>
    have hlast : g.rssQueues = some b := (h.resolve_left (by simp)).symm
    simp only [queuesAt, Globals.freeQueues, hlast, Option.map_some, Option.some.injEq]
    by_cases hb : b < g.blocks.length
    · simp [List.getElem?_set_self hb]
    · rw [List.getElem?_eq_none (by simpa using hb)]
      rfl

/-- A new block holds its queues. -/
theorem queuesAt_allocated (g : Globals) (queues : List (BitVec 16)) :
    queuesAt (g.freeQueues.blocks ++ [some queues]) (some g.blocks.length) =
      some (some queues) := by
  rw [← freeQueues_length]
  simp [queuesAt]

theorem Effect.apply_stays (h : Tracked d g g') (effect : Effect) :
    Option.Rel (Stays d) (effect.apply allocates d g) (effect.apply allocates d g') := by
  obtain ⟨hplain, hqueues⟩ := fwdArg_eq_iff.mp h.same
  cases effect with
  | refuse e => exact .some (h.stays _)
  | edit change =>
    refine .some (Tracked.stays ⟨?_, ?_, ?_⟩ _)
    · exact fwdArg_eq_iff.mpr ⟨by simp [hplain], by simpa using hqueues⟩
    · simpa using h.last
    · simpa using h.last'
  | nextPipe id =>
    have hnext : Tracked d (g.setNextPipeId d id) (g'.setNextPipeId d id) :=
      ⟨h.same, h.last, h.last'⟩
    exact .some (hnext.stays _)
  | queues value =>
    have hnum : (g.fwds d).numOfQueues = (g'.fwds d).numOfQueues :=
      congrArg Plain.numOfQueues hplain
    simp only [Effect.apply, hnum]
    cases Common.FwdFields.parseRssQueues allocates value (g'.fwds d).numOfQueues.toInt with
    | none => exact .none
    | some result =>
      refine .some ?_
      cases result with
      | error e =>
        refine ⟨rfl, fun hok => (nomatch hok), fwdArg_eq_iff.mpr ⟨?_, ?_⟩⟩
        · simpa [withoutQueues] using hplain
        · have hgone := congrArg (Option.map fun _ => (none : Option (List (BitVec 16)))) hqueues
          simp only [queuesAt, Option.map_map] at hgone
          simp only [withoutQueues, freeQueues_fwds]
          rw [queuesAt_freed h.last, queuesAt_freed h.last']
          exact hgone
      | ok queues =>
        refine Tracked.stays ⟨fwdArg_eq_iff.mpr ⟨?_, ?_⟩, ?_, ?_⟩ _
        · simpa using hplain
        · simp [withQueues, queuesAt_allocated]
        · simp [withQueues]
        · simp [withQueues]

/-- The pointers lead to blocks, and the only queues that are there are those of the last
allocation. -/
structure Inv (g : Globals) : Prop where
  inRange : ∀ o b, (g.fwds o).rssQueues = some b → b < g.blocks.length
  current : ∀ b queues, g.blocks[b]? = some (some queues) → g.rssQueues = some b

theorem Inv.freed (h : Inv g) {b : Nat} {queues : List (BitVec 16)} :
    g.freeQueues.blocks[b]? ≠ some (some queues) := by
  intro hlive
  unfold Globals.freeQueues at hlive
  split at hlive
  · rename_i hnone
    rw [h.current b queues hlive] at hnone
    cases hnone
  · rename_i c hlast
    dsimp only at hlive
    by_cases hb : c = b
    · subst hb
      rw [List.getElem?_set_self'] at hlive
      cases hc : g.blocks[c]? <;> simp [hc] at hlive
    · rw [List.getElem?_set_ne hb] at hlive
      rw [h.current b queues hlive] at hlast
      exact hb (Option.some.inj hlast).symm

theorem Inv.setFwd (h : Inv g) (p : Plain) {rssQueues : Option Nat}
    (hin : ∀ b, rssQueues = some b → b < g.blocks.length) :
    Inv (g.setFwd d (p.with rssQueues)) := by
  constructor
  · intro o b ho
    by_cases hd : o = d
    · subst hd
      exact hin b (by simpa using ho)
    · rw [setFwd_other g hd] at ho
      exact h.inRange o b ho
  · exact h.current

theorem Inv.withoutQueues (h : Inv g) : Inv (withoutQueues g) := by
  constructor
  · intro o b ho
    simp only [FlowShell.withoutQueues, freeQueues_fwds, freeQueues_length] at ho ⊢
    exact h.inRange o b ho
  · intro b queues hlive
    exact (h.freed hlive).elim

theorem Inv.withQueues (h : Inv g) (queues : List (BitVec 16)) : Inv (withQueues g queues) := by
  constructor
  · intro o b ho
    simp only [FlowShell.withQueues, freeQueues_fwds, List.length_append, freeQueues_length]
      at ho ⊢
    have hin := h.inRange o b ho
    simp
    omega
  · intro b queues' hlive
    simp only [FlowShell.withQueues] at hlive ⊢
    by_cases hb : b < g.freeQueues.blocks.length
    · rw [List.getElem?_append_left hb] at hlive
      exact (h.freed hlive).elim
    · have hlt := (List.getElem?_eq_some_iff.mp hlive).1
      simp only [List.length_append, List.length_singleton, freeQueues_length] at hlt hb
      congr 1
      omega

/-- One call of the parser keeps the invariant, whatever it answers. -/
theorem Effect.apply_inv (h : Inv g) {effect : Effect} {r : Except DocaError Unit × Globals}
    (hr : effect.apply allocates d g = some r) : Inv r.2 := by
  cases effect with
  | refuse e =>
    cases hr
    exact h
  | edit change =>
    cases hr
    exact h.setFwd _ fun b => h.inRange d b
  | nextPipe id =>
    cases hr
    exact ⟨h.inRange, h.current⟩
  | queues value =>
    obtain ⟨result, -, rfl⟩ := Option.map_eq_some_iff.mp hr
    cases result with
    | error e => exact h.withoutQueues
    | ok queues =>
      refine (h.withQueues queues).setFwd _ fun b hb => ?_
      obtain rfl := Option.some.inj hb
      simp [FlowShell.withQueues]

/-- What holds of the state as long as there is one. -/
def When (P : Globals → Prop) (s : Option Globals) : Prop := ∀ g, s = some g → P g

theorem filling_step {fieldName value : List Char} {s : Option Globals} {g' : Globals}
    (h : (filling (parseForwardField allocates d) fieldName value s).2 = some g') :
    ∃ g r, s = some g ∧ (effect (String.ofList fieldName) value).apply allocates d g = some r ∧
      r.2 = g' := by
  unfold filling at h
  split at h
  · rename_i result g'' heq
    obtain ⟨g, rfl, happly⟩ := Option.bind_eq_some_iff.mp heq
    rw [parseForwardField_effect] at happly
    exact ⟨g, _, rfl, happly, Option.some.inj h⟩
  · cases h

theorem filling_when {P : Globals → Prop} {fieldName value : List Char} {s : Option Globals}
    (hP : ∀ g r, P g → (effect (String.ofList fieldName) value).apply allocates d g = some r →
      P r.2) (hs : When P s) :
    When P (filling (parseForwardField allocates d) fieldName value s).2 := by
  intro g' hg'
  obtain ⟨g, r, rfl, happly, rfl⟩ := filling_step hg'
  exact hP g r (hs g rfl) happly

theorem filling_alike (allocates : Nat → Bool) (d : Forward) :
    Alike (filling (parseForwardField allocates d)) (filling (parseForwardField allocates d))
      (Option.Rel (Tracked d)) (Option.Rel fun g g' => g.fwdArg d = g'.fwdArg d) := by
  have hboth : ∀ fieldName value s t, Option.Rel (Tracked d) s t →
      Option.Rel (Stays d) (s.bind (parseForwardField allocates d (String.ofList fieldName) value))
        (t.bind (parseForwardField allocates d (String.ofList fieldName) value)) := by
    intro fieldName value s t hst
    cases hst with
    | none => exact .none
    | some h =>
      simp only [Option.bind_some, parseForwardField_effect]
      exact Effect.apply_stays h _
  constructor
  · intro fieldName value s t hst
    have h := hboth fieldName value s t hst
    unfold filling
    generalize s.bind _ = x, t.bind _ = y at h ⊢
    cases h with
    | none => rfl
    | some h => exact h.answer
  · intro fieldName value s t hst hok
    have h := hboth fieldName value s t hst
    unfold filling at hok ⊢
    generalize s.bind _ = x, t.bind _ = y at h hok ⊢
    cases h with
    | none => exact .none
    | some h => exact .some (h.accepted hok)
  · intro fieldName value s t hst
    have h := hboth fieldName value s t hst
    unfold filling
    generalize s.bind _ = x, t.bind _ = y at h ⊢
    cases h with
    | none => exact .none
    | some h => exact .some h.same
  · intro s t hst
    cases hst with
    | none => exact .none
    | some h => exact .some h.same

/-- The reading of an input for a forward structure. -/
def created (allocates : Nat → Bool) (d : Forward) (input : List Char) (g : Globals) :
    Parsed (Option Globals) :=
  parseStruct (filling (parseForwardField allocates d)) input (some (g.setFwd d {}))

/-- The input has this field, up to where its reading stops. -/
def Sets (allocates : Nat → Bool) (d : Forward) (fieldName : String) (input : List Char) : Prop :=
  ∃ value, (fieldName.toList, value) ∈ (created allocates d input {}).calls

theorem cmdCreateForward_eq (allocates : Nat → Bool) (d : Forward) (input : List Char)
    (g : Globals) : cmdCreateStructParsed allocates (.forward d) input g =
      match (created allocates d input g).ending with
      | .outside => none
      | .returned _ => (created allocates d input g).structPtr := by
  cases d <;> rfl

theorem created_alike (allocates : Nat → Bool) (d : Forward) (input : List Char) (g : Globals) :
    (created allocates d input g).calls = (created allocates d input {}).calls ∧
      (created allocates d input g).ending = (created allocates d input {}).ending ∧
      Option.Rel (fun g g' => g.fwdArg d = g'.fwdArg d) (created allocates d input g).structPtr
        (created allocates d input {}).structPtr := by
  refine parseStruct_alike (filling_alike allocates d) input (.some ⟨?_, ?_, ?_⟩)
  · exact fwdArg_eq_iff.mpr (by simp [queuesAt])
  · simp
  · simp

def Effect.next (effect : Effect) (id : BitVec 64) : BitVec 64 :=
  match effect with
  | .nextPipe id' => id'
  | _ => id

/-- The id of the next pipe, set by the last of the calls that sets it. -/
def nextAfter (calls : List (List Char × List Char)) (id : BitVec 64) : BitVec 64 :=
  calls.foldl (fun id call => (effect (String.ofList call.1) call.2).next id) id

theorem Effect.apply_next {effect : Effect} {r : Except DocaError Unit × Globals}
    (hr : effect.apply allocates d g = some r) :
    r.2.nextPipeIds d = effect.next (g.nextPipeIds d) := by
  cases effect with
  | refuse e =>
    cases hr
    rfl
  | edit change =>
    cases hr
    rfl
  | nextPipe id =>
    cases hr
    exact Function.update_self ..
  | queues value =>
    obtain ⟨result, -, rfl⟩ := Option.map_eq_some_iff.mp hr
    cases result with
    | error e => simp [withoutQueues, Effect.next]
    | ok queues => simp [Globals.setFwd, withQueues, Effect.next]

theorem calls_next {calls : List (List Char × List Char)} {s : Option Globals} {g' : Globals}
    (h : calls.foldl (fun s call =>
      (filling (parseForwardField allocates d) call.1 call.2 s).2) s = some g') :
    ∃ g, s = some g ∧ g'.nextPipeIds d = nextAfter calls (g.nextPipeIds d) := by
  induction calls generalizing s with
  | nil => exact ⟨g', h, rfl⟩
  | cons call calls ih =>
    obtain ⟨g₁, hg₁, hnext⟩ := ih h
    obtain ⟨g, r, rfl, happly, rfl⟩ := filling_step hg₁
    exact ⟨g, rfl, hnext.trans (congrArg (nextAfter calls) (Effect.apply_next happly))⟩

theorem nextAfter_of_set {calls : List (List Char × List Char)} {value : List Char}
    (h : ("next_pipe_id".toList, value) ∈ calls) (id id' : BitVec 64) :
    nextAfter calls id = nextAfter calls id' := by
  obtain ⟨before, after, rfl⟩ := List.append_of_mem h
  have hset : effect (String.ofList "next_pipe_id".toList) value =
      .nextPipe (BitVec.ofNat 64 (strtoull value 0).1) := by
    rw [String.ofList_toList]
    rfl
  unfold nextAfter
  rw [List.foldl_append, List.foldl_append, List.foldl_cons, List.foldl_cons, hset]
  rfl

theorem nextAfter_of_unset {calls : List (List Char × List Char)}
    (h : ∀ value, ("next_pipe_id".toList, value) ∉ calls) (id : BitVec 64) :
    nextAfter calls id = id := by
  have hstep : ∀ id', id' = id → ∀ call ∈ calls,
      (effect (String.ofList call.1) call.2).next id' = id := by
    intro id' hid call hmem
    obtain ⟨name, value⟩ := call
    cases heffect : effect (String.ofList name) value with
    | nextPipe id'' =>
      have hname : String.ofList name = "next_pipe_id" := effect_nextPipe heffect
      refine absurd hmem ?_
      rw [← String.toList_ofList (l := name), hname]
      exact h value
    | refuse e => exact hid
    | edit change => exact hid
    | queues text => exact hid
  exact List.foldlRecOn (motive := fun id' => id' = id) calls _ rfl hstep

/-- What the reading for one forward structure leaves alone. -/
structure Framed (d : Forward) (g g' : Globals) : Prop where
  pipeMatch : g'.pipeMatch = g.pipeMatch
  entryMatch : g'.entryMatch = g.entryMatch
  matchMask : g'.matchMask = g.matchMask
  actions : g'.actions = g.actions
  monitor : g'.monitor = g.monitor
  fwds : ∀ o ≠ d, g'.fwds o = g.fwds o
  nextPipeIds : ∀ o ≠ d, g'.nextPipeIds o = g.nextPipeIds o

theorem Framed.trans {g'' : Globals} (h : Framed d g g') (h' : Framed d g' g'') :
    Framed d g g'' where
  pipeMatch := h'.pipeMatch.trans h.pipeMatch
  entryMatch := h'.entryMatch.trans h.entryMatch
  matchMask := h'.matchMask.trans h.matchMask
  actions := h'.actions.trans h.actions
  monitor := h'.monitor.trans h.monitor
  fwds o ho := (h'.fwds o ho).trans (h.fwds o ho)
  nextPipeIds o ho := (h'.nextPipeIds o ho).trans (h.nextPipeIds o ho)

theorem setFwd_framed (g : Globals) (d : Forward) (f : Fwd) : Framed d g (g.setFwd d f) :=
  ⟨rfl, rfl, rfl, rfl, rfl, fun _ ho => setFwd_other g ho f, fun _ _ => rfl⟩

theorem freeQueues_framed (g : Globals) (d : Forward) : Framed d g g.freeQueues := by
  unfold Globals.freeQueues
  split
  · exact ⟨rfl, rfl, rfl, rfl, rfl, fun _ _ => rfl, fun _ _ => rfl⟩
  · exact ⟨rfl, rfl, rfl, rfl, rfl, fun _ _ => rfl, fun _ _ => rfl⟩

theorem Effect.apply_framed {effect : Effect} {r : Except DocaError Unit × Globals}
    (hr : effect.apply allocates d g = some r) : Framed d g r.2 := by
  have hfreed := freeQueues_framed g d
  cases effect with
  | refuse e =>
    cases hr
    exact ⟨rfl, rfl, rfl, rfl, rfl, fun _ _ => rfl, fun _ _ => rfl⟩
  | edit change =>
    cases hr
    exact setFwd_framed ..
  | nextPipe id =>
    cases hr
    exact ⟨rfl, rfl, rfl, rfl, rfl, fun _ _ => rfl, fun _ ho => Function.update_of_ne ho ..⟩
  | queues value =>
    obtain ⟨result, -, rfl⟩ := Option.map_eq_some_iff.mp hr
    cases result with
    | error e => exact ⟨hfreed.1, hfreed.2, hfreed.3, hfreed.4, hfreed.5, hfreed.6, hfreed.7⟩
    | ok queues =>
      have hnew : Framed d g (withQueues g queues) :=
        ⟨hfreed.1, hfreed.2, hfreed.3, hfreed.4, hfreed.5, hfreed.6, hfreed.7⟩
      exact hnew.trans (setFwd_framed ..)

theorem Effect.apply_grows {effect : Effect} {r : Except DocaError Unit × Globals}
    (hr : effect.apply allocates d g = some r) : g.blocks.length ≤ r.2.blocks.length := by
  cases effect with
  | refuse e =>
    cases hr
    rfl
  | edit change =>
    cases hr
    rfl
  | nextPipe id =>
    cases hr
    rfl
  | queues value =>
    obtain ⟨result, -, rfl⟩ := Option.map_eq_some_iff.mp hr
    cases result with
    | error e => simp [withoutQueues]
    | ok queues => simp [withQueues]

/-- A block that is not there any more. -/
def Gone (b : Nat) (g : Globals) : Prop := b < g.blocks.length ∧ g.blocks[b]?.join = none

theorem freeQueues_gone {b : Nat} (h : Gone b g) : Gone b g.freeQueues := by
  refine ⟨by simpa using h.1, ?_⟩
  unfold Globals.freeQueues
  split
  · exact h.2
  · rename_i c hlast
    by_cases hb : c = b
    · subst hb
      simp [List.getElem?_set_self h.1]
    · simpa [List.getElem?_set_ne hb] using h.2

theorem Effect.apply_gone {b : Nat} {effect : Effect} {r : Except DocaError Unit × Globals}
    (h : Gone b g) (hr : effect.apply allocates d g = some r) : Gone b r.2 := by
  have hfreed := freeQueues_gone h
  cases effect with
  | refuse e =>
    cases hr
    exact h
  | edit change =>
    cases hr
    exact h
  | nextPipe id =>
    cases hr
    exact h
  | queues value =>
    obtain ⟨result, -, rfl⟩ := Option.map_eq_some_iff.mp hr
    cases result with
    | error e => exact hfreed
    | ok queues =>
      refine ⟨?_, ?_⟩
      · simpa [withQueues] using Nat.lt_succ_of_lt h.1
      · simpa [withQueues, List.getElem?_append_left hfreed.1] using hfreed.2

/-- A field for the queues frees all that there were. -/
theorem Effect.apply_frees {b : Nat} {value : List Char} {r : Except DocaError Unit × Globals}
    (hi : Inv g) (hb : b < g.blocks.length)
    (hr : (Effect.queues value).apply allocates d g = some r) : Gone b r.2 := by
  have hfreed : Gone b g.freeQueues := by
    refine ⟨by simpa using hb, ?_⟩
    cases hq : g.freeQueues.blocks[b]? with
    | none => rfl
    | some queues =>
      cases queues with
      | none => rfl
      | some queues => exact absurd hq hi.freed
  obtain ⟨result, -, rfl⟩ := Option.map_eq_some_iff.mp hr
  cases result with
  | error e => exact hfreed
  | ok queues =>
    refine ⟨?_, ?_⟩
    · simpa [withQueues] using Nat.lt_succ_of_lt hb
    · simpa [withQueues, List.getElem?_append_left hfreed.1] using hfreed.2

theorem createForward_some {g₁ : Globals} {input : List Char}
    (h : cmdCreateStructParsed allocates (.forward d) input g = some g₁) :
    (∃ result, (created allocates d input g).ending = .returned result) ∧
      (created allocates d input g).structPtr = some g₁ := by
  rw [cmdCreateForward_eq] at h
  split at h
  · cases h
  · rename_i result hending
    exact ⟨⟨result, hending⟩, h⟩

/-- What every call keeps, the creation of a forward structure keeps. -/
theorem createForward_keeps {P : Globals → Prop} {g₁ : Globals} {input : List Char}
    (hP : ∀ call ∈ (created allocates d input {}).calls, ∀ g r, P g →
      (effect (String.ofList call.1) call.2).apply allocates d g = some r → P r.2)
    (hg : P (g.setFwd d {}))
    (h : cmdCreateStructParsed allocates (.forward d) input g = some g₁) : P g₁ := by
  obtain ⟨-, hptr⟩ := createForward_some h
  have hcalls := (created_alike allocates d input g).1
  have hall : ∀ call ∈ (created allocates d input g).calls, ∀ s, When P s →
      When P (filling (parseForwardField allocates d) call.1 call.2 s).2 :=
    fun call hmem s hs => filling_when (hP call (hcalls ▸ hmem)) hs
  have hstart : When P (some (g.setFwd d {})) := fun g' hg' => Option.some.inj hg' ▸ hg
  exact parseStruct_keeps hall hstart g₁ hptr

theorem createForward_inv {g₁ : Globals} {input : List Char} (hi : Inv g)
    (h : cmdCreateStructParsed allocates (.forward d) input g = some g₁) : Inv g₁ :=
  createForward_keeps (fun _ _ _ _ hg hr => Effect.apply_inv hg hr)
    (hi.setFwd (plain {}) fun _ hb => nomatch hb) h

theorem createForward_framed {g₁ : Globals} {input : List Char}
    (h : cmdCreateStructParsed allocates (.forward d) input g = some g₁) : Framed d g g₁ :=
  createForward_keeps (P := Framed d g) (fun _ _ _ _ hg hr => hg.trans (Effect.apply_framed hr))
    (setFwd_framed ..) h

/-- The structure itself is the one of the input alone. -/
theorem createForward_alike (allocates : Nat → Bool) (d : Forward) (input : List Char)
    (g : Globals) : Option.Rel (fun g g' => g.fwdArg d = g'.fwdArg d)
      (cmdCreateStructParsed allocates (.forward d) input g)
      (cmdCreateStructParsed allocates (.forward d) input {}) := by
  obtain ⟨-, hending, hrel⟩ := created_alike allocates d input g
  rw [cmdCreateForward_eq, cmdCreateForward_eq, hending]
  split
  · exact .none
  · exact hrel

/-- The id of the next pipe is the one of the input, or else the one that was there. -/
theorem createForward_next {g₁ : Globals} {input : List Char}
    (h : cmdCreateStructParsed allocates (.forward d) input g = some g₁) :
    g₁.nextPipeIds d = nextAfter (created allocates d input {}).calls (g.nextPipeIds d) := by
  obtain ⟨-, hptr⟩ := createForward_some h
  have hcalls := (created_alike allocates d input g).1
  have hfold := hptr
  rw [created, structPtr_eq] at hfold
  obtain ⟨g', hg', hnext⟩ := calls_next hfold
  rw [← hcalls]
  obtain rfl := Option.some.inj hg'
  exact hnext

theorem createForward_next_iff {g₀ g₁ : Globals} {input : List Char}
    (h : cmdCreateStructParsed allocates (.forward d) input g = some g₁)
    (h₀ : cmdCreateStructParsed allocates (.forward d) input {} = some g₀) :
    g₁.nextPipeIds d = g₀.nextPipeIds d ↔
      Sets allocates d "next_pipe_id" input ∨ g.nextPipeIds d = 0 := by
  rw [createForward_next h, createForward_next h₀]
  by_cases hset : Sets allocates d "next_pipe_id" input
  · obtain ⟨value, hmem⟩ := hset
    exact ⟨fun _ => .inl ⟨value, hmem⟩, fun _ => nextAfter_of_set hmem ..⟩
  · have hunset : ∀ value, ("next_pipe_id".toList, value) ∉ (created allocates d input {}).calls :=
      fun value hmem => hset ⟨value, hmem⟩
    rw [nextAfter_of_unset hunset, nextAfter_of_unset hunset]
    exact ⟨.inr, fun hor => hor.resolve_left hset⟩

/-- Without a field for the queues no block is touched. -/
theorem createForward_blocks {g₁ : Globals} {input : List Char}
    (hunset : ¬ Sets allocates d "rss_queues" input)
    (h : cmdCreateStructParsed allocates (.forward d) input g = some g₁) :
    g₁.blocks = g.blocks := by
  refine createForward_keeps (P := fun g' => g'.blocks = g.blocks) ?_ rfl h
  intro call hmem g' r hg' hr
  cases heffect : effect (String.ofList call.1) call.2 with
  | refuse e =>
    rw [heffect] at hr
    cases hr
    exact hg'
  | edit change =>
    rw [heffect] at hr
    cases hr
    exact hg'
  | nextPipe id =>
    rw [heffect] at hr
    cases hr
    exact hg'
  | queues text =>
    refine absurd ⟨call.2, ?_⟩ hunset
    rw [← effect_queues heffect, String.toList_ofList]
    exact hmem

/-- With a field for the queues, no queues of another structure are left. -/
theorem createForward_frees {g₁ : Globals} {input : List Char} {b : Nat} (hi : Inv g)
    (hset : Sets allocates d "rss_queues" input) (hb : b < g.blocks.length)
    (h : cmdCreateStructParsed allocates (.forward d) input g = some g₁) : Gone b g₁ := by
  obtain ⟨value, hmem⟩ := hset
  obtain ⟨-, hptr⟩ := createForward_some h
  rw [← (created_alike allocates d input g).1] at hmem
  have hqueues : effect (String.ofList "rss_queues".toList) value = .queues value := by
    rw [String.ofList_toList]
    rfl
  refine parseStruct_sets (I := When fun g' => Inv g' ∧ b < g'.blocks.length) (P := When (Gone b))
    hmem ?_ ?_ ?_ ?_ g₁ hptr
  · intro g' hg'
    obtain rfl := Option.some.inj hg'
    exact ⟨hi.setFwd (plain {}) (fun _ hnone => nomatch hnone), hb⟩
  · intro fieldName value s hs
    exact filling_when (fun g r hg hr =>
      ⟨Effect.apply_inv hg.1 hr, hg.2.trans_le (Effect.apply_grows hr)⟩) hs
  · intro s hs g' hg'
    obtain ⟨g, r, rfl, happly, rfl⟩ := filling_step hg'
    exact Effect.apply_frees (hs g rfl).1 (hs g rfl).2 (hqueues ▸ happly)
  · intro fieldName value s hs
    exact filling_when (fun g r hg hr => Effect.apply_gone hg hr) hs

/-- The other structure is as it was unless its queues were there and are freed. -/
theorem createForward_other_iff {g₁ : Globals} {input : List Char} (hi : Inv g) (ho : o ≠ d)
    (h : cmdCreateStructParsed allocates (.forward d) input g = some g₁) :
    g₁.fwdArg o = g.fwdArg o ↔
      (Sets allocates d "rss_queues" input → (g.fwdArg o).rssQueues.join = none) := by
  have hfwd := (createForward_framed h).fwds o ho
  rw [fwdArg_eq_iff, hfwd, eq_self_iff_true, true_and]
  simp only [Globals.fwdArg]
  cases hptr : (g.fwds o).rssQueues with
  | none => simp [queuesAt]
  | some b =>
    simp only [queuesAt, Option.map_some, Option.some.injEq, Option.join_some]
    by_cases hset : Sets allocates d "rss_queues" input
    · rw [(createForward_frees hi hset (hi.inRange o b hptr) h).2]
      exact ⟨fun heq _ => heq.symm, fun hgone => (hgone hset).symm⟩
    · rw [createForward_blocks hset h]
      exact ⟨fun _ hset' => absurd hset' hset, fun _ => rfl⟩

end Forward

end DocaApps.Proofs.FlowShell
