import DocaApps.Proofs.FlowShell
import DocaApps.Proofs.ParamsCommands

namespace DocaApps.Proofs.ShellHistory
open Common.FlowParser Common.StructParser Common.ParamsParser Common.ParamsLists
open Common.FlowShell Common.StructFields
open Firewall.Shell (filling)
open Lib.Runs Proofs.StructSplitting Proofs.FlowShell

section Params
variable {K σ α : Type} {R : σ → σ → Prop} {p : Params K σ}

/-- Two results with the same answer, and with states that are related. -/
structure Answers (R : σ → σ → Prop) (r r' : Except DocaError α × σ) : Prop where
  answer : r.1 = r'.1
  states : R r.2 r'.2

theorem takeBool_related {strLen : Nat} {s : List Char} {st st' : σ} {flag : Bool}
    {set set' : Bool → σ} (hst : R st st') (hset : ∀ b, R (set b) (set' b)) :
    Option.Rel (Answers R) (takeBool strLen s st flag set) (takeBool strLen s st' flag set') := by
  unfold takeBool
  split
  · exact .some ⟨rfl, hst⟩
  · exact .some ⟨rfl, hset _⟩

theorem round_related
    (htake : ∀ k s st st', R st st' → Option.Rel (Answers R) (p.take k s st) (p.take k s st'))
    (s : List Char) {st st' : σ} (hst : R st st') :
    Option.Rel (Answers R) (p.round s st) (p.round s st') := by
  unfold Params.round
  split
  · exact .some ⟨rfl, hst⟩
  · exact htake _ s st st' hst

theorem loop_eq (p : Params K σ) (s : List Char) (st : σ) : p.loop s st =
    match p.round s st with
    | none => none
    | some (.error e, st) => some (.error e, st)
    | some (.ok [], st) => some (.ok (), st)
    | some (.ok (tmpChar :: paramsStr), st) =>
      if tmpChar = ',' then p.loop paramsStr st else some (.ok (), st) := by
  rw [Params.loop]
  split <;> simp_all

theorem loop_related
    (htake : ∀ k s st st', R st st' → Option.Rel (Answers R) (p.take k s st) (p.take k s st'))
    (s : List Char) {st st' : σ} (hst : R st st') :
    Option.Rel (Answers R) (p.loop s st) (p.loop s st') := by
  induction hlen : s.length using Nat.strong_induction_on generalizing s st st' with
  | _ n ih =>
    subst hlen
    have hround := round_related htake s hst
    have honward : ∀ rest st', p.round s st = some (.ok rest, st') → rest.length ≤ s.length :=
      fun rest st' => p.round_onward
    rw [loop_eq, loop_eq p s st']
    generalize p.round s st = taken at hround honward
    generalize p.round s st' = taken' at hround
    cases hround with
    | none => exact .none
    | @some r r' h =>
      obtain ⟨result, st₁⟩ := r
      obtain ⟨result', st₁'⟩ := r'
      obtain rfl : result = result' := h.answer
      cases result with
      | error e => exact .some ⟨rfl, h.states⟩
      | ok rest =>
        cases rest with
        | nil => exact .some ⟨rfl, h.states⟩
        | cons tmpChar rest =>
          have hshorter := honward _ _ rfl
          dsimp only
          split
          · exact ih rest.length (by simpa using hshorter) rest h.states rfl
          · exact .some ⟨rfl, h.states⟩

theorem parse_related
    (htake : ∀ k s st st', R st st' → Option.Rel (Answers R) (p.take k s st) (p.take k s st'))
    (hhas : ∀ k ∈ p.mandatory, ∀ st st', R st st' → p.has st k = p.has st' k)
    (s : List Char) {st st' : σ} (hst : R st st') :
    Option.Rel (Answers R) (p.parse s st) (p.parse s st') := by
  have hloop := loop_related htake s hst
  unfold Params.parse
  generalize p.loop s st = ended at hloop
  generalize p.loop s st' = ended' at hloop
  cases hloop with
  | none => exact .none
  | @some r r' h =>
    obtain ⟨result, st₁⟩ := r
    obtain ⟨result', st₁'⟩ := r'
    obtain rfl : result = result' := h.answer
    cases result with
    | error e => exact .some h
    | ok u =>
      have hall : p.mandatory.all (p.has st₁) = p.mandatory.all (p.has st₁') :=
        Bool.eq_iff_iff.mpr (by
          simp only [List.all_eq_true]
          exact forall₂_congr fun k hk => by rw [hhas k hk _ _ h.states])
      dsimp only
      rw [hall]
      split
      · exact .some ⟨rfl, h.states⟩
      · exact .some ⟨rfl, h.states⟩

theorem parse_mandatory {s : List Char} {st st' : σ} (h : p.parse s st = some (.ok (), st')) :
    ∀ k ∈ p.mandatory, p.has st' k = true := by
  unfold Params.parse at h
  split at h
  · split at h
    · rename_i hall
      cases h
      exact List.all_eq_true.mp hall
    · cases h
  · rename_i hnot
    exact absurd h (hnot st')

end Params

/-- The two configurations differ at most in the port, and only before it was read. -/
structure SameButPort (cfg cfg' : CreatePipeParams) : Prop where
  same : cfg' = { cfg with pipePortId := cfg'.pipePortId }
  port : cfg.hasPortId = true → cfg.pipePortId = cfg'.pipePortId

theorem SameButPort.eq {cfg cfg' : CreatePipeParams} (h : SameButPort cfg cfg')
    (hread : cfg.hasPortId = true) : cfg = cfg' := by
  rw [h.same, ← h.port hread]

theorem createPipe_take_related (k : CreatePipeKey) (s : List Char) (cfg cfg' : CreatePipeParams)
    (h : SameButPort cfg cfg') :
    Option.Rel (Answers SameButPort) (k.take s cfg) (k.take s cfg') := by
  obtain ⟨port, hport⟩ : ∃ port, cfg' = { cfg with pipePortId := port } := ⟨_, h.same⟩
  subst hport
  have hread := h.port
  cases k with
  | portId =>
    simp only [CreatePipeKey.take]
    split
    · exact .some ⟨rfl, h⟩
    · split
      · exact .none
      · exact .some ⟨rfl, ⟨rfl, fun _ => rfl⟩⟩
  | name =>
    simp only [CreatePipeKey.take]
    split
    · exact .some ⟨rfl, h⟩
    · split
      · exact .none
      · exact .some ⟨rfl, ⟨rfl, hread⟩⟩
  | rootEnable => exact takeBool_related h fun b => by cases b <;> exact ⟨rfl, hread⟩
  | monitor => exact takeBool_related h fun b => by cases b <;> exact ⟨rfl, hread⟩
  | matchMask => exact takeBool_related h fun b => by cases b <;> exact ⟨rfl, hread⟩
  | fwdMiss => exact takeBool_related h fun b => ⟨rfl, hread⟩
  | fwd => exact takeBool_related h fun b => ⟨rfl, hread⟩
  | type =>
    simp only [CreatePipeKey.take]
    split
    · exact .none
    · split
      · exact .some ⟨rfl, h⟩
      · exact .some ⟨rfl, ⟨rfl, hread⟩⟩

/-- The port of an earlier command does not show: it is read anew, or the command is refused. -/
theorem parseCreatePipeParams_related (params : List Char) (port port' : BitVec 16) :
    Option.Rel (Answers SameButPort) (parseCreatePipeParams params { pipePortId := port })
      (parseCreatePipeParams params { pipePortId := port' }) := by
  refine parse_related createPipe_take_related ?_ params ⟨rfl, fun hread => nomatch hread⟩
  intro k hk cfg cfg' h
  obtain rfl := List.mem_singleton.mp hk
  rw [h.same]
  rfl

theorem parseCreatePipeParams_ok {params : List Char} {port : BitVec 16} {cfg : CreatePipeParams}
    (h : parseCreatePipeParams params { pipePortId := port } = some (.ok (), cfg))
    (port' : BitVec 16) :
    parseCreatePipeParams params { pipePortId := port' } = some (.ok (), cfg) := by
  have hrelated := parseCreatePipeParams_related params port port'
  have hport : cfg.hasPortId = true := parse_mandatory h .portId List.mem_cons_self
  rw [h] at hrelated
  generalize parseCreatePipeParams params { pipePortId := port' } = parsed at hrelated ⊢
  cases hrelated with
  | @some _ r hanswers =>
    obtain ⟨result, cfg'⟩ := r
    obtain rfl : .ok () = result := hanswers.answer
    obtain rfl : cfg = cfg' := hanswers.states.eq hport
    rfl

section Agree
variable {allocates : Nat → Bool} {x y : Struct} {g g' g'' : Globals}

/-- The two states give the callbacks the same structure, with a forward one the next pipe too. -/
def Agree (x : Struct) (g g' : Globals) : Prop :=
  match x with
  | .pipeMatch => g.pipeMatch = g'.pipeMatch
  | .entryMatch => g.entryMatch = g'.entryMatch
  | .matchMask => g.matchMask = g'.matchMask
  | .actions => g.actions = g'.actions
  | .monitor => g.monitor = g'.monitor
  | .forward d => g.fwdArg d = g'.fwdArg d ∧ g.nextPipeIds d = g'.nextPipeIds d

theorem Agree.refl (x : Struct) (g : Globals) : Agree x g g := by
  cases x <;> simp [Agree]

theorem Agree.symm (h : Agree x g g') : Agree x g' g := by
  cases x with
  | forward d => exact ⟨h.1.symm, h.2.symm⟩
  | _ => exact Eq.symm h

theorem Agree.trans (h : Agree x g g') (h' : Agree x g' g'') : Agree x g g'' := by
  cases x with
  | forward d => exact ⟨h.1.trans h'.1, h.2.trans h'.2⟩
  | _ => exact Eq.trans h h'

def createPipeUses (cfg : CreatePipeParams) : Struct → Prop
  | .pipeMatch | .actions => cfg.type ≠ .control
  | .monitor => cfg.monitor = true
  | .matchMask => cfg.matchMask = true
  | .entryMatch => False
  | .forward _ => True

def addEntryUses (st : AddEntryParams) : Struct → Prop
  | .entryMatch | .actions | .forward .fwd => True
  | .monitor => st.monitorAction = true
  | _ => False

def addControlPipeEntryUses (st : ControlEntryParams) : Struct → Prop
  | .entryMatch | .forward .fwd => True
  | .matchMask => st.matchMaskAction = true
  | _ => False

/-- The structures that a command passes on. The next pipe of a forward structure is passed on
whether or not the structure is. -/
def Uses (c : Command) (x : Struct) : Prop :=
  match c with
  | .createStruct _ _ => False
  | .createPipe params =>
    ∃ cfg, parseCreatePipeParams params {} = some (.ok (), cfg) ∧ createPipeUses cfg x
  | .addEntry params =>
    ∃ st, parseAddEntryParams params {} = some (.ok (), st) ∧ addEntryUses st x
  | .addControlPipeEntry params =>
    ∃ st, parseAddControlPipeEntryParams params {} = some (.ok (), st) ∧
      addControlPipeEntryUses st x

theorem given_congr {α : Type} {asked : Bool} {a b : α} (h : asked = true → a = b) :
    given asked a = given asked b := by
  cases asked with
  | false => rfl
  | true => rw [h rfl]

theorem createStruct_call (allocates : Nat → Bool) (x : Struct) (input : List Char) (g : Globals) :
    (command allocates (.createStruct x input) g).map Prod.snd =
      (command allocates (.createStruct x input) {}).map Prod.snd := by
  simp only [command, Option.map_map]
  cases x with
  | forward d =>
    have halike := createForward_alike allocates d input g
    generalize cmdCreateStructParsed allocates (.forward d) input g = s at halike ⊢
    generalize cmdCreateStructParsed allocates (.forward d) input {} = s₀ at halike ⊢
    cases halike with
    | none => rfl
    | some h => rfl
  | _ => simp [cmdCreateStructParsed, Function.comp_def]

theorem fwdArg_setPort (g : Globals) (port : BitVec 16) (d : Forward) :
    ({ g with pipePortId := port } : Globals).fwdArg d = g.fwdArg d := rfl

theorem createPipe_call {params : List Char} (h : ∀ x, Uses (.createPipe params) x → Agree x g g') :
    (cmdCreatePipeParsed params g).map Prod.snd = (cmdCreatePipeParsed params g').map Prod.snd := by
  have hrelated := parseCreatePipeParams_related params g.pipePortId g'.pipePortId
  unfold cmdCreatePipeParsed
  cases hparsed : parseCreatePipeParams params { pipePortId := g.pipePortId } with
  | none =>
    rw [hparsed] at hrelated
    generalize parseCreatePipeParams params { pipePortId := g'.pipePortId } = parsed at hrelated ⊢
    cases hrelated
    rfl
  | some r =>
    obtain ⟨result, cfg⟩ := r
    cases result with
    | error e =>
      rw [hparsed] at hrelated
      generalize parseCreatePipeParams params { pipePortId := g'.pipePortId } = parsed at hrelated ⊢
      cases hrelated with
      | @some _ r hanswers =>
        obtain ⟨result, cfg'⟩ := r
        obtain rfl : .error e = result := hanswers.answer
        rfl
    | ok u =>
      have huses : ∀ x, createPipeUses cfg x → Agree x g g' := fun x hx =>
        h x ⟨cfg, parseCreatePipeParams_ok hparsed 0, hx⟩
      have hfwd : Agree (.forward .fwd) g g' := huses _ trivial
      have hmiss : Agree (.forward .fwdMiss) g g' := huses _ trivial
      have hmatch : decide (cfg.type ≠ .control) = true → g.pipeMatch = g'.pipeMatch :=
        fun hbasic => huses .pipeMatch (of_decide_eq_true (p := cfg.type ≠ .control) hbasic)
      have hactions : decide (cfg.type ≠ .control) = true → g.actions = g'.actions :=
        fun hbasic => huses .actions (of_decide_eq_true (p := cfg.type ≠ .control) hbasic)
      rw [parseCreatePipeParams_ok hparsed]
      simp only [Option.map_some, fwdArg_setPort]
      rw [given_congr hmatch, given_congr hactions, given_congr (huses .monitor),
        given_congr (huses .matchMask), hfwd.1, hfwd.2, hmiss.1, hmiss.2]

theorem addEntry_call {params : List Char} (h : ∀ x, Uses (.addEntry params) x → Agree x g g') :
    (cmdAddEntryParsed params g).map Prod.snd = (cmdAddEntryParsed params g').map Prod.snd := by
  unfold cmdAddEntryParsed
  cases hparsed : parseAddEntryParams params {} with
  | none => rfl
  | some r =>
    obtain ⟨result, st⟩ := r
    cases result with
    | error e => rfl
    | ok u =>
      have huses : ∀ x, addEntryUses st x → Agree x g g' := fun x hx => h x ⟨st, hparsed, hx⟩
      have hmatch : g.entryMatch = g'.entryMatch := huses .entryMatch trivial
      have hactions : g.actions = g'.actions := huses .actions trivial
      have hfwd : Agree (.forward .fwd) g g' := huses _ trivial
      simp only [Option.map_some]
      rw [hmatch, hactions, given_congr (huses .monitor), hfwd.1, hfwd.2]

theorem addControlPipeEntry_call {params : List Char}
    (h : ∀ x, Uses (.addControlPipeEntry params) x → Agree x g g') :
    (cmdAddControlPipeEntryParsed params g).map Prod.snd =
      (cmdAddControlPipeEntryParsed params g').map Prod.snd := by
  unfold cmdAddControlPipeEntryParsed
  cases hparsed : parseAddControlPipeEntryParams params {} with
  | none => rfl
  | some r =>
    obtain ⟨result, st⟩ := r
    cases result with
    | error e => rfl
    | ok u =>
      have huses : ∀ x, addControlPipeEntryUses st x → Agree x g g' :=
        fun x hx => h x ⟨st, hparsed, hx⟩
      have hmatch : g.entryMatch = g'.entryMatch := huses .entryMatch trivial
      have hfwd : Agree (.forward .fwd) g g' := huses _ trivial
      simp only [Option.map_some]
      rw [hmatch, given_congr (huses .matchMask), hfwd.1, hfwd.2]

/-- The call of a command comes from the command and the structures that it uses. -/
theorem command_call {c : Command} (h : ∀ x, Uses c x → Agree x g g') :
    (command allocates c g).map Prod.snd = (command allocates c g').map Prod.snd := by
  cases c with
  | createStruct x input => rw [createStruct_call, createStruct_call allocates x input g']
  | createPipe params => exact createPipe_call h
  | addEntry params => exact addEntry_call h
  | addControlPipeEntry params => exact addControlPipeEntry_call h

/-- Where one state has a structure, so has the other. -/
theorem createStruct_alone {input : List Char} {g₁ : Globals}
    (h : cmdCreateStructParsed allocates x input g = some g₁) :
    ∃ g₀, cmdCreateStructParsed allocates x input {} = some g₀ := by
  have hcall := createStruct_call allocates x input g
  simp only [command, h, Option.map_some] at hcall
  obtain ⟨r, hr, -⟩ := Option.map_eq_some_iff.mp hcall.symm
  obtain ⟨g₀, hg₀, -⟩ := Option.map_eq_some_iff.mp hr
  exact ⟨g₀, hg₀⟩

/-- A structure that is not a forward one is made of its input, and nothing else is touched. -/
theorem createPlain_agrees {input : List Char} {g₀ g₁ : Globals} (hx : ∀ d, x ≠ .forward d)
    (h : cmdCreateStructParsed allocates x input g = some g₁)
    (h₀ : cmdCreateStructParsed allocates x input {} = some g₀) :
    Agree x g₁ g₀ ∧ (∀ y ≠ x, Agree y g₁ g) ∧ (Inv g → Inv g₁) := by
  cases x with
  | forward d => exact absurd rfl (hx d)
  | _ =>
    obtain ⟨s, hs, rfl⟩ := Option.map_eq_some_iff.mp h
    obtain ⟨s₀, hs₀, rfl⟩ := Option.map_eq_some_iff.mp h₀
    obtain rfl : s = s₀ := Option.some.inj (hs.symm.trans hs₀)
    refine ⟨rfl, ?_, fun hi => ⟨hi.inRange, hi.current⟩⟩
    intro y hy
    cases y with
    | forward d => exact ⟨rfl, rfl⟩
    | _ => first | rfl | exact absurd rfl hy

/-- A forward structure has the next pipe of its input where the input has one, or where there was
none before. -/
theorem createForward_agrees_iff {d : Forward} {input : List Char} {g₀ g₁ : Globals}
    (h : cmdCreateStructParsed allocates (.forward d) input g = some g₁)
    (h₀ : cmdCreateStructParsed allocates (.forward d) input {} = some g₀) :
    Agree (.forward d) g₁ g₀ ↔ Sets allocates d "next_pipe_id" input ∨ g.nextPipeIds d = 0 := by
  have halike := createForward_alike allocates d input g
  rw [h, h₀] at halike
  cases halike with
  | some hsame => exact (and_iff_right hsame).trans (createForward_next_iff h h₀)

theorem createForward_others_iff {d : Forward} {input : List Char} {g₁ : Globals} (hi : Inv g)
    (h : cmdCreateStructParsed allocates (.forward d) input g = some g₁) :
    (∀ y ≠ .forward d, Agree y g₁ g) ↔
      (Sets allocates d "rss_queues" input → ∀ o ≠ d, (g.fwdArg o).rssQueues.join = none) := by
  have hframed := createForward_framed h
  constructor
  · intro hall hset o ho
    have hother := hall (.forward o) fun heq => ho (Struct.forward.inj heq)
    exact (createForward_other_iff hi ho h).mp hother.1 hset
  · intro hgone y hy
    cases y with
    | pipeMatch => exact hframed.pipeMatch
    | entryMatch => exact hframed.entryMatch
    | matchMask => exact hframed.matchMask
    | actions => exact hframed.actions
    | monitor => exact hframed.monitor
    | forward o =>
      have ho : o ≠ d := fun heq => hy (congrArg _ heq)
      exact ⟨(createForward_other_iff hi ho h).mpr fun hset => hgone hset o ho,
        hframed.nextPipeIds o ho⟩

/-- A command that creates no structure leaves them all. -/
theorem command_agrees {c : Command} {g₁ : Globals} {call : Option Call}
    (hc : ∀ x input, c ≠ .createStruct x input) (h : command allocates c g = some (g₁, call)) :
    ∃ port, g₁ = { g with pipePortId := port } := by
  cases c with
  | createStruct x input => exact absurd rfl (hc x input)
  | createPipe params =>
    obtain ⟨⟨result, cfg⟩, -, hr⟩ := Option.map_eq_some_iff.mp h
    refine ⟨cfg.pipePortId, ?_⟩
    cases result with
    | error e => exact (congrArg Prod.fst hr).symm
    | ok u => exact (congrArg Prod.fst hr).symm
  | addEntry params =>
    obtain ⟨⟨result, st⟩, -, hr⟩ := Option.map_eq_some_iff.mp h
    refine ⟨g.pipePortId, ?_⟩
    cases result with
    | error e => exact (congrArg Prod.fst hr).symm
    | ok u => exact (congrArg Prod.fst hr).symm
  | addControlPipeEntry params =>
    obtain ⟨⟨result, st⟩, -, hr⟩ := Option.map_eq_some_iff.mp h
    refine ⟨g.pipePortId, ?_⟩
    cases result with
    | error e => exact (congrArg Prod.fst hr).symm
    | ok u => exact (congrArg Prod.fst hr).symm

end Agree

section Histories
variable {allocates : Nat → Bool} {s : Shell} {c : Command} {g g₁ : Globals}

/-- The state that the last input for a structure leaves, when it is the first command. -/
def alone (allocates : Nat → Bool) (x : Struct) : Option (List Char) → Option Globals
  | none => some {}
  | some input => cmdCreateStructParsed allocates x input {}

/-- Every structure is the one of its last input alone. -/
def Current (allocates : Nat → Bool) (s : Shell) : Prop :=
  ∀ g, s.globals = some g → ∀ x, ∃ g₀, alone allocates x (s.latest x) = some g₀ ∧ Agree x g g₀

/-- A forward structure is created with its next pipe or where none was set before, and with queues
only while the other structure has none. -/
def Kept (allocates : Nat → Bool) (s : Shell) (c : Command) : Prop :=
  match c with
  | .createStruct (.forward d) input => ∀ g, s.globals = some g →
    (Sets allocates d "next_pipe_id" input ∨ g.nextPipeIds d = 0) ∧
      (Sets allocates d "rss_queues" input → ∀ o ≠ d, (g.fwdArg o).rssQueues.join = none)
  | _ => True

/-- The shell has not left its memory, and the invariant of the blocks holds. -/
def Sound (s : Shell) : Prop := ∃ g, s.globals = some g ∧ Inv g

theorem latest_create (allocates : Nat → Bool) (s : Shell) (x : Struct) (input : List Char) :
    (s.step allocates (.createStruct x input)).latest x = some input := Function.update_self ..

theorem latest_others (allocates : Nat → Bool) (s : Shell) {x y : Struct} (hy : y ≠ x)
    (input : List Char) :
    (s.step allocates (.createStruct x input)).latest y = s.latest y := Function.update_of_ne hy ..

theorem globals_create {x : Struct} {input : List Char} (hs : s.globals = some g)
    (h : cmdCreateStructParsed allocates x input g = some g₁) :
    (s.step allocates (.createStruct x input)).globals = some g₁ := by
  simp [Shell.step, command, hs, h]

/-- The structures are current after a creation when the new one is the one of its input, and the
others are as they were. -/
theorem create_current_iff {x : Struct} {input : List Char} {g₀ : Globals}
    (hcur : Current allocates s) (hs : s.globals = some g)
    (h : cmdCreateStructParsed allocates x input g = some g₁)
    (h₀ : cmdCreateStructParsed allocates x input {} = some g₀) :
    Current allocates (s.step allocates (.createStruct x input)) ↔
      Agree x g₁ g₀ ∧ ∀ y ≠ x, Agree y g₁ g := by
  have hself := latest_create allocates s x input
  constructor
  · intro hnext
    refine ⟨?_, fun y hy => ?_⟩
    · obtain ⟨g', hg', hagree⟩ := hnext g₁ (globals_create hs h) x
      rw [hself] at hg'
      obtain rfl : g₀ = g' := Option.some.inj (h₀.symm.trans hg')
      exact hagree
    · obtain ⟨g', hg', hagree⟩ := hnext g₁ (globals_create hs h) y
      rw [latest_others allocates s hy] at hg'
      obtain ⟨g'', hg'', hbefore⟩ := hcur g hs y
      obtain rfl : g' = g'' := Option.some.inj (hg'.symm.trans hg'')
      exact hagree.trans hbefore.symm
  · intro ⟨hown, hothers⟩ g' hg' y
    obtain rfl : g₁ = g' := Option.some.inj ((globals_create hs h).symm.trans hg')
    by_cases hy : y = x
    · subst hy
      exact ⟨g₀, by rw [hself]; exact h₀, hown⟩
    · obtain ⟨g'', hg'', hbefore⟩ := hcur g hs y
      refine ⟨g'', ?_, (hothers y hy).trans hbefore⟩
      rw [latest_others allocates s hy]
      exact hg''

/-- A step that stays in its memory is that of the command in the state there is. -/
theorem step_defined (hs : s.globals = some g) (hdef : (s.step allocates c).globals.isSome) :
    ∃ g₁ call, command allocates c g = some (g₁, call) ∧
      (s.step allocates c).globals = some g₁ := by
  obtain ⟨g₁, hg₁⟩ := Option.isSome_iff_exists.mp hdef
  have hstep := hg₁
  simp only [Shell.step, hs, Option.bind_some] at hstep
  obtain ⟨⟨g', call⟩, hcommand, rfl⟩ := Option.map_eq_some_iff.mp hstep
  exact ⟨g', call, hcommand, hg₁⟩

theorem create_defined {x : Struct} {input : List Char} (hs : s.globals = some g)
    (hdef : (s.step allocates (.createStruct x input)).globals.isSome) :
    ∃ g₀ g₁, cmdCreateStructParsed allocates x input g = some g₁ ∧
      cmdCreateStructParsed allocates x input {} = some g₀ := by
  obtain ⟨g₁, call, hcommand, -⟩ := step_defined hs hdef
  obtain ⟨g', h, -⟩ := Option.map_eq_some_iff.mp hcommand
  obtain ⟨g₀, h₀⟩ := createStruct_alone h
  exact ⟨g₀, g', h, h₀⟩

theorem sound_step (hs : Sound s) (hdef : (s.step allocates c).globals.isSome) :
    Sound (s.step allocates c) := by
  obtain ⟨g, hg, hi⟩ := hs
  cases c with
  | createStruct x input =>
    obtain ⟨g₀, g₁, h, h₀⟩ := create_defined hg hdef
    refine ⟨g₁, globals_create hg h, ?_⟩
    cases x with
    | forward d => exact createForward_inv hi h
    | _ => exact (createPlain_agrees (by simp) h h₀).2.2 hi
  | _ =>
    obtain ⟨g₁, call, hcommand, hg₁⟩ := step_defined hg hdef
    obtain ⟨port, rfl⟩ := command_agrees (by simp) hcommand
    exact ⟨_, hg₁, hi.inRange, hi.current⟩

theorem current_step (hs : Sound s) (hdef : (s.step allocates c).globals.isSome)
    (hcur : Current allocates s) :
    Current allocates (s.step allocates c) ↔ Kept allocates s c := by
  obtain ⟨g, hg, hi⟩ := hs
  cases c with
  | createStruct x input =>
    obtain ⟨g₀, g₁, h, h₀⟩ := create_defined hg hdef
    rw [create_current_iff hcur hg h h₀]
    cases x with
    | forward d =>
      rw [createForward_agrees_iff h h₀, createForward_others_iff hi h]
      simp [Kept, hg]
    | _ =>
      have hplain := createPlain_agrees (by simp) h h₀
      exact ⟨fun _ => trivial, fun _ => ⟨hplain.1, hplain.2.1⟩⟩
  | _ =>
    refine ⟨fun _ => trivial, fun _ => ?_⟩
    obtain ⟨g₁, call, hcommand, hg₁⟩ := step_defined hg hdef
    obtain ⟨port, rfl⟩ := command_agrees (by simp) hcommand
    intro g' hg' x
    obtain rfl := Option.some.inj (hg₁.symm.trans hg')
    obtain ⟨g₀, hg₀, hagree⟩ := hcur g hg x
    refine ⟨g₀, hg₀, ?_⟩
    cases x with
    | forward d => exact hagree
    | _ => exact hagree

/-- The histories in which the shell never leaves its memory. -/
def Defined (allocates : Nat → Bool) (h : List Command) : Prop :=
  Along (Shell.step allocates) (fun s c => (s.step allocates c).globals.isSome) {} h

theorem sound_start : Sound {} :=
  ⟨{}, rfl, ⟨by simp, by simp⟩⟩

theorem current_start (allocates : Nat → Bool) : Current allocates {} := by
  intro g hg x
  obtain rfl := Option.some.inj hg
  exact ⟨{}, rfl, .refl x {}⟩

/-- All structures are those of their last inputs throughout a history exactly when every command
of it keeps them so. -/
theorem current_iff_kept {h : List Command} (hdefined : Defined allocates h) :
    (∀ k, Current allocates (Shell.after allocates (h.take k))) ↔
      Along (Shell.step allocates) (Kept allocates) {} h :=
  good_iff_along (fun _ _ hs hdef _ => sound_step hs hdef)
    (fun _ _ hs hdef hcur => current_step hs hdef hcur) sound_start (current_start allocates)
    hdefined

theorem sound_after {h : List Command} (hdefined : Defined allocates h) :
    Sound (Shell.after allocates h) :=
  run_invariant (fun _ _ hs hdef => sound_step hs hdef) sound_start hdefined

theorem current_after {h : List Command} (hdefined : Defined allocates h)
    (hkept : Along (Shell.step allocates) (Kept allocates) {} h) :
    Current allocates (Shell.after allocates h) := by
  have hall := (current_iff_kept hdefined).mpr hkept h.length
  rwa [List.take_length] at hall

/-- Histories that keep the structures and agree on the last inputs of those that a command uses
lead to the same call, and the creation of the structure for missed packets leaves the other one
exactly when it frees none of its queues. -/
theorem call_of_latest {h h' : List Command} (hdefined : Defined allocates h)
    (hdefined' : Defined allocates h')
    (hkept : Along (Shell.step allocates) (Kept allocates) {} h)
    (hkept' : Along (Shell.step allocates) (Kept allocates) {} h') :
    (∀ c,
      (∀ x, Uses c x → (Shell.after allocates h).latest x = (Shell.after allocates h').latest x) →
      (Shell.after allocates h).call allocates c = (Shell.after allocates h').call allocates c) ∧
    ∀ input g g₁, (Shell.after allocates h).globals = some g →
      cmdCreateStructParsed allocates (.forward .fwdMiss) input g = some g₁ →
      (Agree (.forward .fwd) g₁ g ↔ (Sets allocates .fwdMiss "rss_queues" input →
        (g.fwdArg .fwd).rssQueues.join = none)) := by
  obtain ⟨g, hg, hi⟩ := sound_after hdefined
  obtain ⟨g', hg', -⟩ := sound_after hdefined'
  have hcur := current_after hdefined hkept g hg
  have hcur' := current_after hdefined' hkept' g' hg'
  constructor
  · intro c hlatest
    simp only [Shell.call, hg, hg', Option.bind_some]
    refine command_call fun x hx => ?_
    obtain ⟨g₀, hg₀, hagree⟩ := hcur x
    obtain ⟨g₀', hg₀', hagree'⟩ := hcur' x
    rw [hlatest x hx] at hg₀
    obtain rfl : g₀ = g₀' := Option.some.inj (hg₀.symm.trans hg₀')
    exact hagree.trans hagree'.symm
  · intro input g₂ g₁ hg₂ hcreate
    obtain rfl := Option.some.inj (hg.symm.trans hg₂)
    have hne : Forward.fwd ≠ .fwdMiss := by simp
    have hnext := (createForward_framed hcreate).nextPipeIds .fwd hne
    exact (and_iff_left hnext).trans (createForward_other_iff hi hne hcreate)

theorem filling_applied {d : Forward} {fieldName value : List Char}
    {result : Except DocaError Unit}
    (h : (effect (String.ofList fieldName) value).apply allocates d g = some (result, g₁)) :
    filling (parseForwardField allocates d) fieldName value (some g) = (result, some g₁) := by
  simp only [filling, Option.bind_some, parseForwardField_effect, h]

/-- The reading of an input with one field. -/
theorem created_one {d : Forward} {input fieldName value : List Char}
    (hcut : cutField input = .field fieldName value [])
    (h : (effect (String.ofList fieldName) value).apply allocates d (g.setFwd d {}) =
      some (.ok (), g₁)) :
    created allocates d input g = ⟨[(fieldName, value)], some g₁, .returned (.ok ())⟩ :=
  parseStruct_done hcut (filling_applied h) (by simp)

/-- The reading of an input with two. -/
theorem created_two {d : Forward} {input rest fieldName fieldName' value value' : List Char}
    {g₂ : Globals} (hcut : cutField input = .field fieldName value (',' :: rest))
    (hcut' : cutField rest = .field fieldName' value' [])
    (h : (effect (String.ofList fieldName) value).apply allocates d (g.setFwd d {}) =
      some (.ok (), g₁))
    (h' : (effect (String.ofList fieldName') value').apply allocates d g₁ = some (.ok (), g₂)) :
    created allocates d input g =
      ⟨[(fieldName, value), (fieldName', value')], some g₂, .returned (.ok ())⟩ := by
  rw [created, parseStruct_again hcut (filling_applied h),
    parseStruct_done hcut' (filling_applied h') (by simp)]
  rfl

theorem created_some {d : Forward} {input : List Char} {calls : List (List Char × List Char)}
    (h : created allocates d input g = ⟨calls, some g₁, .returned (.ok ())⟩) :
    cmdCreateStructParsed allocates (.forward d) input g = some g₁ := by
  rw [cmdCreateForward_eq, h]

theorem created_next {input value : List Char}
    (hcut : cutField input = .field "next_pipe_id".toList value []) (d : Forward) (g : Globals) :
    created allocates d input g = ⟨[("next_pipe_id".toList, value)],
      some ((g.setFwd d {}).setNextPipeId d (BitVec.ofNat 64 (strtoull value 0).1)),
      .returned (.ok ())⟩ :=
  created_one hcut (by rw [String.ofList_toList]; rfl)

/-- An input for the next pipe alone is always fine. -/
theorem created_next_kept {input value : List Char}
    (hcut : cutField input = .field "next_pipe_id".toList value []) (d : Forward) (s : Shell) :
    Kept allocates s (.createStruct (.forward d) input) := by
  intro g hg
  constructor
  · refine .inl ⟨value, ?_⟩
    rw [created_next hcut]
    exact List.mem_singleton_self _
  · intro ⟨value', hmem⟩
    rw [created_next hcut] at hmem
    simp at hmem

theorem call_of_latest_twice :
    let last := Command.createStruct (.forward .fwd) "next_pipe_id=5".toList
    let before := Command.createStruct (.forward .fwd) "next_pipe_id=3".toList
    let entry := Command.addEntry "pipe_id=1,pipe_queue=2".toList
    (Shell.after (fun _ => true) [last]).call (fun _ => true) entry =
      (Shell.after (fun _ => true) [before, last]).call (fun _ => true) entry := by
  intro last before entry
  have hlast : cutField "next_pipe_id=5".toList =
      .field "next_pipe_id".toList "5".toList [] := by decide
  have hbefore : cutField "next_pipe_id=3".toList =
      .field "next_pipe_id".toList "3".toList [] := by decide
  have hone : (Shell.step (fun _ => true) {} last).globals = some _ :=
    globals_create rfl (created_some (created_next hlast .fwd {}))
  have hfirst : (Shell.step (fun _ => true) {} before).globals = some _ :=
    globals_create rfl (created_some (created_next hbefore .fwd {}))
  have hsecond : (Shell.step (fun _ => true) (Shell.step (fun _ => true) {} before) last).globals =
      some _ := globals_create hfirst (created_some (created_next hlast .fwd _))
  have hdefined : Defined (fun _ => true) [last] := ⟨Option.isSome_of_eq_some hone, trivial⟩
  have hdefined' : Defined (fun _ => true) [before, last] :=
    ⟨Option.isSome_of_eq_some hfirst, Option.isSome_of_eq_some hsecond, trivial⟩
  refine (call_of_latest hdefined hdefined' ?_ ?_).1 entry fun x _ => ?_
  · exact ⟨created_next_kept hlast .fwd _, trivial⟩
  · exact ⟨created_next_kept hbefore .fwd _, created_next_kept hlast .fwd _, trivial⟩
  · exact congrFun (Function.update_idem ..).symm x

theorem parse_entry : parseAddEntryParams "pipe_id=1,pipe_queue=2".toList {} =
    some (.ok (), { pipeId := 1, pipeQueue := 2, hasPipeId := true, hasPipeQueue := true }) := by
  have hfirst : addEntryParams.round "pipe_id=1,pipe_queue=2".toList {} =
      some (.ok (',' :: "pipe_queue=2".toList), { pipeId := 1, hasPipeId := true }) := by decide
  have hsecond : addEntryParams.round "pipe_queue=2".toList { pipeId := 1, hasPipeId := true } =
      some (.ok [], { pipeId := 1, pipeQueue := 2, hasPipeId := true, hasPipeQueue := true }) := by
    decide
  have hloop : addEntryParams.loop "pipe_id=1,pipe_queue=2".toList {} =
      some (.ok (), { pipeId := 1, pipeQueue := 2, hasPipeId := true, hasPipeQueue := true }) := by
    rw [loop_eq, hfirst]
    simp only [if_true]
    rw [loop_eq, hsecond]
  unfold parseAddEntryParams Params.parse
  rw [hloop]
  rfl

/-- An entry is told the id that is there. -/
theorem entry_call (hs : s.globals = some g) :
    s.call allocates (.addEntry "pipe_id=1,pipe_queue=2".toList) =
      some (some (.addEntry 2 1 g.entryMatch g.actions none none (g.nextPipeIds .fwd))) := by
  simp only [Shell.call, hs, Option.bind_some, command, cmdAddEntryParsed, parse_entry,
    Option.map_some]
  rfl

/-- An input for the port leaves the next pipe. -/
theorem create_port (allocates : Nat → Bool) (d : Forward) (g : Globals) :
    ∃ g₁, cmdCreateStructParsed allocates (.forward d) "port_id=1".toList g = some g₁ ∧
      g₁.nextPipeIds d = g.nextPipeIds d := by
  have hcut : cutField "port_id=1".toList = .field "port_id".toList "1".toList [] := by decide
  obtain ⟨g₁, hedit, hid⟩ : ∃ g₁, (effect (String.ofList "port_id".toList) "1".toList).apply
      allocates d (g.setFwd d {}) = some (.ok (), g₁) ∧ g₁.nextPipeIds d = g.nextPipeIds d := by
    rw [String.ofList_toList]
    exact ⟨_, rfl, rfl⟩
  exact ⟨g₁, created_some (created_one hcut hedit), hid⟩

/-- An input for one queue. -/
theorem create_queue (d : Forward) (g : Globals) :
    ∃ calls g₁, created (fun _ => true) d "num_of_queues=1,rss_queues=0".toList g =
        ⟨calls, some g₁, .returned (.ok ())⟩ ∧
      ("rss_queues".toList, "0".toList) ∈ calls ∧ (g₁.fwdArg d).rssQueues = some (some [0]) := by
  have hnum : cutField "num_of_queues=1,rss_queues=0".toList =
      .field "num_of_queues".toList "1".toList (',' :: "rss_queues=0".toList) := by decide
  have hrss : cutField "rss_queues=0".toList =
      .field "rss_queues".toList "0".toList [] := by decide
  have hparsed : Common.FwdFields.parseRssQueues (fun _ => true) "0".toList
      (1 : BitVec 32).toInt = some (.ok [0]) := by decide
  obtain ⟨g₁, hedit, hone⟩ : ∃ g₁, (effect (String.ofList "num_of_queues".toList) "1".toList).apply
      (fun _ => true) d (g.setFwd d {}) = some (.ok (), g₁) ∧ (g₁.fwds d).numOfQueues = 1 := by
    rw [String.ofList_toList]
    refine ⟨_, rfl, ?_⟩
    rw [setFwd_fwds]
    exact (by decide : BitVec.ofInt 32 (strtol "1".toList 0).1 = 1)
  obtain ⟨g₂, hqueues, harg⟩ : ∃ g₂, (effect (String.ofList "rss_queues".toList) "0".toList).apply
      (fun _ => true) d g₁ = some (.ok (), g₂) ∧ (g₂.fwdArg d).rssQueues = some (some [0]) := by
    rw [String.ofList_toList]
    refine ⟨(withQueues g₁ [0]).setFwd d ((plain (g₁.fwds d)).with (some g₁.blocks.length)), ?_, ?_⟩
    · have heffect : effect "rss_queues" "0".toList = .queues "0".toList := rfl
      rw [heffect, Effect.apply, hone, hparsed]
      rfl
    · simp only [Globals.fwdArg, setFwd_fwds]
      exact queuesAt_allocated g₁ [0]
  exact ⟨_, g₂, created_two hnum hrss hedit hqueues, by simp, harg⟩

/-- The next pipe of an earlier structure is passed on with a later one, and the structure for
missed packets frees the queues of the other. -/
theorem earlier_shows :
    (¬ ∀ h h' c, Defined (fun _ => true) h → Defined (fun _ => true) h' →
      (∀ x, Uses c x → (Shell.after (fun _ => true) h).latest x =
        (Shell.after (fun _ => true) h').latest x) →
      (Shell.after (fun _ => true) h).call (fun _ => true) c =
        (Shell.after (fun _ => true) h').call (fun _ => true) c) ∧
    ¬ ∀ h input g g₁, (Shell.after (fun _ => true) h).globals = some g →
      cmdCreateStructParsed (fun _ => true) (.forward .fwdMiss) input g = some g₁ →
      Agree (.forward .fwd) g₁ g := by
  constructor
  · intro hclaim
    have hnext : cutField "next_pipe_id=5".toList =
        .field "next_pipe_id".toList "5".toList [] := by decide
    obtain ⟨g₁, hone, hid⟩ := create_port (fun _ => true) .fwd {}
    obtain ⟨g₂, htwo, hid'⟩ := create_port (fun _ => true) .fwd
      ((Globals.setFwd {} .fwd {}).setNextPipeId .fwd 5)
    have hfirst : (Shell.step (fun _ => true) {} _).globals = some _ :=
      globals_create rfl (created_some (created_next hnext .fwd {}))
    have hsecond := globals_create hfirst htwo
    have hport := globals_create (s := {}) rfl hone
    have hcall := hclaim [_, _] [_] (.addEntry "pipe_id=1,pipe_queue=2".toList)
      ⟨Option.isSome_of_eq_some hfirst, Option.isSome_of_eq_some hsecond, trivial⟩
      ⟨Option.isSome_of_eq_some hport, trivial⟩ fun x _ => congrFun (Function.update_idem ..) x
    have hids := (entry_call hsecond).symm.trans (hcall.trans (entry_call hport))
    simp only [Option.some.injEq, Call.addEntry.injEq] at hids
    have hfive : (5 : BitVec 64) = 0 := hid'.symm.trans (hids.2.2.2.2.2.2.trans hid)
    exact absurd hfive (by decide)
  · intro hclaim
    obtain ⟨calls, g, hfwd, -, hqueue⟩ := create_queue .fwd {}
    obtain ⟨_, g₁, hmiss, -, -⟩ := create_queue .fwdMiss g
    obtain ⟨_, _, hempty, hmem, -⟩ := create_queue .fwdMiss {}
    have hfirst : (Shell.step (fun _ => true) {} _).globals = some g :=
      globals_create rfl (created_some hfwd)
    have hcreate := created_some hmiss
    have hagree := hclaim [_] _ g g₁ hfirst hcreate
    have hi : Inv g := createForward_inv (g := {}) ⟨by simp, by simp⟩ (created_some hfwd)
    have hgone := (createForward_other_iff hi (by simp) hcreate).mp hagree.1
      ⟨"0".toList, by rw [hempty]; exact hmem⟩
    rw [hqueue] at hgone
    simp at hgone

end Histories

end DocaApps.Proofs.ShellHistory
