import DocaApps.Switch.Core
import DocaApps.Proofs.FlowPipesManager

namespace DocaApps.Proofs.SwitchInStep
open Lib.FiniteTable Lib.Runs Common.FlowPipesManager Switch.Core
open Proofs.FlowPipesManager hiding step

/-- The live pipes and entries are exactly the registered ones. -/
structure InStep (s : Switch) : Prop where
  pipes : ∀ h, h ∈ s.hardware.pipes ↔ ∃ id, pipesManagerGetPipe s.manager id = .ok h
  entries : ∀ e, e ∈ s.hardware.entries ↔ ∃ id, pipesManagerGetEntry s.manager id = .ok e

/-- The hardware has the pipes and entries of the tables, each under one id, and all
pipes are on the switch port. -/
structure Mirror (t : Tables) (hw : Hardware) : Prop where
  port_zero : ∀ {a r}, t.port a = some r → a = switchModePortId
  pipes : ∀ {h}, h ∈ hw.pipes ↔ ∃ p r, t.pipe p = some (h, r)
  pipe_inj : ∀ {p q h r r'}, t.pipe p = some (h, r) → t.pipe q = some (h, r') → p = q
  entries : ∀ {e h}, hw.entries.lookup e = some h ↔
    ∃ p i r, t.pipe p = some (h, r) ∧ t.entry p i = some e
  entry_inj : ∀ {p q i j e}, t.entry p i = some e → t.entry q j = some e → p = q ∧ i = j

variable {t : Tables} {hw : Hardware} {p id : UInt64} {h e : Handle} {ref : TableRef}
  {ks : List UInt64}

theorem Mirror.congr {hw' : Hardware} (hm : Mirror t hw)
    (hpipes : ∀ h, h ∈ hw'.pipes ↔ h ∈ hw.pipes)
    (hentries : ∀ e, hw'.entries.lookup e = hw.entries.lookup e) : Mirror t hw' := by
  refine ⟨hm.port_zero, ?_, hm.pipe_inj, ?_, hm.entry_inj⟩
  · intro h
    rw [hpipes h]
    exact hm.pipes
  · intro e h
    rw [hentries e]
    exact hm.entries

theorem lookup_destroyPipe (hw : Hardware) (h e : Handle) :
    (hw.destroyPipe h true).entries.lookup e = (hw.entries.lookup e).filter fun x => x ≠ h := by
  show (eraseAll hw.entries (hw.entriesOf h)).lookup e = _
  rw [lookup_eraseAll]
  have hmem : e ∈ hw.entriesOf h ↔ hw.entries.lookup e = some h := by
    simp only [Hardware.entriesOf, List.mem_filter, decide_eq_true_eq, and_iff_right_iff_imp]
    exact fun hlook => mem_of_lookup hlook
  split
  · next hin => simp [hmem.mp hin, Option.filter]
  · next hout =>
    cases hlook : hw.entries.lookup e with
    | none => rfl
    | some x =>
      have hne : x ≠ h := by
        rintro rfl
        exact hout (hmem.mpr hlook)
      simp [Option.filter, hne]

/-- Every entry is in a live pipe. -/
theorem Mirror.entry_pipe_live (hm : Mirror t hw) (he : hw.entries.lookup e = some h) :
    h ∈ hw.pipes := by
  obtain ⟨p, i, r, hp, -⟩ := hm.entries.mp he
  exact hm.pipes.mpr ⟨p, r, hp⟩

/-- Destroying the pipe just made leaves the hardware as it was. -/
theorem Mirror.create_undone (hm : Mirror t hw) (hnew : h ∉ hw.pipes) :
    Mirror t ((hw.addPipe h).destroyPipe h true) := by
  refine hm.congr ?_ ?_
  · intro h'
    show h' ∈ (hw.pipes.insert h ()).erase h ↔ _
    rw [mem_erase, mem_insert]
    constructor
    · rintro ⟨hne, heq | hin⟩
      · exact absurd heq hne
      · exact hin
    · intro hin
      exact ⟨fun heq => hnew (heq ▸ hin), Or.inr hin⟩
  · intro e
    rw [lookup_destroyPipe]
    show (hw.entries.lookup e).filter _ = _
    cases hlook : hw.entries.lookup e with
    | none => rfl
    | some x =>
      have hne : x ≠ h := by
        rintro rfl
        exact hnew (hm.entry_pipe_live hlook)
      simp [Option.filter, hne]

/-- Removing the entry just added leaves the hardware as it was. -/
theorem Mirror.add_undone (hm : Mirror t hw) (hnew : e ∉ hw.entries) :
    Mirror t ((hw.addEntry e h).rmEntry e true) := by
  refine hm.congr (fun _ => Iff.rfl) ?_
  intro e'
  show ((hw.entries.insert e h).erase e).lookup e' = _
  rw [lookup_erase, lookup_insert]
  split
  · next heq => rw [heq, AList.lookup_eq_none.mpr hnew]
  · rfl

theorem Mirror.addPipe (hl : Linked t) (hm : Mirror t hw) (hp : t.pipe p = none)
    (hnew : h ∉ hw.pipes) : Mirror (t.addPipe p h switchModePortId ref) (hw.addPipe h) := by
  have hfresh : ∀ q r, t.pipe q ≠ some (h, r) := fun q r hq => hnew (hm.pipes.mpr ⟨q, r, hq⟩)
  have hentry : ∀ {q i e}, t.entry q i = some e → q ≠ p := by
    rintro q i e he rfl
    obtain ⟨x, hx⟩ := hl.entry_pipe he
    exact absurd (hp.symm.trans hx) (by simp)
  refine ⟨?_, ?_, ?_, ?_, ?_⟩
  · intro a r
    simp only [Tables.addPipe]
    split
    · next ha => exact fun _ => ha
    · exact hm.port_zero
  · intro h'
    show h' ∈ hw.pipes.insert h () ↔ _
    rw [mem_insert, hm.pipes]
    simp only [Tables.addPipe]
    constructor
    · rintro (rfl | ⟨q, r, hq⟩)
      · exact ⟨p, ref, by simp⟩
      · refine ⟨q, r, ?_⟩
        have hqp : q ≠ p := by
          rintro rfl
          exact absurd (hp.symm.trans hq) (by simp)
        rw [if_neg hqp]
        exact hq
    · rintro ⟨q, r, hq⟩
      split at hq
      · cases hq
        exact Or.inl rfl
      · exact Or.inr ⟨q, r, hq⟩
  · intro q q' h' r r'
    simp only [Tables.addPipe]
    split
    · next hq =>
      intro heq
      cases heq
      split
      · next hq' => exact fun _ => hq.trans hq'.symm
      · exact fun hq' => absurd hq' (hfresh _ _)
    · intro heq
      split
      · intro heq'
        cases heq'
        exact absurd heq (hfresh _ _)
      · exact hm.pipe_inj heq
  · intro e h'
    refine Iff.trans hm.entries ?_
    simp only [Tables.addPipe]
    refine exists_congr fun q => exists_congr fun i => exists_congr fun r => ?_
    by_cases hqp : q = p
    · subst hqp
      simp [hp]
    · simp [hqp]
  · intro q q' i j e
    simp only [Tables.addPipe]
    split
    · intro heq
      cases heq
    · split
      · intro _ heq
        cases heq
      · exact hm.entry_inj

/-- An entry that is not live is in no table. -/
theorem Mirror.not_registered (hl : Linked t) (hm : Mirror t hw) (hnew : e ∉ hw.entries)
    (q i : UInt64) : t.entry q i ≠ some e := by
  intro he
  obtain ⟨⟨h, r⟩, hq⟩ := hl.entry_pipe he
  exact hnew (mem_of_lookup (hm.entries.mpr ⟨q, i, r, hq, he⟩))

theorem Mirror.addEntry (hl : Linked t) (hm : Mirror t hw) (hp : t.pipe p = some (h, ref))
    (hid : t.pipeOf id = none) (hnew : e ∉ hw.entries) :
    Mirror (t.addEntry p id e) (hw.addEntry e h) := by
  have hfresh := hm.not_registered hl hnew
  have hout : ∀ {q i e'}, t.entry q i = some e' → i ≠ id := by
    rintro q i e' he rfl
    exact absurd (hid.symm.trans (hl.pipeOf.mpr ⟨e', he⟩)) (by simp)
  refine ⟨hm.port_zero, hm.pipes, hm.pipe_inj, ?_, ?_⟩
  · intro e' h'
    show (hw.entries.insert e h).lookup e' = some h' ↔ _
    rw [lookup_insert]
    simp only [Tables.addEntry]
    split
    · next heq =>
      subst heq
      constructor
      · intro hh
        cases hh
        exact ⟨p, id, ref, hp, by simp⟩
      · rintro ⟨q, i, r, hq, he⟩
        split at he
        · next hc =>
          rw [hc.1, hp] at hq
          cases hq
          rfl
        · exact absurd he (hfresh q i)
    · next hne =>
      rw [hm.entries]
      refine exists_congr fun q => exists_congr fun i => exists_congr fun r => ?_
      refine and_congr_right fun _ => ?_
      split
      · next hc =>
        obtain ⟨rfl, rfl⟩ := hc
        constructor
        · intro he
          exact absurd rfl (hout he)
        · intro he
          exact absurd (Option.some.inj he).symm hne
      · rfl
  · intro q q' i j e'
    simp only [Tables.addEntry]
    split
    · next hc =>
      obtain ⟨rfl, rfl⟩ := hc
      intro heq
      cases heq
      split
      · next hc' => exact fun _ => ⟨hc'.1.symm, hc'.2.symm⟩
      · exact fun he => absurd he (hfresh _ _)
    · intro he
      split
      · intro heq
        cases heq
        exact absurd he (hfresh _ _)
      · exact hm.entry_inj he

theorem Mirror.rmEntry (hm : Mirror t hw) (he : t.entry p id = some e) :
    Mirror (t.rmEntry p id) (hw.rmEntry e true) := by
  refine ⟨hm.port_zero, hm.pipes, hm.pipe_inj, ?_, ?_⟩
  · intro e' h'
    show (hw.entries.erase e).lookup e' = some h' ↔ _
    rw [lookup_erase]
    simp only [Tables.rmEntry]
    split
    · next heq =>
      subst heq
      simp only [reduceCtorEq, false_iff, not_exists, not_and]
      intro q i r _
      split
      · simp
      · next hc => exact fun he' => hc (hm.entry_inj he' he)
    · next hne =>
      rw [hm.entries]
      refine exists_congr fun q => exists_congr fun i => exists_congr fun r => ?_
      refine and_congr_right fun _ => ?_
      split
      · next hc =>
        obtain ⟨rfl, rfl⟩ := hc
        simp only [he, Option.some.injEq, reduceCtorEq, iff_false]
        exact fun heq => hne heq.symm
      · rfl
  · intro q q' i j e'
    simp only [Tables.rmEntry]
    split
    · intro heq
      cases heq
    · split
      · intro _ heq
        cases heq
      · exact hm.entry_inj

theorem Mirror.destroy (hm : Mirror t hw) (hp : t.pipe p = some (h, ref)) :
    Mirror (t.without [p]) (hw.destroyPipe h true) := by
  refine ⟨hm.port_zero, ?_, ?_, ?_, ?_⟩
  · intro h'
    show h' ∈ hw.pipes.erase h ↔ _
    rw [mem_erase, hm.pipes]
    simp only [Tables.without, List.mem_singleton]
    constructor
    · rintro ⟨hne, q, r, hq⟩
      refine ⟨q, r, ?_⟩
      have hqp : q ≠ p := by
        rintro rfl
        cases hp.symm.trans hq
        exact hne rfl
      rw [if_neg hqp]
      exact hq
    · rintro ⟨q, r, hq⟩
      split at hq
      · cases hq
      · next hqp =>
        refine ⟨?_, q, r, hq⟩
        rintro rfl
        exact hqp (hm.pipe_inj hq hp)
  · intro q q' h' r r'
    simp only [Tables.without]
    split
    · intro heq
      cases heq
    · split
      · intro _ heq
        cases heq
      · exact hm.pipe_inj
  · intro e' h'
    rw [lookup_destroyPipe, Option.filter_eq_some_iff, hm.entries]
    simp only [Tables.without, List.mem_singleton, decide_eq_true_eq]
    constructor
    · rintro ⟨⟨q, i, r, hq, he⟩, hne⟩
      have hqp : q ≠ p := by
        rintro rfl
        cases hp.symm.trans hq
        exact hne rfl
      refine ⟨q, i, r, ?_, ?_⟩
      · rw [if_neg hqp]
        exact hq
      · rw [if_neg hqp]
        exact he
    · rintro ⟨q, i, r, hq, he⟩
      split at hq
      · cases hq
      · next hqp =>
        rw [if_neg hqp] at he
        refine ⟨⟨q, i, r, hq, he⟩, ?_⟩
        rintro rfl
        exact hqp (hm.pipe_inj hq hp)
  · intro q q' i j e'
    simp only [Tables.without]
    split
    · intro heq
      cases heq
    · split
      · intro _ heq
        cases heq
      · exact hm.entry_inj

/-- All pipes are on the switch port, so flushing it leaves nothing. -/
theorem Mirror.flush (hl : Linked t) (hm : Mirror t hw)
    (hks : ∀ q, q ∈ ks ↔ t.listed switchModePortId q) :
    Mirror (t.flush switchModePortId ks) (hw.flush true) := by
  have hgone : ∀ {q x}, (t.flush switchModePortId ks).pipe q ≠ some x := by
    intro q x hq
    simp only [Tables.flush, Tables.without] at hq
    split at hq
    · cases hq
    · next hout =>
      obtain ⟨a, ha⟩ := hl.pipe_port (show t.pipe q = some (x.1, x.2) from hq)
      obtain rfl := hm.port_zero ha
      exact hout ((hks q).mpr (hl.listed.mpr ⟨_, _, hq, ha⟩))
  have hnone : ∀ {q i e'}, (t.flush switchModePortId ks).entry q i ≠ some e' := by
    intro q i e' he
    obtain ⟨x, hx⟩ := (hl.flush hks).entry_pipe he
    exact hgone hx
  refine ⟨?_, ?_, ?_, ?_, ?_⟩
  · intro a r
    simp only [Tables.flush]
    split
    · intro heq
      cases heq
    · exact hm.port_zero
  · intro h'
    simp [Hardware.flush, hgone]
  · intro q q' h' r r' hq
    exact absurd hq hgone
  · intro e' h'
    simp [Hardware.flush, hgone]
  · intro q q' i j e' he
    exact absurd he hnone

/-- What holds in every state of a run. -/
structure Kept (s : Switch) : Prop where
  linked : Linked (tables s.manager)
  refs : RefsBelow s.manager
  mirror : Mirror (tables s.manager) s.hardware

variable {s : Switch}

theorem getPipe_ok {m : Manager} :
    pipesManagerGetPipe m p = .ok h ↔ ∃ r, (tables m).pipe p = some (h, r) := by
  unfold pipesManagerGetPipe
  cases hinfo : m.pipeIdToPipeInfo.lookup p with
  | none => simp [tables, hinfo]
  | some info => simp [tables, hinfo]

theorem getEntry_ok {m : Manager} (hl : Linked (tables m)) :
    pipesManagerGetEntry m id = .ok e ↔ ∃ p, (tables m).entry p id = some e := by
  unfold pipesManagerGetEntry
  cases hof : m.entryIdToPipeId.lookup id with
  | none =>
    simp only [reduceCtorEq, false_iff, not_exists]
    intro p he
    have hsome := hl.pipeOf.mpr ⟨e, he⟩
    exact absurd (hof.symm.trans hsome) (by simp)
  | some q =>
    obtain ⟨e', he'⟩ := hl.pipeOf.mp hof
    obtain ⟨info, hinfo, hlook⟩ := Option.bind_eq_some_iff.mp he'
    simp only [hinfo, hlook, Except.ok.injEq]
    constructor
    · rintro rfl
      exact ⟨q, he'⟩
    · rintro ⟨p, he⟩
      have hsame := hof.symm.trans (hl.pipeOf.mpr ⟨e, he⟩)
      obtain rfl := Option.some.inj hsame
      exact Option.some.inj (he'.symm.trans he)

theorem Kept.inStep (hs : Kept s) : InStep s := by
  refine ⟨?_, ?_⟩
  · intro h
    rw [hs.mirror.pipes]
    exact exists_congr fun p => getPipe_ok.symm
  · intro e
    rw [mem_iff_lookup]
    simp only [hs.mirror.entries, getEntry_ok hs.linked]
    constructor
    · rintro ⟨h, p, i, r, -, he⟩
      exact ⟨i, p, he⟩
    · rintro ⟨i, p, he⟩
      obtain ⟨⟨h, r⟩, hp⟩ := hs.linked.entry_pipe he
      exact ⟨h, p, i, r, hp, he⟩

/-- DOCA Flow hands out handles that are not live. -/
def NewHandles (s : Switch) : Command → Prop
  | .pipeCreate _ _ hwPipe _ _ => ∀ h, hwPipe = some h → h ∉ s.hardware.pipes
  | .pipeAddEntry _ _ hwEntry _ _ _ => ∀ e, hwEntry = some e → e ∉ s.hardware.entries
  | .pipeControlAddEntry _ _ hwEntry _ _ => ∀ e, hwEntry = some e → e ∉ s.hardware.entries
  | _ => True

/-- An entry that the hardware accepts is then processed without a failure and has an
id that is not registered, and what is to be removed from the hardware is removed. -/
def Clean (s : Switch) : Command → Prop
  | .pipeCreate _ _ _ _ destroyed => destroyed = true
  | .pipeAddEntry _ _ hwEntry processing _ removed => ∀ e, hwEntry = some e →
      processed processing = true ∧ generateID e ∉ s.manager.entryIdToPipeId ∧ removed = true
  | .pipeControlAddEntry _ _ hwEntry _ removed => ∀ e, hwEntry = some e →
      generateID e ∉ s.manager.entryIdToPipeId ∧ removed = true
  | .pipeDestroy _ destroyed => destroyed = true
  | .pipeRmEntry _ removed => removed = true
  | .portPipesFlush _ flushed => flushed = true

theorem pipeCreate_kept (hs : Kept s) {fwd fwdMiss : Fwd} {hwPipe : Option Handle}
    {steps : CreateSteps} (hnew : ∀ h, hwPipe = some h → h ∉ s.hardware.pipes) :
    Kept (pipeCreate s fwd fwdMiss hwPipe steps true) := by
  unfold pipeCreate
  split
  · exact hs
  split
  · exact hs
  split
  · exact hs
  next pipe =>
  dsimp only
  cases hres : pipesManagerPipeCreate s.manager pipe switchModePortId steps with
  | mk res m =>
    cases res with
    | error err =>
      obtain ⟨htab, hrefs⟩ := pipeCreate_error hs.linked hs.refs (congrArg Prod.fst hres)
      rw [hres] at htab hrefs
      refine ⟨?_, hrefs, ?_⟩
      · rw [htab]
        exact hs.linked
      · rw [htab]
        exact hs.mirror.create_undone (hnew pipe rfl)
    | ok id =>
      obtain ⟨rfl, hp, hrefs, ref, href, htab⟩ :=
        pipeCreate_ok hs.linked hs.refs (congrArg Prod.fst hres)
      rw [hres] at htab hrefs
      refine ⟨?_, hrefs, ?_⟩
      · rw [htab]
        exact hs.linked.addPipe hp href
      · rw [htab]
        exact hs.mirror.addPipe hs.linked hp (hnew pipe rfl)

/-- The step both commands that add an entry end with. -/
theorem registerEntry_kept (hs : Kept s) {steps : AddSteps}
    (hp : (tables s.manager).pipe p = some (h, ref)) (hnew : e ∉ s.hardware.entries)
    (hid : generateID e ∉ s.manager.entryIdToPipeId) :
    Kept (registerEntry s (s.hardware.addEntry e h) e p steps true) := by
  unfold registerEntry
  have hnone : (tables s.manager).pipeOf (generateID e) = none := AList.lookup_eq_none.mpr hid
  cases hres : pipesManagerPipeAddEntry s.manager e p steps with
  | mk res m =>
    cases res with
    | error err =>
      have hentry : (tables s.manager).entry p (generateID e) = none := by
        cases he : (tables s.manager).entry p (generateID e) with
        | none => rfl
        | some e' =>
          have hsome := hs.linked.pipeOf.mpr ⟨e', he⟩
          exact absurd (hnone.symm.trans hsome) (by simp)
      obtain ⟨htab, hnext⟩ := pipeAddEntry_error hentry (congrArg Prod.fst hres)
      rw [hres] at htab hnext
      refine ⟨?_, hs.refs.of_port hnext (by simp [htab]), ?_⟩
      · rw [htab]
        exact hs.linked
      · rw [htab]
        exact hs.mirror.add_undone hnew
    | ok id =>
      obtain ⟨rfl, hpipe, htab, hnext⟩ := pipeAddEntry_ok (congrArg Prod.fst hres)
      rw [hres] at htab hnext
      refine ⟨?_, hs.refs.of_port hnext (by simp [htab, Tables.addEntry]), ?_⟩
      · rw [htab]
        exact hs.linked.addEntry hpipe hnone
      · rw [htab]
        exact hs.mirror.addEntry hs.linked hp hnone hnew

theorem pipeDestroy_kept (hs : Kept s) (p : UInt64) : Kept (pipeDestroy s p true) := by
  unfold pipeDestroy
  split
  · exact hs
  next pipe hget =>
  obtain ⟨ref, hp⟩ := getPipe_ok.mp hget
  rcases pipeDestroy_cases hs.linked p with ⟨hnone, -⟩ | ⟨-, hok, htab, hnext⟩
  · exact absurd (hnone.symm.trans hp) (by simp)
  cases hres : pipesManagerPipeDestroy s.manager p with
  | mk res m =>
    rw [hres] at hok htab hnext
    subst hok
    refine ⟨?_, hs.refs.of_port hnext (by simp [htab, Tables.without]), ?_⟩
    · rw [htab]
      exact hs.linked.without [p]
    · rw [htab]
      exact hs.mirror.destroy hp

theorem pipeRmEntry_kept (hs : Kept s) (id : UInt64) : Kept (pipeRmEntry s id true) := by
  unfold pipeRmEntry
  split
  · exact hs
  next entry hget =>
  obtain ⟨q, he⟩ := (getEntry_ok hs.linked).mp hget
  have hof := hs.linked.pipeOf.mpr ⟨entry, he⟩
  rcases pipeRmEntry_cases hs.linked id with ⟨hnone, -⟩ | ⟨p, hid, hok, htab, hnext⟩
  · exact absurd (hnone.symm.trans hof) (by simp)
  obtain rfl := Option.some.inj (hid.symm.trans hof)
  cases hres : pipesManagerPipeRmEntry s.manager id with
  | mk res m =>
    rw [hres] at hok htab hnext
    subst hok
    refine ⟨?_, hs.refs.of_port hnext (by simp [htab, Tables.rmEntry]), ?_⟩
    · rw [htab]
      exact hs.linked.rmEntry hid
    · rw [htab]
      exact hs.mirror.rmEntry he

theorem portPipesFlush_kept (hs : Kept s) (port : UInt16) : Kept (portPipesFlush s port true) := by
  unfold portPipesFlush
  split
  · exact hs
  rcases pipesFlush_cases hs.linked switchModePortId with
    ⟨-, hres⟩ | ⟨ks, -, hks, hok, htab, hnext⟩
  · rw [hres]
    exact hs
  cases hres : pipesManagerPipesFlush s.manager switchModePortId with
  | mk res m =>
    rw [hres] at hok htab hnext
    subst hok
    refine ⟨?_, hs.refs.of_port hnext (fun a r ha => ?_), ?_⟩
    · rw [htab]
      exact hs.linked.flush hks
    · rw [htab] at ha
      simp only [Tables.flush] at ha
      split at ha
      · cases ha
      · exact ha
    · rw [htab]
      exact hs.mirror.flush hs.linked hks

theorem step_kept {c : Command} (hs : Kept s) (hc : NewHandles s c ∧ Clean s c) :
    Kept (step s c) := by
  obtain ⟨hnew, hclean⟩ := hc
  cases c with
  | pipeCreate fwd fwdMiss hwPipe steps destroyed =>
    obtain rfl : destroyed = true := hclean
    exact pipeCreate_kept hs hnew
  | pipeAddEntry p fwd hwEntry processing steps removed =>
    show Kept (pipeAddEntry s p fwd hwEntry processing steps removed)
    unfold pipeAddEntry
    split
    · exact hs
    split
    · exact hs
    next pipe hget =>
    split
    · exact hs
    next entry =>
    obtain ⟨hproc, hid, rfl⟩ := hclean entry rfl
    obtain ⟨ref, hp⟩ := getPipe_ok.mp hget
    simp only [hproc, Bool.not_true, Bool.false_eq_true, if_false]
    exact registerEntry_kept hs hp (hnew entry rfl) hid
  | pipeControlAddEntry p fwd hwEntry steps removed =>
    show Kept (pipeControlAddEntry s p fwd hwEntry steps removed)
    unfold pipeControlAddEntry
    split
    · exact hs
    split
    · exact hs
    next pipe hget =>
    split
    · exact hs
    next entry =>
    obtain ⟨hid, rfl⟩ := hclean entry rfl
    obtain ⟨ref, hp⟩ := getPipe_ok.mp hget
    exact registerEntry_kept hs hp (hnew entry rfl) hid
  | pipeDestroy p destroyed =>
    obtain rfl : destroyed = true := hclean
    exact pipeDestroy_kept hs p
  | pipeRmEntry id removed =>
    obtain rfl : removed = true := hclean
    exact pipeRmEntry_kept hs id
  | portPipesFlush port flushed =>
    obtain rfl : flushed = true := hclean
    exact portPipesFlush_kept hs port

theorem switchInit_kept : Kept switchInit := by
  have hstart := start_sound
  refine ⟨hstart.linked, hstart.refs, ⟨?_, ?_, ?_, ?_, ?_⟩⟩ <;>
    simp [switchInit, createPipesManager, tables]

/-- In every run whose accepted entries are processed and get ids of their own, and
whose removals succeed, hardware and manager are in step in every state reached. -/
theorem in_step_when_clean (cmds : List Command)
    (hcmds : Along step (fun s c => NewHandles s c ∧ Clean s c) switchInit cmds) :
    InStep (run step switchInit cmds) := by
  have hkept : Kept (run step switchInit cmds) :=
    run_invariant (fun _ _ hs hc => step_kept hs hc) switchInit_kept hcmds
  exact hkept.inStep

def entryProcessed : Processing := some [⟨.add, .success⟩]

def createAndAdd (processing : Processing) : List Command :=
  [.pipeCreate none none (some firstPipe) created true,
    .pipeAddEntry (generateID firstPipe) none (some someEntry) processing added true]

theorem createAndAdd_new (processing : Processing) :
    Along step NewHandles switchInit (createAndAdd processing) := by
  refine ⟨?_, ?_, trivial⟩
  · intro h _
    exact AList.notMem_empty h
  · intro e _
    exact AList.notMem_empty e

theorem in_step_created_and_added :
    Along step (fun s c => NewHandles s c ∧ Clean s c) switchInit
        (createAndAdd entryProcessed) ∧
      InStep (run step switchInit (createAndAdd entryProcessed)) := by
  have hclean : Along step (fun s c => NewHandles s c ∧ Clean s c) switchInit
      (createAndAdd entryProcessed) := by
    obtain ⟨h1, h2, -⟩ := createAndAdd_new entryProcessed
    refine ⟨⟨h1, rfl⟩, ⟨h2, ?_⟩, trivial⟩
    rintro e ⟨⟩
    decide +kernel
  exact ⟨hclean, in_step_when_clean _ hclean⟩

/-- An entry whose processing fails stays in the hardware and is not registered. -/
theorem failed_entry_stays_live :
    Along step NewHandles switchInit (createAndAdd none) ∧
      ¬ InStep (run step switchInit (createAndAdd none)) := by
  refine ⟨createAndAdd_new none, ?_⟩
  intro hin
  have hlive : someEntry ∈ (run step switchInit (createAndAdd none)).hardware.entries := by
    decide +kernel
  obtain ⟨id, hid⟩ := (hin.entries someEntry).mp hlive
  have hempty : (run step switchInit (createAndAdd none)).manager.entryIdToPipeId = ∅ := rfl
  rw [pipesManagerGetEntry, hempty, AList.lookup_empty] at hid
  cases hid

end DocaApps.Proofs.SwitchInStep
