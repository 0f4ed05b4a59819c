import DocaApps.Grpc.Orchestrator
import DocaApps.Lib.Runs

namespace DocaApps.Proofs.Orchestrator
open DocaApps.Lib.Runs Grpc.Orchestrator

variable {W : Type}

def uidOf (s : Instance W) (proc : Nat) : Option String := s.procs[proc]?.map Process.uid

def taken (s : Instance W) : List Nat := s.takes.map fun t => t.client.proc

/-- The process table is right: one process at most runs for a uid; an answered Create stored the
process it spawned, and the entry stays until it is popped; a failed Create leaves no process
running that is not in the table; and every Destroy that found an entry took it, each entry being
taken once. -/
structure Right (s : Instance W) : Prop where
  single : ∀ p q, s.running p → s.running q → uidOf s p = uidOf s q → p = q
  created : ∀ status proc, .created status proc ∈ s.answers → status.errStatus.isError = false →
    ∃ p ∈ s.registered, proc = some p ∧ uidOf s p = some status.uid
  kept : ∀ p ∈ s.registered, p ∉ taken s →
    ∃ uid, uidOf s p = some uid ∧ s.clientsDb uid = some ⟨uid, p⟩
  failed : ∀ status p, .created status (some p) ∈ s.answers → status.errStatus.isError = true →
    s.running p → s.clientsDb status.uid = some ⟨status.uid, p⟩
  takes : ∀ t ∈ s.takes, t.client = t.entry ∧ t.entry.stub = t.uid ∧ t.entry.proc ∈ s.registered
  once : (taken s).Nodup
  destroyed : ∀ status p, .destroyed status (some p) ∈ s.answers → p ∈ taken s
  noKeyError : ∀ uid, .keyError uid ∉ s.answers

/-- The uid of a Create that is past its check and neither stored its process nor gave up. -/
def creating : Task → Option String
  | .createSpawn uid _ | .createHealth uid _ _ | .createStore uid _ | .createPoll uid _ _ => some uid
  | _ => none

/-- The uid of a Destroy that is past its check and did not pop the entry yet. -/
def destroying : Task → Option String
  | .destroyRead uid | .destroyPop uid _ => some uid
  | _ => none

/-- What the next step of a task has to find for the requests of one uid to keep apart. -/
def TaskApart (s : Instance W) : Task → Prop
  | .createCheck uid _ => s.clientsDb uid = none →
      (∀ p, s.running p → uidOf s p ≠ some uid) ∧ ∀ v, creating (s.worker v) ≠ some uid
  | .destroyCheck uid => s.clientsDb uid ≠ none → ∀ v, destroying (s.worker v) ≠ some uid
  | .createPoll _ proc attempt => attempt + 1 = lifetimeCheckNumRetries → ¬ s.running proc
  | _ => True

/-- The requests for one uid keep apart: a Create passes its check while no process of the uid runs
and no other Create is past its own, a Destroy while no other Destroy is, and a Create gives up on
a process that runs no more. -/
def Apart (s : Instance W) : Event W → Prop
  | .act w _ => TaskApart s (s.worker w)
  | _ => True

theorem running_lt {s : Instance W} {p : Nat} (h : s.running p) : p < s.procs.length := by
  rw [Instance.running, Option.map_eq_some_iff] at h
  obtain ⟨proc, hget, -⟩ := h
  exact (List.getElem?_eq_some_iff.mp hget).1

instance (s : Instance W) (uid : String) :
    Decidable (∀ p, s.running p → uidOf s p ≠ some uid) :=
  decidable_of_iff (∀ p < s.procs.length, s.running p → uidOf s p ≠ some uid)
    ⟨fun h p hp => h p (running_lt hp) hp, fun h p _ => h p⟩

instance [Fintype W] (s : Instance W) : (task : Task) → Decidable (TaskApart s task)
  | .createCheck _ _ | .destroyCheck _ | .createPoll _ _ _ =>
    inferInstanceAs (Decidable (_ → _))
  | .idle | .createSpawn _ _ | .createHealth _ _ _ | .createStore _ _ | .destroyRead _
  | .destroyPop _ _ | .destroyCall _ _ | .destroyWait _ _ _ _ | .destroyPoll _ _ _ =>
    inferInstanceAs (Decidable True)

instance [Fintype W] (s : Instance W) : (e : Event W) → Decidable (Apart s e)
  | .act w _ => inferInstanceAs (Decidable (TaskApart s (s.worker w)))
  | .take _ _ | .exit _ => inferInstanceAs (Decidable True)

/-- The process that a Create past its spawn brought up. -/
def ownProc : Task → Option (String × Nat)
  | .createHealth uid p _ | .createStore uid p | .createPoll uid p _ => some (uid, p)
  | _ => none

/-- The process of a Destroy past its pop. -/
def endingProc : Task → Option Nat
  | .destroyCall _ client => some client.proc
  | .destroyWait _ p _ _ | .destroyPoll _ p _ => some p
  | _ => none

/-- What the task of one worker knows of the table and the processes. -/
structure TaskOk (s : Instance W) (task : Task) : Prop where
  absent : ∀ uid, creating task = some uid → s.clientsDb uid = none
  unspawned : ∀ uid args, task = .createSpawn uid args → ∀ p, s.running p → uidOf s p ≠ some uid
  own : ∀ uid p, ownProc task = some (uid, p) → uidOf s p = some uid ∧ p ∉ s.registered
  present : ∀ uid, destroying task = some uid → s.clientsDb uid ≠ none
  read : ∀ uid client, task = .destroyPop uid client → s.clientsDb uid = some client
  ending : ∀ p, endingProc task = some p → p ∈ taken s
  attempt : ∀ uid p n, task = .createPoll uid p n ∨ task = .createHealth uid p n →
    n < lifetimeCheckNumRetries

/-- What an answer says of the table and the processes when it is given. -/
def AnswerOk (s : Instance W) : Answer → Prop
  | .created status proc =>
    (status.errStatus.isError = false →
      ∃ p ∈ s.registered, proc = some p ∧ uidOf s p = some status.uid) ∧
    (status.errStatus.isError = true → ∀ p, proc = some p → (uidOf s p).isSome ∧ ¬ s.running p)
  | .destroyed _ proc => ∀ p, proc = some p → p ∈ taken s
  | .spawnError _ => True
  | .keyError _ => False

/-- The table, the processes and what was noted down. -/
structure Table (s : Instance W) : Prop where
  single : ∀ p q, s.running p → s.running q → uidOf s p = uidOf s q → p = q
  answers : ∀ answer ∈ s.answers, AnswerOk s answer
  kept : ∀ p ∈ s.registered, p ∉ taken s →
    ∃ uid, uidOf s p = some uid ∧ s.clientsDb uid = some ⟨uid, p⟩
  takes : ∀ t ∈ s.takes, t.client = t.entry ∧ t.entry.stub = t.uid ∧ t.entry.proc ∈ s.registered
  once : (taken s).Nodup
  known : ∀ p ∈ s.registered, ∃ uid, uidOf s p = some uid
  db : ∀ uid client, s.clientsDb uid = some client →
    client.stub = uid ∧ uidOf s client.proc = some uid ∧ client.proc ∈ s.registered ∧
      client.proc ∉ taken s

structure Invariant (s : Instance W) : Prop where
  table : Table s
  tasks : ∀ w, TaskOk s (s.worker w)
  oneCreates : ∀ w v uid, creating (s.worker w) = some uid → creating (s.worker v) = some uid → w = v
  oneDestroys : ∀ w v uid, destroying (s.worker w) = some uid → destroying (s.worker v) = some uid →
    w = v

section table

variable {s : Instance W} {uid : String} {args : List String} {p q : Nat} {client entry : Client}

theorem Table.right (h : Table s) : Right s where
  single := h.single
  created := fun _ _ hmem => (h.answers _ hmem).1
  kept := h.kept
  failed := fun _ p hmem herror hruns => absurd hruns ((h.answers _ hmem).2 herror p rfl).2
  takes := h.takes
  once := h.once
  destroyed := fun _ p hmem => h.answers _ hmem p rfl
  noKeyError := fun _ hmem => h.answers _ hmem

theorem Table.note {answer : Answer} (h : Table s) (hanswer : AnswerOk s answer) :
    Table { s with answers := s.answers ++ [answer] } := by
  refine ⟨h.single, fun a ha => ?_, h.kept, h.takes, h.once, h.known, h.db⟩
  have hold : AnswerOk s a := by
    rcases List.mem_append.mp ha with ha | ha
    · exact h.answers a ha
    · rw [List.mem_singleton.mp ha]
      exact hanswer
  cases a with
  | created status proc => exact hold
  | destroyed status proc => exact hold
  | spawnError uid => trivial
  | keyError uid => exact hold

theorem uidOf_spawn (h : uidOf s p = some uid) (uid' : String) :
    uidOf (s.spawn uid' args) p = some uid := by
  have hp : p < s.procs.length := by
    rw [uidOf, Option.map_eq_some_iff] at h
    obtain ⟨proc, hget, -⟩ := h
    exact (List.getElem?_eq_some_iff.mp hget).1
  rw [uidOf, Instance.spawn, List.getElem?_append_left hp]
  exact h

theorem uidOf_spawn_new : uidOf (s.spawn uid args) s.procs.length = some uid := by
  simp [uidOf, Instance.spawn]

theorem running_uidOf (h : s.running p) : ∃ uid, uidOf s p = some uid := by
  rw [Instance.running, Option.map_eq_some_iff] at h
  obtain ⟨proc, hget, -⟩ := h
  exact ⟨proc.uid, by rw [uidOf, hget]; rfl⟩

theorem uidOf_new : uidOf s s.procs.length = none := by
  simp [uidOf]

/-- After a spawn, the new process runs beside those that ran. -/
theorem running_spawn (h : (s.spawn uid args).running p) : s.running p ∨ p = s.procs.length := by
  rw [Instance.running, Instance.spawn] at h
  by_cases hp : p < s.procs.length
  · left
    rw [List.getElem?_append_left hp] at h
    exact h
  · right
    by_contra hne
    rw [List.getElem?_append_right (Nat.not_lt.mp hp), List.getElem?_eq_none] at h
    · cases h
    · rw [List.length_singleton]
      omega

/-- What was noted down stays, the processes keep their uid, and none of them runs again. -/
structure Extends (s s' : Instance W) : Prop where
  uid : ∀ p uid, uidOf s p = some uid → uidOf s' p = some uid
  runs : ∀ p, s'.running p → (uidOf s p).isSome → s.running p
  registered : s.registered ⊆ s'.registered
  taken : taken s ⊆ taken s'

variable {s' : Instance W} {task : Task} {answer : Answer}

theorem AnswerOk.extend (h : AnswerOk s answer) (hext : Extends s s') : AnswerOk s' answer := by
  cases answer with
  | created status proc =>
    refine ⟨fun hok => ?_, fun herror p hp => ?_⟩
    · obtain ⟨p, hmem, hproc, huid⟩ := h.1 hok
      exact ⟨p, hext.registered hmem, hproc, hext.uid p _ huid⟩
    · obtain ⟨hsome, hdead⟩ := h.2 herror p hp
      obtain ⟨uid, huid⟩ := Option.isSome_iff_exists.mp hsome
      refine ⟨?_, fun hruns => hdead (hext.runs p hruns hsome)⟩
      rw [hext.uid p uid huid]
      rfl
  | destroyed status proc => exact fun p hp => hext.taken (h p hp)
  | spawnError uid => trivial
  | keyError uid => exact h

/-- A task keeps what it knows when the table keeps the entries of its uid, no process of the uid
comes to run before its own spawn, and its own process is not stored. -/
theorem TaskOk.extend (h : TaskOk s task) (hext : Extends s s')
    (hdb : ∀ uid, creating task = some uid ∨ destroying task = some uid →
      s'.clientsDb uid = s.clientsDb uid)
    (hruns : ∀ p uid, s'.running p → creating task = some uid → uidOf s' p = some uid →
      s.running p)
    (hreg : ∀ p uid, ownProc task = some (uid, p) → p ∈ s'.registered → p ∈ s.registered) :
    TaskOk s' task where
  absent uid htask := (hdb uid (.inl htask)).trans (h.absent uid htask)
  unspawned uid args htask p hp huid := by
    have hold := hruns p uid hp (by rw [htask]; rfl) huid
    obtain ⟨uid', huid'⟩ := running_uidOf hold
    have hsame := (hext.uid p uid' huid').symm.trans huid
    exact h.unspawned uid args htask p hold (huid'.trans hsame)
  own uid p htask :=
    ⟨hext.uid p uid (h.own uid p htask).1,
      fun hmem => (h.own uid p htask).2 (hreg p uid htask hmem)⟩
  present uid htask := by
    rw [hdb uid (.inr htask)]
    exact h.present uid htask
  read uid client htask :=
    (hdb uid (.inr (by rw [htask]; rfl))).trans (h.read uid client htask)
  ending p htask := hext.taken (h.ending p htask)
  attempt := h.attempt

theorem spawn_extends : Extends s (s.spawn uid args) where
  uid _ _ h := uidOf_spawn h uid
  runs p h hsome := by
    rcases running_spawn h with h | h
    · exact h
    · rw [h, uidOf_new] at hsome
      cases hsome
  registered := List.Subset.refl _
  taken := List.Subset.refl _

theorem uidOf_exit : uidOf (exit q s) p = uidOf s p := by
  rw [uidOf, uidOf, exit, List.getElem?_modify]
  cases s.procs[p]? with
  | none => rfl
  | some proc => by_cases hq : q = p <;> simp [hq]

theorem running_exit (h : (exit q s).running p) : s.running p := by
  rw [Instance.running, exit, List.getElem?_modify] at h
  rw [Instance.running]
  cases hp : s.procs[p]? with
  | none =>
    rw [hp] at h
    exact h
  | some proc =>
    rw [hp] at h
    by_cases hq : q = p
    · simp [hq] at h
    · simpa [hq] using h

theorem exit_extends : Extends s (exit q s) where
  uid _ _ h := uidOf_exit.trans h
  runs _ h _ := running_exit h
  registered := List.Subset.refl _
  taken := List.Subset.refl _

theorem store_extends : Extends s (s.store uid p) where
  uid _ _ h := h
  runs _ h _ := h
  registered := List.subset_append_left _ _
  taken := List.Subset.refl _

theorem taken_pop : taken (s.pop uid client entry) = taken s ++ [client.proc] := by
  simp [taken, Instance.pop]

theorem pop_extends : Extends s (s.pop uid client entry) where
  uid _ _ h := h
  runs _ h _ := h
  registered := List.Subset.refl _
  taken := by
    rw [taken_pop]
    exact List.subset_append_left _ _

theorem store_same : (s.store uid p).clientsDb uid = some ⟨uid, p⟩ :=
  Function.update_self ..

theorem store_other {u : String} (hu : u ≠ uid) :
    (s.store uid p).clientsDb u = s.clientsDb u :=
  Function.update_of_ne hu ..

theorem pop_same : (s.pop uid client entry).clientsDb uid = none :=
  Function.update_self ..

theorem pop_other {u : String} (hu : u ≠ uid) :
    (s.pop uid client entry).clientsDb u = s.clientsDb u :=
  Function.update_of_ne hu ..

theorem Table.extend_answers (h : Table s) (hext : Extends s s') (hsame : s'.answers = s.answers) :
    ∀ answer ∈ s'.answers, AnswerOk s' answer := by
  rw [hsame]
  exact fun answer hmem => (h.answers answer hmem).extend hext

/-- A process is brought up while none of its uid runs. -/
theorem Table.spawn (h : Table s) (hnone : ∀ p, s.running p → uidOf s p ≠ some uid) :
    Table (s.spawn uid args) where
  single p q hp hq heq := by
    have hnew : ∀ p, s.running p → uidOf (s.spawn uid args) p ≠ some uid := by
      intro p hruns hsome
      obtain ⟨uid', huid'⟩ := running_uidOf hruns
      rw [uidOf_spawn huid', ← huid'] at hsome
      exact hnone p hruns hsome
    rcases running_spawn hp with hp | rfl <;> rcases running_spawn hq with hq | rfl
    · obtain ⟨u, hu⟩ := running_uidOf hp
      obtain ⟨v, hv⟩ := running_uidOf hq
      rw [uidOf_spawn hu, uidOf_spawn hv, ← hu, ← hv] at heq
      exact h.single p q hp hq heq
    · rw [uidOf_spawn_new] at heq
      exact absurd heq (hnew p hp)
    · rw [uidOf_spawn_new] at heq
      exact absurd heq.symm (hnew q hq)
    · rfl
  answers := h.extend_answers spawn_extends rfl
  kept p hreg htaken := by
    obtain ⟨u, hu, hdb⟩ := h.kept p hreg htaken
    exact ⟨u, uidOf_spawn hu uid, hdb⟩
  takes := h.takes
  once := h.once
  known p hreg := by
    obtain ⟨u, hu⟩ := h.known p hreg
    exact ⟨u, uidOf_spawn hu uid⟩
  db u client hget := by
    obtain ⟨hstub, huid, hrest⟩ := h.db u client hget
    exact ⟨hstub, uidOf_spawn huid uid, hrest⟩

theorem Table.exit (h : Table s) : Table (exit q s) where
  single p r hp hr heq := by
    rw [uidOf_exit, uidOf_exit] at heq
    exact h.single p r (running_exit hp) (running_exit hr) heq
  answers := h.extend_answers exit_extends rfl
  kept p hreg htaken := by
    obtain ⟨u, hu, hdb⟩ := h.kept p hreg htaken
    exact ⟨u, uidOf_exit.trans hu, hdb⟩
  takes := h.takes
  once := h.once
  known p hreg := by
    obtain ⟨u, hu⟩ := h.known p hreg
    exact ⟨u, uidOf_exit.trans hu⟩
  db u client hget := by
    obtain ⟨hstub, huid, hrest⟩ := h.db u client hget
    exact ⟨hstub, uidOf_exit.trans huid, hrest⟩

/-- A process is stored under a uid that has no entry. -/
theorem Table.store (h : Table s) (hnone : s.clientsDb uid = none) (huid : uidOf s p = some uid)
    (hfresh : p ∉ taken s) : Table (s.store uid p) where
  single := h.single
  answers := h.extend_answers store_extends rfl
  kept q hreg htaken := by
    rcases List.mem_append.mp hreg with hreg | hnew
    · obtain ⟨u, hu, hdb⟩ := h.kept q hreg htaken
      refine ⟨u, hu, ?_⟩
      have hne : u ≠ uid := by
        rintro rfl
        rw [hnone] at hdb
        cases hdb
      rw [store_other hne]
      exact hdb
    · rw [List.mem_singleton.mp hnew]
      exact ⟨uid, huid, store_same⟩
  takes t ht := by
    obtain ⟨heq, hstub, hreg⟩ := h.takes t ht
    exact ⟨heq, hstub, List.mem_append_left _ hreg⟩
  once := h.once
  known q hreg := by
    rcases List.mem_append.mp hreg with hreg | hnew
    · exact h.known q hreg
    · rw [List.mem_singleton.mp hnew]
      exact ⟨uid, huid⟩
  db u client hget := by
    by_cases hu : u = uid
    · subst hu
      rw [store_same] at hget
      cases hget
      exact ⟨rfl, huid, List.mem_append_right _ (List.mem_singleton_self p), hfresh⟩
    · rw [store_other hu] at hget
      obtain ⟨hstub, hold, hreg, hnot⟩ := h.db u client hget
      exact ⟨hstub, hold, List.mem_append_left _ hreg, hnot⟩

/-- The entry of a uid is popped by the Destroy that read it. -/
theorem Table.pop (h : Table s) (hget : s.clientsDb uid = some client) :
    Table (s.pop uid client client) where
  single := h.single
  answers := h.extend_answers pop_extends rfl
  kept q hreg htaken := by
    rw [taken_pop] at htaken
    obtain ⟨hbefore, hne⟩ := not_or.mp (List.mem_append.not.mp htaken)
    obtain ⟨u, hu, hdb⟩ := h.kept q hreg hbefore
    refine ⟨u, hu, ?_⟩
    have hother : u ≠ uid := by
      rintro rfl
      rw [hget] at hdb
      cases hdb
      exact hne (List.mem_singleton_self q)
    rw [pop_other hother]
    exact hdb
  takes t ht := by
    rcases List.mem_append.mp ht with ht | hnew
    · exact h.takes t ht
    · rw [List.mem_singleton.mp hnew]
      obtain ⟨hstub, -, hreg, -⟩ := h.db uid client hget
      exact ⟨rfl, hstub, hreg⟩
  once := by
    rw [taken_pop]
    obtain ⟨-, -, -, hnot⟩ := h.db uid client hget
    exact List.nodup_append.mpr ⟨h.once, List.nodup_singleton _, fun a ha b hb hab =>
      hnot (List.mem_singleton.mp hb ▸ hab ▸ ha)⟩
  known := h.known
  db u entry hentry := by
    by_cases hu : u = uid
    · subst hu
      rw [pop_same] at hentry
      cases hentry
    · rw [pop_other hu] at hentry
      obtain ⟨hstub, hold, hreg, hnot⟩ := h.db u entry hentry
      refine ⟨hstub, hold, hreg, ?_⟩
      rw [taken_pop]
      refine List.mem_append.not.mpr (not_or.mpr ⟨hnot, fun hmem => hu ?_⟩)
      obtain ⟨-, hclient, -, -⟩ := h.db uid client hget
      rw [List.mem_singleton.mp hmem, hclient] at hold
      exact (Option.some.inj hold).symm

theorem Table.taken_registered (h : Table s) (hp : p ∈ taken s) : p ∈ s.registered := by
  obtain ⟨t, ht, rfl⟩ := List.mem_map.mp hp
  obtain ⟨heq, -, hreg⟩ := h.takes t ht
  rw [heq]
  exact hreg

end table

section tasks

variable {s s' : Instance W} {task : Task} {w : W} {uid : String} {p n : Nat}

theorem creating_of_ownProc (h : ownProc task = some (uid, p)) : creating task = some uid := by
  cases task <;> simp [ownProc] at h <;> exact congrArg some h.1

/-- A task outside of the windows of its request knows the popped process only. -/
theorem TaskOk.free (hcreating : creating task = none) (hdestroying : destroying task = none)
    (hending : ∀ p, endingProc task = some p → p ∈ taken s) : TaskOk s task := by
  have hown : ∀ uid p, ownProc task ≠ some (uid, p) := by
    intro uid p
    cases task <;> simp [ownProc, creating] at hcreating ⊢
  refine ⟨fun uid h => ?_, fun uid args h => ?_, fun uid p h => absurd h (hown uid p),
    fun uid h => ?_, fun uid client h => ?_, hending, fun uid p n h => ?_⟩
  · rw [hcreating] at h
    cases h
  · rw [h] at hcreating
    cases hcreating
  · rw [hdestroying] at h
    cases h
  · rw [h] at hdestroying
    cases hdestroying
  · rcases h with h | h <;> (rw [h] at hcreating; cases hcreating)

/-- A Create past its spawn knows that its uid has no entry and that its process is not stored. -/
theorem TaskOk.spawned (hown : ownProc task = some (uid, p)) (hdb : s.clientsDb uid = none)
    (huid : uidOf s p = some uid) (hfresh : p ∉ s.registered)
    (hattempt : ∀ uid p n, task = .createPoll uid p n ∨ task = .createHealth uid p n →
      n < lifetimeCheckNumRetries) : TaskOk s task := by
  have hcreating := creating_of_ownProc hown
  refine ⟨fun u h => ?_, fun u args h => ?_, fun u q h => ?_, fun u h => ?_, fun u client h => ?_,
    fun q h => ?_, hattempt⟩
  · rw [hcreating] at h
    cases h
    exact hdb
  · rw [h] at hown
    cases hown
  · rw [hown] at h
    cases h
    exact ⟨huid, hfresh⟩
  · cases task <;> simp [creating, destroying] at hcreating h
  · rw [h] at hcreating
    cases hcreating
  · cases task <;> simp [creating, endingProc] at hcreating h

/-- A Destroy past its check knows the entry that it found. -/
theorem TaskOk.reading (hdestroying : destroying task = some uid) (hpresent : s.clientsDb uid ≠ none)
    (hread : ∀ client, task = .destroyPop uid client → s.clientsDb uid = some client) :
    TaskOk s task := by
  have hcreating : creating task = none := by
    cases task <;> first | rfl | cases hdestroying
  have hending : endingProc task = none := by
    cases task <;> first | rfl | cases hdestroying
  refine ⟨fun u h => ?_, fun u args h => ?_, fun u q h => ?_, fun u h => ?_, fun u client h => ?_,
    fun q h => ?_, fun u q n h => ?_⟩
  · rw [hcreating] at h
    cases h
  · rw [h] at hcreating
    cases hcreating
  · rw [creating_of_ownProc h] at hcreating
    cases hcreating
  · rw [hdestroying] at h
    cases h
    exact hpresent
  · rw [h] at hdestroying
    cases hdestroying
    exact hread client h
  · rw [hending] at h
    cases h
  · rcases h with h | h <;> (rw [h] at hcreating; cases hcreating)

theorem exit_invariant (h : Invariant s) : Invariant (exit p s) := by
  refine ⟨h.table.exit, fun w => ?_, h.oneCreates, h.oneDestroys⟩
  exact (h.tasks w).extend exit_extends (fun _ _ => rfl) (fun _ _ hp _ _ => running_exit hp)
    fun _ _ _ hmem => hmem

theorem start_invariant : Invariant ({} : Instance W) := by
  refine ⟨⟨fun p q hp => ?_, fun a ha => ?_, fun p hp => ?_, fun t ht => ?_, List.nodup_nil,
    fun p hp => ?_, fun uid client hget => ?_⟩, fun w => .free rfl rfl fun p hp => ?_,
    fun w v uid hw => ?_, fun w v uid hw => ?_⟩
  · simp [Instance.running] at hp
  · cases ha
  · cases hp
  · cases ht
  · cases hp
  · cases hget
  · cases hp
  · cases hw
  · cases hw

variable [DecidableEq W]

theorem goto_same : (s.goto w task).worker w = task := Function.update_self ..

theorem goto_other {v : W} (hv : v ≠ w) : (s.goto w task).worker v = s.worker v :=
  Function.update_of_ne hv ..

/-- One worker at most shows a uid, before and after a worker goes on to another task. -/
theorem one_goto {view : Task → Option String}
    (hone : ∀ w v uid, view (s.worker w) = some uid → view (s.worker v) = some uid → w = v)
    (hworker : s'.worker = s.worker)
    (hnew : ∀ uid, view task = some uid →
      view (s.worker w) = some uid ∨ ∀ v, view (s.worker v) ≠ some uid) :
    ∀ v u uid, view ((s'.goto w task).worker v) = some uid →
      view ((s'.goto w task).worker u) = some uid → v = u := by
  have hother : ∀ v, v ≠ w → (s'.goto w task).worker v = s.worker v := fun v hv => by
    rw [goto_other hv, hworker]
  have hnot : ∀ v uid, v ≠ w → view task = some uid → view (s.worker v) ≠ some uid := by
    intro v uid hv htask hview
    rcases hnew uid htask with hold | hnone
    · exact hv (hone v w uid hview hold)
    · exact hnone v hview
  intro v u uid hv hu
  by_cases hvw : v = w <;> by_cases huw : u = w
  · exact hvw.trans huw.symm
  · rw [hvw, goto_same] at hv
    rw [hother u huw] at hu
    exact absurd hu (hnot u uid huw hv)
  · rw [huw, goto_same] at hu
    rw [hother v hvw] at hv
    exact absurd hv (hnot v uid hvw hu)
  · rw [hother v hvw] at hv
    rw [hother u huw] at hu
    exact hone v u uid hv hu

/-- A worker goes on to another task after a change of the table that the others put up with. -/
theorem Invariant.change (h : Invariant s) (hworker : s'.worker = s.worker) (htable : Table s')
    (hothers : ∀ v ≠ w, TaskOk s' (s.worker v)) (htask : TaskOk s' task)
    (hcreates : ∀ uid, creating task = some uid →
      creating (s.worker w) = some uid ∨ ∀ v, creating (s.worker v) ≠ some uid)
    (hdestroys : ∀ uid, destroying task = some uid →
      destroying (s.worker w) = some uid ∨ ∀ v, destroying (s.worker v) ≠ some uid) :
    Invariant (s'.goto w task) := by
  have hext : Extends s' (s'.goto w task) :=
    ⟨fun _ _ h => h, fun _ h _ => h, List.Subset.refl _, List.Subset.refl _⟩
  have hother : ∀ v, v ≠ w → (s'.goto w task).worker v = s.worker v := fun v hv => by
    rw [goto_other hv, hworker]
  have hsame : ∀ t, TaskOk s' t → TaskOk (s'.goto w task) t := fun t ht =>
    ht.extend hext (fun _ _ => rfl) (fun _ _ h _ _ => h) (fun _ _ _ h => h)
  refine ⟨⟨htable.single, htable.extend_answers hext rfl, htable.kept, htable.takes, htable.once,
    htable.known, htable.db⟩, fun v => ?_, one_goto h.oneCreates hworker hcreates,
    one_goto h.oneDestroys hworker hdestroys⟩
  by_cases hv : v = w
  · rw [hv, goto_same]
    exact hsame task htask
  · rw [hother v hv]
    exact hsame _ (hothers v hv)

/-- A worker goes on to another task and leaves the table as it is. -/
theorem Invariant.goto (h : Invariant s) (htask : TaskOk s task)
    (hcreates : ∀ uid, creating task = some uid →
      creating (s.worker w) = some uid ∨ ∀ v, creating (s.worker v) ≠ some uid)
    (hdestroys : ∀ uid, destroying task = some uid →
      destroying (s.worker w) = some uid ∨ ∀ v, destroying (s.worker v) ≠ some uid) :
    Invariant (s.goto w task) :=
  h.change rfl h.table (fun v _ => h.tasks v) htask hcreates hdestroys

theorem Invariant.free (h : Invariant s) (hcreating : creating task = none)
    (hdestroying : destroying task = none)
    (hending : ∀ p, endingProc task = some p → p ∈ taken s) : Invariant (s.goto w task) := by
  refine h.goto (.free hcreating hdestroying hending) (fun uid hc => ?_) fun uid hd => ?_
  · rw [hcreating] at hc
    cases hc
  · rw [hdestroying] at hd
    cases hd

/-- A request ends with an answer after a change of the table. -/
theorem Invariant.changeFinish {answer : Answer} (h : Invariant s) (hworker : s'.worker = s.worker)
    (htable : Table s') (hothers : ∀ v ≠ w, TaskOk s' (s.worker v)) (hanswer : AnswerOk s' answer) :
    Invariant (s'.finish w answer) := by
  have hext : Extends s' { s' with answers := s'.answers ++ [answer] } :=
    ⟨fun _ _ h => h, fun _ h _ => h, List.Subset.refl _, List.Subset.refl _⟩
  have hnoted : Table { s' with answers := s'.answers ++ [answer] } := htable.note hanswer
  have hidle : Invariant
      (Instance.goto { s' with answers := s'.answers ++ [answer] } w .idle) := by
    refine h.change hworker hnoted (fun v hv => ?_) (.free rfl rfl fun p hp => ?_)
      (fun uid hc => ?_) fun uid hd => ?_
    · exact (hothers v hv).extend hext (fun _ _ => rfl) (fun _ _ h _ _ => h) (fun _ _ _ h => h)
    · cases hp
    · cases hc
    · cases hd
  exact hidle

theorem Invariant.finish {answer : Answer} (h : Invariant s) (hanswer : AnswerOk s answer) :
    Invariant (s.finish w answer) :=
  h.changeFinish rfl h.table (fun v _ => h.tasks v) hanswer

/-- A Create passes its check. -/
theorem Invariant.passCreate {args : List String} (h : Invariant s) (hdb : s.clientsDb uid = none)
    (hruns : ∀ p, s.running p → uidOf s p ≠ some uid)
    (halone : ∀ v, creating (s.worker v) ≠ some uid) :
    Invariant (s.goto w (.createSpawn uid args)) := by
  have htask : TaskOk s (.createSpawn uid args) := by
    refine ⟨fun u hu => ?_, fun u args hu => ?_, fun u p hu => ?_, fun u hu => ?_,
      fun u client hu => ?_, fun p hu => ?_, fun u p n hu => ?_⟩
    · cases hu
      exact hdb
    · cases hu
      exact hruns
    · cases hu
    · cases hu
    · cases hu
    · cases hu
    · rcases hu with hu | hu <;> cases hu
  refine h.goto htask (fun u hu => ?_) fun u hu => ?_
  · cases hu
    exact .inr halone
  · cases hu

/-- A Create brings up its process. -/
theorem Invariant.spawn {args : List String} (h : Invariant s)
    (hw : s.worker w = .createSpawn uid args) :
    Invariant ((s.spawn uid args).goto w (.createHealth uid s.procs.length 0)) := by
  have hown := h.tasks w
  rw [hw] at hown
  have hfresh : s.procs.length ∉ s.registered := fun hmem => by
    obtain ⟨u, hu⟩ := h.table.known _ hmem
    rw [uidOf_new] at hu
    cases hu
  refine h.change rfl (h.table.spawn (hown.unspawned uid args rfl)) (fun v hv => ?_)
    (.spawned rfl (hown.absent uid rfl) uidOf_spawn_new hfresh fun u p n ht => ?_)
    (fun u hu => ?_) fun u hu => ?_
  · refine (h.tasks v).extend spawn_extends (fun _ _ => rfl) (fun p u hp hu huid => ?_)
      fun _ _ _ hmem => hmem
    rcases running_spawn hp with hp | rfl
    · exact hp
    · rw [uidOf_spawn_new] at huid
      cases huid
      exact absurd (h.oneCreates v w uid hu (by rw [hw]; rfl)) hv
  · rcases ht with ht | ht <;> cases ht
    decide
  · cases hu
    exact .inl (by rw [hw]; rfl)
  · cases hu

/-- A Create goes on with its process. -/
theorem Invariant.goOn (h : Invariant s) (hw : ownProc (s.worker w) = some (uid, p))
    (hown : ownProc task = some (uid, p)) (hdestroying : destroying task = none)
    (hattempt : ∀ uid p n, task = .createPoll uid p n ∨ task = .createHealth uid p n →
      n < lifetimeCheckNumRetries) : Invariant (s.goto w task) := by
  have hmine := h.tasks w
  obtain ⟨huid, hfresh⟩ := hmine.own uid p hw
  have hold := creating_of_ownProc hw
  refine h.goto (.spawned hown (hmine.absent uid hold) huid hfresh hattempt)
    (fun u hu => ?_) fun u hu => ?_
  · rw [creating_of_ownProc hown] at hu
    cases hu
    exact .inl hold
  · rw [hdestroying] at hu
    cases hu

/-- A Create stores its process and is answered. -/
theorem Invariant.store (h : Invariant s) (hw : s.worker w = .createStore uid p) :
    Invariant ((s.store uid p).finish w (.created ⟨uid, false, ""⟩ (some p))) := by
  have hmine := h.tasks w
  rw [hw] at hmine
  obtain ⟨huid, hfresh⟩ := hmine.own uid p rfl
  have hnone := hmine.absent uid rfl
  have htable := h.table.store hnone huid fun hp => hfresh (h.table.taken_registered hp)
  refine h.changeFinish rfl htable (fun v hv => ?_) ⟨fun _ => ?_, fun herror => ?_⟩
  · have hcreates : creating (s.worker v) ≠ some uid := fun hc =>
      hv (h.oneCreates v w uid hc (by rw [hw]; rfl))
    refine (h.tasks v).extend store_extends (fun u hu => store_other ?_) (fun _ _ hp _ _ => hp)
      fun q u hq hmem => ?_
    · rintro rfl
      rcases hu with hu | hu
      · exact hcreates hu
      · exact (h.tasks v).present u hu hnone
    · rcases List.mem_append.mp hmem with hmem | hnew
      · exact hmem
      · rw [List.mem_singleton.mp hnew] at hq
        have hsame := ((h.tasks v).own u p hq).1
        rw [huid] at hsame
        cases hsame
        exact absurd (creating_of_ownProc hq) hcreates
  · exact ⟨p, List.mem_append_right _ (List.mem_singleton_self p), rfl, huid⟩
  · cases herror

/-- A Destroy pops the entry that it read. -/
theorem Invariant.pop {client : Client} (h : Invariant s) (hw : s.worker w = .destroyPop uid client) :
    Invariant ((s.pop uid client client).goto w (.destroyCall uid client)) := by
  have hmine := h.tasks w
  rw [hw] at hmine
  have hget := hmine.read uid client rfl
  refine h.change rfl (h.table.pop hget) (fun v hv => ?_) (.free rfl rfl fun p hp => ?_)
    (fun u hu => ?_) fun u hu => ?_
  · refine (h.tasks v).extend pop_extends (fun u hu => pop_other ?_) (fun _ _ hp _ _ => hp)
      fun _ _ _ hmem => hmem
    rintro rfl
    rcases hu with hu | hu
    · have habsent := (h.tasks v).absent u hu
      rw [hget] at habsent
      cases habsent
    · exact hv (h.oneDestroys v w u hu (by rw [hw]; rfl))
  · cases hp
    rw [taken_pop]
    exact List.mem_append_right _ (List.mem_singleton_self _)
  · cases hu
  · cases hu

theorem take_invariant {cfg : Config} {request : Request} (h : Invariant s) :
    Invariant (take cfg w request s) := by
  unfold take
  cases hw : s.worker w with
  | idle =>
    cases request with
    | create args =>
      simp only
      cases requestedUid cfg args with
      | error msg => exact h.finish ⟨fun hok => (by cases hok), fun _ p hp => (by cases hp)⟩
      | ok uid => exact h.free rfl rfl fun p hp => by cases hp
    | destroy uid => exact h.free rfl rfl fun p hp => by cases hp
  | _ => exact h

/-- A step of a worker whose requests keep apart. -/
theorem act_invariant {ok : Bool} (h : Invariant s) (hapart : Apart s (.act w ok)) :
    Invariant (act w ok s) := by
  have hmine := h.tasks w
  have hnext : TaskApart s (s.worker w) := hapart
  unfold act
  cases hw : s.worker w with
  | idle => exact h
  | createCheck uid args =>
    rw [hw] at hnext
    simp only
    cases hdb : s.clientsDb uid with
    | some client => exact h.finish ⟨fun hok => (by cases hok), fun _ p hp => (by cases hp)⟩
    | none => exact h.passCreate hdb (hnext hdb).1 (hnext hdb).2
  | createSpawn uid args =>
    simp only
    split
    · exact h.spawn hw
    · exact h.finish trivial
  | createHealth uid p n =>
    rw [hw] at hmine
    simp only
    split
    · refine h.goOn (by rw [hw]; rfl) rfl rfl fun u q n ht => ?_
      rcases ht with ht | ht <;> cases ht
    · refine h.goOn (by rw [hw]; rfl) rfl rfl fun u q m ht => ?_
      rcases ht with ht | ht <;> cases ht
      exact hmine.attempt uid p n (.inr rfl)
  | createStore uid p => exact h.store hw
  | createPoll uid p n =>
    rw [hw] at hmine hnext
    simp only
    split
    · next hagain =>
      refine h.goOn (by rw [hw]; rfl) rfl rfl fun u q m ht => ?_
      rcases ht with ht | ht <;> cases ht
      exact hagain.2
    · next hlast =>
      have hattempt := hmine.attempt uid p n (.inl rfl)
      have hdead : ¬ s.running p := fun hruns =>
        hnext (by by_contra hne; exact hlast ⟨hruns, by omega⟩) hruns
      refine h.finish ⟨fun hok => (by cases hok), fun _ q hq => ?_⟩
      cases hq
      exact ⟨by rw [(hmine.own uid p rfl).1]; rfl, hdead⟩
  | destroyCheck uid =>
    rw [hw] at hnext
    simp only
    cases hdb : s.clientsDb uid with
    | none => exact h.finish fun p hp => by cases hp
    | some client =>
      have halone := hnext (by rw [hdb]; exact Option.some_ne_none _)
      refine h.goto (.reading rfl (by rw [hdb]; exact Option.some_ne_none _) fun c hc => ?_)
        (fun u hu => ?_) fun u hu => ?_
      · cases hc
      · cases hu
      · cases hu
        exact .inr halone
  | destroyRead uid =>
    rw [hw] at hmine
    simp only
    cases hdb : s.clientsDb uid with
    | none => exact absurd hdb (hmine.present uid rfl)
    | some client =>
      refine h.goto (.reading rfl (hmine.present uid rfl) fun c hc => ?_) (fun u hu => ?_)
        fun u hu => ?_
      · cases hc
        exact hdb
      · cases hu
      · cases hu
        exact .inl (by rw [hw]; rfl)
  | destroyPop uid client =>
    rw [hw] at hmine
    have hread := hmine.read uid client rfl
    simp only [hread]
    exact h.pop hw
  | destroyCall uid client =>
    rw [hw] at hmine
    refine h.free rfl rfl fun p hp => ?_
    cases hp
    exact hmine.ending _ rfl
  | destroyWait uid p n errorMsg =>
    rw [hw] at hmine
    simp only
    split <;>
    · refine h.free rfl rfl fun q hq => ?_
      cases hq
      exact hmine.ending _ rfl
  | destroyPoll uid p errorMsg =>
    rw [hw] at hmine
    refine h.finish fun q hq => ?_
    cases hq
    exact hmine.ending _ rfl

theorem step_invariant {cfg : Config} {e : Event W} (h : Invariant s) (hapart : Apart s e) :
    Invariant (step cfg s e) := by
  cases e with
  | take w request => exact take_invariant h
  | act w ok => exact act_invariant h hapart
  | exit p => exact exit_invariant h

end tasks

/-- In every run of a server whose requests for one uid keep apart, the process table is right in
every state. -/
theorem process_table_right [DecidableEq W] (cfg : Config) {events : List (Event W)}
    (hapart : Along (step cfg) Apart {} events) : Right (run (step cfg) {} events) := by
  have h : Invariant (run (step cfg) {} events) :=
    run_invariant (fun _ _ => step_invariant) start_invariant hapart
  exact h.table.right

/-- A server that may start one program. -/
def oneProgram : Config := ⟨"10.0.0.1", ["doca_flow_grpc"], fun name => name⟩

def flowArgs : Args := ⟨"doca_flow_grpc", "-l 50", 0⟩

def flowUid : String := "10.0.0.1:53000"

theorem workers_neZero : NeZero 2 := ⟨two_ne_zero⟩

attribute [local instance] workers_neZero

/-- A worker takes a Create and goes through with it. -/
def createBy (w : Fin 2) : List (Event (Fin 2)) :=
  [.take w (.create flowArgs), .act w true, .act w true, .act w true, .act w true]

/-- A process is brought up, stored, and taken by a Destroy, and it obeys. -/
def upAndDown : List (Event (Fin 2)) :=
  createBy 0 ++ [.take 1 (.destroy flowUid), .act 1 true, .act 1 true, .act 1 true, .act 1 true,
    .exit 0, .act 1 true, .act 1 true]

/-- The two workers pass the check of a Create one after the other. -/
def racingCreates : List (Event (Fin 2)) :=
  [.take 0 (.create flowArgs), .take 1 (.create flowArgs), .act 0 true, .act 1 true,
    .act 0 true, .act 1 true]

/-- A program that runs does not answer the health checks. -/
def silentProgram : List (Event (Fin 2)) :=
  [.take 0 (.create flowArgs), .act 0 true, .act 0 true, .act 0 false, .act 0 true, .act 0 false,
    .act 0 true, .act 0 false, .act 0 true]

/-- The two workers pass the check of a Destroy one after the other. -/
def racingDestroys : List (Event (Fin 2)) :=
  createBy 0 ++ [.take 0 (.destroy flowUid), .take 1 (.destroy flowUid), .act 0 true, .act 1 true,
    .act 0 true, .act 1 true, .act 0 true, .act 1 true]

theorem upAndDown_apart : Along (step oneProgram) Apart {} upAndDown := by
  decide +kernel

theorem process_table_right_upAndDown :
    Along (step oneProgram) Apart {} upAndDown ∧ Right (run (step oneProgram) {} upAndDown) :=
  ⟨upAndDown_apart, process_table_right oneProgram upAndDown_apart⟩

/-- Two Creates bring up two processes for one uid, a Create gives up on a process that runs, and
of two Destroys of one entry the second dies of the missing key. -/
theorem process_table_wrong :
    ¬ Right (run (step oneProgram) {} racingCreates) ∧
      ¬ Right (run (step oneProgram) {} silentProgram) ∧
      ¬ Right (run (step oneProgram) {} racingDestroys) := by
  refine ⟨fun h => ?_, fun h => ?_, fun h => ?_⟩
  · have hsame := h.single 0 1 (by decide +kernel) (by decide +kernel) (by decide +kernel)
    cases hsame
  · have hentry := h.failed ⟨flowUid, true, "Failed to spawn " ++ flowUid ++ "!"⟩ 0
      (by decide +kernel) rfl (by decide +kernel)
    exact absurd hentry (by decide +kernel)
  · exact h.noKeyError flowUid (by decide +kernel)

end DocaApps.Proofs.Orchestrator
