import DocaApps.Common.DocaOptional

namespace DocaApps.Proofs.OptionalRuns
open Common.DocaOptional

variable {E : Type}

/-- What `std::optional` promises: for every optional the value it holds, if any, and `none` once
it has come to its end. -/
abbrev Std (E : Type) := List (Option (Option E))

namespace Std
variable (gone : E → E)

/-- The value an argument has, and what a move leaves in the optional it is in. -/
def fetch (arg : Arg E) (v : Std E) : Option (E × Std E) :=
  match arg.ref with
  | .outside value => some (value, v)
  | .held other => do
    let value ← v[other]?.join.join
    some (value, if arg.moved then v.set other (some (some (gone value))) else v)

def fetchAll : List (Arg E) → Std E → Option (List E × Std E)
  | [], v => some ([], v)
  | arg :: args, v => do
    let (value, v) ← fetch gone arg v
    let (values, v) ← fetchAll args v
    some (value :: values, v)

/-- `none` when an optional or an element that is named does not exist. -/
def step : Op E → Std E → Option (Std E)
  | .create, v => some (v ++ [some none])
  | .createValue arg, v => do
    let (value, v) ← fetch gone arg v
    some (v ++ [some (some value)])
  | .createOptional moved other, v => do
    match ← v[other]?.join with
    | none => some (v ++ [some none])
    | some _ =>
      let (value, v) ← fetch gone ⟨.held other, moved⟩ v
      some (v ++ [some (some value)])
  | .assignValue this arg, v => do
    let _ ← v[this]?.join
    let (value, v) ← fetch gone arg v
    some (v.set this (some (some value)))
  | .assignOptional this moved other, v => do
    let _ ← v[this]?.join
    match ← v[other]?.join with
    | none => some (v.set this (some none))
    | some _ =>
      if this = other then some v
      else
        let (value, v) ← fetch gone ⟨.held other, moved⟩ v
        some (v.set this (some (some value)))
  | .reset this, v => do
    let _ ← v[this]?.join
    some (v.set this (some none))
  | .emplace this args make, v => do
    let _ ← v[this]?.join
    let (values, v) ← fetchAll gone args v
    some (v.set this (some (some (make values))))
  | .destroy this, v => do
    let _ ← v[this]?.join
    some (v.set this none)

def run : List (Op E) → Std E → Option (Std E)
  | [], v => some v
  | op :: ops, v => (step gone op v).bind (run ops)

end Std

/-- The element in each optional, `none` where there is no such optional any more. -/
abbrev Cells (E : Type) := List (Option (Option (Element E)))

section Cells
variable {cells cells' : Cells E} {c c' : Option (Option (Element E))} {i this other : Nat}
  {e : Element E}

def serialsOf (c : Option (Option (Element E))) : List Nat := (c.join.map Element.serial).toList

def serials (cells : Cells E) : List Nat := cells.flatMap serialsOf

/-- An optional that names its own storage when it has a value, and no storage otherwise. -/
def optAt (i : Nat) (c : Option (Option (Element E))) : Option (Opt E) :=
  c.map fun held => ⟨held.map fun _ => i, held⟩

def layout (cells : Cells E) : List (Option (Opt E)) := cells.mapIdx optAt

def values (cells : Cells E) : Std E := cells.map (Option.map (Option.map Element.value))

theorem layout_set : layout (cells.set i c) = (layout cells).set i (optAt i c) := List.mapIdx_set

theorem values_set :
    values (cells.set i c) = (values cells).set i (c.map (Option.map Element.value)) :=
  List.map_set

theorem getElem?_values :
    (values cells)[i]? = cells[i]?.map (Option.map (Option.map Element.value)) :=
  List.getElem?_map

/-- Replacing one cell changes the account by the two elements. -/
theorem count_serials_set (h : cells[i]? = some c) (n : Nat) :
    (serials (cells.set i c')).count n + (serialsOf c).count n =
      (serials cells).count n + (serialsOf c').count n := by
  obtain ⟨hi, hc⟩ := List.getElem?_eq_some_iff.mp h
  have hsplit : cells.take i ++ c :: cells.drop (i + 1) = cells := by
    rw [← hc, List.cons_getElem_drop_succ, List.take_append_drop]
  have hcells : (serials (cells.take i ++ c :: cells.drop (i + 1))).count n =
      (serials cells).count n := by rw [hsplit]
  rw [← hcells, List.set_eq_take_append_cons_drop, if_pos hi]
  simp only [serials, List.flatMap_append, List.flatMap_cons, List.count_append]
  omega

/-- A memory that is laid out so, in which every element was destroyed or is to be destroyed once:
it lives in an optional, or is one of the `temps`. -/
structure Sound (m : Memory E) (temps : List Nat) (cells : Cells E) : Prop where
  opts : m.opts = layout cells
  account : ∀ n, m.destroyed.count n + temps.count n + (serials cells).count n =
    (List.range m.constructed).count n

variable {m : Memory E} {temps : List Nat}

theorem Sound.opt (h : Sound m temps cells) (i : Nat) :
    m.opt i = cells[i]?.join.map fun held => ⟨held.map fun _ => i, held⟩ := by
  rw [Memory.opt, h.opts, layout, List.getElem?_mapIdx]
  cases cells[i]? <;> rfl

theorem Sound.opt_some {held : Option (Element E)} (h : Sound m temps cells)
    (hcell : cells[i]? = some (some held)) : m.opt i = some ⟨held.map fun _ => i, held⟩ := by
  rw [h.opt, hcell]
  rfl

theorem Sound.setOpt_some (h : Sound m temps cells) :
    (m.setOpt i ⟨some i, some e⟩).opts = layout (cells.set i (some (some e))) := by
  rw [layout_set, ← h.opts]
  rfl

theorem Sound.setOpt_none (h : Sound m temps cells) :
    (m.setOpt i ⟨none, none⟩).opts = layout (cells.set i (some none)) := by
  rw [layout_set, ← h.opts]
  rfl

theorem set_same {α : Type} {l : List α} {a : α} (h : l[i]? = some a) : l.set i a = l := by
  obtain ⟨hi, rfl⟩ := List.getElem?_eq_some_iff.mp h
  exact List.set_getElem_self hi

/-- Whether there is an optional, and whether it has a value. -/
def status (cells : Cells E) : List (Option Bool) := cells.map (Option.map Option.isSome)

theorem status_set {e' : Element E} (hcell : cells[i]? = some (some (some e))) :
    status (cells.set i (some (some e'))) = status cells := by
  have hsame : (cells.map (Option.map Option.isSome))[i]? = some (some true) := by
    rw [List.getElem?_map, hcell]
    rfl
  rw [status, List.map_set]
  exact set_same hsame

theorem empty_of_status (hstatus : status cells' = status cells)
    (hempty : cells[i]? = some (some none)) : cells'[i]? = some (some none) := by
  have hi := congrArg (·[i]?) hstatus
  simp only [status, List.getElem?_map, hempty] at hi
  cases hcell : cells'[i]? with
  | none => simp [hcell] at hi
  | some c =>
    cases c with
    | none => simp [hcell] at hi
    | some held => cases held <;> simp_all

theorem present_of_status {held : Option (Element E)} (hstatus : status cells' = status cells)
    (hcell : cells[i]? = some (some held)) : ∃ held', cells'[i]? = some (some held') := by
  have hi := congrArg (·[i]?) hstatus
  simp only [status, List.getElem?_map, hcell] at hi
  cases hcell' : cells'[i]? with
  | none => simp [hcell'] at hi
  | some c =>
    cases c with
    | none => simp [hcell'] at hi
    | some held' => exact ⟨held', rfl⟩

/-- The element that a reference refers to lives. -/
theorem exists_held {value : E} (h : (values cells)[other]?.join.join = some value) :
    ∃ e, cells[other]? = some (some (some e)) ∧ e.value = value := by
  rw [getElem?_values] at h
  cases hcell : cells[other]? with
  | none => simp [hcell] at h
  | some c =>
    cases c with
    | none => simp [hcell] at h
    | some held =>
      cases held with
      | none => simp [hcell] at h
      | some e => exact ⟨e, rfl, by simpa [hcell] using h⟩

theorem exists_present {x : Option E} (h : (values cells)[i]?.join = some x) :
    ∃ held, cells[i]? = some (some held) ∧ held.map Element.value = x := by
  rw [getElem?_values] at h
  cases hcell : cells[i]? with
  | none => simp [hcell] at h
  | some c =>
    cases c with
    | none => simp [hcell] at h
    | some held => exact ⟨held, rfl, by simpa [hcell] using h⟩

end Cells

section Members
variable {gone : E → E} {m : Memory E} {temps : List Nat} {cells : Cells E} {this other : Nat}
  {arg : Arg E} {value : E} {v v' : Std E} {held : Option (Element E)}

theorem fetch_spec (h : Sound m temps cells)
    (hstd : Std.fetch gone arg (values cells) = some (value, v')) :
    ∃ m' cells', fetch gone arg m = some (value, m') ∧ Sound m' temps cells' ∧
      values cells' = v' ∧ status cells' = status cells := by
  obtain ⟨ref, moved⟩ := arg
  cases ref with
  | outside x =>
    cases hstd
    exact ⟨m, cells, rfl, h, rfl, rfl⟩
  | held other =>
    obtain ⟨x, hx, hmoved⟩ := Option.bind_eq_some_iff.mp hstd
    obtain ⟨e, hcell, rfl⟩ := exists_held hx
    have hopt := h.opt_some hcell
    cases moved with
    | false =>
      cases hmoved
      exact ⟨m, cells, by simp [fetch, hopt], h, rfl, rfl⟩
    | true =>
      cases hmoved
      refine ⟨m.setOpt other ⟨some other, some ⟨e.serial, gone e.value⟩⟩,
        cells.set other (some (some ⟨e.serial, gone e.value⟩)), by simp [fetch, hopt],
        ⟨h.setOpt_some, fun n => ?_⟩, values_set, status_set hcell⟩
      have hcount : (serials (cells.set other (some (some ⟨e.serial, gone e.value⟩)))).count n +
          [e.serial].count n = (serials cells).count n + [e.serial].count n :=
        count_serials_set hcell n
      have haccount := h.account n
      simp only [Memory.setOpt]
      omega

theorem construct_spec (h : Sound m temps cells) (hcell : cells[this]? = some (some none))
    (hstd : Std.fetch gone arg (values cells) = some (value, v')) :
    ∃ m' cells', construct gone this arg m = some m' ∧ Sound m' temps cells' ∧
      values cells' = v'.set this (some (some value)) := by
  obtain ⟨m', cells', hfetch, hsound, hvalues, hstatus⟩ := fetch_spec h hstd
  have hempty := empty_of_status hstatus hcell
  have hopt := hsound.opt_some hempty
  refine ⟨{ m'.setOpt this ⟨some this, some ⟨m'.constructed, value⟩⟩ with
      constructed := m'.constructed + 1 },
    cells'.set this (some (some ⟨m'.constructed, value⟩)), by simp [construct, hfetch, hopt],
    ⟨hsound.setOpt_some, fun n => ?_⟩, by rw [values_set, hvalues]; rfl⟩
  have hcount : (serials (cells'.set this (some (some ⟨m'.constructed, value⟩)))).count n + 0 =
      (serials cells').count n + [m'.constructed].count n := count_serials_set hempty n
  have haccount := hsound.account n
  simp only [Memory.setOpt, List.range_succ, List.count_append]
  omega

theorem opt_setOpt {o o' : Opt E} (h : m.opt this = some o) :
    (m.setOpt this o').opt this = some o' := by
  have hlt : this < m.opts.length := by
    by_contra hge
    rw [Memory.opt, List.getElem?_eq_none (by omega)] at h
    cases h
  rw [Memory.opt, Memory.setOpt, List.getElem?_set_self hlt]
  rfl

/-- The element of an optional is destroyed, if it has one. -/
theorem destruct_spec (h : Sound m temps cells) (hcell : cells[this]? = some (some held)) :
    ∃ m', destruct this m = some m' ∧ Sound m' temps (cells.set this (some none)) := by
  have hopt := h.opt_some hcell
  cases held with
  | none => exact ⟨m, by simp [destruct, hopt], by rwa [set_same hcell]⟩
  | some e =>
    refine ⟨{ (m.setOpt this ⟨some this, none⟩).setOpt this ⟨none, none⟩ with
      destroyed := m.destroyed ++ [e.serial] }, ?_, ?_, fun n => ?_⟩
    · have hback : (m.setOpt this ⟨some this, none⟩).opt this = some ⟨some this, none⟩ :=
        opt_setOpt hopt
      simp only [destruct, hopt, hback, Option.map_some, Option.bind_eq_bind, Option.bind_some]
      rfl
    · have hset : ((m.setOpt this ⟨some this, none⟩).setOpt this ⟨none, none⟩).opts =
          (m.setOpt this ⟨none, none⟩).opts := by simp [Memory.setOpt]
      exact hset.trans h.setOpt_none
    · have hcount : (serials (cells.set this (some none))).count n + [e.serial].count n =
          (serials cells).count n + 0 := count_serials_set hcell n
      have haccount := h.account n
      simp only [Memory.setOpt, List.count_append]
      omega

/-- The argument is not the element that is replaced. -/
theorem fetch_set (hother : arg.ref ≠ .held this) (x : Option (Option E)) :
    Std.fetch gone arg (v.set this x) =
      (Std.fetch gone arg v).map fun r => (r.1, r.2.set this x) := by
  obtain ⟨ref, moved⟩ := arg
  cases ref with
  | outside y => rfl
  | held other =>
    have hne : this ≠ other := fun heq => hother (heq ▸ rfl)
    simp only [Std.fetch, List.getElem?_set_ne hne]
    cases v[other]?.join.join with
    | none => rfl
    | some y => cases moved <;> simp [List.set_comm _ _ hne]

theorem assign_spec (h : Sound m temps cells) (hcell : cells[this]? = some (some held))
    (hother : arg.ref ≠ .held this)
    (hstd : Std.fetch gone arg (values cells) = some (value, v')) :
    ∃ m' cells', assign gone this arg m = some m' ∧ Sound m' temps cells' ∧
      values cells' = v'.set this (some (some value)) := by
  obtain ⟨m₁, hdestruct, hsound⟩ := destruct_spec h hcell
  have hlt : this < cells.length := (List.getElem?_eq_some_iff.mp hcell).1
  have hempty : (cells.set this (some none))[this]? = some (some none) :=
    List.getElem?_set_self hlt
  have hfetch : Std.fetch gone arg (values (cells.set this (some none))) =
      some (value, v'.set this (some none)) := by
    rw [values_set, fetch_set hother, hstd]
    rfl
  obtain ⟨m', cells', hconstruct, hsound', hvalues⟩ := construct_spec hsound hempty hfetch
  refine ⟨m', cells', ?_, hsound', by rw [hvalues, List.set_set]⟩
  have hopt := h.opt_some hcell
  cases held with
  | none =>
    have hsame : m₁ = m := by
      simp [destruct, hopt] at hdestruct
      exact hdestruct.symm
    subst hsame
    simp [assign, hopt, hconstruct]
  | some e => simp [assign, hopt, hdestruct, hconstruct]

theorem create_spec (h : Sound m temps cells) : Sound (create m) temps (cells ++ [some none]) := by
  constructor
  · rw [create, h.opts, layout, layout, List.mapIdx_concat]
    rfl
  · intro n
    have haccount := h.account n
    simp only [create, serials, List.flatMap_append, List.count_append]
    exact haccount

theorem length_opts (h : Sound m temps cells) : m.opts.length = cells.length := by
  rw [h.opts, layout, List.length_mapIdx]

/-- A new optional is at none of the addresses that a reference can name. -/
theorem fetch_append (x : Option (Option E))
    (hstd : Std.fetch gone arg v = some (value, v')) :
    arg.ref ≠ .held v.length ∧ Std.fetch gone arg (v ++ [x]) = some (value, v' ++ [x]) := by
  obtain ⟨ref, moved⟩ := arg
  cases ref with
  | outside y =>
    cases hstd
    exact ⟨by simp, rfl⟩
  | held other =>
    obtain ⟨y, hy, hmoved⟩ := Option.bind_eq_some_iff.mp hstd
    have hlt : other < v.length := by
      by_contra hge
      rw [List.getElem?_eq_none (by omega)] at hy
      cases hy
    have hy' : (v ++ [x])[other]?.join.join = some y := by
      rwa [List.getElem?_append_left hlt]
    refine ⟨fun heq => ?_, ?_⟩
    · cases heq
      omega
    · cases moved with
      | false =>
        cases hmoved
        simp [Std.fetch, hy']
      | true =>
        cases hmoved
        simp [Std.fetch, hy', List.set_append_left _ _ hlt]

theorem length_fetch (hstd : Std.fetch gone arg v = some (value, v')) :
    v'.length = v.length := by
  obtain ⟨ref, moved⟩ := arg
  cases ref with
  | outside y =>
    cases hstd
    rfl
  | held other =>
    obtain ⟨y, hy, hmoved⟩ := Option.bind_eq_some_iff.mp hstd
    cases moved <;> cases hmoved <;> simp

theorem createValue_spec (h : Sound m temps cells)
    (hstd : Std.fetch gone arg (values cells) = some (value, v')) :
    ∃ m' cells', createValue gone arg m = some m' ∧ Sound m' temps cells' ∧
      values cells' = v' ++ [some (some value)] := by
  have hlen : (values cells).length = cells.length := List.length_map _
  obtain ⟨hother, hfetch⟩ := fetch_append (some none) hstd
  have hlast : (cells ++ [some none])[cells.length]? = some (some none) := by simp
  have hnew : values cells ++ [some none] = values (cells ++ [some none]) := by simp [values]
  rw [hnew] at hfetch
  rw [hlen] at hother
  obtain ⟨m', cells', hassign, hsound, hvalues⟩ :=
    assign_spec (create_spec h) hlast hother hfetch
  refine ⟨m', cells', ?_, hsound, ?_⟩
  · rw [createValue, length_opts h]
    exact hassign
  · have hlen' : cells.length = v'.length := by rw [length_fetch hstd, hlen]
    rw [hvalues, hlen']
    simp

theorem fetchAll_spec {args : List (Arg E)} {xs : List E} (h : Sound m temps cells)
    (hstd : Std.fetchAll gone args (values cells) = some (xs, v')) :
    ∃ m' cells', fetchAll gone args m = some (xs, m') ∧ Sound m' temps cells' ∧
      values cells' = v' ∧ status cells' = status cells := by
  induction args generalizing m cells xs v' with
  | nil =>
    cases hstd
    exact ⟨m, cells, rfl, h, rfl, rfl⟩
  | cons arg args ih =>
    obtain ⟨⟨x, v₁⟩, hfirst, hrest⟩ := Option.bind_eq_some_iff.mp hstd
    obtain ⟨⟨ys, v₂⟩, hothers, hlast⟩ := Option.bind_eq_some_iff.mp hrest
    cases hlast
    obtain ⟨m₁, cells₁, hfetch, hsound, rfl, hstatus⟩ := fetch_spec h hfirst
    obtain ⟨m', cells', hall, hsound', hvalues, hstatus'⟩ := ih hsound hothers
    exact ⟨m', cells', by simp [fetchAll, hfetch, hall], hsound', hvalues,
      hstatus'.trans hstatus⟩

/-- The temporary object is destroyed as well, and it is the optional that keeps the value. -/
theorem emplace_spec {args : List (Arg E)} {xs : List E} {make : List E → E}
    (h : Sound m [] cells) (hcell : cells[this]? = some (some held))
    (hstd : Std.fetchAll gone args (values cells) = some (xs, v')) :
    ∃ m' cells', emplace gone this args make m = some m' ∧ Sound m' [] cells' ∧
      values cells' = v'.set this (some (some (make xs))) := by
  obtain ⟨m₁, cells₁, hall, hsound, rfl, hstatus⟩ := fetchAll_spec h hstd
  obtain ⟨held', hcell'⟩ := present_of_status hstatus hcell
  have htemp : Sound { m₁ with constructed := m₁.constructed + 1 } [m₁.constructed] cells₁ := by
    refine ⟨hsound.opts, fun n => ?_⟩
    have haccount := hsound.account n
    simp only [List.range_succ, List.count_append, List.count_nil] at haccount ⊢
    omega
  have hother : (⟨.outside (make xs), true⟩ : Arg E).ref ≠ .held this := by simp
  have houtside : Std.fetch gone ⟨.outside (make xs), true⟩ (values cells₁) =
      some (make xs, values cells₁) := rfl
  obtain ⟨m₂, cells₂, hassign, hsound₂, hvalues⟩ := assign_spec htemp hcell' hother houtside
  refine ⟨{ m₂ with destroyed := m₂.destroyed ++ [m₁.constructed] }, cells₂, ?_,
    ⟨hsound₂.opts, fun n => ?_⟩, hvalues⟩
  · simp [emplace, hall, hassign]
  · have haccount := hsound₂.account n
    simp only [List.count_append, List.count_nil]
    omega

theorem createOptional_spec {moved : Bool} (h : Sound m temps cells)
    (hcell : cells[other]? = some (some held))
    (hstd : Std.step gone (.createOptional moved other) (values cells) = some v') :
    ∃ m' cells', createOptional gone moved other m = some m' ∧ Sound m' temps cells' ∧
      values cells' = v' := by
  have hlt : other < cells.length := (List.getElem?_eq_some_iff.mp hcell).1
  have hcreate := create_spec h
  have hlast : (cells ++ [some none])[cells.length]? = some (some none) := by simp
  have hnew : (create m).opt m.opts.length = some ⟨none, none⟩ := by
    rw [length_opts h]
    exact hcreate.opt_some hlast
  have hcell' : (cells ++ [some none])[other]? = some (some held) := by
    rwa [List.getElem?_append_left hlt]
  have hother := hcreate.opt_some hcell'
  have hpresent : (values cells)[other]?.join = some (held.map Element.value) := by
    rw [getElem?_values, hcell]
    rfl
  cases held with
  | none =>
    simp only [Std.step, hpresent, Option.map_none, Option.bind_eq_bind, Option.bind_some,
      Option.some.injEq] at hstd
    refine ⟨create m, cells ++ [some none], by simp [createOptional, hnew, hother], hcreate, ?_⟩
    rw [← hstd]
    simp [values]
  | some e =>
    simp only [Std.step, hpresent, Option.map_some, Option.bind_eq_bind, Option.bind_some] at hstd
    obtain ⟨⟨x, v₁⟩, hfetch, hlast⟩ := Option.bind_eq_some_iff.mp hstd
    cases hlast
    obtain ⟨m', cells', hcreated, hsound, hvalues⟩ := createValue_spec h hfetch
    have hsame : createOptional gone moved other m = createValue gone ⟨.held other, moved⟩ m := by
      simp [createOptional, createValue, hnew, hother]
    exact ⟨m', cells', hsame.trans hcreated, hsound, hvalues⟩

theorem assignOptional_spec {moved : Bool} (h : Sound m temps cells)
    {heldOther : Option (Element E)} (hcell : cells[this]? = some (some held))
    (hcellOther : cells[other]? = some (some heldOther))
    (hstd : Std.step gone (.assignOptional this moved other) (values cells) = some v') :
    ∃ m' cells', assignOptional gone this moved other m = some m' ∧ Sound m' temps cells' ∧
      values cells' = v' := by
  have hopt := h.opt_some hcell
  have hoptOther := h.opt_some hcellOther
  have hpresent : (values cells)[this]?.join = some (held.map Element.value) := by
    rw [getElem?_values, hcell]
    rfl
  have hpresentOther : (values cells)[other]?.join = some (heldOther.map Element.value) := by
    rw [getElem?_values, hcellOther]
    rfl
  cases heldOther with
  | none =>
    simp only [Std.step, hpresent, hpresentOther, Option.map_none, Option.bind_eq_bind,
      Option.bind_some, Option.some.injEq] at hstd
    have hvalues : values (cells.set this (some none)) = v' := by
      rw [values_set, ← hstd]
      rfl
    cases held with
    | none =>
      rw [set_same hcell] at hvalues
      exact ⟨m, cells, by simp [assignOptional, hopt, hoptOther], h, hvalues⟩
    | some e =>
      obtain ⟨m', hdestruct, hsound⟩ := destruct_spec h hcell
      exact ⟨m', _, by simp [assignOptional, hopt, hoptOther, hdestruct], hsound, hvalues⟩
  | some e =>
    simp only [Std.step, hpresent, hpresentOther, Option.map_some, Option.bind_eq_bind,
      Option.bind_some] at hstd
    by_cases hself : this = other
    · rw [if_pos hself] at hstd
      cases hstd
      subst hself
      rw [hcell] at hcellOther
      cases hcellOther
      exact ⟨m, cells, by simp [assignOptional, hopt], h, rfl⟩
    · rw [if_neg hself] at hstd
      obtain ⟨⟨x, v₁⟩, hfetch, hlast⟩ := Option.bind_eq_some_iff.mp hstd
      cases hlast
      have hne : (⟨.held other, moved⟩ : Arg E).ref ≠ .held this := by
        intro heq
        cases heq
        exact hself rfl
      obtain ⟨m', cells', hassign, hsound, hvalues⟩ := assign_spec h hcell hne hfetch
      have hptr : (held.map fun _ => this) ≠ some other := by
        cases held <;> simp [hself]
      exact ⟨m', cells', by simp [assignOptional, hopt, hoptOther, hptr, hassign], hsound, hvalues⟩

theorem destroy_spec (h : Sound m temps cells) (hcell : cells[this]? = some (some held)) :
    ∃ m', destroy this m = some m' ∧ Sound m' temps (cells.set this none) := by
  obtain ⟨m₁, hdestruct, hsound⟩ := destruct_spec h hcell
  have hlt : this < cells.length := (List.getElem?_eq_some_iff.mp hcell).1
  have hempty : (cells.set this (some none))[this]? = some (some none) :=
    List.getElem?_set_self hlt
  refine ⟨{ m₁ with opts := m₁.opts.set this none }, by simp [destroy, hdestruct], ?_, ?_⟩
  · rw [← List.set_set (some none), layout_set, ← hsound.opts]
    rfl
  · intro n
    have hcount : (serials ((cells.set this (some none)).set this none)).count n + 0 =
        (serials (cells.set this (some none))).count n + 0 := count_serials_set hempty n
    have haccount := hsound.account n
    rw [List.set_set] at hcount
    simp only
    omega

/-- A value that is assigned from the element the optional itself holds. -/
def SelfRef : Op E → Prop
  | .assignValue this arg => arg.ref = .held this
  | _ => False

/-- Every other operation does what `std::optional` does. -/
theorem step_spec {op : Op E} (h : Sound m [] cells)
    (hstd : Std.step gone op (values cells) = some v') (hself : ¬ SelfRef op) :
    ∃ m' cells', step gone op m = some m' ∧ Sound m' [] cells' ∧ values cells' = v' := by
  cases op with
  | create =>
    cases hstd
    exact ⟨_, _, rfl, create_spec h, by simp [values]⟩
  | createValue arg =>
    obtain ⟨⟨x, v₁⟩, hfetch, hlast⟩ := Option.bind_eq_some_iff.mp hstd
    cases hlast
    exact createValue_spec h hfetch
  | createOptional moved other =>
    obtain ⟨x, hx, -⟩ := Option.bind_eq_some_iff.mp hstd
    obtain ⟨held, hcell, -⟩ := exists_present hx
    exact createOptional_spec h hcell hstd
  | assignValue this arg =>
    obtain ⟨x, hx, hrest⟩ := Option.bind_eq_some_iff.mp hstd
    obtain ⟨held, hcell, -⟩ := exists_present hx
    obtain ⟨⟨y, v₁⟩, hfetch, hlast⟩ := Option.bind_eq_some_iff.mp hrest
    cases hlast
    exact assign_spec h hcell hself hfetch
  | assignOptional this moved other =>
    obtain ⟨x, hx, hrest⟩ := Option.bind_eq_some_iff.mp hstd
    obtain ⟨held, hcell, -⟩ := exists_present hx
    obtain ⟨y, hy, -⟩ := Option.bind_eq_some_iff.mp hrest
    obtain ⟨heldOther, hcellOther, -⟩ := exists_present hy
    exact assignOptional_spec h hcell hcellOther hstd
  | reset this =>
    obtain ⟨x, hx, hlast⟩ := Option.bind_eq_some_iff.mp hstd
    obtain ⟨held, hcell, -⟩ := exists_present hx
    cases hlast
    obtain ⟨m', hdestruct, hsound⟩ := destruct_spec h hcell
    exact ⟨m', _, hdestruct, hsound, values_set⟩
  | emplace this args make =>
    obtain ⟨x, hx, hrest⟩ := Option.bind_eq_some_iff.mp hstd
    obtain ⟨held, hcell, -⟩ := exists_present hx
    obtain ⟨⟨xs, v₁⟩, hall, hlast⟩ := Option.bind_eq_some_iff.mp hrest
    cases hlast
    exact emplace_spec h hcell hall
  | destroy this =>
    obtain ⟨x, hx, hlast⟩ := Option.bind_eq_some_iff.mp hstd
    obtain ⟨held, hcell, -⟩ := exists_present hx
    cases hlast
    obtain ⟨m', hdestroy, hsound⟩ := destroy_spec h hcell
    exact ⟨m', _, hdestroy, hsound, values_set⟩

/-- The element is destroyed before it is read. -/
theorem step_selfRef {op : Op E} (h : Sound m temps cells)
    (hstd : Std.step gone op (values cells) = some v') (hself : SelfRef op) :
    step gone op m = none := by
  cases op with
  | assignValue this arg =>
    obtain ⟨ref, moved⟩ := arg
    cases hself
    obtain ⟨x, hx, hrest⟩ := Option.bind_eq_some_iff.mp hstd
    obtain ⟨⟨y, v₁⟩, hfetch, -⟩ := Option.bind_eq_some_iff.mp hrest
    obtain ⟨z, hz, -⟩ := Option.bind_eq_some_iff.mp hfetch
    obtain ⟨e, hcell, -⟩ := exists_held hz
    obtain ⟨m', hdestruct, hsound⟩ := destruct_spec h hcell
    have hlt : this < cells.length := (List.getElem?_eq_some_iff.mp hcell).1
    have hgone := hsound.opt_some (List.getElem?_set_self hlt)
    have hopt := h.opt_some hcell
    simp [step, assign, hopt, hdestruct, construct, fetch, hgone]
  | _ => exact hself.elim

end Members

section Runs
variable {m : Memory E} {v v' : Std E} {cells : Cells E}

/-- The elements that live in an optional. -/
def living (m : Memory E) : List Nat :=
  m.opts.flatMap fun o => ((o.bind Opt.mData).map Element.serial).toList

/-- What is asked of the memory after each operation: at every address there is an optional for
both or for neither, and `m_ptr` is the address of the own storage while an element lives in it,
whose value is the one of `std::optional`, and null otherwise. -/
structure AgreesWithStd (m : Memory E) (v : Std E) : Prop where
  holds : ∀ i, m.opt i = none ∧ v[i]?.join = none ∨ ∃ held : Option (Element E),
    m.opt i = some ⟨held.map fun _ => i, held⟩ ∧ v[i]?.join = some (held.map Element.value)
  once : (m.destroyed ++ living m).Perm (List.range m.constructed)

theorem living_eq (h : Sound m [] cells) : living m = serials cells := by
  have hcells : (layout cells).map (fun o => ((o.bind Opt.mData).map Element.serial).toList) =
      cells.map serialsOf := by
    apply List.ext_getElem?
    intro i
    rw [layout, List.getElem?_map, List.getElem?_mapIdx, List.getElem?_map]
    cases cells[i]? with
    | none => rfl
    | some c => cases c <;> rfl
  rw [living, h.opts, List.flatMap_def, hcells, serials, List.flatMap_def]

theorem Sound.agrees (h : Sound m [] cells) : AgreesWithStd m (values cells) := by
  constructor
  · intro i
    rw [h.opt, getElem?_values]
    cases cells[i]? with
    | none => exact .inl ⟨rfl, rfl⟩
    | some c =>
      cases c with
      | none => exact .inl ⟨rfl, rfl⟩
      | some held => exact .inr ⟨held, rfl, rfl⟩
  · rw [living_eq h, List.perm_iff_count]
    intro n
    have haccount := h.account n
    rw [List.count_append]
    simpa using haccount

theorem run_spec {gone : E → E} {ops : List (Op E)} (h : Sound m [] cells)
    (hstd : Std.run gone ops (values cells) = some v) (hself : ∀ op ∈ ops, ¬ SelfRef op) :
    ∃ m' cells', run gone ops m = some m' ∧ Sound m' [] cells' ∧ values cells' = v := by
  induction ops generalizing m cells with
  | nil =>
    cases hstd
    exact ⟨m, cells, rfl, h, rfl⟩
  | cons op ops ih =>
    rw [List.forall_mem_cons] at hself
    obtain ⟨v₁, hfirst, hrest⟩ := Option.bind_eq_some_iff.mp hstd
    obtain ⟨m₁, cells₁, hstep, hsound, rfl⟩ := step_spec h hfirst hself.1
    obtain ⟨m', cells', hrun, hlast⟩ := ih hsound hrest hself.2
    exact ⟨m', cells', by rw [run, hstep, Option.bind_some, hrun], hlast⟩

/-- In every run in which no value is assigned from the element that its target holds, each
operation does what `std::optional` does, and in every state reached such an assignment is the only
operation that reads an element behind its end. -/
theorem optional_runs (gone : E → E) (ops : List (Op E)) (v : Std E)
    (hstd : Std.run gone ops [] = some v) (hself : ∀ op ∈ ops, ¬ SelfRef op) :
    ∃ m, run gone ops ⟨[], 0, []⟩ = some m ∧ AgreesWithStd m v ∧
      ∀ op v', Std.step gone op v = some v' → ((step gone op m).isSome ↔ ¬ SelfRef op) := by
  have hempty : Sound (⟨[], 0, []⟩ : Memory E) [] [] := ⟨rfl, fun _ => rfl⟩
  obtain ⟨m, cells, hrun, hsound, rfl⟩ := run_spec hempty hstd hself
  refine ⟨m, hrun, hsound.agrees, fun op v' hop => ⟨fun hdefined hop' => ?_, fun hop' => ?_⟩⟩
  · rw [step_selfRef hsound hop hop'] at hdefined
    cases hdefined
  · obtain ⟨m', cells', hstep, -⟩ := step_spec hsound hop hop'
    rw [hstep]
    rfl

theorem optional_runs_two :
    ∃ m, run id [.createValue ⟨.outside 7, false⟩, .createOptional true 0] ⟨[], 0, []⟩ = some m ∧
      AgreesWithStd m [some (some 7), some (some 7)] := by
  obtain ⟨m, hrun, hagrees, -⟩ := optional_runs id
    [.createValue ⟨.outside 7, false⟩, .createOptional true 0] [some (some 7), some (some 7)]
    (by rfl) (by simp [SelfRef])
  exact ⟨m, hrun, hagrees⟩

/-- `o = *o` for an optional that holds a value. -/
theorem optional_assign_own :
    Std.run id [.createValue ⟨.outside 7, false⟩, .assignValue 0 ⟨.held 0, false⟩] [] =
        some [some (some 7)] ∧
      ¬ ∃ m, run id [.createValue ⟨.outside 7, false⟩, .assignValue 0 ⟨.held 0, false⟩]
        ⟨[], 0, []⟩ = some m ∧ AgreesWithStd m [some (some 7)] := by
  refine ⟨rfl, fun h => ?_⟩
  obtain ⟨m, hrun, -⟩ := h
  cases hrun

end Runs

end DocaApps.Proofs.OptionalRuns
