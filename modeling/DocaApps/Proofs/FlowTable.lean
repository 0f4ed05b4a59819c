import DocaApps.SimpleFwd.FlowTable
import DocaApps.Lib.Runs

namespace DocaApps.Proofs.FlowTable
open Lib.Runs SimpleFwd.FlowTable Relation

variable {κ : Type} [DecidableEq κ]

/-- The map that a record of changes leaves, on the keys as `π` sees them. -/
def contents (π : Key → κ) (history : List Change) : κ → Option Nat :=
  history.foldl (fun m change => match change with
    | .added key addr => Function.update m (π key) (some addr)
    | .removed key _ => Function.update m (π key) none) fun _ => none

theorem contents_added (π : Key → κ) (history : List Change) (key : Key) (addr : Nat) (k : κ) :
    contents π (history ++ [.added key addr]) k =
      if k = π key then some addr else contents π history k := by
  simp only [contents, List.foldl_append, List.foldl_cons, List.foldl_nil, Function.update_apply]

theorem contents_removed (π : Key → κ) (history : List Change) (key : Key) (addr : Nat) (k : κ) :
    contents π (history ++ [.removed key addr]) k =
      if k = π key then none else contents π history k := by
  simp only [contents, List.foldl_append, List.foldl_cons, List.foldl_nil, Function.update_apply]

def changedKey : Change → Key
  | .added key _ => key
  | .removed key _ => key

/-- A record whose keys carry their index reads the same without it. -/
theorem contents_indexed {ι : Type} [DecidableEq ι] (π : Key → κ) (index : Key → ι) (at' : κ → ι)
    (history : List Change) (h : ∀ c ∈ history, index (changedKey c) = at' (π (changedKey c)))
    (k : κ) :
    contents π history k = contents (fun key => (π key, index key)) history (k, at' k) := by
  induction history using List.reverseRecOn generalizing k with
  | nil => rfl
  | append_singleton history c ih =>
    have hpast : ∀ c ∈ history, index (changedKey c) = at' (π (changedKey c)) :=
      fun c hc => h c (List.mem_append_left _ hc)
    have hlast := h c (List.mem_append_right _ (List.mem_singleton_self c))
    have hkey : ∀ key, index key = at' (π key) → ((k, at' k) = (π key, index key) ↔ k = π key) := by
      intro key hi
      rw [hi, Prod.mk.injEq]
      exact ⟨And.left, fun h => ⟨h, by rw [h]⟩⟩
    cases c with
    | added key addr =>
      rw [contents_added, contents_added, ih hpast k]
      simp only [hkey key hlast]
    | removed key addr =>
      rw [contents_removed, contents_removed, ih hpast k]
      simp only [hkey key hlast]

/-- An entry as the table tells it from the others. -/
abbrev Tag := Nat × Key

def tag (e : FtEntry) : Tag := (e.addr, e.key)

/-- The table without the data its entries carry. -/
structure View where
  mask : UInt32
  add : UInt64
  rm : UInt64
  tags : UInt32 → List Tag
  nextAddr : Nat
  history : List Change

def view (ft : Ft) : View :=
  ⟨ft.mask, ft.add, ft.rm, fun i => (ft.buckets i).map tag, ft.nextAddr, ft.history⟩

def bucketOf (mask : UInt32) (key : Key) : UInt32 := key.rssHash &&& mask

def View.insert (v : View) (key : Key) : View :=
  let i := bucketOf v.mask key
  { v with
    add := v.add + 1
    tags := Function.update v.tags i ((v.nextAddr, key) :: v.tags i)
    nextAddr := v.nextAddr + 1
    history := v.history ++ [.added key v.nextAddr] }

def View.erase (v : View) (i : UInt32) (left : List Tag) (e : Tag) (right : List Tag) : View :=
  { v with
    rm := v.rm + 1
    tags := Function.update v.tags i (left ++ right)
    history := v.history ++ [.removed e.2 e.1] }

/-- All that can happen to a table: a key its bucket does not have is inserted, or an
entry is taken out. `Q` holds of the keys that come in. -/
inductive Move (Q : Key → Prop) : View → View → Prop
  | insert {v : View} {key : Key} (hQ : Q key)
      (hnew : ∀ e ∈ v.tags (bucketOf v.mask key), e.2.words ≠ key.words) :
      Move Q v (v.insert key)
  | erase {v : View} {i : UInt32} {left right : List Tag} {e : Tag}
      (htags : v.tags i = left ++ e :: right) : Move Q v (v.erase i left e right)

variable {Q : Key → Prop} {ft : Ft} {v v' : View}

theorem keyEqual_iff (k k' : Key) : keyEqual k k' = true ↔ k.words = k'.words := by
  simp only [keyEqual, beq_iff_eq, BitVec.ofNat_eq_ofNat, BitVec.or_eq_zero_iff,
    BitVec.xor_eq_zero_iff, Prod.ext_iff, and_assoc]

theorem tag_updateExpiration (e : FtEntry) (clock : Clock) :
    tag (updateExpiration e clock) = tag e := by
  unfold updateExpiration
  split <;> rfl

theorem view_setBucket {i : UInt32} {nodes : List FtEntry}
    (h : nodes.map tag = (ft.buckets i).map tag) : view (setBucket ft i nodes) = view ft := by
  simp only [view, setBucket, View.mk.injEq, true_and, and_true]
  funext j
  rcases eq_or_ne j i with rfl | hj
  · rw [Function.update_self, h]
  · rw [Function.update_of_ne hj]

theorem view_updateEntry (i : UInt32) (addr : Nat) {f : FtEntry → FtEntry}
    (hf : ∀ e, tag (f e) = tag e) : view (updateEntry ft i addr f) = view ft := by
  apply view_setBucket
  rw [List.map_map]
  apply List.map_congr_left
  intro e _
  simp only [Function.comp_apply]
  split
  · exact hf e
  · rfl

theorem findNode_tags (key : Key) (clock : Clock) (nodes : List FtEntry) :
    (findNode key clock nodes).2.map tag = nodes.map tag := by
  induction nodes with
  | nil => rfl
  | cons node rest ih =>
    unfold findNode
    split
    · simp only [List.map_cons, tag_updateExpiration]
    · simp only [List.map_cons, ih]

/-- The walk finds the first entry with the words of the key. -/
theorem findNode_found (key : Key) (clock : Clock) (nodes : List FtEntry) :
    (findNode key clock nodes).1 =
      ((nodes.map tag).find? fun e => e.2.words = key.words).map Prod.fst := by
  induction nodes with
  | nil => rfl
  | cons node rest ih =>
    unfold findNode
    by_cases hk : node.key.words = key.words
    · rw [if_pos ((keyEqual_iff _ _).mpr hk), List.map_cons,
        List.find?_cons_of_pos (by exact decide_eq_true hk)]
      rfl
    · rw [if_neg (fun h => hk ((keyEqual_iff _ _).mp h)), List.map_cons,
        List.find?_cons_of_neg (by rw [decide_eq_true_eq]; exact hk)]
      exact ih

/-- Looking a key up in the bucket of its hash. -/
def View.find (v : View) (key : Key) : Option Nat :=
  ((v.tags (bucketOf v.mask key)).find? fun e => e.2.words = key.words).map Prod.fst

theorem find_spec {pinfo : PktInfo} {key : Key} (hkey : keyFill pinfo = some key)
    (clock : Clock) :
    (simpleFwdFtFind ft pinfo clock).1 = ((view ft).find key).elim (.error .notFound) .ok ∧
      view (simpleFwdFtFind ft pinfo clock).2 = view ft := by
  have hfound := findNode_found key clock (ft.buckets (key.rssHash &&& ft.mask))
  have htags := view_setBucket (findNode_tags key clock (ft.buckets (key.rssHash &&& ft.mask)))
  change _ = (view ft).find key at hfound
  unfold simpleFwdFtFind
  rw [hkey, ← hfound]
  dsimp only
  cases (findNode key clock (ft.buckets (key.rssHash &&& ft.mask))).1 with
  | none => exact ⟨rfl, htags⟩
  | some ctx => exact ⟨rfl, htags⟩

theorem updateExpiration_addr (e : FtEntry) (clock : Clock) :
    (updateExpiration e clock).addr = e.addr :=
  congrArg Prod.fst (tag_updateExpiration e clock)

theorem addNew_added {pinfo : PktInfo} {key : Key} (hkey : keyFill pinfo = some key)
    (clock : Clock) :
    (simpleFwdFtAddNew ft pinfo clock true).1 = .ok ft.nextAddr ∧
      view (simpleFwdFtAddNew ft pinfo clock true).2 = (view ft).insert key := by
  have hhash : pinfo.rssHash = key.rssHash := by
    unfold keyFill at hkey
    split at hkey
    · contradiction
    · rw [← Option.some.inj hkey]
  unfold simpleFwdFtAddNew
  rw [hkey]
  simp only [Bool.not_true, Bool.false_eq_true, if_false, updateExpiration_addr, true_and]
  simp only [view, setBucket, View.insert, bucketOf, hhash, View.mk.injEq, true_and, and_true]
  funext j
  rcases eq_or_ne j (key.rssHash &&& ft.mask) with rfl | hj
  · simp only [Function.update_self, List.map_cons, tag_updateExpiration]
    rfl
  · simp only [Function.update_of_ne hj]

theorem find?_split {addr : Nat} {e : FtEntry} {nodes : List FtEntry}
    (h : nodes.find? (fun e => e.addr == addr) = some e) :
    e.addr = addr ∧ ∃ left right, nodes = left ++ e :: right ∧
      nodes.eraseP (fun e => e.addr == addr) = left ++ right := by
  obtain ⟨haddr, left, right, hnodes, hleft⟩ := List.find?_eq_some_iff_append.mp h
  refine ⟨eq_of_beq haddr, left, right, hnodes, ?_⟩
  rw [hnodes, List.eraseP_append_right _ (by simpa using hleft), List.eraseP_cons_of_pos (by exact haddr)]

theorem removed_move {i : UInt32} {left right : List Tag} {e : FtEntry} {nodes : List FtEntry}
    (hold : (ft.buckets i).map tag = left ++ tag e :: right)
    (hnew : nodes.map tag = left ++ right) :
    Move Q (view ft) (view { setBucket ft i nodes with
      rm := ft.rm + 1, history := ft.history ++ [.removed e.key e.addr] }) := by
  have h : view { setBucket ft i nodes with
      rm := ft.rm + 1, history := ft.history ++ [.removed e.key e.addr] } =
        (view ft).erase i left (tag e) right := by
    simp only [view, setBucket, View.erase, tag, View.mk.injEq, true_and, and_true]
    funext j
    rcases eq_or_ne j i with rfl | hj
    · simp only [Function.update_self]
      exact hnew
    · simp only [Function.update_of_ne hj]
  rw [h]
  exact .erase hold

theorem destroyEntry_moves (ft : Ft) (i : UInt32) (addr : Nat) :
    ReflTransGen (Move Q) (view ft) (view (destroyEntry ft i addr)) := by
  unfold destroyEntry
  cases h : (ft.buckets i).find? (fun e => e.addr == addr) with
  | none => exact .refl
  | some e =>
    obtain ⟨rfl, left, right, hnodes, herase⟩ := find?_split h
    have hold : (ft.buckets i).map tag = left.map tag ++ tag e :: right.map tag := by
      rw [hnodes, List.map_append, List.map_cons]
    exact .single (removed_move hold (by rw [herase, List.map_append]))

/-- What a sweep over a bucket gives: it removed one entry or none. -/
def Swept (nodes : List FtEntry) (r : Option FtEntry × List FtEntry) : Prop :=
  match r.1 with
  | none => r.2.map tag = nodes.map tag
  | some e => ∃ left right, nodes.map tag = left ++ tag e :: right ∧ r.2.map tag = left ++ right

theorem Swept.cons {node node' : FtEntry} {rest : List FtEntry}
    {r : Option FtEntry × List FtEntry} (htag : tag node' = tag node) (h : Swept rest r) :
    Swept (node :: rest) (r.1, node' :: r.2) := by
  obtain ⟨found, rest'⟩ := r
  cases found with
  | none =>
    change (node' :: rest').map tag = (node :: rest).map tag
    rw [List.map_cons, List.map_cons, htag, show rest'.map tag = rest.map tag from h]
  | some e =>
    obtain ⟨left, right, hold, hnew⟩ := h
    refine ⟨tag node :: left, right, ?_, ?_⟩
    · rw [List.map_cons, hold, List.cons_append]
    · rw [List.map_cons, hnew, htag, List.cons_append]

theorem agingNodes_swept (t : UInt64) (query : Query) (nodes : List FtEntry) :
    Swept nodes (agingNodes t query nodes) := by
  induction nodes with
  | nil => rfl
  | cons node rest ih =>
    have htake : Swept (node :: rest) (some node, rest) := ⟨[], rest.map tag, rfl, rfl⟩
    unfold agingNodes
    dsimp only
    split
    · split
      · exact htake
      · split
        · exact ih.cons rfl
        · exact htake
    · exact ih.cons rfl

theorem aging_moves (ft : Ft) (i : UInt32) (t : UInt64) (query : Query) (locked : Bool) :
    ReflTransGen (Move Q) (view ft) (view (agingFtEntry ft i t query locked)) := by
  have hspec := agingNodes_swept t query (ft.buckets i)
  unfold Swept at hspec
  unfold agingFtEntry
  cases locked with
  | false => exact .refl
  | true =>
    simp only [Bool.not_true, Bool.false_eq_true, if_false]
    cases h : (agingNodes t query (ft.buckets i)).1 with
    | none =>
      rw [h] at hspec
      rw [view_setBucket hspec]
    | some e =>
      rw [h] at hspec
      obtain ⟨left, right, hold, hnew⟩ := hspec
      exact .single (removed_move hold hnew)

theorem view_countPacket (ft : Ft) (i : UInt32) (ctx : Nat) :
    view (countPacket ft i ctx) = view ft :=
  view_updateEntry i ctx fun _ => rfl

theorem newFlow_moves {pinfo : PktInfo} {key : Key} (hkey : keyFill pinfo = some key)
    (hQ : Q key) (hmiss : (view ft).find key = none) (clock : Clock) (offload : Offload) :
    ReflTransGen (Move Q) (view ft)
      (view (simpleFwdHandleNewFlow ft pinfo clock offload).2) := by
  obtain ⟨allocated, hwEntry, ageSec⟩ := offload
  unfold simpleFwdHandleNewFlow
  cases allocated with
  | false =>
    simp only [simpleFwdFtAddNew, hkey, Bool.not_false, if_true]
    exact .refl
  | true =>
    have hnew : ∀ e ∈ (view ft).tags (bucketOf (view ft).mask key), e.2.words ≠ key.words := by
      intro e he heq
      have h := List.find?_eq_none.mp (Option.map_eq_none_iff.mp hmiss) e he
      exact h (decide_eq_true heq)
    obtain ⟨hok, hview⟩ := @addNew_added ft _ _ hkey clock
    have hmove : ReflTransGen (Move Q) (view ft)
        (view (simpleFwdFtAddNew ft pinfo clock true).2) := by
      rw [hview]
      exact .single (.insert hQ hnew)
    dsimp only
    generalize simpleFwdFtAddNew ft pinfo clock true = r at hok hmove
    obtain ⟨_, ft'⟩ := r
    subst hok
    cases hwEntry with
    | none =>
      refine hmove.trans ?_
      rw [← @view_updateEntry ft' (pinfo.rssHash &&& ft'.mask) ft.nextAddr
        (fun e => { e with pipeQueue := pinfo.pipeQueue, hwEntry := none }) fun _ => rfl]
      exact destroyEntry_moves _ _ _
    | some hw =>
      dsimp only
      rw [view_updateEntry, view_updateEntry]
      · exact hmove
      · exact fun _ => rfl
      · exact fun e => tag_updateExpiration { e with ageSec := ageSec } clock

theorem keyFill_of_needNewFt {pinfo : PktInfo} (h : needNewFt pinfo = true) :
    ∃ key, keyFill pinfo = some key := by
  unfold needNewFt at h
  unfold keyFill
  split at h
  · contradiction
  · rename_i hl3
    exact ⟨_, if_neg hl3⟩

theorem packet_moves {pinfo : PktInfo} (hQ : ∀ key, keyFill pinfo = some key → Q key) (ft : Ft)
    (clock : Clock) (offload : Offload) :
    ReflTransGen (Move Q) (view ft) (view (simpleFwdHandlePacket ft pinfo clock offload)) := by
  unfold simpleFwdHandlePacket
  cases hneed : needNewFt pinfo with
  | false => exact .refl
  | true =>
    obtain ⟨key, hkey⟩ := keyFill_of_needNewFt hneed
    obtain ⟨hfind, hview⟩ := @find_spec ft _ _ hkey clock
    simp only [Bool.not_true, Bool.false_eq_true, if_false]
    generalize simpleFwdFtFind ft pinfo clock = r at hfind hview
    obtain ⟨found, ft'⟩ := r
    dsimp only at hfind hview ⊢
    cases hm : (view ft).find key with
    | some ctx =>
      rw [hm] at hfind
      subst hfind
      simp only [Option.elim, view_countPacket, hview]
      exact .refl
    | none =>
      rw [hm] at hfind
      rw [← hview] at hm ⊢
      have hnew := newFlow_moves hkey (hQ key hkey) hm clock offload
      subst hfind
      simp only [Option.elim]
      generalize simpleFwdHandleNewFlow ft' pinfo clock offload = r at hnew
      obtain ⟨ctx, ft''⟩ := r
      cases ctx with
      | none => exact hnew
      | some ctx =>
        rw [view_countPacket]
        exact hnew

/-- The keys of the packets that come in have the property. -/
def KeysOf (Q : Key → Prop) : Event → Prop
  | .packet pinfo _ _ => ∀ key, keyFill pinfo = some key → Q key
  | _ => True

theorem step_moves {event : Event} (hQ : KeysOf Q event) :
    ReflTransGen (Move Q) (view ft) (view (step ft event)) := by
  cases event with
  | packet pinfo clock offload => exact packet_moves hQ ft clock offload
  | destroy i addr => exact destroyEntry_moves ft i addr
  | aging i t query locked => exact aging_moves ft i t query locked

theorem run_moves {events : List Event} (hQ : ∀ event ∈ events, KeysOf Q event) :
    ReflTransGen (Move Q) (view ft) (view (run step ft events)) := by
  induction events generalizing ft with
  | nil => exact .refl
  | cons event events ih =>
    have hfirst : ReflTransGen (Move Q) (view ft) _ := step_moves (hQ event List.mem_cons_self)
    exact hfirst.trans (ih fun e he => hQ e (List.mem_cons_of_mem _ he))

/-- What an entry is known by in its table: the words of its key and its bucket. -/
def placedKey (mask : UInt32) (key : Key) : Words × UInt32 := (key.words, bucketOf mask key)

def View.live (v : View) : Set Tag := {e | ∃ i, e ∈ v.tags i}

/-- The table is the map that its changes have made: every entry is in the bucket of
its hash, once, and the counters count the entries. -/
structure IsMap (Q : Key → Prop) (v : View) : Prop where
  placed : ∀ i, ∀ e ∈ v.tags i, bucketOf v.mask e.2 = i
  unique : ∀ i, (v.tags i).Pairwise fun e e' => e.2.words ≠ e'.2.words
  fresh : ∀ i, ∀ e ∈ v.tags i, e.1 < v.nextAddr
  recorded : ∀ words i addr, contents (placedKey v.mask) v.history (words, i) = some addr ↔
    ∃ e ∈ v.tags i, e.1 = addr ∧ e.2.words = words
  keys : (∀ i, ∀ e ∈ v.tags i, Q e.2) ∧ ∀ c ∈ v.history, Q (changedKey c)
  finite : v.live.Finite
  counted : v.add - v.rm = UInt64.ofNat v.live.ncard

theorem pairwise_words {tags : List Tag} {e e' : Tag}
    (h : tags.Pairwise fun e e' => e.2.words ≠ e'.2.words) (he : e ∈ tags) (he' : e' ∈ tags)
    (hwords : e.2.words = e'.2.words) : e = e' := by
  by_contra hne
  have : Std.Symm fun e e' : Tag => e.2.words ≠ e'.2.words := ⟨fun _ _ h => h.symm⟩
  exact h.forall he he' hne hwords

theorem find_eq_contents (h : IsMap Q v) (key : Key) :
    v.find key = contents (placedKey v.mask) v.history (placedKey v.mask key) := by
  apply Option.ext
  intro addr
  rw [placedKey, h.recorded]
  unfold View.find
  constructor
  · intro hfind
    obtain ⟨e, he, rfl⟩ := Option.map_eq_some_iff.mp hfind
    have hwords := List.find?_some he
    exact ⟨e, List.mem_of_find?_eq_some he, rfl, of_decide_eq_true hwords⟩
  · rintro ⟨e, hmem, rfl, hwords⟩
    cases hfind : (v.tags (bucketOf v.mask key)).find? fun e => e.2.words = key.words with
    | none =>
      have hnone := List.find?_eq_none.mp hfind e hmem
      exact absurd (decide_eq_true hwords) hnone
    | some e' =>
      have hwords' := List.find?_some hfind
      have heq : e' = e := pairwise_words (h.unique _) (List.mem_of_find?_eq_some hfind) hmem
        ((of_decide_eq_true hwords').trans hwords.symm)
      rw [heq]
      rfl

theorem mem_insert_tags {key : Key} {j : UInt32} {e : Tag} :
    e ∈ (v.insert key).tags j ↔
      (e = (v.nextAddr, key) ∧ j = bucketOf v.mask key) ∨ e ∈ v.tags j := by
  simp only [View.insert, Function.update_apply]
  split
  · rename_i hj
    rw [List.mem_cons, hj]
    simp only [and_true]
  · rename_i hj
    simp only [hj, and_false, false_or]

theorem insert_unique {key : Key} (h : IsMap Q v)
    (hnew : ∀ e ∈ v.tags (bucketOf v.mask key), e.2.words ≠ key.words) (j : UInt32) :
    ((v.insert key).tags j).Pairwise fun e e' => e.2.words ≠ e'.2.words := by
  simp only [View.insert, Function.update_apply]
  split
  · exact List.pairwise_cons.mpr ⟨fun e he => (hnew e he).symm, h.unique _⟩
  · exact h.unique j

theorem insert_recorded {key : Key} (h : IsMap Q v)
    (hnew : ∀ e ∈ v.tags (bucketOf v.mask key), e.2.words ≠ key.words) (words : Words)
    (j : UInt32) (addr : Nat) :
    contents (placedKey v.mask) (v.insert key).history (words, j) = some addr ↔
      ∃ e ∈ (v.insert key).tags j, e.1 = addr ∧ e.2.words = words := by
  simp only [mem_insert_tags]
  change contents _ (v.history ++ [.added key v.nextAddr]) _ = _ ↔ _
  rw [contents_added]
  by_cases hk : (words, j) = placedKey v.mask key
  · obtain ⟨rfl, rfl⟩ := Prod.mk.inj hk
    rw [if_pos hk, Option.some.injEq]
    constructor
    · rintro rfl
      exact ⟨_, .inl ⟨rfl, rfl⟩, rfl, rfl⟩
    · rintro ⟨e, ⟨rfl, -⟩ | he, haddr, hwords⟩
      · exact haddr
      · exact absurd hwords (hnew e he)
  · rw [if_neg hk, h.recorded]
    constructor
    · rintro ⟨e, he, haddr, hwords⟩
      exact ⟨e, .inr he, haddr, hwords⟩
    · rintro ⟨e, ⟨rfl, rfl⟩ | he, haddr, hwords⟩
      · exact absurd (congrArg (·, bucketOf v.mask key) hwords.symm) hk
      · exact ⟨e, he, haddr, hwords⟩

theorem insert_live (key : Key) : (v.insert key).live = insert (v.nextAddr, key) v.live := by
  ext e
  simp only [View.live, Set.mem_ofPred_eq, mem_insert_tags, Set.mem_insert_iff, exists_or,
    exists_and_left, exists_eq, and_true]

theorem insert_isMap {key : Key} (h : IsMap Q v) (hQ : Q key)
    (hnew : ∀ e ∈ v.tags (bucketOf v.mask key), e.2.words ≠ key.words) :
    IsMap Q (v.insert key) where
  placed := by
    intro i e he
    rcases mem_insert_tags.mp he with ⟨rfl, rfl⟩ | he
    · rfl
    · exact h.placed i e he
  unique := insert_unique h hnew
  fresh := by
    intro i e he
    rcases mem_insert_tags.mp he with ⟨rfl, -⟩ | he
    · exact Nat.lt_succ_self _
    · exact Nat.lt_succ_of_lt (h.fresh i e he)
  recorded := insert_recorded h hnew
  keys := by
    refine ⟨?_, ?_⟩
    · intro i e he
      rcases mem_insert_tags.mp he with ⟨rfl, -⟩ | he
      · exact hQ
      · exact h.keys.1 i e he
    · intro c hc
      rcases List.mem_append.mp hc with hc | hc
      · exact h.keys.2 c hc
      · rw [List.mem_singleton.mp hc]
        exact hQ
  finite := by
    rw [insert_live]
    exact h.finite.insert _
  counted := by
    have hfresh : (v.nextAddr, key) ∉ v.live := fun ⟨i, he⟩ => (h.fresh i _ he).ne rfl
    rw [insert_live, Set.ncard_insert_of_notMem hfresh h.finite, UInt64.ofNat_add, ← h.counted]
    change v.add + 1 - v.rm = v.add - v.rm + 1
    grind

variable {i : UInt32} {left right : List Tag} {e : Tag}

theorem mem_erase_tags (h : IsMap Q v) (htags : v.tags i = left ++ e :: right) {j : UInt32}
    {e' : Tag} : e' ∈ (v.erase i left e right).tags j ↔ e' ∈ v.tags j ∧ e' ≠ e := by
  have hmem : ∀ e', e' ∈ v.tags i ↔ e' = e ∨ e' ∈ left ++ right := by
    intro e'
    rw [htags, List.mem_append, List.mem_cons, List.mem_append]
    exact or_left_comm
  have hout : e ∉ left ++ right := by
    intro he
    have huniq := h.unique i
    rw [htags, List.pairwise_middle fun h => h.symm] at huniq
    exact (List.pairwise_cons.mp huniq).1 e he rfl
  simp only [View.erase, Function.update_apply]
  split
  · rename_i hj
    rw [hj, hmem]
    constructor
    · exact fun he => ⟨.inr he, fun heq => hout (heq ▸ he)⟩
    · exact fun ⟨he, hne⟩ => he.resolve_left hne
  · rename_i hj
    refine ⟨fun he => ⟨he, ?_⟩, And.left⟩
    rintro rfl
    have hi : e' ∈ v.tags i := (hmem e').mpr (.inl rfl)
    exact hj ((h.placed j e' he).symm.trans (h.placed i e' hi))

theorem erase_live (h : IsMap Q v) (htags : v.tags i = left ++ e :: right) :
    (v.erase i left e right).live = v.live \ {e} := by
  ext e'
  simp only [View.live, Set.mem_ofPred_eq, mem_erase_tags h htags, exists_and_right, Set.mem_sdiff,
    Set.mem_singleton_iff, ne_eq]

theorem erase_recorded (h : IsMap Q v) (htags : v.tags i = left ++ e :: right) (words : Words)
    (j : UInt32) (addr : Nat) :
    contents (placedKey v.mask) (v.erase i left e right).history (words, j) = some addr ↔
      ∃ e' ∈ (v.erase i left e right).tags j, e'.1 = addr ∧ e'.2.words = words := by
  have he : e ∈ v.tags i := by rw [htags]; exact List.mem_append_right _ List.mem_cons_self
  simp only [mem_erase_tags h htags]
  change contents _ (v.history ++ [.removed e.2 e.1]) _ = _ ↔ _
  rw [contents_removed]
  by_cases hk : (words, j) = placedKey v.mask e.2
  · obtain ⟨rfl, rfl⟩ := Prod.mk.inj hk
    rw [if_pos hk]
    constructor
    · exact fun hnone => nomatch hnone
    · rintro ⟨e', ⟨he', hne⟩, -, hwords⟩
      rw [h.placed i e he] at he'
      exact absurd (pairwise_words (h.unique i) he' he hwords) hne
  · rw [if_neg hk, h.recorded]
    constructor
    · rintro ⟨e', he', haddr, hwords⟩
      refine ⟨e', ⟨he', ?_⟩, haddr, hwords⟩
      rintro rfl
      exact hk (Prod.ext hwords.symm (h.placed j e' he').symm)
    · rintro ⟨e', ⟨he', -⟩, haddr, hwords⟩
      exact ⟨e', he', haddr, hwords⟩

theorem erase_isMap (h : IsMap Q v) (htags : v.tags i = left ++ e :: right) :
    IsMap Q (v.erase i left e right) where
  placed j e' he' := h.placed j e' ((mem_erase_tags h htags).mp he').1
  unique := by
    intro j
    have huniq := h.unique j
    simp only [View.erase, Function.update_apply]
    split
    · rename_i hj
      rw [hj, htags] at huniq
      exact huniq.sublist ((List.sublist_cons_self e right).append_left left)
    · exact huniq
  fresh j e' he' := h.fresh j e' ((mem_erase_tags h htags).mp he').1
  recorded := erase_recorded h htags
  keys := by
    refine ⟨fun j e' he' => h.keys.1 j e' ((mem_erase_tags h htags).mp he').1, ?_⟩
    intro c hc
    rcases List.mem_append.mp hc with hc | hc
    · exact h.keys.2 c hc
    · rw [List.mem_singleton.mp hc]
      apply h.keys.1 i
      rw [htags]
      exact List.mem_append_right _ List.mem_cons_self
  finite := by
    rw [erase_live h htags]
    exact h.finite.sdiff
  counted := by
    have he : e ∈ v.live := ⟨i, by rw [htags]; exact List.mem_append_right _ List.mem_cons_self⟩
    have hcard := Set.ncard_sdiff_singleton_add_one he h.finite
    have hcounted := h.counted
    rw [← hcard, UInt64.ofNat_add] at hcounted
    rw [erase_live h htags]
    change v.add - (v.rm + 1) = _
    grind

theorem moves_isMap (hmoves : ReflTransGen (Move Q) v v') (h : IsMap Q v) : IsMap Q v' := by
  induction hmoves with
  | refl => exact h
  | tail _ hmove ih =>
    cases hmove with
    | insert hQ hnew => exact insert_isMap ih hQ hnew
    | erase htags => exact erase_isMap ih htags

theorem moves_mask (hmoves : ReflTransGen (Move Q) v v') : v'.mask = v.mask := by
  induction hmoves with
  | refl => rfl
  | tail _ hmove ih =>
    cases hmove with
    | insert => exact ih
    | erase => exact ih

def entries (ft : Ft) : Set FtEntry := {e | ∃ i, e ∈ ft.buckets i}

/-- No two entries of the table have keys that `π` takes to the same. -/
def AtMostOne (π : Key → κ) (ft : Ft) : Prop :=
  (∀ i, (ft.buckets i).Pairwise fun e e' => π e.key ≠ π e'.key) ∧
    ∀ i j e e', i ≠ j → e ∈ ft.buckets i → e' ∈ ft.buckets j → π e.key ≠ π e'.key

/-- The table is a finite map on its keys as `π` sees them; `Q` holds of the keys that
are looked up. -/
structure RefinesMap (π : Key → κ) (Q : Key → Prop) (ft : Ft) : Prop where
  unique : AtMostOne π ft
  find : ∀ pinfo key clock, keyFill pinfo = some key → Q key →
    (simpleFwdFtFind ft pinfo clock).1 =
      (contents π ft.history (π key)).elim (.error .notFound) .ok
  placed : ∀ i, ∀ e ∈ ft.buckets i, e.key.rssHash &&& ft.mask = i
  finite : (entries ft).Finite
  counted : ft.add - ft.rm = UInt64.ofNat (entries ft).ncard

theorem tag_injOn (h : IsMap Q (view ft)) : Set.InjOn tag (entries ft) := by
  rintro e ⟨i, he⟩ e' ⟨j, he'⟩ htag
  have hkey : e.key = e'.key := congrArg Prod.snd htag
  have hi := h.placed i (tag e) (List.mem_map_of_mem he)
  have hj := h.placed j (tag e') (List.mem_map_of_mem he')
  obtain rfl : i = j := by rw [← hi, ← hj, htag]
  have huniq := List.pairwise_map.mp (h.unique i)
  have : Std.Symm fun e e' : FtEntry => (tag e).2.words ≠ (tag e').2.words :=
    ⟨fun _ _ h => h.symm⟩
  by_contra hne
  exact huniq.forall he he' hne (congrArg Key.words hkey)

theorem view_live (ft : Ft) : (view ft).live = tag '' entries ft := by
  ext t
  simp only [View.live, view, Set.mem_ofPred_eq, List.mem_map, entries, Set.mem_image]
  constructor
  · rintro ⟨i, e, he, rfl⟩
    exact ⟨e, ⟨i, he⟩, rfl⟩
  · rintro ⟨e, ⟨i, he⟩, rfl⟩
    exact ⟨i, e, he, rfl⟩

/-- A view that is a map on the pairs of a key and its bucket makes the table one on
every reading of the keys that tells such pairs apart and agrees on the changes. -/
theorem refines_of_isMap {Q' : Key → Prop} {π : Key → κ} (h : IsMap Q (view ft))
    (hπ : ∀ key key', Q key → Q key' → π key = π key' →
      placedKey ft.mask key = placedKey ft.mask key')
    (hcontents : ∀ key, Q' key → contents π ft.history (π key) =
      contents (placedKey ft.mask) ft.history (placedKey ft.mask key)) :
    RefinesMap π Q' ft where
  unique := by
    have hQ : ∀ i, ∀ e ∈ ft.buckets i, Q e.key := fun i e he =>
      h.keys.1 i (tag e) (List.mem_map_of_mem he)
    have hplaced : ∀ i, ∀ e ∈ ft.buckets i, bucketOf ft.mask e.key = i := fun i e he =>
      h.placed i (tag e) (List.mem_map_of_mem he)
    refine ⟨?_, ?_⟩
    · intro i
      refine (List.pairwise_map.mp (h.unique i)).imp_of_mem ?_
      intro e e' he he' hne heq
      have hkey := hπ e.key e'.key (hQ i e he) (hQ i e' he') heq
      exact hne (congrArg Prod.fst hkey)
    · intro i j e e' hij he he' heq
      have hkey := hπ e.key e'.key (hQ i e he) (hQ j e' he') heq
      apply hij
      rw [← hplaced i e he, ← hplaced j e' he']
      exact congrArg Prod.snd hkey
  find := by
    intro pinfo key clock hkey hQ'
    rw [(find_spec hkey clock).1, find_eq_contents h, hcontents key hQ']
    rfl
  placed i e he := h.placed i (tag e) (List.mem_map_of_mem he)
  finite := by
    apply Set.Finite.of_finite_image _ (tag_injOn h)
    rw [← view_live]
    exact h.finite
  counted := by
    rw [← (tag_injOn h).ncard_image, ← view_live]
    exact h.counted

theorem created_isMap {nbFlows : Int} {allocated : Bool}
    (hft : simpleFwdFtCreate nbFlows allocated = some ft) : IsMap Q (view ft) := by
  have hempty : ft.add = 0 ∧ ft.rm = 0 ∧ (∀ i, ft.buckets i = []) ∧ ft.history = [] := by
    unfold simpleFwdFtCreate at hft
    split at hft
    · contradiction
    · dsimp only at hft
      split at hft
      · obtain rfl := Option.some.inj hft
        exact ⟨rfl, rfl, fun _ => rfl, rfl⟩
      · contradiction
  obtain ⟨hadd, hrm, hbuckets, hhistory⟩ := hempty
  have htags : ∀ i, (view ft).tags i = [] := by
    intro i
    simp only [view, hbuckets, List.map_nil]
  have hlive : (view ft).live = ∅ := by
    ext e
    simp only [View.live, htags, List.not_mem_nil, exists_false, Set.mem_ofPred_eq,
      Set.mem_empty_iff_false]
  have hpast : (view ft).history = [] := hhistory
  constructor
  · simp [htags]
  · simp [htags]
  · simp [htags]
  · simp [htags, hpast, contents]
  · simp [htags, hpast]
  · simp [hlive]
  · rw [hlive, Set.ncard_empty]
    change ft.add - ft.rm = _
    rw [hadd, hrm]
    rfl

/-- After every run from its creation the table is a finite map on the keys together
with their buckets, and on the keys alone when equal keys come with equal buckets. -/
theorem table_refines_map {nbFlows : Int} {allocated : Bool}
    (hft : simpleFwdFtCreate nbFlows allocated = some ft) (events : List Event) :
    RefinesMap (placedKey ft.mask) (fun _ => True) (run step ft events) ∧
      ∀ bucket : Words → UInt32,
        (∀ event ∈ events, KeysOf (fun key => key.rssHash &&& ft.mask = bucket key.words) event) →
        RefinesMap Key.words (fun key => key.rssHash &&& ft.mask = bucket key.words)
          (run step ft events) := by
  have hrun : ∀ Q : Key → Prop, (∀ event ∈ events, KeysOf Q event) →
      (run step ft events).mask = ft.mask ∧ IsMap Q (view (run step ft events)) := by
    intro Q hQ
    have hmoves : ReflTransGen (Move Q) (view ft) _ := run_moves hQ
    exact ⟨moves_mask hmoves, moves_isMap hmoves (created_isMap hft)⟩
  constructor
  · have hany : ∀ event ∈ events, KeysOf (fun _ => True) event := by
      intro event _
      cases event <;> simp [KeysOf]
    obtain ⟨hmask, hmap⟩ := hrun _ hany
    refine refines_of_isMap hmap ?_ ?_
    · rw [hmask]
      exact fun _ _ _ _ h => h
    · rw [hmask]
      exact fun _ _ => rfl
  · intro bucket hbucket
    obtain ⟨hmask, hmap⟩ := hrun _ hbucket
    refine refines_of_isMap hmap ?_ ?_
    · intro key key' hkey hkey' hwords
      rw [hmask]
      refine Prod.ext hwords ?_
      change key.rssHash &&& ft.mask = key'.rssHash &&& ft.mask
      rw [hkey, hkey', hwords]
    · intro key hkey
      have hread := contents_indexed Key.words (bucketOf ft.mask) bucket _ hmap.keys.2 key.words
      rw [← hkey] at hread
      rw [hmask]
      exact hread

/-- A packet of one inner flow, that the sender's tunnel gave this outer source port. -/
def vxlanPacket (srcPort : BitVec 16) (rssHash : UInt32) : PktInfo where
  origPortId := 0
  pipeQueue := 0
  rssHash := rssHash
  outer := ⟨ipv4, docaProtoUdp, 0x0a000001, 0x0a000002, srcPort, 4789⟩
  tunType := .vxlan
  vni := 7
  inner := ⟨ipv4, docaProtoTcp, 0xc0a80001, 0xc0a80002, 1234, 80⟩

def offloaded : Offload := ⟨true, some 1, 60⟩

def vxlanEvent (srcPort : BitVec 16) (rssHash : UInt32) : Event :=
  .packet (vxlanPacket srcPort rssHash) ⟨0, 1⟩ offloaded

/-- The table of the application. -/
def emptyTable : Ft := ⟨16384, 16383, 0, 0, 0, fun _ => [], 0, []⟩

theorem simpleFwd_table : simpleFwdFtCreate 8096 true = some emptyTable := rfl

theorem table_refines_map_twice :
    simpleFwdFtCreate 8096 true = some emptyTable ∧
      RefinesMap Key.words (fun key => key.rssHash &&& 16383 = 5)
        (run step emptyTable [vxlanEvent 1 5, vxlanEvent 2 5]) := by
  refine ⟨rfl, (table_refines_map simpleFwd_table _).2 (fun _ => 5) ?_⟩
  have hkeys : ∀ srcPort, KeysOf (fun key => key.rssHash &&& 16383 = 5)
      (vxlanEvent srcPort 5) := by
    rintro srcPort key hkey
    obtain rfl := Option.some.inj hkey
    change (5 : UInt32) &&& 16383 = 5
    decide
  intro event hevent
  rcases List.mem_cons.mp hevent with rfl | hevent
  · exact hkeys 1
  · rw [List.mem_singleton.mp hevent]
    exact hkeys 2

/-- The hash is taken over the outer headers, the key over the inner ones: two packets of
one flow end up in two buckets, each with an entry for the flow. -/
theorem outer_hash_duplicates_key :
    ¬ ∀ (hash : PktInfo → UInt32) (ft : Ft) (events : List Event),
      simpleFwdFtCreate 8096 true = some ft →
      (∀ event ∈ events, ∀ pinfo clock offload, event = .packet pinfo clock offload →
        pinfo.rssHash = hash { pinfo with rssHash := 0 }) →
      AtMostOne Key.words (run step ft events) := by
  intro h
  let events := [vxlanEvent 1 1, vxlanEvent 2 2]
  have hunique := h (fun pinfo => UInt32.ofNat pinfo.outer.srcPort.toNat) emptyTable events
    simpleFwd_table (by
      intro event hevent pinfo clock offload heq
      subst heq
      simp only [events, vxlanEvent, List.mem_cons, Event.packet.injEq, List.not_mem_nil,
        or_false] at hevent
      rcases hevent with ⟨rfl, -⟩ | ⟨rfl, -⟩ <;> rfl)
  obtain ⟨e, he, e', he', hwords⟩ :
      ∃ e ∈ (run step emptyTable events).buckets 1,
        ∃ e' ∈ (run step emptyTable events).buckets 2, e.key.words = e'.key.words := by
    decide +kernel
  exact hunique.2 1 2 e e' (by decide) he he' hwords

end DocaApps.Proofs.FlowTable
