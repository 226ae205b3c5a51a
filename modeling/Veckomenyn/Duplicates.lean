import Veckomenyn.Dinners
import Veckomenyn.Preferences
import Veckomenyn.Waiting

/-!
One row for each category of the preferences.

An upsert deletes the rows its DELETE sees and inserts one. A row of the category that is
committed after the DELETE was sent stays, whether the upsert waited or not, so the category
has one row as long as no upsert commits on top of such a row.
-/

namespace Veckomenyn.Duplicates

open Rows Schema Sql Txn Tools Preferences

/-! ### What a statement finds -/

/-- The rows of `t` that `v` has too. -/
def only {α : Type} [Keyed α] (v t : Table α) : Table α where
  rows := t.rows.filter fun r => (v.find? (Keyed.key r)).isSome
  next := t.next
  nodup := t.nodup.sublist ((List.filter_sublist).map _)
  fresh r hr := t.fresh r (List.mem_of_mem_filter hr)

instance : Versions Db where
  found v d :=
    { weeks := only v.weeks d.weeks
      dinners := only v.dinners d.dinners
      exceptions := only v.exceptions d.exceptions
      retrospectives := only v.retrospectives d.retrospectives
      ratings := only v.ratings d.ratings
      cartItems := only v.cartItems d.cartItems
      dishes := only v.dishes d.dishes
      principles := only v.principles d.principles
      settings := d.settings }

/-! ### The writers -/

inductive Job where
  | updatePreference (input : Option PreferenceInput)
  | put (category : String) (body : Except String PreferencePatch)
  | delete (category : String)
  | seed (entries : List Entry)

namespace Job

def Err : Job → Type
  | updatePreference _ => WkCtx.ToolError
  | put _ _ => Resp
  | delete _ => Resp
  | seed _ => ℕ × SeedError

def Res : Job → Type
  | updatePreference _ => String
  | put _ _ => Resp
  | delete _ => Resp
  | seed _ => ℕ

def prog : (j : Job) → Prog Empty Empty.elim j.Err j.Res
  | updatePreference input => updatePreferenceTool input
  | put category body => handlePutPreference category body
  | delete category => handleDeletePreference category
  | seed entries => seedPreferences entries

end Job

variable {ι : Type} [Fintype ι] [DecidableEq ι]

abbrev Server (job : ι → Job) := Staged Db Write DbError Label Empty Empty.elim ι
  (fun i => (job i).Err) (fun i => (job i).Res)

/-- The writers that run together on `d`. -/
def together (job : ι → Job) (d : Db) : Server job := Staged.start d fun i => (job i).prog

/-- What is committed. -/
def rowsIn {job : ι → Job} (s : Server job) : List Principle := s.sys.db.principles.rows

/-- Every category has at most one row. -/
def OneEach (rows : List Principle) : Prop :=
  ∀ r ∈ rows, ∀ r' ∈ rows, r.category = r'.category → r = r'

instance (rows : List Principle) : Decidable (OneEach rows) := by unfold OneEach; infer_instance

/-- The rows that were committed when each client sent its DELETE. -/
abbrev Saw (ι : Type) := ι → List Principle

section

variable {job : ι → Job}

def watch (s : Server job) (i : ι) (saw : Saw ι) : Saw ι :=
  if (s.sys.cl i).next? = some .deletePrinciple ∧ (s.seen i).isNone then
    Function.update saw i (rowsIn s)
  else saw

/-- The client is not about to commit an upsert of a category that has a row which was committed
after the client sent its DELETE. -/
def UpToDate (s : Server job) (i : ι) (saw : Saw ι) : Prop :=
  (s.sys.cl i).commits = true → ∀ p, Write.principle (.put p) ∈ (s.sys.cl i).pend →
    ∀ r ∈ rowsIn s, r.category = p.category → r ∈ saw i

/-- The clients are up to date along the run. -/
def Current : Saw ι → Server job → List ι → Prop
  | _, _, [] => True
  | saw, s, i :: is => UpToDate s i saw ∧ Current (watch s i saw) (s.next i) is

end

/-! ### What the writers do -/

variable {ε α : Type}

/-- The DELETE and the INSERT of a category, whatever becomes of their errors. -/
inductive IsUpsert (c b : String) {γ δ : Type} : Tx γ δ → Prop
  | mk (f g : DbError → γ) (a : δ) : IsUpsert c b
      (.stmt (deletePrinciples c) f fun _ => .stmt (insertPrinciple c b) g fun _ => .ret (.ok a))

/-- The statement writes nothing but deletions of preferences. -/
def Removes {β : Type} (t : Stmt β) : Prop :=
  ∀ d ws b, t.run d = .ok (ws, b) → ∀ w ∈ ws, ∃ k, w = Write.principle (.del k)

/-- The program writes by upserts and deletions of preferences alone. -/
def Writes : Prog Empty Empty.elim ε α → Prop
  | .ret _ => True
  | .auto t k => Removes t ∧ ∀ r, Writes (k r)
  | .tx body k => (∃ c b, IsUpsert c b body) ∧ ∀ r, Writes (k r)
  | .ask q _ => q.elim

lemma Writes.bind {β : Type} {x : Prog Empty Empty.elim ε α}
    {f : α → Prog Empty Empty.elim ε β} (hx : Writes x) (hf : ∀ a, Writes (f a)) :
    Writes (x >>= f) := by
  show Writes (x.bind f)
  induction x with
  | ret r =>
    cases r with
    | ok a => exact hf a
    | error e => trivial
  | auto t k ih => exact ⟨hx.1, fun r => ih r (hx.2 r)⟩
  | tx body k ih => exact ⟨hx.1, fun r => ih r (hx.2 r)⟩
  | ask q k ih => exact q.elim

lemma writes_query {β : Type} {t : Stmt β} {fail : DbError → ε} (ht : Removes t) :
    Writes (Prog.query t fail : Prog Empty Empty.elim ε β) :=
  ⟨ht, fun r => by cases r <;> trivial⟩

lemma writes_upsert {γ δ : Type} {c b : String} {body : Tx γ δ} (h : IsUpsert c b body) :
    Writes (Prog.transaction body : Prog Empty Empty.elim γ δ) :=
  ⟨⟨c, b, h⟩, fun _ => trivial⟩

lemma removes_select {β : Type} (l : Label) (f : Db → β) : Removes (select l f) := by
  rintro d ws b ⟨⟩ w hw
  exact absurd hw List.not_mem_nil

lemma removes_delete (c : String) : Removes (deletePreference c) := by
  rintro d ws b ⟨⟩ w hw
  simp only [List.map_map, List.mem_map, Function.comp_apply] at hw
  obtain ⟨r, -, rfl⟩ := hw
  exact ⟨r.id, rfl⟩

lemma writes_updatePreference (input : Option PreferenceInput) :
    Writes (updatePreferenceTool input : Prog Empty Empty.elim _ _) := by
  refine Writes.bind ?_ fun i => Writes.bind (writes_upsert (.mk _ _ ())) fun _ => trivial
  cases input <;> trivial

lemma writes_put (c : String) (body : Except String PreferencePatch) :
    Writes (handlePutPreference c body : Prog Empty Empty.elim _ _) := by
  unfold handlePutPreference
  split_ifs
  · trivial
  · rcases body with e | ⟨_ | b⟩
    · trivial
    · trivial
    · refine Writes.bind (writes_upsert (.mk _ _ ())) fun _ => ?_
      refine (writes_query (removes_select _ _)).bind fun out => ?_
      cases out <;> trivial

lemma writes_delete (c : String) :
    Writes (handleDeletePreference c : Prog Empty Empty.elim _ _) := by
  unfold handleDeletePreference
  split_ifs
  · trivial
  · refine (writes_query (removes_delete c)).bind fun n => ?_
    split_ifs <;> trivial

lemma writes_seed (n : ℕ) (entries : List Entry) :
    Writes (seedFrom n entries : Prog Empty Empty.elim _ _) := by
  induction entries generalizing n with
  | nil => trivial
  | cons e es ih =>
    unfold seedFrom
    split_ifs
    · exact ih n
    · rcases stem? e.name with _ | c
      · exact ih n
      · exact Writes.bind (writes_upsert (.mk _ _ ())) fun _ => ih (n + 1)

lemma writes_prog (j : Job) : Writes j.prog := by
  cases j with
  | updatePreference input => exact writes_updatePreference input
  | put c body => exact writes_put c body
  | delete c => exact writes_delete c
  | seed entries => exact writes_seed 0 entries

/-! ### Rows of the table -/

lemma mem_only {v t : Table Principle} {r : Principle} :
    r ∈ (only v t).rows ↔ r ∈ t.rows ∧ ∃ r' ∈ v.rows, r'.id = r.id := by
  rw [only, List.mem_filter]
  refine and_congr_right fun _ => ?_
  rw [Option.isSome_iff_ne_none, ne_eq, Table.find?_eq_none_iff, not_not]
  rfl

def dels (ids : List ℤ) : List Write := (ids.map .del).map .principle

lemma run_delete (c : String) (d : Db) : (deletePrinciples c).run d =
    .ok (dels ((d.principles.rows.filter fun r => r.category = c).map Principle.id), ()) := rfl

lemma run_insert (c b : String) (d : Db) : (insertPrinciple c b).run d =
    .ok ([.principle (.put ⟨d.principles.next, c, b⟩)], ()) := rfl

lemma put_notMem_dels {p : Principle} {ids : List ℤ} : Write.principle (.put p) ∉ dels ids := by
  simp [dels]

lemma rows_dels (d : Db) (ids : List ℤ) {r : Principle} :
    r ∈ (applyAll d (dels ids)).principles.rows ↔ r ∈ d.principles.rows ∧ r.id ∉ ids := by
  rw [dels, applyAll_principles]
  exact Table.mem_applyAll_del

/-- Deletions leave the rest of the rows. -/
lemma rows_of_removes {d : Db} {ws : List Write}
    (h : ∀ w ∈ ws, ∃ k, w = Write.principle (.del k)) :
    (∀ r ∈ (applyAll d ws).principles.rows, r ∈ d.principles.rows) ∧
      (applyAll d ws).principles.next = d.principles.next := by
  have keep (hw : ∀ w ∈ ws, ∀ d' : Db,
      ((∀ r ∈ d'.principles.rows, r ∈ d.principles.rows) ∧
        d'.principles.next = d.principles.next) →
      (∀ r ∈ (Database.apply d' w).principles.rows, r ∈ d.principles.rows) ∧
        (Database.apply d' w).principles.next = d.principles.next) :=
    applyAll_induction (d := d) ⟨fun _ hr => hr, rfl⟩ hw
  refine keep fun w hw d' hd' => ?_
  obtain ⟨k, rfl⟩ := h w hw
  exact ⟨fun r hr => hd'.1 r (Table.mem_del.mp hr).1, hd'.2⟩

lemma next_le_reserveAll (d : Db) (ws : List Write) :
    d.principles.next ≤ (reserveAll d ws).principles.next := by
  induction ws generalizing d with
  | nil => exact le_rfl
  | cons w ws ih =>
    refine le_trans ?_ (ih (Database.reserve d w))
    cases w <;> first | exact le_rfl | exact Table.next_le_reserveFor _ _

/-- What has been drawn is not drawn again. -/
lemma lt_next_of_drawn (d : Db) {ws : List Write} {p : Principle}
    (h : Write.principle (.put p) ∈ ws) : p.id < (reserveAll d ws).principles.next := by
  induction ws generalizing d with
  | nil => exact absurd h List.not_mem_nil
  | cons w ws ih =>
    rcases List.mem_cons.mp h with rfl | h
    · refine lt_of_lt_of_le ?_ (next_le_reserveAll _ ws)
      show p.id < max _ (p.id + 1)
      omega
    · exact ih _ h

lemma next_le_applyAll (d : Db) (ws : List Write) :
    d.principles.next ≤ (applyAll d ws).principles.next := by
  induction ws generalizing d with
  | nil => exact le_rfl
  | cons w ws ih =>
    refine le_trans ?_ (ih (Database.apply d w))
    cases w <;> first | exact le_rfl | exact Table.next_le_apply _ _

/-! ### Where the clients stand -/

abbrev Place (ε α : Type) := Client Db Write DbError Label Empty Empty.elim ε α

/-- Where a client stands that has the statement under way which saw `v`, and whose DELETE saw
`saw`. -/
inductive Stage (rows saw : List Principle) (v : Option Db) (place : Place ε α) : Prop
  | outside {p : Prog Empty Empty.elim ε α} (hc : place = .idle p) (hp : Writes p)
  | begun {γ δ : Type} {c b : String} {body : Tx γ δ} {k : Except γ δ → Prog Empty Empty.elim ε α}
      (hc : place = .inTx [] body k) (hb : IsUpsert c b body) (hk : ∀ r, Writes (k r))
      (hv : ∀ d ∈ v, d.principles.rows = saw)
  | deleted {γ δ : Type} {c b : String} {ids : List ℤ} {g : DbError → γ} {a : δ}
      {k : Except γ δ → Prog Empty Empty.elim ε α}
      (hc : place = .inTx (dels ids)
        (.stmt (insertPrinciple c b) g fun _ => .ret (.ok a)) k) (hk : ∀ r, Writes (k r))
      (hids : ∀ n ∈ ids, n ∈ saw.map Principle.id)
      (hgone : ∀ r ∈ rows, r.category = c → r ∈ saw → r.id ∈ ids)
  | inserted {γ δ : Type} {c b : String} {ids : List ℤ} {n : ℤ} {a : δ}
      {k : Except γ δ → Prog Empty Empty.elim ε α}
      (hc : place = .inTx (dels ids ++ [.principle (.put ⟨n, c, b⟩)])
        (.ret (.ok a) : Tx γ δ) k) (hk : ∀ r, Writes (k r))
      (hids : ∀ n ∈ ids, n ∈ saw.map Principle.id)
      (hgone : ∀ r ∈ rows, r.category = c → r ∈ saw → r.id ∈ ids)

/-- A client is where it was when no row it saw comes back. -/
lemma Stage.congr {rows rows' saw : List Principle} {v : Option Db} {place : Place ε α}
    (h : Stage rows saw v place) (hr : ∀ r ∈ rows', r ∈ saw → r ∈ rows) :
    Stage rows' saw v place := by
  cases h with
  | outside hc hp => exact .outside hc hp
  | begun hc hb hk hv => exact .begun hc hb hk hv
  | deleted hc hk hids hgone =>
    exact .deleted hc hk hids fun r hm hcat hs => hgone r (hr r hm hs) hcat hs
  | inserted hc hk hids hgone =>
    exact .inserted hc hk hids fun r hm hcat hs => hgone r (hr r hm hs) hcat hs

/-- A row about to be committed is new to all. -/
structure New (rows : List Principle) (saw : Saw ι) (drawn : List Write) (p : Principle) :
    Prop where
  drawn : Write.principle (.put p) ∈ drawn
  rows : ∀ r ∈ rows, r.id ≠ p.id
  saw : ∀ i, ∀ r ∈ saw i, r.id ≠ p.id

structure Sound {job : ι → Job} (s : Server job) (saw : Saw ι) : Prop where
  stage : ∀ i, Stage (rowsIn s) (saw i) (s.seen i) (s.sys.cl i)
  busy : ∀ i, (s.sys.cl i).next? = none → s.seen i = none
  same : ∀ i, ∀ r ∈ rowsIn s, ∀ r' ∈ saw i, r.id = r'.id → r = r'
  old : ∀ i, ∀ r ∈ saw i, r.id < s.sys.db.principles.next
  fresh : ∀ i p, Write.principle (.put p) ∈ (s.sys.cl i).pend → New (rowsIn s) saw s.sys.drawn p
  apart : ∀ i j p q, i ≠ j → Write.principle (.put p) ∈ (s.sys.cl i).pend →
    Write.principle (.put q) ∈ (s.sys.cl j).pend → p.id ≠ q.id

section

variable {job : ι → Job} {s s' : Server job} {saw : Saw ι} {i : ι}

omit [Fintype ι] in
lemma watch_of_ne {j : ι} (hj : j ≠ i) : watch s i saw j = saw j := by
  unfold watch
  split_ifs
  · exact Function.update_of_ne hj ..
  · rfl

omit [Fintype ι] in
lemma watch_self : watch s i saw i = saw i ∨ watch s i saw i = rowsIn s := by
  unfold watch
  split_ifs
  · exact Or.inr (Function.update_self ..)
  · exact Or.inl rfl

omit [Fintype ι] in
lemma watch_sent {v : Db} (hv : s.seen i = some v) : watch s i saw = saw :=
  if_neg fun h => by simp [hv] at h

omit [Fintype ι] in
lemma watch_next (h : (s.sys.cl i).next? ≠ some .deletePrinciple) : watch s i saw = saw :=
  if_neg fun h' => h h'.1

omit [Fintype ι] in
lemma mem_watch {j : ι} {r : Principle} (hr : r ∈ watch s i saw j) : r ∈ saw j ∨ r ∈ rowsIn s := by
  by_cases hj : j = i
  · subst hj
    rcases (watch_self : watch s j saw j = saw j ∨ watch s j saw j = rowsIn s) with hw | hw <;>
      rw [hw] at hr
    · exact Or.inl hr
    · exact Or.inr hr
  · rw [watch_of_ne hj] at hr
    exact Or.inl hr

/-- A step of one client that keeps the rows, or adds one the client has inserted. -/
structure Moves (s s' : Server job) (saw : Saw ι) (i : ι) : Prop where
  cl : ∀ j, j ≠ i → s'.sys.cl j = s.sys.cl j
  seen : ∀ j, j ≠ i → s'.seen j = s.seen j
  rows : ∀ r ∈ rowsIn s', r ∈ rowsIn s ∨ Write.principle (.put r) ∈ (s.sys.cl i).pend
  next : s.sys.db.principles.next ≤ s'.sys.db.principles.next
  drawn : ∀ w ∈ s.sys.drawn, w ∈ s'.sys.drawn
  stage : Stage (rowsIn s') (watch s i saw i) (s'.seen i) (s'.sys.cl i)
  busy : (s'.sys.cl i).next? = none → s'.seen i = none
  pend : ∀ p, Write.principle (.put p) ∈ (s'.sys.cl i).pend →
    (Write.principle (.put p) ∈ (s.sys.cl i).pend ∧ ∀ r ∈ rowsIn s', r ∈ rowsIn s) ∨
      (New (rowsIn s') (watch s i saw) s'.sys.drawn p ∧
        ∀ q, Write.principle (.put q) ∈ s.sys.drawn → q.id ≠ p.id)

namespace Moves

variable (m : Moves s s' saw i) (h : Sound s saw)

include m h

omit [Fintype ι] in
/-- What was to be committed still is new. -/
lemma new {j : ι} {p : Principle} (hp : Write.principle (.put p) ∈ (s.sys.cl j).pend)
    (hr : ∀ r ∈ rowsIn s', r.id ≠ p.id) : New (rowsIn s') (watch s i saw) s'.sys.drawn p := by
  have hf := h.fresh j p hp
  refine ⟨m.drawn _ hf.drawn, hr, fun l r hmem => ?_⟩
  rcases mem_watch hmem with hmem | hmem
  · exact hf.saw l r hmem
  · exact hf.rows r hmem

omit [Fintype ι] in
lemma new_other {j : ι} (hj : j ≠ i) {p : Principle}
    (hp : Write.principle (.put p) ∈ (s.sys.cl j).pend) :
    New (rowsIn s') (watch s i saw) s'.sys.drawn p := by
  refine m.new h hp fun r hr => ?_
  rcases m.rows r hr with hr | hr
  · exact (h.fresh j p hp).rows r hr
  · exact h.apart i j r p hj.symm hr hp

omit [Fintype ι] in
/-- What the client is to commit, and what another is. -/
lemma apart_self {p : Principle} (hp : Write.principle (.put p) ∈ (s'.sys.cl i).pend) {j : ι}
    (hj : j ≠ i) {q : Principle} (hq : Write.principle (.put q) ∈ (s.sys.cl j).pend) :
    q.id ≠ p.id := by
  rcases m.pend p hp with ⟨hp, -⟩ | ⟨-, hp⟩
  · exact (h.apart i j p q hj.symm hp hq).symm
  · exact hp q (h.fresh j q hq).drawn

omit [Fintype ι] in
lemma stages (j : ι) : Stage (rowsIn s') (watch s i saw j) (s'.seen j) (s'.sys.cl j) := by
  by_cases hj : j = i
  · exact hj ▸ m.stage
  · rw [m.cl j hj, m.seen j hj, watch_of_ne hj]
    refine (h.stage j).congr fun r hr hs => (m.rows r hr).resolve_right fun hp => ?_
    exact (h.fresh i r hp).saw j r hs rfl

omit [Fintype ι] in
lemma busies {j : ι} (hn : (s'.sys.cl j).next? = none) : s'.seen j = none := by
  by_cases hj : j = i
  · subst hj
    exact m.busy hn
  · rw [m.cl j hj] at hn
    exact (m.seen j hj).trans (h.busy j hn)

omit [Fintype ι] in
lemma same {j : ι} {r r' : Principle} (hr : r ∈ rowsIn s') (hr' : r' ∈ watch s i saw j)
    (hid : r.id = r'.id) : r = r' := by
  rcases m.rows r hr with hr | hp
  · rcases mem_watch hr' with hr' | hr'
    · exact h.same j r hr r' hr' hid
    · exact s.sys.db.principles.key_inj hr hr' hid
  · rcases mem_watch hr' with hr' | hr'
    · exact absurd hid.symm ((h.fresh i r hp).saw j r' hr')
    · exact absurd hid.symm ((h.fresh i r hp).rows r' hr')

omit [Fintype ι] in
lemma old {j : ι} {r : Principle} (hr : r ∈ watch s i saw j) :
    r.id < s'.sys.db.principles.next := by
  rcases mem_watch hr with hr | hr
  · exact lt_of_lt_of_le (h.old j r hr) m.next
  · exact lt_of_lt_of_le (s.sys.db.principles.fresh r hr) m.next

omit [Fintype ι] in
lemma fresh {j : ι} {p : Principle} (hp : Write.principle (.put p) ∈ (s'.sys.cl j).pend) :
    New (rowsIn s') (watch s i saw) s'.sys.drawn p := by
  by_cases hj : j = i
  · subst hj
    rcases m.pend p hp with ⟨hp, hr⟩ | ⟨hp, -⟩
    · exact m.new h hp fun r hr' => (h.fresh j p hp).rows r (hr r hr')
    · exact hp
  · rw [m.cl j hj] at hp
    exact m.new_other h hj hp

omit [Fintype ι] in
lemma apart {j l : ι} {p q : Principle} (hjl : j ≠ l)
    (hp : Write.principle (.put p) ∈ (s'.sys.cl j).pend)
    (hq : Write.principle (.put q) ∈ (s'.sys.cl l).pend) : p.id ≠ q.id := by
  by_cases hj : j = i
  · subst hj
    rw [m.cl l hjl.symm] at hq
    exact (m.apart_self h hp hjl.symm hq).symm
  · rw [m.cl j hj] at hp
    by_cases hl : l = i
    · subst hl
      exact m.apart_self h hq hj hp
    · rw [m.cl l hl] at hq
      exact h.apart j l p q hjl hp hq

end Moves

omit [Fintype ι] in
/-- **One client moves**: the clients stand as the invariant says, one step on. -/
theorem Sound.moved (h : Sound s saw) (m : Moves s s' saw i) : Sound s' (watch s i saw) where
  stage := m.stages h
  busy _ := m.busies h
  same _ _ hr _ hr' := m.same h hr hr'
  old _ _ := m.old h
  fresh _ _ := m.fresh h
  apart _ _ _ _ := m.apart h

/-! ### One step -/

omit [Fintype ι] [DecidableEq ι] in
lemma rows_view (s : Server job) (hp : (s.sys.cl i).pend = []) :
    (s.sys.view i).principles.rows = rowsIn s := by
  rw [Sys.view, hp]
  exact (sameRows_reserveAll _ _).principles

omit [Fintype ι] in
/-- A statement is sent. -/
lemma sound_send {l : Label} (h : Sound s saw) (hc : (s.sys.cl i).next? = some l)
    (hn : s.seen i = none) : Sound (s.send i) (watch s i saw) := by
  have hv : (s.send i).seen i = some (s.sys.view i) := Function.update_self ..
  refine h.moved (.mk (fun _ _ => rfl) (fun j hj => Function.update_of_ne hj ..)
    (fun r hr => Or.inl hr) le_rfl (fun _ hw => hw) ?_ (fun hn' => ?_)
    fun p hp => Or.inl ⟨hp, fun _ hr => hr⟩)
  · rw [hv]
    show Stage (rowsIn s) (watch s i saw i) _ (s.sys.cl i)
    rcases h.stage i with ⟨hc', hp⟩ | ⟨hc', ⟨f, g, a⟩, hk, -⟩ | ⟨hc', hk, hids, hgone⟩ |
      ⟨hc', hk, hids, hgone⟩
    · exact .outside hc' hp
    · refine .begun hc' ⟨f, g, a⟩ hk fun d hd => ?_
      obtain rfl := Option.some.inj hd
      rw [rows_view s (by rw [hc']; rfl), watch, if_pos ⟨by rw [hc']; rfl, by rw [hn]; rfl⟩,
        Function.update_self]
    · rw [watch_next (by rw [hc']; exact fun e => by cases e)]
      exact .deleted hc' hk hids hgone
    · rw [hc'] at hc
      cases hc
  · exact absurd (hc.symm.trans hn') (by simp)

/-- A client between two transactions. -/
lemma sound_outside (h : Sound s saw) {p : Prog Empty Empty.elim (job i).Err (job i).Res}
    (hc : s.sys.cl i = .idle p) (hp : Writes p) (hs : s.step i = some s') :
    Sound s' (watch s i saw) ∧ ∀ r ∈ rowsIn s', r ∈ rowsIn s := by
  cases p with
  | ret r =>
    rw [Staged.step_ret hc] at hs
    cases hs
  | ask q k => exact q.elim
  | tx body k =>
    obtain ⟨⟨c, b, hb⟩, hk⟩ := hp
    have hn : s.seen i = none := h.busy i (by rw [hc]; rfl)
    rw [Staged.step_begin hc, Option.some.injEq] at hs
    subst hs
    refine ⟨h.moved (.mk (fun j hj => Sys.set_cl_of_ne _ hj) (fun _ _ => rfl)
      (fun r hr => Or.inl hr) le_rfl (fun _ hw => hw) ?_ (fun _ => hn) fun p hp => ?_),
      fun _ hr => hr⟩
    · refine .begun (Sys.set_cl_self _) hb hk fun d hd => ?_
      rw [hn] at hd
      cases hd
    · simp at hp
  | auto t k =>
    rcases hv : s.seen i with _ | v
    · rw [Staged.step_send (l := t.label) (by rw [hc]; rfl) hv, Option.some.injEq] at hs
      subst hs
      exact ⟨sound_send h (by rw [hc]; rfl) hv, fun _ hr => hr⟩
    · have hself (c : Place (job i).Err (job i).Res) :
          (s.ended i (s.sys.set i c)).sys.cl i = c := Sys.set_cl_self _
      rcases Staged.step_auto hc hv hs with ⟨e, rfl⟩ | ⟨ws, b, ho, rfl⟩
      · refine ⟨h.moved (.mk (fun j hj => Sys.set_cl_of_ne _ hj)
          (fun j hj => Function.update_of_ne hj ..) (fun r hr => Or.inl hr) le_rfl
          (fun _ hw => hw) (.outside (Sys.set_cl_self _) (hp.2 _))
          (fun _ => Function.update_self ..) fun p hp => ?_), fun _ hr => hr⟩
        rw [hself] at hp
        exact absurd hp List.not_mem_nil
      · have hws : ∀ w ∈ ws, ∃ k, w = Write.principle (.del k) := by
          rcases (Staged.outcome_ok ho).2 with ⟨rfl, -⟩ | ht
          · exact fun w hw => absurd hw List.not_mem_nil
          · exact hp.1 _ _ _ ht
        obtain ⟨hrows, hnext⟩ := rows_of_removes (d := s.sys.db) hws
        refine ⟨h.moved (.mk (fun j hj => Sys.set_cl_of_ne _ hj)
          (fun j hj => Function.update_of_ne hj ..) (fun r hr => Or.inl (hrows r hr)) hnext.ge
          (fun _ hw => List.mem_append_left _ hw) (.outside (Sys.set_cl_self _) (hp.2 _))
          (fun _ => Function.update_self ..) fun p hp => ?_), hrows⟩
        have : (s.ended i { s.sys.set i (.idle (k (.ok b))) with
            db := applyAll s.sys.db ws, drawn := s.sys.drawn ++ ws }).sys.cl i =
          .idle (k (.ok b)) := Sys.set_cl_self _
        rw [this] at hp
        exact absurd hp List.not_mem_nil

omit [Fintype ι] in
/-- A statement is recorded in the transaction that is under way. -/
lemma sound_recorded (h : Sound s saw) {γ δ : Type} {pend ws : List Write} {body : Tx γ δ}
    {k : Except γ δ → Prog Empty Empty.elim (job i).Err (job i).Res} {v : Db}
    (hseen : s.seen i = some v) (hstage : Stage (rowsIn s) (saw i) none (.inTx pend body k))
    (hpend : ∀ p, Write.principle (.put p) ∈ pend → New (rowsIn s) saw (s.sys.drawn ++ ws) p ∧
      ∀ q, Write.principle (.put q) ∈ s.sys.drawn → q.id ≠ p.id) :
    Sound (s.ended i { s.sys.set i (.inTx pend body k) with drawn := s.sys.drawn ++ ws })
      (watch s i saw) := by
  have hcl : (s.ended i { s.sys.set i (.inTx pend body k) with
      drawn := s.sys.drawn ++ ws }).sys.cl i = .inTx pend body k := Sys.set_cl_self _
  have hnone : (s.ended i { s.sys.set i (.inTx pend body k) with
      drawn := s.sys.drawn ++ ws }).seen i = none := Function.update_self ..
  refine h.moved (.mk (fun j hj => Sys.set_cl_of_ne _ hj)
    (fun j hj => Function.update_of_ne hj ..) (fun r hr => Or.inl hr) le_rfl
    (fun _ hw => List.mem_append_left _ hw) ?_ (fun _ => hnone) fun p hp => Or.inr ?_)
  · rw [watch_sent hseen, hnone, hcl]
    exact hstage
  · rw [hcl] at hp
    rw [watch_sent hseen]
    exact hpend p hp

/-- The DELETE of an upsert gets to its rows. -/
lemma sound_begun (h : Sound s saw) {γ δ : Type} {c b : String} {body : Tx γ δ}
    {k : Except γ δ → Prog Empty Empty.elim (job i).Err (job i).Res}
    (hc : s.sys.cl i = .inTx [] body k) (hb : IsUpsert c b body) (hk : ∀ r, Writes (k r)) {v : Db}
    (hseen : s.seen i = some v) (hv : v.principles.rows = saw i) (hs : s.step i = some s') :
    Sound s' (watch s i saw) ∧ ∀ r ∈ rowsIn s', r ∈ rowsIn s := by
  obtain ⟨f, g, a⟩ := hb
  have hview := rows_view s (i := i) (by rw [hc]; rfl)
  have hsent := (sameRows_reserveAll v s.sys.drawn).principles
  rcases Staged.step_stmt hc hseen hs with ⟨e, ho, -⟩ | ⟨ws, u, ho, rfl⟩
  · simp only [Staged.outcome, run_delete] at ho
    split at ho
    · rename_i he
      cases he
    · cases ho
    · split_ifs at ho
      cases ho
  · obtain ⟨ids, rfl, hids, hgone⟩ : ∃ ids, ws = dels ids ∧
        (∀ n ∈ ids, n ∈ (saw i).map Principle.id) ∧
        ∀ r ∈ rowsIn s, r.category = c → r ∈ saw i → r.id ∈ ids := by
      rcases (Staged.outcome_ok ho).2 with ⟨rfl, ht⟩ | ht <;> rw [run_delete] at ht
      · -- there was no row of the category
        refine ⟨[], rfl, fun n hn => absurd hn List.not_mem_nil, fun r _ hcat hr => ?_⟩
        rw [Except.ok.injEq, Prod.mk.injEq, dels, List.map_eq_nil_iff, List.map_eq_nil_iff,
          List.map_eq_nil_iff, hsent, hv] at ht
        exact absurd (List.mem_filter.mpr ⟨hr, decide_eq_true hcat⟩) (ht.1 ▸ List.not_mem_nil)
      · rw [Except.ok.injEq, Prod.mk.injEq] at ht
        refine ⟨_, ht.1.symm, fun n hn => ?_, fun r hr hcat hs => ?_⟩
        · obtain ⟨r, hr, rfl⟩ := List.mem_map.mp hn
          obtain ⟨-, r', hr', hid⟩ := mem_only.mp (List.mem_of_mem_filter hr)
          exact List.mem_map.mpr ⟨r', hv ▸ hr', hid⟩
        · refine List.mem_map.mpr ⟨r, List.mem_filter.mpr ⟨mem_only.mpr ⟨?_, r, ?_, rfl⟩, ?_⟩, rfl⟩
          · rwa [hview]
          · rwa [hv]
          · exact decide_eq_true hcat
    exact ⟨sound_recorded h hseen (.deleted rfl hk hids hgone)
      fun p hp => absurd hp put_notMem_dels, fun _ hr => hr⟩

/-- The INSERT of an upsert. -/
lemma sound_deleted (h : Sound s saw) {γ δ : Type} {c b : String} {ids : List ℤ}
    {g : DbError → γ} {a : δ} {k : Except γ δ → Prog Empty Empty.elim (job i).Err (job i).Res}
    (hc : s.sys.cl i = .inTx (dels ids) (.stmt (insertPrinciple c b) g fun _ => .ret (.ok a)) k)
    (hk : ∀ r, Writes (k r)) (hids : ∀ n ∈ ids, n ∈ (saw i).map Principle.id)
    (hgone : ∀ r ∈ rowsIn s, r.category = c → r ∈ saw i → r.id ∈ ids) {v : Db}
    (hseen : s.seen i = some v) (hs : s.step i = some s') :
    Sound s' (watch s i saw) ∧ ∀ r ∈ rowsIn s', r ∈ rowsIn s := by
  rcases Staged.step_stmt hc hseen hs with ⟨e, ho, -⟩ | ⟨ws, u, ho, rfl⟩
  · simp only [Staged.outcome, run_insert] at ho
    split_ifs at ho
    cases ho
  · obtain ⟨n, rfl, hn⟩ : ∃ n, ws = [Write.principle (.put ⟨n, c, b⟩)] ∧
        n = (s.sys.view i).principles.next := by
      rcases (Staged.outcome_ok ho).2 with ⟨rfl, ht⟩ | ht <;> rw [run_insert] at ht
      · cases ht
      · rw [Except.ok.injEq, Prod.mk.injEq] at ht
        exact ⟨_, ht.1.symm, rfl⟩
    have hnext : s.sys.db.principles.next ≤ n := hn ▸
      le_trans (next_le_applyAll _ _) (next_le_reserveAll _ _)
    refine ⟨sound_recorded h hseen (.inserted rfl hk hids hgone) fun p hp => ?_, fun _ hr => hr⟩
    obtain rfl : p = ⟨n, c, b⟩ := by
      simpa using (List.mem_append.mp hp).resolve_left put_notMem_dels
    refine ⟨⟨List.mem_append_right _ (List.mem_singleton_self _), fun r hr => ?_,
      fun j r hr => ?_⟩, fun q hq => ?_⟩
    · exact (lt_of_lt_of_le (s.sys.db.principles.fresh r hr) hnext).ne
    · exact (lt_of_lt_of_le (h.old j r hr) hnext).ne
    · exact (hn ▸ lt_next_of_drawn _ hq).ne

/-- What is committed after an upsert. -/
lemma rows_upserted (d : Db) (ids : List ℤ) (p : Principle) {r : Principle} :
    r ∈ (applyAll d (dels ids ++ [.principle (.put p)])).principles.rows ↔
      r = p ∨ (r ∈ d.principles.rows ∧ r.id ∉ ids) ∧ r.id ≠ p.id := by
  rw [applyAll_append]
  show r ∈ ((applyAll d (dels ids)).principles.put p).rows ↔ _
  rw [Table.mem_put, rows_dels]
  rfl

/-- An upsert commits. -/
lemma sound_inserted (h : Sound s saw) {γ δ : Type} {c b : String} {ids : List ℤ} {n : ℤ} {a : δ}
    {k : Except γ δ → Prog Empty Empty.elim (job i).Err (job i).Res}
    (hc : s.sys.cl i = .inTx (dels ids ++ [.principle (.put ⟨n, c, b⟩)])
      (.ret (.ok a) : Tx γ δ) k) (hk : ∀ r, Writes (k r)) (hs : s.step i = some s') :
    Sound s' (watch s i saw) ∧ ∀ r, r ∈ rowsIn s' ↔
      r = ⟨n, c, b⟩ ∨ (r ∈ rowsIn s ∧ r.id ∉ ids) ∧ r.id ≠ n := by
  rw [Staged.step_commit hc, Option.some.injEq] at hs
  subst hs
  have hrows (r : Principle) := rows_upserted s.sys.db ids ⟨n, c, b⟩ (r := r)
  refine ⟨h.moved (.mk (fun j hj => Sys.set_cl_of_ne _ hj) (fun _ _ => rfl) (fun r hr => ?_)
    (next_le_applyAll _ _) (fun _ hw => hw) (.outside (Sys.set_cl_self _) (hk _))
    (fun _ => h.busy i (by rw [hc]; rfl)) fun p hp => ?_), hrows⟩
  · rcases (hrows r).mp hr with rfl | ⟨⟨hr, -⟩, -⟩
    · exact Or.inr (by rw [hc]; simp)
    · exact Or.inl hr
  · have hcl : (s.sys.set i (.idle (k (.ok a)))).cl i = .idle (k (.ok a)) := Sys.set_cl_self _
    exact absurd (show Write.principle (.put p) ∈
      ((s.sys.set i (.idle (k (.ok a)))).cl i).pend from hp) (by rw [hcl]; exact List.not_mem_nil)

/-- The step commits the row `p`, which takes the place of the rows `ids`. -/
structure Replaces (s s' : Server job) (saw : Saw ι) (i : ι) (p : Principle) (ids : List ℤ) :
    Prop where
  commits : (s.sys.cl i).commits = true
  pend : (s.sys.cl i).pend = dels ids ++ [.principle (.put p)]
  seen : ∀ n ∈ ids, n ∈ (saw i).map Principle.id
  gone : ∀ r ∈ rowsIn s, r.category = p.category → r ∈ saw i → r.id ∈ ids
  rows : ∀ r, r ∈ rowsIn s' ↔ r = p ∨ (r ∈ rowsIn s ∧ r.id ∉ ids) ∧ r.id ≠ p.id

/-- A step adds no row, or commits an upsert. -/
lemma sound_step (h : Sound s saw) (hs : s.step i = some s') : Sound s' (watch s i saw) ∧
    ((s.sys.cl i).commits = false ∧ (∀ r ∈ rowsIn s', r ∈ rowsIn s) ∨
      ∃ p ids, Replaces s s' saw i p ids) := by
  have sent {l : Label} (hc : (s.sys.cl i).next? = some l) (hn : s.seen i = none) :
      Sound s' (watch s i saw) ∧ ∀ r ∈ rowsIn s', r ∈ rowsIn s := by
    rw [Staged.step_send hc hn, Option.some.injEq] at hs
    subst hs
    exact ⟨sound_send h hc hn, fun _ hr => hr⟩
  have calm (hc : (s.sys.cl i).commits = false)
      (h' : Sound s' (watch s i saw) ∧ ∀ r ∈ rowsIn s', r ∈ rowsIn s) :
      Sound s' (watch s i saw) ∧
        ((s.sys.cl i).commits = false ∧ (∀ r ∈ rowsIn s', r ∈ rowsIn s) ∨
          ∃ p ids, Replaces s s' saw i p ids) := ⟨h'.1, Or.inl ⟨hc, h'.2⟩⟩
  rcases h.stage i with ⟨hc, hp⟩ | ⟨hc, hb, hk, hv⟩ | ⟨hc, hk, hids, hgone⟩ |
    ⟨hc, hk, hids, hgone⟩
  · exact calm (by rw [hc]; rfl) (sound_outside h hc hp hs)
  · refine calm ?_ ?_
    · rw [hc]
      obtain ⟨f, g, a⟩ := hb
      rfl
    · rcases hn : s.seen i with _ | v
      · obtain ⟨f, g, a⟩ := hb
        exact sent (l := .deletePrinciple) (by rw [hc]; rfl) hn
      · exact sound_begun h hc hb hk hn (hv v hn) hs
  · refine calm (by rw [hc]; rfl) ?_
    rcases hn : s.seen i with _ | v
    · exact sent (l := .insertPrinciple) (by rw [hc]; rfl) hn
    · exact sound_deleted h hc hk hids hgone hn hs
  · obtain ⟨h', hrows⟩ := sound_inserted h hc hk hs
    exact ⟨h', Or.inr ⟨_, _, by rw [hc]; rfl, by rw [hc]; rfl, hids, hgone, hrows⟩⟩

/-- A step keeps every category at one row exactly when the client is up to date. -/
lemma oneEach_step (h : Sound s saw) (h1 : OneEach (rowsIn s)) (hs : s.step i = some s') :
    OneEach (rowsIn s') ↔ UpToDate s i saw := by
  rcases (sound_step h hs).2 with ⟨hc, hrows⟩ | ⟨p, ids, hc, hpend, hids, hgone, hrows⟩
  · refine ⟨fun _ ht => absurd (ht.symm.trans hc) (by simp), fun _ r hr r' hr' => ?_⟩
    exact h1 r (hrows r hr) r' (hrows r' hr')
  · have hp : Write.principle (.put p) ∈ (s.sys.cl i).pend := by simp [hpend]
    constructor
    · -- a row that is not among those the DELETE saw is still there, next to the new one
      intro hone _ q hq r hr hcat
      obtain rfl : q = p := by
        rw [hpend, List.mem_append] at hq
        simpa using hq.resolve_left put_notMem_dels
      by_contra hsaw
      have hkept : r.id ∉ ids := by
        intro hmem
        obtain ⟨r', hr', hid⟩ := List.mem_map.mp (hids _ hmem)
        exact hsaw (h.same i r hr r' hr' hid.symm ▸ hr')
      have hnew := (h.fresh i q hq).rows r hr
      have hstays := (hrows r).mpr (Or.inr ⟨⟨hr, hkept⟩, hnew⟩)
      exact hnew (congrArg Principle.id (hone r hstays q ((hrows q).mpr (Or.inl rfl)) hcat))
    · intro hup r hr r' hr' hcat
      have gone {x : Principle} (hx : x ∈ rowsIn s) (hxc : x.category = p.category) : x.id ∈ ids :=
        hgone x hx hxc (hup hc p hp x hx hxc)
      rcases (hrows r).mp hr with rfl | ⟨⟨hr, hk⟩, -⟩ <;>
        rcases (hrows r').mp hr' with rfl | ⟨⟨hr', hk'⟩, -⟩
      · rfl
      · exact absurd (gone hr' hcat.symm) hk'
      · exact absurd (gone hr hcat) hk
      · exact h1 r hr r' hr' hcat

/-- A client that has to wait changes nothing, and is not about to commit. -/
lemma sound_next (h : Sound s saw) (h1 : OneEach (rowsIn s)) :
    Sound (s.next i) (watch s i saw) ∧ (OneEach (rowsIn (s.next i)) ↔ UpToDate s i saw) := by
  rcases hs : s.step i with _ | s'
  · have hnext : s.next i = s := by rw [Staged.next, hs]; rfl
    have hwatch : watch s i saw = saw := by
      refine if_neg fun ⟨hc, hn⟩ => ?_
      rw [Staged.step_send hc (Option.isNone_iff_eq_none.mp hn)] at hs
      cases hs
    rw [hnext, hwatch]
    refine ⟨h, ⟨fun _ hc => ?_, fun _ => h1⟩⟩
    rcases h.stage i with ⟨hc', -⟩ | ⟨hc', ⟨f, g, a⟩, -, -⟩ | ⟨hc', -, -, -⟩ | ⟨hc', -, -, -⟩
    · rw [hc'] at hc
      cases hc
    · rw [hc'] at hc
      cases hc
    · rw [hc'] at hc
      cases hc
    · rw [Staged.step_commit hc'] at hs
      cases hs
  · have hnext : s.next i = s' := by rw [Staged.next, hs]; rfl
    rw [hnext]
    exact ⟨(sound_step h hs).1, oneEach_step h h1 hs⟩

/-! ### Runs -/

omit [Fintype ι] [DecidableEq ι] in
lemma sound_together (job : ι → Job) (d : Db) : Sound (together job d) fun _ => [] where
  stage i := .outside rfl (writes_prog (job i))
  busy _ _ := rfl
  same _ _ _ _ hr := absurd hr List.not_mem_nil
  old _ _ hr := absurd hr List.not_mem_nil
  fresh _ _ hp := absurd hp List.not_mem_nil
  apart _ _ _ _ _ hp := absurd hp List.not_mem_nil

lemma oneEach_run (h : Sound s saw) (h1 : OneEach (rowsIn s)) (sched : List ι) :
    (∀ is, is <+: sched → OneEach (rowsIn (s.run is))) ↔ Current saw s sched := by
  induction sched generalizing s saw with
  | nil =>
    refine ⟨fun _ => trivial, fun _ is his => ?_⟩
    rw [List.prefix_nil.mp his]
    exact h1
  | cons i sched ih =>
    obtain ⟨h', hone⟩ := sound_next (i := i) h h1
    constructor
    · intro hall
      have hnext : OneEach (rowsIn (s.next i)) := hall [i] (List.prefix_cons_inj i |>.mpr
        (List.nil_prefix))
      refine ⟨hone.mp hnext, (ih h' hnext).mp fun is his => ?_⟩
      exact hall (i :: is) ((List.prefix_cons_inj i).mpr his)
    · rintro ⟨hup, hcur⟩ is his
      rcases List.prefix_cons_iff.mp his with rfl | ⟨js, rfl, hjs⟩
      · exact h1
      · exact (ih h' (hone.mpr hup)).mpr hcur js hjs

/-- **One row for each category**: in every committed state of a run each category has at most
one row, exactly when no upsert commits while its category has a row that was committed after the
upsert sent its DELETE. -/
theorem one_each_iff (job : ι → Job) (d : Db) (h : OneEach d.principles.rows) (sched : List ι) :
    (∀ is, is <+: sched → OneEach (rowsIn ((together job d).run is))) ↔
      Current (fun _ => []) (together job d) sched :=
  oneEach_run (sound_together job d) h sched

end

/-! ### Two upserts at once -/

/-- Two tool calls write the same category. -/
def twoUpdates (i : Bool) : Job :=
  .updatePreference (some ⟨"family", if i then "Two adults." else "Two adults, one child."⟩)

/-- The category has a row. -/
def oneAdult : Db :=
  applyAll (Dinners.threeDays .draft) [Write.principle (.put ⟨1, "family", "One adult."⟩)]

/-- The second call begins before the first sends its DELETE, and sends its own once the first has
committed. -/
def turns : List Bool :=
  [true, false] ++ List.replicate 5 true ++ List.replicate 5 false

theorem one_each_iff_twoUpdates :
    ((∀ is, is <+: turns → OneEach (rowsIn ((together twoUpdates oneAdult).run is))) ↔
      Current (fun _ => []) (together twoUpdates oneAdult) turns) ∧
      rowsIn ((together twoUpdates oneAdult).run turns) =
        [⟨3, "family", "Two adults, one child."⟩] :=
  ⟨one_each_iff twoUpdates oneAdult (by decide) turns, by decide⟩

/-- The second call begins before the first commits. -/
def overlapping : List Bool :=
  List.replicate 5 true ++ List.replicate 5 false ++ [true, false]

/-- Neither DELETE sees the row of the other. -/
theorem not_one_each : ¬∀ (ι : Type) [Fintype ι] [DecidableEq ι] (job : ι → Job) (d : Db),
    OneEach d.principles.rows → ∀ sched, OneEach (rowsIn ((together job d).run sched)) := by
  intro h
  have := h Bool twoUpdates (Dinners.threeDays .draft) (by decide) overlapping
  revert this
  decide

/-- A category that has a row gets a second one as well: the DELETE that waited for the first upsert
does not see what that upsert inserted. -/
example : ¬OneEach (rowsIn ((together twoUpdates oneAdult).run
    ([true, true, true, false, false] ++ List.replicate 3 true ++ List.replicate 4 false))) := by
  decide

end Veckomenyn.Duplicates
