import Veckomenyn.Sql

/-!
The partial update of a plan that the HTTP API and the agent share.

An absent field is ignored and an empty date clears its column, which the two dates of the
period do not allow. `updateWeek` is written over whatever runs its statement, the pool or
a transaction.
-/

namespace Veckomenyn.Store

open Rows DateText Schema Sql Txn

structure WeekUpdate where
  isoWeek : Option String
  startDate : Option String
  endDate : Option String
  deliveryDate : Option String
  orderDate : Option String
  status : Option String
  notesMd : Option String
deriving DecidableEq, Repr

/-- No column is set. -/
def WeekUpdate.isEmpty (u : WeekUpdate) : Bool :=
  u.isoWeek.isNone && u.startDate.isNone && u.endDate.isNone && u.deliveryDate.isNone &&
    u.orderDate.isNone && u.status.isNone && u.notesMd.isNone

/-- The columns to set, with `some none` for NULL. -/
structure Sets where
  isoWeek : Option String
  startDate : Option (Option ℤ)
  endDate : Option (Option ℤ)
  deliveryDate : Option (Option ℤ)
  orderDate : Option (Option ℤ)
  status : Option String
  notesMd : Option String

def addDate (pg : Pg) : Option String → Except DbError (Option (Option ℤ))
  | none => .ok none
  | some s => if s = "" then .ok (some none) else do
      let d ← date pg s
      .ok (some (some d))

def sets (pg : Pg) (u : WeekUpdate) : Except DbError Sets := do
  let startDate ← addDate pg u.startDate
  let endDate ← addDate pg u.endDate
  let deliveryDate ← addDate pg u.deliveryDate
  let orderDate ← addDate pg u.orderDate
  .ok ⟨u.isoWeek, startDate, endDate, deliveryDate, orderDate, u.status, u.notesMd⟩

def notNull (column : String) (v : Option (Option ℤ)) (cur : ℤ) : Except DbError ℤ :=
  match v with
  | none => .ok cur
  | some none => .error (.notNull column)
  | some (some d) => .ok d

def checkStatus (v : Option String) (cur : Status) : Except DbError Status :=
  match v with
  | none => .ok cur
  | some s => match Status.ofText s with
    | some x => .ok x
    | none => .error (.check "weeks_status_check")

/-- The row after the `SET` clauses, with `updated_at` set by the trigger. -/
def Sets.assign (s : Sets) (now : ℤ) (w : Week) : Except DbError Week := do
  let startDate ← notNull "start_date" s.startDate w.startDate
  let endDate ← notNull "end_date" s.endDate w.endDate
  let status ← checkStatus s.status w.status
  .ok { w with
    isoWeek := s.isoWeek.getD w.isoWeek
    startDate := startDate
    endDate := endDate
    deliveryDate := s.deliveryDate.getD w.deliveryDate
    orderDate := s.orderDate.getD w.orderDate
    status := status
    notesMd := s.notesMd.getD w.notesMd
    updatedAt := now }

/-- `UPDATE weeks SET … WHERE id = $n`, with the number of rows it changed. -/
def updateWeekStmt (pg : Pg) (now id : ℤ) (u : WeekUpdate) : Stmt ℕ where
  label := .updateWeek
  run d := do
    let s ← sets pg u
    match d.weeks.find? id with
    | none => .ok ([], 0)
    | some w => do
      let w' ← s.assign now w
      .ok ([.week (.put w')], 1)

def updateWeek {m : Type → Type 1} [Monad m] (db : Stmt ℕ → m ℕ) (pg : Pg) (now id : ℤ)
    (u : WeekUpdate) : m ℕ :=
  if u.isEmpty then pure 0 else db (updateWeekStmt pg now id u)

/-! ### What an update does to a row -/

/-- A date column after an update of it. -/
def DateSet (pg : Pg) (v : Option String) (cur new : ℤ) : Prop :=
  match v with
  | none => new = cur
  | some s => s ≠ "" ∧ pg.castDate s = some new

def StatusSet (v : Option String) (cur new : Status) : Prop :=
  match v with
  | none => new = cur
  | some s => Status.ofText s = some new

/-- What is known of the row `w'` an update makes of `w`. -/
structure Updated (pg : Pg) (now : ℤ) (u : WeekUpdate) (w w' : Week) : Prop where
  id : w'.id = w.id
  isoWeek : w'.isoWeek = u.isoWeek.getD w.isoWeek
  startDate : DateSet pg u.startDate w.startDate w'.startDate
  endDate : DateSet pg u.endDate w.endDate w'.endDate
  status : StatusSet u.status w.status w'.status
  notesMd : w'.notesMd = u.notesMd.getD w.notesMd
  updatedAt : w'.updatedAt = now

lemma exists_of_bind {ε α β : Type} {x : Except ε α} {f : α → Except ε β} {b : β}
    (h : (x >>= f) = .ok b) : ∃ a, x = .ok a ∧ f a = .ok b := by
  cases x with
  | error e => cases h
  | ok a => exact ⟨a, rfl, h⟩

lemma dateSet_of_addDate {pg : Pg} {v : Option String} {x : Option (Option ℤ)} {column : String}
    {cur new : ℤ} (h : addDate pg v = .ok x) (hn : notNull column x cur = .ok new) :
    DateSet pg v cur new := by
  cases v with
  | none =>
    cases h
    cases hn
    rfl
  | some s =>
    simp only [addDate] at h
    split_ifs at h with hs
    · cases h
      cases hn
    · obtain ⟨d, hd, hx⟩ := exists_of_bind h
      cases hx
      cases hn
      refine ⟨hs, ?_⟩
      unfold date at hd
      split at hd <;> simp_all

lemma statusSet_of_check {v : Option String} {cur new : Status} (h : checkStatus v cur = .ok new) :
    StatusSet v cur new := by
  cases v with
  | none =>
    cases h
    rfl
  | some s =>
    simp only [checkStatus] at h
    split at h <;> simp_all [StatusSet]

lemma updated_of_assign {pg : Pg} {now : ℤ} {u : WeekUpdate} {s : Sets} {w w' : Week}
    (hs : sets pg u = .ok s) (h : s.assign now w = .ok w') : Updated pg now u w w' := by
  obtain ⟨a, ha, hs⟩ := exists_of_bind hs
  obtain ⟨b, hb, hs⟩ := exists_of_bind hs
  obtain ⟨c, -, hs⟩ := exists_of_bind hs
  obtain ⟨e, -, hs⟩ := exists_of_bind hs
  cases hs
  obtain ⟨a', ha', h⟩ := exists_of_bind h
  obtain ⟨b', hb', h⟩ := exists_of_bind h
  obtain ⟨st, hst, h⟩ := exists_of_bind h
  cases h
  exact ⟨rfl, rfl, dateSet_of_addDate ha ha', dateSet_of_addDate hb hb', statusSet_of_check hst,
    rfl, rfl⟩

lemma updateWeekStmt_of_assign {pg : Pg} {now id : ℤ} {u : WeekUpdate} {d : Db} {s : Sets}
    {w w' : Week} (hs : sets pg u = .ok s) (hw : d.weeks.find? id = some w)
    (h : s.assign now w = .ok w') :
    (updateWeekStmt pg now id u).run d = .ok ([.week (.put w')], 1) := by
  simp only [updateWeekStmt, hs, hw, h, bind, Except.bind]

/-- The update sets something, its values are stored as they are, and make `w'` of `w`. -/
def Saves (pg : Pg) (now : ℤ) (u : WeekUpdate) (w w' : Week) : Prop :=
  u.isEmpty = false ∧ ∃ s, sets pg u = .ok s ∧ s.assign now w = .ok w'

lemma Saves.updated {pg : Pg} {now : ℤ} {u : WeekUpdate} {w w' : Week} (h : Saves pg now u w w') :
    Updated pg now u w w' := by
  obtain ⟨-, s, hs, hw⟩ := h
  exact updated_of_assign hs hw

/-- An update finds no row, or replaces the row it finds. -/
lemma updateWeekStmt_ok {pg : Pg} {now id : ℤ} {u : WeekUpdate} {d : Db} {ws : List Write} {n : ℕ}
    (h : (updateWeekStmt pg now id u).run d = .ok (ws, n)) :
    (d.weeks.find? id = none ∧ ws = [] ∧ n = 0) ∨
      ∃ w w' s, d.weeks.find? id = some w ∧ sets pg u = .ok s ∧ s.assign now w = .ok w' ∧
        ws = [.week (.put w')] ∧ n = 1 := by
  obtain ⟨s, hs, h⟩ := exists_of_bind h
  rcases hw : d.weeks.find? id with _ | w
  · rw [hw] at h
    cases h
    exact Or.inl ⟨rfl, rfl, rfl⟩
  · rw [hw] at h
    obtain ⟨w', hw', h⟩ := exists_of_bind h
    cases h
    exact Or.inr ⟨w, w', s, rfl, hs, hw', rfl, rfl⟩

end Veckomenyn.Store
