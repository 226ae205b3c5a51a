import Veckomenyn.Store

/-!
The plan endpoints that move and copy dinners, `PATCH /weeks/{id}` and the clone, and the one that
makes a plan.

Each handler validates, runs one transaction and reloads the plan. The transaction of a
patch reads the stored dates, applies the side effects of a date change to the dinners and
ends in `updateWeek`; dates travel as texts between its statements and are compared as
texts.
-/

namespace Veckomenyn.Weeks

open Rows DateText Schema Sql Store Txn

/-! ### What the endpoints answer -/

structure WeekSummary where
  id : ℤ
  isoWeek : String
  startDate : String
  endDate : String
  deliveryDate : Option String
  orderDate : Option String
  status : String
  dinnerCount : ℕ
  updatedAt : String

structure DinnerOut where
  id : ℤ
  dayDate : String
  dishId : Option ℤ
  dishName : String
  cuisine : Option String
  servings : ℤ
  sourcing : String
  recipeMd : String
  notes : String
  rating : Option String
  ratingNotes : String

structure RetrospectiveOut where
  id : ℤ
  notesMd : String
  createdAt : String

structure CartItemOut where
  id : ℤ
  productCode : String
  qty : ℚ
  reasonMd : String
  committed : Bool
  snapshot : Option Snapshot

structure WeekDetail where
  summary : WeekSummary
  notesMd : String
  dinners : List DinnerOut
  exceptions : List WeekException
  retrospectives : List RetrospectiveOut
  cartItems : List CartItemOut

inductive Resp where
  | error (code : ℕ) (text : String)
  | json (detail : WeekDetail)

def internalError : Resp := .error 500 "internal server error"

def notFound : Resp := .error 404 "not found"

/-! ### Reloading a plan -/

/-- `weekSelect`, for one row. -/
def weekSelect (pg : Pg) (d : Db) (w : Week) : WeekSummary where
  id := w.id
  isoWeek := w.isoWeek
  startDate := text w.startDate
  endDate := text w.endDate
  deliveryDate := w.deliveryDate.map text
  orderDate := w.orderDate.map text
  status := w.status.text
  dinnerCount := (dinnersOf d w.id).length
  updatedAt := pg.timestampText w.updatedAt

/-- The joins of `loadDinners`, for one dinner. -/
def dinnerOut (d : Db) (wd : Dinner) : DinnerOut :=
  let dish := wd.dishId.bind d.dishes.find?
  let dr := d.ratings.rows.find? fun r => r.weekDinnerId = wd.id
  { id := wd.id
    dayDate := text wd.dayDate
    dishId := wd.dishId
    dishName := (dish.map Dish.name).getD ""
    cuisine := dish.bind Dish.cuisine
    servings := wd.servings
    sourcing := wd.sourcing
    recipeMd := (dish.map Dish.recipeMd).getD ""
    notes := wd.notes
    rating := (dr.bind Rating.rating).map Verdict.text
    ratingNotes := (dr.map Rating.notes).getD "" }

def loadDinners (id : ℤ) : Stmt (List DinnerOut) := select .read fun d =>
  ((dinnersOf d id).insertionSort fun a b =>
    a.dayDate < b.dayDate ∨ a.dayDate = b.dayDate ∧ a.sortOrder ≤ b.sortOrder).map (dinnerOut d)

def loadExceptions (id : ℤ) : Stmt (List WeekException) := select .read fun d =>
  (d.exceptions.rows.filter fun r => r.weekId = id).insertionSort fun a b => a.id ≤ b.id

def loadRetrospectives (pg : Pg) (id : ℤ) : Stmt (List RetrospectiveOut) := select .read fun d =>
  ((d.retrospectives.rows.filter fun r => r.weekId = id).insertionSort
    fun a b => b.createdAt ≤ a.createdAt).map
    fun r => ⟨r.id, r.notesMd, pg.timestampText r.createdAt⟩

def loadCartItems (id : ℤ) : Stmt (List CartItemOut) := select .read fun d =>
  ((d.cartItems.rows.filter fun r => r.weekId = some id).insertionSort
    fun a b => a.addedAt < b.addedAt ∨ a.addedAt = b.addedAt ∧ a.id ≤ b.id).map
    fun c => ⟨c.id, c.productCode, c.qty, c.reasonMd, c.committed, c.snapshot⟩

section

variable {Q : Type} {A : Q → Type}

/-- A read of the reload: a failure, or no row, is an internal error. -/
def readOne {β : Type} (s : Stmt (Option β)) : Prog Q A Resp β := do
  match ← Prog.query s fun _ => internalError with
  | some b => pure b
  | none => Prog.fail internalError

/-- The rows of a result come. -/
def rowsCome : Stmt Unit := select .read fun _ => ()

/-- The rows that have come. -/
def rowsSoFar {β : Type} (rows : List β) : Except DbError Unit → List β
  | .ok () => rows
  | .error e => rows.take e.rowsRead

/-- The loop of `loadDinners` and the like. A failure of `Query` is an internal error. When reading
the rows fails, the loop ends, and as nobody asks `rows.Err()` the rows so far are the list. -/
def readRows {β : Type} (s : Stmt (List β)) : Prog Q A Resp (List β) := do
  let rows ← Prog.query s fun _ => internalError
  let come ← Prog.tried rowsCome
  pure (rowsSoFar rows come)

def loadWeekDetail (pg : Pg) (ws : WeekSummary) : Prog Q A Resp WeekDetail := do
  let notes ← readOne (select .read fun d => (d.weeks.find? ws.id).map Week.notesMd)
  let dinners ← readRows (loadDinners ws.id)
  let exceptions ← readRows (loadExceptions ws.id)
  let retros ← readRows (loadRetrospectives pg ws.id)
  let cart ← readRows (loadCartItems ws.id)
  pure ⟨ws, notes, dinners, exceptions, retros, cart⟩

/-- What every handler here does after its commit. -/
def reload (pg : Pg) (id : ℤ) : Prog Q A Resp Resp := do
  let ws ← readOne (select .read fun d => (d.weeks.find? id).map (weekSelect pg d))
  let detail ← loadWeekDetail pg ws
  pure (.json detail)

end

/-! ### PATCH -/

structure WeekPatch where
  isoWeek : Option String
  startDate : Option String
  endDate : Option String
  deliveryDate : Option String
  orderDate : Option String
  status : Option String
  notesMd : Option String
deriving DecidableEq, Repr

def WeekPatch.toUpdate (p : WeekPatch) : WeekUpdate :=
  ⟨p.isoWeek, p.startDate, p.endDate, p.deliveryDate, p.orderDate, p.status, p.notesMd⟩

/-- The stored dates of a plan, as texts. -/
def weekDates (id : ℤ) : Stmt (Option (String × String)) := select .weekDates fun d =>
  (d.weeks.find? id).map fun w => (text w.startDate, text w.endDate)

/-- The rows of a plan, packed one a day from `s` on in their existing order. -/
def packed (s : ℤ) (l : List Dinner) : List Dinner :=
  (ranked Before l).map fun (r, n) => { r with dayDate := s + n }

def shiftDinners (pg : Pg) (startDate : String) (id : ℤ) : Stmt Unit where
  label := .shiftDinners
  run d := do
    let s ← date pg startDate
    .ok (((packed s (dinnersOf d id)).map .put).map .dinner, ())

/-- `curEnd + (newStart - curStart)`. -/
def computeEnd (pg : Pg) (curEnd newStart curStart : String) : Stmt String where
  label := .computeEnd
  run _ := do
    let e ← date pg curEnd
    let s' ← date pg newStart
    let s ← date pg curStart
    .ok ([], text (e + (s' - s)))

def computeIsoWeek (pg : Pg) (startDate : String) : Stmt String where
  label := .computeIsoWeek
  run _ := do
    let s ← date pg startDate
    .ok ([], isoWeek s)

/-- The dinners of a plan that lie after `e`. -/
def dinnersAfter (d : Db) (id e : ℤ) : List ℤ :=
  ((dinnersOf d id).filter fun r => e < r.dayDate).map Dinner.id

def truncateDinners (pg : Pg) (id : ℤ) (endDate : String) : Stmt Unit where
  label := .truncateDinners
  run d := do
    let e ← date pg endDate
    .ok (deleteDinners d (dinnersAfter d id e), ())

/-- One empty slot for each day of `days`. -/
def emptySlots (d : Db) (id : ℤ) (days : List ℤ) : List Dinner :=
  Table.numbered d.dinners.next (days.map (emptySlot id))

def addEmptySlots (pg : Pg) (id : ℤ) (curEnd endDate : String) : Stmt Unit where
  label := .addEmptySlots
  run d := do
    let e ← date pg curEnd
    let e' ← date pg endDate
    let slots := emptySlots d id (span (e + 1) e')
    if slots = [] then .ok ([], ()) else do
      references d.weeks "week_id" id
      .ok ((slots.map .put).map .dinner, ())

/-- The patch and the dates the resize of the end goes by. -/
structure Shifted where
  patch : WeekPatch
  curStart : String
  curEnd : String

/-- The end the resize compares with, and the end asked for: the end slides along with the
start unless the caller set it too. -/
def slideEnd (pg : Pg) (p : WeekPatch) (newStart curStart curEnd : String) :
    Tx Resp (String × String) :=
  match p.endDate with
  | some e => pure (curEnd, e)
  | none => do
    let effectiveEnd ← Tx.query (computeEnd pg curEnd newStart curStart) fun _ => internalError
    pure (effectiveEnd, effectiveEnd)

def newIsoWeek (pg : Pg) (p : WeekPatch) (newStart : String) : Tx Resp String :=
  match p.isoWeek with
  | some iso => pure iso
  | none => Tx.query (computeIsoWeek pg newStart) fun _ => internalError

def startShift (pg : Pg) (id : ℤ) (p : WeekPatch) (curStart curEnd : String) :
    Tx Resp Shifted :=
  match p.startDate with
  | none => pure ⟨p, curStart, curEnd⟩
  | some s =>
    if s = curStart then pure ⟨p, curStart, curEnd⟩ else do
      Tx.query (shiftDinners pg s id) fun _ => internalError
      let ends ← slideEnd pg p s curStart curEnd
      let iso ← newIsoWeek pg p s
      pure ⟨{ p with endDate := some ends.2, isoWeek := some iso }, s, ends.1⟩

def endResize (pg : Pg) (id : ℤ) (p : WeekPatch) (curStart curEnd : String) : Tx Resp Unit :=
  match p.endDate with
  | none => pure ()
  | some e =>
    if e = curEnd then pure ()
    else if textLt e curStart then Tx.fail (.error 400 "end_date cannot be before start_date")
    else if textLt e curEnd then Tx.query (truncateDinners pg id e) fun _ => internalError
    else if textLt curEnd e then Tx.query (addEmptySlots pg id curEnd e) fun _ => internalError
    else pure ()

def patchTx (pg : Pg) (now id : ℤ) (p : WeekPatch) : Tx Resp Unit := do
  match ← Tx.query (weekDates id) fun _ => internalError with
  | none => Tx.fail notFound
  | some (curStart, curEnd) =>
    let s ← startShift pg id p curStart curEnd
    endResize pg id s.patch s.curStart s.curEnd
    let n ← updateWeek (Tx.query · fun _ => internalError) pg now id s.patch.toUpdate
    if n = 0 then Tx.fail notFound else pure ()

/-- An absent date, or one of the shape `dateRE` asks for. -/
def dateOk (v : Option String) : Bool := v.all fun s => isoShape s.toList

section

variable {Q : Type} {A : Q → Type}

/-- `id` is what the path parses to, with a value below 1 when it does not, and `body` the
decoded request. -/
def handlePatchWeek (pg : Pg) (now id : ℤ) (body : Except String WeekPatch) : Prog Q A Resp Resp :=
  if id < 1 then Prog.fail (.error 400 "bad id") else
  match body with
  | .error e => Prog.fail (.error 400 ("bad json: " ++ e))
  | .ok p =>
    if !dateOk p.startDate then Prog.fail (.error 400 "start_date must be YYYY-MM-DD")
    else if !dateOk p.endDate then Prog.fail (.error 400 "end_date must be YYYY-MM-DD")
    else do
      Prog.transaction (patchTx pg now id p)
      reload pg id

end

/-! ### Clone -/

/-- Inserts the target plan and answers with its id, or with nothing when there is no source. -/
def cloneTarget (pg : Pg) (now : ℤ) (startDate : String) (sourceId : ℤ) : Stmt (Option ℤ) where
  label := .cloneTarget
  run d := do
    let given ← addDate pg (some startDate)
    match d.weeks.find? sourceId with
    | none => .ok ([], none)
    | some src =>
      let newStart := (given.getD none).getD (src.startDate + 7)
      let w : Week := ⟨d.weeks.next, isoWeek newStart, newStart,
        newStart + (src.endDate - src.startDate), none, none, .draft, "", now⟩
      .ok ([.week (.put w)], some w.id)

/-- The source's dinners, packed from the start of the target. -/
def clonedDinners (d : Db) (w : Week) (sourceId : ℤ) : List Dinner :=
  Table.numbered d.dinners.next ((packed w.startDate (dinnersOf d sourceId)).map
    fun r id => { r with id := id, weekId := w.id })

def cloneDinners (targetId sourceId : ℤ) : Stmt Unit where
  label := .cloneDinners
  run d := match d.weeks.find? targetId with
    | none =>
      -- the scalar subquery is NULL for every row there is to copy
      if dinnersOf d sourceId = [] then .ok ([], ()) else .error (.notNull "day_date")
    | some w => .ok (((clonedDinners d w sourceId).map .put).map .dinner, ())

/-- The days of the plan that no dinner of it lies on. -/
def missingDays (d : Db) (w : Week) : List ℤ :=
  (span w.startDate w.endDate).filter fun day => day ∉ (dinnersOf d w.id).map Dinner.dayDate

def padDays (targetId : ℤ) : Stmt Unit where
  label := .padDays
  run d := match d.weeks.find? targetId with
    | none => .ok ([], ())
    | some w => .ok (((emptySlots d w.id (missingDays d w)).map .put).map .dinner, ())

def cloneTx (pg : Pg) (now : ℤ) (startDate : String) (sourceId : ℤ) : Tx Resp ℤ := do
  match ← Tx.query (cloneTarget pg now startDate sourceId) fun _ => internalError with
  | none => Tx.fail notFound
  | some targetId =>
    Tx.query (cloneDinners targetId sourceId) fun _ => internalError
    Tx.query (padDays targetId) fun _ => internalError
    pure targetId

section

variable {Q : Type} {A : Q → Type}

/-- `body` is the decoded `start_date`, empty when the request has none. -/
def handleCloneWeek (pg : Pg) (now sourceId : ℤ) (body : Except String String) :
    Prog Q A Resp Resp :=
  if sourceId < 1 then Prog.fail (.error 400 "bad id") else
  match body with
  | .error e => Prog.fail (.error 400 ("bad json: " ++ e))
  | .ok startDate =>
    if startDate ≠ "" ∧ !isoShape startDate.toList then
      Prog.fail (.error 400 "start_date must be YYYY-MM-DD")
    else do
      let targetId ← Prog.transaction (cloneTx pg now startDate sourceId)
      reload pg targetId

end

/-! ### Create -/

structure WeekCreate where
  startDate : String
  endDate : String
  notesMd : String

/-- `INSERT INTO weeks … RETURNING id`, the label computed from the start. -/
def createWeek (pg : Pg) (now : ℤ) (c : WeekCreate) : Stmt ℤ where
  label := .insertWeek
  run d := do
    let s ← date pg c.startDate
    let e ← date pg c.endDate
    .ok ([.week (.put ⟨d.weeks.next, isoWeek s, s, e, none, none, .draft, c.notesMd, now⟩)],
      d.weeks.next)

section

variable {Q : Type} {A : Q → Type}

/-- Answers with the detail, as created. -/
def handleCreateWeek (pg : Pg) (now : ℤ) (body : Except String WeekCreate) :
    Prog Q A Resp WeekDetail :=
  match body with
  | .error e => Prog.fail (.error 400 ("bad json: " ++ e))
  | .ok c =>
    if !isoShape c.startDate.toList || !isoShape c.endDate.toList then
      Prog.fail (.error 400 "start_date and end_date must be YYYY-MM-DD")
    else do
      let id ← Prog.query (createWeek pg now c) fun _ => internalError
      let ws ← readOne (select .read fun d => (d.weeks.find? id).map (weekSelect pg d))
      loadWeekDetail pg ws

end

end Veckomenyn.Weeks
