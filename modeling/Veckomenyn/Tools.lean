import Veckomenyn.WkCtx

/-!
The agent's tools that write to the database.

Every tool takes its decoded input, `none` when the JSON does not decode. Dates, JSON
documents and numbers are checked by the statement they are bound to.
-/

namespace Veckomenyn.Tools

open Rows DateText Schema Sql Store Txn WkCtx

/-- Two tools' default: an absent or zero number of servings. -/
def servingsOr4 (n : ℤ) : ℤ := if n = 0 then 4 else n

/-- `NULLIF(s, '')`. -/
def nullIfEmpty (s : String) : Option String := if s = "" then none else some s

/-- An absent document is the empty object. -/
def sourcingOr (s : Option String) : String :=
  match s with
  | none => "\x7b\x7d"
  | some s => if s = "" then "\x7b\x7d" else s

/-! ### Statements -/

def deletePrinciples (category : String) : Stmt Unit where
  label := .deletePrinciple
  run d := .ok ((((d.principles.rows.filter fun r => r.category = category).map
    Principle.id).map .del).map .principle, ())

def insertPrinciple (category bodyMd : String) : Stmt Unit where
  label := .insertPrinciple
  run d := .ok ([.principle (.put ⟨d.principles.next, category, bodyMd⟩)], ())

/-- `INSERT INTO weeks … RETURNING id`. -/
def insertWeek (pg : Pg) (now : ℤ) (isoWeek startDate endDate deliveryDate orderDate
    notesMd : String) : Stmt ℤ where
  label := .insertWeek
  run d := do
    let s ← date pg startDate
    let e ← date pg endDate
    let delivery ← addDate pg (some deliveryDate)
    let order ← addDate pg (some orderDate)
    .ok ([.week (.put ⟨d.weeks.next, isoWeek, s, e, delivery.getD none, order.getD none, .draft,
      notesMd, now⟩)], d.weeks.next)

/-- The plan with the label, of several the one updated last. -/
def latestWith (isoWeek : String) (d : Db) : Option ℤ :=
  (((d.weeks.rows.filter fun w => w.isoWeek = isoWeek).insertionSort
    fun a b => b.updatedAt ≤ a.updatedAt).head?).map Week.id

def weekByIso (isoWeek : String) : Stmt (Option ℤ) := select .weekByIso (latestWith isoWeek)

def insertDish (pg : Pg) (name cuisine recipeMd : String) (servings : ℤ) (tags : String)
    (lastMadeAt : String) : Stmt ℤ where
  label := .insertDish
  run d := do
    let servings ← int4 "servings" servings
    let tags ← jsonb pg tags
    let day ← date pg lastMadeAt
    .ok ([.dish (.put ⟨d.dishes.next, name, nullIfEmpty cuisine, recipeMd, servings, tags,
      some day⟩)], d.dishes.next)

def insertDinner (pg : Pg) (weekId : ℤ) (dayDate : String) (dishId servings : ℤ)
    (sourcing notes : String) : Stmt ℤ where
  label := .insertDinner
  run d := do
    let day ← date pg dayDate
    let servings ← int4 "servings" servings
    let sourcing ← jsonb pg sourcing
    references d.weeks "week_id" weekId
    references d.dishes "dish_id" dishId
    .ok ([.dinner (.put ⟨d.dinners.next, weekId, day, some dishId, servings, sourcing, notes, 0⟩)],
      d.dinners.next)

def dinnerDay (dinnerId : ℤ) : Stmt (Option String) := select .dinnerDay fun d =>
  (d.dinners.find? dinnerId).map fun r => text r.dayDate

/-- The dinner's dish, servings, sourcing and notes are replaced. -/
def repointDinner (pg : Pg) (dinnerId dishId servings : ℤ) (sourcing notes : String) :
    Stmt Unit where
  label := .repointDinner
  run d := do
    let servings ← int4 "servings" servings
    let sourcing ← jsonb pg sourcing
    match d.dinners.find? dinnerId with
    | none => .ok ([], ())
    | some r => do
      references d.dishes "dish_id" dishId
      .ok ([.dinner (.put { r with
        dishId := some dishId, servings := servings, sourcing := sourcing, notes := notes })], ())

/-- With the number of dinners deleted. -/
def deleteDinner (dinnerId : ℤ) : Stmt ℕ where
  label := .deleteDinner
  run d := match d.dinners.find? dinnerId with
    | none => .ok ([], 0)
    | some _ => .ok (deleteDinners d [dinnerId], 1)

def insertException (weekId : ℤ) (kind description : String) : Stmt ℤ where
  label := .insertException
  run d := do
    references d.weeks "week_id" weekId
    .ok ([.exception (.put ⟨d.exceptions.next, weekId, kind, description⟩)], d.exceptions.next)

def updateException (exceptionId : ℤ) (kind description : Option String) : Stmt Unit where
  label := .updateException
  run d := match d.exceptions.find? exceptionId with
    | none => .ok ([], ())
    | some r => .ok ([.exception (.put { r with
        kind := kind.getD r.kind, description := description.getD r.description })], ())

def deleteException (exceptionId : ℤ) : Stmt Unit where
  label := .deleteException
  run d := match d.exceptions.find? exceptionId with
    | none => .ok ([], ())
    | some _ => .ok ([.exception (.del exceptionId)], ())

def insertRetrospective (now weekId : ℤ) (notesMd : String) : Stmt Unit where
  label := .insertRetrospective
  run d := do
    references d.weeks "week_id" weekId
    .ok ([.retrospective (.put ⟨d.retrospectives.next, weekId, notesMd, now⟩)], ())

/-- `ON CONFLICT (week_dinner_id) DO UPDATE`. -/
def upsertRating (dinnerId : ℤ) (rating notes : String) : Stmt Unit where
  label := .upsertRating
  run d := match Verdict.ofText rating with
    | none => .error (.check "dish_ratings_rating_check")
    | some v => do
      references d.dinners "week_dinner_id" dinnerId
      match d.ratings.rows.find? fun r => r.weekDinnerId = dinnerId with
      | none => .ok ([.rating (.put ⟨d.ratings.next, dinnerId, some v, notes⟩)], ())
      | some r => .ok ([.rating (.put { r with rating := some v, notes := notes })], ())

/-! ### Inputs -/

structure PreferenceInput where
  category : String
  bodyMd : String

structure SettingsInput where
  defaultDinners : Option ℤ
  defaultDeliveryWeekday : Option ℤ
  defaultOrderOffsetDays : Option ℤ
  defaultServings : Option ℤ
  notesMd : Option String

structure CreateWeekInput where
  isoWeek : String
  startDate : String
  endDate : String
  deliveryDate : String
  orderDate : String
  notes : String

structure UpdateWeekInput where
  weekId : ℤ
  isoWeek : String
  newIsoWeek : Option String
  startDate : Option String
  endDate : Option String
  deliveryDate : Option String
  orderDate : Option String
  status : Option String
  notesMd : Option String

structure AddDinnerInput where
  weekId : ℤ
  dayDate : String
  dishName : String
  cuisine : String
  recipeMd : String
  servings : ℤ
  sourcingJson : Option String
  notes : String
  tags : List String

structure UpdateDinnerInput where
  dinnerId : ℤ
  dishName : String
  cuisine : String
  recipeMd : String
  servings : ℤ
  sourcingJson : Option String
  notes : String

structure AddExceptionInput where
  weekId : ℤ
  kind : String
  description : String

structure UpdateExceptionInput where
  exceptionId : ℤ
  kind : Option String
  description : Option String

structure RatingInput where
  dinnerId : ℤ
  rating : String
  notes : String

structure RetrospectiveInput where
  weekId : ℤ
  notes : String
  ratings : List RatingInput

def WeekUpdate.ofInput (i : UpdateWeekInput) : WeekUpdate :=
  ⟨i.newIsoWeek, i.startDate, i.endDate, i.deliveryDate, i.orderDate, i.status, i.notesMd⟩

/-- The columns of `household_settings` an update sets, and their checks. -/
def updateSettings (i : SettingsInput) : Stmt Unit where
  label := .updateSettings
  run d := do
    let dinners ← int4 "default_dinners" (i.defaultDinners.getD d.settings.defaultDinners)
    let weekday ← int4 "default_delivery_weekday"
      (i.defaultDeliveryWeekday.getD d.settings.defaultDeliveryWeekday)
    let offset ← int4 "default_order_offset_days"
      (i.defaultOrderOffsetDays.getD d.settings.defaultOrderOffsetDays)
    let servings ← int4 "default_servings" (i.defaultServings.getD d.settings.defaultServings)
    if ¬(1 ≤ dinners ∧ dinners ≤ 14) then .error (.check "default_dinners")
    else if ¬(1 ≤ weekday ∧ weekday ≤ 7) then .error (.check "default_delivery_weekday")
    else if ¬(1 ≤ servings ∧ servings ≤ 20) then .error (.check "default_servings")
    else .ok ([.settings { d.settings with
      defaultDinners := dinners
      defaultDeliveryWeekday := weekday
      defaultOrderOffsetDays := offset
      defaultServings := servings
      notesMd := i.notesMd.getD d.settings.notesMd }], ())

def SettingsInput.isEmpty (i : SettingsInput) : Bool :=
  i.defaultDinners.isNone && i.defaultDeliveryWeekday.isNone && i.defaultOrderOffsetDays.isNone &&
    i.defaultServings.isNone && i.notesMd.isNone

/-! ### Tools -/

section

variable {Q : Type} {A : Q → Type}

/-- `json.Unmarshal` into the tool's input. -/
def unmarshal {ι : Type} (input : Option ι) : Prog Q A ToolError ι :=
  match input with
  | some i => pure i
  | none => Prog.fail .input

def orFail {α : Type} (r : Except ToolError α) : Prog Q A ToolError α :=
  match r with
  | .ok a => pure a
  | .error e => Prog.fail e

def updatePreferenceTool (input : Option PreferenceInput) : Prog Q A ToolError String := do
  let i ← unmarshal input
  Prog.transaction do
    Tx.query (deletePrinciples i.category) ToolError.db
    Tx.query (insertPrinciple i.category i.bodyMd) ToolError.db
  pure ("updated " ++ i.category ++ " (" ++ toString i.bodyMd.utf8ByteSize ++ " bytes)")

def updateHouseholdSettings (i : SettingsInput) : Prog Q A ToolError Unit :=
  if i.isEmpty then pure () else Prog.query (updateSettings i) ToolError.db

def updateHouseholdSettingsTool (input : Option SettingsInput) : Prog Q A ToolError String := do
  let i ← unmarshal input
  updateHouseholdSettings i
  pure "updated household settings"

def createWeekTool (pg : Pg) (now : ℤ) (input : Option CreateWeekInput) :
    Prog Q A ToolError String := do
  let i ← unmarshal input
  let id ← Prog.query (insertWeek pg now i.isoWeek i.startDate i.endDate i.deliveryDate i.orderDate
    i.notes) ToolError.db
  pure ("created week id=" ++ toString id ++ " (" ++ i.isoWeek ++ ", " ++ i.startDate ++ " → " ++
    i.endDate ++ ")")

/-- The plan an update names, by id or by label; no plan with the label is an answer, not a
failure. -/
def lookUpWeek (i : UpdateWeekInput) : Prog Q A ToolError (Option ℤ) :=
  if i.weekId = 0 ∧ i.isoWeek ≠ "" then Prog.query (weekByIso i.isoWeek) ToolError.db
  else pure (some i.weekId)

def updateWeekTool (pg : Pg) (now : ℤ) (ctx : Ctx) (input : Option UpdateWeekInput) :
    Prog Q A ToolError String := do
  let i ← unmarshal input
  match ← lookUpWeek i with
  | none => pure ("no week with iso_week=" ++ i.isoWeek)
  | some id => do
    let id ← orFail (resolvePlan ctx id)
    let n ← updateWeek (Prog.query · ToolError.db) pg now id (WeekUpdate.ofInput i)
    if n = 0 then pure ("no week with id=" ++ toString id)
    else pure ("updated week id=" ++ toString id)

/-- `json.Marshal` of the tags; an absent list is the empty one. `quote` is the JSON text of a
string. -/
def tagsJson (quote : String → String) (tags : List String) : String :=
  "[" ++ ",".intercalate (tags.map quote) ++ "]"

def addDinnerTx (pg : Pg) (quote : String → String) (weekId : ℤ) (i : AddDinnerInput) :
    Tx ToolError (ℤ × ℤ) := do
  let servings := servingsOr4 i.servings
  let dishId ← Tx.query (insertDish pg i.dishName i.cuisine i.recipeMd servings
    (tagsJson quote i.tags) i.dayDate) ToolError.db
  let dinnerId ← Tx.query (insertDinner pg weekId i.dayDate dishId servings
    (sourcingOr i.sourcingJson) i.notes) ToolError.db
  pure (dishId, dinnerId)

def addDinnerTool (pg : Pg) (quote : String → String) (ctx : Ctx) (input : Option AddDinnerInput) :
    Prog Q A ToolError String := do
  let i ← unmarshal input
  let weekId ← orFail (resolvePlan ctx i.weekId)
  ensureEditable weekId
  let ids ← Prog.transaction (addDinnerTx pg quote weekId i)
  pure ("added dinner id=" ++ toString ids.2 ++ " (dish_id=" ++ toString ids.1 ++ ", '" ++
    i.dishName ++ "' on " ++ i.dayDate ++ ")")

def updateDinnerTx (pg : Pg) (i : UpdateDinnerInput) : Tx ToolError ℤ := do
  let servings := servingsOr4 i.servings
  match ← Tx.query (dinnerDay i.dinnerId) ToolError.db with
  | none => Tx.fail .noRows
  | some dayDate => do
    let dishId ← Tx.query (insertDish pg i.dishName i.cuisine i.recipeMd servings "[]" dayDate)
      ToolError.db
    Tx.query (repointDinner pg i.dinnerId dishId servings (sourcingOr i.sourcingJson) i.notes)
      ToolError.db
    pure dishId

def updateDinnerTool (pg : Pg) (ctx : Ctx) (input : Option UpdateDinnerInput) :
    Prog Q A ToolError String := do
  let i ← unmarshal input
  ensureDinnerEditable ctx i.dinnerId
  let dishId ← Prog.transaction (updateDinnerTx pg i)
  pure ("updated dinner id=" ++ toString i.dinnerId ++ " → dish '" ++ i.dishName ++
    "' (dish_id=" ++ toString dishId ++ ")")

def deleteDinnerTool (ctx : Ctx) (input : Option ℤ) : Prog Q A ToolError String := do
  let dinnerId ← unmarshal input
  ensureDinnerEditable ctx dinnerId
  let n ← Prog.query (deleteDinner dinnerId) ToolError.db
  if n = 0 then pure ("no dinner with id=" ++ toString dinnerId)
  else pure ("deleted dinner id=" ++ toString dinnerId)

def addExceptionTool (ctx : Ctx) (input : Option AddExceptionInput) :
    Prog Q A ToolError String := do
  let i ← unmarshal input
  let weekId ← orFail (resolvePlan ctx i.weekId)
  ensureEditable weekId
  let id ← Prog.query (insertException weekId i.kind i.description) ToolError.db
  pure ("added exception id=" ++ toString id ++ " (" ++ i.kind ++ ": " ++ i.description ++ ")")

def updateExceptionTool (ctx : Ctx) (input : Option UpdateExceptionInput) :
    Prog Q A ToolError String := do
  let i ← unmarshal input
  if i.kind = none ∧ i.description = none then
    Prog.fail (.text "nothing to update: pass kind and/or description")
  else do
    ensureExceptionEditable ctx i.exceptionId
    Prog.query (updateException i.exceptionId i.kind i.description) ToolError.db
    pure ("updated exception id=" ++ toString i.exceptionId)

def deleteExceptionTool (ctx : Ctx) (input : Option ℤ) : Prog Q A ToolError String := do
  let exceptionId ← unmarshal input
  ensureExceptionEditable ctx exceptionId
  Prog.query (deleteException exceptionId) ToolError.db
  pure ("deleted exception id=" ++ toString exceptionId)

/-- A rating attaches to a dinner of the plan the retrospective is for. -/
def rateDinner (weekId : ℤ) (r : RatingInput) : Tx ToolError Unit := do
  match ← Tx.query (dinnerWeek r.dinnerId) ToolError.db with
  | none => Tx.fail .noRows
  | some dinnerWeek =>
    if dinnerWeek ≠ weekId then
      Tx.fail (.text ("rating dinner_id=" ++ toString r.dinnerId ++ " belongs to plan " ++
        toString dinnerWeek ++ ", not " ++ toString weekId))
    else Tx.query (upsertRating r.dinnerId r.rating r.notes) ToolError.db

def rateDinners (weekId : ℤ) : List RatingInput → Tx ToolError Unit
  | [] => pure ()
  | r :: rs => do
    rateDinner weekId r
    rateDinners weekId rs

def recordRetrospectiveTool (now : ℤ) (ctx : Ctx) (input : Option RetrospectiveInput) :
    Prog Q A ToolError String := do
  let i ← unmarshal input
  let weekId ← orFail (resolvePlan ctx i.weekId)
  Prog.transaction do
    Tx.query (insertRetrospective now weekId i.notes) ToolError.db
    rateDinners weekId i.ratings
  pure ("recorded retrospective for week " ++ toString weekId ++ " with " ++
    toString i.ratings.length ++ " ratings")

end

end Veckomenyn.Tools
