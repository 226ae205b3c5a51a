import Veckomenyn.Agent
import Veckomenyn.Faults
import Veckomenyn.Preferences
import Veckomenyn.Setup

/-!
The database under everything that writes to it.

The handlers of the API, the seed of the preferences and the calls of the agent's tools run one
after the other, each at its time; any of their statements may fail. What a request answers is told
as far as it is a success or not.
-/

namespace Veckomenyn.Service

open Rows Schema Sql Txn Tools WkCtx CartTools Agent

/-! ### Plans deleted, dinners rated, notes kept -/

inductive Resp where
  | error (code : ℕ) (text : String)
  | rating (rating notes : String)
  | noContent
deriving DecidableEq, Repr

def internalError : Resp := .error 500 "internal server error"

def notFound : Resp := .error 404 "not found"

/-- The row, and what refers to it with `ON DELETE CASCADE`. -/
def cascade (d : Db) (id : ℤ) : List Write :=
  .week (.del id) :: deleteDinners d ((dinnersOf d id).map Dinner.id) ++
    (((d.exceptions.rows.filter fun r => r.weekId = id).map WeekException.id).map .del).map
      .exception ++
    (((d.retrospectives.rows.filter fun r => r.weekId = id).map Retrospective.id).map .del).map
      .retrospective ++
    (((d.cartItems.rows.filter fun r => r.weekId = some id).map CartItem.id).map .del).map .cartItem

/-- `DELETE FROM weeks WHERE id = $1`, with the number of plans deleted. -/
def deleteWeek (id : ℤ) : Stmt ℕ where
  label := .updateWeek
  run d := match d.weeks.find? id with
    | none => .ok ([], 0)
    | some _ => .ok (cascade d id, 1)

/-- `INSERT … SELECT … ON CONFLICT (week_dinner_id) DO UPDATE`, with the number of rows. -/
def setRating (dinnerId : ℤ) (rating notes : String) : Stmt ℕ where
  label := .upsertRating
  run d := match d.dinners.find? dinnerId with
    | none => .ok ([], 0)
    | some _ => match Verdict.ofText rating with
      | none => .error (.check "dish_ratings_rating_check")
      | some v => match d.ratings.rows.find? fun r => r.weekDinnerId = dinnerId with
        | none => .ok ([.rating (.put ⟨d.ratings.next, dinnerId, some v, notes⟩)], 1)
        | some r => .ok ([.rating (.put { r with rating := some v, notes := notes })], 1)

def clearRating (dinnerId : ℤ) : Stmt Unit where
  label := .upsertRating
  run d := .ok ((((d.ratings.rows.filter fun r => r.weekDinnerId = dinnerId).map
    Rating.id).map .del).map .rating, ())

/-- The retrospective of the plan with the latest `created_at`. -/
def newestRetrospective (weekId : ℤ) (d : Db) : Option Retrospective :=
  ((d.retrospectives.rows.filter fun r => r.weekId = weekId).insertionSort
    fun a b => b.createdAt ≤ a.createdAt).head?

/-- The newest one gets the text; with the number of rows. -/
def updateNewest (weekId : ℤ) (notesMD : String) : Stmt ℕ where
  label := .insertRetrospective
  run d := match newestRetrospective weekId d with
    | none => .ok ([], 0)
    | some r => .ok ([.retrospective (.put { r with notesMd := notesMD })], 1)

structure DinnerRatingPut where
  rating : String
  notes : String

section

variable {Q : Type} {A : Q → Type}

def handleDeleteWeek (id : ℤ) : Prog Q A Resp Resp :=
  if id < 1 then Prog.fail (.error 400 "bad id") else do
    let n ← Prog.query (deleteWeek id) fun _ => internalError
    if n = 0 then Prog.fail notFound else pure .noContent

def setDinnerRating (dinnerId : ℤ) (rating notes : String) : Prog Q A Resp Unit := do
  let n ← Prog.query (setRating dinnerId rating notes) fun _ => internalError
  if n = 0 then Prog.fail notFound else pure ()

def handlePutDinnerRating (id : ℤ) (body : Except String DinnerRatingPut) : Prog Q A Resp Resp :=
  if id < 1 then Prog.fail (.error 400 "bad id") else
  match body with
  | .error e => Prog.fail (.error 400 ("bad json: " ++ e))
  | .ok body =>
    if (Verdict.ofText body.rating).isNone then
      Prog.fail (.error 400 "bad rating (expected one of loved/liked/meh/disliked)")
    else do
      setDinnerRating id body.rating body.notes
      pure (.rating body.rating body.notes)

def handleDeleteDinnerRating (id : ℤ) : Prog Q A Resp Resp :=
  if id < 1 then Prog.fail (.error 400 "bad id") else do
    Prog.query (clearRating id) fun _ => internalError
    pure .noContent

/-- Three statements, none of them in a transaction. -/
def upsertWeekRetrospective (now weekId : ℤ) (notesMD : String) : Prog Q A Resp Unit := do
  let found ← Prog.query (select .read fun d => (d.weeks.find? weekId).isSome) fun _ =>
    internalError
  if found then do
    let n ← Prog.query (updateNewest weekId notesMD) fun _ => internalError
    if 0 < n then pure ()
    else Prog.query (insertRetrospective now weekId notesMD) fun _ => internalError
  else Prog.fail notFound

def handlePutWeekRetrospective (now id : ℤ) (body : Except String String) : Prog Q A Resp Resp :=
  if id < 1 then Prog.fail (.error 400 "bad id") else
  match body with
  | .error e => Prog.fail (.error 400 ("bad json: " ++ e))
  | .ok notesMD => do
    upsertWeekRetrospective now id notesMD
    pure .noContent

end

/-! ### Requests -/

/-- A request by its decoded parts, or the text of what is wrong with its body. -/
inductive Request where
  | createWeek (body : Except String Weeks.WeekCreate)
  | patchWeek (id : ℤ) (body : Except String Weeks.WeekPatch)
  | cloneWeek (sourceId : ℤ) (body : Except String String)
  | deleteWeek (id : ℤ)
  | putDinnerRating (id : ℤ) (body : Except String DinnerRatingPut)
  | deleteDinnerRating (id : ℤ)
  | putWeekRetrospective (id : ℤ) (body : Except String String)
  | putPreference (category : String) (body : Except String Preferences.PreferencePatch)
  | deletePreference (category : String)
  | seedPreferences (entries : List Preferences.Entry)
  | patchSettings (body : Except String Setup.SettingsPatch)
  | call (ctx : Ctx) (today : ℤ) (call : ToolCall)

/-- `faults` are the statements of the request that fail. -/
structure Visit where
  now : ℤ
  request : Request
  faults : ℕ → Option DbError

section

variable {σ : Type} (S : Agent.Setup) (ans : (q : Call) → σ → Answer q × σ)

def ends {ε α : Type} (lost : DbError → ε) (x : Prog Call Answer ε α) (f : ℕ → Option DbError)
    (c : Db × σ) : Bool × Db × σ :=
  let r := x.runWith f lost ans 0 c
  (r.1.1.isOk, r.2)

/-- Whether the request is answered with success, and what it leaves. -/
def visit (c : Db × σ) (v : Visit) : Bool × Db × σ :=
  match v.request with
  | .createWeek body =>
    ends ans (fun _ => Weeks.internalError) (Weeks.handleCreateWeek S.pg v.now body) v.faults c
  | .patchWeek id body =>
    ends ans (fun _ => Weeks.internalError) (Weeks.handlePatchWeek S.pg v.now id body) v.faults c
  | .cloneWeek id body =>
    ends ans (fun _ => Weeks.internalError) (Weeks.handleCloneWeek S.pg v.now id body) v.faults c
  | .deleteWeek id => ends ans (fun _ => internalError) (handleDeleteWeek id) v.faults c
  | .putDinnerRating id body =>
    ends ans (fun _ => internalError) (handlePutDinnerRating id body) v.faults c
  | .deleteDinnerRating id =>
    ends ans (fun _ => internalError) (handleDeleteDinnerRating id) v.faults c
  | .putWeekRetrospective id body =>
    ends ans (fun _ => internalError) (handlePutWeekRetrospective v.now id body) v.faults c
  | .putPreference category body =>
    ends ans (fun _ => Preferences.internalError) (Preferences.handlePutPreference category body)
      v.faults c
  | .deletePreference category =>
    ends ans (fun _ => Preferences.internalError) (Preferences.handleDeletePreference category)
      v.faults c
  | .seedPreferences entries =>
    ends ans (fun e => (0, .insert "" e)) (Preferences.seedPreferences entries) v.faults c
  | .patchSettings body =>
    ends ans (fun _ => Setup.internalError) (Setup.handlePatchSettings body) v.faults c
  | .call ctx today call => ends ans ToolError.db (callTool S ⟨ctx, v.now, today, call⟩) v.faults c

def serve (c : Db × σ) (vs : List Visit) : Db × σ := vs.foldl (fun c v => (visit S ans c v).2) c

end

end Veckomenyn.Service
