import Veckomenyn.Store

/-!
The plan a chat is bound to, and the guards that go by it.

The guards run their reads on the pool, before the tool they guard begins to write.
-/

namespace Veckomenyn.WkCtx

open Rows Schema Sql Txn

/-- What a tool call can fail with. -/
inductive ToolError where
  | db (e : DbError)
  | noRows
  | input
  | text (s : String)
deriving DecidableEq

/-- The plan id on the context, `0` for none. -/
structure Ctx where
  weekId : ℤ
deriving DecidableEq

def background : Ctx := ⟨0⟩

def withWeekId (ctx : Ctx) (id : ℤ) : Ctx := if id ≤ 0 then ctx else ⟨id⟩

def resolvePlan (ctx : Ctx) (provided : ℤ) : Except ToolError ℤ :=
  if 0 < ctx.weekId then
    if 0 < provided ∧ provided ≠ ctx.weekId then
      .error (.text ("this chat is tied to plan id=" ++ toString ctx.weekId ++
        "; refuse to edit plan id=" ++ toString provided ++
        ". Ask the user to open that plan first"))
    else .ok ctx.weekId
  else if 0 < provided then .ok provided
  else .error (.text "no plan in scope; pass week_id or open a plan first")

/-- Refused, for a row `what` of the plan `weekId`. -/
def otherPlan (what : String) (id weekId : ℤ) (ctx : Ctx) : ToolError :=
  .text (what ++ " id=" ++ toString id ++ " belongs to plan id=" ++ toString weekId ++
    "; this chat is tied to plan id=" ++ toString ctx.weekId ++
    ". Ask the user to open that plan to edit it")

def locked (weekId : ℤ) (status : String) : ToolError :=
  .text ("plan id=" ++ toString weekId ++ " is locked (status=" ++ status ++
    "); menu edits aren't allowed. Tell the user the plan is past planning and ask them to " ++
    "reopen it to draft from the status menu if they really want to change the menu")

def dinnerWeek (id : ℤ) : Stmt (Option ℤ) := select .dinnerWeek fun d =>
  (d.dinners.find? id).map Dinner.weekId

def exceptionWeek (id : ℤ) : Stmt (Option ℤ) := select .exceptionWeek fun d =>
  (d.exceptions.find? id).map WeekException.weekId

def weekStatus (id : ℤ) : Stmt (Option String) := select .weekStatus fun d =>
  (d.weeks.find? id).map fun w => w.status.text

section

variable {Q : Type} {A : Q → Type}

/-- `QueryRow` and `Scan`: no row is an error. -/
def queryRow {β : Type} (s : Stmt (Option β)) : Prog Q A ToolError β := do
  match ← Prog.query s ToolError.db with
  | some b => pure b
  | none => Prog.fail .noRows

def checkDinnerInScope (ctx : Ctx) (dinnerId : ℤ) : Prog Q A ToolError Unit :=
  if ctx.weekId = 0 then pure () else do
    let weekId ← queryRow (dinnerWeek dinnerId)
    if weekId ≠ ctx.weekId then Prog.fail (otherPlan "dinner" dinnerId weekId ctx) else pure ()

def ensureEditable (weekId : ℤ) : Prog Q A ToolError Unit := do
  let status ← queryRow (weekStatus weekId)
  if status ≠ "draft" then Prog.fail (locked weekId status) else pure ()

def ensureDinnerEditable (ctx : Ctx) (dinnerId : ℤ) : Prog Q A ToolError Unit := do
  checkDinnerInScope ctx dinnerId
  let weekId ← queryRow (dinnerWeek dinnerId)
  ensureEditable weekId

def ensureExceptionEditable (ctx : Ctx) (exceptionId : ℤ) : Prog Q A ToolError Unit := do
  let weekId ← queryRow (exceptionWeek exceptionId)
  if ctx.weekId ≠ 0 ∧ weekId ≠ ctx.weekId then
    Prog.fail (otherPlan "exception" exceptionId weekId ctx)
  else ensureEditable weekId

end

end Veckomenyn.WkCtx
