import Veckomenyn.CartTools
import Veckomenyn.ReadTools

/-!
The agent's registry of tools, and chats.

A turn is one tool call, made in the context of a chat at some time. The tools over the
shopping provider are registered only when a provider is configured. A run makes the calls
one after the other.
-/

namespace Veckomenyn.Agent

open Rows Schema Sql Store Txn WkCtx Tools CartTools ReadTools

/-- A tool by its name with its decoded input. -/
inductive ToolCall where
  | readPreferences
  | updatePreference (input : Option PreferenceInput)
  | readHouseholdSettings
  | updateHouseholdSettings (input : Option SettingsInput)
  | listDishesRecent (weeks : ℤ)
  | searchHistory (input : Option SearchHistoryInput)
  | listWeeks (limit : ℤ)
  | getWeek (input : GetWeekInput)
  | createWeek (input : Option CreateWeekInput)
  | updateWeek (input : Option UpdateWeekInput)
  | addDinner (input : Option AddDinnerInput)
  | updateDinner (input : Option UpdateDinnerInput)
  | deleteDinner (input : Option ℤ)
  | addException (input : Option AddExceptionInput)
  | updateException (input : Option UpdateExceptionInput)
  | deleteException (input : Option ℤ)
  | recordRetrospective (input : Option RetrospectiveInput)
  | shopSearch (input : Option SearchInput)
  | shopCartGet
  | shopCartAdd (input : Option CartAddInput)
  | shopCartAddMany (input : Option (List CartAddInput))
  | shopCartRemove (input : Option String)
  | shopCartClear
  | shopOrdersRecent (limit : ℤ)
  | shopOrderDetail (input : Option String)
  | unknown (name : String)

/-- What the server is set up with; `shop` when there is a shopping provider. -/
structure Setup where
  pg : Pg
  rules : TextRules
  shop : Bool

structure Turn where
  ctx : Ctx
  now : ℤ
  today : ℤ
  call : ToolCall

def unknownTool (name : String) : ShopProg String := Prog.fail (.text ("unknown tool: " ++ name))

def Setup.shopping (S : Setup) (name : String) (tool : ShopProg String) : ShopProg String :=
  if S.shop then tool else unknownTool name

def callTool (S : Setup) (t : Turn) : ShopProg String :=
  match t.call with
  | .readPreferences => readPreferencesTool S.rules
  | .updatePreference i => updatePreferenceTool i
  | .readHouseholdSettings => readHouseholdSettingsTool S.rules
  | .updateHouseholdSettings i => updateHouseholdSettingsTool i
  | .listDishesRecent weeks => listDishesRecentTool t.today t.ctx weeks
  | .searchHistory i => searchHistoryTool S.rules t.ctx i
  | .listWeeks limit => listWeeksTool limit
  | .getWeek i => getWeekTool S.rules t.ctx i
  | .createWeek i => createWeekTool S.pg t.now i
  | .updateWeek i => updateWeekTool S.pg t.now t.ctx i
  | .addDinner i => addDinnerTool S.pg S.rules.json t.ctx i
  | .updateDinner i => updateDinnerTool S.pg t.ctx i
  | .deleteDinner i => deleteDinnerTool t.ctx i
  | .addException i => addExceptionTool t.ctx i
  | .updateException i => updateExceptionTool t.ctx i
  | .deleteException i => deleteExceptionTool t.ctx i
  | .recordRetrospective i => recordRetrospectiveTool t.now t.ctx i
  | .shopSearch i => S.shopping "willys_search" (shopSearchTool S.rules.quote i)
  | .shopCartGet => S.shopping "willys_cart_get" shopCartGetTool
  | .shopCartAdd i => S.shopping "willys_cart_add" (shopCartAddTool t.now t.ctx i)
  | .shopCartAddMany i => S.shopping "willys_cart_add_many" (shopCartAddManyTool t.now t.ctx i)
  | .shopCartRemove i => S.shopping "willys_cart_remove" (shopCartRemoveTool t.ctx i)
  | .shopCartClear => S.shopping "willys_cart_clear" (shopCartClearTool t.ctx)
  | .shopOrdersRecent limit => S.shopping "willys_orders_recent" (shopOrdersRecentTool limit)
  | .shopOrderDetail i => S.shopping "willys_order_detail" (shopOrderDetailTool i)
  | .unknown name => unknownTool name

section

variable {σ : Type} (S : Setup) (ans : (q : Call) → σ → Answer q × σ)

/-- A call changes the database and the world outside; what it answers goes to the model. -/
def turn (c : Db × σ) (t : Turn) : Db × σ := ((callTool S t).run ans c).2

def converse (ts : List Turn) (c : Db × σ) : Db × σ := ts.foldl (turn S ans) c

end

/-! ### The plan an update goes to -/

/-- The plan an `update_week` with this input goes to. -/
def target (ctx : Ctx) (i : UpdateWeekInput) (d : Db) : Option ℤ :=
  (if i.weekId = 0 ∧ i.isoWeek ≠ "" then latestWith i.isoWeek d else some i.weekId).bind
    fun id => (resolvePlan ctx id).toOption

/-- The plan a call sets back to draft. -/
def Turn.reopened (t : Turn) (d : Db) : Option ℤ :=
  match t.call with
  | .updateWeek (some i) => if i.status = some "draft" then target t.ctx i d else none
  | _ => none

end Veckomenyn.Agent
