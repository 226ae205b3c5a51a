import Veckomenyn.Tools

/-!
The agent's tools that only read.

What Postgres and Go do with text by rules the model does not define enters through
`TextRules`. Three of the tools go on after an input that does not decode, with the fields the
decoder left; they take these fields. Rows a query leaves unordered come in table order.
-/

namespace Veckomenyn.ReadTools

open Rows DateText Schema Sql Txn WkCtx Tools

/-- `collate a b` when `a` sorts no later than `b`, `ilike` the operator, `quote` and `general`
the verbs `%q` and `%g`, `json` the JSON text of a string. -/
structure TextRules where
  collate : String → String → Bool
  ilike : String → String → Bool
  quote : String → String
  general : ℚ → String
  json : String → String

/-! ### Texts -/

/-- `unicode.IsSpace`. -/
def isSpace (c : Char) : Bool :=
  c.toNat ∈ [0x09, 0x0A, 0x0B, 0x0C, 0x0D, 0x20, 0x85, 0xA0, 0x1680, 0x2028, 0x2029, 0x202F, 0x205F,
    0x3000] || (0x2000 ≤ c.toNat && c.toNat ≤ 0x200A)

def trimSpace (s : String) : String :=
  String.ofList (((s.toList.dropWhile isSpace).reverse.dropWhile isSpace).reverse)

/-- The three characters with a meaning to `ILIKE` get a backslash. -/
def escapeILIKE (q : String) : String :=
  String.ofList (q.toList.flatMap fun c => if c ∈ ['\\', '%', '_'] then ['\\', c] else [c])

/-- `label` and the text, when there is one. -/
def field (label s : String) : String := if s = "" then "" else label ++ s ++ "\n"

/-- A Go default for an absent, zero or negative number. -/
def positiveOr (default n : ℤ) : ℤ := if n ≤ 0 then default else n

/-! ### Queries -/

def preferences (L : TextRules) : Stmt (List (String × String)) := select .read fun d =>
  (d.principles.rows.insertionSort fun a b => L.collate a.category b.category = true).map fun r =>
    (r.category, r.bodyMd)

def householdSettings : Stmt Settings := select .read Db.settings

/-- A line for each dinner of a plan begun in the last `n` weeks, the plan `weekId` left out. -/
def dishesRecent (today n weekId : ℤ) : Stmt (List String) where
  label := .read
  run d := do
    let n ← int4 "weeks" n
    let _ ← int4 "interval" (7 * n)
    -- the first day a timestamp can hold
    if today - 7 * n < -1721426 then .error (.outOfRange "timestamp") else .ok ([],
      ((d.dinners.rows.filter fun r => weekId = 0 ∨ r.weekId ≠ weekId).filter fun r =>
        ((d.weeks.find? r.weekId).any fun w => today - 7 * n ≤ w.startDate))
        |>.insertionSort (fun a b => b.dayDate ≤ a.dayDate)
        |>.map fun r =>
          let dish := r.dishId.bind d.dishes.find?
          let rating := d.ratings.rows.find? fun x => x.weekDinnerId = r.id
          let name := (dish.map Dish.name).getD ""
          let cuisine := (dish.bind Dish.cuisine).getD ""
          let notes := (rating.map Rating.notes).getD ""
          "- " ++ text r.dayDate ++ ": " ++ (if name = "" then "(no dish linked)" else name) ++
            (if cuisine = "" then "" else " (" ++ cuisine ++ ")") ++
            ((rating.bind Rating.rating).elim "" fun v => " [" ++ v.text ++ "]") ++
            (if notes = "" then "" else ": " ++ notes) ++ "\n")

/-- The latest dinner of each dish that matches. -/
def historyDishes (L : TextRules) (pat : String) (limit weekId : ℤ) : Stmt (List String) :=
  select .read fun d =>
    ((d.dishes.rows.insertionSort fun a b => a.id ≤ b.id).filterMap fun dish =>
      if L.ilike dish.name pat || L.ilike (dish.cuisine.getD "") pat || L.ilike dish.recipeMd pat ||
          L.ilike dish.tags pat then
        let served := d.dinners.rows.filter fun r =>
          r.dishId = some dish.id ∧ (weekId = 0 ∨ r.weekId ≠ weekId)
        ((served.insertionSort fun a b => b.dayDate ≤ a.dayDate).head?).bind fun r =>
          (d.weeks.find? r.weekId).map fun w =>
            "- " ++ dish.name ++ " (" ++ text r.dayDate ++
              (if dish.cuisine.getD "" = "" then "" else " · " ++ dish.cuisine.getD "") ++ "): " ++
              w.isoWeek ++ "\n"
      else none).take limit.toNat

def historyCart (L : TextRules) (pat : String) (limit : ℤ) : Stmt (List String) :=
  select .read fun d =>
    let hits := d.cartItems.rows.filterMap fun c => c.weekId.bind fun k =>
      (d.weeks.find? k).bind fun w =>
        if L.ilike c.productCode pat || L.ilike c.reasonMd pat then some (c, w) else none
    ((hits.insertionSort fun a b => b.2.startDate < a.2.startDate ∨
      b.2.startDate = a.2.startDate ∧ a.1.id ≤ b.1.id).take limit.toNat).map fun x =>
        "- " ++ x.1.productCode ++ " qty=" ++ L.general x.1.qty ++ "  " ++ x.1.reasonMd ++ "  (" ++
          x.2.isoWeek ++ ", " ++ text x.2.startDate ++ ")\n"

def weeksRecent (limit : ℤ) : Stmt (List String) := select .read fun d =>
  ((d.weeks.rows.insertionSort fun a b => b.startDate ≤ a.startDate).take limit.toNat).map fun w =>
    "- id=" ++ toString w.id ++ " " ++ w.isoWeek ++ " (" ++ text w.startDate ++ " → " ++
      text w.endDate ++ ") [" ++ w.status.text ++ "]" ++
      (w.deliveryDate.elim "" fun x => " delivery=" ++ text x) ++ "\n"

def weekById (id : ℤ) : Stmt (Option Week) := select .read fun d => d.weeks.find? id

def weekByLabel (isoWeek : String) : Stmt (Option Week) := select .read fun d =>
  ((d.weeks.rows.filter fun w => w.isoWeek = isoWeek).insertionSort
    fun a b => b.updatedAt ≤ a.updatedAt).head?

def weekDinners (id : ℤ) : Stmt (List String) := select .read fun d =>
  ((dinnersOf d id).insertionSort fun a b => a.dayDate < b.dayDate ∨
    a.dayDate = b.dayDate ∧ a.sortOrder ≤ b.sortOrder).map fun r =>
      let dish := r.dishId.bind d.dishes.find?
      let rating := d.ratings.rows.find? fun x => x.weekDinnerId = r.id
      let notes := (rating.map Rating.notes).getD ""
      let recipe := (dish.map Dish.recipeMd).getD ""
      "\n### " ++ text r.dayDate ++ " · " ++ (dish.map Dish.name).getD "" ++ " (id=" ++
        toString r.id ++ ", " ++ toString r.servings ++ " pers)\n" ++
        (if r.sourcing = "\x7b\x7d" then "" else field "Sourcing: " r.sourcing) ++
        field "Notes: " r.notes ++
        ((rating.bind Rating.rating).elim "" fun v => "Verdict: " ++ v.text ++
          (if notes = "" then "" else " (" ++ notes ++ ")") ++ "\n") ++
        field "\n" recipe

def weekExceptions (id : ℤ) : Stmt (List String) := select .read fun d =>
  (d.exceptions.rows.filter fun x => x.weekId = id).map fun x =>
    "- " ++ x.kind ++ ": " ++ x.description ++ "\n"

def weekRetrospective (id : ℤ) : Stmt (Option String) := select .read fun d =>
  (((d.retrospectives.rows.filter fun x => x.weekId = id).insertionSort
    fun a b => b.createdAt ≤ a.createdAt).head?).map Retrospective.notesMd

def weekCart (L : TextRules) (id : ℤ) : Stmt (List String) := select .read fun d =>
  ((d.cartItems.rows.filter fun c => c.weekId = some id).insertionSort fun a b =>
    a.addedAt < b.addedAt ∨ a.addedAt = b.addedAt ∧ a.id ≤ b.id).map fun c =>
      "- " ++ c.productCode ++ "  qty=" ++ L.general c.qty ++ "  " ++ c.reasonMd ++ "\n"

/-! ### Tools -/

/-- A block with a heading, or nothing. -/
def block (heading : String) (lines : List String) : String :=
  if lines.isEmpty then "" else heading ++ String.join lines

structure SearchHistoryInput where
  query : String
  kind : String
  limit : ℤ

structure GetWeekInput where
  id : ℤ
  isoWeek : String

section

variable {Q : Type} {A : Q → Type} (L : TextRules)

def readPreferencesTool : Prog Q A ToolError String := do
  let rows ← Prog.query (preferences L) ToolError.db
  if rows.isEmpty then pure "(no preferences recorded yet)"
  else pure (String.join (rows.map fun r => "## " ++ r.1 ++ "\n\n" ++ trimSpace r.2 ++ "\n\n"))

def readHouseholdSettingsTool : Prog Q A ToolError String := do
  let s ← Prog.query householdSettings ToolError.db
  pure ("\x7b\n  \"default_dinners\": " ++ toString s.defaultDinners ++
    ",\n  \"default_delivery_weekday\": " ++ toString s.defaultDeliveryWeekday ++
    ",\n  \"default_order_offset_days\": " ++ toString s.defaultOrderOffsetDays ++
    ",\n  \"default_servings\": " ++ toString s.defaultServings ++
    ",\n  \"language\": " ++ L.json s.language ++ ",\n  \"llm_provider\": " ++ L.json s.llmProvider ++
    ",\n  \"notes_md\": " ++ L.json s.notesMd ++ "\n\x7d")

def listDishesRecentTool (today : ℤ) (ctx : Ctx) (weeks : ℤ) : Prog Q A ToolError String := do
  let n := positiveOr 4 weeks
  let lines ← Prog.query (dishesRecent today n ctx.weekId) ToolError.db
  if lines.isEmpty then pure ("(no dinners in the last " ++ toString n ++ " weeks)")
  else pure (String.join lines)

/-- The kinds of history to search are `dishes`, `cart` and `both`. -/
def historyKind (kind : String) : String := if kind = "" then "both" else kind

def readIf (c : Prop) [Decidable c] (s : Stmt (List String)) : Prog Q A ToolError (List String) :=
  if c then Prog.query s ToolError.db else pure []

def searchHistory (ctx : Ctx) (q kind : String) (limit : ℤ) : Prog Q A ToolError String := do
  let pat := "%" ++ escapeILIKE q ++ "%"
  let dinners ← readIf (kind = "dishes" ∨ kind = "both") (historyDishes L pat limit ctx.weekId)
  let items ← readIf (kind = "cart" ∨ kind = "both") (historyCart L pat limit)
  if dinners.isEmpty ∧ items.isEmpty then pure ("(no history match for " ++ L.quote q ++ ")")
  else pure (block ("## Dinners (" ++ toString dinners.length ++ ")\n") dinners ++
    (if dinners.isEmpty ∨ items.isEmpty then "" else "\n") ++
    block ("## Cart items (" ++ toString items.length ++ ")\n") items)

def searchHistoryTool (ctx : Ctx) (input : Option SearchHistoryInput) :
    Prog Q A ToolError String := do
  let i ← unmarshal input
  if trimSpace i.query = "" then Prog.fail (.text "query required")
  else searchHistory L ctx (trimSpace i.query) (historyKind i.kind) (positiveOr 10 i.limit)

def listWeeksTool (limit : ℤ) : Prog Q A ToolError String := do
  let lines ← Prog.query (weeksRecent (positiveOr 8 limit)) ToolError.db
  if lines.isEmpty then pure "(no weeks yet)" else pure (String.join lines)

/-- The plan a lookup names: by id, else by label, else the plan of the chat. -/
def getWeekRow (ctx : Ctx) (i : GetWeekInput) : Prog Q A ToolError (Option Week) :=
  if 0 < i.id then Prog.query (weekById i.id) ToolError.db
  else if i.isoWeek ≠ "" then Prog.query (weekByLabel i.isoWeek) ToolError.db
  else if 0 < ctx.weekId then Prog.query (weekById ctx.weekId) ToolError.db
  else Prog.fail (.text "need id or iso_week")

def getWeekTool (ctx : Ctx) (i : GetWeekInput) : Prog Q A ToolError String := do
  match ← getWeekRow ctx i with
  | none => pure "(not found)"
  | some w => do
    let dinners ← Prog.query (weekDinners w.id) ToolError.db
    let exceptions ← Prog.query (weekExceptions w.id) ToolError.db
    let retro ← Prog.query (weekRetrospective w.id) ToolError.db
    let cart ← Prog.query (weekCart L w.id) ToolError.db
    pure ("# Week " ++ w.isoWeek ++ " (id=" ++ toString w.id ++ ")\n" ++ text w.startDate ++ " → " ++
      text w.endDate ++ ", status=" ++ w.status.text ++ "\n" ++
      (w.deliveryDate.elim "" fun x => "Delivery: " ++ text x ++ "\n") ++
      (w.orderDate.elim "" fun x => "Order placed: " ++ text x ++ "\n") ++
      field "\nNotes: " w.notesMd ++ "\n## Dinners\n" ++ String.join dinners ++
      block "\n## Exceptions\n" exceptions ++
      (retro.elim "" fun notes => "\n## Retrospective\n\n" ++ notes ++ "\n") ++
      block ("\n## Cart (" ++ toString cart.length ++ " items)\n") cart)

end

end Veckomenyn.ReadTools
