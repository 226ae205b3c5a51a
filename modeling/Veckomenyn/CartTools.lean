import Veckomenyn.Tools

/-!
The agent's tools over the shopping provider.

A provider is what answers the requests of `Call`; its errors reach the tools as texts. The
cart tools keep the plan's shopping list beside the upstream cart, and report a list
statement that fails to the log instead of failing the call.
-/

namespace Veckomenyn.CartTools

open Rows Schema Sql Txn WkCtx Tools

/-! ### The provider -/

structure Product where
  code : String
  name : String
  price : ℚ
  pricePerUnit : String
  unit : String
  onPromotion : Bool
  related : Bool

structure CartLine where
  code : String
  name : String
  qty : ℚ
  unitPrice : ℚ
  lineTotal : ℚ
deriving DecidableEq

structure Cart where
  items : List CartLine
  total : ℚ
deriving DecidableEq

structure OrderSummary where
  id : String
  date : String
  total : ℚ
  status : String

structure OrderLine where
  code : String
  name : String
  qty : ℚ
  lineTotal : ℚ
  category : String

structure Order where
  id : String
  date : String
  total : ℚ
  status : String
  lines : List OrderLine

/-- The requests of the tools to the world outside the database: the provider's methods, and a
line for the log. -/
inductive Call where
  | search (query : String) (limit : ℤ)
  | cartGet
  | cartAdd (code : String) (qty : ℤ)
  | cartRemove (code : String)
  | cartClear
  | ordersRecent (limit : ℤ)
  | orderDetail (id : String)
  | warn (what : String)
deriving DecidableEq

def Answer : Call → Type
  | .search _ _ => Except String (List Product)
  | .cartGet => Except String Cart
  | .cartAdd _ _ => Except String Cart
  | .cartRemove _ => Except String Cart
  | .cartClear => Except String Unit
  | .ordersRecent _ => Except String (List OrderSummary)
  | .orderDetail _ => Except String Order
  | .warn _ => Unit

abbrev ShopProg (α : Type) := Prog Call Answer ToolError α

namespace Provider

def search (query : String) (limit : ℤ) : ShopProg (Except String (List Product)) :=
  Prog.request (Call.search query limit)

def cartGet : ShopProg (Except String Cart) := Prog.request Call.cartGet

def cartAdd (code : String) (qty : ℤ) : ShopProg (Except String Cart) :=
  Prog.request (Call.cartAdd code qty)

def cartRemove (code : String) : ShopProg (Except String Cart) :=
  Prog.request (Call.cartRemove code)

def cartClear : ShopProg (Except String Unit) := Prog.request Call.cartClear

def ordersRecent (limit : ℤ) : ShopProg (Except String (List OrderSummary)) :=
  Prog.request (Call.ordersRecent limit)

def orderDetail (id : String) : ShopProg (Except String Order) :=
  Prog.request (Call.orderDetail id)

end Provider

def warn (what : String) : ShopProg Unit := Prog.request (Call.warn what)

/-- A request whose failure the tool passes on. -/
def ask {α : Type} (r : ShopProg (Except String α)) : ShopProg α := do
  match ← r with
  | .ok a => pure a
  | .error e => Prog.fail (.text e)

/-! ### The shopping list of a plan -/

/-- The JSON blob kept with a line: the first line of the cart with the code. -/
def snapshotLine (cart : Cart) (code : String) : Option Snapshot :=
  (cart.items.find? fun l => l.code = code).map fun l => ⟨l.name, l.unitPrice, l.lineTotal⟩

/-- A value for a `NUMERIC(10, 3)` column. -/
def numeric (column : String) (n : ℤ) : Except DbError ℚ :=
  if -10000000 < n ∧ n < 10000000 then .ok (n : ℚ) else .error (.outOfRange column)

def insertCartItem (now weekId : ℤ) (code : String) (qty : ℤ) (reason : String)
    (snapshot : Option Snapshot) : Stmt Unit where
  label := .insertCartItem
  run d := do
    let qty ← numeric "qty" qty
    references d.weeks "week_id" weekId
    .ok ([.cartItem (.put ⟨d.cartItems.next, some weekId, code, qty, reason, now, false, snapshot⟩)],
      ())

def deleteCartItems (p : CartItem → Bool) : Stmt Unit where
  label := .deleteCartItems
  run d := .ok ((((d.cartItems.rows.filter p).map CartItem.id).map .del).map .cartItem, ())

/-- A statement on the shopping list: when it fails, the log is told and the call goes on. -/
def mirror (s : Stmt Unit) (what : String) : ShopProg Unit := do
  match ← Prog.tried s with
  | .ok () => pure ()
  | .error _ => warn what

/-- What a tool does to the list of the plan of the chat, if there is one. -/
def inPlan (ctx : Ctx) (x : ShopProg Unit) : ShopProg Unit :=
  if 0 < ctx.weekId then x else pure ()

/-! ### Texts -/

/-- The nearest integer, the even one of two. -/
def roundEven (q : ℚ) : ℤ :=
  let n := (q + 1 / 2).floor
  if (n : ℚ) = q + 1 / 2 ∧ n % 2 = 1 then n - 1 else n

/-- `q` with `k` decimals. -/
def fixed (k : ℕ) (q : ℚ) : String :=
  let n := roundEven (q * 10 ^ k)
  let cs := DateText.pad (k + 1) n.natAbs
  let body := cs.take (cs.length - k) ++ if k = 0 then [] else '.' :: cs.drop (cs.length - k)
  String.ofList (if n < 0 then '-' :: body else body)

def formatLine (l : CartLine) : String :=
  l.code ++ "\tqty=" ++ fixed 0 l.qty ++ "\t" ++ fixed 2 l.lineTotal ++ " kr\t" ++ l.name ++ "\n"

def formatCart (c : Cart) : String :=
  if c.items.isEmpty then "(cart is empty)"
  else String.join (c.items.map formatLine) ++ "\ntotal: " ++ fixed 2 c.total ++ " kr"

def formatProduct (p : Product) : String :=
  let tags := (if p.onPromotion then ["deal"] else []) ++ if p.related then ["related"] else []
  let suffix := if tags = [] then "" else " [" ++ ",".intercalate tags ++ "]"
  p.code ++ "\t" ++ fixed 2 p.price ++ " kr\t" ++ p.pricePerUnit ++ "\t" ++ p.name ++ suffix ++ "\n"

def formatOrderLine (l : OrderLine) : String :=
  l.code ++ "\tqty=" ++ fixed 0 l.qty ++ "\t" ++ fixed 2 l.lineTotal ++ " kr\t" ++ l.name ++ "\n"

/-- The lines of an order, a block for each category in the order the categories come up. -/
def formatOrder (o : Order) : String :=
  let cats := (o.lines.map OrderLine.category).foldl
    (fun cs c => if c ∈ cs then cs else cs ++ [c]) []
  let block (c : String) := (if c = "" then "" else "## " ++ c ++ "\n") ++
    String.join ((o.lines.filter fun l => l.category = c).map formatOrderLine) ++ "\n"
  "Order " ++ o.id ++ " · " ++ o.date ++ " · " ++ fixed 2 o.total ++ " kr · " ++ o.status ++
    "\n\n" ++ String.join (cats.map block)

/-! ### Tools -/

structure SearchInput where
  query : String
  limit : ℤ

structure CartAddInput where
  code : String
  qty : ℤ
  reason : String

/-- An absent, zero or negative quantity is one. -/
def qtyOr1 (n : ℤ) : ℤ := if n ≤ 0 then 1 else n

/-- `quote` is Go's `%q`. -/
def shopSearchTool (quote : String → String) (input : Option SearchInput) : ShopProg String := do
  let i ← unmarshal input
  let products ← ask (Provider.search i.query i.limit)
  if products.isEmpty then pure ("(no results for " ++ quote i.query ++ ")")
  else pure (String.join (products.map formatProduct))

def shopCartGetTool : ShopProg String := do
  let cart ← ask Provider.cartGet
  pure (formatCart cart)

def shopCartAddTool (now : ℤ) (ctx : Ctx) (input : Option CartAddInput) : ShopProg String := do
  let i ← unmarshal input
  let qty := qtyOr1 i.qty
  let cart ← ask (Provider.cartAdd i.code qty)
  inPlan ctx (mirror (insertCartItem now ctx.weekId i.code qty i.reason
    (snapshotLine cart i.code)) "cart_items insert failed")
  pure ("added; cart now:\n" ++ formatCart cart)

/-- The adds of a batch: the items upstream took, and a line for each failure. -/
def addAll : List CartAddInput → ShopProg (List CartAddInput × List String)
  | [] => pure ([], [])
  | i :: is => do
    let r ← Provider.cartAdd i.code (qtyOr1 i.qty)
    let rest ← addAll is
    match r with
    | .ok _ => pure (i :: rest.1, rest.2)
    | .error e => pure (rest.1, (i.code ++ ": " ++ e) :: rest.2)

def recordAll (now weekId : ℤ) (cart : Cart) : List CartAddInput → ShopProg Unit
  | [] => pure ()
  | i :: is => do
    mirror (insertCartItem now weekId i.code (qtyOr1 i.qty) i.reason (snapshotLine cart i.code))
      "cart_items insert failed"
    recordAll now weekId cart is

def shopCartAddManyTool (now : ℤ) (ctx : Ctx) (input : Option (List CartAddInput)) :
    ShopProg String := do
  let items ← unmarshal input
  let r ← addAll items
  let cart ← ask Provider.cartGet
  inPlan ctx (recordAll now ctx.weekId cart r.1)
  let errors := if r.2 = [] then "" else "\nerrors:\n" ++ String.join (r.2.map (· ++ "\n"))
  pure ("added " ++ toString r.1.length ++ "/" ++ toString items.length ++ " items\n" ++ errors ++
    "\ncart now:\n" ++ formatCart cart)

def shopCartRemoveTool (ctx : Ctx) (input : Option String) : ShopProg String := do
  let code ← unmarshal input
  let cart ← ask (Provider.cartRemove code)
  inPlan ctx (mirror (deleteCartItems fun r =>
    r.weekId = some ctx.weekId ∧ r.productCode = code) "cart_items delete failed")
  pure ("removed; cart now:\n" ++ formatCart cart)

def shopCartClearTool (ctx : Ctx) : ShopProg String := do
  ask Provider.cartClear
  inPlan ctx (mirror (deleteCartItems fun r => r.weekId = some ctx.weekId)
    "cart_items clear failed")
  pure "cart cleared"

def shopOrdersRecentTool (limit : ℤ) : ShopProg String := do
  let orders ← ask (Provider.ordersRecent limit)
  if orders.isEmpty then pure "(no recent orders)"
  else pure (String.join (orders.map fun o =>
    o.id ++ "\t" ++ o.date ++ "\t" ++ fixed 2 o.total ++ " kr\n"))

def shopOrderDetailTool (input : Option String) : ShopProg String := do
  let id ← unmarshal input
  let o ← ask (Provider.orderDetail id)
  pure (formatOrder o)

end Veckomenyn.CartTools
