import Mathlib.Data.String.Basic
import Veckomenyn.Conversations
import Veckomenyn.Grouping

/-!
The usage of the models, recorded call by call, and its summary.

A call is recorded with the conversation and the plan of its turn. Amounts are exact, in millionths
of a dollar. The time zone of a session, which tells the day of a time, and the order of rows of one
cost are left open.
-/

namespace Veckomenyn.Usage

open Rows Llm AgentRun Conversations ReadTools Grouping

/-! ### The table -/

/-- A row of `llm_usage`. -/
structure UsageRow where
  id : ℤ
  conversationId : Option ℤ
  weekId : Option ℤ
  model : String
  inputTokens : ℤ
  cacheCreationInputTokens : ℤ
  cacheReadInputTokens : ℤ
  outputTokens : ℤ
  costUsd : ℤ
  createdAt : ℤ
deriving DecidableEq

instance : Keyed UsageRow := ⟨UsageRow.id⟩

/-- `isoWeek` labels the plans. -/
structure UsageDb where
  chat : ChatDb
  isoWeek : ℤ → String
  usage : Table UsageRow

/-- Hundredths of a dollar for a million tokens. -/
structure Prices where
  input : ℤ
  cacheWrite5m : ℤ
  cacheRead : ℤ
  output : ℤ

def pricing (model : String) : Option Prices :=
  if model = "claude-opus-4-7" then some ⟨1500, 1875, 150, 7500⟩
  else if model = "claude-sonnet-4-6" then some ⟨300, 375, 30, 1500⟩
  else if model = "claude-haiku-4-5" then some ⟨100, 125, 10, 500⟩
  else none

/-- In hundredths of a millionth of a dollar. -/
def cost (model : String) (u : Llm.Usage) : ℤ :=
  match pricing model with
  | none => 0
  | some p => u.inputTokens * p.input + u.cacheCreationInputTokens * p.cacheWrite5m +
      u.cacheReadInputTokens * p.cacheRead + u.outputTokens * p.output

/-- What a `NUMERIC(12,6)` makes of hundredths of a millionth. -/
def millionths (n : ℤ) : ℤ := n.sign * ((n.natAbs + 50) / 100 : ℕ)

def nullInt64 (v : ℤ) : Option ℤ := if v ≤ 0 then none else some v

/-- The values fit their columns. -/
def Fits (u : Llm.Usage) (costUsd : ℤ) : Prop :=
  (∀ n ∈ [u.inputTokens, u.cacheCreationInputTokens, u.cacheReadInputTokens, u.outputTokens],
    -2147483648 ≤ n ∧ n ≤ 2147483647) ∧ costUsd.natAbs < 1000000000000

instance (u : Llm.Usage) (costUsd : ℤ) : Decidable (Fits u costUsd) := by
  unfold Fits; infer_instance

/-- The insert of a call; one that fails is passed over. -/
def record (d : UsageDb) (now convID weekID : ℤ) (model : String) (u : Llm.Usage) : UsageDb :=
  let costUsd := millionths (cost model u)
  if ¬Fits u costUsd then d
  else if (∀ c ∈ nullInt64 convID, (d.chat.conversations.find? c).isSome) ∧
      ∀ w ∈ nullInt64 weekID, w ∈ d.chat.weeks then
    { d with usage := d.usage.put ⟨d.usage.next, nullInt64 convID, nullInt64 weekID, model,
        u.inputTokens, u.cacheCreationInputTokens, u.cacheReadInputTokens, u.outputTokens, costUsd,
        now⟩ }
  else { d with usage := d.usage.reserve (d.usage.next + 1) }

/-- `ON DELETE SET NULL`: the rows that refer to what is deleted lose the reference. -/
def setNull (t : Table UsageRow) (refers : UsageRow → Bool) (cleared : UsageRow → UsageRow) :
    Table UsageRow :=
  t.applyAll (((t.rows.filter refers).map cleared).map .put)

def deleteWeek (d : UsageDb) (now weekId : ℤ) : UsageDb :=
  { d with
    chat := Conversations.deleteWeek d.chat now weekId
    usage := setNull d.usage (fun u => u.weekId = some weekId) fun u => { u with weekId := none } }

def deleteWeekConversations (d : UsageDb) (weekId : ℤ) : UsageDb :=
  { d with
    chat := Conversations.deleteWeekConversations d.chat weekId
    usage := setNull d.usage
      (fun u => d.chat.conversations.rows.any fun c =>
        u.conversationId = some c.id ∧ c.weekId = some weekId)
      fun u => { u with conversationId := none } }

/-! ### The summary -/

structure Totals where
  costUsd : ℤ
  inputTokens : ℤ
  cacheCreationInputTokens : ℤ
  cacheReadInputTokens : ℤ
  outputTokens : ℤ
  calls : ℕ
deriving DecidableEq

structure DailyUsage where
  date : String
  costUsd : ℤ
  calls : ℕ
deriving DecidableEq

structure ModelUsage extends Totals where
  model : String
deriving DecidableEq

structure WeekUsage where
  weekID : ℤ
  isoWeek : String
  costUsd : ℤ
  calls : ℕ
deriving DecidableEq

structure ConversationUsage where
  conversationID : ℤ
  title : String
  weekID : Option ℤ
  isoWeek : String
  costUsd : ℤ
  calls : ℕ
  lastUsedAt : ℤ
deriving DecidableEq

structure UsageSummary where
  total : Totals
  byDay : List DailyUsage
  byModel : List ModelUsage
  byWeek : List WeekUsage
  recentConv : List ConversationUsage

def costOf (rows : List UsageRow) : ℤ := (rows.map UsageRow.costUsd).sum

def totalsOf (rows : List UsageRow) : Totals :=
  ⟨costOf rows, (rows.map UsageRow.inputTokens).sum,
    (rows.map UsageRow.cacheCreationInputTokens).sum,
    (rows.map UsageRow.cacheReadInputTokens).sum, (rows.map UsageRow.outputTokens).sum,
    rows.length⟩

/-- The orders of the answers, the most expensive first. -/
structure Orders where
  byDay : OrderBy DailyUsage.date
  byModel : OrderBy fun m : ModelUsage => -m.costUsd
  byWeek : OrderBy fun v : WeekUsage => -v.costUsd
  byConversation : OrderBy fun c : ConversationUsage => -c.costUsd

/-- The label of a plan, in a join that may find none. -/
def UsageDb.label (d : UsageDb) (weekId : Option ℤ) : String :=
  weekId.elim "" fun w => if w ∈ d.chat.weeks then d.isoWeek w else ""

/-- The title of a conversation, in a join that may find none. -/
def UsageDb.title (d : UsageDb) (convID : Option ℤ) : String :=
  (convID.bind d.chat.conversations.find?).elim "" Conversation.title

def window (since : ℤ) (d : UsageDb) : List UsageRow :=
  d.usage.rows.filter fun u => since ≤ u.createdAt

/-- What the rows of a conversation are grouped by. -/
def conversationKey (d : UsageDb) (u : UsageRow) : ℤ × String × Option ℤ × String :=
  (u.conversationId.getD 0, d.title u.conversationId, u.weekId, d.label u.weekId)

def conversationUsage (g : (ℤ × String × Option ℤ × String) × List UsageRow) :
    ConversationUsage :=
  ⟨g.1.1, g.1.2.1, g.1.2.2.1, g.1.2.2.2, costOf g.2, g.2.length,
    (g.2.map UsageRow.createdAt).max?.getD 0⟩

/-- The rows with a conversation. -/
def inConversation (rows : List UsageRow) : List UsageRow :=
  rows.filter fun u => u.conversationId.isSome

variable (o : Orders) (day : ℤ → String)

/-- The window of thirty days begins at `since`. -/
def handleGetUsageSummary (since : ℤ) (d : UsageDb) : UsageSummary :=
  let rows := window since d
  { total := totalsOf rows
    byDay := report o.byDay (fun u => day u.createdAt)
      (fun g => ⟨g.1, costOf g.2, g.2.length⟩) rows
    byModel := report o.byModel UsageRow.model (fun g => ⟨totalsOf g.2, g.1⟩) rows
    byWeek := (report o.byWeek (fun u => (u.weekId.getD 0, d.label u.weekId))
      (fun g => ⟨g.1.1, g.1.2, costOf g.2, g.2.length⟩)
      (rows.filter fun u => u.weekId.isSome)).take 20
    recentConv := (report o.byConversation (conversationKey d) conversationUsage
      (inConversation rows)).take 20 }

/-! ### What happens to the table -/

/-- The database, and the turns that have been begun. -/
structure State where
  db : UsageDb
  turns : List RunCtx

/-- A turn records its calls one by one, and anything may happen in between. -/
inductive Step where
  | chat (now : ℤ) (req : ChatRequest)
  | record (turn : ℕ) (now : ℤ) (model : String) (u : Llm.Usage)
  | addWeek (weekId : ℤ) (isoWeek : String)
  | deleteWeek (now weekId : ℤ)
  | deleteWeekConversations (weekId : ℤ)

def State.step (s : State) : Step → State
  | .chat now req =>
    if trimSpace req.message = "" then s
    else match ensureConversation s.db.chat now req.conversationID req.weekID req.message with
      | (.error _, chat) => { s with db := { s.db with chat := chat } }
      | (.ok convID, chat) =>
        { db := { s.db with chat := chat }, turns := s.turns ++ [runCtx req convID] }
  | .record turn now model u => match s.turns[turn]? with
    | none => s
    | some ctx =>
      { s with db := Usage.record s.db now ctx.conversationID ctx.weekID model u }
  | .addWeek w label =>
    { s with db := { s.db with
        chat := { s.db.chat with weeks := s.db.chat.weeks ++ [w] }
        isoWeek := Function.update s.db.isoWeek w label } }
  | .deleteWeek now w => { s with db := Usage.deleteWeek s.db now w }
  | .deleteWeekConversations w => { s with db := Usage.deleteWeekConversations s.db w }

def start : State := ⟨⟨⟨[], Table.empty, Table.empty⟩, fun _ => "", Table.empty⟩, []⟩

/-! ### What a turn records -/

/-- A call is recorded under the conversation and the plan of the turn. -/
def UnderTurn (ctx : RunCtx) (q : Query) : Prop :=
  ∀ convID weekID model u, q = .record convID weekID model u →
    convID = ctx.conversationID ∧ weekID = ctx.weekID

lemma asks_emit (P : Query → Prop) (e : Event) : (AgentRun.emit e).Asks P := fun _ => trivial

lemma asks_callTool (a : Agent) (ctx : RunCtx) (block : ContentBlock) :
    (callTool a block.toolName block.toolInput).Asks (UnderTurn ctx) := by
  by_cases hname : a.tools.any fun t => t.name = block.toolName
  · rw [show callTool a block.toolName block.toolInput = ask (.call _ _) from if_pos hname]
    exact ⟨nofun, fun _ => trivial⟩
  · rw [show callTool a block.toolName block.toolInput = pure _ from if_neg hname]
    trivial

lemma asks_callTools (a : Agent) (ctx : RunCtx) (blocks acc : List ContentBlock) :
    (callTools a blocks acc).Asks (UnderTurn ctx) := by
  induction blocks generalizing acc with
  | nil => trivial
  | cons block blocks ih =>
    unfold callTools
    split_ifs
    · exact ih acc
    refine (asks_emit _ _).bind fun _ => (asks_callTool a ctx block).bind fun r => ?_
    exact (asks_emit _ _).bind fun _ => ih _

lemma asks_iterate (a : Agent) (ctx : RunCtx) (model : String) (system : List SystemBlock)
    (n : ℕ) (msgs : List Message) :
    (iterate a ctx model system n msgs).Asks (UnderTurn ctx) := by
  induction n generalizing msgs with
  | zero => exact (asks_emit _ _).bind fun _ => trivial
  | succ n ih =>
    unfold iterate
    refine Remote.Proc.Asks.bind ⟨nofun, fun answer _ => trivial⟩ fun outcome => ?_
    cases outcome with
    | error err => exact (asks_emit _ _).bind fun _ => trivial
    | ok result =>
      have hrecord : UnderTurn ctx
          (.record ctx.conversationID ctx.weekID model result.usage) := by
        rintro _ _ _ _ ⟨⟩
        exact ⟨rfl, rfl⟩
      refine Remote.Proc.Asks.bind ⟨hrecord, fun _ => trivial⟩ fun _ => ?_
      refine (asks_callTools a ctx _ []).bind fun results => ?_
      split_ifs
      · exact (asks_emit _ _).bind fun _ => trivial
      · exact (asks_emit _ _).bind fun _ => trivial
      · exact ih _

/-- **The calls of a turn are recorded under its conversation and its plan.** -/
theorem run_underTurn (a : Agent) (ctx : RunCtx) (history : List Message) (userMessage : String)
    (ans : ℕ → (q : Query) → Reply q) :
    ∀ e ∈ ((run a ctx history userMessage).run ans ⟨[], []⟩).2.log, UnderTurn ctx e.query := by
  have hasks : (run a ctx history userMessage).Asks (UnderTurn ctx) := by
    unfold run
    refine Remote.Proc.Asks.bind ⟨nofun, fun _ => trivial⟩ fun r => ?_
    cases r with
    | error err => exact (asks_emit _ _).bind fun _ => trivial
    | ok model =>
      refine Remote.Proc.Asks.bind ?_ fun system => asks_iterate a ctx model system _ _
      unfold buildSystemBlocks languageBlock currentPlanBlock
      split_ifs
      · exact ⟨nofun, fun _ => trivial⟩
      · exact ⟨nofun, fun _ => ⟨nofun, fun _ => trivial⟩⟩
  obtain ⟨l, hlog, hl⟩ := hasks.run ans ⟨[], []⟩
  rw [hlog]
  exact hl

end Veckomenyn.Usage
