import Veckomenyn.Llm
import Veckomenyn.Remote

/-!
One user turn of the agent: the loop that asks the model and calls its tools.

The memory is what has been emitted so far. The settings, the plan, the model, the usage table and
the tools are asked; the model's answer comes with the events it streamed.
-/

namespace Veckomenyn.AgentRun

open Remote Llm

inductive EventType where
  | text
  | toolCallStarted
  | toolCall
  | toolResult
  | error
  | done
  | cancelled
deriving DecidableEq

structure Event where
  type : EventType
  text : String := ""
  tool : String := ""
  toolID : String := ""
  input : String := ""
  result : String := ""
  isError : Bool := false
deriving DecidableEq

/-- The ids on the context, `0` for none. -/
structure RunCtx where
  conversationID : ℤ
  weekID : ℤ
deriving DecidableEq

/-- What the system prompt says of the plan. -/
structure PlanLine where
  iso : String
  start : String
  finish : String
  status : String
  dinnerCount : ℤ
deriving DecidableEq

inductive Query where
  | resolveProvider
  | language
  | currentPlan (id : ℤ)
  | runStream (params : RunParams)
  | record (convID weekID : ℤ) (model : String) (usage : Usage)
  | call (name input : String)

def Reply : Query → Type
  | .resolveProvider => Except String String
  | .language => Option String
  | .currentPlan _ => Option PlanLine
  | .runStream _ => Streamed
  | .record .. => Unit
  | .call .. => Except String String

abbrev Run (α : Type) := Proc (List Event) Query Reply Empty α

abbrev RunWorld := World (List Event) Query Reply

/-! ### The agent -/

structure Config where
  maxIters : ℤ

def defaultMaxIters : ℤ := 60

def defaultMaxTok : ℕ := 16000

structure Agent where
  cfg : Config
  systemPrompt : String
  tools : List ToolDef

def newAgent (cfg : Config) (systemPrompt : String) (tools : List ToolDef) : Agent :=
  ⟨if cfg.maxIters = 0 then ⟨defaultMaxIters⟩ else cfg, systemPrompt, tools⟩

def emit (e : Event) : Run Unit := Proc.modify fun es => es ++ [e]

def ask (q : Query) : Run (Reply q) := Proc.request q

/-- The model, of a provider made from the settings and the saved config. -/
def resolveProvider : Run (Except String String) := ask .resolveProvider

def householdLanguage : Run (Option String) := ask .language

def planLine (id : ℤ) : Run (Option PlanLine) := ask (.currentPlan id)

def record (ctx : RunCtx) (model : String) (usage : Usage) : Run Unit :=
  ask (.record ctx.conversationID ctx.weekID model usage)

def languageText (lang : String) : String :=
  match if lang = "" then "sv" else lang with
  | "sv" => "<language>sv</language>\nWrite all user-facing output in Swedish: chat replies, " ++
    "recipe_md bodies, dish names, notes, and summaries. Use Swedish cooking terminology (sjud, " ++
    "fräs, stek, etc.). Keep tool call arguments as-is (dates, IDs, statuses, category slugs " ++
    "remain English/ISO). Do not translate existing recipe content; only new content you " ++
    "generate from this point."
  | "en" => "<language>en</language>\nWrite all user-facing output in English. Do not translate " ++
    "existing content; leave it in whatever language it was recorded."
  | _ => ""

def planText (id : ℤ) (p : PlanLine) : String :=
  "<current-plan>\n  id: " ++ toString id ++ "\n  iso_week: " ++ p.iso ++ "\n  dates: " ++
    p.start ++ " -> " ++ p.finish ++ "\n  status: " ++ p.status ++ "\n  dinners: " ++
    toString p.dinnerCount ++ "\n</current-plan>\nThis chat is tied to the plan above. Assume " ++
    "every user request refers to it. When calling week-scoped tools (add_dinner, update_week, " ++
    "update_dinner, delete_dinner, add_exception, update_exception, delete_exception, " ++
    "record_retrospective, get_week), omit week_id or pass id=" ++ toString id ++
    "; any other value will be refused. If the user wants to edit a different plan, tell them " ++
    "to open it and try there."

/-- Nothing is said when the settings cannot be read. -/
def languageBlock : Run SystemBlock := do
  let lang ← householdLanguage
  pure ⟨lang.elim "" languageText⟩

def currentPlanBlock (ctx : RunCtx) : Run SystemBlock :=
  if ctx.weekID = 0 then pure ⟨""⟩ else do
    let plan ← planLine ctx.weekID
    pure ⟨plan.elim "" (planText ctx.weekID)⟩

def buildSystemBlocks (a : Agent) (ctx : RunCtx) : Run (List SystemBlock) := do
  let language ← languageBlock
  let plan ← currentPlanBlock ctx
  pure (⟨a.systemPrompt⟩ :: [language, plan].filter fun b => b.text ≠ "")

/-- The name of the tool and what it says, or its error. -/
def callTool (a : Agent) (name input : String) : Run (Except String String) :=
  if a.tools.any fun t => t.name = name then ask (.call name input)
  else pure (.error ("unknown tool: " ++ name))

/-! ### The loop -/

/-- The callback of the stream. -/
def streamed (ev : StreamEvent) : List Event :=
  match ev.kind with
  | .textDelta => [{ type := .text, text := ev.text }]
  | .toolCallStart => [{ type := .toolCallStarted, tool := ev.toolName, toolID := ev.toolID }]
  | _ => []

def runStream (params : RunParams) : Run (Except String RunResult) := do
  let answer ← (ask (.runStream params) : Run Streamed)
  Proc.modify fun es => es ++ answer.1.flatMap streamed
  pure answer.2

def callEvent (block : ContentBlock) : Event :=
  { type := .toolCall, tool := block.toolName, toolID := block.toolID, input := block.toolInput }

def resultText : Except String String → String
  | .ok out => out
  | .error err => err

def isErr : Except String String → Bool
  | .ok _ => false
  | .error _ => true

def resultEvent (block : ContentBlock) (r : Except String String) : Event :=
  { type := .toolResult, tool := block.toolName, toolID := block.toolID, result := resultText r,
    isError := isErr r }

def resultBlock (block : ContentBlock) (r : Except String String) : ContentBlock :=
  toolResultBlock block.toolID (resultText r) (isErr r)

/-- The loop over the blocks of a reply; it collects the results. -/
def callTools (a : Agent) : List ContentBlock → List ContentBlock → Run (List ContentBlock)
  | [], toolResults => pure toolResults
  | block :: blocks, toolResults =>
    if block.type ≠ .toolUse then callTools a blocks toolResults else do
      emit (callEvent block)
      let r ← callTool a block.toolName block.toolInput
      emit (resultEvent block r)
      callTools a blocks (toolResults ++ [resultBlock block r])

def errorEvent (err : String) : Event := { type := .error, result := err, isError := true }

/-- The messages, and the error of the run if it has one. -/
abbrev Outcome := List Message × Option String

def iterate (a : Agent) (ctx : RunCtx) (model : String) (system : List SystemBlock) :
    ℕ → List Message → Run Outcome
  | 0, msgs => do
    emit (errorEvent "max iterations reached")
    pure (msgs, some ("max iterations (" ++ toString a.cfg.maxIters ++ ") reached"))
  | n + 1, msgs => do
    match ← runStream ⟨model, defaultMaxTok, system, a.tools, msgs⟩ with
    | .error err =>
      emit (errorEvent err)
      pure (msgs, some err)
    | .ok result =>
      record ctx model result.usage
      let msgs := msgs ++ [result.assistantMessage.1]
      let toolResults ← callTools a result.assistantMessage.1.content []
      if result.stopReason ≠ .toolUse then do
        emit { type := .done }
        pure (msgs, none)
      else if toolResults.length = 0 then do
        emit (errorEvent "model requested tool use but emitted no tool blocks")
        pure (msgs, some "empty tool batch")
      else iterate a ctx model system n (msgs ++ [newUserMessage toolResults])

def asked (history : List Message) (userMessage : String) : List Message :=
  history ++ [newUserMessage [textBlock userMessage]]

def run (a : Agent) (ctx : RunCtx) (history : List Message) (userMessage : String) :
    Run Outcome := do
  let msgs := asked history userMessage
  match ← resolveProvider with
  | .error err =>
    emit (errorEvent err)
    pure (msgs, some err)
  | .ok model =>
    let system ← buildSystemBlocks a ctx
    iterate a ctx model system a.cfg.maxIters.toNat msgs

end Veckomenyn.AgentRun
