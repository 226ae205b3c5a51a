import Mathlib.Data.List.Basic
import Mathlib.Data.Int.Notation

/-!
Messages to and from a language model, and what the two backends make of a reply.

A reply is streamed; the client of the service accumulates it. What a backend hands back is the
events it emitted on the way, and an error or the whole reply.
-/

namespace Veckomenyn.Llm

inductive Role where
  | user
  | assistant
deriving DecidableEq

inductive StopReason where
  | endTurn
  | toolUse
deriving DecidableEq

inductive StreamEventKind where
  | textDelta
  | toolCallStart
  | toolCallDelta
  | toolCallComplete
deriving DecidableEq

inductive BlockType where
  | text
  | toolUse
  | toolResult
deriving DecidableEq

structure ContentBlock where
  type : BlockType
  text : String := ""
  toolID : String := ""
  toolName : String := ""
  toolInput : String := ""
  isError : Bool := false
deriving DecidableEq

structure Message where
  role : Role
  content : List ContentBlock
deriving DecidableEq

structure ToolDef where
  name : String
  description : String
deriving DecidableEq

structure Usage where
  inputTokens : ℤ
  outputTokens : ℤ
  cacheCreationInputTokens : ℤ := 0
  cacheReadInputTokens : ℤ := 0
deriving DecidableEq

structure StreamEvent where
  kind : StreamEventKind
  text : String := ""
  toolName : String := ""
  toolID : String := ""
  toolInput : String := ""
deriving DecidableEq

def textBlock (text : String) : ContentBlock := { type := .text, text := text }

def toolResultBlock (toolID text : String) (isError : Bool) : ContentBlock :=
  { type := .toolResult, toolID := toolID, text := text, isError := isError }

def toolUseBlock (toolID toolName input : String) : ContentBlock :=
  { type := .toolUse, toolID := toolID, toolName := toolName, toolInput := input }

def newUserMessage (blocks : List ContentBlock) : Message := ⟨.user, blocks⟩

/-- A message of the model's. -/
abbrev AssistantMessage := {m : Message // m.role = .assistant}

def newAssistantMessage (blocks : List ContentBlock) : AssistantMessage := ⟨⟨.assistant, blocks⟩, rfl⟩

structure SystemBlock where
  text : String
deriving DecidableEq

structure RunParams where
  model : String
  maxTokens : ℕ
  system : List SystemBlock
  tools : List ToolDef
  messages : List Message
deriving DecidableEq

structure RunResult where
  stopReason : StopReason
  usage : Usage
  assistantMessage : AssistantMessage

/-- The events emitted, then an error or the result. -/
abbrev Streamed := List StreamEvent × Except String RunResult

/-! ### Tool calls -/

def isToolUse (b : ContentBlock) : Bool := b.type = .toolUse

/-- The tool calls of a message. -/
def Message.toolUses (m : Message) : List ContentBlock := m.content.filter isToolUse

/-! ### OpenAI -/

structure DeltaCall where
  id : String
  name : String

structure Delta where
  content : String
  toolCalls : List DeltaCall

structure CompletionCall where
  id : String
  name : String
  arguments : String

structure Choice where
  finishReason : String
  content : String
  toolCalls : List CompletionCall

structure Completion where
  choices : List Choice
  promptTokens : ℤ
  completionTokens : ℤ

def fromOpenAIMessage (completion : Completion) : AssistantMessage :=
  match completion.choices with
  | [] => newAssistantMessage []
  | choice :: _ => newAssistantMessage
      ((if choice.content ≠ "" then [textBlock choice.content] else []) ++
        choice.toolCalls.map fun tc => toolUseBlock tc.id tc.name tc.arguments)

def openAIStopReason (completion : Completion) : StopReason :=
  match completion.choices with
  | [] => .endTurn
  | choice :: _ => if choice.finishReason = "tool_calls" then .toolUse else .endTurn

def openAIDelta (delta : Delta) : List StreamEvent :=
  (if delta.content ≠ "" then [{ kind := .textDelta, text := delta.content }] else []) ++
    (delta.toolCalls.filter fun tc => tc.id ≠ "").map fun tc =>
      { kind := .toolCallStart, toolName := tc.name, toolID := tc.id }

/-- The stream's deltas, and its error or what they add up to. -/
def openAIRunStream (deltas : List Delta) (acc : Except String Completion) : Streamed :=
  (deltas.flatMap openAIDelta, match acc with
    | .error e => .error ("stream: " ++ e)
    | .ok completion => .ok ⟨openAIStopReason completion,
        ⟨completion.promptTokens, completion.completionTokens, 0, 0⟩, fromOpenAIMessage completion⟩)

/-- A reply's tool calls are announced by its finish reason. -/
theorem openAI_toolUses (completion : Completion) :
    (openAIStopReason completion ≠ .toolUse → (fromOpenAIMessage completion).1.toolUses = []) ↔
      ∀ choice ∈ completion.choices.head?,
        choice.finishReason = "tool_calls" ∨ choice.toolCalls = [] := by
  obtain ⟨choices, prompt, tokens⟩ := completion
  cases choices with
  | nil => exact iff_of_true (fun _ => rfl) (by simp)
  | cons choice choices =>
    have hcalls : ∀ b ∈ choice.toolCalls.map fun tc => toolUseBlock tc.id tc.name tc.arguments,
        isToolUse b = true := by
      intro b hb
      obtain ⟨tc, -, rfl⟩ := List.mem_map.mp hb
      rfl
    have htext : (if choice.content ≠ "" then [textBlock choice.content] else []).filter isToolUse
        = [] := by
      split <;> rfl
    have huses : (fromOpenAIMessage ⟨choice :: choices, prompt, tokens⟩).1.toolUses =
        choice.toolCalls.map fun tc => toolUseBlock tc.id tc.name tc.arguments := by
      unfold fromOpenAIMessage newAssistantMessage Message.toolUses
      rw [List.filter_append, htext, List.nil_append, List.filter_eq_self.mpr hcalls]
    rw [huses, List.map_eq_nil_iff]
    simp only [openAIStopReason, List.head?_cons, Option.mem_def, Option.some.injEq, forall_eq']
    by_cases hfin : choice.finishReason = "tool_calls"
    · simp [hfin]
    · simp [hfin]

/-! ### Anthropic -/

inductive SdkEvent where
  | toolUseStart (name id : String)
  | textDelta (text : String)
  | other

inductive SdkBlock where
  | text (text : String)
  | toolUse (id name input : String)
  | other

structure SdkMessage where
  stopReason : String
  content : List SdkBlock
  usage : Usage

def fromSDKBlock : SdkBlock → Option ContentBlock
  | .text t => some (textBlock t)
  | .toolUse id name input => some (toolUseBlock id name input)
  | .other => none

def fromSDKMessage (resp : SdkMessage) : AssistantMessage :=
  newAssistantMessage (resp.content.filterMap fromSDKBlock)

def anthropicStopReason (resp : SdkMessage) : StopReason :=
  if resp.stopReason = "tool_use" then .toolUse else .endTurn

def anthropicEvent : SdkEvent → List StreamEvent
  | .toolUseStart name id => [{ kind := .toolCallStart, toolName := name, toolID := id }]
  | .textDelta text => if text ≠ "" then [{ kind := .textDelta, text := text }] else []
  | .other => []

/-- What the stream ends with: an event that does not fit, an error of the stream, or the whole. -/
inductive SdkEnd where
  | accumulate (err : String)
  | stream (err : String)
  | done (resp : SdkMessage)

def anthropicRunStream (events : List SdkEvent) (last : SdkEnd) : Streamed :=
  (events.flatMap anthropicEvent, match last with
    | .accumulate e => .error ("accumulate: " ++ e)
    | .stream e => .error ("stream: " ++ e)
    | .done resp => .ok ⟨anthropicStopReason resp, resp.usage, fromSDKMessage resp⟩)

/-- A reply's tool calls are announced by its stop reason. -/
theorem anthropic_toolUses (resp : SdkMessage) :
    (anthropicStopReason resp ≠ .toolUse → (fromSDKMessage resp).1.toolUses = []) ↔
      resp.stopReason = "tool_use" ∨ ∀ id name input, .toolUse id name input ∉ resp.content := by
  have huses : (fromSDKMessage resp).1.toolUses = [] ↔
      ∀ id name input, .toolUse id name input ∉ resp.content := by
    unfold fromSDKMessage newAssistantMessage Message.toolUses
    rw [List.filter_eq_nil_iff]
    constructor
    · intro h id name input hmem
      exact h (toolUseBlock id name input) (List.mem_filterMap.mpr ⟨_, hmem, rfl⟩) rfl
    · intro h b hb
      obtain ⟨block, hmem, hblock⟩ := List.mem_filterMap.mp hb
      cases block with
      | text t =>
        cases hblock
        simp [isToolUse, textBlock]
      | toolUse id name input => exact absurd hmem (h id name input)
      | other => cases hblock
  rw [huses]
  simp [anthropicStopReason, imp_iff_not_or]

end Veckomenyn.Llm
