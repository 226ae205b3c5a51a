import Veckomenyn.AgentRun

/-!
The chat drawer of the web client.

The entries and the conversation id are the state of one component; the indices of the entry that
takes text and of the tools' cards are refs that outlive a render. A run's handlers are made when
its message is sent and keep the conversation id of that moment.
-/

namespace Veckomenyn.Drawer

open AgentRun

inductive ChatEntry where
  | user (text : String)
  | assistant (text : String)
  | tool (name input : String) (result : Option String) (isError : Bool)
  | error (text : String)
  | cancelled
deriving DecidableEq

/-- The entries, the index of the assistant's entry that takes text, and the indices of the cards. -/
structure View where
  entries : List ChatEntry
  assistantIndex : Option ℕ
  toolsByID : String → Option ℕ

/-- An event as the page has it. An empty field stands for one that is missing; but a card tells a
result that is empty from one that is missing. -/
structure AgentEvent where
  type : EventType
  text : String := ""
  tool : String := ""
  toolID : String := ""
  input : String := ""
  result : Option String := none
  isError : Bool := false
deriving DecidableEq

namespace AgentEvent

/-- An event of the agent, with `result` for what becomes of its result. -/
def ofEvent (result : String → Option String) (ev : Event) : AgentEvent where
  type := ev.type
  text := ev.text
  tool := ev.tool
  toolID := ev.toolID
  input := ev.input
  result := result ev.result
  isError := ev.isError

/-- The event as the agent emits it. -/
def emitted (ev : Event) : AgentEvent := ofEvent some ev

/-- `omitempty`. -/
def present (s : String) : Option String := if s = "" then none else some s

/-- The event as it comes from the server, without its empty fields. -/
def received (ev : Event) : AgentEvent := ofEvent present ev

end AgentEvent

def orElse (default s : String) : String := if s = "" then default else s

def applyAgentEvent (v : View) (ev : AgentEvent) : View :=
  match ev.type with
  | .text =>
    if ev.text = "" then v
    else match v.assistantIndex.bind fun idx => v.entries[idx]?.map fun e => (idx, e) with
      | some (idx, .assistant text) =>
        { v with entries := v.entries.set idx (.assistant (text ++ ev.text)) }
      | _ => ⟨v.entries ++ [.assistant ev.text], some v.entries.length, v.toolsByID⟩
  | .toolCallStarted => v
  | .toolCall =>
    ⟨v.entries ++ [.tool (orElse "tool" ev.tool) (orElse "\x7b\x7d" ev.input) none false], none,
      fun id => if id = ev.toolID ∧ id ≠ "" then some v.entries.length else v.toolsByID id⟩
  | .toolResult =>
    if ev.toolID = "" then v
    else match (v.toolsByID ev.toolID).bind fun idx => v.entries[idx]?.map fun e => (idx, e) with
      | some (idx, .tool name input _ _) =>
        { v with entries := v.entries.set idx (.tool name input ev.result ev.isError) }
      | _ => v
  | .error => { v with entries := v.entries ++ [.error (orElse "unknown error" (ev.result.getD ""))] }
  | .cancelled => { v with entries := v.entries ++ [.cancelled] }
  | .done => v

/-! ### The component -/

/-- A conversation's id, with the plan it was loaded for or made from. -/
structure Conversation where
  id : ℤ
  plan : Option ℤ
deriving DecidableEq

/-- A stored message as the drawer is given it. -/
structure Stored where
  user : Bool
  text : String
deriving DecidableEq

/-- A run that is being read: what its handlers keep, and whether its plan has been shown since it
was sent. -/
structure Stream where
  conversation : Option Conversation
  plan : Option ℤ
  here : Bool

/-- What the user sends and what the runs answer. -/
inductive Act where
  | user (text : String)
  | event (ev : AgentEvent)
  | cancelled
  | failed (text : String)

def View.act (v : View) : Act → View
  | .user text => ⟨v.entries ++ [.user text], none, fun _ => none⟩
  | .event ev => applyAgentEvent v ev
  | .cancelled => { v with entries := v.entries ++ [.cancelled] }
  | .failed text => { v with entries := v.entries ++ [.error text] }

structure Main where
  week : Option ℤ
  view : View
  conversationID : Option Conversation
  busy : Bool
  /-- A conversation is being loaded for the plan. -/
  loading : Bool
  stream : Option Stream
  /-- The entries loaded for the plan, and what was sent and answered there since it is shown. -/
  base : Option (List ChatEntry)
  acts : List Act
  /-- The plan and the conversation of each message sent. -/
  sends : List (Option ℤ × Option Conversation)

def start : Main := ⟨none, ⟨[], none, fun _ => none⟩, none, false, false, none, none, [], []⟩

def entryOf (m : Stored) : ChatEntry := if m.user then .user m.text else .assistant m.text

/-- How the reading of a stream ends. -/
inductive Outcome where
  | done
  | aborted
  | failed (message : String)

inductive Step where
  | switch (week : Option ℤ)
  | loaded (res : Option (ℤ × List Stored))
  | send (message : String)
  | onMeta (conversationID : ℤ)
  | onEvent (ev : AgentEvent)
  | finish (outcome : Outcome)

/-- Another plan is shown, or none; its conversation is loaded. -/
def switch (s : Main) (week : Option ℤ) : Main :=
  if week = s.week then s
  else
    let s := { s with
      week := week
      loading := week.isSome
      stream := s.stream.map fun st => { st with here := false }
      base := none
      acts := [] }
    if week = none then { s with view := { s.view with entries := [] }, conversationID := none }
    else s

/-- The load that was started for the plan that is shown; nothing is there or it failed when `res`
is `none`. -/
def loaded (s : Main) (res : Option (ℤ × List Stored)) : Main :=
  if s.loading then
    let entries := res.elim [] fun r => r.2.map entryOf
    { s with
      view := { s.view with entries := entries }
      conversationID := res.map fun r => ⟨r.1, s.week⟩
      loading := false
      base := some entries }
  else s

def send (s : Main) (message : String) : Main :=
  if s.busy then s
  else
    { s with
      view := s.view.act (.user message)
      busy := true
      stream := some ⟨s.conversationID, s.week, true⟩
      acts := s.acts ++ [.user message]
      sends := s.sends ++ [(s.week, s.conversationID)] }

def onMeta (s : Main) (conversationID : ℤ) : Main :=
  match s.stream with
  | some ⟨none, plan, _⟩ => { s with conversationID := some ⟨conversationID, plan⟩ }
  | _ => s

/-- What a run says goes to the entries that are shown. -/
def answer (s : Main) (st : Stream) (act : Act) : Main :=
  { s with
    view := s.view.act act
    acts := if st.here then s.acts ++ [act] else s.acts }

def onEvent (s : Main) (ev : AgentEvent) : Main :=
  match s.stream with
  | some st => answer s st (.event ev)
  | none => s

def finish (s : Main) (outcome : Outcome) : Main :=
  match s.stream with
  | some st =>
    let s := match outcome with
      | .done => s
      | .aborted => answer s st .cancelled
      | .failed message => answer s st (.failed message)
    { s with busy := false, stream := none }
  | none => s

def step (s : Main) : Step → Main
  | .switch week => switch s week
  | .loaded res => loaded s res
  | .send message => send s message
  | .onMeta id => onMeta s id
  | .onEvent ev => onEvent s ev
  | .finish outcome => finish s outcome

def run (s : Main) (steps : List Step) : Main := steps.foldl step s

end Veckomenyn.Drawer
