import Veckomenyn.AgentRun
import Veckomenyn.ReadTools
import Veckomenyn.Utf8

/-!
Conversations and their messages, and the route that runs a turn of a chat.

The route answers for one request at a time; each statement is committed at once. Of a plan only its
id is kept, for the reference of a conversation to its plan. What the model and the tools say in a
turn is given with the request.
-/

namespace Veckomenyn.Conversations

open Rows Llm AgentRun Utf8 Framing ReadTools

structure Conversation where
  id : ℤ
  weekId : Option ℤ
  title : String
  updatedAt : ℤ
deriving DecidableEq

instance : Keyed Conversation := ⟨Conversation.id⟩

/-- A message; its content is the text of the JSON value, when that is a text. -/
structure MessageRow where
  id : ℤ
  conversationId : ℤ
  role : Role
  content : Option String
  createdAt : ℤ
deriving DecidableEq

instance : Keyed MessageRow := ⟨MessageRow.id⟩

structure ChatDb where
  weeks : List ℤ
  conversations : Table Conversation
  messages : Table MessageRow

def ChatDb.putConversation (d : ChatDb) (c : Conversation) : ChatDb :=
  { d with conversations := d.conversations.put c }

structure ChatRequest where
  conversationID : Option ℤ
  weekID : Option ℤ
  message : String

inductive ChatError where
  | messageRequired
  | notFound (id : ℤ)
  | weekReference
  | titleEncoding
deriving DecidableEq

/-! ### The conversation of a request -/

/-- The first line, cut at 80 bytes wherever that is. -/
def conversationTitle (msg : String) : List UInt8 :=
  let line := encode String.utf8EncodeChar ((trimSpace msg).toList.takeWhile fun c => c ≠ '\n')
  if 80 < line.length then line.take 80 ++ encode String.utf8EncodeChar ['…'] else line

/-- `updated_at` is set by the statement and by the table's trigger alike. -/
def touch (d : ChatDb) (now : ℤ) (c : Conversation) : ChatDb :=
  d.putConversation { c with updatedAt := now }

/-- What Postgres takes for a text: UTF-8 without a zero byte. -/
def pgText? (bs : List UInt8) : Option String := if 0 ∈ bs then none else text? bs

/-- An insert; a title that is no text and a plan that does not exist are refused. -/
def newConversation (d : ChatDb) (now : ℤ) (weekId : Option ℤ) (title : List UInt8) :
    Except ChatError ℤ × ChatDb :=
  match pgText? title with
  | none => (.error .titleEncoding, d)
  | some t =>
    if ∀ w ∈ weekId, w ∈ d.weeks then
      (.ok d.conversations.next, d.putConversation ⟨d.conversations.next, weekId, t, now⟩)
    else
      let used := d.conversations.reserve (d.conversations.next + 1)
      (.error .weekReference, { d with conversations := used })

/-- The conversation of the plan that was touched last. -/
def latestConversation (d : ChatDb) (weekId : ℤ) : Option Conversation :=
  ((d.conversations.rows.filter fun c => c.weekId = some weekId).insertionSort
    fun a b => b.updatedAt ≤ a.updatedAt).head?

def ensureConversation (d : ChatDb) (now : ℤ) (id weekID : Option ℤ) (firstMessage : String) :
    Except ChatError ℤ × ChatDb :=
  match id.filter fun id => 0 < id with
  | some id => match d.conversations.find? id with
    | none => (.error (.notFound id), d)
    | some c => (.ok id, touch d now c)
  | none => match weekID.filter fun w => 0 < w with
    | some w => match latestConversation d w with
      | some c => (.ok c.id, touch d now c)
      | none => newConversation d now (some w) (conversationTitle firstMessage)
    | none => newConversation d now none (conversationTitle firstMessage)

/-! ### Messages -/

/-- The messages of a conversation, in order. -/
def messagesOf (d : ChatDb) (convID : ℤ) : List MessageRow :=
  (d.messages.rows.filter fun m => m.conversationId = convID).insertionSort
    fun a b => a.createdAt < b.createdAt ∨ a.createdAt = b.createdAt ∧ a.id ≤ b.id

/-- What the model is told of a message, if anything. -/
def replay (m : MessageRow) : Option Message :=
  match m.content with
  | none => none
  | some text =>
    if trimSpace text = "" then none
    else match m.role with
      | .user => some (newUserMessage [textBlock text])
      | .assistant => some (newAssistantMessage [textBlock text]).1

def loadHistory (d : ChatDb) (convID : ℤ) : List Message :=
  (messagesOf d convID).filterMap replay

/-- A message is added under the next id. -/
def saveMessage (d : ChatDb) (now convID : ℤ) (role : Role) (text : String) : ChatDb :=
  let m : MessageRow := ⟨d.messages.next, convID, role, some text, now⟩
  { d with messages := d.messages.put m }

/-! ### A turn -/

/-- When the statements of a request run, which of its messages can be saved, and what is said. -/
structure Env where
  now : ℤ
  userAt : ℤ
  userSaved : Bool
  assistantAt : ℤ
  assistantSaved : Bool
  ans : ℕ → (q : Query) → Reply q

/-- The texts among the events. -/
def assistantText (es : List Event) : String :=
  String.join ((es.filter fun e => e.type = .text).map Event.text)

/-- What became of an accepted request: its conversation, the plan that was attached to, the
messages it read and the ids of those it saved. -/
structure Served where
  req : ChatRequest
  convID : ℤ
  attached : Option ℤ
  loaded : List MessageRow
  saved : List ℤ

/-- The history handed to the agent. -/
def Served.history (s : Served) : List Message := s.loaded.filterMap replay

/-- A message, if it is saved, and the ids it adds. -/
def trySave (d : ChatDb) (saved : Bool) (now convID : ℤ) (role : Role) (text : String) :
    ChatDb × List ℤ :=
  if saved then (saveMessage d now convID role text, [d.messages.next]) else (d, [])

def runCtx (req : ChatRequest) (convID : ℤ) : RunCtx :=
  ⟨if 0 < convID then convID else 0, (req.weekID.filter fun w => 0 < w).getD 0⟩

def handleChat (a : Agent) (env : Env) (req : ChatRequest) (d : ChatDb) :
    Except ChatError Served × ChatDb :=
  if trimSpace req.message = "" then (.error .messageRequired, d)
  else match ensureConversation d env.now req.conversationID req.weekID req.message with
    | (.error e, d') => (.error e, d')
    | (.ok convID, d') =>
      let user := trySave d' env.userSaved env.userAt convID .user req.message
      let events := ((run a (runCtx req convID) (loadHistory d' convID) req.message).run env.ans
        ⟨[], []⟩).2.mem
      let text := assistantText events
      let assistant := trySave user.1 (env.assistantSaved && text ≠ "") env.assistantAt convID
        .assistant text
      (.ok ⟨req, convID, (d'.conversations.find? convID).bind Conversation.weekId,
        messagesOf d' convID, user.2 ++ assistant.2⟩, assistant.1)

/-! ### What else happens to conversations -/

/-- Deleting a plan detaches its conversations, and the trigger touches them. -/
def deleteWeek (d : ChatDb) (now weekId : ℤ) : ChatDb where
  weeks := d.weeks.filter fun w => w ≠ weekId
  conversations := d.conversations.applyAll (((d.conversations.rows.filter fun c =>
    c.weekId = some weekId).map fun c => { c with weekId := none, updatedAt := now }).map .put)
  messages := d.messages

/-- The conversations of a plan go, and their messages with them. -/
def deleteWeekConversations (d : ChatDb) (weekId : ℤ) : ChatDb where
  weeks := d.weeks
  conversations := d.conversations.applyAll (((d.conversations.rows.filter fun c =>
    c.weekId = some weekId).map Conversation.id).map .del)
  messages := d.messages.applyAll (((d.messages.rows.filter fun m =>
    d.conversations.rows.any fun c => c.id = m.conversationId ∧ c.weekId = some weekId).map
      MessageRow.id).map .del)

inductive Step where
  | chat (env : Env) (req : ChatRequest)
  | addWeek (weekId : ℤ)
  | deleteWeek (now weekId : ℤ)
  | deleteWeekConversations (weekId : ℤ)

/-- The accepted requests so far, and the database. -/
structure State where
  served : List Served
  db : ChatDb

def start : State := ⟨[], ⟨[], Table.empty, Table.empty⟩⟩

def State.step (a : Agent) (s : State) : Step → State
  | .chat env req => match handleChat a env req s.db with
    | (.ok served, d) => ⟨s.served ++ [served], d⟩
    | (.error _, d) => ⟨s.served, d⟩
  | .addWeek w => ⟨s.served, { s.db with weeks := s.db.weeks ++ [w] }⟩
  | .deleteWeek now w => ⟨s.served, Conversations.deleteWeek s.db now w⟩
  | .deleteWeekConversations w => ⟨s.served, Conversations.deleteWeekConversations s.db w⟩

end Veckomenyn.Conversations
