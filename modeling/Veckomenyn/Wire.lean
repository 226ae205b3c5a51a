import Veckomenyn.Cards
import Veckomenyn.Chunks
import Veckomenyn.JsonText
import Veckomenyn.Reload

/-!
A turn of a chat on its way from the agent to the page.

The server writes each event of a run as a JSON text in a frame of its answer. What the page reads
of the answer comes in chunks that are cut anywhere and may end before the answer does; it shows the
events whose frames have come whole.
-/

namespace Veckomenyn.Wire

open Framing Sse Chunks JsonText AgentRun Conversations OnePlan Drawer Cards

/-! ### Writing -/

/-- What a frame carries: the id of a conversation, or an event without its empty fields. -/
inductive Data where
  | chatMeta (conversationID : ℤ)
  | agentEvent (ev : AgentEvent)

def typeText : EventType → String
  | .text => "text"
  | .toolCallStarted => "tool_call_started"
  | .toolCall => "tool_call"
  | .toolResult => "tool_result"
  | .error => "error"
  | .done => "done"
  | .cancelled => "cancelled"

/-- A field that may be missing. -/
def optional (key : String) : Option String → List (List Char × List Char)
  | some value => [(key.toList, quote value.toList)]
  | none => []

open AgentEvent in
def eventMembers (ev : AgentEvent) : List (List Char × List Char) :=
  ("type".toList, quote (typeText ev.type).toList) :: (optional "text" (present ev.text) ++
    optional "tool" (present ev.tool) ++ optional "tool_id" (present ev.toolID) ++
    optional "input" (present ev.input) ++ optional "result" ev.result ++
    if ev.isError then [("is_error".toList, trueText)] else [])

/-- `json.Marshal`. -/
def marshal : Data → String
  | .chatMeta id => String.ofList (object [("conversation_id".toList, decimal id)])
  | .agentEvent ev => String.ofList (object (eventMembers ev))

/-! ### Reading -/

/-- The last member of the key. -/
def field (ms : List (List Char × Value)) (key : String) : Option Value :=
  (ms.filter fun m => m.1 = key.toList).getLast?.map Prod.snd

def textField (ms : List (List Char × Value)) (key : String) : Option String :=
  match field ms key with
  | some (.str s) => some (String.ofList s)
  | _ => none

def flagField (ms : List (List Char × Value)) (key : String) : Bool :=
  match field ms key with
  | some (.bool b) => b
  | _ => false

def typeOf (text : String) : Option EventType :=
  [.text, .toolCallStarted, .toolCall, .toolResult, .error, .done, .cancelled].find? fun type =>
    typeText type = text

/-- The fields of an event; a result that is missing stays missing. -/
def eventOf (ms : List (List Char × Value)) : Option AgentEvent :=
  ((textField ms "type").bind typeOf).map fun type =>
    { type := type
      text := (textField ms "text").getD ""
      tool := (textField ms "tool").getD ""
      toolID := (textField ms "tool_id").getD ""
      input := (textField ms "input").getD ""
      result := textField ms "result"
      isError := flagField ms "is_error" }

/-- `JSON.parse`, with what the handlers take from the object. -/
def parse (text : String) : Option Data :=
  match JsonText.read text.toList with
  | some (.obj ms) => match field ms "conversation_id" with
    | some (.num digits) => some (.chatMeta (number digits))
    | _ => (eventOf ms).map .agentEvent
  | _ => none

/-! ### What was written is read -/

/-- The values of an event's members. -/
def textValue (key : String) : Option String → List (List Char × Value)
  | some value => [(key.toList, .str value.toList)]
  | none => []

def flagValue (b : Bool) : List (List Char × Value) :=
  if b then [("is_error".toList, .bool true)] else []

open AgentEvent in
def eventValues (ev : AgentEvent) : List (List Char × Value) :=
  ("type".toList, .str (typeText ev.type).toList) :: (textValue "text" (present ev.text) ++
    textValue "tool" (present ev.tool) ++ textValue "tool_id" (present ev.toolID) ++
    textValue "input" (present ev.input) ++ textValue "result" ev.result ++ flagValue ev.isError)

/-- Members with their values. -/
def optionalRead (key : String) : Option String → Read
  | some value => [(key.toList, quote value.toList, .str value.toList)]
  | none => []

variable {key key' : String} {o : Option String}

lemma optionalRead_texts : (optionalRead key o).texts = optional key o := by cases o <;> rfl

lemma optionalRead_values : (optionalRead key o).values = textValue key o := by cases o <;> rfl

lemma reads_optional : ∀ m ∈ optionalRead key o, Reads m.2.1 m.2.2 := by
  cases o with
  | none => exact List.forall_mem_nil _
  | some value => exact List.forall_mem_singleton.mpr (reads_quote _)

lemma texts_append (l l' : Read) : Read.texts (l ++ l') = l.texts ++ l'.texts := List.map_append

lemma values_append (l l' : Read) : Read.values (l ++ l') = l.values ++ l'.values :=
  List.map_append

lemma reads_event (ev : AgentEvent) : Reads (object (eventMembers ev)) (.obj (eventValues ev)) := by
  let flag : Read := if ev.isError then [("is_error".toList, trueText, .bool true)] else []
  let l : Read := ("type".toList, quote (typeText ev.type).toList, .str (typeText ev.type).toList)
    :: (optionalRead "text" (AgentEvent.present ev.text) ++
      optionalRead "tool" (AgentEvent.present ev.tool) ++
      optionalRead "tool_id" (AgentEvent.present ev.toolID) ++
      optionalRead "input" (AgentEvent.present ev.input) ++
      optionalRead "result" ev.result ++ flag)
  have hflag : flag.texts = (if ev.isError then [("is_error".toList, trueText)] else []) ∧
      flag.values = flagValue ev.isError ∧ ∀ m ∈ flag, Reads m.2.1 m.2.2 := by
    unfold flag flagValue
    split_ifs
    · exact ⟨rfl, rfl, List.forall_mem_singleton.mpr reads_trueText⟩
    · exact ⟨rfl, rfl, List.forall_mem_nil _⟩
  have htexts : l.texts = eventMembers ev := by
    refine congrArg (_ :: ·) ?_
    rw [← Read.texts]
    simp only [texts_append, optionalRead_texts, hflag.1]
  have hvalues : l.values = eventValues ev := by
    refine congrArg (_ :: ·) ?_
    rw [← Read.values]
    simp only [values_append, optionalRead_values, hflag.2.1]
  rw [← htexts, ← hvalues]
  refine reads_object (List.forall_mem_cons.mpr ⟨reads_quote _, ?_⟩)
  simp only [List.forall_mem_append]
  exact ⟨⟨⟨⟨⟨reads_optional, reads_optional⟩, reads_optional⟩, reads_optional⟩,
    reads_optional⟩, hflag.2.2⟩

/-! ### The fields of an event -/

lemma filter_textValue : (textValue key o).filter (fun m => m.1 = key.toList) =
    textValue key o := by
  cases o <;> simp [textValue]

lemma filter_textValue_ne (h : key' ≠ key) :
    (textValue key' o).filter (fun m => m.1 = key.toList) = [] := by
  have hkey : key'.toList ≠ key.toList := fun heq => h (String.toList_inj.mp heq)
  cases o with
  | none => rfl
  | some value => exact List.filter_cons_of_neg fun heq => hkey (of_decide_eq_true heq)

lemma filter_flagValue_ne (b : Bool) (h : "is_error" ≠ key) :
    (flagValue b).filter (fun m => m.1 = key.toList) = [] := by
  have hkey : "is_error".toList ≠ key.toList := fun heq => h (String.toList_inj.mp heq)
  unfold flagValue
  split_ifs
  · exact List.filter_cons_of_neg fun heq => hkey (of_decide_eq_true heq)
  · rfl

lemma textField_of_filter {ms : List (List Char × Value)}
    (h : ms.filter (fun m => m.1 = key.toList) = textValue key o) : textField ms key = o := by
  unfold textField field
  rw [h]
  cases o with
  | none => rfl
  | some value => exact congrArg some String.ofList_toList

lemma present_getD (s : String) : (AgentEvent.present s).getD "" = s := by
  unfold AgentEvent.present
  split_ifs with h
  · exact h.symm
  · rfl

/-- Looking for a key among an event's members. -/
lemma filter_event (ev : AgentEvent) (hkey : "type" ≠ key) :
    (eventValues ev).filter (fun m => m.1 = key.toList) =
      (textValue "text" (AgentEvent.present ev.text) ++
        textValue "tool" (AgentEvent.present ev.tool) ++
        textValue "tool_id" (AgentEvent.present ev.toolID) ++
        textValue "input" (AgentEvent.present ev.input) ++ textValue "result" ev.result ++
        flagValue ev.isError).filter fun m => m.1 = key.toList :=
  List.filter_cons_of_neg fun heq => hkey (String.toList_inj.mp (of_decide_eq_true heq))

lemma eventOf_eventValues (ev : AgentEvent) : eventOf (eventValues ev) = some ev := by
  have htype : textField (eventValues ev) "type" = some (typeText ev.type) := by
    refine textField_of_filter ?_
    unfold eventValues
    rw [List.filter_cons_of_pos (by simp)]
    simp (disch := decide) only [List.filter_append, filter_textValue_ne, filter_flagValue_ne,
      List.append_nil]
    rfl
  have hfields : textField (eventValues ev) "text" = AgentEvent.present ev.text ∧
      textField (eventValues ev) "tool" = AgentEvent.present ev.tool ∧
      textField (eventValues ev) "tool_id" = AgentEvent.present ev.toolID ∧
      textField (eventValues ev) "input" = AgentEvent.present ev.input ∧
      textField (eventValues ev) "result" = ev.result := by
    refine ⟨?_, ?_, ?_, ?_, ?_⟩ <;> refine textField_of_filter ?_ <;>
      rw [filter_event ev (by decide)] <;>
      simp (disch := decide) only [List.filter_append, filter_textValue, filter_textValue_ne,
        filter_flagValue_ne, List.nil_append, List.append_nil]
  have hflag : flagField (eventValues ev) "is_error" = ev.isError := by
    unfold flagField field
    rw [filter_event ev (by decide)]
    simp (disch := decide) only [List.filter_append, filter_textValue_ne, List.nil_append]
    cases ev.isError <;> rfl
  have hknown : typeOf (typeText ev.type) = some ev.type := by
    cases ev.type <;> decide
  obtain ⟨htext, htool, hid, hinput, hresult⟩ := hfields
  rw [eventOf, htype, Option.bind_some, hknown, htext, htool, hid, hinput, hresult, hflag]
  simp only [present_getD, Option.map_some]

/-- **Round trip**: what a frame carries is read from what was written of it. -/
theorem parse_marshal (data : Data) : parse (marshal data) = some data := by
  cases data with
  | chatMeta id =>
    unfold parse marshal
    rw [String.toList_ofList, (reads_decimal _ id).read]
    show some (Data.chatMeta (number (decimal id))) = _
    rw [number_decimal]
  | agentEvent ev =>
    have hnone : field (eventValues ev) "conversation_id" = none := by
      unfold field
      rw [filter_event ev (by decide)]
      simp (disch := decide) only [List.filter_append, filter_textValue_ne, filter_flagValue_ne,
        List.append_nil]
      rfl
    unfold parse marshal
    rw [String.toList_ofList, (reads_event ev).read]
    simp only [hnone, eventOf_eventValues, Option.map_some]

lemma newline_optional : ∀ m ∈ optional key o, '\n' ∉ m.2 := by
  cases o with
  | none => exact List.forall_mem_nil _
  | some value => exact List.forall_mem_singleton.mpr (newline_quote _)

/-- What is written is one line. -/
lemma newline_marshal (data : Data) : '\n' ∉ (marshal data).toList := by
  cases data with
  | chatMeta id =>
    rw [marshal, String.toList_ofList]
    exact newline_object (List.forall_mem_singleton.mpr (newline_decimal id))
  | agentEvent ev =>
    rw [marshal, String.toList_ofList]
    refine newline_object (List.forall_mem_cons.mpr ⟨newline_quote _, ?_⟩)
    simp only [List.forall_mem_append]
    refine ⟨⟨⟨⟨⟨newline_optional, newline_optional⟩, newline_optional⟩, newline_optional⟩,
      newline_optional⟩, ?_⟩
    split_ifs
    · exact List.forall_mem_singleton.mpr (by decide)
    · exact List.forall_mem_nil _

/-! ### The answer -/

/-- What is written while the agent runs. -/
def running (a : Agent) (env : Env) (s : Served) : List (Handler × Data) :=
  (.onMeta, .chatMeta s.convID) ::
    (Reload.eventsOf a env s).map fun ev => (.onEvent, .agentEvent (.received ev))

/-- What is written when the run is over; a client that has gone is told that it was cancelled. -/
def closing (s : Served) (cancelled : Bool) : List (Handler × Data) :=
  (if cancelled then [(.onEvent, .agentEvent { type := .cancelled })] else []) ++
    [(.onEnd, .chatMeta s.convID)]

def bytes (frames : List (Handler × Data)) : List UInt8 := encode (sent marshal) frames

/-! ### The page -/

/-- What the handlers that `send` gives do with a frame. -/
def heed : Handler × Data → List Drawer.Step
  | (.onMeta, .chatMeta id) => [.onMeta id]
  | (.onEvent, .agentEvent ev) => [.onEvent ev]
  | _ => []

/-- The handlers do not throw. -/
def quiet : Handler → Data → Option String := fun _ _ => none

def heard (values : List (List UInt8)) : List Drawer.Step :=
  (handled (streamChat parse quiet values)).flatMap heed

/-- A turn whose answer comes in these chunks, and what else happens to a page. -/
inductive Move where
  | turn (env : Env) (message : String) (cancelled : Bool) (values : List (List UInt8))
      (outcome : Drawer.Outcome)
  | clearChat (deleted : Bool)
  | reload
  | elsewhere (x : Conversations.Step)

def step (a : Agent) (weekID : ℤ) (p : Reload.Page) : Move → Reload.Page
  | .turn env message _ values outcome =>
    ⟨p.server.step a (.chat env (Reload.request p.main message)),
      Drawer.run p.main (.send message :: (heard values ++ [.finish outcome]))⟩
  | .clearChat deleted => Reload.clearChat weekID p deleted
  | .reload => ⟨p.server, Reload.load weekID p.server.db⟩
  | .elsewhere x => ⟨p.server.step a x, p.main⟩

def browse (a : Agent) (weekID : ℤ) (steps : List Conversations.Step) (moves : List Move) :
    Reload.Page :=
  moves.foldl (step a weekID) (Reload.opened weekID (runSteps a Conversations.start steps))

/-- The chunks are what has come of the answer. A request that is refused has no stream, and who has
gone reads nothing that is written to tell them so. -/
def Comes (a : Agent) (p : Reload.Page) : Move → Prop
  | .turn env message cancelled values _ => match Reload.answerTo a p env message with
    | .ok s => values.flatten <+:
      bytes (running a env s ++ if cancelled then [] else closing s false)
    | .error _ => values = []
  | _ => True

def AllCome (a : Agent) (weekID : ℤ) : Reload.Page → List Move → Prop
  | _, [] => True
  | p, x :: xs => Comes a p x ∧ AllCome a weekID (step a weekID p x) xs

/-- The move in terms of the frames that are read. -/
def Move.inFrames : Move → Reload.Move
  | .turn env message _ values outcome => .turn env message (heard values).length outcome
  | .clearChat deleted => .clearChat deleted
  | .reload => .reload
  | .elsewhere x => .elsewhere x

/-! ### A stream is read as its first frames -/

variable {a : Agent} {env : Env} {s : Served} {p : Reload.Page} {values : List (List UInt8)}

lemma heard_start {frames : List (Handler × Data)} (hpre : values.flatten <+: bytes frames) :
    heard values <+: frames.flatMap heed ∧
      (values.flatten = bytes frames → heard values = frames.flatMap heed) := by
  obtain ⟨k, hhandled, hall⟩ := handled_prefix newline_marshal parse_marshal quiet frames hpre
  unfold heard
  rw [hhandled]
  refine ⟨?_, fun h => by rw [hall h, List.take_length]⟩
  conv_rhs => rw [← List.take_append_drop k frames, List.flatMap_append]
  exact List.prefix_append _ _

/-- Nothing is done at the end of the stream. -/
lemma heed_answer : (running a env s ++ closing s false).flatMap heed =
    Reload.frames a env (.ok s) := by
  have hevents (es : List Event) : (es.map fun ev => ((.onEvent, .agentEvent (.received ev)) :
      Handler × Data)).flatMap heed = es.map fun ev => .onEvent (.received ev) := by
    induction es with
    | nil => rfl
    | cons ev es ih => exact congrArg (_ :: ·) ih
  have hclosing : (closing s false).flatMap heed = [] := rfl
  rw [List.flatMap_append, hclosing, List.append_nil]
  exact congrArg (_ :: ·) (hevents _)

/-- What comes is of the answer that was accepted, or nothing. -/
lemma Comes.prefix {message : String} {cancelled : Bool} {outcome : Drawer.Outcome}
    (h : Comes a p (.turn env message cancelled values outcome)) :
    heard values <+: Reload.frames a env (Reload.answerTo a p env message) := by
  unfold Comes at h
  rcases hans : Reload.answerTo a p env message with e | s <;> simp only [hans] at h
  · rw [h]
    exact List.prefix_rfl
  · have hwhole : values.flatten <+: bytes (running a env s ++ closing s false) := by
      cases cancelled with
      | false => exact h
      | true =>
        rw [if_pos rfl, List.append_nil] at h
        refine h.trans ?_
        unfold bytes
        rw [encode_append]
        exact List.prefix_append _ _
    rw [← heed_answer]
    exact (heard_start hwhole).1

lemma step_inFrames (weekID : ℤ) {x : Move} (h : Comes a p x) :
    step a weekID p x = Reload.Page.step a weekID p x.inFrames := by
  cases x with
  | turn env message cancelled values outcome =>
    have htake := List.prefix_iff_eq_take.mp h.prefix
    simp only [step, Reload.Page.step, Move.inFrames]
    rw [← htake]
  | clearChat deleted => rfl
  | reload => rfl
  | elsewhere x => rfl

/-- **The page that reads bytes is the page that reads events**: in any use of a plan's page,
wherever the answers are cut into chunks and wherever they break off, it does the same as if it had
been given, of each answer, some number of the agent's own events. -/
theorem browse_inFrames (a : Agent) (weekID : ℤ) (steps : List Conversations.Step)
    (moves : List Move)
    (hcome : AllCome a weekID (Reload.opened weekID (runSteps a Conversations.start steps)) moves) :
    browse a weekID steps moves = Reload.browse a weekID steps (moves.map Move.inFrames) := by
  unfold browse Reload.browse
  generalize Reload.opened weekID (runSteps a Conversations.start steps) = p at *
  induction moves generalizing p with
  | nil => rfl
  | cons x moves ih =>
    obtain ⟨hx, hmoves⟩ := hcome
    rw [List.map_cons, List.foldl_cons, List.foldl_cons, ← step_inFrames weekID hx]
    exact ih _ hmoves

/-! ### A whole turn -/

lemma view_read {m : Main} (hidle : m.busy = false) (message : String) (convID : ℤ)
    (es : List Event) :
    (Drawer.run m (.send message :: (Reload.streamOf convID es ++ [.finish .done]))).view =
      (es.map AgentEvent.received).foldl applyAgentEvent (m.view.act (.user message)) := by
  obtain ⟨hview, -, -, hst⟩ := Reload.onMeta_send hidle message convID
  rw [Reload.run_read, ← hview]
  obtain ⟨acts, hacts⟩ := Reload.run_events hst es
  rw [hacts]
  unfold finish
  simp only [hst]

/-- The card of a call as the page has it: without a result while none has come, and when the result
that has come is empty. -/
def receivedCard (block : Llm.ContentBlock) (answer : Except String String) : ChatEntry :=
  cardOf AgentEvent.present block answer

/-- **What the agent does is what the page shows**: a turn whose answer is read to its end leaves
what was shown and adds the message, an entry for the texts between two calls, a card with its own
result for each call, and the error if there is one, whatever the model and the tools have answered
and wherever the answer was cut into chunks. A card whose result is empty stays without one. -/
theorem shows_whole_turn (a : Agent) (env : Env) (weekID : ℤ) (p : Reload.Page) (message : String)
    (s : Served) (values : List (List UInt8)) (hidle : p.main.busy = false)
    (hall : values.flatten = bytes (running a env s ++ closing s false)) :
    ∃ ps last, Reload.eventsOf a env s = emits ps last ∧ ("" ∉ ids ps →
      (step a weekID p (.turn env message false values .done)).main.view.entries =
        p.main.view.entries ++
          .user message :: (shown receivedCard "" ps ++ last.entries)) := by
  obtain ⟨ps, last, hevents⟩ := run_emits a (runCtx s.req s.convID) s.history s.req.message env.ans
  refine ⟨ps, last, hevents, fun hid => ?_⟩
  have hheard : heard values = Reload.streamOf s.convID (emits ps last) := by
    rw [(heard_start (hall ▸ List.prefix_rfl)).2 hall, heed_answer, ← hevents]
    rfl
  have hview := view_read hidle message s.convID (emits ps last)
  rw [← hheard] at hview
  have hfold := fold_emits (p.main.view.entries ++ [.user message]) (fun _ => none) present_getD hid
    last
  calc (step a weekID p (.turn env message false values .done)).main.view.entries
      = (((emits ps last).map AgentEvent.received).foldl applyAgentEvent
          (p.main.view.act (.user message))).entries := congrArg View.entries hview
    _ = p.main.view.entries ++ [ChatEntry.user message] ++ shown receivedCard "" ps ++
          last.entries := hfold
    _ = p.main.view.entries ++ .user message :: (shown receivedCard "" ps ++ last.entries) := by
        simp

/-! ### A turn that is broken off -/

/-- A plan's page that has just been opened. -/
def newPage : Reload.Page := Reload.opened 1 (runSteps agent Conversations.start [.addWeek 1])

def hello : Env := OnePlan.env 10

/-- The first turn on it. -/
def firstTurn : Served :=
  ⟨Reload.request newPage.main "Glutenfritt, tack", 1, some 1, [], [1]⟩

def answer : List UInt8 := bytes (running agent hello firstTurn ++ closing firstTurn false)

/-- The answer is cut twice and breaks off before its end. -/
def brokenOff : List Move :=
  [.turn hello "Glutenfritt, tack" false [answer.take 75, (answer.drop 75).take 60] .aborted,
    .reload]

theorem browse_inFrames_brokenOff :
    browse agent 1 [.addWeek 1] brokenOff =
      Reload.browse agent 1 [.addWeek 1] (brokenOff.map Move.inFrames) := by
  refine browse_inFrames agent 1 [.addWeek 1] brokenOff ⟨?_, trivial, trivial⟩
  have hserved : Reload.answerTo agent newPage hello "Glutenfritt, tack" = .ok firstTurn := rfl
  have hpre : [answer.take 75, (answer.drop 75).take 60].flatten <+: answer := by
    refine ⟨(answer.drop 75).drop 60, ?_⟩
    rw [List.flatten_cons, List.flatten_singleton, List.append_assoc, List.take_append_drop,
      List.take_append_drop]
  show Comes agent newPage _
  unfold Comes
  simp only [hserved]
  exact hpre

theorem shows_whole_turn_cut :
    ∃ ps last, Reload.eventsOf agent hello firstTurn = emits ps last ∧ ("" ∉ ids ps →
      (step agent 1 newPage (.turn hello "Glutenfritt, tack" false [answer.take 75,
        answer.drop 75] .done)).main.view.entries =
          newPage.main.view.entries ++
            .user "Glutenfritt, tack" :: (shown receivedCard "" ps ++ last.entries)) :=
  shows_whole_turn agent hello 1 newPage "Glutenfritt, tack" firstTurn
    [answer.take 75, answer.drop 75]
    rfl (by rw [List.flatten_cons, List.flatten_singleton, List.take_append_drop, answer])

end Veckomenyn.Wire
