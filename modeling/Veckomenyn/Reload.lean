import Mathlib.Data.List.Forall2
import Mathlib.Data.List.ModifyLast
import Veckomenyn.Switched
import Veckomenyn.Transcript

/-!
A plan's chat before and after the page is loaded anew.

While it is open, the drawer shows the messages it sent and as much of their answers as it read. A
page that is loaded anew shows what the server saved. Turn by turn, both show the same messages, and
the drawer shows no other answers than those that were saved.
-/

namespace Veckomenyn.Reload

open Rows Llm AgentRun Conversations OnePlan Transcript Drawer

/-! ### The turns among the entries -/

/-- A message of the user and the texts that answer it. -/
abbrev Turn := String × String

/-- The last turn is answered some more. -/
def addText (ts : List Turn) (text : String) : List Turn :=
  ts.modifyLast fun p => (p.1, p.2 ++ text)

def hear (ts : List Turn) : ChatEntry → List Turn
  | .user text => ts ++ [(text, "")]
  | .assistant text => addText ts text
  | _ => ts

/-- Each message of the user with the texts up to the next. -/
def turns (entries : List ChatEntry) : List Turn := entries.foldl hear []

/-- An entry of neither the user nor the assistant. -/
def Silent : ChatEntry → Prop
  | .user _ => False
  | .assistant _ => False
  | _ => True

lemma addText_snoc (ts : List Turn) (m text s : String) :
    addText (ts ++ [(m, text)]) s = ts ++ [(m, text ++ s)] :=
  List.modifyLast_concat ..

lemma addText_add (ts : List Turn) (s s' : String) :
    addText (addText ts s) s' = addText ts (s ++ s') := by
  rcases List.eq_nil_or_concat ts with rfl | ⟨ts, ⟨m, text⟩, rfl⟩
  · rfl
  · rw [List.concat_eq_append, addText_snoc, addText_snoc, addText_snoc, String.append_assoc]

lemma addText_empty (ts : List Turn) : addText ts "" = ts := by
  rcases List.eq_nil_or_concat ts with rfl | ⟨ts, ⟨m, text⟩, rfl⟩
  · rfl
  · rw [List.concat_eq_append, addText_snoc, String.append_empty]

lemma turns_append (es fs : List ChatEntry) : turns (es ++ fs) = fs.foldl hear (turns es) :=
  List.foldl_append

lemma hear_silent (ts : List Turn) {e : ChatEntry} (h : Silent e) : hear ts e = ts := by
  cases e with
  | user text => exact h.elim
  | assistant text => exact h.elim
  | tool name input result isError => rfl
  | error text => rfl
  | cancelled => rfl

lemma foldl_silent (ts : List Turn) {es : List ChatEntry} (h : ∀ e ∈ es, Silent e) :
    es.foldl hear ts = ts := by
  induction es generalizing ts with
  | nil => rfl
  | cons e es ih =>
    rw [List.foldl_cons, hear_silent ts (h e List.mem_cons_self)]
    exact ih ts fun x hx => h x (List.mem_cons_of_mem e hx)

lemma turns_snoc_silent (es : List ChatEntry) {e : ChatEntry} (h : Silent e) :
    turns (es ++ [e]) = turns es := by
  rw [turns_append]
  exact hear_silent _ h

/-! ### What events do to the turns -/

/-- The entry that takes text is the last one of the assistant, and no message came after it. -/
def Speaking (v : View) : Prop :=
  ∀ idx, v.assistantIndex = some idx → (∃ text, v.entries[idx]? = some (.assistant text)) ∧
    ∀ e ∈ v.entries.drop (idx + 1), Silent e

variable {v : View}

lemma Speaking.snoc (h : Speaking v) {e : ChatEntry} (he : Silent e) :
    Speaking { v with entries := v.entries ++ [e] } := by
  intro idx hidx
  obtain ⟨⟨text, htext⟩, hrest⟩ := h idx hidx
  have hlt : idx < v.entries.length := (List.getElem?_eq_some_iff.mp htext).1
  refine ⟨⟨text, by rw [List.getElem?_append_left hlt, htext]⟩, fun x hx => ?_⟩
  rw [List.drop_append_of_le_length hlt] at hx
  rcases List.mem_append.mp hx with hx | hx
  · exact hrest x hx
  · rw [List.mem_singleton.mp hx]
    exact he

lemma set_split {α : Type} {l : List α} {i : ℕ} {x : α} (h : l[i]? = some x) (y : α) :
    l = l.take i ++ x :: l.drop (i + 1) ∧ l.set i y = l.take i ++ y :: l.drop (i + 1) := by
  obtain ⟨hlt, rfl⟩ := List.getElem?_eq_some_iff.mp h
  exact ⟨by simp, List.set_eq_take_append_cons_drop .. |>.trans (if_pos hlt)⟩

/-- A silent entry in the place of a silent one. -/
lemma turns_set {es : List ChatEntry} {i : ℕ} {e e' : ChatEntry} (h : es[i]? = some e)
    (he : Silent e) (he' : Silent e') : turns (es.set i e') = turns es := by
  obtain ⟨hes, hset⟩ := set_split h e'
  rw [hset, turns_append]
  conv_rhs => rw [hes, turns_append]
  rw [List.foldl_cons, List.foldl_cons, hear_silent _ he, hear_silent _ he']

/-- Text that is added to the entry that takes it. -/
lemma turns_speak {es : List ChatEntry} {i : ℕ} {text : String} (s : String)
    (h : es[i]? = some (.assistant text)) (hrest : ∀ e ∈ es.drop (i + 1), Silent e) :
    turns (es.set i (.assistant (text ++ s))) = addText (turns es) s := by
  obtain ⟨hes, hset⟩ := set_split h (.assistant (text ++ s))
  rw [hset, turns_append]
  conv_rhs => rw [hes, turns_append]
  rw [List.foldl_cons, List.foldl_cons, foldl_silent _ hrest, foldl_silent _ hrest]
  exact (addText_add _ text s).symm

lemma Speaking.set (h : Speaking v) {i : ℕ} {e e' : ChatEntry} (hi : v.entries[i]? = some e)
    (he : Silent e) (he' : Silent e') : Speaking { v with entries := v.entries.set i e' } := by
  intro idx hidx
  obtain ⟨⟨text, htext⟩, hrest⟩ := h idx hidx
  have hne : i ≠ idx := by
    rintro rfl
    rw [hi] at htext
    cases htext
    exact he
  refine ⟨⟨text, by rw [List.getElem?_set_ne hne, htext]⟩, fun x hx => ?_⟩
  rw [List.drop_set] at hx
  split_ifs at hx
  · exact hrest x hx
  · rcases List.mem_or_eq_of_mem_set hx with hx | rfl
    · exact hrest x hx
    · exact he'

lemma Speaking.more (h : Speaking v) {idx : ℕ} {text : String} (s : String)
    (hidx : v.assistantIndex = some idx) (htext : v.entries[idx]? = some (.assistant text)) :
    Speaking { v with entries := v.entries.set idx (.assistant (text ++ s)) } := by
  intro j hj
  obtain rfl : idx = j := Option.some.inj (hidx.symm.trans hj)
  have hlt : idx < v.entries.length := (List.getElem?_eq_some_iff.mp htext).1
  refine ⟨⟨text ++ s, List.getElem?_set_self hlt⟩, ?_⟩
  rw [List.drop_set_of_lt (Nat.lt_succ_self idx)]
  exact (h idx hidx).2

lemma speaking_new (es : List ChatEntry) (text : String) (tools : String → Option ℕ) :
    Speaking ⟨es ++ [.assistant text], some es.length, tools⟩ := by
  intro idx hidx
  cases hidx
  exact ⟨⟨text, by simp⟩, by simp⟩

/-- An event's text, if it is one of text. -/
def textOf (ev : AgentEvent) : String := if ev.type = .text then ev.text else ""

/-- **An event adds its text to the last turn** and nothing else to any. -/
lemma turns_event (h : Speaking v) (ev : AgentEvent) :
    turns (applyAgentEvent v ev).entries = addText (turns v.entries) (textOf ev) ∧
      Speaking (applyAgentEvent v ev) := by
  have hquiet {es : List ChatEntry} (hes : turns es = turns v.entries) :
      turns es = addText (turns v.entries) "" := hes.trans (addText_empty _).symm
  unfold applyAgentEvent textOf
  cases ev.type with
  | text =>
    rw [if_pos rfl]
    simp only
    split_ifs with hempty
    · rw [hempty]
      exact ⟨hquiet rfl, h⟩
    · split
      · next idx text hfound =>
        obtain ⟨i, hidx, hfound⟩ := Option.bind_eq_some_iff.mp hfound
        obtain ⟨e, htext, heq⟩ := Option.map_eq_some_iff.mp hfound
        cases heq
        exact ⟨turns_speak _ htext (h _ hidx).2, h.more _ hidx htext⟩
      · exact ⟨by rw [turns_append]; rfl, speaking_new _ _ _⟩
  | toolCallStarted => exact ⟨hquiet rfl, h⟩
  | toolCall =>
    refine ⟨hquiet (turns_snoc_silent _ trivial), fun idx hidx => ?_⟩
    cases hidx
  | toolResult =>
    simp only [reduceCtorEq, if_false]
    split_ifs
    · exact ⟨hquiet rfl, h⟩
    · split
      · next idx name input result isError hfound =>
        obtain ⟨i, hidx, hfound⟩ := Option.bind_eq_some_iff.mp hfound
        obtain ⟨e, htool, heq⟩ := Option.map_eq_some_iff.mp hfound
        cases heq
        exact ⟨hquiet (turns_set htool trivial trivial), h.set htool trivial trivial⟩
      · exact ⟨hquiet rfl, h⟩
  | error => exact ⟨hquiet (turns_snoc_silent _ trivial), h.snoc trivial⟩
  | cancelled => exact ⟨hquiet (turns_snoc_silent _ trivial), h.snoc trivial⟩
  | done => exact ⟨hquiet rfl, h⟩

lemma assistantText_cons (ev : Event) (es : List Event) :
    assistantText (ev :: es) = textOf (.received ev) ++ assistantText es := by
  rw [show textOf (.received ev) = if ev.type = .text then ev.text else "" from rfl]
  unfold assistantText
  by_cases h : ev.type = .text
  · rw [List.filter_cons_of_pos (by simpa using h), if_pos h, List.map_cons, String.join_cons]
  · rw [List.filter_cons_of_neg (by simpa using h), if_neg h, String.empty_append]

lemma assistantText_append (es fs : List Event) :
    assistantText (es ++ fs) = assistantText es ++ assistantText fs := by
  induction es with
  | nil => exact (String.empty_append).symm
  | cons ev es ih =>
    rw [List.cons_append, assistantText_cons, assistantText_cons, ih, String.append_assoc]

/-- Events add their texts to the last turn. -/
lemma turns_events (h : Speaking v) (es : List Event) :
    turns ((es.map AgentEvent.received).foldl applyAgentEvent v).entries =
      addText (turns v.entries) (assistantText es) := by
  induction es generalizing v with
  | nil => exact (addText_empty _).symm
  | cons ev es ih =>
    obtain ⟨hturns, hspeaking⟩ := turns_event h (.received ev)
    rw [List.map_cons, List.foldl_cons, ih hspeaking, hturns, addText_add, assistantText_cons]

/-! ### A page of a plan -/

/-- A line as the drawer is given it. -/
def stored (l : Line) : Stored := ⟨l.role = .user, l.text⟩

/-- The page of a plan, loaded. -/
def load (weekID : ℤ) (d : ChatDb) : Main :=
  Drawer.run Drawer.start [.switch (some weekID),
    .loaded ((handleGetWeekConversation d weekID).map fun r => (r.1.id, r.2.map stored))]

structure Page where
  server : State
  main : Main

/-- The request that a message is sent with. -/
def request (m : Main) (message : String) : ChatRequest :=
  ⟨m.conversationID.map Drawer.Conversation.id, m.week, message⟩

/-- The events of a turn. -/
def eventsOf (a : Agent) (env : Env) (s : Served) : List Event :=
  ((AgentRun.run a (runCtx s.req s.convID) s.history s.req.message).run env.ans ⟨[], []⟩).2.mem

/-- What the page is told: the conversation, then the events. -/
def streamOf (convID : ℤ) (es : List Event) : List Drawer.Step :=
  .onMeta convID :: es.map fun ev => .onEvent (.received ev)

/-- What is answered to a message. -/
def frames (a : Agent) (env : Env) : Except ChatError Served → List Drawer.Step
  | .ok s => streamOf s.convID (eventsOf a env s)
  | .error _ => []

/-- A turn whose answer is read up to `read` frames, the chat that is cleared, the page that is
loaded anew, and what else the server is asked. -/
inductive Move where
  | turn (env : Env) (message : String) (read : ℕ) (outcome : Drawer.Outcome)
  | clearChat (deleted : Bool)
  | reload
  | elsewhere (x : Conversations.Step)

def answerTo (a : Agent) (p : Page) (env : Env) (message : String) : Except ChatError Served :=
  (handleChat a env (request p.main message) p.server.db).1

/-- The entries go, whether or not the server has deleted the conversation. -/
def clearChat (weekID : ℤ) (p : Page) (deleted : Bool) : Page where
  server := if deleted then { p.server with
    db := Conversations.deleteWeekConversations p.server.db weekID } else p.server
  main := { p.main with view := { p.main.view with entries := [] }, conversationID := none }

def Page.step (a : Agent) (weekID : ℤ) (p : Page) : Move → Page
  | .turn env message read outcome =>
    ⟨p.server.step a (.chat env (request p.main message)),
      Drawer.run p.main (.send message ::
        ((frames a env (answerTo a p env message)).take read ++ [.finish outcome]))⟩
  | .clearChat deleted => clearChat weekID p deleted
  | .reload => ⟨p.server, load weekID p.server.db⟩
  | .elsewhere x => ⟨p.server.step a x, p.main⟩

def opened (weekID : ℤ) (server : State) : Page := ⟨server, load weekID server.db⟩

/-- The page of a plan is opened some time, and used. -/
def browse (a : Agent) (weekID : ℤ) (steps : List Conversations.Step) (moves : List Move) : Page :=
  moves.foldl (Page.step a weekID) (opened weekID (runSteps a Conversations.start steps))

/-! ### What is claimed of a page -/

/-- What the server does for others concerns no chat of the plan. -/
def Apart (weekID : ℤ) : Conversations.Step → Prop
  | .chat _ req => req.weekID ≠ some weekID
  | .addWeek _ => True
  | .deleteWeek _ w => w ≠ weekID
  | .deleteWeekConversations w => w ≠ weekID

/-- The messages of the page's turns are saved, and clearing the chat succeeds. -/
def Smooth (weekID T : ℤ) (p : Page) : Move → Prop
  | .turn env _ _ _ => (env.userSaved = true ∧ env.assistantSaved = true) ∧
    T ≤ env.userAt ∧ env.userAt ≤ env.assistantAt
  | .clearChat deleted => deleted = true
  | .reload => True
  | .elsewhere x => StepFits p.server.db x ∧ Clocked T [x] ∧ Apart weekID x

def lastMove (T : ℤ) : Move → ℤ
  | .turn env _ _ _ => env.assistantAt
  | .elsewhere x => last T x
  | _ => T

def AllSmooth (a : Agent) (weekID : ℤ) : ℤ → Page → List Move → Prop
  | _, _, [] => True
  | T, p, x :: xs => Smooth weekID T p x ∧
    AllSmooth a weekID (lastMove T x) (p.step a weekID x) xs

/-- A turn is accepted, and its answer is read to its end. -/
def Whole (a : Agent) (p : Page) : Move → Prop
  | .turn env message read _ => (∃ s, answerTo a p env message = .ok s) ∧
    (frames a env (answerTo a p env message)).length ≤ read
  | _ => True

def AllWhole (a : Agent) (weekID : ℤ) : Page → List Move → Prop
  | _, [] => True
  | p, x :: xs => Whole a p x ∧ AllWhole a weekID (p.step a weekID x) xs

/-- The turn is shown with its own message and with the beginning of its answer. -/
def Begun (saved shown : Turn) : Prop := saved.1 = shown.1 ∧ ∃ rest, saved.2 = shown.2 ++ rest

/-! ### A turn in the drawer -/

variable {a : Agent} {m : Main}

lemma run_append (m : Main) (xs ys : List Drawer.Step) :
    Drawer.run m (xs ++ ys) = Drawer.run (Drawer.run m xs) ys := List.foldl_append

/-- While it is read, an answer's events go to the entries. -/
lemma run_events {st : Stream} (hst : m.stream = some st) (es : List Event) :
    ∃ acts, Drawer.run m (es.map fun ev => .onEvent (.received ev)) =
      { m with
        view := (es.map AgentEvent.received).foldl applyAgentEvent m.view
        acts := acts } := by
  induction es generalizing m with
  | nil => exact ⟨m.acts, rfl⟩
  | cons ev es ih =>
    have hstep : Drawer.step m (.onEvent (.received ev)) = answer m st (.event (.received ev)) := by
      simp only [Drawer.step, Drawer.onEvent, hst]
    obtain ⟨acts, hacts⟩ := ih (m := answer m st (.event (.received ev))) hst
    refine ⟨acts, ?_⟩
    rw [List.map_cons, Drawer.run, List.foldl_cons, hstep]
    exact hacts

/-- The drawer has one turn more, and knows this conversation. -/
structure Added (m m' : Main) (t : Turn) (c : Option Drawer.Conversation) : Prop where
  turns : turns m'.view.entries = turns m.view.entries ++ [t]
  busy : m'.busy = false
  week : m'.week = m.week
  conversation : m'.conversationID = c

/-- What ends a turn is no text. -/
lemma finish_added {m₀ : Main} {t : Turn} {st : Stream} (hst : m.stream = some st)
    (hturns : turns m.view.entries = turns m₀.view.entries ++ [t]) (hweek : m.week = m₀.week)
    (outcome : Drawer.Outcome) : Added m₀ (finish m outcome) t m.conversationID := by
  unfold finish
  rw [hst]
  cases outcome with
  | done => exact ⟨hturns, rfl, hweek, rfl⟩
  | aborted => exact ⟨(turns_snoc_silent _ (e := .cancelled) trivial).trans hturns, rfl, hweek, rfl⟩
  | failed s => exact ⟨(turns_snoc_silent _ (e := .error s) trivial).trans hturns, rfl, hweek, rfl⟩

lemma send_eq (hidle : m.busy = false) (message : String) :
    send m message = { m with
      view := m.view.act (.user message)
      busy := true
      stream := some ⟨m.conversationID, m.week, true⟩
      acts := m.acts ++ [.user message]
      sends := m.sends ++ [(m.week, m.conversationID)] } := by
  unfold send
  rw [hidle]
  rfl

lemma turns_sent (v : View) (message : String) :
    turns (v.act (.user message)).entries = turns v.entries ++ [(message, "")] := turns_append ..

/-- A turn of which nothing is read. -/
lemma added_unread (hidle : m.busy = false) (message : String) (outcome : Drawer.Outcome) :
    Added m (Drawer.run m [.send message, .finish outcome]) (message, "") m.conversationID := by
  have hrun : Drawer.run m [.send message, .finish outcome] = finish (send m message) outcome := rfl
  rw [hrun, send_eq hidle]
  exact finish_added (m := { m with
    view := m.view.act (.user message)
    busy := true
    stream := some ⟨m.conversationID, m.week, true⟩
    acts := m.acts ++ [.user message]
    sends := m.sends ++ [(m.week, m.conversationID)] }) rfl (turns_sent m.view message) rfl outcome

/-- A message is sent, and its conversation is told. -/
lemma onMeta_send (hidle : m.busy = false) (message : String) (convID : ℤ) :
    (onMeta (send m message) convID).view = m.view.act (.user message) ∧
      (onMeta (send m message) convID).week = m.week ∧
      (onMeta (send m message) convID).conversationID =
        some (m.conversationID.getD ⟨convID, m.week⟩) ∧
      (onMeta (send m message) convID).stream = some ⟨m.conversationID, m.week, true⟩ := by
  rw [send_eq hidle]
  rcases hc : m.conversationID with _ | c
  · exact ⟨rfl, rfl, rfl, rfl⟩
  · exact ⟨rfl, rfl, rfl, rfl⟩

lemma run_read (message : String) (convID : ℤ) (es : List Event) (outcome : Drawer.Outcome) :
    Drawer.run m (.send message :: (streamOf convID es ++ [.finish outcome])) =
      finish (Drawer.run (onMeta (send m message) convID)
        (es.map fun ev => .onEvent (.received ev))) outcome := by
  rw [streamOf, ← List.cons_append, run_append]
  rfl

/-- A turn of which the conversation and some events are read. -/
lemma added_read (hidle : m.busy = false) (message : String) (convID : ℤ) (es : List Event)
    (outcome : Drawer.Outcome) :
    Added m (Drawer.run m (.send message :: (streamOf convID es ++ [.finish outcome])))
      (message, assistantText es) (some (m.conversationID.getD ⟨convID, m.week⟩)) := by
  obtain ⟨hview, hweek, hconv, hst⟩ := onMeta_send hidle message convID
  rw [run_read]
  generalize onMeta (send m message) convID = m₁ at *
  have hspeaking : Speaking m₁.view := by
    rw [hview]
    intro idx hidx
    cases hidx
  obtain ⟨acts, hacts⟩ := run_events hst es
  rw [hacts, ← hconv]
  refine finish_added (m := { m₁ with
    view := (es.map AgentEvent.received).foldl applyAgentEvent m₁.view
    acts := acts }) hst ?_ hweek outcome
  calc turns ((es.map AgentEvent.received).foldl applyAgentEvent m₁.view).entries
      = addText (turns m₁.view.entries) (assistantText es) := turns_events hspeaking es
    _ = addText (turns m.view.entries ++ [(message, "")]) (assistantText es) := by
        rw [hview, turns_sent]
    _ = turns m.view.entries ++ [(message, assistantText es)] := by
        rw [addText_snoc, String.empty_append]

/-! ### A turn among the lines -/

section Sublist

variable {α β : Type} {R : α → β → Prop} {l₁ : List α} {l₂ : List β}

lemma sublistForall₂_skip (h : List.SublistForall₂ R l₁ l₂) (l : List β) :
    List.SublistForall₂ R l₁ (l₂ ++ l) := by
  obtain ⟨l', hl', hsub⟩ := List.sublistForall₂_iff.mp h
  exact List.sublistForall₂_iff.mpr ⟨l', hl', hsub.trans (List.sublist_append_left _ _)⟩

lemma sublistForall₂_snoc (h : List.SublistForall₂ R l₁ l₂) {x : α} {y : β} (hxy : R x y) :
    List.SublistForall₂ R (l₁ ++ [x]) (l₂ ++ [y]) := by
  obtain ⟨l', hl', hsub⟩ := List.sublistForall₂_iff.mp h
  refine List.sublistForall₂_iff.mpr ⟨l' ++ [y], ?_, hsub.append (List.Sublist.refl _)⟩
  exact List.rel_append hl' (List.Forall₂.cons hxy List.Forall₂.nil)

end Sublist

/-- The turns that a loaded page shows of these lines. -/
def turnsOf (lines : List Line) : List Turn := turns (lines.map fun l => entryOf (stored l))

lemma turnsOf_turn (lines : List Line) (message text : String) :
    turnsOf (lines ++ ([⟨.user, message⟩] ++ if text ≠ "" then [⟨.assistant, text⟩] else [])) =
      turnsOf lines ++ [(message, text)] := by
  unfold turnsOf
  rw [List.map_append, turns_append]
  split_ifs with h
  · exact addText_snoc _ message "" text |>.trans (by rw [String.empty_append])
  · rw [not_not] at h
    rw [h]
    rfl

lemma begun_refl (t : Turn) : Begun t t := ⟨rfl, "", (String.append_empty).symm⟩

lemma begun_read (message : String) (es : List Event) (n : ℕ) :
    Begun (message, assistantText es) (message, assistantText (es.take n)) := by
  refine ⟨rfl, assistantText (es.drop n), ?_⟩
  rw [← assistantText_append, List.take_append_drop]

/-- A turn whose answer is read up to some frame. -/
lemma added_answer (hidle : m.busy = false) (message : String) (n : ℕ)
    (outcome : Drawer.Outcome) (convID : ℤ) (es : List Event) :
    ∃ text c, Added m (Drawer.run m (.send message ::
        ((streamOf convID es).take n ++ [.finish outcome]))) (message, text) c ∧
      Begun (message, assistantText es) (message, text) ∧
      (∀ x ∈ c, x ∈ m.conversationID ∨ x.id = convID) ∧
      (es.length + 1 ≤ n → text = assistantText es) := by
  cases n with
  | zero =>
    exact ⟨"", m.conversationID, added_unread hidle message outcome, begun_read message es 0,
      fun x hx => Or.inl hx, by omega⟩
  | succ n =>
    rw [streamOf, List.take_succ_cons, ← List.map_take]
    refine ⟨_, _, added_read hidle message convID (es.take n) outcome, begun_read message es n,
      fun x hx => ?_, fun hn => by rw [List.take_of_length_le (by omega)]⟩
    obtain rfl := Option.mem_some_iff.mp hx
    rcases m.conversationID with _ | c
    · exact Or.inr rfl
    · exact Or.inl rfl

/-! ### Conversations stay with their plans -/

variable {d d' : ChatDb} {w k T : ℤ} {t : Chats}

lemma of_newConversation (h : Of d w k) {now : ℤ} {weekId : Option ℤ} {title : List UInt8}
    {r : Except ChatError ℤ} (he : newConversation d now weekId title = (r, d')) : Of d' w k := by
  unfold newConversation at he
  split at he
  · cases he
    exact h
  · split at he
    · cases he
      exact (of_put_new rfl w k).mpr (Or.inl h)
    · cases he
      exact h

lemma of_ensureConversation (h : Of d w k) {now : ℤ} {req : ChatRequest}
    {r : Except ChatError ℤ}
    (he : ensureConversation d now req.conversationID req.weekID req.message = (r, d')) :
    Of d' w k := by
  unfold ensureConversation at he
  split at he
  · split at he
    · cases he
      exact h
    · next c hc =>
      cases he
      exact (of_touch (Table.find?_eq_some.mp hc).1 w k).mpr h
  · split at he
    · split at he
      · next c hc =>
        cases he
        exact (of_touch (latestConversation_some hc).1 w k).mpr h
      · exact of_newConversation h he
    · exact of_newConversation h he

lemma of_handleChat (h : Of d w k) {env : Env} {req : ChatRequest} {r : Except ChatError Served}
    (he : handleChat a env req d = (r, d')) : Of d' w k := by
  unfold handleChat at he
  split at he
  · cases he
    exact h
  · split at he
    · next hens =>
      cases he
      exact of_ensureConversation h hens
    · next hens =>
      cases he
      unfold Of
      rw [trySave_conversations, trySave_conversations]
      exact of_ensureConversation h hens

lemma of_step {s : State} {x : Conversations.Step} (h : Of s.db w k) (hx : Apart w x) :
    Of (s.step a x).db w k := by
  cases x with
  | chat env req =>
    rcases hchat : handleChat a env req s.db with ⟨e | served, d⟩ <;>
      simpa only [State.step, hchat] using of_handleChat h hchat
  | addWeek w' => exact h
  | deleteWeek now w' => exact (of_deleteWeek _ _ _ _ _).mpr ⟨h, Ne.symm hx⟩
  | deleteWeekConversations w' =>
    exact (of_deleteWeekConversations _ _ _ _).mpr ⟨h, Ne.symm hx⟩

/-- The conversation of an accepted turn of a plan is attached to it. -/
lemma of_served {env : Env} {req : ChatRequest} {s : Served} (hfits : Fits d req)
    (he : handleChat a env req d = (.ok s, d')) (hw : req.weekID = some w) :
    s.req = req ∧ Of d' w s.convID := by
  have hreq : s.req = req := by
    unfold handleChat at he
    split at he
    · cases he
    · split at he <;> cases he
      rfl
  obtain ⟨d₁, -, hgiven, -, -, hconv, -⟩ := ((handleChat_spec hfits he).2 s rfl).middle
  have hof : Of d₁ w s.convID := (of_given hgiven w).mpr (by rw [hreq, hw])
  refine ⟨hreq, ?_⟩
  unfold Of
  rw [hconv]
  exact hof

/-- A step that is apart from a plan leaves its chat. -/
lemma step_apart {x : Conversations.Step} (hx : Apart w x) (convID : Option ℤ) :
    t.step a x convID w = t w := by
  cases x with
  | chat env req =>
    rcases convID with _ | convID
    · rfl
    · rcases hreq : req.weekID with _ | w'
      · simp only [Chats.step, hreq]
      · simp only [Chats.step, hreq]
        refine Function.update_of_ne (fun hw => hx ?_) _ _
        rw [hreq, hw]
  | addWeek w' => cases convID <;> rfl
  | deleteWeek now w' => exact Function.update_of_ne (Ne.symm hx) _ _
  | deleteWeekConversations w' => exact Function.update_of_ne (Ne.symm hx) _ _

/-! ### The invariant -/

/-- The page's plan is shown and idle, its conversation is attached to the plan, and the turns that
are shown are those that are stored, with the beginnings of their answers; `whole` is that every
turn has been accepted and read. -/
structure Inv (weekID T : ℤ) (whole : Prop) (t : Chats) (p : Page) : Prop where
  follows : Follows T t p.server.db
  week : p.main.week = some weekID
  idle : p.main.busy = false
  mine : ∀ c ∈ p.main.conversationID, Of p.server.db weekID c.id
  begun : List.SublistForall₂ Begun (turnsOf (t weekID)) (turns p.main.view.entries)
  same : whole → turnsOf (t weekID) = turns p.main.view.entries

variable {weekID : ℤ} {whole : Prop} {p : Page}

lemma turns_load (weekID : ℤ) (d : ChatDb) :
    turns (load weekID d).view.entries = turnsOf (loaded d weekID) := by
  have hentries : (load weekID d).view.entries =
      (loaded d weekID).map fun l => entryOf (stored l) := by
    rcases h : handleGetWeekConversation d weekID with _ | ⟨c, lines⟩ <;>
      simp [load, Drawer.run, Drawer.step, Drawer.switch, Drawer.loaded, Drawer.start,
        Transcript.loaded, h]
  rw [hentries, turnsOf]

lemma inv_load {s : State} (h : Follows T t s.db) :
    Inv weekID T whole t ⟨s, load weekID s.db⟩ := by
  have hturns : turnsOf (t weekID) = turns (load weekID s.db).view.entries := by
    rw [turns_load, h.loaded]
  refine ⟨h, rfl, rfl, ?_, ?_, fun _ => hturns⟩
  · intro c hc
    rcases hlatest : latestConversation s.db weekID with _ | conv
    · simp [load, Drawer.run, Drawer.step, Drawer.switch, Drawer.loaded, Drawer.start,
        handleGetWeekConversation, hlatest] at hc
    · simp only [load, Drawer.run, Drawer.step, Drawer.switch, Drawer.loaded, Drawer.start,
        handleGetWeekConversation, hlatest, Option.map_some, List.foldl_cons, List.foldl_nil] at hc
      obtain rfl := Option.mem_some_iff.mp hc
      obtain ⟨hmem, hw⟩ := latestConversation_some hlatest
      exact ⟨conv, hmem, rfl, hw⟩
  · rw [hturns]
    exact List.sublistForall₂_iff.mpr ⟨_, List.forall₂_same.mpr fun t _ => begun_refl t,
      List.Sublist.refl _⟩

/-- The request of a page's turn names a conversation of its own plan. -/
lemma Inv.fits (h : Inv weekID T whole t p) (hpos : 0 < weekID) (message : String) :
    Fits p.server.db (request p.main message) := by
  constructor
  · intro w hw
    obtain rfl := Option.some.inj (h.week.symm.trans hw)
    exact hpos
  · intro id hid _ c hfound
    obtain ⟨conv, hconv, rfl⟩ := Option.map_eq_some_iff.mp hid
    obtain ⟨x, hx, hxid, hw⟩ := h.mine conv hconv
    obtain ⟨hc, hcid⟩ := Table.find?_eq_some.mp hfound
    obtain rfl := p.server.db.conversations.key_inj hx hc (hxid.trans hcid.symm)
    exact hw.trans h.week.symm

/-- A turn that is refused is shown and not stored. -/
lemma Inv.refused {env : Env} {message : String} {read : ℕ} {outcome : Drawer.Outcome}
    {e : ChatError} (h : Inv weekID T whole t p) (hT : T ≤ env.assistantAt)
    (he : answerTo a p env message = .error e)
    (hwhole : whole → Whole a p (.turn env message read outcome)) :
    Inv weekID env.assistantAt whole t (p.step a weekID (.turn env message read outcome)) := by
  rcases hchat : handleChat a env (request p.main message) p.server.db with ⟨r, d⟩
  obtain rfl : r = .error e := by rw [← he, answerTo, hchat]
  have hserver : p.server.step a (.chat env (request p.main message)) = ⟨p.server.served, d⟩ := by
    simp only [State.step, hchat]
  have hadded := added_unread h.idle message outcome
  have hstep : p.step a weekID (.turn env message read outcome) = ⟨⟨p.server.served, d⟩,
      Drawer.run p.main [.send message, .finish outcome]⟩ := by
    simp only [Page.step, hserver, he, frames, List.take_nil, List.nil_append]
  rw [hstep]
  refine ⟨(h.follows.refused hchat).mono hT, hadded.week.trans h.week, hadded.busy, ?_, ?_, ?_⟩
  · rw [hadded.conversation]
    exact fun c hc => of_handleChat (h.mine c hc) hchat
  · rw [hadded.turns]
    exact sublistForall₂_skip h.begun _
  · intro hw
    obtain ⟨⟨s, hs⟩, -⟩ := hwhole hw
    rw [he] at hs
    cases hs

/-- A turn that is accepted is shown as far as it was read, and stored. -/
lemma Inv.accepted {env : Env} {message : String} {read : ℕ} {outcome : Drawer.Outcome}
    {s : Served} (h : Inv weekID T whole t p) (hpos : 0 < weekID)
    (hsaved : env.userSaved = true ∧ env.assistantSaved = true) (hT : T ≤ env.userAt)
    (hat : env.userAt ≤ env.assistantAt) (he : answerTo a p env message = .ok s)
    (hwhole : whole → Whole a p (.turn env message read outcome)) :
    Inv weekID env.assistantAt whole
      (t.step a (.chat env (request p.main message)) (some s.convID))
      (p.step a weekID (.turn env message read outcome)) := by
  rcases hchat : handleChat a env (request p.main message) p.server.db with ⟨r, d⟩
  obtain rfl : r = .ok s := by rw [← he, answerTo, hchat]
  have hserver : p.server.step a (.chat env (request p.main message)) =
      ⟨p.server.served ++ [s], d⟩ := by
    simp only [State.step, hchat]
  have hfits := h.fits hpos message
  obtain ⟨hreq, hof⟩ := of_served hfits hchat h.week
  have hlines : t.step a (.chat env (request p.main message)) (some s.convID) weekID = t weekID ++
      ([⟨.user, message⟩] ++ if assistantText (eventsOf a env s) ≠ "" then
        [⟨.assistant, assistantText (eventsOf a env s)⟩] else []) := by
    have hanswered : assistantText (eventsOf a env s) =
        answered a env (runCtx (request p.main message) s.convID) (t weekID) message := by
      rw [eventsOf, h.follows.told hfits hchat h.week, hreq]
      rfl
    have hweek : (request p.main message).weekID = some weekID := h.week
    simp only [Chats.step, hweek, Function.update_self, said, hsaved, hanswered]
    simp only [if_true, Bool.true_and, decide_eq_true_eq]
    rfl
  obtain ⟨text, c, hadded, hbegun, hconv, hread⟩ :=
    added_answer h.idle message read outcome s.convID (eventsOf a env s)
  have hstep : p.step a weekID (.turn env message read outcome) = ⟨⟨p.server.served ++ [s], d⟩,
      Drawer.run p.main (.send message ::
        ((streamOf s.convID (eventsOf a env s)).take read ++ [.finish outcome]))⟩ := by
    simp only [Page.step, hserver, he, frames]
  rw [hstep]
  refine ⟨h.follows.turn hfits hT hat hchat, hadded.week.trans h.week, hadded.busy, ?_, ?_, ?_⟩
  · rw [hadded.conversation]
    intro x hx
    rcases hconv x hx with hx | hx
    · exact of_handleChat (h.mine x hx) hchat
    · rw [hx]
      exact hof
  · rw [hlines, turnsOf_turn, hadded.turns]
    exact sublistForall₂_snoc h.begun hbegun
  · intro hw
    obtain ⟨-, hlen⟩ := hwhole hw
    rw [he, frames, streamOf, List.length_cons, List.length_map] at hlen
    rw [hlines, turnsOf_turn, hadded.turns, h.same hw, hread hlen]

lemma Inv.step {x : Move} (h : Inv weekID T whole t p) (hpos : 0 < weekID)
    (hsmooth : Smooth weekID T p x) (hwhole : whole → Whole a p x) :
    ∃ t', Inv weekID (lastMove T x) whole t' (p.step a weekID x) := by
  cases x with
  | turn env message read outcome =>
    obtain ⟨hsaved, hT, hat⟩ := hsmooth
    rcases hanswer : answerTo a p env message with e | s
    · exact ⟨t, h.refused (hT.trans hat) hanswer hwhole⟩
    · exact ⟨_, h.accepted hpos hsaved hT hat hanswer hwhole⟩
  | clearChat deleted =>
    obtain rfl : deleted = true := hsmooth
    refine ⟨_, h.follows.deleteWeekConversations weekID, h.week, h.idle, ?_, ?_, fun _ => ?_⟩
    · exact fun c hc => by cases hc
    · rw [Function.update_self]
      exact List.SublistForall₂.nil
    · rw [Function.update_self]
      rfl
  | reload => exact ⟨t, inv_load h.follows⟩
  | elsewhere x =>
    obtain ⟨hfits, hclock, hapart⟩ := hsmooth
    refine ⟨_, h.follows.step hfits hclock, h.week, h.idle,
      fun c hc => of_step (h.mine c hc) hapart, ?_, ?_⟩ <;>
      rw [step_apart hapart]
    · exact h.begun
    · exact h.same

lemma Inv.run {moves : List Move} (h : Inv weekID T whole t p) (hpos : 0 < weekID)
    (hsmooth : AllSmooth a weekID T p moves) (hwhole : whole → AllWhole a weekID p moves) :
    ∃ T' t', Inv weekID T' whole t' (moves.foldl (Page.step a weekID) p) := by
  induction moves generalizing T t p with
  | nil => exact ⟨T, t, h⟩
  | cons x moves ih =>
    obtain ⟨t', ht'⟩ := h.step hpos hsmooth.1 fun hw => (hwhole hw).1
    exact ih ht' hsmooth.2 fun hw => (hwhole hw).2

/-- A turn that is broken off, another, and a reload. -/
def brokenOff : List Move :=
  [.turn (env 10) "Glutenfritt, tack" 1 .aborted, .turn (env 20) "Och utan lök" 9 .done, .reload]

end Veckomenyn.Reload
