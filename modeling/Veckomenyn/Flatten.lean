import Veckomenyn.Unrecorded

/-!
A history as the flat list of messages a chat completion is asked with.

There the results of tool calls are messages of their own, and the service refuses a message with
tool calls that their results do not follow at once.
-/

namespace Veckomenyn.Flatten

open Llm Dialogue Unrecorded

inductive ChatMessage where
  | system (text : String)
  | user (text : String)
  | assistant (text : String) (toolCalls : List CompletionCall)
  | tool (text callID : String)

/-! ### The code -/

def systemText (system : List SystemBlock) : String :=
  system.zipIdx.foldl (fun text s => (if s.2 > 0 then text ++ "\n\n" else text) ++ s.1.text) ""

def callOf (b : ContentBlock) : CompletionCall := ⟨b.toolID, b.toolName, b.toolInput⟩

def userBlock (out : List ChatMessage) (b : ContentBlock) : List ChatMessage :=
  match b.type with
  | .text => out ++ [.user b.text]
  | .toolResult => out ++ [.tool b.text b.toolID]
  | .toolUse => out

def assistantBlock (acc : List CompletionCall × String) (b : ContentBlock) :
    List CompletionCall × String :=
  match b.type with
  | .text => (acc.1, acc.2 ++ b.text)
  | .toolUse => (acc.1 ++ [callOf b], acc.2)
  | .toolResult => acc

def appendMessage (out : List ChatMessage) (m : Message) : List ChatMessage :=
  match m.role with
  | .user => m.content.foldl userBlock out
  | .assistant =>
    let acc := m.content.foldl assistantBlock ([], "")
    out ++ [.assistant acc.2 acc.1]

def systemMessages (system : List SystemBlock) : List ChatMessage :=
  if system.length > 0 then [.system (systemText system)] else []

def toOpenAIMessages (system : List SystemBlock) (msgs : List Message) : List ChatMessage :=
  msgs.foldl appendMessage (systemMessages system)

/-! ### What a message becomes -/

/-- What a block of the user's becomes. -/
def fromUser (b : ContentBlock) : Option ChatMessage :=
  match b.type with
  | .text => some (.user b.text)
  | .toolResult => some (.tool b.text b.toolID)
  | .toolUse => none

/-- The texts of a message. -/
def texts (m : Message) : List String :=
  (m.content.filter fun b => b.type = .text).map ContentBlock.text

/-- What a message becomes: one message for each block of the user's, one for a reply. -/
def flat (m : Message) : List ChatMessage :=
  match m.role with
  | .user => m.content.filterMap fromUser
  | .assistant => [.assistant (String.join (texts m)) (m.toolUses.map callOf)]

def IsTool : ChatMessage → Prop
  | .tool _ _ => True
  | _ => False

/-- The user's message after a reply with tool calls holds results, and no other does. -/
def Solicited : Prop → List Message → Prop
  | _, [] => True
  | asked, m :: msgs =>
    (m.role = .user → ¬ asked → ∀ b ∈ m.content, b.type ≠ .toolResult) ∧
      Solicited (m.role = .assistant ∧ m.toolUses ≠ []) msgs

/-! ### The loops -/

lemma userBlock_eq (out : List ChatMessage) (b : ContentBlock) :
    userBlock out b = out ++ (fromUser b).toList := by
  unfold userBlock fromUser
  cases b.type with
  | text => rfl
  | toolUse => exact (List.append_nil out).symm
  | toolResult => rfl

lemma foldl_userBlock (bs : List ContentBlock) (out : List ChatMessage) :
    bs.foldl userBlock out = out ++ bs.filterMap fromUser := by
  induction bs generalizing out with
  | nil => simp
  | cons b bs ih =>
    rw [List.foldl_cons, ih, userBlock_eq, List.append_assoc]
    cases h : fromUser b with
    | none => rw [List.filterMap_cons_none h]; rfl
    | some c => rw [List.filterMap_cons_some h]; rfl

lemma foldl_assistantBlock (bs : List ContentBlock) (calls : List CompletionCall) (text : String) :
    bs.foldl assistantBlock (calls, text) = (calls ++ (bs.filter isToolUse).map callOf,
      ((bs.filter fun b => b.type = .text).map ContentBlock.text).foldl (· ++ ·) text) := by
  induction bs generalizing calls text with
  | nil => simp
  | cons b bs ih =>
    rw [List.foldl_cons]
    cases h : b.type with
    | text =>
      have hb : assistantBlock (calls, text) b = (calls, text ++ b.text) := by
        simp only [assistantBlock, h]
      simp [hb, ih, isToolUse, h]
    | toolUse =>
      have hb : assistantBlock (calls, text) b = (calls ++ [callOf b], text) := by
        simp only [assistantBlock, h]
      simp [hb, ih, isToolUse, h]
    | toolResult =>
      have hb : assistantBlock (calls, text) b = (calls, text) := by
        simp only [assistantBlock, h]
      simp [hb, ih, isToolUse, h]

lemma appendMessage_eq (out : List ChatMessage) (m : Message) :
    appendMessage out m = out ++ flat m := by
  unfold appendMessage flat
  cases m.role with
  | user => exact foldl_userBlock m.content out
  | assistant =>
    simp only [foldl_assistantBlock, List.nil_append]
    rfl

lemma toOpenAIMessages_eq (system : List SystemBlock) (msgs : List Message) :
    toOpenAIMessages system msgs = systemMessages system ++ msgs.flatMap flat := by
  unfold toOpenAIMessages
  generalize systemMessages system = out
  induction msgs generalizing out with
  | nil => simp
  | cons m msgs ih =>
    rw [List.foldl_cons, ih, appendMessage_eq, List.flatMap_cons, List.append_assoc]

/-! ### What follows a reply -/

lemma split_of_not_mem {α : Type} {xs ys before after : List α} {a : α} (hxs : a ∉ xs)
    (h : xs ++ ys = before ++ a :: after) : ∃ before', ys = before' ++ a :: after := by
  rcases List.append_eq_append_iff.mp h with ⟨zs, -, hys⟩ | ⟨zs, hxs', hzs⟩
  · exact ⟨zs, hys⟩
  · cases zs with
    | nil => exact ⟨[], hzs.symm⟩
    | cons z zs =>
      obtain ⟨rfl, -⟩ := List.cons_eq_cons.mp hzs
      exact absurd (by simp [hxs']) hxs

lemma flat_user {m : Message} (hm : m.role = .user) : flat m = m.content.filterMap fromUser := by
  simp only [flat, hm]

lemma flat_assistant {m : Message} (hm : m.role = .assistant) :
    flat m = [.assistant (String.join (texts m)) (m.toolUses.map callOf)] := by
  simp only [flat, hm]

lemma assistant_not_mem_flat {m : Message} (hm : m.role = .user) (text : String)
    (calls : List CompletionCall) : .assistant text calls ∉ flat m := by
  rw [flat_user hm]
  intro hmem
  obtain ⟨b, -, hb⟩ := List.mem_filterMap.mp hmem
  unfold fromUser at hb
  cases h : b.type <;> simp [h] at hb

lemma assistant_not_mem_system (system : List SystemBlock) (text : String)
    (calls : List CompletionCall) : .assistant text calls ∉ systemMessages system := by
  unfold systemMessages
  split <;> simp

/-- Results become messages with their ids, one each. -/
lemma flat_results {uses : List ContentBlock} {m : Message} (hm : m.role = .user)
    (h : List.Forall₂ (fun use b => b.type = .toolResult ∧ b.toolID = use.toolID) uses
      m.content) :
    List.Forall₂ (fun r c => ∃ text, r = .tool text c.id) (flat m) (uses.map callOf) := by
  rw [flat_user hm]
  generalize m.content = bs at h ⊢
  induction h with
  | nil => exact .nil
  | @cons use b uses bs hb _ ih =>
    have hsome : fromUser b = some (.tool b.text b.toolID) := by simp only [fromUser, hb.1]
    rw [List.filterMap_cons_some hsome]
    exact .cons ⟨b.text, congrArg _ hb.2⟩ ih

/-- Where no reply asks, no message of a tool comes first. -/
lemma head_not_tool {asked : Prop} {msgs : List Message} (hask : ¬ asked)
    (h : Solicited asked msgs) : ∀ next ∈ (msgs.flatMap flat).head?, ¬ IsTool next := by
  induction msgs generalizing asked with
  | nil => simp
  | cons m msgs ih =>
    intro next hnext
    rw [List.flatMap_cons] at hnext
    cases hm : m.role with
    | assistant =>
      rw [flat_assistant hm] at hnext
      obtain rfl := Option.some.inj hnext
      exact id
    | user =>
      cases hflat : flat m with
      | nil =>
        rw [hflat, List.nil_append] at hnext
        exact ih (by simp [hm]) h.2 next hnext
      | cons c cs =>
        rw [hflat] at hnext
        obtain rfl := Option.some.inj hnext
        have hmem : c ∈ m.content.filterMap fromUser := by simp [← flat_user hm, hflat]
        obtain ⟨b, hb, hc⟩ := List.mem_filterMap.mp hmem
        have htype := h.1 hm hask b hb
        unfold fromUser at hc
        cases hbt : b.type with
        | text =>
          simp only [hbt, Option.some.injEq] at hc
          rw [← hc]
          exact id
        | toolUse => simp [hbt] at hc
        | toolResult => exact absurd hbt htype

/-- A message with tool calls is followed at once by the messages of its results. -/
lemma flat_followed {msgs : List Message} (h : WellFormed msgs)
    {before after : List ChatMessage} {text : String} {calls : List CompletionCall}
    (hout : msgs.flatMap flat = before ++ .assistant text calls :: after) (hcalls : calls ≠ []) :
    ∃ answers rest, after = answers ++ rest ∧
      List.Forall₂ (fun r c => ∃ text, r = .tool text c.id) answers calls ∧
      ∀ asked, Solicited asked msgs → ∀ next ∈ rest.head?, ¬ IsTool next := by
  induction msgs generalizing before with
  | nil => simp at hout
  | cons m msgs ih =>
    rw [List.flatMap_cons] at hout
    cases hm : m.role with
    | user =>
      obtain ⟨before', hrest⟩ := split_of_not_mem (assistant_not_mem_flat hm text calls) hout
      obtain ⟨answers, rest, hafter, hans, hnext⟩ := ih h.2 hrest
      exact ⟨answers, rest, hafter, hans, fun _ hs => hnext _ hs.2⟩
    | assistant =>
      rw [flat_assistant hm] at hout
      cases before with
      | cons c before =>
        obtain ⟨-, hrest⟩ := List.cons_eq_cons.mp hout
        obtain ⟨answers, rest, hafter, hans, hnext⟩ := ih h.2 hrest
        exact ⟨answers, rest, hafter, hans, fun _ hs => hnext _ hs.2⟩
      | nil =>
        -- the reply itself: the results are the message after it
        obtain ⟨hreply, rfl⟩ := List.cons_eq_cons.mp hout
        obtain ⟨-, rfl⟩ := ChatMessage.assistant.inj hreply
        have huses : m.toolUses ≠ [] := fun hnil => hcalls (by simp [hnil])
        obtain ⟨n, hn, hrole, hres⟩ := h.1 ⟨hm, huses⟩
        cases msgs with
        | nil => cases hn
        | cons n' msgs =>
          obtain rfl := Option.some.inj hn
          refine ⟨flat n', msgs.flatMap flat, List.flatMap_cons, flat_results hrole hres, ?_⟩
          exact fun _ hs => head_not_tool (by simp [hrole]) hs.2.2

/-! ### A reply, there and back -/

lemma toOpenAIMessages_reply {completion : Completion} {choice : Choice}
    (h : completion.choices.head? = some choice) :
    toOpenAIMessages [] [(fromOpenAIMessage completion).1] =
      [.assistant choice.content choice.toolCalls] := by
  obtain ⟨choices, prompt, tokens⟩ := completion
  cases choices with
  | nil => cases h
  | cons c choices =>
    obtain rfl := Option.some.inj h
    have hcalls (cs : List CompletionCall) (acc : List CompletionCall × String) :
        (cs.map fun tc => toolUseBlock tc.id tc.name tc.arguments).foldl assistantBlock acc =
          (acc.1 ++ cs, acc.2) := by
      induction cs generalizing acc with
      | nil => simp
      | cons tc cs ih =>
        rw [List.map_cons, List.foldl_cons, ih]
        simp [assistantBlock, toolUseBlock, callOf]
    have htext : (if c.content ≠ "" then [textBlock c.content] else []).foldl assistantBlock
        ([], "") = ([], c.content) := by
      by_cases hc : c.content = ""
      · simp [hc]
      · simp [hc, assistantBlock, textBlock]
    change appendMessage [] (fromOpenAIMessage ⟨c :: choices, prompt, tokens⟩).1 = _
    unfold appendMessage fromOpenAIMessage newAssistantMessage
    simp only [List.foldl_append, htext, hcalls, List.nil_append]

/-- **Flattening**: block for block and reply for reply, the results right after their calls. -/
theorem toOpenAIMessages_flat {msgs : List Message} (h : WellFormed msgs)
    (system : List SystemBlock) :
    toOpenAIMessages system msgs = systemMessages system ++ msgs.flatMap flat ∧
    (∀ before text calls after,
      toOpenAIMessages system msgs = before ++ .assistant text calls :: after → calls ≠ [] →
      ∃ answers rest, after = answers ++ rest ∧
        List.Forall₂ (fun r c => ∃ text, r = .tool text c.id) answers calls ∧
        (Solicited False msgs → ∀ next ∈ rest.head?, ¬ IsTool next)) ∧
    ∀ completion choice, completion.choices.head? = some choice →
      toOpenAIMessages [] [(fromOpenAIMessage completion).1] =
        [.assistant choice.content choice.toolCalls] := by
  refine ⟨toOpenAIMessages_eq system msgs, ?_, ?_⟩
  · intro before text calls after hout hcalls
    rw [toOpenAIMessages_eq] at hout
    obtain ⟨before', hrest⟩ :=
      split_of_not_mem (assistant_not_mem_system system text calls) hout
    obtain ⟨answers, rest, hafter, hans, hnext⟩ := flat_followed h hrest hcalls
    exact ⟨answers, rest, hafter, hans, hnext False⟩
  · intro completion choice hchoice
    exact toOpenAIMessages_reply hchoice

/-- The user asks, two tools are called at once, and the user goes on. -/
def chat : List Message :=
  [newUserMessage [textBlock "plan my week"],
    ⟨.assistant, [textBlock "one moment", toolUseBlock "a" "weeks_list" "\x7b\x7d",
      toolUseBlock "b" "family_list" "\x7b\x7d"]⟩,
    newUserMessage [toolResultBlock "a" "none" false, toolResultBlock "b" "two" false],
    newUserMessage [textBlock "and?"]]

lemma chat_wellFormed : WellFormed chat := by
  refine ⟨by simp [newUserMessage], fun _ => ⟨_, rfl, rfl, ?_⟩, by simp [newUserMessage], ?_⟩
  · exact .cons ⟨rfl, rfl⟩ (.cons ⟨rfl, rfl⟩ .nil)
  · exact answered_of_quiet (by simp [newUserMessage])

theorem toOpenAIMessages_flat_chat :
    toOpenAIMessages [⟨"be brief"⟩] chat =
      [.system "be brief", .user "plan my week",
        .assistant "one moment"
          [⟨"a", "weeks_list", "\x7b\x7d"⟩, ⟨"b", "family_list", "\x7b\x7d"⟩],
        .tool "none" "a", .tool "two" "b", .user "and?"] :=
  (toOpenAIMessages_flat chat_wellFormed [⟨"be brief"⟩]).1.trans (by
    simp [systemMessages, systemText, chat, flat, fromUser, texts, newUserMessage, textBlock,
      toolUseBlock, toolResultBlock, Message.toolUses, isToolUse, callOf, String.join])

end Veckomenyn.Flatten
