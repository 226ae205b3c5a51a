import Veckomenyn.Dialogue
import Veckomenyn.Drawer

/-!
What one run of the agent adds to the entries of the drawer.

Before its end a run emits text, notices of started calls, and calls with their results. The drawer
enters them through two remembered places: the entry that takes text, and the cards of the tools.
While they come, the entry that takes text is the last of the list and holds what has been said
since the last card.
-/

namespace Veckomenyn.Cards

open Remote Llm AgentRun Drawer

/-! ### The events of a run -/

/-- A part of what a run emits before its end. -/
inductive Piece where
  | text (s : String)
  | started (name id : String)
  | call (block : ContentBlock) (answer : Except String String)

inductive Last where
  | done
  | error (err : String)

def Piece.events : Piece → List Event
  | .text s => [{ type := .text, text := s }]
  | .started name id => [{ type := .toolCallStarted, tool := name, toolID := id }]
  | .call block answer => [callEvent block, resultEvent block answer]

def Last.event : Last → Event
  | .done => { type := .done }
  | .error err => errorEvent err

def emits (ps : List Piece) (last : Last) : List Event :=
  ps.flatMap Piece.events ++ [last.event]

/-- The ids of the calls. -/
def ids (ps : List Piece) : List String :=
  ps.flatMap fun
    | .call block _ => [block.toolID]
    | _ => []

lemma streamed_pieces (evs : List StreamEvent) :
    ∃ ps : List Piece, evs.flatMap streamed = ps.flatMap Piece.events := by
  induction evs with
  | nil => exact ⟨[], rfl⟩
  | cons ev evs ih =>
    obtain ⟨ps, hps⟩ := ih
    rw [List.flatMap_cons, hps]
    unfold streamed
    split
    · exact ⟨.text ev.text :: ps, rfl⟩
    · exact ⟨.started ev.toolName ev.toolID :: ps, rfl⟩
    · exact ⟨ps, rfl⟩

/-- The world has the events of some pieces more. -/
def Told (w w' : RunWorld) : Prop := ∃ ps : List Piece, w'.mem = w.mem ++ ps.flatMap Piece.events

/-- The world has the events of some pieces and of an end more. -/
def Closed (w w' : RunWorld) : Prop := ∃ ps last, w'.mem = w.mem ++ emits ps last

variable {w w' w'' : RunWorld} {F : Empty → RunWorld → Prop}

lemma Told.refl (w : RunWorld) : Told w w := ⟨[], (List.append_nil _).symm⟩

lemma Told.trans (h : Told w w') (h' : Told w' w'') : Told w w'' := by
  obtain ⟨ps, hps⟩ := h
  obtain ⟨qs, hqs⟩ := h'
  exact ⟨ps ++ qs, by rw [hqs, hps, List.flatMap_append, List.append_assoc]⟩

lemma Told.closed (h : Told w w') (h' : Closed w' w'') : Closed w w'' := by
  obtain ⟨ps, hps⟩ := h
  obtain ⟨qs, last, hqs⟩ := h'
  refine ⟨ps ++ qs, last, ?_⟩
  rw [hqs, hps]
  simp only [emits, List.flatMap_append, List.append_assoc]

lemma Told.last (h : Told w w') (last : Last) :
    Closed w (Dialogue.emitted w' last.event) :=
  h.closed ⟨[], last, rfl⟩

lemma told_heard (w : RunWorld) (p : RunParams) (answer : Streamed) :
    Told w (Dialogue.heard w p answer) := by
  obtain ⟨ps, hps⟩ := streamed_pieces answer.1
  exact ⟨ps, by rw [← hps]; rfl⟩

lemma told_callTools (a : Agent) (blocks acc : List ContentBlock) (w : RunWorld) :
    (callTools a blocks acc).wp (fun _ w' => Told w w') F w := by
  induction blocks generalizing acc w with
  | nil => exact Told.refl w
  | cons block blocks ih =>
    unfold callTools
    split
    · exact ih acc w
    · simp only [emit, Proc.wp_bind, Proc.wp_modify]
      refine Dialogue.wp_callTool fun answer l _ _ => ?_
      refine Proc.wp_mono (fun _ w' hw' => ?_) (fun _ _ h => h) (ih _ _)
      refine Told.trans ⟨[.call block answer], ?_⟩ hw'
      simp only [List.append_assoc, List.flatMap_cons, List.flatMap_nil, List.append_nil]
      rfl

lemma closed_iterate (a : Agent) (ctx : RunCtx) (model : String) (system : List SystemBlock)
    (n : ℕ) (msgs : List Message) (w : RunWorld) :
    (iterate a ctx model system n msgs).wp (fun _ w' => Closed w w') F w := by
  induction n generalizing msgs w with
  | zero => exact (Told.refl w).last (.error "max iterations reached")
  | succ n ih =>
    unfold iterate
    refine (Proc.wp_bind _ _).mpr (Dialogue.wp_runStream fun answer => ?_)
    have hheard := told_heard w (Dialogue.params a model system msgs) answer
    obtain ⟨evs, outcome⟩ := answer
    cases outcome with
    | error err => exact hheard.last (.error err)
    | ok result =>
      refine (Proc.wp_bind _ _).mpr (Dialogue.wp_record ?_)
      refine (Proc.wp_bind _ _).mpr ?_
      refine Proc.wp_mono ?_ (fun _ _ h => h) (told_callTools a _ _ _)
      intro results w' hcalled
      have htold : Told w w' := hheard.trans hcalled
      split
      · exact htold.last .done
      split
      · exact htold.last (.error _)
      · exact Proc.wp_mono (fun _ _ h => htold.closed h) (fun _ _ h => h) (ih _ w')

/-- **A run emits pieces and one end**, whatever the model and the tools answer. -/
theorem run_emits (a : Agent) (ctx : RunCtx) (history : List Message) (userMessage : String)
    (ans : ℕ → (q : Query) → Reply q) :
    ∃ ps last, ((run a ctx history userMessage).run ans ⟨[], []⟩).2.mem = emits ps last := by
  have hwp : (run a ctx history userMessage).wp (fun _ w' => Closed ⟨[], []⟩ w')
      (fun _ _ => True) ⟨[], []⟩ :=
    Dialogue.wp_run (fun err l _ => (Told.refl ⟨[], l⟩).last (.error err))
      fun model system l _ => closed_iterate a ctx model system _ _ ⟨[], l⟩
  have h := Proc.wp_run hwp ans
  rcases hrun : (run a ctx history userMessage).run ans ⟨[], []⟩ with ⟨e | out, w'⟩
  · exact e.elim
  · rw [hrun] at h
    exact h

/-! ### What they leave in the drawer -/

/-- The card of a call that has been answered; a missing name or input is shown by a stand-in. -/
def card (block : ContentBlock) (answer : Except String String) : ChatEntry :=
  .tool (orElse "tool" block.toolName) (orElse "\x7b\x7d" block.toolInput)
    (some (resultText answer)) (isErr answer)

/-- The same with `result` for what becomes of a result on its way. -/
def cardOf (result : String → Option String) (block : ContentBlock)
    (answer : Except String String) : ChatEntry :=
  .tool (orElse "tool" block.toolName) (orElse "\x7b\x7d" block.toolInput)
    (result (resultText answer)) (isErr answer)

/-- The card with the name and the input of the call, whatever they are. -/
def ownCard (block : ContentBlock) (answer : Except String String) : ChatEntry :=
  .tool block.toolName block.toolInput (some (resultText answer)) (isErr answer)

/-- **A card is the call's own** when the call has a name and an input. -/
theorem card_eq_ownCard {block : ContentBlock} (hname : block.toolName ≠ "")
    (hinput : block.toolInput ≠ "") (answer : Except String String) :
    card block answer = ownCard block answer := by
  simp only [card, ownCard, orElse, if_neg hname, if_neg hinput]

/-- The entry for what has been said, when anything has. -/
def said (text : String) : List ChatEntry := if text = "" then [] else [.assistant text]

/-- An entry for the text between two calls and a card for each call, where `text` has been said
since the last card. -/
def shown (card : ContentBlock → Except String String → ChatEntry) :
    String → List Piece → List ChatEntry
  | text, [] => said text
  | text, .text s :: ps => shown card (text ++ s) ps
  | text, .started _ _ :: ps => shown card text ps
  | text, .call block answer :: ps => said text ++ card block answer :: shown card "" ps

def Last.entries : Last → List ChatEntry
  | .done => []
  | .error err => [.error (orElse "unknown error" err)]

/-- The texts up to the first call, put together. -/
def spoken : List Piece → String
  | .text s :: ps => s ++ spoken ps
  | .started _ _ :: ps => spoken ps
  | _ => ""

/-- **Texts with no call between them are shown as one.** -/
theorem shown_quiet {card : ContentBlock → Except String String → ChatEntry} (text : String)
    {ps : List Piece} (h : ids ps = []) (qs : List Piece) :
    shown card text (ps ++ qs) = shown card (text ++ spoken ps) qs := by
  induction ps generalizing text with
  | nil => simp [spoken]
  | cons p ps ih =>
    cases p with
    | text s => rw [List.cons_append, shown, ih _ h, spoken, String.append_assoc]
    | started name id => rw [List.cons_append, shown, ih _ h, spoken]
    | call block answer => simp [ids] at h

/-- The drawer after `entries`, with `text` said since. -/
def opened (entries : List ChatEntry) (text : String) (tools : String → Option ℕ) : View :=
  ⟨entries ++ said text, if text = "" then none else some entries.length, tools⟩

variable (result : String → Option String) (entries : List ChatEntry) (text : String)
  (tools : String → Option ℕ)

lemma opened_fresh : opened entries "" tools = ⟨entries, none, tools⟩ := by
  simp only [opened, said, if_pos, List.append_nil]

lemma apply_text (s : String) :
    applyAgentEvent (opened entries text tools) (.ofEvent result { type := .text, text := s }) =
      opened entries (text ++ s) tools := by
  by_cases hs : s = ""
  · simp [applyAgentEvent, AgentEvent.ofEvent, hs]
  by_cases htext : text = ""
  · simp [applyAgentEvent, AgentEvent.ofEvent, opened, said, hs, htext]
  · simp [applyAgentEvent, AgentEvent.ofEvent, opened, said, hs, htext]

/-- The places of the cards, with one more for the call. -/
def placed (block : ContentBlock) : String → Option ℕ := fun id =>
  if id = block.toolID ∧ id ≠ "" then some (entries ++ said text).length else tools id

lemma apply_call {block : ContentBlock} (hid : block.toolID ≠ "")
    (answer : Except String String) :
    applyAgentEvent (applyAgentEvent (opened entries text tools) (.ofEvent result (callEvent block)))
        (.ofEvent result (resultEvent block answer)) =
      opened (entries ++ said text ++ [cardOf result block answer]) ""
        (placed entries text tools block) := by
  have hcall : applyAgentEvent (opened entries text tools) (.ofEvent result (callEvent block)) =
      ⟨entries ++ said text ++
        [.tool (orElse "tool" block.toolName) (orElse "\x7b\x7d" block.toolInput) none false], none,
        placed entries text tools block⟩ := rfl
  have hplace : placed entries text tools block block.toolID =
      some (entries ++ said text).length := if_pos ⟨rfl, hid⟩
  rw [hcall, opened_fresh]
  simp [applyAgentEvent, AgentEvent.ofEvent, resultEvent, hid, hplace, cardOf]

/-- The pieces of a run, from any point of it. -/
lemma fold_pieces {ps : List Piece} (hid : "" ∉ ids ps) :
    (((ps.flatMap Piece.events).map (AgentEvent.ofEvent result)).foldl applyAgentEvent
      (opened entries text tools)).entries = entries ++ shown (cardOf result) text ps := by
  induction ps generalizing entries text tools with
  | nil => rfl
  | cons p ps ih =>
    rw [List.flatMap_cons, List.map_append, List.foldl_append]
    cases p with
    | text s =>
      have hstep := apply_text result entries text tools s
      simp only [Piece.events, List.map_cons, List.map_nil, List.foldl_cons, List.foldl_nil, hstep]
      exact ih _ _ _ hid
    | started name id => exact ih _ _ _ hid
    | call block answer =>
      have hids : block.toolID ≠ "" ∧ "" ∉ ids ps :=
        ⟨fun h => hid (List.mem_cons.mpr (.inl h.symm)), fun h => hid (List.mem_cons_of_mem _ h)⟩
      have hstep := apply_call result entries text tools hids.1 answer
      simp only [Piece.events, List.map_cons, List.map_nil, List.foldl_cons, List.foldl_nil, hstep]
      rw [ih _ _ _ hids.2, shown]
      simp only [List.append_assoc, List.cons_append, List.nil_append]

variable {result}

lemma apply_last (hresult : ∀ s, (result s).getD "" = s) (v : View) (last : Last) :
    (applyAgentEvent v (.ofEvent result last.event)).entries = v.entries ++ last.entries := by
  cases last with
  | done => exact (List.append_nil _).symm
  | error err =>
    show v.entries ++ [.error (orElse "unknown error" ((result err).getD ""))] = _
    rw [hresult, Last.entries]

/-- Whatever becomes of an empty result on its way. -/
lemma fold_emits (hresult : ∀ s, (result s).getD "" = s) {ps : List Piece} (hid : "" ∉ ids ps)
    (last : Last) : (((emits ps last).map (AgentEvent.ofEvent result)).foldl applyAgentEvent
        ⟨entries, none, tools⟩).entries =
      entries ++ shown (cardOf result) "" ps ++ last.entries := by
  rw [← opened_fresh, emits, List.map_append, List.foldl_append, List.map_singleton,
    List.foldl_cons, List.foldl_nil, apply_last hresult, fold_pieces _ entries "" _ hid]

/-- **A run leaves the entries that were there and appends its own**: one entry for the texts
between two calls, one card for each call, and the error if there is one. -/
theorem run_appends (entries : List ChatEntry) (ps : List Piece) (last : Last)
    (hid : "" ∉ ids ps) :
    (((emits ps last).map AgentEvent.emitted).foldl applyAgentEvent
        ⟨entries, none, fun _ => none⟩).entries =
      entries ++ shown card "" ps ++ last.entries :=
  fold_emits entries (fun _ => none) (fun _ => rfl) hid last

/-- A call without an argument, as a model may make it. -/
def readSettings : ContentBlock := toolUseBlock "call_1" "read_household_settings" ""

theorem run_appends_settings :
    (((emits [.text "Jag ", .text "kollar.", .started "read_household_settings" "call_1",
        .call readSettings (.ok "4 middagar"), .text "Klart."] .done).map
          AgentEvent.emitted).foldl applyAgentEvent
        ⟨[.user "Hej", .assistant "Hej!"], none, fun _ => none⟩).entries =
      [.user "Hej", .assistant "Hej!"] ++ [.assistant "Jag kollar.",
        .tool "read_household_settings" "\x7b\x7d" (some "4 middagar") false,
        .assistant "Klart."] ++ [] :=
  run_appends _ _ _ (by decide)

theorem not_ownCards :
    ¬ ∀ (entries : List ChatEntry) (ps : List Piece) (last : Last), "" ∉ ids ps →
      (ids ps).Nodup →
        (((emits ps last).map AgentEvent.emitted).foldl applyAgentEvent
          ⟨entries, none, fun _ => none⟩).entries =
          entries ++ shown ownCard "" ps ++ last.entries := by
  intro h
  have hcards := h [] [.call readSettings (.ok "4 middagar")] .done (by decide) (by decide)
  have hshown : ([.tool "read_household_settings" "\x7b\x7d" (some "4 middagar") false] :
      List ChatEntry) = [.tool "read_household_settings" "" (some "4 middagar") false] := hcards
  exact absurd hshown (by decide)

end Veckomenyn.Cards
