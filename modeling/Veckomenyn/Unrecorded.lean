import Veckomenyn.Dialogue

/-!
Tool calls whose results the model is never told.

The tools of a reply are called before its stop reason is looked at. A reply that stops for
another reason is the last message, and its tool calls stay unanswered.
-/

namespace Veckomenyn.Unrecorded

open Remote Llm AgentRun Dialogue

/-- Every reply with tool calls is followed at once by a user's message that holds the results, in
order. -/
def WellFormed : List Message → Prop :=
  Answered (fun m => m.role = .assistant ∧ m.toolUses ≠ []) fun m n => n.role = .user ∧
    List.Forall₂ (fun use b => b.type = .toolResult ∧ b.toolID = use.toolID) m.toolUses n.content

/-- The ids of the results the model is told. -/
def results (msgs : List Message) : List String :=
  (((msgs.filter fun m => m.role = .user).flatMap Message.content).filter
    fun b => b.type = .toolResult).map ContentBlock.toolID

/-- Every reply with tool calls has stopped for them. -/
def Announced (log : List (Exchange (List Event) Query Reply)) : Prop :=
  ∀ mem p evs result, ⟨mem, .runStream p, (evs, .ok result)⟩ ∈ log →
    result.stopReason ≠ .toolUse → result.assistantMessage.1.toolUses = []

/-! ### Messages -/

lemma results_append (xs ys : List Message) : results (xs ++ ys) = results xs ++ results ys := by
  unfold results
  simp only [List.filter_append, List.flatMap_append, List.map_append]

lemma results_reply (reply : AssistantMessage) : results [reply.1] = [] := by
  unfold results
  simp [reply.2]

lemma results_asked (userMessage : String) :
    results [newUserMessage [textBlock userMessage]] = [] := rfl

lemma wellFormed_nil : WellFormed [] := trivial

lemma wellFormed_reply {xs : List Message} (hxs : WellFormed xs) (reply : AssistantMessage) :
    WellFormed (xs ++ [reply.1]) ↔ reply.1.toolUses = [] := by
  constructor
  · intro h
    by_contra huses
    obtain ⟨n, hn, -⟩ := (Answered.right h).1 ⟨reply.2, huses⟩
    cases hn
  · intro h
    refine answered_append hxs (answered_of_quiet ?_)
    simp [h]

lemma wellFormed_asked {history : List Message} (h : WellFormed history) (userMessage : String) :
    WellFormed (asked history userMessage) :=
  answered_append h (answered_of_quiet (by simp [newUserMessage]))

variable {a : Agent} {ctx : RunCtx} {model : String} {system : List SystemBlock}
  {log : List (Exchange (List Event) Query Reply)} {uses blocks : List ContentBlock}

lemma answers_results (h : Answers a log uses blocks) :
    results [newUserMessage blocks] = uses.map ContentBlock.toolID := by
  have hids : (blocks.filter fun b => b.type = .toolResult).map ContentBlock.toolID =
      uses.map ContentBlock.toolID := by
    induction h with
    | nil => rfl
    | cons hb _ ih =>
      obtain ⟨r, -, rfl⟩ := hb
      simpa [resultBlock, toolResultBlock] using ih
  unfold results
  simpa [newUserMessage] using hids

lemma answers_wellFormed {xs : List Message} (hxs : WellFormed xs) {reply : AssistantMessage}
    (h : Answers a log reply.1.toolUses blocks) :
    WellFormed (xs ++ [reply.1, newUserMessage blocks]) := by
  refine answered_append hxs (answered_pair ⟨rfl, ?_⟩ (by simp [newUserMessage]))
  refine h.imp ?_
  rintro use b ⟨r, -, rfl⟩
  exact ⟨rfl, rfl⟩

/-! ### The log -/

lemma announced_quiet {l : List (Exchange (List Event) Query Reply)}
    (hl : ∀ e ∈ l, ¬ IsRequest e.query) : Announced (log ++ l) ↔ Announced log := by
  constructor
  · exact fun h mem p evs result hmem => h mem p evs result (List.mem_append_left _ hmem)
  · intro h mem p evs result hmem
    rcases List.mem_append.mp hmem with hmem | hmem
    · exact h mem p evs result hmem
    · exact absurd ⟨p, rfl⟩ (hl _ hmem)

lemma announced_failed (h : Announced log) {mem : List Event} {p : RunParams}
    {evs : List StreamEvent} {err : String} :
    Announced (log ++ [⟨mem, .runStream p, (evs, .error err)⟩]) := by
  intro mem' p' evs' result hmem
  rcases List.mem_append.mp hmem with hmem | hmem
  · exact h mem' p' evs' result hmem
  · cases List.mem_singleton.mp hmem

lemma announced_replied (h : Announced log) {mem : List Event} {p : RunParams}
    {evs : List StreamEvent} {result : RunResult} :
    Announced (log ++ [⟨mem, .runStream p, (evs, .ok result)⟩]) ↔
      (result.stopReason ≠ .toolUse → result.assistantMessage.1.toolUses = []) := by
  constructor
  · exact fun hall => hall mem p evs result (by simp)
  · intro hlast mem' p' evs' result' hmem
    rcases List.mem_append.mp hmem with hmem | hmem
    · exact h mem' p' evs' result' hmem
    · cases List.mem_singleton.mp hmem
      exact hlast

/-! ### The invariant -/

/-- So far all that was called has been told. -/
structure Told (history msgs : List Message) (w : RunWorld) : Prop where
  wellFormed : WellFormed msgs
  results : results msgs = results history ++ called w.mem
  announced : Announced w.log

/-- What is claimed of the messages a run returns. -/
def Recorded (history msgs : List Message) (es : List Event) : Prop :=
  WellFormed msgs ∧ results msgs = results history ++ called es

variable {history msgs : List Message} {w w' : RunWorld}

lemma Told.recorded (h : Told history msgs w) {e : Event} (he : e.type ≠ .toolCall) :
    Recorded history msgs (emitted w e).mem ↔ Announced (emitted w e).log := by
  refine iff_of_true ⟨h.wellFormed, ?_⟩ h.announced
  unfold emitted
  rw [called_append, h.results]
  simp [called, he]

lemma Told.failed (h : Told history msgs w) (p : RunParams) (evs : List StreamEvent)
    (err : String) : Told history msgs (heard w p (evs, .error err)) := by
  refine ⟨h.wellFormed, ?_, announced_failed h.announced⟩
  unfold heard
  rw [called_append, called_streamed, List.append_nil, h.results]

/-- After a reply and its tools the log is as the reply is. -/
lemma Told.replied (h : Told history msgs w) {p : RunParams} {evs : List StreamEvent}
    {result : RunResult} {usage : Usage}
    (hcalled : Called a result.assistantMessage.1.content
      (Dialogue.recorded (heard w p (evs, .ok result)) ctx model usage) w' blocks) :
    called w'.mem = called w.mem ++ result.assistantMessage.1.toolUses.map ContentBlock.toolID ∧
      (Announced w'.log ↔
        (result.stopReason ≠ .toolUse → result.assistantMessage.1.toolUses = [])) := by
  obtain ⟨es, hmem, -, -, hids⟩ := hcalled.events
  obtain ⟨l, hlog, hl⟩ := hcalled.log
  constructor
  · rw [hmem, called_append, hids]
    unfold Dialogue.recorded heard
    rw [called_append, called_streamed, List.append_nil]
    rfl
  · rw [hlog, announced_quiet hl]
    unfold Dialogue.recorded heard
    rw [announced_quiet (by simp [IsRequest]), announced_replied h.announced]

lemma Told.next (h : Told history msgs w) {p : RunParams} {evs : List StreamEvent}
    {result : RunResult} {usage : Usage}
    (hcalled : Called a result.assistantMessage.1.content
      (Dialogue.recorded (heard w p (evs, .ok result)) ctx model usage) w' blocks)
    (hstop : result.stopReason = .toolUse) :
    Told history (msgs ++ [result.assistantMessage.1, newUserMessage blocks]) w' := by
  obtain ⟨hids, hannounced⟩ := h.replied hcalled
  refine ⟨answers_wellFormed h.wellFormed hcalled.answers, ?_,
    hannounced.mpr fun hne => absurd hstop hne⟩
  calc Unrecorded.results (msgs ++ [result.assistantMessage.1, newUserMessage blocks])
      = Unrecorded.results msgs ++ (Unrecorded.results [result.assistantMessage.1] ++
          Unrecorded.results [newUserMessage blocks]) := by
        rw [← results_append, ← results_append]; rfl
    _ = Unrecorded.results msgs ++
          result.assistantMessage.1.toolUses.map ContentBlock.toolID := by
        rw [results_reply, List.nil_append, answers_results hcalled.answers]; rfl
    _ = Unrecorded.results history ++ called w'.mem := by
        rw [h.results, hids, List.append_assoc]

/-- The last reply: the messages are as the log is. -/
lemma Told.last (h : Told history msgs w) {p : RunParams} {evs : List StreamEvent}
    {result : RunResult} {usage : Usage}
    (hcalled : Called a result.assistantMessage.1.content
      (Dialogue.recorded (heard w p (evs, .ok result)) ctx model usage) w' blocks)
    (hquiet : result.stopReason = .toolUse → result.assistantMessage.1.toolUses = [])
    {e : Event} (he : e.type ≠ .toolCall) :
    Recorded history (msgs ++ [result.assistantMessage.1]) (emitted w' e).mem ↔
      Announced (emitted w' e).log := by
  obtain ⟨hids, hannounced⟩ := h.replied hcalled
  have hlog : Announced (emitted w' e).log ↔ result.assistantMessage.1.toolUses = [] := by
    refine hannounced.trans ⟨fun hlast => ?_, fun huses _ => huses⟩
    by_cases hstop : result.stopReason = .toolUse
    · exact hquiet hstop
    · exact hlast hstop
  rw [hlog, Recorded, wellFormed_reply h.wellFormed]
  refine and_iff_left_of_imp fun huses => ?_
  unfold emitted
  rw [results_append, results_reply, List.append_nil, called_append, hids, huses, h.results]
  simp [called, he]

lemma Told.iterate {n : ℕ} {F : Empty → RunWorld → Prop} (h : Told history msgs w) :
    (iterate a ctx model system n msgs).wp
      (fun out w' => Recorded history out.1 w'.mem ↔ Announced w'.log) F w := by
  induction n generalizing msgs w with
  | zero => exact h.recorded (by simp [errorEvent])
  | succ n ih =>
    refine wp_iterate (fun evs err => (h.failed _ evs err).recorded (by simp [errorEvent])) ?_
    intro evs result blocks w' hcalled
    refine ⟨fun hstop => h.last hcalled (fun heq => absurd heq hstop) (by simp),
      fun _ hnil => h.last hcalled (fun _ => ?_) (by simp [errorEvent]),
      fun hstop _ => ih (h.next hcalled hstop)⟩
    -- no results, so there was no tool call
    have hanswers := hcalled.answers
    rw [hnil] at hanswers
    exact List.forall₂_nil_right_iff.mp hanswers

lemma told_asked (hhist : WellFormed history) (userMessage : String)
    {l : List (Exchange (List Event) Query Reply)} (hl : ∀ e ∈ l, ¬ IsRequest e.query) :
    Told history (asked history userMessage) ⟨[], l⟩ := by
  refine ⟨wellFormed_asked hhist userMessage, ?_, fun mem p evs result hmem =>
    absurd ⟨p, rfl⟩ (hl _ hmem)⟩
  unfold asked
  rw [results_append, results_asked]
  rfl

/-- **All that was called is told, if and only if every reply with tool calls stopped for them.** -/
theorem run_recorded_iff (a : Agent) (ctx : RunCtx) {history : List Message}
    (hhist : WellFormed history) (userMessage : String) (ans : ℕ → (q : Query) → Reply q) :
    ∃ msgs err, ((run a ctx history userMessage).run ans ⟨[], []⟩).1 = .ok (msgs, err) ∧
      (Recorded history msgs ((run a ctx history userMessage).run ans ⟨[], []⟩).2.mem ↔
        Announced ((run a ctx history userMessage).run ans ⟨[], []⟩).2.log) := by
  have hwp : (run a ctx history userMessage).wp
      (fun out w => Recorded history out.1 w.mem ↔ Announced w.log) (fun _ _ => True)
      ⟨[], []⟩ := by
    refine wp_run (fun err l hl => ?_) fun model system l hl => ?_
    · exact (told_asked hhist userMessage hl).recorded (by simp [errorEvent])
    · exact (told_asked hhist userMessage hl).iterate
  have h := Proc.wp_run hwp ans
  rcases hrun : (run a ctx history userMessage).run ans ⟨[], []⟩ with ⟨e | out, w'⟩
  · exact e.elim
  · rw [hrun] at h
    exact ⟨out.1, out.2, rfl, h⟩

/-! ### A reply that is cut short -/

def agent : Agent := newAgent ⟨0⟩ "" [⟨"delete_dinner", "Remove a dinner from a week."⟩]

def chat : RunCtx := ⟨1, 0⟩

/-- A backend's reply that deletes a dinner. -/
def deletion (finishReason : String) : Completion :=
  ⟨[⟨finishReason, "", [⟨"call_1", "delete_dinner", "\x7b\x22id\x22:7\x7d"⟩]⟩], 900, 20⟩

def thanks : Completion := ⟨[⟨"stop", "Klart!", []⟩], 950, 5⟩

/-- The model deletes a dinner and is then asked again. -/
def answers (finishReason : String) (n : ℕ) : (q : Query) → Reply q
  | .resolveProvider => (.ok "gpt-5" : Except String String)
  | .language => (none : Option String)
  | .currentPlan _ => (none : Option PlanLine)
  | .runStream _ => openAIRunStream [] (.ok (if n < 5 then deletion finishReason else thanks))
  | .record .. => ()
  | .call .. => (.ok "deleted" : Except String String)

abbrev deleting (finishReason : String) : Except Empty Outcome × RunWorld :=
  (run agent chat [] "Ta bort torsdagens middag").run (answers finishReason) ⟨[], []⟩

theorem recorded_deleting : ∃ msgs err, (deleting "tool_calls").1 = .ok (msgs, err) ∧
    (Recorded [] msgs (deleting "tool_calls").2.mem ↔ Announced (deleting "tool_calls").2.log) :=
  run_recorded_iff agent chat wellFormed_nil "Ta bort torsdagens middag" (answers "tool_calls")

/-- The reply says that it has come to its end. -/
theorem not_recorded : WellFormed [] ∧
    ∃ msgs err, (deleting "stop").1 = .ok (msgs, err) ∧ ¬ WellFormed msgs ∧
      called (deleting "stop").2.mem = ["call_1"] ∧ results msgs = [] := by
  refine ⟨wellFormed_nil, _, _, rfl, fun h => ?_, rfl, rfl⟩
  obtain ⟨-, hreply, -⟩ := h
  obtain ⟨n, hn, -⟩ := hreply ⟨rfl, by decide⟩
  cases hn

end Veckomenyn.Unrecorded
