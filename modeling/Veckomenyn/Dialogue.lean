import Mathlib.Data.List.Forall2
import Veckomenyn.AgentRun

/-!
What a run of the agent asks the model and what it emits, whatever the model answers.

A round asks the model and calls the tools of its reply. One lemma says all that a round does;
the invariant of the loop is read off it.
-/

namespace Veckomenyn.Dialogue

open Remote Llm AgentRun

/-! ### Lists in which one element answers another -/

section

variable {α : Type} {Calls : α → Prop} {Answer : α → α → Prop}

/-- After an element that calls for an answer its answer comes next. -/
def Answered (Calls : α → Prop) (Answer : α → α → Prop) : List α → Prop
  | [] => True
  | x :: xs => (Calls x → ∃ y ∈ xs.head?, Answer x y) ∧ Answered Calls Answer xs

lemma answered_append {xs ys : List α} (hx : Answered Calls Answer xs)
    (hy : Answered Calls Answer ys) : Answered Calls Answer (xs ++ ys) := by
  induction xs with
  | nil => exact hy
  | cons x xs ih =>
    refine ⟨fun h => ?_, ih hx.2⟩
    obtain ⟨y, hhead, hy⟩ := hx.1 h
    have happ : (xs ++ ys).head? = some y := by
      rw [List.head?_append, Option.mem_def.mp hhead, Option.some_or]
    exact ⟨y, happ, hy⟩

lemma Answered.right {xs ys : List α} (h : Answered Calls Answer (xs ++ ys)) :
    Answered Calls Answer ys := by
  induction xs with
  | nil => exact h
  | cons x xs ih => exact ih h.2

lemma answered_of_quiet {xs : List α} (h : ∀ x ∈ xs, ¬ Calls x) : Answered Calls Answer xs := by
  induction xs with
  | nil => trivial
  | cons x xs ih =>
    exact ⟨fun hx => absurd hx (h x (by simp)), ih fun y hy => h y (by simp [hy])⟩

lemma answered_pair {x y : α} (hxy : Answer x y) (hy : ¬ Calls y) :
    Answered Calls Answer [x, y] :=
  ⟨fun _ => ⟨y, rfl, hxy⟩, fun h => absurd h hy, trivial⟩

end

/-! ### Events -/

def Terminal (e : Event) : Prop := e.type = .done ∨ e.type = .error

/-- Every tool call is followed at once by its result. -/
def Paired : List Event → Prop :=
  Answered (fun e => e.type = .toolCall) fun e r => r.type = .toolResult ∧ r.toolID = e.toolID

/-- The ids of the tools that were called. -/
def called (es : List Event) : List String :=
  (es.filter fun e => e.type = .toolCall).map Event.toolID

lemma called_append (xs ys : List Event) : called (xs ++ ys) = called xs ++ called ys := by
  unfold called
  rw [List.filter_append, List.map_append]

lemma streamed_type {evs : List StreamEvent} {e : Event} (h : e ∈ evs.flatMap streamed) :
    e.type = .text ∨ e.type = .toolCallStarted := by
  obtain ⟨ev, -, hev⟩ := List.mem_flatMap.mp h
  unfold streamed at hev
  split at hev <;> simp_all

lemma called_streamed (evs : List StreamEvent) : called (evs.flatMap streamed) = [] := by
  unfold called
  rw [List.map_eq_nil_iff, List.filter_eq_nil_iff]
  intro e he
  rcases streamed_type he with h | h <;> simp [h]

/-! ### Results -/

/-- The tool of the block was asked and said `r`, or there is no such tool. -/
def Gave (a : Agent) (log : List (Exchange (List Event) Query Reply)) (block : ContentBlock)
    (r : Except String String) : Prop :=
  (∃ mem, ⟨mem, .call block.toolName block.toolInput, r⟩ ∈ log) ∨
    (∀ t ∈ a.tools, t.name ≠ block.toolName) ∧
      r = .error ("unknown tool: " ++ block.toolName)

/-- The blocks are the results of the tool calls, in order and with their ids. -/
def Answers (a : Agent) (log : List (Exchange (List Event) Query Reply)) (uses : List ContentBlock)
    (results : List ContentBlock) : Prop :=
  List.Forall₂ (fun use b => ∃ r, Gave a log use r ∧ b = resultBlock use r) uses results

/-- Pairs of a reply and the results of its tool calls. -/
inductive Rounds (a : Agent) (log : List (Exchange (List Event) Query Reply)) :
    List Message → Prop
  | nil : Rounds a log []
  | snoc {ms : List Message} {reply : AssistantMessage} {results : List ContentBlock}
      (before : Rounds a log ms) (answers : Answers a log reply.1.toolUses results) :
      Rounds a log (ms ++ [reply.1, newUserMessage results])

variable {a : Agent} {ctx : RunCtx} {model : String} {system : List SystemBlock}
  {log log' : List (Exchange (List Event) Query Reply)}

lemma Gave.mono {block : ContentBlock} {r : Except String String} (hlog : log ⊆ log')
    (h : Gave a log block r) : Gave a log' block r := by
  rcases h with ⟨mem, hmem⟩ | h
  · exact Or.inl ⟨mem, hlog hmem⟩
  · exact Or.inr h

lemma Answers.mono {uses results : List ContentBlock} (hlog : log ⊆ log')
    (h : Answers a log uses results) : Answers a log' uses results :=
  List.Forall₂.imp (fun _ _ hr => hr.imp fun _ hg => ⟨hg.1.mono hlog, hg.2⟩) h

lemma Rounds.mono {ms : List Message} (hlog : log ⊆ log') (h : Rounds a log ms) :
    Rounds a log' ms := by
  induction h with
  | nil => exact .nil
  | snoc _ answers ih => exact .snoc ih (answers.mono hlog)

/-! ### The tools of a reply -/

def IsRequest (q : Query) : Prop := ∃ params, q = .runStream params

/-- What the loop over the blocks of a reply adds to the world. -/
structure Called (a : Agent) (blocks : List ContentBlock) (w w' : RunWorld)
    (results : List ContentBlock) : Prop where
  events : ∃ es, w'.mem = w.mem ++ es ∧ Paired es ∧ (∀ e ∈ es, ¬ Terminal e) ∧
    called es = (blocks.filter isToolUse).map ContentBlock.toolID
  log : ∃ l, w'.log = w.log ++ l ∧ ∀ e ∈ l, ¬ IsRequest e.query
  answers : Answers a w'.log (blocks.filter isToolUse) results

lemma wp_callTool {block : ContentBlock} {w : RunWorld}
    {T : Except String String → RunWorld → Prop} {F : Empty → RunWorld → Prop}
    (h : ∀ r l, (∀ e ∈ l, ¬ IsRequest e.query) → Gave a (w.log ++ l) block r →
      T r ⟨w.mem, w.log ++ l⟩) : (callTool a block.toolName block.toolInput).wp T F w := by
  by_cases hname : a.tools.any fun t => t.name = block.toolName
  · rw [show callTool a block.toolName block.toolInput = ask (.call _ _) from if_pos hname]
    intro r
    refine h r [⟨w.mem, .call block.toolName block.toolInput, r⟩] ?_ ?_
    · simp [IsRequest]
    · exact Or.inl ⟨w.mem, by simp⟩
  · rw [show callTool a block.toolName block.toolInput = pure _ from if_neg hname]
    have hgave : Gave a (w.log ++ []) block (.error ("unknown tool: " ++ block.toolName)) :=
      Or.inr ⟨fun t ht heq => hname (by simpa using ⟨t, ht, heq⟩), rfl⟩
    simpa using h _ [] (by simp) hgave

lemma called_nil (w : RunWorld) : Called a [] w w [] :=
  ⟨⟨[], (List.append_nil _).symm, trivial, by simp, rfl⟩, ⟨[], (List.append_nil _).symm, by simp⟩,
    .nil⟩

lemma Called.text {block : ContentBlock} {blocks results : List ContentBlock} {w w' : RunWorld}
    (hblock : block.type ≠ .toolUse) (h : Called a blocks w w' results) :
    Called a (block :: blocks) w w' results := by
  have hfilter : (block :: blocks).filter isToolUse = blocks.filter isToolUse :=
    List.filter_cons_of_neg (by simpa [isToolUse] using hblock)
  exact ⟨by rw [hfilter]; exact h.events, h.log, by rw [hfilter]; exact h.answers⟩

lemma Called.cons {block : ContentBlock} {blocks results : List ContentBlock} {w w' : RunWorld}
    {r : Except String String} {l : List (Exchange (List Event) Query Reply)}
    (hblock : block.type = .toolUse) (hl : ∀ e ∈ l, ¬ IsRequest e.query)
    (hgave : Gave a (w.log ++ l) block r)
    (h : Called a blocks ⟨w.mem ++ [callEvent block, resultEvent block r], w.log ++ l⟩ w' results) :
    Called a (block :: blocks) w w' (resultBlock block r :: results) := by
  have hfilter : (block :: blocks).filter isToolUse = block :: blocks.filter isToolUse :=
    List.filter_cons_of_pos (by simpa [isToolUse] using hblock)
  obtain ⟨⟨es, hmem, hpaired, hongoing, hcalled⟩, ⟨l', hlog, hl'⟩, hanswers⟩ := h
  refine ⟨⟨[callEvent block, resultEvent block r] ++ es, by simp [hmem], ?_, ?_, ?_⟩,
    ⟨l ++ l', by simp [hlog], ?_⟩, ?_⟩
  · exact answered_append (answered_pair ⟨rfl, rfl⟩ (by simp [resultEvent])) hpaired
  · simpa [Terminal, callEvent, resultEvent] using hongoing
  · rw [called_append, hcalled, hfilter]
    simp [called, callEvent, resultEvent]
  · intro e he
    rcases List.mem_append.mp he with he | he
    · exact hl e he
    · exact hl' e he
  · rw [hfilter]
    exact .cons ⟨r, hgave.mono (by rw [hlog]; exact List.subset_append_left _ _), rfl⟩ hanswers

lemma wp_callTools {F : Empty → RunWorld → Prop} (blocks acc : List ContentBlock) (w : RunWorld) :
    (callTools a blocks acc).wp
      (fun out w' => ∃ results, out = acc ++ results ∧ Called a blocks w w' results) F w := by
  induction blocks generalizing acc w with
  | nil => exact ⟨[], (List.append_nil _).symm, called_nil w⟩
  | cons block blocks ih =>
    unfold callTools
    split
    · rename_i hblock
      refine Proc.wp_mono ?_ (fun _ _ h => h) (ih acc w)
      rintro out w' ⟨results, rfl, hcalled⟩
      exact ⟨results, rfl, hcalled.text hblock⟩
    · rename_i hblock
      simp only [emit, Proc.wp_bind, Proc.wp_modify]
      refine wp_callTool fun r l hl hgave => ?_
      refine Proc.wp_mono ?_ (fun _ _ h => h) (ih _ _)
      rintro out w' ⟨results, rfl, hcalled⟩
      refine ⟨resultBlock block r :: results, by simp, ?_⟩
      refine Called.cons (not_not.mp hblock) hl hgave ?_
      simpa [List.append_assoc] using hcalled

/-! ### Rounds -/

def emitted (w : RunWorld) (e : Event) : RunWorld := ⟨w.mem ++ [e], w.log⟩

/-- The world after the model has been asked. -/
def heard (w : RunWorld) (params : RunParams) (answer : Streamed) : RunWorld :=
  ⟨w.mem ++ answer.1.flatMap streamed, w.log ++ [⟨w.mem, .runStream params, answer⟩]⟩

def recorded (w : RunWorld) (ctx : RunCtx) (model : String) (usage : Usage) : RunWorld :=
  ⟨w.mem, w.log ++ [⟨w.mem, .record ctx.conversationID ctx.weekID model usage, ()⟩]⟩

def params (a : Agent) (model : String) (system : List SystemBlock) (msgs : List Message) :
    RunParams := ⟨model, defaultMaxTok, system, a.tools, msgs⟩

lemma wp_runStream {p : RunParams} {w : RunWorld} {T : Except String RunResult → RunWorld → Prop}
    {F : Empty → RunWorld → Prop} (h : ∀ answer, T answer.2 (heard w p answer)) :
    (runStream p).wp T F w := fun answer => h answer

lemma wp_record {usage : Usage} {w : RunWorld} {T : Unit → RunWorld → Prop}
    {F : Empty → RunWorld → Prop} (h : T () (recorded w ctx model usage)) :
    (record ctx model usage).wp T F w := fun _ => h

/-- All that a round can do. -/
lemma wp_iterate {n : ℕ} {msgs : List Message} {w : RunWorld} {T : Outcome → RunWorld → Prop}
    {F : Empty → RunWorld → Prop}
    (failed : ∀ evs err, T (msgs, some err)
      (emitted (heard w (params a model system msgs) (evs, .error err)) (errorEvent err)))
    (replied : ∀ evs result results w',
      Called a result.assistantMessage.1.content
        (recorded (heard w (params a model system msgs) (evs, .ok result)) ctx model result.usage)
        w' results →
      (result.stopReason ≠ .toolUse →
        T (msgs ++ [result.assistantMessage.1], none) (emitted w' { type := .done })) ∧
      (result.stopReason = .toolUse → results = [] →
        T (msgs ++ [result.assistantMessage.1], some "empty tool batch") (emitted w'
          (errorEvent "model requested tool use but emitted no tool blocks"))) ∧
      (result.stopReason = .toolUse → results ≠ [] →
        (iterate a ctx model system n
          (msgs ++ [result.assistantMessage.1, newUserMessage results])).wp T F w')) :
    (iterate a ctx model system (n + 1) msgs).wp T F w := by
  unfold iterate
  refine (Proc.wp_bind _ _).mpr (wp_runStream fun answer => ?_)
  obtain ⟨evs, outcome⟩ := answer
  cases outcome with
  | error err => exact failed evs err
  | ok result =>
    refine (Proc.wp_bind _ _).mpr (wp_record ?_)
    refine (Proc.wp_bind _ _).mpr ?_
    refine Proc.wp_mono ?_ (fun _ _ h => h) (wp_callTools _ [] _)
    rintro results w' ⟨_, rfl, hcalled⟩
    obtain ⟨hdone, hempty, hnext⟩ := replied evs result results w' hcalled
    by_cases hstop : result.stopReason = .toolUse
    · by_cases hres : results = []
      · simpa [hstop, hres, emit, emitted] using hempty hstop hres
      · simpa [hstop, hres] using hnext hstop hres
    · simpa [hstop, emit, emitted] using hdone hstop

lemma wp_buildSystemBlocks {w : RunWorld} {T : List SystemBlock → RunWorld → Prop}
    {F : Empty → RunWorld → Prop}
    (h : ∀ blocks l, (∀ e ∈ l, ¬ IsRequest e.query) → T blocks ⟨w.mem, w.log ++ l⟩) :
    (buildSystemBlocks a ctx).wp T F w := by
  unfold buildSystemBlocks languageBlock currentPlanBlock
  split
  · exact fun lang => h _ [_] (by simp [IsRequest])
  · intro lang plan
    rw [List.append_assoc]
    exact h _ [_, _] (by simp [IsRequest])

lemma wp_resolveProvider {w : RunWorld} {T : Except String String → RunWorld → Prop}
    {F : Empty → RunWorld → Prop}
    (h : ∀ r, T r ⟨w.mem, w.log ++ [⟨w.mem, .resolveProvider, r⟩]⟩) :
    resolveProvider.wp T F w := fun r => h r

/-- A run ends at once or comes to the loop. -/
lemma wp_run {history : List Message} {userMessage : String} {T : Outcome → RunWorld → Prop}
    {F : Empty → RunWorld → Prop}
    (failed : ∀ err l, (∀ e ∈ l, ¬ IsRequest e.query) →
      T (asked history userMessage, some err) (emitted ⟨[], l⟩ (errorEvent err)))
    (loop : ∀ model system l, (∀ e ∈ l, ¬ IsRequest e.query) →
      (iterate a ctx model system a.cfg.maxIters.toNat (asked history userMessage)).wp T F
        ⟨[], l⟩) :
    (run a ctx history userMessage).wp T F ⟨[], []⟩ := by
  unfold run
  refine (Proc.wp_bind _ _).mpr (wp_resolveProvider fun r => ?_)
  cases r with
  | error err => exact failed err [_] (by simp [IsRequest])
  | ok model =>
    refine (Proc.wp_bind _ _).mpr (wp_buildSystemBlocks fun system l hl => ?_)
    exact loop model system (_ :: l) (by simpa [IsRequest] using hl)

/-! ### The invariant -/

/-- The requests so far, and a run that has not ended. -/
structure Going (a : Agent) (base : List Message) (w : RunWorld) : Prop where
  requests : ∀ e ∈ w.log, ∀ p, e.query = .runStream p →
    ∃ pairs, Rounds a w.log pairs ∧ p.messages = base ++ pairs
  paired : Paired w.mem
  ongoing : ∀ e ∈ w.mem, ¬ Terminal e

variable {base : List Message} {w w' : RunWorld}

lemma Going.step {es : List Event} {l : List (Exchange (List Event) Query Reply)}
    (h : Going a base w) (hmem : w'.mem = w.mem ++ es) (hlog : w'.log = w.log ++ l)
    (hpaired : Paired es) (hongoing : ∀ e ∈ es, ¬ Terminal e)
    (hl : ∀ e ∈ l, ∀ p, e.query = .runStream p →
      ∃ pairs, Rounds a w.log pairs ∧ p.messages = base ++ pairs) : Going a base w' := by
  have hsub : w.log ⊆ w'.log := by
    rw [hlog]
    exact List.subset_append_left _ _
  refine ⟨fun e he p hp => ?_, ?_, fun e he => ?_⟩
  · have hold : ∃ pairs, Rounds a w.log pairs ∧ p.messages = base ++ pairs := by
      rw [hlog, List.mem_append] at he
      rcases he with he | he
      · exact h.requests e he p hp
      · exact hl e he p hp
    obtain ⟨pairs, hpairs, hbase⟩ := hold
    exact ⟨pairs, hpairs.mono hsub, hbase⟩
  · rw [hmem]
    exact answered_append h.paired hpaired
  · rw [hmem, List.mem_append] at he
    rcases he with he | he
    · exact h.ongoing e he
    · exact hongoing e he

/-- A question that is not put to the model. -/
lemma Going.ask {e : Exchange (List Event) Query Reply} (h : Going a base w)
    (he : ¬ IsRequest e.query) : Going a base ⟨w.mem, w.log ++ [e]⟩ :=
  h.step (List.append_nil _).symm rfl trivial (by simp) fun e' he' p hp =>
    absurd ⟨p, by rw [List.mem_singleton.mp he'] at hp; exact hp⟩ he

lemma Going.heard {pairs : List Message} (h : Going a base w) (hpairs : Rounds a w.log pairs)
    (answer : Streamed) :
    Going a base (heard w (params a model system (base ++ pairs)) answer) := by
  refine h.step rfl rfl (answered_of_quiet ?_) ?_ ?_
  · intro e he
    rcases streamed_type he with h | h <;> simp [h]
  · intro e he
    rcases streamed_type he with h | h <;> simp [Terminal, h]
  · intro e he p hp
    rw [List.mem_singleton.mp he] at hp
    exact ⟨pairs, hpairs, by cases hp; rfl⟩

lemma Going.recorded (h : Going a base w) (usage : Usage) :
    Going a base (recorded w ctx model usage) := h.ask (by simp [IsRequest])

lemma Going.called {blocks results : List ContentBlock} (h : Going a base w)
    (hcalled : Called a blocks w w' results) : Going a base w' := by
  obtain ⟨es, hmem, hpaired, hongoing, -⟩ := hcalled.events
  obtain ⟨l, hlog, hl⟩ := hcalled.log
  exact h.step hmem hlog hpaired hongoing fun e he p hp => absurd ⟨p, hp⟩ (hl e he)

/-- The requests of a run that has ended, and its events. -/
structure Ended (a : Agent) (base : List Message) (w : RunWorld) : Prop where
  requests : ∀ e ∈ w.log, ∀ p, e.query = .runStream p →
    ∃ pairs, Rounds a w.log pairs ∧ p.messages = base ++ pairs
  paired : Paired w.mem
  last : ∃ es e, w.mem = es ++ [e] ∧ Terminal e ∧ ∀ e' ∈ es, ¬ Terminal e'

lemma Going.emitted {e : Event} (h : Going a base w) (he : Terminal e) :
    Ended a base (emitted w e) := by
  refine ⟨h.requests, answered_append h.paired (answered_of_quiet ?_), w.mem, e, rfl, he, h.ongoing⟩
  rintro e' he'
  rw [List.mem_singleton.mp he']
  rcases he with he | he <;> simp [he]

lemma terminal_error (err : String) : Terminal (errorEvent err) := Or.inr rfl

lemma Going.iterate {n : ℕ} {msgs pairs : List Message} {F : Empty → RunWorld → Prop}
    (h : Going a base w) (hpairs : Rounds a w.log pairs) (hmsgs : msgs = base ++ pairs) :
    (iterate a ctx model system n msgs).wp (fun _ => Ended a base) F w := by
  induction n generalizing msgs pairs w with
  | zero => exact h.emitted (terminal_error _)
  | succ n ih =>
    subst hmsgs
    refine wp_iterate (fun evs err => (h.heard hpairs _).emitted (terminal_error _)) ?_
    intro evs result results w' hcalled
    have hgoing : Going a base w' := ((h.heard hpairs _).recorded _).called hcalled
    refine ⟨fun _ => hgoing.emitted (Or.inl rfl), fun _ _ => hgoing.emitted (terminal_error _),
      fun _ _ => ?_⟩
    have hsub : w.log ⊆ w'.log := by
      obtain ⟨l, hlog, -⟩ := hcalled.log
      rw [hlog]
      simp [Dialogue.recorded, Dialogue.heard]
    exact ih hgoing (.snoc (hpairs.mono hsub) hcalled.answers) (List.append_assoc _ _ _)

lemma going_start {l : List (Exchange (List Event) Query Reply)}
    (hl : ∀ e ∈ l, ¬ IsRequest e.query) : Going a base ⟨[], l⟩ :=
  ⟨fun e he p hp => absurd ⟨p, hp⟩ (hl e he), trivial, by simp⟩

lemma wp_run_ended (a : Agent) (ctx : RunCtx) (history : List Message) (userMessage : String) :
    (run a ctx history userMessage).wp (fun _ => Ended a (asked history userMessage))
      (fun _ _ => True) ⟨[], []⟩ := by
  refine wp_run (fun err l hl => (going_start hl).emitted (terminal_error _)) ?_
  intro model system l hl
  exact (going_start hl).iterate .nil (List.append_nil _).symm

/-- **Every request is the history and rounds of replies with their results**, and the run's events
are calls with their results and one end. -/
theorem run_dialogue (a : Agent) (ctx : RunCtx) (history : List Message) (userMessage : String)
    (ans : ℕ → (q : Query) → Reply q) :
    Ended a (asked history userMessage)
      ((run a ctx history userMessage).run ans ⟨[], []⟩).2 := by
  have h := Proc.wp_run (wp_run_ended a ctx history userMessage) ans
  rcases hrun : (run a ctx history userMessage).run ans ⟨[], []⟩ with ⟨e | out, w'⟩
  · exact e.elim
  · rw [hrun] at h
    exact h

end Veckomenyn.Dialogue
