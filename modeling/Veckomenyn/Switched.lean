import Veckomenyn.Drawer

/-!
A plan that is opened while another plan's run is still answered.

The handlers of a run go on with whatever the drawer shows, and a message can be sent before the
plan's conversation has been loaded. Where neither happens, each plan's entries are its own.
-/

namespace Veckomenyn.Switched

open Drawer

/-! ### What is claimed -/

/-- The entries after what was sent and answered. -/
def shown (base : List ChatEntry) (acts : List Act) : View :=
  acts.foldl View.act ⟨base, none, fun _ => none⟩

/-- A plan's entries are those loaded for it and what was sent and answered there, and no message of
a plan went to another plan's conversation. -/
structure Separate (s : Main) : Prop where
  entries : ∀ b, s.base = some b → s.view.entries = (shown b s.acts).entries
  sends : ∀ w c, (some w, some c) ∈ s.sends → c.plan = some w

/-- The event changes the entries whatever they are. -/
def Touches (ev : AgentEvent) : Prop :=
  ev.type = .text ∧ ev.text ≠ "" ∨ ev.type = .toolCall ∨ ev.type = .error ∨ ev.type = .cancelled

/-- The run's plan is shown, or no plan whose conversation has been loaded. -/
def Welcome (s : Main) : Prop := ∀ st ∈ s.stream, st.here = true ∨ s.base = none

/-- A run's answers find their own plan, and messages are sent after the plan's conversation has been
loaded. -/
def Heeds (s : Main) : Step → Prop
  | .send _ => s.busy = false → s.week ≠ none → s.base ≠ none
  | .onMeta _ => (∃ st ∈ s.stream, st.conversation = none) → Welcome s
  | .onEvent ev => Touches ev → Welcome s
  | .finish .done => True
  | .finish _ => Welcome s
  | _ => True

def AllHeed : Main → List Step → Prop
  | _, [] => True
  | s, x :: xs => Heeds s x ∧ AllHeed (step s x) xs

/-! ### The invariant -/

def IsTool (e : ChatEntry) : Prop := ∃ name input result isError, e = .tool name input result isError

structure Inv (s : Main) : Prop where
  busy : s.busy = s.stream.isSome
  loading : s.loading = true → s.base = none ∧ s.week ≠ none
  waiting : s.base = none → s.week ≠ none → s.acts = []
  entries : ∀ b, s.base = some b → s.view.entries = (shown b s.acts).entries
  here : ∀ st ∈ s.stream, st.here = true → st.plan = s.week ∧ (s.week ≠ none → s.base ≠ none) ∧
    ∀ b, s.base = some b → s.view = shown b s.acts
  away : ∀ st ∈ s.stream, st.here = false → ∀ b, s.base = some b →
    s.acts = [] ∧ ∀ e ∈ b, ¬ IsTool e
  conversation : ∀ c, s.conversationID = some c → s.base ≠ none → c.plan = s.week
  sends : ∀ w c, (some w, some c) ∈ s.sends → c.plan = some w

lemma inv_start : Inv start := by
  refine ⟨rfl, ?_, ?_, ?_, ?_, ?_, ?_, ?_⟩ <;> simp [start]

lemma shown_snoc (b : List ChatEntry) (acts : List Act) (act : Act) :
    shown b (acts ++ [act]) = (shown b acts).act act := by
  unfold shown
  rw [List.foldl_append, List.foldl_cons, List.foldl_nil]

/-- A result without a card changes nothing. -/
lemma entries_quiet {v : View} {ev : AgentEvent} (hquiet : ¬ Touches ev)
    (htools : ∀ e ∈ v.entries, ¬ IsTool e) : (applyAgentEvent v ev).entries = v.entries := by
  unfold Touches at hquiet
  unfold applyAgentEvent
  cases htype : ev.type with
  | text =>
    have hempty : ev.text = "" := by simpa [htype] using hquiet
    simp [hempty]
  | toolResult =>
    simp only
    split
    · rfl
    · split
      · next idx name input result isError hfound =>
        obtain ⟨i, -, hi⟩ := Option.bind_eq_some_iff.mp hfound
        obtain ⟨e, he, hpair⟩ := Option.map_eq_some_iff.mp hi
        cases hpair
        exact absurd ⟨name, input, result, isError, rfl⟩ (htools _ (List.mem_of_getElem? he))
      · rfl
  | toolCallStarted => rfl
  | done => rfl
  | toolCall => simp [htype] at hquiet
  | error => simp [htype] at hquiet
  | cancelled => simp [htype] at hquiet

variable {s : Main}

/-! ### Steps -/

lemma Inv.switch (h : Inv s) (week : Option ℤ) : Inv (switch s week) := by
  unfold Drawer.switch
  split
  · exact h
  · have hbusy : s.busy = (s.stream.map fun st => { st with here := false }).isSome := by
      rw [h.busy, Option.isSome_map]
    have haway : ∀ st ∈ s.stream.map fun st => { st with here := false }, st.here = false := by
      intro st hst
      obtain ⟨st', -, rfl⟩ := Option.map_eq_some_iff.mp hst
      rfl
    simp only
    split
    · next hweek =>
      subst hweek
      refine ⟨hbusy, by simp, fun _ _ => rfl, by simp, fun st hst hhere => ?_, by simp, by simp,
        h.sends⟩
      exact absurd (haway st hst) (by simp [hhere])
    · next hweek =>
      refine ⟨hbusy, fun _ => ⟨rfl, hweek⟩, fun _ _ => rfl, by simp, fun st hst hhere => ?_, by simp,
        by simp, h.sends⟩
      exact absurd (haway st hst) (by simp [hhere])

lemma entryOf_not_tool (m : Stored) : ¬ IsTool (entryOf m) := by
  rintro ⟨name, input, result, isError, h⟩
  unfold entryOf at h
  split at h <;> cases h

lemma Inv.loaded (h : Inv s) (res : Option (ℤ × List Stored)) : Inv (loaded s res) := by
  unfold Drawer.loaded
  split
  · next hloading =>
    obtain ⟨hbase, hweek⟩ := h.loading hloading
    have hacts : s.acts = [] := h.waiting hbase hweek
    refine ⟨h.busy, by simp, by simp, ?_, fun st hst hhere => ?_, fun st hst _ b hb => ⟨hacts, ?_⟩,
      fun c hc _ => ?_, h.sends⟩
    · intro b hb
      cases hb
      simp only [hacts]
      rfl
    · exact absurd hbase ((h.here st hst hhere).2.1 hweek)
    · cases hb
      cases res with
      | none => simp
      | some r => simpa using fun m _ => entryOf_not_tool m
    · obtain ⟨r, -, rfl⟩ := Option.map_eq_some_iff.mp hc
      rfl
  · exact h

lemma Inv.send {message : String} (h : Inv s) (hheeds : Heeds s (.send message)) :
    Inv (send s message) := by
  unfold Drawer.send
  split
  · exact h
  · next hbusy =>
    have hidle : s.busy = false := by simpa using hbusy
    have hview (b : List ChatEntry) (hb : s.base = some b) :
        s.view.act (.user message) = shown b (s.acts ++ [.user message]) := by
      rw [shown_snoc]
      unfold View.act
      rw [h.entries b hb]
    refine ⟨rfl, h.loading, fun hbase hweek => absurd hbase (hheeds hidle hweek), ?_, ?_, ?_,
      h.conversation, ?_⟩
    · exact fun b hb => congrArg View.entries (hview b hb)
    · intro st hst _
      cases hst
      exact ⟨rfl, hheeds hidle, hview⟩
    · intro st hst hhere
      cases hst
      cases hhere
    · intro w c hmem
      rcases List.mem_append.mp hmem with hmem | hmem
      · exact h.sends w c hmem
      · obtain ⟨hw, hc⟩ := Prod.mk.inj (List.mem_singleton.mp hmem)
        have hbase : s.base ≠ none := hheeds hidle (by simp [← hw])
        exact (h.conversation c hc.symm hbase).trans hw.symm

lemma Inv.onMeta {id : ℤ} (h : Inv s) (hheeds : Heeds s (.onMeta id)) : Inv (onMeta s id) := by
  unfold Drawer.onMeta
  split
  · next plan here hst =>
    refine ⟨h.busy, h.loading, h.waiting, h.entries, h.here, h.away, fun c hc hbase => ?_, h.sends⟩
    cases hc
    rcases hheeds ⟨_, hst, rfl⟩ _ hst with hhere | hnone
    · exact (h.here _ hst hhere).1
    · exact absurd hnone hbase
  · exact h

/-- An answer finds its own plan, or nothing that matters. -/
lemma Inv.answer {st : Stream} {act : Act} (h : Inv s) (hst : st ∈ s.stream)
    (hquiet : st.here = false → ∀ b, s.base = some b → (s.view.act act).entries = s.view.entries) :
    Inv (answer s st act) := by
  unfold Drawer.answer
  rcases hhere : st.here with _ | _
  · refine ⟨h.busy, h.loading, h.waiting, fun b hb => ?_, fun st' hst' hhere' => ?_, h.away,
      h.conversation, h.sends⟩
    · exact (hquiet hhere b hb).trans (h.entries b hb)
    · obtain rfl : st = st' := Option.some.inj (hst.symm.trans hst')
      exact absurd hhere' (by simp [hhere])
  · obtain ⟨hplan, hbase, hview⟩ := h.here st hst hhere
    have hact (b : List ChatEntry) (hb : s.base = some b) :
        s.view.act act = shown b (s.acts ++ [act]) := by
      rw [shown_snoc, hview b hb]
    refine ⟨h.busy, h.loading, fun hnone hweek => absurd hnone (hbase hweek),
      fun b hb => congrArg View.entries (hact b hb), fun st' hst' _ => ?_, fun st' hst' hhere' => ?_,
      h.conversation, h.sends⟩
    · obtain rfl : st = st' := Option.some.inj (hst.symm.trans hst')
      exact ⟨hplan, hbase, hact⟩
    · obtain rfl : st = st' := Option.some.inj (hst.symm.trans hst')
      exact absurd hhere' (by simp [hhere])

lemma Inv.onEvent {ev : AgentEvent} (h : Inv s) (hheeds : Heeds s (.onEvent ev)) :
    Inv (onEvent s ev) := by
  unfold Drawer.onEvent
  split
  · next st hst =>
    refine h.answer hst fun hhere b hb => ?_
    by_cases htouch : Touches ev
    · rcases hheeds htouch st hst with hhere' | hnone
      · exact absurd hhere' (by simp [hhere])
      · exact absurd (hnone.symm.trans hb) (by simp)
    · -- the plan that is shown has no cards
      obtain ⟨hacts, htools⟩ := h.away st hst hhere b hb
      have hentries : s.view.entries = b := by
        rw [h.entries b hb, hacts]
        rfl
      exact entries_quiet htouch (by rw [hentries]; exact htools)
  · exact h

lemma Inv.ended (h : Inv s) : Inv { s with busy := false, stream := none } :=
  ⟨rfl, h.loading, h.waiting, h.entries, by simp, by simp, h.conversation, h.sends⟩

lemma Inv.finish {outcome : Outcome} (h : Inv s) (hheeds : Heeds s (.finish outcome)) :
    Inv (finish s outcome) := by
  unfold Drawer.finish
  split
  · next st hst =>
    have hquiet (act : Act) (hwelcome : Welcome s) : st.here = false → ∀ b, s.base = some b →
        (s.view.act act).entries = s.view.entries := by
      intro hhere b hb
      rcases hwelcome st hst with hhere' | hnone
      · exact absurd hhere' (by simp [hhere])
      · exact absurd (hnone.symm.trans hb) (by simp)
    cases outcome with
    | done => exact h.ended
    | aborted => exact (h.answer hst (hquiet _ hheeds)).ended
    | failed message => exact (h.answer hst (hquiet _ hheeds)).ended
  · exact h

/-! ### Runs -/

lemma Inv.step {x : Step} (h : Inv s) (hx : Heeds s x) : Inv (step s x) := by
  cases x with
  | switch week => exact h.switch week
  | loaded res => exact h.loaded res
  | send message => exact h.send hx
  | onMeta id => exact h.onMeta hx
  | onEvent ev => exact h.onEvent hx
  | finish outcome => exact h.finish hx

lemma Inv.run {steps : List Step} (h : Inv s) (hheed : AllHeed s steps) : Inv (run s steps) := by
  induction steps generalizing s with
  | nil => exact h
  | cons x steps ih => exact ih (h.step hheed.1) hheed.2

/-- **Each plan's chat is its own**, in a run in which answers find their own plan and messages wait
for the plan's conversation. -/
theorem separate_run (steps : List Step) (hheed : AllHeed start steps) :
    Separate (run start steps) :=
  ⟨(inv_start.run hheed).entries, (inv_start.run hheed).sends⟩

/-! ### A run that is answered elsewhere -/

/-- A turn in one plan's chat, then one in another's. -/
def inTurn : List Step :=
  [.switch (some 1), .loaded none, .send "Planera veckan", .onMeta 5,
    .onEvent { type := .text, text := "Klart!" }, .finish .done, .switch (some 2),
    .loaded (some (7, [⟨true, "Mindre fisk"⟩])), .send "Och mer soppa", .onMeta 7,
    .onEvent { type := .toolCall, tool := "add_dinner", toolID := "call_1" },
    .onEvent { type := .toolResult, tool := "add_dinner", toolID := "call_1", result := some "id=3" }]

lemma inTurn_heeds : AllHeed start inTurn := by
  have hwelcome {s : Main} {st : Stream} (hst : s.stream = some st) (hhere : st.here = true) :
      Welcome s := by
    intro st' hst'
    obtain rfl : st = st' := Option.some.inj (hst.symm.trans hst')
    exact Or.inl hhere
  refine ⟨trivial, trivial, ?_, fun _ => hwelcome rfl rfl, fun _ => hwelcome rfl rfl, trivial,
    trivial, trivial, ?_, fun _ => hwelcome rfl rfl, fun _ => hwelcome rfl rfl,
    fun _ => hwelcome rfl rfl, trivial⟩
  · exact fun _ _ => Option.some_ne_none _
  · exact fun _ _ => Option.some_ne_none _

theorem separate_inTurn : Separate (run start inTurn) := separate_run inTurn inTurn_heeds

/-- The other plan is opened while the run is still answered. -/
def early : List Step :=
  [.switch (some 1), .loaded none, .send "Planera veckan", .switch (some 2),
    .loaded (some (7, [⟨true, "Mindre fisk"⟩])), .onEvent { type := .text, text := "Klart!" }]

/-- The run's conversation is made known after the other plan has been opened. -/
def lateMeta : List Step :=
  [.switch (some 1), .loaded none, .send "Planera veckan", .switch (some 2), .loaded none, .onMeta 5,
    .finish .done, .send "Mindre fisk"]

/-- The answer is shown in the other plan's chat, and the other plan's message goes to the run's
conversation. -/
theorem not_separate : ¬ Separate (run start early) ∧ ¬ Separate (run start lateMeta) := by
  constructor
  · intro h
    have hentries : [ChatEntry.user "Mindre fisk", .assistant "Klart!"] =
        [.user "Mindre fisk"] := h.entries _ rfl
    exact absurd hentries (by decide)
  · intro h
    have hsends : (run start lateMeta).sends = [(some 1, none), (some 2, some ⟨5, some 1⟩)] := rfl
    have hplan : some (1 : ℤ) = some 2 := h.sends 2 ⟨5, some 1⟩ (by simp [hsends])
    exact absurd hplan (by decide)

end Veckomenyn.Switched
