import Veckomenyn.Conversations

/-!
One chat, one plan.

A request that names a conversation is given that one, whichever plan it belongs to. When requests
name only conversations of their own plan, no plan's messages come to another plan's chat.
-/

namespace Veckomenyn.OnePlan

open Rows Llm AgentRun Conversations

/-! ### What is claimed -/

/-- A request for a plan was handed messages of that plan's requests only, and its conversation is
attached to that plan. -/
def Isolated (served : List Served) : Prop :=
  ∀ pre s post, served = pre ++ s :: post → ∀ w, s.req.weekID = some w →
    (∀ m ∈ s.loaded, replay m ≠ none → ∃ s' ∈ pre, s'.req.weekID = some w ∧ m.id ∈ s'.saved) ∧
      s.attached = some w

/-- The plan is one there can be, and a conversation the request names belongs to it. -/
def Fits (d : ChatDb) (req : ChatRequest) : Prop :=
  (∀ w, req.weekID = some w → 0 < w) ∧
    ∀ id, req.conversationID = some id → 0 < id →
      ∀ c, d.conversations.find? id = some c → c.weekId = req.weekID

def StepFits (d : ChatDb) : Step → Prop
  | .chat _ req => Fits d req
  | _ => True

variable (a : Agent)

def runSteps (s : State) (steps : List Step) : State := steps.foldl (State.step a) s

/-- Every request of the run fits the database it finds. -/
def AllFit : State → List Step → Prop
  | _, [] => True
  | s, x :: xs => StepFits s.db x ∧ AllFit (s.step a x) xs

/-! ### The invariant -/

/-- The messages of an attached conversation are of its plan's requests. -/
structure Kept (served : List Served) (d : ChatDb) : Prop where
  refs : ∀ m ∈ d.messages.rows, m.conversationId < d.conversations.next
  mine : ∀ c ∈ d.conversations.rows, ∀ w, c.weekId = some w →
    ∀ m ∈ d.messages.rows, m.conversationId = c.id →
      ∃ s ∈ served, s.req.weekID = some w ∧ m.id ∈ s.saved
  isolated : Isolated served

variable {a} {served : List Served} {d d' : ChatDb}

/-- No message is added, and no conversation is moved to a plan. -/
structure Stays (d d' : ChatDb) : Prop where
  messages : ∀ m ∈ d'.messages.rows, m ∈ d.messages.rows
  next : d.conversations.next ≤ d'.conversations.next
  conversations : ∀ c ∈ d'.conversations.rows, ∀ w, c.weekId = some w →
    (∃ c₀ ∈ d.conversations.rows, c₀.id = c.id ∧ c₀.weekId = some w) ∨
      d.conversations.next ≤ c.id

lemma Stays.refl : Stays d d :=
  ⟨fun _ h => h, le_rfl, fun c hc _ hw => Or.inl ⟨c, hc, rfl, hw⟩⟩

lemma Kept.stays (h : Kept served d) (hd : Stays d d') : Kept served d' := by
  refine ⟨fun m hm => ?_, fun c hc w hw m hm hmc => ?_, h.isolated⟩
  · exact lt_of_lt_of_le (h.refs m (hd.messages m hm)) hd.next
  · rcases hd.conversations c hc w hw with ⟨c₀, hc₀, hid, hw₀⟩ | hnew
    · exact h.mine c₀ hc₀ w hw₀ m (hd.messages m hm) (hmc.trans hid.symm)
    · have := h.refs m (hd.messages m hm)
      omega

/-! ### The conversation of a request -/

lemma stays_touch {c : Conversation} (hc : c ∈ d.conversations.rows) (now : ℤ) :
    Stays d (touch d now c) := by
  refine ⟨fun _ h => h, le_max_left _ _, fun x hx w hw => Or.inl ?_⟩
  rcases Table.mem_put.mp hx with rfl | ⟨hx, -⟩
  · exact ⟨c, hc, rfl, hw⟩
  · exact ⟨x, hx, rfl, hw⟩

lemma find?_touch {c : Conversation} (now : ℤ) :
    (touch d now c).conversations.find? c.id = some { c with updatedAt := now } := by
  unfold touch ChatDb.putConversation
  rw [Table.find?_put]
  exact if_pos rfl

lemma stays_new (c : Conversation) (hc : c.id = d.conversations.next) :
    Stays d (d.putConversation c) := by
  refine ⟨fun _ h => h, le_max_left _ _, fun x hx w hw => ?_⟩
  rcases Table.mem_put.mp hx with rfl | ⟨hx, -⟩
  · exact Or.inr hc.ge
  · exact Or.inl ⟨x, hx, rfl, hw⟩

lemma latestConversation_some {w : ℤ} {c : Conversation} (h : latestConversation d w = some c) :
    c ∈ d.conversations.rows ∧ c.weekId = some w := by
  unfold latestConversation at h
  have hmem := List.mem_of_head? h
  rw [List.mem_insertionSort, List.mem_filter] at hmem
  exact ⟨hmem.1, by simpa using hmem.2⟩

/-- The conversation a request is given is there, and belongs to the plan. -/
def Given (d' : ChatDb) (weekID : Option ℤ) (convID : ℤ) : Prop :=
  ∃ c, d'.conversations.find? convID = some c ∧ c.weekId = weekID

lemma newConversation_spec {now : ℤ} {weekId : Option ℤ} {title : List UInt8}
    {r : Except ChatError ℤ} (h : newConversation d now weekId title = (r, d')) :
    Stays d d' ∧ ∀ convID, r = .ok convID → Given d' weekId convID := by
  unfold newConversation at h
  split at h
  · cases h
    exact ⟨Stays.refl, by simp⟩
  · next t ht =>
    split at h
    · cases h
      refine ⟨stays_new _ rfl, fun convID hr => ?_⟩
      cases hr
      refine ⟨⟨d.conversations.next, weekId, t, now⟩, ?_, rfl⟩
      unfold ChatDb.putConversation
      rw [Table.find?_put]
      exact if_pos rfl
    · cases h
      exact ⟨⟨fun _ h => h, le_max_left _ _, fun c hc w hw => Or.inl ⟨c, hc, rfl, hw⟩⟩, by simp⟩

lemma ensureConversation_spec {now : ℤ} {req : ChatRequest} {r : Except ChatError ℤ}
    (hfits : Fits d req)
    (h : ensureConversation d now req.conversationID req.weekID req.message = (r, d')) :
    Stays d d' ∧ ∀ convID, r = .ok convID → Given d' req.weekID convID := by
  unfold ensureConversation at h
  split at h
  · -- a conversation is named
    rename_i id hid
    obtain ⟨hid, hpos⟩ := Option.filter_eq_some_iff.mp hid
    split at h
    · cases h
      exact ⟨Stays.refl, by simp⟩
    · next c hc =>
      cases h
      obtain ⟨hmem, rfl⟩ := Table.find?_eq_some.mp hc
      refine ⟨stays_touch hmem now, fun convID hr => ?_⟩
      cases hr
      exact ⟨_, find?_touch now, hfits.2 _ hid (by simpa using hpos) c hc⟩
  · split at h
    · -- a plan is named
      rename_i w hw
      have hweek : req.weekID = some w := (Option.filter_eq_some_iff.mp hw).1
      split at h
      · next c hc =>
        cases h
        obtain ⟨hmem, hcw⟩ := latestConversation_some hc
        refine ⟨stays_touch hmem now, fun convID hr => ?_⟩
        cases hr
        exact ⟨_, find?_touch now, hcw.trans hweek.symm⟩
      · rw [hweek]
        exact newConversation_spec h
    · -- neither
      rename_i hnone
      have hweek : req.weekID = none := by
        rcases hw : req.weekID with _ | w
        · rfl
        · rw [hw] at hnone
          exact absurd (hfits.1 w hw) (by simpa using hnone)
      rw [hweek]
      exact newConversation_spec h

/-! ### A turn -/

lemma trySave_conversations (d : ChatDb) (saved : Bool) (now convID : ℤ) (role : Role)
    (text : String) : (trySave d saved now convID role text).1.conversations = d.conversations := by
  unfold trySave saveMessage
  split <;> rfl

/-- What is added is a message of the conversation, under one of the new ids. -/
lemma mem_trySave {saved : Bool} {now convID : ℤ} {role : Role} {text : String} {m : MessageRow}
    (h : m ∈ (trySave d saved now convID role text).1.messages.rows) :
    m ∈ d.messages.rows ∨
      m.conversationId = convID ∧ m.id ∈ (trySave d saved now convID role text).2 := by
  unfold trySave saveMessage at h ⊢
  split at h
  · next hsaved =>
    rcases Table.mem_put.mp h with rfl | ⟨hm, -⟩
    · exact Or.inr ⟨rfl, by simp [hsaved]⟩
    · exact Or.inl hm
  · exact Or.inl h

lemma isolated_snoc {s : Served} (h : Isolated served)
    (hs : ∀ w, s.req.weekID = some w →
      (∀ m ∈ s.loaded, replay m ≠ none → ∃ s' ∈ served, s'.req.weekID = some w ∧ m.id ∈ s'.saved) ∧
        s.attached = some w) : Isolated (served ++ [s]) := by
  intro pre x post heq
  rcases List.eq_nil_or_concat post with rfl | ⟨post, y, rfl⟩
  · obtain ⟨rfl, hx⟩ := List.append_inj' heq rfl
    cases hx
    exact hs
  · rw [List.concat_eq_append, ← List.cons_append, ← List.append_assoc] at heq
    exact h pre x post (List.append_inj' heq rfl).1

/-- What a turn leaves when it is accepted. -/
structure Turned (d : ChatDb) (s : Served) (d'' : ChatDb) : Prop where
  middle : ∃ d', Stays d d' ∧ Given d' s.req.weekID s.convID ∧
    s.attached = (d'.conversations.find? s.convID).bind Conversation.weekId ∧
    s.loaded = messagesOf d' s.convID ∧ d''.conversations = d'.conversations ∧
    ∀ m ∈ d''.messages.rows, m ∈ d'.messages.rows ∨ m.conversationId = s.convID ∧ m.id ∈ s.saved

lemma handleChat_spec {env : Env} {req : ChatRequest} {r : Except ChatError Served}
    (hfits : Fits d req) (h : handleChat a env req d = (r, d')) :
    (∀ e, r = .error e → Stays d d') ∧ ∀ s, r = .ok s → Turned d s d' := by
  unfold handleChat at h
  split at h
  · cases h
    exact ⟨fun _ _ => Stays.refl, by simp⟩
  · split at h
    · next e d₁ hens =>
      cases h
      exact ⟨fun _ _ => (ensureConversation_spec hfits hens).1, by simp⟩
    · next convID d₁ hens =>
      obtain ⟨hstays, hgiven⟩ := ensureConversation_spec hfits hens
      cases h
      refine ⟨by simp, fun s hs => ?_⟩
      cases hs
      refine ⟨d₁, hstays, hgiven convID rfl, rfl, rfl, ?_, fun m hm => ?_⟩
      · rw [trySave_conversations, trySave_conversations]
      · rcases mem_trySave hm with hm | ⟨hc, hid⟩
        · rcases mem_trySave hm with hm | ⟨hc, hid⟩
          · exact Or.inl hm
          · exact Or.inr ⟨hc, List.mem_append_left _ hid⟩
        · exact Or.inr ⟨hc, List.mem_append_right _ hid⟩

lemma mem_messagesOf {convID : ℤ} {m : MessageRow} :
    m ∈ messagesOf d convID ↔ m ∈ d.messages.rows ∧ m.conversationId = convID := by
  unfold messagesOf
  rw [List.mem_insertionSort, List.mem_filter]
  simp

lemma Kept.turn {s : Served} (h : Kept served d) (hs : Turned d s d') :
    Kept (served ++ [s]) d' := by
  obtain ⟨d₁, hstays, ⟨c, hfound, hweek⟩, hattached, hloaded, hconv, hmessages⟩ := hs.middle
  have hkept : Kept served d₁ := h.stays hstays
  obtain ⟨hc, hid⟩ := Table.find?_eq_some.mp hfound
  have hid : c.id = s.convID := hid
  refine ⟨fun m hm => ?_, fun c' hc' w hw m hm hmc => ?_, isolated_snoc hkept.isolated ?_⟩
  · rw [hconv]
    rcases hmessages m hm with hold | ⟨hmc, -⟩
    · exact hkept.refs m hold
    · rw [hmc, ← hid]
      exact d₁.conversations.fresh c hc
  · rw [hconv] at hc'
    rcases hmessages m hm with hold | ⟨hmine, hsaved⟩
    · obtain ⟨s', hs', hs'w⟩ := hkept.mine c' hc' w hw m hold hmc
      exact ⟨s', List.mem_append_left _ hs', hs'w⟩
    · -- the messages of this turn went to the conversation it was given
      obtain rfl : c' = c :=
        d₁.conversations.key_inj hc' hc (hmc.symm.trans (hmine.trans hid.symm))
      exact ⟨s, by simp, hweek.symm.trans hw, hsaved⟩
  · intro w hw
    constructor
    · intro m hm _
      rw [hloaded] at hm
      obtain ⟨hm, hmc⟩ := mem_messagesOf.mp hm
      exact hkept.mine c hc w (hweek.trans hw) m hm (hmc.trans hid.symm)
    · rw [hattached, hfound, Option.bind_some, hweek, hw]

/-! ### Plans that go -/

lemma next_le_applyAll {α : Type} [Keyed α] (t : Table α) (ws : List (RowWrite α)) :
    t.next ≤ (t.applyAll ws).next := by
  induction ws generalizing t with
  | nil => exact le_rfl
  | cons w ws ih => exact (Table.next_le_apply t w).trans (ih _)

lemma mem_applyAll_put_of {α : Type} [Keyed α] {t : Table α} {l : List α} {x : α}
    (h : x ∈ (t.applyAll (l.map .put)).rows) : x ∈ l ∨ x ∈ t.rows := by
  induction l generalizing t with
  | nil => exact Or.inr h
  | cons r l ih =>
    rcases ih h with hx | hx
    · exact Or.inl (List.mem_cons_of_mem _ hx)
    · rcases Table.mem_put.mp hx with rfl | ⟨hx, -⟩
      · exact Or.inl List.mem_cons_self
      · exact Or.inr hx

lemma stays_deleteWeek (d : ChatDb) (now weekId : ℤ) :
    Stays d (Conversations.deleteWeek d now weekId) := by
  refine ⟨fun _ h => h, next_le_applyAll _ _, fun c hc w hw => Or.inl ?_⟩
  rcases mem_applyAll_put_of hc with hc | hc
  · obtain ⟨c₀, -, rfl⟩ := List.mem_map.mp hc
    cases hw
  · exact ⟨c, hc, rfl, hw⟩

lemma stays_deleteWeekConversations (d : ChatDb) (weekId : ℤ) :
    Stays d (Conversations.deleteWeekConversations d weekId) := by
  refine ⟨fun m hm => (Table.mem_applyAll_del.mp hm).1, next_le_applyAll _ _,
    fun c hc w hw => Or.inl ⟨c, (Table.mem_applyAll_del.mp hc).1, rfl, hw⟩⟩

/-! ### Runs -/

lemma kept_step {s : State} {x : Step} (h : Kept s.served s.db) (hx : StepFits s.db x) :
    Kept (s.step a x).served (s.step a x).db := by
  cases x with
  | chat env req =>
    rcases hchat : handleChat a env req s.db with ⟨e | served, d⟩
    · have hstep : s.step a (.chat env req) = ⟨s.served, d⟩ := by
        simp only [State.step, hchat]
      rw [hstep]
      exact h.stays ((handleChat_spec hx hchat).1 e rfl)
    · have hstep : s.step a (.chat env req) = ⟨s.served ++ [served], d⟩ := by
        simp only [State.step, hchat]
      rw [hstep]
      exact h.turn ((handleChat_spec hx hchat).2 served rfl)
  | addWeek w => exact h.stays ⟨fun _ h => h, le_rfl, fun c hc w hw => Or.inl ⟨c, hc, rfl, hw⟩⟩
  | deleteWeek now w => exact h.stays (stays_deleteWeek s.db now w)
  | deleteWeekConversations w => exact h.stays (stays_deleteWeekConversations s.db w)

lemma kept_run {s : State} {steps : List Step} (h : Kept s.served s.db)
    (hfit : AllFit a s steps) :
    Kept (runSteps a s steps).served (runSteps a s steps).db := by
  induction steps generalizing s with
  | nil => exact h
  | cons x steps ih => exact ih (kept_step h hfit.1) hfit.2

lemma kept_start : Kept start.served start.db := by
  refine ⟨by simp [start, Table.empty], by simp [start, Table.empty], ?_⟩
  intro pre s post heq
  simp [start] at heq

/-- **One chat, one plan**: in a run whose requests name only conversations of their own plan, no
message of another plan is handed to the agent. -/
theorem isolated_run (a : Agent) (steps : List Step) (hfit : AllFit a start steps) :
    Isolated (runSteps a start steps).served := (kept_run kept_start hfit).isolated

/-! ### A conversation of another plan -/

def agent : Agent := newAgent ⟨0⟩ "" []

/-- No provider is configured. -/
def ans : ℕ → (q : Query) → Reply q
  | _, .resolveProvider => (.error "anthropic API key not configured" : Except String String)
  | _, .language => (none : Option String)
  | _, .currentPlan _ => (none : Option PlanLine)
  | _, .runStream _ => (([], .error "") : Streamed)
  | _, .record .. => ()
  | _, .call .. => (.error "" : Except String String)

def env (now : ℤ) : Env := ⟨now, now, true, now, true, ans⟩

/-- Two turns of one plan's chat, the second of which names its conversation. -/
def onePlan : List Step :=
  [.addWeek 1, .chat (env 10) ⟨none, some 1, "Glutenfritt, tack"⟩,
    .chat (env 20) ⟨some 1, some 1, "Och utan lök"⟩]

lemma onePlan_fits : AllFit agent start onePlan := by
  have hnew : ∀ w, (some 1 : Option ℤ) = some w → 0 < w := by
    intro w hw
    cases hw
    decide
  refine ⟨trivial, ⟨hnew, by simp⟩, ⟨hnew, ?_⟩, trivial⟩
  intro id hid _ c hc
  cases hid
  have hfound : (State.step agent (State.step agent start (.addWeek 1))
      (.chat (env 10) ⟨none, some 1, "Glutenfritt, tack"⟩)).db.conversations.find? 1 =
        some ⟨1, some 1, "Glutenfritt, tack", 10⟩ := rfl
  cases hfound.symm.trans hc
  rfl

theorem isolated_onePlan : Isolated (runSteps agent start onePlan).served :=
  isolated_run agent onePlan onePlan_fits

/-- A turn of the second plan's chat names the conversation of the first plan. -/
def otherPlan : List Step :=
  [.addWeek 1, .addWeek 2, .chat (env 10) ⟨none, some 1, "Glutenfritt, tack"⟩,
    .chat (env 20) ⟨some 1, some 2, "Planera fem middagar"⟩]

/-- The second plan's chat is handed the message of the first plan. -/
theorem not_isolated : ¬ Isolated (runSteps agent start otherPlan).served := by
  intro h
  obtain ⟨s₁, s₂, hserved, hweek, hsaved, m, hm, hreplay, hid⟩ :
      ∃ s₁ s₂, (runSteps agent start otherPlan).served = [s₁, s₂] ∧ s₂.req.weekID = some 2 ∧
        s₁.req.weekID = some 1 ∧ ∃ m, s₂.loaded = [m] ∧ replay m ≠ none ∧ m.id = 1 := by
    refine ⟨_, _, rfl, rfl, rfl, ⟨1, 1, .user, some "Glutenfritt, tack", 10⟩, rfl, ?_, rfl⟩
    decide
  obtain ⟨s', hs', hs'w, -⟩ := (h [s₁] s₂ [] hserved 2 hweek).1 m (by simp [hm]) hreplay
  obtain rfl := List.mem_singleton.mp hs'
  rw [hsaved] at hs'w
  cases hs'w

end Veckomenyn.OnePlan
