import Veckomenyn.OnePlan

/-!
What a plan's chat is: the lines said in it.

A chat per plan is a list of lines that a turn adds to and that clearing the chat empties. The
conversations and messages of the database follow that list: it is what the drawer loads for the
plan and, but for blank lines, what the model is told at the next turn.
-/

namespace Veckomenyn.Transcript

open Rows Llm AgentRun Conversations OnePlan ReadTools

/-- A message as the client is given it. -/
structure Line where
  role : Role
  text : String
deriving DecidableEq

/-- A content that is no text reads as the empty one. -/
def lineOf (m : MessageRow) : Line := ⟨m.role, m.content.getD ""⟩

def handleGetWeekConversation (d : ChatDb) (weekID : ℤ) : Option (Conversation × List Line) :=
  (latestConversation d weekID).map fun c => (c, (messagesOf d c.id).map lineOf)

/-- The lines loaded for a plan. -/
def loaded (d : ChatDb) (weekID : ℤ) : List Line :=
  ((handleGetWeekConversation d weekID).map Prod.snd).getD []

/-! ### Chats as lists of lines -/

/-- The lines of each plan's chat. -/
abbrev Chats := ℤ → List Line

/-- What the model is told of a line. -/
def Line.replay (l : Line) : Option Message :=
  if trimSpace l.text = "" then none
  else match l.role with
    | .user => some (newUserMessage [textBlock l.text])
    | .assistant => some (newAssistantMessage [textBlock l.text]).1

/-- What is answered in a turn that comes after these lines. -/
def answered (a : Agent) (env : Env) (ctx : RunCtx) (lines : List Line) (message : String) :
    String :=
  assistantText ((run a ctx (lines.filterMap Line.replay) message).run env.ans ⟨[], []⟩).2.mem

/-- The lines a turn adds, when they can be saved. -/
def said (a : Agent) (env : Env) (ctx : RunCtx) (lines : List Line) (message : String) :
    List Line :=
  let text := answered a env ctx lines message
  (if env.userSaved then [⟨.user, message⟩] else []) ++
    if env.assistantSaved && text ≠ "" then [⟨.assistant, text⟩] else []

/-- `convID` is the conversation of a turn that is accepted. -/
def Chats.step (a : Agent) (t : Chats) (x : Step) (convID : Option ℤ) : Chats :=
  match x, convID with
  | .chat env req, some convID => match req.weekID with
    | some w => Function.update t w (t w ++ said a env (runCtx req convID) (t w) req.message)
    | none => t
  | .deleteWeek _ w, _ => Function.update t w []
  | .deleteWeekConversations w, _ => Function.update t w []
  | _, _ => t

/-- The conversation of a step that is an accepted turn. -/
def convOf (a : Agent) (s : State) : Step → Option ℤ
  | .chat env req => (handleChat a env req s.db).1.toOption.map Served.convID
  | _ => none

/-- The chats after the steps. -/
def chats (a : Agent) : Chats → State → List Step → Chats
  | t, _, [] => t
  | t, s, x :: xs => chats a (t.step a x (convOf a s x)) (s.step a x) xs

/-- The clock does not go back between the messages. -/
def Clocked : ℤ → List Step → Prop
  | _, [] => True
  | t, .chat env _ :: xs => t ≤ env.userAt ∧ env.userAt ≤ env.assistantAt ∧
    Clocked env.assistantAt xs
  | t, _ :: xs => Clocked t xs

/-! ### Messages in order -/

section Order

variable {α : Type} {r : α → α → Prop} [DecidableRel r]

lemma orderedInsert_append {x y : α} (h : r x y) (l : List α) :
    (l ++ [y]).orderedInsert r x = l.orderedInsert r x ++ [y] := by
  induction l with
  | nil => simp [h]
  | cons z l ih =>
    rw [List.cons_append, List.orderedInsert_cons, List.orderedInsert_cons]
    split_ifs
    · rfl
    · rw [ih, List.cons_append]

/-- What is no smaller than all the others stays at the end. -/
lemma insertionSort_append {y : α} {l : List α} (h : ∀ x ∈ l, r x y) :
    (l ++ [y]).insertionSort r = l.insertionSort r ++ [y] := by
  induction l with
  | nil => rfl
  | cons x l ih =>
    rw [List.cons_append, List.insertionSort_cons, List.insertionSort_cons,
      ih fun z hz => h z (List.mem_cons_of_mem x hz),
      orderedInsert_append (h x List.mem_cons_self)]

end Order

variable {a : Agent} {d d' : ChatDb} {T now convID : ℤ} {role : Role} {text : String}

lemma messagesOf_save (h : ∀ m ∈ d.messages.rows, m.createdAt ≤ now) (k : ℤ) :
    messagesOf (saveMessage d now convID role text) k = messagesOf d k ++
      if k = convID then [⟨d.messages.next, convID, role, some text, now⟩] else [] := by
  have hrows : (saveMessage d now convID role text).messages.rows =
      d.messages.rows ++ [⟨d.messages.next, convID, role, some text, now⟩] :=
    Table.rows_put_new le_rfl
  unfold messagesOf
  rw [hrows, List.filter_append]
  by_cases hk : k = convID
  · subst hk
    rw [if_pos rfl, List.filter_cons_of_pos (by simp), List.filter_nil, insertionSort_append]
    intro m hm
    have hm := List.mem_of_mem_filter hm
    have hle := h m hm
    have hid : m.id < d.messages.next := d.messages.fresh m hm
    simp only
    omega
  · rw [if_neg hk, List.filter_cons_of_neg (by simpa using Ne.symm hk), List.filter_nil,
      List.append_nil, List.append_nil]

lemma messagesOf_trySave (h : ∀ m ∈ d.messages.rows, m.createdAt ≤ now) (saved : Bool) (k : ℤ) :
    (messagesOf (trySave d saved now convID role text).1 k).map lineOf =
      (messagesOf d k).map lineOf ++ if saved ∧ k = convID then [⟨role, text⟩] else [] := by
  unfold trySave
  cases saved
  · simp
  · rw [if_pos rfl, messagesOf_save h, List.map_append]
    by_cases hk : k = convID <;> simp [hk, lineOf]

lemma old_trySave (h : ∀ m ∈ d.messages.rows, m.createdAt ≤ now) (saved : Bool) :
    ∀ m ∈ (trySave d saved now convID role text).1.messages.rows, m.createdAt ≤ now := by
  unfold trySave
  cases saved
  · simpa using h
  · intro m hm
    rcases Table.mem_put.mp hm with rfl | ⟨hm, -⟩
    · exact le_rfl
    · exact h m hm

/-- Of a message the model is told what it is told of its line. -/
lemma replay_lineOf (m : MessageRow) : replay m = (lineOf m).replay := by
  have hempty : trimSpace "" = "" := by decide
  unfold replay Line.replay lineOf
  rcases m.content with _ | text
  · simp [hempty]
  · rfl

lemma loadHistory_eq (d : ChatDb) (k : ℤ) :
    loadHistory d k = ((messagesOf d k).map lineOf).filterMap Line.replay := by
  rw [loadHistory, List.filterMap_map]
  exact List.filterMap_congr fun m _ => replay_lineOf m

/-! ### The database follows the chats -/

/-- The conversation is attached to the plan. -/
def Of (d : ChatDb) (w k : ℤ) : Prop := ∃ c ∈ d.conversations.rows, c.id = k ∧ c.weekId = some w

/-- No plan has two conversations, no message comes from the future, and the messages of a plan's
conversation are the lines of its chat. -/
structure Follows (T : ℤ) (t : Chats) (d : ChatDb) : Prop where
  one : ∀ w k k', Of d w k → Of d w k' → k = k'
  refs : ∀ m ∈ d.messages.rows, m.conversationId < d.conversations.next
  old : ∀ m ∈ d.messages.rows, m.createdAt ≤ T
  lines : ∀ w k, Of d w k → (messagesOf d k).map lineOf = t w
  missing : ∀ w, (∀ k, ¬Of d w k) → t w = []

variable {t : Chats} {w : ℤ} {c : Conversation}

lemma latestConversation_none (h : latestConversation d w = none) (k : ℤ) : ¬Of d w k := by
  rintro ⟨c, hc, -, hw⟩
  have hmem : c ∈ (d.conversations.rows.filter fun c => c.weekId = some w).insertionSort
      fun a b => b.updatedAt ≤ a.updatedAt := by
    rw [List.mem_insertionSort, List.mem_filter]
    exact ⟨hc, by simpa using hw⟩
  rw [latestConversation, List.head?_eq_none_iff] at h
  rw [h] at hmem
  cases hmem

/-- A plan is loaded the lines of its chat. -/
lemma Follows.loaded (h : Follows T t d) (w : ℤ) : loaded d w = t w := by
  rcases hlatest : latestConversation d w with _ | c
  · rw [h.missing w (latestConversation_none hlatest)]
    simp [Transcript.loaded, handleGetWeekConversation, hlatest]
  · obtain ⟨hc, hw⟩ := latestConversation_some hlatest
    rw [← h.lines w c.id ⟨c, hc, rfl, hw⟩]
    simp [Transcript.loaded, handleGetWeekConversation, hlatest]

lemma follows_start (T : ℤ) : Follows T (fun _ => []) start.db := by
  refine ⟨?_, by simp [start, Table.empty], by simp [start, Table.empty], ?_, fun _ _ => rfl⟩
  · rintro w k k' ⟨c, hc, -⟩
    simp [start, Table.empty] at hc
  · rintro w k ⟨c, hc, -⟩
    simp [start, Table.empty] at hc

/-! ### The conversation of a turn -/

/-- The conversations are attached as they were, and the messages are the same. -/
lemma Follows.congr (h : Follows T t d) (hof : ∀ w k, Of d' w k ↔ Of d w k)
    (hnext : d.conversations.next ≤ d'.conversations.next) (hmessages : d'.messages = d.messages) :
    Follows T t d' := by
  refine ⟨fun w k k' hk hk' => h.one w k k' ((hof w k).mp hk) ((hof w k').mp hk'), ?_, ?_, ?_, ?_⟩
  · rw [hmessages]
    exact fun m hm => (h.refs m hm).trans_le hnext
  · rw [hmessages]
    exact h.old
  · intro w k hk
    rw [messagesOf, hmessages]
    exact h.lines w k ((hof w k).mp hk)
  · exact fun w hnone => h.missing w fun k hk => hnone k ((hof w k).mpr hk)

lemma of_touch {now : ℤ} (hc : c ∈ d.conversations.rows) (w k : ℤ) :
    Of (touch d now c) w k ↔ Of d w k := by
  constructor
  · rintro ⟨x, hx, hk, hw⟩
    rcases Table.mem_put.mp hx with rfl | ⟨hx, -⟩
    · exact ⟨c, hc, hk, hw⟩
    · exact ⟨x, hx, hk, hw⟩
  · rintro ⟨x, hx, hk, hw⟩
    by_cases hid : x.id = c.id
    · obtain rfl : x = c := d.conversations.key_inj hx hc hid
      exact ⟨_, Table.mem_put.mpr (Or.inl rfl), hk, hw⟩
    · exact ⟨x, Table.mem_put.mpr (Or.inr ⟨hx, hid⟩), hk, hw⟩

lemma of_put_new (hc : c.id = d.conversations.next) (w k : ℤ) :
    Of (d.putConversation c) w k ↔ Of d w k ∨ k = c.id ∧ c.weekId = some w := by
  have hrows : (d.putConversation c).conversations.rows = d.conversations.rows ++ [c] :=
    Table.rows_put_new hc.ge
  simp only [Of, hrows, List.mem_append, List.mem_singleton]
  constructor
  · rintro ⟨x, hx | rfl, hk, hw⟩
    · exact Or.inl ⟨x, hx, hk, hw⟩
    · exact Or.inr ⟨hk.symm, hw⟩
  · rintro (⟨x, hx, hk, hw⟩ | ⟨hk, hw⟩)
    · exact ⟨x, Or.inl hx, hk, hw⟩
    · exact ⟨c, Or.inr rfl, hk.symm, hw⟩

/-- A new conversation has no messages yet. -/
lemma Follows.put_new (h : Follows T t d) (hc : c.id = d.conversations.next)
    (hnew : ∀ w, c.weekId = some w → ∀ k, ¬Of d w k) : Follows T t (d.putConversation c) := by
  have hfresh : (messagesOf d c.id).map lineOf = [] := by
    rw [List.map_eq_nil_iff, List.eq_nil_iff_forall_not_mem]
    intro m hm
    obtain ⟨hm, hmc⟩ := mem_messagesOf.mp hm
    have := h.refs m hm
    omega
  have hnext : d.conversations.next ≤ (d.putConversation c).conversations.next := le_max_left _ _
  refine ⟨fun w k k' hk hk' => ?_, fun m hm => (h.refs m hm).trans_le hnext, h.old,
    fun w k hk => ?_, fun w hnone => h.missing w fun k hk => ?_⟩
  · rcases (of_put_new hc w k).mp hk with hk | ⟨rfl, hw⟩ <;>
      rcases (of_put_new hc w k').mp hk' with hk' | ⟨rfl, hw'⟩
    · exact h.one w k k' hk hk'
    · exact absurd hk (hnew w hw' k)
    · exact absurd hk' (hnew w hw k')
    · rfl
  · rcases (of_put_new hc w k).mp hk with hk | ⟨rfl, hw⟩
    · exact h.lines w k hk
    · rw [h.missing w (hnew w hw)]
      exact hfresh
  · exact hnone k ((of_put_new hc w k).mpr (Or.inl hk))

lemma Follows.newConversation (h : Follows T t d) {now : ℤ} {weekId : Option ℤ}
    {title : List UInt8} {r : Except ChatError ℤ} (hnew : ∀ w, weekId = some w → ∀ k, ¬Of d w k)
    (he : newConversation d now weekId title = (r, d')) : Follows T t d' := by
  unfold Conversations.newConversation at he
  split at he
  · cases he
    exact h
  · split at he
    · cases he
      exact h.put_new rfl hnew
    · cases he
      exact h.congr (fun _ _ => Iff.rfl) (le_max_left _ _) rfl

lemma Follows.ensureConversation (h : Follows T t d) {now : ℤ} {req : ChatRequest}
    {r : Except ChatError ℤ}
    (he : ensureConversation d now req.conversationID req.weekID req.message = (r, d')) :
    Follows T t d' := by
  have htouch {c : Conversation} (hc : c ∈ d.conversations.rows) : Follows T t (touch d now c) :=
    h.congr (of_touch hc) (le_max_left _ _) rfl
  unfold Conversations.ensureConversation at he
  split at he
  · split at he
    · cases he
      exact h
    · next c hc =>
      cases he
      exact htouch (Table.find?_eq_some.mp hc).1
  · split at he
    · next w hw =>
      split at he
      · next c hc =>
        cases he
        exact htouch (latestConversation_some hc).1
      · next hnone =>
        refine h.newConversation (fun w' hw' => ?_) he
        cases hw'
        exact latestConversation_none hnone
    · exact h.newConversation (fun w' hw' => by cases hw') he

/-! ### A turn -/

/-- Lines are added to the chat of a plan, if the turn is of one. -/
def Chats.add (t : Chats) (weekID : Option ℤ) (lines : List Line) : Chats :=
  match weekID with
  | some w => Function.update t w (t w ++ lines)
  | none => t

lemma Chats.add_self (t : Chats) (w : ℤ) (lines : List Line) :
    t.add (some w) lines w = t w ++ lines := Function.update_self w _ t

lemma Chats.add_of_ne (t : Chats) {weekID : Option ℤ} (h : weekID ≠ some w) (lines : List Line) :
    t.add weekID lines w = t w := by
  cases weekID with
  | none => rfl
  | some w' => exact Function.update_of_ne (fun hw => h (by rw [hw])) _ t

lemma Chats.add_add (t : Chats) (weekID : Option ℤ) (l l' : List Line) :
    (t.add weekID l).add weekID l' = t.add weekID (l ++ l') := by
  cases weekID with
  | none => rfl
  | some w =>
    rw [Chats.add, Chats.add_self]
    simp only [Chats.add]
    rw [Function.update_idem, List.append_assoc]

/-- Only the conversations of its plan are the conversation of a turn. -/
lemma of_given {weekID : Option ℤ} (h : Given d weekID convID) (w : ℤ) :
    Of d w convID ↔ weekID = some w := by
  obtain ⟨c, hfound, rfl⟩ := h
  obtain ⟨hc, hid⟩ := Table.find?_eq_some.mp hfound
  constructor
  · rintro ⟨x, hx, hxid, hw⟩
    obtain rfl := d.conversations.key_inj hx hc (hxid.trans hid.symm)
    exact hw
  · exact fun hw => ⟨c, hc, hid, hw⟩

lemma Follows.save {weekID : Option ℤ} (h : Follows T t d) (hT : T ≤ now)
    (hgiven : Given d weekID convID) (saved : Bool) :
    Follows now (t.add weekID (if saved then [⟨role, text⟩] else []))
      (trySave d saved now convID role text).1 := by
  have hold : ∀ m ∈ d.messages.rows, m.createdAt ≤ now := fun m hm => (h.old m hm).trans hT
  have hconv := trySave_conversations d saved now convID role text
  have hof (w k : ℤ) : Of (trySave d saved now convID role text).1 w k ↔ Of d w k := by
    simp only [Of, hconv]
  refine ⟨fun w k k' hk hk' => h.one w k k' ((hof w k).mp hk) ((hof w k').mp hk'), ?_,
    old_trySave hold saved, ?_, ?_⟩
  · intro m hm
    rw [hconv]
    rcases mem_trySave hm with hm | ⟨hm, -⟩
    · exact h.refs m hm
    · obtain ⟨c, hfound, -⟩ := hgiven
      obtain ⟨hc, hid⟩ := Table.find?_eq_some.mp hfound
      have hid : c.id = convID := hid
      rw [hm, ← hid]
      exact d.conversations.fresh c hc
  · intro w k hk'
    have hk : Of d w k := (hof w k).mp hk'
    rw [messagesOf_trySave hold, h.lines w k hk]
    by_cases hw : weekID = some w
    · obtain rfl : k = convID := h.one w k convID hk ((of_given hgiven w).mpr hw)
      rw [hw, Chats.add_self]
      simp
    · have hne : k ≠ convID := by
        rintro rfl
        exact hw ((of_given hgiven w).mp hk)
      rw [t.add_of_ne hw, if_neg (fun hk => hne hk.2), List.append_nil]
  · intro w hnone
    have hw : weekID ≠ some w := fun hw => hnone convID ((hof w convID).mpr
      ((of_given hgiven w).mpr hw))
    rw [t.add_of_ne hw]
    exact h.missing w fun k hk => hnone k ((hof w k).mpr hk)

lemma Follows.exchange {weekID : Option ℤ} {userAt assistantAt : ℤ} (h : Follows T t d)
    (hT : T ≤ userAt) (hat : userAt ≤ assistantAt) (hgiven : Given d weekID convID)
    (userSaved assistantSaved : Bool) (message text : String) :
    Follows assistantAt
      (t.add weekID ((if userSaved then [⟨.user, message⟩] else []) ++
        if assistantSaved then [⟨.assistant, text⟩] else []))
      (trySave (trySave d userSaved userAt convID .user message).1 assistantSaved assistantAt convID
        .assistant text).1 := by
  rw [← Chats.add_add]
  refine (h.save hT hgiven userSaved).save hat ?_ assistantSaved
  rw [Given, trySave_conversations]
  exact hgiven

/-- The agent is handed the lines of the plan's chat. -/
lemma Follows.history {weekID : Option ℤ} (h : Follows T t d) (hgiven : Given d weekID convID)
    (hw : weekID = some w) : loadHistory d convID = (t w).filterMap Line.replay := by
  rw [loadHistory_eq, h.lines w convID ((of_given hgiven w).mpr hw)]

/-- What an accepted turn leaves. -/
lemma Follows.turn {env : Env} {req : ChatRequest} {s : Served} (h : Follows T t d)
    (hfits : Fits d req) (hT : T ≤ env.userAt) (hat : env.userAt ≤ env.assistantAt)
    (he : handleChat a env req d = (.ok s, d')) :
    Follows env.assistantAt (t.step a (.chat env req) (some s.convID)) d' := by
  unfold handleChat at he
  split at he
  · cases he
  · split at he
    · cases he
    · next convID d₁ hens =>
      have hgiven := (ensureConversation_spec hfits hens).2 convID rfl
      have h₁ : Follows T t d₁ := h.ensureConversation hens
      cases he
      rcases hw : req.weekID with _ | w
      · rw [hw] at hgiven
        simpa only [Chats.step, hw, Chats.add] using
          h₁.exchange hT hat hgiven env.userSaved (env.assistantSaved && _ ≠ "") req.message _
      · rw [h₁.history hgiven hw]
        rw [hw] at hgiven
        simp only [Chats.step, hw]
        exact h₁.exchange hT hat hgiven env.userSaved (env.assistantSaved && _ ≠ "") req.message _

/-- What an accepted turn tells the model. -/
lemma Follows.told {env : Env} {req : ChatRequest} {s : Served} (h : Follows T t d)
    (hfits : Fits d req) (he : handleChat a env req d = (.ok s, d')) (hw : req.weekID = some w) :
    s.history = (t w).filterMap Line.replay := by
  unfold handleChat at he
  split at he
  · cases he
  · split at he
    · cases he
    · next convID d₁ hens =>
      cases he
      exact (h.ensureConversation hens).history ((ensureConversation_spec hfits hens).2 convID rfl)
        hw

/-! ### Chats that are cleared -/

/-- A plan that loses its conversations has an empty chat, and no other plan's chat changes. -/
lemma Follows.clear (h : Follows T t d) (w₀ : ℤ) (hof : ∀ w k, Of d' w k ↔ Of d w k ∧ w ≠ w₀)
    (hnext : d.conversations.next ≤ d'.conversations.next)
    (hsub : ∀ m ∈ d'.messages.rows, m ∈ d.messages.rows)
    (hmessages : ∀ w k, Of d' w k → messagesOf d' k = messagesOf d k) :
    Follows T (Function.update t w₀ []) d' := by
  refine ⟨fun w k k' hk hk' => h.one w k k' ((hof w k).mp hk).1 ((hof w k').mp hk').1,
    fun m hm => (h.refs m (hsub m hm)).trans_le hnext, fun m hm => h.old m (hsub m hm),
    fun w k hk => ?_, fun w hnone => ?_⟩
  · obtain ⟨hd, hw⟩ := (hof w k).mp hk
    rw [Function.update_of_ne hw, hmessages w k hk]
    exact h.lines w k hd
  · by_cases hw : w = w₀
    · rw [hw, Function.update_self]
    · rw [Function.update_of_ne hw]
      exact h.missing w fun k hk => hnone k ((hof w k).mpr ⟨hk, hw⟩)

lemma of_deleteWeek (d : ChatDb) (now w₀ w k : ℤ) :
    Of (Conversations.deleteWeek d now w₀) w k ↔ Of d w k ∧ w ≠ w₀ := by
  have hkey : (((d.conversations.rows.filter fun c => c.weekId = some w₀).map fun c =>
      { c with weekId := none, updatedAt := now }).map Keyed.key).Nodup := by
    rw [List.map_map]
    exact d.conversations.nodup.sublist (List.filter_sublist.map _)
  unfold Of Conversations.deleteWeek
  simp only [Table.mem_applyAll_put hkey, List.mem_map, List.mem_filter, decide_eq_true_eq]
  constructor
  · rintro ⟨x, ⟨c, -, rfl⟩ | ⟨hx, hkeys⟩, hk, hw⟩
    · cases hw
    · refine ⟨⟨x, hx, hk, hw⟩, ?_⟩
      rintro rfl
      exact hkeys ⟨_, ⟨x, ⟨hx, hw⟩, rfl⟩, rfl⟩
  · rintro ⟨⟨x, hx, hk, hw⟩, hne⟩
    refine ⟨x, Or.inr ⟨hx, ?_⟩, hk, hw⟩
    rintro ⟨_, ⟨c, ⟨hc, hcw⟩, rfl⟩, hid⟩
    obtain rfl : c = x := d.conversations.key_inj hc hx hid
    rw [hw] at hcw
    exact hne (Option.some.inj hcw)

lemma of_deleteWeekConversations (d : ChatDb) (w₀ w k : ℤ) :
    Of (Conversations.deleteWeekConversations d w₀) w k ↔ Of d w k ∧ w ≠ w₀ := by
  unfold Of Conversations.deleteWeekConversations
  simp only [Table.mem_applyAll_del, List.mem_map, List.mem_filter, decide_eq_true_eq]
  constructor
  · rintro ⟨x, ⟨hx, hkeys⟩, hk, hw⟩
    refine ⟨⟨x, hx, hk, hw⟩, ?_⟩
    rintro rfl
    exact hkeys ⟨x, ⟨hx, hw⟩, rfl⟩
  · rintro ⟨⟨x, hx, hk, hw⟩, hne⟩
    refine ⟨x, ⟨hx, ?_⟩, hk, hw⟩
    rintro ⟨c, ⟨hc, hcw⟩, hid⟩
    obtain rfl : c = x := d.conversations.key_inj hc hx hid
    rw [hw] at hcw
    exact hne (Option.some.inj hcw)

/-- The messages of another plan's conversation stay. -/
lemma messagesOf_deleteWeekConversations {w₀ w k : ℤ} (hk : Of d w k) (hw : w ≠ w₀) :
    messagesOf (Conversations.deleteWeekConversations d w₀) k = messagesOf d k := by
  obtain ⟨c, hc, hid, hcw⟩ := hk
  have hrows : (Conversations.deleteWeekConversations d w₀).messages.rows =
      d.messages.rows.filter fun m => !d.conversations.rows.any fun c =>
        c.id = m.conversationId ∧ c.weekId = some w₀ := Table.rows_del_filter _ _
  unfold messagesOf
  rw [hrows, List.filter_filter]
  congr 1
  refine List.filter_congr fun m _ => ?_
  by_cases hm : m.conversationId = k
  · have hother : ∀ x ∈ d.conversations.rows, x.id = k → ¬x.weekId = some w₀ := by
      intro x hx hxk hxw
      obtain rfl : x = c := d.conversations.key_inj hx hc (hxk.trans hid.symm)
      exact hw (Option.some.inj (hcw.symm.trans hxw))
    simpa [hm] using hother
  · simp [hm]

lemma Follows.deleteWeek (h : Follows T t d) (now w₀ : ℤ) :
    Follows T (Function.update t w₀ []) (Conversations.deleteWeek d now w₀) :=
  h.clear w₀ (of_deleteWeek d now w₀) (next_le_applyAll _ _) (fun _ hm => hm) fun _ _ _ => rfl

lemma Follows.deleteWeekConversations (h : Follows T t d) (w₀ : ℤ) :
    Follows T (Function.update t w₀ []) (Conversations.deleteWeekConversations d w₀) :=
  h.clear w₀ (of_deleteWeekConversations d w₀) (next_le_applyAll _ _)
    (fun _ hm => (Table.mem_applyAll_del.mp hm).1) fun w k hk => by
      obtain ⟨hk, hw⟩ := (of_deleteWeekConversations d w₀ w k).mp hk
      exact messagesOf_deleteWeekConversations hk hw

/-! ### Runs -/

lemma Follows.mono {T' : ℤ} (h : Follows T t d) (hT : T ≤ T') : Follows T' t d :=
  ⟨h.one, h.refs, fun m hm => (h.old m hm).trans hT, h.lines, h.missing⟩

lemma Follows.refused {env : Env} {req : ChatRequest} {e : ChatError} (h : Follows T t d)
    (he : handleChat a env req d = (.error e, d')) : Follows T t d' := by
  unfold handleChat at he
  split at he
  · cases he
    exact h
  · split at he
    · next hens =>
      cases he
      exact h.ensureConversation hens
    · cases he

/-- The time of the last message, when a step may have added one. -/
def last (T : ℤ) : Step → ℤ
  | .chat env _ => env.assistantAt
  | _ => T

lemma Follows.step {s : State} {x : Step} {xs : List Step} (h : Follows T t s.db)
    (hfits : StepFits s.db x) (hclock : Clocked T (x :: xs)) :
    Follows (last T x) (t.step a x (convOf a s x)) (s.step a x).db := by
  cases x with
  | chat env req =>
    obtain ⟨hT, hat, -⟩ := hclock
    rcases hchat : handleChat a env req s.db with ⟨e | served, d⟩
    · have hstep : s.step a (.chat env req) = ⟨s.served, d⟩ := by simp only [State.step, hchat]
      have hconv : convOf a s (.chat env req) = none := by simp [convOf, hchat, Except.toOption]
      rw [hstep, hconv]
      exact (h.refused hchat).mono (hT.trans hat)
    · have hstep : s.step a (.chat env req) = ⟨s.served ++ [served], d⟩ := by
        simp only [State.step, hchat]
      have hconv : convOf a s (.chat env req) = some served.convID := by
        simp [convOf, hchat, Except.toOption]
      rw [hstep, hconv]
      exact h.turn hfits hT hat hchat
  | addWeek w => exact ⟨h.one, h.refs, h.old, h.lines, h.missing⟩
  | deleteWeek now w => exact h.deleteWeek now w
  | deleteWeekConversations w => exact h.deleteWeekConversations w

lemma Clocked.tail {x : Step} {xs : List Step} (h : Clocked T (x :: xs)) :
    Clocked (last T x) xs := by
  cases x with
  | chat env req => exact h.2.2
  | addWeek w => exact h
  | deleteWeek now w => exact h
  | deleteWeekConversations w => exact h

lemma follows_run {s : State} {steps : List Step} (h : Follows T t s.db)
    (hfit : AllFit a s steps) (hclock : Clocked T steps) :
    Follows (steps.foldl last T) (chats a t s steps) (runSteps a s steps).db := by
  induction steps generalizing T t s with
  | nil => exact h
  | cons x steps ih => exact ih (h.step hfit.1 hclock) hfit.2 hclock.tail

/-- **What a plan's chat is**: after any turns and deletions under a clock that does not go back,
what is loaded for a plan is every line that was saved of its chat since it was last cleared, in the
order they were said, and those that are not blank are what the model is told at the next turn. -/
theorem loaded_and_told (a : Agent) (T : ℤ) (steps : List Step) (hfit : AllFit a start steps)
    (hclock : Clocked T steps) (w : ℤ) :
    loaded (runSteps a start steps).db w = chats a (fun _ => []) start steps w ∧
      ∀ env req s d, Fits (runSteps a start steps).db req → req.weekID = some w →
        handleChat a env req (runSteps a start steps).db = (.ok s, d) →
          s.history = (chats a (fun _ => []) start steps w).filterMap Line.replay := by
  have h := follows_run (follows_start T) hfit hclock
  exact ⟨h.loaded w, fun env req s d hfits hw he => h.told hfits he hw⟩

theorem loaded_and_told_onePlan :
    loaded (runSteps agent start onePlan).db 1 = chats agent (fun _ => []) start onePlan 1 :=
  (loaded_and_told agent 0 onePlan onePlan_fits
    ⟨by decide, by decide, by decide, by decide, trivial⟩ 1).1

end Veckomenyn.Transcript
