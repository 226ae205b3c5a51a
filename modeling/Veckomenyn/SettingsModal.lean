import Veckomenyn.FirstRun

/-!
The form of the household settings, the saves it sends, and the row they end in.

The form saves a while after the last edit, what was edited until then in one patch. The server
handles the calls at the same time, a statement of one and a statement of another in any order, and
any statement may fail; the page hears of the calls in any order, or gives them up.
-/

namespace Veckomenyn.SettingsModal

open Schema Sql Txn Setup FirstRun

/-! ### Edits -/

inductive Language where
  | sv
  | en

def Language.text : Language → String
  | sv => "sv"
  | en => "en"

/-- The fields of the form. A number field is read with `parseInt`, which may read nothing. -/
inductive Edit where
  | language (l : Language)
  | defaultDinners (typed : Option ℤ)
  | defaultServings (typed : Option ℤ)
  | notesMd (text : String)

/-- `typed || 1` -/
def orOne : Option ℤ → ℤ
  | none | some 0 => 1
  | some n => n

namespace Edit

/-- `{ [key]: value }` -/
def patch : Edit → SettingsPatch
  | language l => { language := some l.text }
  | defaultDinners typed => { defaultDinners := some (orOne typed) }
  | defaultServings typed => { defaultServings := some (orOne typed) }
  | notesMd text => { notesMd := some text }

/-- `{ ...s, [key]: value }` -/
def set (s : Settings) : Edit → Settings
  | language l => { s with language := l.text }
  | defaultDinners typed => { s with defaultDinners := orOne typed }
  | defaultServings typed => { s with defaultServings := orOne typed }
  | notesMd text => { s with notesMd := text }

lemma patch_set (e : Edit) (s : Settings) : e.patch.set s = e.set s := by cases e <;> rfl

end Edit

/-- `{ ...p, ...q }` -/
def spread (p q : SettingsPatch) : SettingsPatch where
  defaultDinners := q.defaultDinners.or p.defaultDinners
  defaultDeliveryWeekday := q.defaultDeliveryWeekday.or p.defaultDeliveryWeekday
  defaultOrderOffsetDays := q.defaultOrderOffsetDays.or p.defaultOrderOffsetDays
  defaultServings := q.defaultServings.or p.defaultServings
  language := q.language.or p.language
  llmProvider := q.llmProvider.or p.llmProvider
  notesMd := q.notesMd.or p.notesMd

lemma spread_set (p q : SettingsPatch) (s : Settings) : (spread p q).set s = q.set (p.set s) := by
  simp [HouseholdSettingsUpdate.set, spread, Option.getD_or]

lemma isEmpty_spread (p : SettingsPatch) (e : Edit) : (spread p e.patch).isEmpty = false := by
  cases e <;> simp [HouseholdSettingsUpdate.isEmpty, spread, Edit.patch]

/-- The settings after some edits. -/
def edited (s : Settings) (edits : List Edit) : Settings := edits.foldl Edit.set s

@[simp] lemma edited_nil (s : Settings) : edited s [] = s := rfl

lemma edited_append (s : Settings) (xs ys : List Edit) :
    edited s (xs ++ ys) = edited (edited s xs) ys := by
  simp [edited]

/-- A patch and the edits it is made of. -/
structure Batch where
  edits : List Edit
  patch : SettingsPatch
  made : patch = edits.foldl (fun p e => spread p e.patch) {}

namespace Batch

def empty : Batch := ⟨[], {}, rfl⟩

def add (b : Batch) (e : Edit) : Batch where
  edits := b.edits ++ [e]
  patch := spread b.patch e.patch
  made := by rw [List.foldl_append, ← b.made]; rfl

@[simp] lemma edits_empty : empty.edits = [] := rfl
@[simp] lemma edits_add (b : Batch) (e : Edit) : (b.add e).edits = b.edits ++ [e] := rfl

/-- One patch does what its edits do one after the other. -/
lemma set_eq (b : Batch) (s : Settings) : b.patch.set s = edited s b.edits := by
  rw [b.made]
  induction b.edits using List.reverseRecOn with
  | nil => simp [HouseholdSettingsUpdate.set]
  | append_singleton es e ih =>
    rw [List.foldl_append, edited_append, ← ih]
    exact (spread_set _ _ s).trans (e.patch_set _)

lemma isEmpty_iff (b : Batch) : b.patch.isEmpty = true ↔ b.edits = [] := by
  rw [b.made]
  rcases b.edits.eq_nil_or_concat with h | ⟨es, e, h⟩ <;> rw [h]
  · simp [HouseholdSettingsUpdate.isEmpty]
  · simp only [List.concat_eq_append, List.foldl_append, List.foldl_cons, List.foldl_nil,
      isEmpty_spread, Bool.false_eq_true, List.append_eq_nil_iff, List.cons_ne_self, and_false]

end Batch

/-! ### The calls -/

inductive Call where
  | get
  | patch (b : Batch)

namespace Call

def batch : Call → List Batch
  | get => []
  | patch b => [b]

def edits (c : Call) : List Edit := c.batch.flatMap Batch.edits

end Call

/-- What the page hears of a call. -/
inductive Outcome where
  | answered (s : Settings)
  | failed (message : String)

/-- The patch as Go reads it, with what it says of a number that is no `int`. -/
def decode (why : SettingsPatch → String) (p : SettingsPatch) : Except String SettingsPatch :=
  let int : Option ℤ → Bool := within (-9223372036854775808) 9223372036854775807
  if int p.defaultDinners && int p.defaultDeliveryWeekday && int p.defaultOrderOffsetDays &&
      int p.defaultServings then .ok p
  else .error (why p)

/-- `say` makes the page's message of an error. -/
def outcome (say : ℕ → String → String) : Except Resp Resp → Outcome
  | .ok (.json s) | .error (.json s) => .answered s
  | .ok (.error code text) | .error (.error code text) => .failed (say code text)

namespace Call

/-- What `getSettings` and `patchSettings` make of an answer. -/
def hears : Call → Except Resp Resp → Outcome
  | get => outcome fun code _ => "get settings: " ++ toString code
  | patch _ => outcome fun code text => "patch settings: " ++ toString code ++ " " ++ text

end Call

abbrev Handler := Prog Empty Empty.elim Resp Resp

variable (why : SettingsPatch → String)

def handler : Call → Handler
  | .get => handleGetSettings
  | .patch b => handlePatchSettings (decode why b.patch)

/-- A call under way. `progress` is what the server has still to do, once it has begun; the page may
have stopped waiting; `stored` says whether the call has written the row. -/
structure Serving where
  call : Call
  progress : Option Handler
  waiting : Bool
  stored : Bool

/-- The saves that are decided: whether they are stored. -/
abbrev Saves : Type := List (Batch × Bool)

/-! ### The form -/

/-- The component and the server. The calls are on their way to the server or being handled there,
the answers on their way back; the last three fields are what was typed in the form, the saves it
has sent, and those that are decided, in the order they were. -/
structure State where
  db : Db
  isOpen : Bool
  loaded : Bool
  settings : Option Settings
  pendingPatch : Batch
  saveTimer : Bool
  toasts : List String
  calls : List Serving
  answers : List (Call × Outcome)
  typed : List Edit
  sent : List Batch
  saves : Saves

def start (d : Db) : State where
  db := d
  isOpen := false
  loaded := false
  settings := none
  pendingPatch := Batch.empty
  saveTimer := false
  toasts := []
  calls := []
  answers := []
  typed := []
  sent := []
  saves := []

def send (s : State) (c : Call) : State :=
  { s with calls := s.calls ++ [⟨c, none, true, false⟩], sent := s.sent ++ c.batch }

def flush (s : State) : State :=
  let toSend := s.pendingPatch
  let s := { s with pendingPatch := Batch.empty, saveTimer := false }
  if toSend.patch.isEmpty then s else send s (.patch toSend)

/-- The timer that runs is set anew. -/
def scheduleSave (s : State) (e : Edit) : State :=
  { s with pendingPatch := s.pendingPatch.add e, saveTimer := true }

def update (s : State) (e : Edit) : State :=
  scheduleSave
    { s with settings := s.settings.map fun prev => e.set prev, typed := s.typed ++ [e] } e

/-- A call is over, and `calls` are left. -/
def ended (s : State) (calls : List Serving) (x : Serving) (o : Outcome) : State :=
  { s with
    calls := calls
    answers := s.answers ++ if x.waiting then [(x.call, o)] else []
    saves := s.saves ++ if x.stored then [] else x.call.batch.map fun b => (b, false) }

/-- The server goes on with one of the calls: its next statement, which fails as `fault` says, or
its answer. -/
def serve (s : State) (i : ℕ) (fault : Label → Option DbError) : State :=
  match s.calls[i]? with
  | none => s
  | some x =>
    match x.progress.getD (handler why x.call) with
    | .ret r => ended s (s.calls.eraseIdx i) x (x.call.hears r)
    | .auto st k =>
      match (fault st.label).elim (st.run s.db) .error with
      | .error e => { s with calls := s.calls.set i { x with progress := some (k (.error e)) } }
      | .ok (ws, b) =>
        { s with
          db := applyAll s.db ws
          calls := s.calls.set i
            { x with progress := some (k (.ok b)), stored := x.stored || !ws.isEmpty }
          saves := s.saves ++ if ws.isEmpty then [] else x.call.batch.map fun b => (b, true) }
    | _ => s

/-- A call never gets to the server. -/
def unreached (s : State) (i : ℕ) (message : String) : State :=
  match s.calls[i]? with
  | some x => if x.progress.isNone then ended s (s.calls.eraseIdx i) x (.failed message) else s
  | none => s

/-- The page will hear no more of a call, whatever the server does with it. -/
def lost (s : State) (i : ℕ) (message : String) : State :=
  match s.calls[i]? with
  | some x =>
    if x.waiting then
      { s with
        calls := s.calls.set i { x with waiting := false }
        answers := s.answers ++ [(x.call, .failed message)] }
    else s
  | none => s

/-- The page hears of a call. -/
def hear (s : State) (c : Call) : Outcome → State
  | .failed message => { s with toasts := s.toasts ++ [message] }
  | .answered next =>
    match c with
    | .get => { s with settings := some next, loaded := true }
    | .patch _ => { s with settings := some next }

def arrive (s : State) (i : ℕ) : State :=
  match s.answers[i]? with
  | none => s
  | some (c, o) => hear { s with answers := s.answers.eraseIdx i } c o

inductive Event where
  | opened
  | closed
  | edit (e : Edit)
  | timer
  | serve (i : ℕ) (fault : Label → Option DbError)
  | unreached (i : ℕ) (message : String)
  | lost (i : ℕ) (message : String)
  | arrive (i : ℕ)

/-- The fields are there once some settings have come. -/
def step (s : State) : Event → State
  | .opened => if s.isOpen then s else send { s with isOpen := true, loaded := false } .get
  | .closed =>
    if s.isOpen then
      let s := { s with isOpen := false }
      if s.pendingPatch.patch.isEmpty then s else flush s
    else s
  | .edit e => if s.isOpen && s.settings.isSome then update s e else s
  | .timer => if s.saveTimer then flush s else s
  | .serve i fault => serve why s i fault
  | .unreached i message => unreached s i message
  | .lost i message => lost s i message
  | .arrive i => arrive s i

def run (s : State) (es : List Event) : State := es.foldl (step why) s

/-! ### The server -/

/-- How far a call has got. -/
structure Fits (x : Serving) : Prop where
  nonempty : ∀ b, x.call = .patch b → b.patch.isEmpty = false
  progress : x.progress = none ∧ x.stored = false ∨
    x.progress = some handleGetSettings ∧ x.stored = true ∨
    x.progress = some (.ret (.error internalError)) ∨
    ∃ v, x.progress = some (.ret (.ok (.json v))) ∧ (x.call = .get ∨ x.stored = true)

/-- What a statement of a call does: it fails, it stores the patch, or it reads the row. -/
inductive Statement (fault : Label → Option DbError) (d : Db) (x : Serving) :
    Serving → Db → Saves → Prop
  | failed (h : fault .read ≠ none ∨ x.call ≠ .get ∧ x.stored = false) :
    Statement fault d x { x with progress := some (.ret (.error internalError)) } d []
  | stored (b : Batch) (hcall : x.call = .patch b) (hx : x.stored = false)
      (ha : accepted b.patch = true) :
    Statement fault d x { x with progress := some handleGetSettings, stored := true }
      { d with settings := edited d.settings b.edits } [(b, true)]
  | read (h : x.call = .get ∨ x.stored = true) :
    Statement fault d x { x with progress := some (.ret (.ok (.json d.settings))) } d []

variable {s : State} {before after : List Serving} {x : Serving}

/-- The rest of a patch's program after its update. -/
def updated : Except DbError Unit → Handler
  | .ok () => handleGetSettings
  | .error _ => .ret (.error internalError)

/-- The rest of the program of a call after its read. -/
def answered : Except DbError Settings → Handler
  | .ok v => .ret (.ok (.json v))
  | .error _ => .ret (.error internalError)

lemma handleGetSettings_eq : (handleGetSettings : Handler) =
    .auto ReadTools.householdSettings answered :=
  congrArg (Prog.auto ReadTools.householdSettings) (funext fun r => by cases r <;> rfl)

/-- How a call ends: with the row it has read, or with an error, which may come after its update. -/
structure Ends (x : Serving) (o : Outcome) : Prop where
  answered : ∀ v, o = .answered v → x.progress = some (.ret (.ok (.json v))) ∧
    (x.call = .get ∨ x.stored = true)
  failed : ∀ message, o = .failed message → x.stored = false ∨
    x.progress = some (.ret (.error internalError))

/-- What the server does next with a call. -/
lemma begun_cases (hfit : Fits x) :
    (∃ r, x.progress.getD (handler why x.call) = .ret r ∧ Ends x (x.call.hears r)) ∨
    (∃ b, x.call = .patch b ∧ x.stored = false ∧
      x.progress.getD (handler why x.call) = .auto (updateSettings b.patch) updated) ∨
    (x.call = .get ∨ x.stored = true) ∧
      x.progress.getD (handler why x.call) = handleGetSettings := by
  rcases hfit.progress with ⟨hp, hs⟩ | ⟨hp, hs⟩ | hp | ⟨v, hp, hread⟩ <;> rw [hp]
  · cases hc : x.call with
    | get => exact Or.inr (Or.inr ⟨Or.inl rfl, rfl⟩)
    | patch b =>
      have hne : b.patch.isEmpty ≠ true := by simp [hfit.nonempty b hc]
      simp only [Option.getD_none, handler, decode]
      split
      · refine Or.inr (Or.inl ⟨b, rfl, hs, ?_⟩)
        rw [handlePatchSettings, updateHouseholdSettings, if_neg hne]
        refine congrArg (Prog.auto (updateSettings b.patch)) (funext fun r => ?_)
        rcases r with e | ⟨⟩ <;> rfl
      · exact Or.inl ⟨_, rfl, ⟨fun v h => (by cases h), fun _ _ => Or.inl hs⟩⟩
  · exact Or.inr (Or.inr ⟨Or.inr hs, rfl⟩)
  · refine Or.inl ⟨_, rfl, ⟨fun v h => ?_, fun _ _ => Or.inr hp⟩⟩
    cases hc : x.call <;> rw [hc] at h <;> cases h
  · refine Or.inl ⟨_, rfl, ⟨fun w h => ?_, fun _ h => ?_⟩⟩
    · obtain rfl : v = w := by cases hc : x.call <;> rw [hc] at h <;> cases h <;> rfl
      exact ⟨hp, hread⟩
    · cases hc : x.call <;> rw [hc] at h <;> cases h

/-- The place of one of the calls. -/
lemma split_at {l : List Serving} {i : ℕ} (h : l[i]? = some x) :
    ∃ before after, l = before ++ x :: after ∧ before.length = i ∧
      (∀ y, l.set i y = before ++ y :: after) ∧ l.eraseIdx i = before ++ after := by
  obtain ⟨hlt, rfl⟩ := List.getElem?_eq_some_iff.mp h
  refine ⟨l.take i, l.drop (i + 1), ?_, List.length_take_of_le hlt.le,
    fun y => List.set_eq_take_append_cons_drop.trans (if_pos hlt),
    List.eraseIdx_eq_take_drop_succ _ _⟩
  rw [List.getElem_cons_drop, List.take_append_drop]

/-- The server goes on with a call. -/
lemma serve_cases (hv : Valid s.db.settings) (hfit : ∀ x ∈ s.calls, Fits x) (i : ℕ)
    (fault : Label → Option DbError) : serve why s i fault = s ∨
      ∃ before x after, s.calls = before ++ x :: after ∧ before.length = i ∧
        ((∃ x' d' new, Statement fault s.db x x' d' new ∧ serve why s i fault =
          { s with db := d', calls := before ++ x' :: after, saves := s.saves ++ new }) ∨
        ∃ o, Ends x o ∧ serve why s i fault = ended s (before ++ after) x o) := by
  cases hx : s.calls[i]? with
  | none => exact Or.inl (by rw [serve, hx])
  | some x =>
    obtain ⟨before, after, hcalls, hlen, hset, herase⟩ := split_at hx
    refine Or.inr ⟨before, x, after, hcalls, hlen, ?_⟩
    rcases begun_cases why (hfit x (hcalls ▸ by simp)) with
      ⟨r, hr, hends⟩ | ⟨b, hb, hs, hp⟩ | ⟨hread, hp⟩
    · refine Or.inr ⟨x.call.hears r, hends, ?_⟩
      simp only [serve, hx, hr, herase]
    · refine Or.inl ?_
      have hfailed : Statement fault s.db x
          { x with progress := some (.ret (.error internalError)) } s.db [] :=
        .failed (Or.inr ⟨by simp [hb], hs⟩)
      simp only [serve, hx, hp, hset]
      cases hf : fault (updateSettings b.patch).label with
      | some e => exact ⟨_, _, _, hfailed, by simp [updated]⟩
      | none =>
        cases ha : accepted b.patch with
        | true =>
          refine ⟨_, _, _, .stored b hb hs ha, ?_⟩
          simp only [Option.elim_none, run_updateSettings hv ha, ← b.set_eq]
          simp [updated, hb, Call.batch]
          rfl
        | false =>
          obtain ⟨e, he⟩ := run_updateSettings_error hv ha
          exact ⟨_, _, _, hfailed, by simp [he, updated]⟩
    · refine Or.inl ?_
      simp only [serve, hx, hp, hset, handleGetSettings_eq]
      cases hf : fault .read with
      | some e =>
        refine ⟨_, _, _, .failed (Or.inl (by simp [hf])), ?_⟩
        simp [show fault ReadTools.householdSettings.label = some e from hf, answered]
      | none =>
        refine ⟨_, _, _, .read hread, ?_⟩
        have hrun : ReadTools.householdSettings.run s.db = .ok ([], s.db.settings) := rfl
        simp [show fault ReadTools.householdSettings.label = none from hf, hrun, answered]

/-! ### Every edit is in one save -/

/-- The edits of the saves that are stored. -/
def storedEdits (saves : Saves) : List Edit :=
  (saves.filter Prod.snd).flatMap fun x => x.1.edits

/-- The save of a call that is not decided. -/
def Serving.undecided (x : Serving) : List Batch := if x.stored then [] else x.call.batch

/-- The saves under way that are not decided. -/
def undecided (calls : List Serving) : List Batch := calls.flatMap Serving.undecided

lemma undecided_at (before : List Serving) (x : Serving) (after : List Serving) :
    undecided (before ++ x :: after) =
      undecided before ++ (x.undecided ++ undecided after) := by
  simp [undecided]

/-- What a flush sends. -/
def due (b : Batch) : List Batch := if b.patch.isEmpty then [] else [b]

lemma due_edits (b : Batch) : (due b).flatMap Batch.edits = b.edits := by
  unfold due
  split
  · rw [b.isEmpty_iff.mp ‹_›]
    rfl
  · simp

/-- A call that has just been sent. -/
def asked (c : Call) : Serving := ⟨c, none, true, false⟩

lemma flush_eq (s : State) : flush s = { s with
    pendingPatch := Batch.empty
    saveTimer := false
    calls := s.calls ++ (due s.pendingPatch).map fun b => asked (.patch b)
    sent := s.sent ++ due s.pendingPatch } := by
  unfold flush due send
  dsimp only
  split
  · simp
  · simp [asked, Call.batch]

lemma undecided_asked (l : List Batch) :
    undecided (l.map fun b => asked (.patch b)) = l := by
  induction l with
  | nil => rfl
  | cons b l ih => exact congrArg (b :: ·) ih

lemma fits_due {b : Batch} : ∀ x ∈ (due b).map fun b => asked (.patch b), Fits x := by
  unfold due
  split
  · exact List.forall_mem_nil _
  · refine List.forall_mem_singleton.mpr ⟨fun b' h => ?_, Or.inl ⟨rfl, rfl⟩⟩
    cases h
    exact Bool.eq_false_iff.mpr ‹_›

/-- What was typed is in the saves that were sent, or waits for the timer. Each save is decided at
most once, and the row has the stored ones. -/
structure Kept (d : Db) (s : State) : Prop where
  typed : s.typed = s.sent.flatMap Batch.edits ++ s.pendingPatch.edits
  once : (s.saves.map Prod.fst ++ undecided s.calls).Perm s.sent
  db : s.db = { d with settings := edited d.settings (storedEdits s.saves) }
  accepted : ∀ b, (b, true) ∈ s.saves → accepted b.patch = true
  answered : ∀ b v, (.patch b, .answered v) ∈ s.answers → (b, true) ∈ s.saves
  fits : ∀ x ∈ s.calls, Fits x
  stored : ∀ x ∈ s.calls, x.stored = true → ∀ b, x.call = .patch b → (b, true) ∈ s.saves
  timer : s.saveTimer = true ↔ s.pendingPatch.edits ≠ []
  closed : s.isOpen = false → s.pendingPatch.edits = []
  valid : Valid s.db.settings

lemma kept_start {d : Db} (hv : Valid d.settings) : Kept d (start d) where
  typed := rfl
  once := .nil
  db := rfl
  accepted _ h := by simp [start] at h
  answered _ _ h := by simp [start] at h
  fits _ h := by simp [start] at h
  stored _ h := by simp [start] at h
  timer := by simp [start]
  closed _ := rfl
  valid := hv

variable {d : Db}

lemma Kept.flush (h : Kept d s) (isOpen : Bool) :
    Kept d (SettingsModal.flush { s with isOpen := isOpen }) := by
  rw [flush_eq]
  refine ⟨?_, ?_, h.db, h.accepted, h.answered, ?_, ?_, by simp, fun _ => rfl, h.valid⟩
  · simp only [List.flatMap_append, due_edits, Batch.edits_empty, List.append_nil]
    exact h.typed
  · have happend : undecided (s.calls ++ (due s.pendingPatch).map fun b => asked (.patch b)) =
        undecided s.calls ++ due s.pendingPatch := by
      conv_rhs => rw [← undecided_asked (due s.pendingPatch)]
      exact List.flatMap_append
    simp only [happend, ← List.append_assoc]
    exact h.once.append_right _
  · exact List.forall_mem_append.mpr ⟨h.fits, fits_due⟩
  · refine List.forall_mem_append.mpr ⟨h.stored, fun x hx hs => ?_⟩
    obtain ⟨b, -, rfl⟩ := List.mem_map.mp hx
    cases hs

/-- A save moves to those that are decided. -/
lemma perm_decided (l m before after : List Batch) :
    (l ++ m ++ (before ++ after)).Perm (l ++ (before ++ (m ++ after))) := by
  rw [List.append_assoc]
  exact (List.Perm.refl l).append (List.perm_append_comm_assoc m before after)

lemma storedEdits_failed (saves : Saves) (bs : List Batch) :
    storedEdits (saves ++ bs.map fun b => (b, false)) = storedEdits saves := by
  unfold storedEdits
  have hnone : (bs.map fun b => (b, false)).filter Prod.snd = [] :=
    List.filter_eq_nil_iff.mpr (by simp)
  rw [List.filter_append, hnone, List.append_nil]

lemma Kept.ended (h : Kept d s) (hcalls : s.calls = before ++ x :: after) {o : Outcome}
    (ho : ∀ v, o = .answered v → x.call = .get ∨ x.stored = true) :
    Kept d (ended s (before ++ after) x o) := by
  have hsub : ∀ y ∈ before ++ after, y ∈ s.calls := by
    intro y hy
    rw [hcalls]
    rcases List.mem_append.mp hy with hy | hy
    · exact List.mem_append_left _ hy
    · exact List.mem_append_right _ (List.mem_cons_of_mem _ hy)
  have hx : x ∈ s.calls := by simp [hcalls]
  have hnew : (if x.stored then [] else x.call.batch.map fun b => (b, false) : Saves) =
      x.undecided.map fun b => (b, false) := by
    unfold Serving.undecided
    split <;> rfl
  unfold SettingsModal.ended
  rw [hnew]
  refine ⟨h.typed, ?_, ?_, fun b hb => ?_, fun b v hb => ?_, fun y hy => h.fits y (hsub y hy),
    fun y hy hs b hb => ?_, h.timer, h.closed, h.valid⟩
  · have honce := h.once
    rw [hcalls, undecided_at] at honce
    refine List.Perm.trans ?_ honce
    have hfst : (x.undecided.map fun b => (b, false)).map Prod.fst = x.undecided := by
      rw [List.map_map]
      exact List.map_id _
    simp only [List.map_append, hfst, undecided, List.flatMap_append]
    exact perm_decided _ _ _ _
  · simp only [storedEdits_failed]
    exact h.db
  · refine h.accepted b ?_
    simpa using hb
  · refine List.mem_append_left _ ?_
    rcases List.mem_append.mp hb with hb | hb
    · exact h.answered b v hb
    · split at hb
      · obtain ⟨hc, rfl⟩ : Call.patch b = x.call ∧ Outcome.answered v = o := by simpa using hb
        rcases ho v rfl with hget | hs
        · rw [hget] at hc
          cases hc
        · exact h.stored x hx hs b hc.symm
      · cases hb
  · exact List.mem_append_left _ (h.stored y (hsub y hy) hs b hb)

/-- The call at a place is another. -/
lemma forall_at {p : Serving → Prop} {y : Serving} (h : ∀ z ∈ before ++ x :: after, p z)
    (hy : p y) : ∀ z ∈ before ++ y :: after, p z := by
  simp only [List.forall_mem_append, List.forall_mem_cons] at h ⊢
  exact ⟨h.1, hy, h.2.2⟩

lemma Kept.statement (h : Kept d s) (hcalls : s.calls = before ++ x :: after)
    {fault : Label → Option DbError} {x' : Serving} {d' : Db} {new : Saves}
    (hst : Statement fault s.db x x' d' new) :
    Kept d { s with db := d', calls := before ++ x' :: after, saves := s.saves ++ new } := by
  have hx : x ∈ s.calls := by simp [hcalls]
  have hfit := h.fits x hx
  have hfits := hcalls ▸ h.fits
  have hstored := hcalls ▸ h.stored
  have honce := h.once
  rw [hcalls, undecided_at] at honce
  cases hst with
  | failed hf =>
    rw [List.append_nil]
    refine ⟨h.typed, ?_, h.db, h.accepted, h.answered, forall_at hfits ⟨hfit.nonempty, ?_⟩,
      forall_at hstored (h.stored x hx), h.timer, h.closed, h.valid⟩
    · rw [undecided_at]
      exact honce
    · exact Or.inr (Or.inr (Or.inl rfl))
  | stored b hcall hx' ha =>
    have hnow : ∀ b, (b, true) ∈ s.saves → (b, true) ∈ s.saves ++ [(b, true)] := fun b hb =>
      List.mem_append_left _ hb
    have hu : x.undecided = [b] := by simp [Serving.undecided, hx', hcall, Call.batch]
    refine ⟨h.typed, ?_, ?_, fun b' hb => ?_, fun b' v hb => List.mem_append_left _
      (h.answered b' v hb), forall_at hfits ⟨hfit.nonempty, ?_⟩, ?_, h.timer, h.closed, ?_⟩
    · rw [hu] at honce
      rw [undecided_at]
      refine List.Perm.trans ?_ honce
      rw [List.map_append]
      exact perm_decided _ [b] _ _
    · show { s.db with settings := edited s.db.settings b.edits } = _
      have hnew : storedEdits (s.saves ++ [(b, true)]) = storedEdits s.saves ++ b.edits := by
        simp [storedEdits]
      rw [hnew, edited_append, h.db]
    · rcases List.mem_append.mp hb with hb | hb
      · exact h.accepted b' hb
      · obtain rfl : b' = b := by simpa using hb
        exact ha
    · exact Or.inr (Or.inl ⟨rfl, rfl⟩)
    · refine forall_at (fun y hy hs b' hb' => List.mem_append_left _ (hstored y hy hs b' hb'))
        fun _ b' hb' => ?_
      obtain rfl : b = b' := by
        have := hcall.symm.trans hb'
        cases this
        rfl
      exact List.mem_append_right _ (List.mem_singleton.mpr rfl)
    · rw [← b.set_eq]
      exact ((accepted_iff h.valid).mp ha).1
  | read hread =>
    rw [List.append_nil]
    refine ⟨h.typed, ?_, h.db, h.accepted, h.answered, forall_at hfits ⟨hfit.nonempty, ?_⟩,
      forall_at hstored (h.stored x hx), h.timer, h.closed, h.valid⟩
    · rw [undecided_at]
      exact honce
    · exact Or.inr (Or.inr (Or.inr ⟨_, rfl, hread⟩))

lemma Kept.unreached (h : Kept d s) (i : ℕ) (message : String) :
    Kept d (unreached s i message) := by
  unfold SettingsModal.unreached
  cases hx : s.calls[i]? with
  | none => exact h
  | some x =>
    obtain ⟨before, after, hcalls, -, -, herase⟩ := split_at hx
    simp only [herase]
    split
    · exact h.ended hcalls fun v hv => by cases hv
    · exact h

lemma Kept.lost (h : Kept d s) (i : ℕ) (message : String) : Kept d (lost s i message) := by
  unfold SettingsModal.lost
  cases hx : s.calls[i]? with
  | none => exact h
  | some x =>
    obtain ⟨before, after, hcalls, -, hset, -⟩ := split_at hx
    simp only [hset]
    split
    · have hmem : x ∈ s.calls := by simp [hcalls]
      refine ⟨h.typed, ?_, h.db, h.accepted, fun b v hb => ?_,
        forall_at (hcalls ▸ h.fits) ⟨(h.fits x hmem).nonempty, (h.fits x hmem).progress⟩,
        forall_at (hcalls ▸ h.stored) (h.stored x hmem), h.timer, h.closed, h.valid⟩
      · have honce := h.once
        rw [hcalls, undecided_at] at honce
        rw [undecided_at]
        exact honce
      · refine h.answered b v ?_
        simpa using hb
    · exact h

lemma Kept.arrive (h : Kept d s) (i : ℕ) : Kept d (arrive s i) := by
  unfold SettingsModal.arrive
  split
  · exact h
  · have hanswered : ∀ b v, (.patch b, .answered v) ∈ s.answers.eraseIdx i → (b, true) ∈ s.saves :=
      fun b v hb => h.answered b v (List.mem_of_mem_eraseIdx hb)
    unfold hear
    split
    · exact { h with answered := hanswered }
    · split <;> exact { h with answered := hanswered }

lemma Kept.step (h : Kept d s) (e : Event) : Kept d (step why s e) := by
  cases e with
  | opened =>
    simp only [SettingsModal.step]
    split
    · exact h
    · refine ⟨?_, ?_, h.db, h.accepted, h.answered, ?_, ?_, h.timer, fun ho => (by cases ho),
        h.valid⟩
      · simpa [send, Call.batch] using h.typed
      · simpa [send, Call.batch, undecided, Serving.undecided] using h.once
      · refine List.forall_mem_append.mpr ⟨h.fits, List.forall_mem_singleton.mpr ?_⟩
        exact ⟨fun b hb => (by cases hb), Or.inl ⟨rfl, rfl⟩⟩
      · refine List.forall_mem_append.mpr ⟨h.stored, List.forall_mem_singleton.mpr ?_⟩
        exact fun hs => by cases hs
  | closed =>
    simp only [SettingsModal.step]
    split
    · split
      · exact { h with closed := fun _ => s.pendingPatch.isEmpty_iff.mp ‹_› }
      · exact h.flush false
    · exact h
  | edit e =>
    simp only [SettingsModal.step]
    split
    · rename_i ho
      refine ⟨?_, h.once, h.db, h.accepted, h.answered, h.fits, h.stored,
        by simp [update, scheduleSave], fun hc => ?_, h.valid⟩
      · simp [update, scheduleSave, h.typed]
      · simp only [update, scheduleSave] at hc
        rw [hc] at ho
        cases ho
    · exact h
  | timer =>
    simp only [SettingsModal.step]
    split
    · exact h.flush s.isOpen
    · exact h
  | serve i fault =>
    rcases serve_cases why h.valid h.fits i fault with heq | ⟨before, x, after, hcalls, -, hmove⟩
    · simp only [SettingsModal.step, heq]
      exact h
    · rcases hmove with ⟨x', d', new, hst, heq⟩ | ⟨o, ho, heq⟩ <;>
        simp only [SettingsModal.step, heq]
      · exact h.statement hcalls hst
      · exact h.ended hcalls fun v hv => (ho.answered v hv).2
  | unreached i message => exact h.unreached i message
  | lost i message => exact h.lost i message
  | arrive i => exact h.arrive i

lemma kept_run {d : Db} (hv : Valid d.settings) (es : List Event) :
    Kept d (run why (start d) es) := by
  unfold run
  induction es using List.reverseRecOn with
  | nil => exact kept_start hv
  | append_singleton es e ih =>
    rw [List.foldl_concat]
    exact ih.step why e

/-- **Every edit is in one save**: however the form is opened and closed, its timer runs out, the
statements of the calls come one after the other and fail, and the calls are given up, what was
typed is in the saves that were sent, in the order it was typed, but for what waits for the timer of
an open form. Each save is stored, not stored, or under way; the row is what the edits of the stored
saves make of it, one save after the other in the order they were stored; and a save is stored only
when its patch is good, and always when it is answered with success. -/
theorem each_edit_once (why : SettingsPatch → String) (d : Db) (hv : Valid d.settings)
    (es : List Event) :
    (run why (start d) es).typed = (run why (start d) es).sent.flatMap Batch.edits ++
      (run why (start d) es).pendingPatch.edits ∧
    ((run why (start d) es).saves.map Prod.fst ++ undecided (run why (start d) es).calls).Perm
      (run why (start d) es).sent ∧
    (run why (start d) es).db =
      { d with settings := edited d.settings (storedEdits (run why (start d) es).saves) } ∧
    (∀ b, (b, true) ∈ (run why (start d) es).saves → accepted b.patch = true) ∧
    (∀ b v, (.patch b, .answered v) ∈ (run why (start d) es).answers →
      (b, true) ∈ (run why (start d) es).saves) ∧
    ((run why (start d) es).pendingPatch.edits ≠ [] →
      (run why (start d) es).isOpen = true ∧ (run why (start d) es).saveTimer = true) := by
  have h := kept_run why hv es
  refine ⟨h.typed, h.once, h.db, h.accepted, h.answered, fun hp => ⟨?_, h.timer.mpr hp⟩⟩
  by_contra hopen
  exact hp (h.closed (Bool.eq_false_iff.mpr hopen))

def noFault : Label → Option DbError := fun _ => none

def noInt : SettingsPatch → String := fun _ => "json: cannot unmarshal number"

/-- A text is saved while the save of its beginning is under way, and the server updates the row
with the later one first. -/
def overtaken : List Event := [.opened, .serve 0 noFault, .serve 0 noFault, .arrive 0,
  .edit (.notesMd "Inga"), .timer, .edit (.notesMd "Inga nötter"), .timer, .serve 1 noFault,
  .serve 0 noFault, .serve 1 noFault, .serve 1 noFault, .serve 0 noFault, .serve 0 noFault]

theorem each_edit_once_overtaken : (run noInt (start migrated) overtaken).db =
    { migrated with
      settings := edited migrated.settings [.notesMd "Inga nötter", .notesMd "Inga"] } :=
  (each_edit_once noInt migrated valid_migrated overtaken).2.2.1

/-! ### The form shows the row -/

/-- The edits of the saves that failed after the last one that was stored. -/
def failedLast (saves : Saves) : List Edit :=
  saves.foldl (fun l x => if x.2 then [] else l ++ x.1.edits) []

lemma failedLast_failed (saves : Saves) (c : Call) :
    failedLast (saves ++ c.batch.map fun b => (b, false)) = failedLast saves ++ c.edits := by
  cases c <;> simp [failedLast, Call.batch, Call.edits]

def given : Outcome → Option Settings
  | .answered v => some v
  | .failed _ => none

/-- The settings that have come, or are on their way. -/
def coming (base : Option Settings) (answers : List (Call × Outcome)) : List Settings :=
  base.toList ++ answers.filterMap fun x => given x.2

/-- The save of a call that is answered. -/
def asSave (x : Call × Outcome) : Saves := x.1.batch.map fun b => (b, (given x.2).isSome)

/-- The saves under way that are stored. -/
def storedNow (calls : List Serving) : Saves :=
  calls.flatMap fun x => if x.stored then x.call.batch.map fun b => (b, true) else []

def editsOf (saves : Saves) : List Edit := saves.flatMap fun x => x.1.edits

/-- Edits that are not stored as far as the page knows. -/
def outstanding (done : Saves) (s : State) : List Edit :=
  failedLast done ++ editsOf (s.answers.flatMap asSave) ++
    (s.calls.flatMap fun x => x.call.edits) ++ s.pendingPatch.edits

lemma editsOf_asSave (x : Call × Outcome) : editsOf (asSave x) = x.1.edits := by
  obtain ⟨c, o⟩ := x
  cases c <;> simp [editsOf, asSave, Call.batch, Call.edits]

lemma editsOf_append (l l' : Saves) : editsOf (l ++ l') = editsOf l ++ editsOf l' :=
  List.flatMap_append

/-- The call that is handled has read the row as it is, or failed before its update. -/
structure Ready (d : Db) (x : Serving) : Prop where
  read : ∀ v, x.progress = some (.ret (.ok (.json v))) → v = d.settings
  failed : x.progress = some (.ret (.error internalError)) → x.stored = false

/-- A call that is not handled. -/
structure Waits (x : Serving) : Prop where
  progress : x.progress = none
  stored : x.stored = false

lemma Waits.ready (h : Waits x) (d : Db) : Ready d x := by
  constructor <;> simp [h.progress]

/-- The form shows the settings that came last, with what was typed since. The page has heard of
the saves in `done`; the first of the calls is handled, and the others wait. -/
structure Seen (s : State) (base : Option Settings) (since : List Edit) (done : Saves) : Prop where
  shown : s.settings = base.map fun b => edited b since
  saves : s.saves = done ++ s.answers.flatMap asSave ++ storedNow s.calls
  last : ∀ v, (coming base s.answers).getLast? = some v →
    edited v (editsOf (storedNow s.calls)) = s.db.settings
  since : since <:+ outstanding done s
  waiting : ∀ x ∈ s.calls, x.waiting = true
  first : ∀ x ∈ s.calls.head?, Ready s.db x
  rest : ∀ x ∈ s.calls.tail, Waits x

lemma seen_start (d : Db) : Seen (start d) none [] [] where
  shown := rfl
  saves := rfl
  last v h := by simp [coming, start] at h
  since := List.nil_suffix
  waiting _ h := by simp [start] at h
  first _ h := by simp [start] at h
  rest _ h := by simp [start] at h

section

variable {base : Option Settings} {since : List Edit} {done : Saves}

/-- One call more is sent, with what waited for it. -/
lemma Seen.send (h : Seen s base since done) {c : Call} {p : Batch}
    (hp : c.edits ++ p.edits = s.pendingPatch.edits) (isOpen loaded timer : Bool) :
    Seen (SettingsModal.send
      { s with isOpen := isOpen, loaded := loaded, pendingPatch := p, saveTimer := timer } c)
      base since done := by
  have hnow : storedNow (s.calls ++ [⟨c, none, true, false⟩]) = storedNow s.calls := by
    simp [storedNow]
  refine ⟨h.shown, ?_, ?_, ?_, ?_, ?_, ?_⟩ <;> simp only [SettingsModal.send]
  · rw [hnow]
    exact h.saves
  · rw [hnow]
    exact h.last
  · have hsame : outstanding done (SettingsModal.send
        { s with isOpen := isOpen, loaded := loaded, pendingPatch := p, saveTimer := timer } c) =
        outstanding done s := by
      simp [outstanding, SettingsModal.send, ← hp]
    exact hsame ▸ h.since
  · exact List.forall_mem_append.mpr ⟨h.waiting, List.forall_mem_singleton.mpr rfl⟩
  · cases hc : s.calls with
    | nil =>
      intro x hx
      cases hx
      exact Waits.ready ⟨rfl, rfl⟩ _
    | cons y l => exact fun x hx => h.first x (by rw [hc]; exact hx)
  · cases hc : s.calls with
    | nil => simp
    | cons y l =>
      have hrest := h.rest
      rw [hc] at hrest
      exact List.forall_mem_append.mpr ⟨hrest, List.forall_mem_singleton.mpr ⟨rfl, rfl⟩⟩

lemma Seen.flush (h : Seen s base since done) (isOpen : Bool) :
    Seen (flush { s with isOpen := isOpen }) base since done := by
  unfold SettingsModal.flush
  dsimp only
  split
  · have hnone : s.pendingPatch.edits = [] := s.pendingPatch.isEmpty_iff.mp ‹_›
    refine ⟨h.shown, h.saves, h.last, ?_, h.waiting, h.first, h.rest⟩
    have hsince := h.since
    simp only [outstanding, hnone] at hsince ⊢
    exact hsince
  · exact h.send (c := .patch s.pendingPatch) (p := Batch.empty) (by simp [Call.edits, Call.batch])
      isOpen s.loaded false

lemma Seen.update (h : Seen s base since done) (e : Edit) :
    Seen (update s e) base (since ++ [e]) done where
  shown := by
    show s.settings.map e.set = _
    rw [h.shown, Option.map_map]
    congr 1
    funext b
    rw [edited_append]
    rfl
  saves := h.saves
  last := h.last
  since := by
    obtain ⟨before, hbefore⟩ := h.since
    refine ⟨before, ?_⟩
    rw [← List.append_assoc, hbefore]
    simp [outstanding, SettingsModal.update, scheduleSave]
  waiting := h.waiting
  first := h.first
  rest := h.rest

/-- The first call is over. -/
lemma Seen.ended (h : Seen s base since done) (hcalls : s.calls = x :: after) {o : Outcome}
    (ho : Ends x o) : Seen (ended s after x o) base since done := by
  have hready : Ready s.db x := h.first x (by simp [hcalls])
  have hwaits : ∀ y ∈ after, Waits y := fun y hy => h.rest y (by simp [hcalls, hy])
  have hnow : storedNow after = [] :=
    List.flatMap_eq_nil_iff.mpr fun y hy => by simp [(hwaits y hy).stored]
  have hsaves := h.saves
  have hlast := h.last
  have hsince := h.since
  have hw := h.waiting x (by simp [hcalls])
  have hstored : storedNow s.calls =
      if x.stored then x.call.batch.map fun b => (b, true) else [] := by
    rw [hcalls, storedNow, List.flatMap_cons, ← storedNow, hnow, List.append_nil]
  rw [hstored] at hsaves hlast
  -- a call that is answered has been stored, and one that fails has not
  have hboth : (if x.stored then x.call.batch.map fun b => (b, true) else [] : Saves) ++
      (if x.stored then [] else x.call.batch.map fun b => (b, false)) = asSave (x.call, o) ∧
      ∀ v, (coming base (s.answers ++ [(x.call, o)])).getLast? = some v → v = s.db.settings := by
    cases o with
    | answered v =>
      obtain ⟨hp, hread⟩ := ho.answered v rfl
      refine ⟨?_, fun w hw => ?_⟩
      · rcases hread with hget | hs
        · simp [hget, Call.batch, asSave]
        · simp [hs, asSave, given]
      · have hv : v = w := by simpa [coming, given] using hw
        exact hv.symm.trans (hready.read v hp)
    | failed message =>
      have hs : x.stored = false := (ho.failed message rfl).elim id hready.failed
      refine ⟨by simp [hs, asSave, given], fun w hw => ?_⟩
      have hold := hlast w (by simpa [coming, given] using hw)
      simpa [hs, editsOf] using hold
  unfold SettingsModal.ended
  rw [hw, if_pos rfl]
  refine ⟨h.shown, ?_, ?_, ?_, fun y hy => h.waiting y (by simp [hcalls, hy]), fun y hy => ?_,
    fun y hy => hwaits y (List.mem_of_mem_tail hy)⟩
  · simp only [hnow, List.append_nil, List.flatMap_append, List.flatMap_singleton, ← hboth.1]
    rw [hsaves]
    simp only [List.append_assoc]
  · intro v hv
    rw [hnow, editsOf, List.flatMap_nil, edited_nil]
    exact hboth.2 v hv
  · have hsame : outstanding done { s with
        calls := after
        answers := s.answers ++ [(x.call, o)]
        saves := s.saves ++ if x.stored then [] else x.call.batch.map fun b => (b, false) } =
        outstanding done s := by
      simp [outstanding, hcalls, editsOf_append, editsOf_asSave]
    rw [hsame]
    exact h.since
  · exact (hwaits y (List.mem_of_mem_head? hy)).ready _

/-- A statement of the first call. -/
lemma Seen.statement (h : Seen s base since done) (hcalls : s.calls = x :: after)
    {fault : Label → Option DbError} (hf : fault .read = none) {x' : Serving} {d' : Db}
    {new : Saves} (hst : Statement fault s.db x x' d' new) :
    Seen { s with db := d', calls := x' :: after, saves := s.saves ++ new } base since done := by
  have hw := h.waiting x (by simp [hcalls])
  have hwaiting : ∀ y ∈ after, y.waiting = true := fun y hy => h.waiting y (by simp [hcalls, hy])
  have hrest : ∀ y ∈ after, Waits y := fun y hy => h.rest y (by simp [hcalls, hy])
  have hsaves := h.saves
  have hlast := h.last
  have hsince := h.since
  rw [hcalls] at hsaves hlast
  simp only [outstanding, hcalls] at hsince
  cases hst with
  | failed hfail =>
    have hs : x.stored = false := (hfail.resolve_left (not_not.mpr hf)).2
    rw [List.append_nil]
    refine ⟨h.shown, hsaves, hlast, hsince, List.forall_mem_cons.mpr ⟨hw, hwaiting⟩, fun y hy => ?_,
      hrest⟩
    cases hy
    exact ⟨fun v hv => (by cases hv), fun _ => hs⟩
  | stored b hcall hs ha =>
    have hnow : storedNow after = [] :=
      List.flatMap_eq_nil_iff.mpr fun y hy => by simp [(hrest y hy).stored]
    have hold : storedNow (x :: after) = [] := by
      rw [storedNow, List.flatMap_cons, ← storedNow, hnow, hs]
      rfl
    rw [hold] at hsaves hlast
    have hnew : storedNow ({ x with progress := some handleGetSettings, stored := true } :: after) =
        [(b, true)] := by
      rw [storedNow, List.flatMap_cons, ← storedNow, hnow]
      simp [hcall, Call.batch]
    refine ⟨h.shown, ?_, fun v hv => ?_, hsince, List.forall_mem_cons.mpr ⟨hw, hwaiting⟩,
      fun y hy => ?_, hrest⟩
    · rw [hnew, hsaves, List.append_nil]
    · rw [hnew]
      have hv := hlast v hv
      simp only [editsOf, List.flatMap_nil, edited_nil] at hv
      simp [editsOf, hv]
    · cases hy
      refine ⟨fun v hv => ?_, fun hv => ?_⟩ <;> rw [handleGetSettings_eq] at hv <;> cases hv
  | read hread =>
    rw [List.append_nil]
    refine ⟨h.shown, hsaves, hlast, hsince, List.forall_mem_cons.mpr ⟨hw, hwaiting⟩, fun y hy => ?_,
      hrest⟩
    cases hy
    refine ⟨fun v hv => ?_, fun hv => by cases hv⟩
    cases hv
    rfl

/-- The page hears of the call that was over first. -/
lemma Seen.arrive (h : Seen s base since done) :
    ∃ base since done, Seen (arrive s 0) base since done := by
  unfold SettingsModal.arrive
  cases hans : s.answers with
  | nil => exact ⟨base, since, done, h⟩
  | cons a rest =>
    obtain ⟨c, o⟩ := a
    have hsaves : s.saves = done ++ asSave (c, o) ++ rest.flatMap asSave ++ storedNow s.calls := by
      rw [h.saves, hans, List.flatMap_cons]
      simp only [List.append_assoc]
    cases o with
    | failed message =>
      have hlast : ∀ w, (coming base rest).getLast? = some w →
          edited w (editsOf (storedNow s.calls)) = s.db.settings := by
        intro w hw
        refine h.last w ?_
        rw [hans]
        simpa [coming, given] using hw
      refine ⟨base, since, done ++ asSave (c, .failed message), h.shown, hsaves, hlast, ?_,
        h.waiting, h.first, h.rest⟩
      have hsince := h.since
      have hfailed : failedLast (done ++ asSave (c, .failed message)) =
          failedLast done ++ c.edits := failedLast_failed done c
      simp only [outstanding, hans, List.flatMap_cons, editsOf_append, editsOf_asSave] at hsince
      simpa [outstanding, hear, hfailed] using hsince
    | answered v =>
      have hlast : ∀ w, (coming (some v) rest).getLast? = some w →
          edited w (editsOf (storedNow s.calls)) = s.db.settings := by
        intro w hw
        refine h.last w ?_
        rw [hans, ← hw]
        simp [coming, given, List.getLast?_append, List.getLast?_cons]
      refine ⟨some v, [], done ++ asSave (c, .answered v), ?_⟩
      cases c with
      | get => exact ⟨rfl, hsaves, hlast, List.nil_suffix, h.waiting, h.first, h.rest⟩
      | patch b => exact ⟨rfl, hsaves, hlast, List.nil_suffix, h.waiting, h.first, h.rest⟩

end

/-- The server handles the calls one after the other, in the order they were sent, and none of its
reads fails; the page hears of them in turn, and of each. -/
def Event.InTurn : Event → Prop
  | serve i fault => i = 0 ∧ fault .read = none
  | unreached i _ | arrive i => i = 0
  | lost _ _ => False
  | _ => True

lemma seen_step {base : Option Settings} {since : List Edit} {done : Saves}
    (h : Seen s base since done) (hv : Valid s.db.settings) (hfits : ∀ x ∈ s.calls, Fits x)
    {e : Event} (he : e.InTurn) : ∃ base since done, Seen (step why s e) base since done := by
  cases e with
  | opened =>
    simp only [step]
    split
    · exact ⟨_, _, _, h⟩
    · exact ⟨_, _, _, h.send (c := .get) (p := s.pendingPatch) rfl true false s.saveTimer⟩
  | closed =>
    simp only [step]
    split
    · split
      · exact ⟨_, _, _, h.shown, h.saves, h.last, h.since, h.waiting, h.first, h.rest⟩
      · exact ⟨_, _, _, h.flush false⟩
    · exact ⟨_, _, _, h⟩
  | edit e =>
    simp only [step]
    split
    · exact ⟨_, _, _, h.update e⟩
    · exact ⟨_, _, _, h⟩
  | timer =>
    simp only [step]
    split
    · exact ⟨_, _, _, h.flush s.isOpen⟩
    · exact ⟨_, _, _, h⟩
  | serve i fault =>
    obtain ⟨rfl, hf⟩ := he
    rcases serve_cases why hv hfits 0 fault with heq | ⟨before, x, after, hcalls, hlen, hmove⟩
    · exact ⟨_, _, _, by rw [step, heq]; exact h⟩
    · obtain rfl := List.length_eq_zero_iff.mp hlen
      rcases hmove with ⟨x', d', new, hst, heq⟩ | ⟨o, ho, heq⟩
      · exact ⟨_, _, _, by rw [step, heq]; exact h.statement hcalls hf hst⟩
      · exact ⟨_, _, _, by rw [step, heq]; exact h.ended hcalls ho⟩
  | unreached i message =>
    obtain rfl : i = 0 := he
    refine ⟨base, since, done, ?_⟩
    rw [step, unreached]
    cases hc : s.calls with
    | nil => exact h
    | cons x after =>
      simp only [List.getElem?_cons_zero, List.eraseIdx_cons_zero]
      split
      · rename_i hnone
        refine h.ended hc ⟨fun v hv => (by cases hv), fun _ _ => Or.inl ?_⟩
        rcases (hfits x (by simp [hc])).progress with hp | hp | hp | ⟨v, hp, -⟩
        · exact hp.2
        · simp [hp.1] at hnone
        · simp [hp] at hnone
        · simp [hp] at hnone
      · exact h
  | lost i message => exact he.elim
  | arrive i =>
    obtain rfl : i = 0 := he
    exact h.arrive

/-- Nothing is to be sent, handled or heard of. -/
structure AtRest (s : State) : Prop where
  pending : s.pendingPatch.edits = []
  calls : s.calls = []
  answers : s.answers = []

/-- **The form shows the row**: when the server handles the calls in turn, no read of the row fails,
and the page hears of each call in turn, the form at rest shows the row, but for edits of saves that
have failed since the last one that was stored. -/
theorem shown_is_stored (why : SettingsPatch → String) (d : Db) (hv : Valid d.settings)
    (es : List Event) (hes : ∀ e ∈ es, e.InTurn) (hrest : AtRest (run why (start d) es))
    (shown : Settings) (hshown : (run why (start d) es).settings = some shown) :
    ∃ lost, lost <:+ failedLast (run why (start d) es).saves ∧
      shown = edited (run why (start d) es).db.settings lost := by
  have hseen : ∃ base since done, Seen (run why (start d) es) base since done := by
    clear hrest hshown
    unfold run
    induction es using List.reverseRecOn with
    | nil => exact ⟨_, _, _, seen_start d⟩
    | append_singleton es e ih =>
      obtain ⟨base, since, done, h⟩ := ih fun e he => hes e (List.mem_append_left _ he)
      have hkept := kept_run why hv es
      rw [List.foldl_concat]
      exact seen_step why h hkept.valid hkept.fits (hes e (by simp))
  obtain ⟨base, since, done, h⟩ := hseen
  generalize run why (start d) es = s at *
  have hsince := h.since
  have hsaves := h.saves
  have hs := h.shown
  simp only [outstanding, hrest.pending, hrest.calls, hrest.answers] at hsince
  rw [hrest.answers, hrest.calls] at hsaves
  rw [hshown] at hs
  cases base with
  | none => cases hs
  | some b =>
    have hb : b = s.db.settings := by
      have hlast := h.last b (by simp [coming, hrest.answers])
      simpa [hrest.calls, storedNow, editsOf] using hlast
    refine ⟨since, by simpa [hsaves, editsOf, storedNow] using hsince, ?_⟩
    rw [← hb]
    exact Option.some.inj hs

/-- Two edits are saved, and then more dinners are asked for than there may be. -/
def typing : List Event := [.opened, .serve 0 noFault, .serve 0 noFault, .arrive 0,
  .edit (.notesMd "Inga nötter"), .edit (.defaultServings (some 3)), .timer, .serve 0 noFault,
  .serve 0 noFault, .serve 0 noFault, .arrive 0, .edit (.defaultDinners (some 15)), .closed,
  .serve 0 noFault, .serve 0 noFault, .arrive 0]

theorem shown_is_stored_typing :
    ∃ lost, lost <:+ failedLast (run noInt (start migrated) typing).saves ∧
      (⟨15, 1, -1, 3, "sv", "anthropic", "Inga nötter"⟩ : Settings) =
        edited (run noInt (start migrated) typing).db.settings lost :=
  shown_is_stored noInt migrated valid_migrated typing (by simp [typing, Event.InTurn, noFault])
    ⟨rfl, rfl, rfl⟩ _ rfl

end Veckomenyn.SettingsModal
