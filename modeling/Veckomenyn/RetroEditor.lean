import Mathlib.Data.List.Basic

/-!
The editor of a plan's retrospective, its timers and the saves it sends.

Timers fire in any order. The server handles the saves in the order they were sent; their outcomes
reach the browser in any order, and a save that is reported as failed may still be handled. A typed
text is a draft: it carries the number of the edit it was typed in.
-/

namespace Veckomenyn.RetroEditor

structure Draft where
  version : ℕ
  text : String
deriving DecidableEq

structure Timer where
  id : ℕ
  draft : Draft
  delay : ℕ
deriving DecidableEq

/-- The editor's one toast; the last kind has a button to save the draft again. -/
inductive Toast where
  | none
  | retrying (message : String)
  | failed (message : String) (next : Draft)
deriving DecidableEq

def retroDebounceMs : ℕ := 700
def retroMaxAttempts : ℕ := 3
def retroBackoffsMs : List ℕ := [1000, 3000, 9000]

/-- The component: its prop, its state and its refs. -/
structure Editor where
  initial : String
  value : String
  savedRef : String
  dirtyRef : Bool
  debounceRef : Option ℕ
  retryRef : Option ℕ
  attemptsRef : ℕ
  toast : Toast
deriving DecidableEq

/-- The saves in the order they were sent, what became of those the server has handled, and the
numbers of those whose outcome the browser waits for. -/
structure Saves where
  sent : List Draft
  outcomes : List Bool
  flying : List ℕ
deriving DecidableEq

structure State where
  editor : Editor
  timers : List Timer
  nextTimer : ℕ
  saves : Saves
  /-- The notes of the plan's retrospectives, the newest first. -/
  notes : List String
  /-- The edits so far, and the last of them. -/
  edits : ℕ
  typed : Option Draft
  /-- The editor has not been reset since the last edit. -/
  live : Bool
  /-- Whether the save sent last is known to have succeeded. -/
  last : Option Bool
  /-- Texts that were dropped from the editor while they were not stored. -/
  discarded : List String
deriving DecidableEq

def note (notes : List String) : String := notes.head?.getD ""

/-- The newest retrospective is changed, or the first one made. -/
def upsertWeekRetrospective (notes : List String) (notesMD : String) : List String :=
  match notes with
  | [] => [notesMD]
  | _ :: rest => notesMD :: rest

def start (notes : List String) : State where
  editor := ⟨note notes, note notes, note notes, false, none, none, 0, .none⟩
  timers := []
  nextTimer := 1
  saves := ⟨[], [], []⟩
  notes := notes
  edits := 0
  typed := none
  live := false
  last := none
  discarded := []

/-! ### Timers -/

def clearTimeout (id : Option ℕ) (timers : List Timer) : List Timer :=
  timers.filter fun t => some t.id ≠ id

/-! ### The functions of the component -/

/-- A save is sent. -/
def send (s : State) (next : Draft) : State :=
  { s with
    saves := { s.saves with
      sent := s.saves.sent ++ [next]
      flying := s.saves.flying ++ [s.saves.sent.length] }
    last := none }

def onChange (s : State) (next : String) : State :=
  let draft : Draft := ⟨s.edits + 1, next⟩
  { s with
    editor := { s.editor with
      value := next
      dirtyRef := next ≠ s.editor.savedRef
      debounceRef := some s.nextTimer
      attemptsRef := 0
      toast := .none }
    timers := clearTimeout s.editor.retryRef (clearTimeout s.editor.debounceRef s.timers) ++
      [⟨s.nextTimer, draft, retroDebounceMs⟩]
    nextTimer := s.nextTimer + 1
    edits := s.edits + 1
    typed := some draft
    live := true }

/-- The save number `i` of `next` is answered. -/
def saved (s : State) (i : ℕ) (next : Draft) : State :=
  { s with
    editor := { s.editor with
      savedRef := next.text
      dirtyRef := false
      attemptsRef := 0
      toast := .none }
    saves := { s.saves with flying := s.saves.flying.erase i }
    last := if i + 1 = s.saves.sent.length then some true else s.last }

def saveFailed (s : State) (i : ℕ) (next : Draft) (message : String) : State :=
  let attempts := s.editor.attemptsRef + 1
  let s := { s with
    saves := { s.saves with flying := s.saves.flying.erase i }
    last := if i + 1 = s.saves.sent.length then some false else s.last }
  if attempts < retroMaxAttempts then
    { s with
      editor := { s.editor with
        attemptsRef := attempts
        toast := .retrying message
        retryRef := some s.nextTimer }
      timers := s.timers ++ [⟨s.nextTimer, next,
        retroBackoffsMs.getD (min (attempts - 1) (retroBackoffsMs.length - 1)) 0⟩]
      nextTimer := s.nextTimer + 1 }
  else
    { s with editor := { s.editor with attemptsRef := attempts, toast := .failed message next } }

/-- The effect of a new `initial`. -/
def reset (s : State) (initial : String) : State :=
  { s with
    editor := { s.editor with
      initial := initial
      value := initial
      savedRef := initial
      dirtyRef := false
      attemptsRef := 0
      toast := .none }
    timers := clearTimeout s.editor.retryRef (clearTimeout s.editor.debounceRef s.timers)
    live := false }

/-! ### Steps -/

/-- The editor shows the text typed last, and that is not what is stored. -/
def Unsaved (s : State) : Prop := s.live = true ∧ ∃ d ∈ s.typed, d.text ≠ note s.notes

instance (s : State) : Decidable (Unsaved s) := inferInstanceAs (Decidable (_ ∧ _))

inductive Step where
  | edit (next : String)
  | fire (id : ℕ)
  | serve (ok : Bool)
  | succeed (i : ℕ)
  | fail (i : ℕ) (message : String)
  | retry
  | dismiss
  | refetch

/-- A timer fires and sends its draft. -/
def fire (s : State) (id : ℕ) : State :=
  match s.timers.find? fun t => t.id = id with
  | none => s
  | some t => send { s with timers := s.timers.filter fun t => t.id ≠ id } t.draft

/-- The server handles the next save. -/
def serve (s : State) (ok : Bool) : State :=
  match s.saves.sent[s.saves.outcomes.length]? with
  | none => s
  | some d =>
    { s with
      saves := { s.saves with outcomes := s.saves.outcomes ++ [ok] }
      notes := if ok then upsertWeekRetrospective s.notes d.text else s.notes }

/-- A save that the server has done is reported. -/
def succeed (s : State) (i : ℕ) : State :=
  if i ∈ s.saves.flying ∧ s.saves.outcomes[i]? = some true then
    match s.saves.sent[i]? with
    | none => s
    | some d => saved s i d
  else s

def fail (s : State) (i : ℕ) (message : String) : State :=
  if i ∈ s.saves.flying then
    match s.saves.sent[i]? with
    | none => s
    | some d => saveFailed s i d message
  else s

/-- The toast's button. -/
def retry (s : State) : State :=
  match s.editor.toast with
  | .failed _ next =>
    send { s with editor := { s.editor with attemptsRef := 0, toast := .none } } next
  | _ => s

/-- The plan is read again, and its note is what is stored. -/
def refetch (s : State) : State :=
  if note s.notes = s.editor.initial then s
  else
    let dropped := if Unsaved s then [s.editor.value] else []
    { reset s (note s.notes) with discarded := s.discarded ++ dropped }

def step (s : State) : Step → State
  | .edit next => onChange s next
  | .fire id => fire s id
  | .serve ok => serve s ok
  | .succeed i => succeed s i
  | .fail i message => fail s i message
  | .retry => retry s
  | .dismiss => { s with editor := { s.editor with toast := .none } }
  | .refetch => refetch s

def run (s : State) (steps : List Step) : State := steps.foldl step s

end Veckomenyn.RetroEditor
