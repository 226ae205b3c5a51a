import Veckomenyn.EveryStep
import Veckomenyn.RetroEditor

/-!
The warning before the page with an editor is left.

An edit sets the flag by comparing the text with the last one that was saved. A save that has been
done takes the flag away, whatever has been typed since it was sent.
-/

namespace Veckomenyn.Warning

open EveryStep RetroEditor

/-- The editor, and the text the server has acknowledged last. -/
structure Watched where
  editor : State
  acknowledged : String

/-- A text is acknowledged when its save is reported as done, or when the plan is read again with
another note. -/
def acknowledge (w : Watched) : Step → String
  | .succeed i =>
    if i ∈ w.editor.saves.flying ∧ w.editor.saves.outcomes[i]? = some true then
      (w.editor.saves.sent[i]?.map Draft.text).getD w.acknowledged
    else w.acknowledged
  | .refetch =>
    if note w.editor.notes = w.editor.editor.initial then w.acknowledged else note w.editor.notes
  | _ => w.acknowledged

def step (w : Watched) (x : Step) : Watched := ⟨RetroEditor.step w.editor x, acknowledge w x⟩

def start (notes : List String) : Watched := ⟨RetroEditor.start notes, note notes⟩

/-- The handler of `beforeunload` asks the user to stay. -/
def asks (w : Watched) : Bool := w.editor.editor.dirtyRef

/-- The page is not left without a question while the text is not the one acknowledged last. -/
def Warned (w : Watched) : Prop := w.editor.editor.value ≠ w.acknowledged → asks w = true

/-- A save is reported as done while its text is the one that is shown. -/
def Current (w : Watched) : Step → Prop
  | .succeed i => i ∈ w.editor.saves.flying → w.editor.saves.outcomes[i]? = some true →
    ∀ d, w.editor.saves.sent[i]? = some d → d.text = w.editor.editor.value
  | _ => True

/-- The editor's own record of what is saved. -/
def Recorded (w : Watched) : Prop := w.editor.editor.savedRef = w.acknowledged

/-! ### What one step does -/

variable {w w' : Watched} {x : Step}

/-- Neither the text nor what is known of it has changed. -/
structure Same (s s' : State) : Prop where
  value : s'.editor.value = s.editor.value
  savedRef : s'.editor.savedRef = s.editor.savedRef
  dirtyRef : s'.editor.dirtyRef = s.editor.dirtyRef

lemma Same.refl (s : State) : Same s s := ⟨rfl, rfl, rfl⟩

lemma same_fire (s : State) (id : ℕ) : Same s (fire s id) := by
  rw [fire]
  split <;> exact ⟨rfl, rfl, rfl⟩

lemma same_serve (s : State) (ok : Bool) : Same s (serve s ok) := by
  rw [serve]
  split <;> exact ⟨rfl, rfl, rfl⟩

lemma same_retry (s : State) : Same s (retry s) := by
  rw [retry]
  split <;> exact ⟨rfl, rfl, rfl⟩

/-- A failure may start a timer or change the toast. -/
lemma same_fail (s : State) (i : ℕ) (message : String) : Same s (fail s i message) := by
  rw [fail]
  split_ifs
  · split
    · exact .refl s
    · rw [saveFailed]
      simp only
      split_ifs <;> exact ⟨rfl, rfl, rfl⟩
  · exact .refl s

/-- The report of a save that is done is heeded once, when it comes. -/
lemma succeed_cases (w : Watched) (i : ℕ) :
    (step w (.succeed i) = w ∧ Current w (.succeed i)) ∨
      ∃ d, w.editor.saves.sent[i]? = some d ∧ i ∈ w.editor.saves.flying ∧
        w.editor.saves.outcomes[i]? = some true ∧
        step w (.succeed i) = ⟨saved w.editor i d, d.text⟩ := by
  by_cases h : i ∈ w.editor.saves.flying ∧ w.editor.saves.outcomes[i]? = some true
  · rcases hd : w.editor.saves.sent[i]? with _ | d
    · refine .inl ⟨?_, fun _ _ d hd' => by rw [hd] at hd'; cases hd'⟩
      simp [step, RetroEditor.step, succeed, acknowledge, h, hd]
    · refine .inr ⟨d, rfl, h.1, h.2, ?_⟩
      simp [step, RetroEditor.step, succeed, acknowledge, h, hd]
  · refine .inl ⟨?_, fun hf ho => absurd ⟨hf, ho⟩ h⟩
    simp only [step, RetroEditor.step, succeed, acknowledge, if_neg h]

lemma Recorded.step (h : Recorded w) (x : Step) : Recorded (step w x) := by
  cases x with
  | edit next => exact h
  | fire id => exact (same_fire w.editor id).savedRef.trans h
  | serve ok => exact (same_serve w.editor ok).savedRef.trans h
  | succeed i =>
    rcases succeed_cases w i with ⟨hsame, -⟩ | ⟨d, -, -, -, hsaved⟩
    · rwa [hsame]
    · rw [hsaved]
      rfl
  | fail i message => exact (same_fail w.editor i message).savedRef.trans h
  | retry => exact (same_retry w.editor).savedRef.trans h
  | dismiss => exact h
  | refetch =>
    rw [Recorded, Warning.step, RetroEditor.step, refetch, acknowledge]
    simp only
    split_ifs
    · exact h
    · rfl
    · rfl

lemma Warned.same {s : State} (h : Warned w) (hs : Same w.editor s) :
    Warned ⟨s, w.acknowledged⟩ := by
  intro hne
  rw [asks, hs.dirtyRef]
  exact h (hs.value ▸ hne)

/-- A step keeps the warning right exactly when it is not the report of an older text. -/
lemma warned_step (hr : Recorded w) (h : Warned w) : Warned (step w x) ↔ Current w x := by
  cases x with
  | edit next =>
    refine iff_of_true (fun hne => ?_) trivial
    have hdirty : next ≠ w.editor.editor.savedRef := fun he => hne (he.trans hr)
    exact decide_eq_true hdirty
  | fire id => exact iff_of_true (h.same (same_fire w.editor id)) trivial
  | serve ok => exact iff_of_true (h.same (same_serve w.editor ok)) trivial
  | succeed i =>
    rcases succeed_cases w i with ⟨hsame, hcurrent⟩ | ⟨d, hd, hflying, hdone, hsaved⟩
    · rw [hsame]
      exact iff_of_true h hcurrent
    · -- the flag is taken away, so the text had better be this one
      rw [hsaved]
      constructor
      · intro hwarned _ _ d' hd'
        obtain rfl : d = d' := Option.some.inj (hd.symm.trans hd')
        by_contra hne
        cases hwarned (Ne.symm hne)
      · intro hcurrent hne
        exact absurd (hcurrent hflying hdone d hd).symm hne
  | fail i message => exact iff_of_true (h.same (same_fail w.editor i message)) trivial
  | retry => exact iff_of_true (h.same (same_retry w.editor)) trivial
  | dismiss => exact iff_of_true (h.same ⟨rfl, rfl, rfl⟩) trivial
  | refetch =>
    refine iff_of_true ?_ trivial
    rw [step, RetroEditor.step, refetch, acknowledge]
    split_ifs
    · exact h
    · exact fun hne => absurd rfl hne
    · exact fun hne => absurd rfl hne

/-! ### Runs -/

/-- **The warning**: it is given whenever the text is not the one acknowledged last, all along a
run, if and only if every save is reported as done while its text is shown. -/
theorem warned_iff (notes : List String) (steps : List Step) :
    Always step Warned (start notes) steps ↔ EachAllowed step Current (start notes) steps :=
  always_iff (I := Recorded) rfl (fun h => absurd rfl h) (fun _ x h => h.step x)
    fun _ _ hr h => warned_step hr h

/-- The text is typed on while its first part is being saved, and the warning is gone before the
rest has been sent. -/
theorem not_warned : ¬ ∀ (notes : List String) (steps : List Step),
    Always step Warned (start notes) steps := by
  intro h
  have hwarned := h [] [.edit "Lagom", .fire 1, .edit "Lagom portioner", .serve true, .succeed 0] _
    (List.prefix_refl _)
  exact absurd (hwarned (by decide)) (by decide)

end Veckomenyn.Warning
