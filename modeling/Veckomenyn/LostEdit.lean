import Mathlib.Data.List.Nodup
import Veckomenyn.RetroEditor

/-!
When the stored retrospective is the last text typed.

A timer or a toast that was made for an older text can send it after a newer one, and a refetch
that brings another note drops what is not saved. Where neither happens, the drafts are sent in the
order they were typed and the last of them is what stays.
-/

namespace Veckomenyn.LostEdit

open RetroEditor

/-! ### What is claimed -/

structure Faithful (s : State) : Prop where
  settled : s.timers = [] → s.saves.flying = [] → s.last = some true →
    ∀ d, s.typed = some d → note s.notes = d.text
  ordered : ∀ (i j : ℕ) (a b : Draft), i < j → s.saves.outcomes[i]? = some true →
    s.saves.outcomes[j]? = some true → s.saves.sent[i]? = some a → s.saves.sent[j]? = some b →
      a.version ≤ b.version
  kept : s.discarded = []

/-- Nothing typed later than the draft has been sent. -/
def Newest (s : State) (d : Draft) : Prop := ∀ x ∈ s.saves.sent, x.version ≤ d.version

/-- Old drafts are not sent any more, and a refetch that brings another note finds nothing waiting or
unsaved. -/
def Heeds (s : State) : Step → Prop
  | .fire id => ∀ t ∈ s.timers, t.id = id → Newest s t.draft
  | .retry => ∀ message next, s.editor.toast = .failed message next → Newest s next
  | .refetch => note s.notes ≠ s.editor.initial →
    (∀ t ∈ s.timers, s.editor.debounceRef ≠ some t.id) ∧ ¬ Unsaved s
  | _ => True

def AllHeed : State → List Step → Prop
  | _, [] => True
  | s, x :: xs => Heeds s x ∧ AllHeed (step s x) xs

/-! ### The invariant -/

/-- Some timer, toast or save is of the draft. -/
def Holds (s : State) (d : Draft) : Prop :=
  d ∈ s.saves.sent ∨ (∃ t ∈ s.timers, t.draft = d) ∨ ∃ message, s.editor.toast = .failed message d

/-- The draft waits for its timer. -/
def Waits (s : State) (d : Draft) : Prop :=
  ∃ t ∈ s.timers, s.editor.debounceRef = some t.id ∧ t.draft = d

structure Inv (s : State) : Prop where
  sorted : s.saves.sent.Pairwise fun a b => a.version ≤ b.version
  handled : s.saves.outcomes.length ≤ s.saves.sent.length
  stored : ∀ i d, s.saves.outcomes.length = i + 1 → s.saves.outcomes[i]? = some true →
    s.saves.sent[i]? = some d → note s.notes = d.text
  last : s.last = some true →
    ∃ i, i + 1 = s.saves.sent.length ∧ s.saves.outcomes[i]? = some true
  nodup : (s.timers.map Timer.id).Nodup
  fresh : ∀ t ∈ s.timers, t.id < s.nextTimer
  known : ∀ d, Holds s d → d.version ≤ s.edits ∧ (d.version = s.edits → s.typed = some d)
  current : ∀ d, s.typed = some d → d.version = s.edits ∧ (d ∈ s.saves.sent ∨ Waits s d)
  kept : s.discarded = []

lemma inv_start (notes : List String) : Inv (start notes) := by
  refine ⟨.nil, Nat.le_refl _, ?_, ?_, .nil, ?_, ?_, ?_, rfl⟩ <;> simp [start, Holds]

lemma Inv.faithful {s : State} (h : Inv s) : Faithful s := by
  refine ⟨fun htimers _ hlast d hd => ?_, fun i j a b hij _ _ ha hb => ?_, h.kept⟩
  · obtain ⟨i, hi, hdone⟩ := h.last hlast
    have hlen : s.saves.outcomes.length = i + 1 := by
      have hi' : i < s.saves.outcomes.length := (List.getElem?_eq_some_iff.mp hdone).1
      have := h.handled
      omega
    have hlt : i < s.saves.sent.length := by omega
    -- nothing waits, so the last edit was sent, and the last save is not older
    have hsent : d ∈ s.saves.sent := by
      rcases (h.current d hd).2 with hsent | ⟨t, ht, -⟩
      · exact hsent
      · simp [htimers] at ht
    have hle : d.version ≤ s.saves.sent[i].version := by
      obtain ⟨j, hj, rfl⟩ := List.getElem_of_mem hsent
      rcases Nat.lt_or_ge j i with hlt' | hge
      · exact List.pairwise_iff_getElem.mp h.sorted j i hj hlt hlt'
      · obtain rfl : j = i := by omega
        exact Nat.le_refl _
    have hknown := h.known s.saves.sent[i] (Or.inl (List.getElem_mem hlt))
    have hver := (h.current d hd).1
    have heq : s.typed = some s.saves.sent[i] := hknown.2 (by omega)
    rw [h.stored i s.saves.sent[i] hlen hdone (List.getElem?_eq_getElem hlt),
      Option.some.inj (hd.symm.trans heq)]
  · obtain ⟨hi, rfl⟩ := List.getElem?_eq_some_iff.mp ha
    obtain ⟨hj, rfl⟩ := List.getElem?_eq_some_iff.mp hb
    exact List.pairwise_iff_getElem.mp h.sorted i j hi hj hij

variable {s : State}

/-! ### Saves -/

lemma Inv.send {d : Draft} (h : Inv s) (hd : Holds s d) (hnew : Newest s d) : Inv (send s d) := by
  refine ⟨?_, ?_, ?_, by simp [RetroEditor.send], h.nodup, h.fresh, ?_, ?_, h.kept⟩
  · refine List.pairwise_append.mpr ⟨h.sorted, List.pairwise_singleton _ _, fun x hx y hy => ?_⟩
    rw [List.mem_singleton.mp hy]
    exact hnew x hx
  · have := h.handled
    simp only [RetroEditor.send, List.length_append, List.length_singleton]
    omega
  · intro i x hlen hok hx
    have hi : i < s.saves.sent.length := by
      have := h.handled
      have hlen' : s.saves.outcomes.length = i + 1 := hlen
      omega
    have hx' : (s.saves.sent ++ [d])[i]? = some x := hx
    rw [List.getElem?_append_left hi] at hx'
    exact h.stored i x hlen hok hx'
  · rintro x (hx | hx)
    · rcases List.mem_append.mp hx with hx | hx
      · exact h.known x (Or.inl hx)
      · rw [List.mem_singleton.mp hx]
        exact h.known d hd
    · exact h.known x (Or.inr hx)
  · intro x hx
    obtain ⟨hver, hsent | hwaits⟩ := h.current x hx
    · exact ⟨hver, Or.inl (List.mem_append_left _ hsent)⟩
    · exact ⟨hver, Or.inr hwaits⟩

/-- Timers may be cleared as long as the last edit stays. -/
lemma Inv.timers {ts : List Timer} (h : Inv s) (hsub : ts.Sublist s.timers)
    (hcur : ∀ d, s.typed = some d → d ∈ s.saves.sent ∨ Waits { s with timers := ts } d) :
    Inv { s with timers := ts } := by
  refine ⟨h.sorted, h.handled, h.stored, h.last, h.nodup.sublist (hsub.map _), fun t ht => ?_, ?_,
    fun d hd => ⟨(h.current d hd).1, hcur d hd⟩, h.kept⟩
  · exact h.fresh t (hsub.subset ht)
  · rintro d (hd | ⟨t, ht, rfl⟩ | hd)
    · exact h.known d (Or.inl hd)
    · exact h.known t.draft (Or.inr (Or.inl ⟨t, hsub.subset ht, rfl⟩))
    · exact h.known d (Or.inr (Or.inr hd))

lemma Inv.fire {id : ℕ} (h : Inv s) (hheeds : Heeds s (.fire id)) : Inv (fire s id) := by
  unfold RetroEditor.fire
  split
  · exact h
  · next t hfind =>
    have ht : t ∈ s.timers := List.mem_of_find?_eq_some hfind
    have hid : t.id = id := by simpa using List.find?_some hfind
    have hsend : Inv (RetroEditor.send s t.draft) :=
      h.send (Or.inr (Or.inl ⟨t, ht, rfl⟩)) (hheeds t ht hid)
    refine hsend.timers List.filter_sublist fun d hd => ?_
    rcases (hsend.current d hd).2 with hsent | ⟨u, hu, hdebounce, rfl⟩
    · exact Or.inl hsent
    · -- the timer of the last edit fires or stays
      by_cases hut : u.id = id
      · obtain rfl : u = t := List.inj_on_of_nodup_map h.nodup hu ht (hut.trans hid.symm)
        exact Or.inl (List.mem_append_right _ (List.mem_singleton.mpr rfl))
      · exact Or.inr ⟨u, List.mem_filter.mpr ⟨hu, by simpa using hut⟩, hdebounce, rfl⟩

lemma note_upsert (notes : List String) (text : String) :
    note (upsertWeekRetrospective notes text) = text := by
  cases notes <;> rfl

lemma Inv.serve (h : Inv s) (ok : Bool) : Inv (serve s ok) := by
  unfold RetroEditor.serve
  rcases hd : s.saves.sent[s.saves.outcomes.length]? with _ | d
  · exact h
  · have hlt : s.saves.outcomes.length < s.saves.sent.length :=
      (List.getElem?_eq_some_iff.mp hd).1
    refine ⟨h.sorted, ?_, ?_, ?_, h.nodup, h.fresh, h.known, h.current, h.kept⟩
    · simpa [Nat.succ_le_iff] using hlt
    · intro i x hlen hok hx
      obtain rfl : i = s.saves.outcomes.length := by simpa using hlen.symm
      have hok' : ok = true := by simpa using hok
      subst hok'
      rw [hd] at hx
      cases hx
      exact note_upsert s.notes d.text
    · intro hlast
      obtain ⟨i, hi, hdone⟩ := h.last hlast
      have hi' : i < s.saves.outcomes.length := (List.getElem?_eq_some_iff.mp hdone).1
      exact ⟨i, hi, by rw [List.getElem?_append_left hi']; exact hdone⟩

/-! ### Outcomes -/

lemma Inv.succeed (h : Inv s) (i : ℕ) : Inv (succeed s i) := by
  unfold RetroEditor.succeed
  split
  · next hcond =>
    rcases hd : s.saves.sent[i]? with _ | d
    · exact h
    · refine ⟨h.sorted, h.handled, h.stored, ?_, h.nodup, h.fresh, ?_, h.current, h.kept⟩
      · intro hlast
        simp only [saved] at hlast ⊢
        split at hlast
        · next hi => exact ⟨i, hi, hcond.2⟩
        · exact h.last hlast
      · rintro x (hx | hx | ⟨message, hx⟩)
        · exact h.known x (Or.inl hx)
        · exact h.known x (Or.inr (Or.inl hx))
        · simp [saved] at hx
  · exact h

/-- A failed save leaves a timer or a toast for its draft. -/
lemma Inv.fail (h : Inv s) (i : ℕ) (message : String) : Inv (fail s i message) := by
  unfold RetroEditor.fail
  split
  · rcases hd : s.saves.sent[i]? with _ | d
    · exact h
    · have hdraft : Holds s d := Or.inl (List.mem_of_getElem? hd)
      have hlast : (if i + 1 = s.saves.sent.length then some false else s.last) = some true →
          ∃ i, i + 1 = s.saves.sent.length ∧ s.saves.outcomes[i]? = some true := by
        intro hlast
        split at hlast
        · cases hlast
        · exact h.last hlast
      unfold saveFailed
      simp only
      split
      · refine ⟨h.sorted, h.handled, h.stored, hlast, ?_, ?_, ?_, ?_, h.kept⟩
        · rw [List.map_append, List.nodup_append]
          refine ⟨h.nodup, List.nodup_singleton _, fun x hx y hy => ?_⟩
          obtain ⟨t, ht, rfl⟩ := List.mem_map.mp hx
          rw [List.mem_singleton.mp hy]
          exact Nat.ne_of_lt (h.fresh t ht)
        · intro t ht
          rcases List.mem_append.mp ht with ht | ht
          · exact Nat.lt_succ_of_lt (h.fresh t ht)
          · rw [List.mem_singleton.mp ht]
            exact Nat.lt_succ_self _
        · rintro x (hx | ⟨t, ht, rfl⟩ | ⟨m, hx⟩)
          · exact h.known x (Or.inl hx)
          · rcases List.mem_append.mp ht with ht | ht
            · exact h.known t.draft (Or.inr (Or.inl ⟨t, ht, rfl⟩))
            · rw [List.mem_singleton.mp ht]
              exact h.known d hdraft
          · cases hx
        · intro x hx
          obtain ⟨hver, hsent | ⟨t, ht, hdebounce, hdr⟩⟩ := h.current x hx
          · exact ⟨hver, Or.inl hsent⟩
          · exact ⟨hver, Or.inr ⟨t, List.mem_append_left _ ht, hdebounce, hdr⟩⟩
      · refine ⟨h.sorted, h.handled, h.stored, hlast, h.nodup, h.fresh, ?_, h.current, h.kept⟩
        rintro x (hx | hx | ⟨m, hx⟩)
        · exact h.known x (Or.inl hx)
        · exact h.known x (Or.inr (Or.inl hx))
        · cases hx
          exact h.known d hdraft
  · exact h

/-! ### The other steps -/

lemma Inv.dismissed (h : Inv s) {e : Editor} (hdebounce : e.debounceRef = s.editor.debounceRef)
    (htoast : ∀ message d, e.toast ≠ .failed message d) : Inv { s with editor := e } := by
  refine ⟨h.sorted, h.handled, h.stored, h.last, h.nodup, h.fresh, ?_, fun d hd => ?_, h.kept⟩
  · rintro d (hd | hd | ⟨message, hd⟩)
    · exact h.known d (Or.inl hd)
    · exact h.known d (Or.inr (Or.inl hd))
    · exact absurd hd (htoast message d)
  · obtain ⟨hver, hsent | ⟨t, ht, hid, hdr⟩⟩ := h.current d hd
    · exact ⟨hver, Or.inl hsent⟩
    · exact ⟨hver, Or.inr ⟨t, ht, hdebounce.trans hid, hdr⟩⟩

lemma Inv.retry (h : Inv s) (hheeds : Heeds s .retry) : Inv (retry s) := by
  unfold RetroEditor.retry
  split
  · next message next htoast =>
    have hsend : Inv (RetroEditor.send s next) :=
      h.send (Or.inr (Or.inr ⟨message, htoast⟩)) (hheeds message next htoast)
    exact hsend.dismissed rfl (by simp)
  · exact h

lemma clearTimeout_sublist (id : Option ℕ) (timers : List Timer) :
    (clearTimeout id timers).Sublist timers := List.filter_sublist

/-- A new draft is newer than all there are. -/
lemma Inv.onChange (h : Inv s) (next : String) : Inv (onChange s next) := by
  let kept := clearTimeout s.editor.retryRef (clearTimeout s.editor.debounceRef s.timers)
  have hsub : kept.Sublist s.timers :=
    (clearTimeout_sublist _ _).trans (clearTimeout_sublist _ _)
  have hold {d : Draft} (hd : Holds s d) : d.version ≤ s.edits + 1 ∧
      (d.version = s.edits + 1 → some ⟨s.edits + 1, next⟩ = some d) := by
    have := (h.known d hd).1
    exact ⟨by omega, fun heq => by omega⟩
  refine ⟨h.sorted, h.handled, h.stored, h.last, ?_, ?_, ?_, ?_, h.kept⟩
  · show ((kept ++ [_]).map Timer.id).Nodup
    rw [List.map_append, List.nodup_append]
    refine ⟨h.nodup.sublist (hsub.map _), List.nodup_singleton _, fun x hx y hy => ?_⟩
    obtain ⟨t, ht, rfl⟩ := List.mem_map.mp hx
    rw [List.mem_singleton.mp hy]
    exact Nat.ne_of_lt (h.fresh t (hsub.subset ht))
  · intro t ht
    rcases List.mem_append.mp ht with ht | ht
    · exact Nat.lt_succ_of_lt (h.fresh t (hsub.subset ht))
    · rw [List.mem_singleton.mp ht]
      exact Nat.lt_succ_self _
  · rintro d (hd | ⟨t, ht, rfl⟩ | ⟨message, hd⟩)
    · exact hold (Or.inl hd)
    · rcases List.mem_append.mp ht with ht | ht
      · exact hold (Or.inr (Or.inl ⟨t, hsub.subset ht, rfl⟩))
      · rw [List.mem_singleton.mp ht]
        exact ⟨Nat.le_refl _, fun _ => rfl⟩
    · cases hd
  · intro d hd
    cases hd
    exact ⟨rfl, Or.inr ⟨_, List.mem_append_right _ (List.mem_singleton.mpr rfl), rfl, rfl⟩⟩

lemma Inv.refetch (h : Inv s) (hheeds : Heeds s .refetch) : Inv (refetch s) := by
  unfold RetroEditor.refetch
  split
  · exact h
  · next hnew =>
    obtain ⟨hidle, hsaved⟩ := hheeds hnew
    have hsub : (clearTimeout s.editor.retryRef
        (clearTimeout s.editor.debounceRef s.timers)).Sublist s.timers :=
      (clearTimeout_sublist _ _).trans (clearTimeout_sublist _ _)
    have htimers := h.timers hsub fun d hd => by
      rcases (h.current d hd).2 with hsent | ⟨t, ht, hid, -⟩
      · exact Or.inl hsent
      · exact absurd hid (hidle t ht)
    have hreset : Inv (reset s (note s.notes)) := by
      have hinv := htimers.dismissed (e := (reset s (note s.notes)).editor) rfl (by simp [reset])
      exact ⟨hinv.sorted, hinv.handled, hinv.stored, hinv.last, hinv.nodup, hinv.fresh, hinv.known,
        hinv.current, hinv.kept⟩
    refine ⟨hreset.sorted, hreset.handled, hreset.stored, hreset.last, hreset.nodup, hreset.fresh,
      hreset.known, hreset.current, ?_⟩
    simp [hsaved, h.kept]

/-! ### Runs -/

lemma Inv.step (h : Inv s) {x : Step} (hx : Heeds s x) : Inv (step s x) := by
  cases x with
  | edit next => exact h.onChange next
  | fire id => exact h.fire hx
  | serve ok => exact h.serve ok
  | succeed i => exact h.succeed i
  | fail i message => exact h.fail i message
  | retry => exact h.retry hx
  | dismiss => exact h.dismissed rfl (by simp)
  | refetch => exact h.refetch hx

lemma Inv.run {steps : List Step} (h : Inv s) (hheed : AllHeed s steps) : Inv (run s steps) := by
  induction steps generalizing s with
  | nil => exact h
  | cons x steps ih => exact ih (h.step hheed.1) hheed.2

/-- **The text typed last is what stays**, in a run in which no old draft is sent again and no
refetch brings another note while something waits or is unsaved. -/
theorem faithful_run (notes : List String) (steps : List Step)
    (hheed : AllHeed (start notes) steps) : Faithful (run (start notes) steps) :=
  ((inv_start notes).run hheed).faithful

/-! ### An old timer, and a refetch too early -/

/-- The first save is refused and sent again, and the plan is read again. -/
def retried : List Step :=
  [.edit "Lagom portioner", .fire 1, .serve false, .fail 0 "503", .fire 2, .serve true, .succeed 1,
    .refetch]

lemma retried_heeds : AllHeed (start []) retried := by
  refine ⟨trivial, ?_, trivial, trivial, ?_, trivial, trivial, ?_, trivial⟩ <;>
    unfold Heeds <;> unfold Newest <;> decide

theorem faithful_retried : Faithful (run (start []) retried) :=
  faithful_run [] retried retried_heeds

/-- The first save fails after the text has been typed on, and its timer outlives the second. -/
def staleRetry : List Step :=
  [.edit "Lagom", .fire 1, .edit "Lagom portioner", .serve false, .fail 0 "503", .fire 2, .serve true,
    .succeed 1, .fire 3, .serve true, .succeed 2]

/-- The plan is read again while the second text waits for its timer. -/
def earlyRefetch : List Step :=
  [.edit "Lagom", .fire 1, .serve true, .succeed 0, .edit "Lagom portioner", .refetch]

/-- Each time the older text is what stays. -/
theorem not_faithful : ¬ Faithful (run (start []) staleRetry) ∧
    ¬ Faithful (run (start []) earlyRefetch) := by
  constructor
  · intro h
    have hnote : "Lagom" = "Lagom portioner" := h.settled rfl rfl rfl _ rfl
    exact absurd hnote (by decide)
  · intro h
    have hnote : "Lagom" = "Lagom portioner" := h.settled rfl rfl rfl _ rfl
    exact absurd hnote (by decide)

end Veckomenyn.LostEdit
