import Veckomenyn.EveryStep
import Veckomenyn.LastRating

/-!
The control that rates a dinner.

A picked rating is sent at once, typed notes when a timer fires, with the rating that was shown when
they were typed. Picking a rating and typing more cancel the timer; clearing the rating does not.
The server handles the requests in the order they were sent, and the plan may be read again at any
time, with what was stored then.
-/

namespace Veckomenyn.RatingControl

open Rows Schema Conflict Dinners EveryStep LastRating

/-! ### The server -/

inductive SetError where
  | invalid (rating : String)
  | notFound (dinnerId : ℤ)

def setDinnerRating (d : Db) (dinnerId : ℤ) (rating notes : String) : Except SetError Db :=
  match Verdict.ofText rating with
  | none => .error (.invalid rating)
  | some v =>
    if (d.dinners.find? dinnerId).isSome then
      .ok { d with ratings := rate d.ratings dinnerId v notes }
    else .error (.notFound dinnerId)

def clearDinnerRating (d : Db) (dinnerId : ℤ) : Db :=
  let gone := d.ratings.rows.filter fun r => r.weekDinnerId = dinnerId
  { d with ratings := d.ratings.applyAll ((gone.map Keyed.key).map .del) }

/-- A rating with its notes, as the plan shows them; without a rating the notes are empty unless
a row has no rating in it. -/
abbrev Shown := Option Verdict × String

def shownRating (d : Db) (dinnerId : ℤ) : Shown :=
  let dr := d.ratings.rows.find? fun r => r.weekDinnerId = dinnerId
  (dr.bind Rating.rating, (dr.map Rating.notes).getD "")

inductive Request where
  | set (rating : Verdict) (notes : String)
  | clear

variable (k : ℤ)

def handle (d : Db) : Request → Db
  | .set rating notes =>
    match setDinnerRating d k rating.text notes with
    | .ok d' => d'
    | .error _ => d
  | .clear => clearDinnerRating d k

/-! ### The control -/

/-- The prop, the state and the notes that wait for the timer, with their rating. -/
structure Control where
  dinner : Shown
  rating : Option Verdict
  notes : String
  timer : Option (Verdict × String)

/-- The control with the requests it has sent, and what the last action asks for. -/
structure State where
  control : Control
  sent : List Request
  asked : Shown

def start (dinner : Shown) : State := ⟨⟨dinner, dinner.1, dinner.2, none⟩, [], dinner⟩

def persist (s : State) (rating : Verdict) (notes : String) : State :=
  { s with sent := s.sent ++ [.set rating notes] }

def pickRating (s : State) (next : Verdict) : State :=
  persist { s with
    control := { s.control with rating := some next, timer := none }
    asked := (some next, s.asked.2) } next s.control.notes

def changeNotes (s : State) (next : String) : State :=
  match s.control.rating with
  | none => { s with control := { s.control with notes := next } }
  | some rating =>
    { s with
      control := { s.control with notes := next, timer := some (rating, next) }
      asked := (s.asked.1.or (some rating), next) }

def clear (s : State) : State :=
  { s with
    control := { s.control with rating := none, notes := "" }
    sent := s.sent ++ [.clear]
    asked := (none, "") }

/-- The effect of a new `dinner`. -/
def pickUp (s : State) (dinner : Shown) : State :=
  if dinner = s.control.dinner then s
  else { s with
    control := { s.control with dinner := dinner, rating := dinner.1, notes := dinner.2 } }

inductive Event where
  | pick (next : Verdict)
  | type (next : String)
  | clear
  | fire
  | refetch (n : ℕ)

def fire (s : State) : State :=
  match s.control.timer with
  | none => s
  | some (rating, notes) =>
    persist { s with control := { s.control with timer := none } } rating notes

variable (d : Db)

/-- The notes and the button that clears are there only with a rating. The plan is read again when
the server has handled the first `n` requests. -/
def step (s : State) : Event → State
  | .pick next => pickRating s next
  | .type next => if s.control.rating.isSome then changeNotes s next else s
  | .clear => if s.control.rating.isSome then clear s else s
  | .fire => fire s
  | .refetch n => pickUp s (shownRating ((s.sent.take n).foldl (handle k) d) k)

def run (s : State) (es : List Event) : State := es.foldl (step k d) s

/-- What is stored when the server has handled everything. -/
def stored (s : State) : Shown := shownRating (s.sent.foldl (handle k) d) k

/-- What is stored is what the last action asks for, once no notes wait. -/
def Reflects (s : State) : Prop := s.control.timer = none → stored k d s = s.asked

/-- The timer fires with what is asked for, and a rating is picked with the notes that are. -/
def Allowed (s : State) : Event → Prop
  | .fire => ∀ rating notes, s.control.timer = some (rating, notes) → s.asked = (some rating, notes)
  | .pick _ => s.control.notes = s.asked.2
  | _ => True

/-! ### What is stored -/

/-- The dinner is there, and has one rating at most. -/
structure Rateable (d : Db) : Prop where
  there : (d.dinners.find? k).isSome = true
  unique : OneRatingEach d

/-- What a request leaves to be shown. -/
def Request.leaves : Request → Shown
  | .set rating notes => (some rating, notes)
  | .clear => (none, "")

variable {k} {d}

lemma ofText_text (v : Verdict) : Verdict.ofText v.text = some v := by
  cases v <;> rfl

lemma find?_eq_head? (d : Db) (k : ℤ) :
    d.ratings.rows.find? (fun r => r.weekDinnerId = k) = (ratingsFor d k).head? := by
  rw [ratingsFor, having, List.head?_filter]

lemma shown_of_single {x : Rating} (hx : ratingsFor d k = [x]) :
    shownRating d k = (x.rating, x.notes) := by
  have hfind := find?_eq_head? d k
  rw [hx] at hfind
  rw [shownRating, hfind]
  rfl

lemma shown_rate (h : Rateable k d) (v : Verdict) (notes : String) :
    Rateable k { d with ratings := rate d.ratings k v notes } ∧
      shownRating { d with ratings := rate d.ratings k v notes } k = (some v, notes) := by
  have hrated := rated_one (r := ⟨k, v.text, notes⟩) (ofText_text v) h.unique
  obtain ⟨x, hx, hrating, -, hnotes⟩ := hrated.listed k ⟨k, v.text, notes⟩ (by simp [lastFor_one])
  refine ⟨⟨h.there, hrated.unique⟩, ?_⟩
  rw [shown_of_single hx, hrating, hnotes, ofText_text]

lemma shown_clear (h : Rateable k d) : Rateable k (clearDinnerRating d k) ∧
    shownRating (clearDinnerRating d k) k = (none, "") := by
  have hrows : (clearDinnerRating d k).ratings.rows =
      d.ratings.rows.filter fun r => !decide (r.weekDinnerId = k) :=
    Table.rows_del_filter d.ratings fun r => decide (r.weekDinnerId = k)
  refine ⟨⟨h.there, ?_⟩, ?_⟩
  · rw [OneRatingEach, Conflict.Unique, hrows]
    exact h.unique.sublist (List.filter_sublist.map _)
  · have hnone :
        (clearDinnerRating d k).ratings.rows.find? (fun r => r.weekDinnerId = k) = none := by
      rw [hrows, List.find?_eq_none]
      intro r hr
      simpa using (List.mem_filter.mp hr).2
    simp only [shownRating, hnone, Option.bind_none, Option.map_none, Option.getD_none]

/-- **A request** leaves what it says. -/
lemma shown_handle (h : Rateable k d) (r : Request) :
    Rateable k (handle k d r) ∧ shownRating (handle k d r) k = r.leaves := by
  cases r with
  | set rating notes =>
    have hset : setDinnerRating d k rating.text notes =
        .ok { d with ratings := rate d.ratings k rating notes } := by
      simp only [setDinnerRating, ofText_text, h.there, if_true]
    rw [handle, hset]
    exact shown_rate h rating notes
  | clear => exact shown_clear h

lemma rateable_foldl (h : Rateable k d) (rs : List Request) :
    Rateable k (rs.foldl (handle k) d) := by
  induction rs generalizing d with
  | nil => exact h
  | cons r rs ih => exact ih (shown_handle h r).1

lemma shown_concat (h : Rateable k d) (rs : List Request) (r : Request) :
    shownRating ((rs ++ [r]).foldl (handle k) d) k = r.leaves := by
  rw [List.foldl_concat]
  exact (shown_handle (rateable_foldl h rs) r).2

/-! ### One event -/

variable {s : State} {e : Event} {es : List Event}

lemma stored_persist (h : Rateable k d) (s : State) (rating : Verdict) (notes : String) :
    stored k d (persist s rating notes) = (some rating, notes) :=
  shown_concat h s.sent (.set rating notes)

/-- An event keeps what is stored in step with what is asked for exactly when it is allowed. -/
lemma reflects_step (h : Rateable k d) (hs : Reflects k d s) :
    Reflects k d (step k d s e) ↔ Allowed s e := by
  cases e with
  | pick next =>
    have hstored := stored_persist h { s with
      control := { s.control with rating := some next, timer := none }
      asked := (some next, s.asked.2) } next s.control.notes
    rw [step, pickRating, Reflects, hstored, Allowed]
    simp [persist]
  | type next =>
    refine iff_of_true ?_ trivial
    rw [step]
    split_ifs with hrated
    · obtain ⟨rating, hrating⟩ := Option.isSome_iff_exists.mp hrated
      simp [changeNotes, hrating, Reflects]
    · exact hs
  | clear =>
    refine iff_of_true ?_ trivial
    rw [step]
    split_ifs
    · exact fun _ => shown_concat h s.sent .clear
    · exact hs
  | fire =>
    rw [step, fire, Allowed]
    rcases htimer : s.control.timer with _ | ⟨rating, notes⟩
    · exact iff_of_true hs fun _ _ h => by cases h
    · have hstored := stored_persist h
        { s with control := { s.control with timer := none } } rating notes
      simp only [Reflects, hstored]
      simp [persist, eq_comm]
  | refetch n =>
    refine iff_of_true ?_ trivial
    rw [step, pickUp]
    split_ifs
    · exact hs
    · exact hs

/-! ### Without a refetch -/

/-- The control shows what is asked for, and notes that wait are asked for until the rating is
cleared. -/
structure Shows (s : State) : Prop where
  rating : s.control.rating = s.asked.1
  notes : s.control.notes = s.asked.2
  timer : ∀ rating notes, s.control.timer = some (rating, notes) → s.asked.1 ≠ none →
    s.asked = (some rating, notes)

/-- The timer does not fire after the rating was cleared. -/
def Timely (s : State) (e : Event) : Prop :=
  e = .fire → s.control.timer ≠ none → s.asked.1 ≠ none

def Event.isRefetch : Event → Bool
  | .refetch _ => true
  | _ => false

lemma Shows.step (h : Shows s) (he : e.isRefetch = false) : Shows (step k d s e) := by
  cases e with
  | pick next => exact ⟨rfl, h.notes, by simp [RatingControl.step, pickRating, persist]⟩
  | type next =>
    rw [RatingControl.step]
    split_ifs with hrated
    · obtain ⟨rating, hrating⟩ := Option.isSome_iff_exists.mp hrated
      have hasked : s.asked.1 = some rating := h.rating.symm.trans hrating
      refine ⟨?_, ?_, ?_⟩ <;> simp [changeNotes, hrating, hasked]
    · exact h
  | clear =>
    rw [RatingControl.step]
    split_ifs
    · exact ⟨rfl, rfl, fun _ _ _ hasked => absurd rfl hasked⟩
    · exact h
  | fire =>
    rw [RatingControl.step, RatingControl.fire]
    rcases htimer : s.control.timer with _ | ⟨rating, notes⟩
    · exact h
    · exact ⟨h.rating, h.notes, fun _ _ htimer _ => by cases htimer⟩
  | refetch n => cases he

lemma Shows.allowed_iff (h : Shows s) : Allowed s e ↔ Timely s e := by
  cases e with
  | pick next => exact iff_of_true h.notes fun he => by cases he
  | fire =>
    rcases htimer : s.control.timer with _ | ⟨rating, notes⟩
    · simp [Allowed, Timely, htimer]
    · constructor
      · intro hallowed _ _ hnone
        rw [hallowed rating notes htimer] at hnone
        cases hnone
      · intro htimely rating' notes' htimer'
        exact h.timer rating' notes' htimer' (htimely rfl (by simp [htimer]))
  | type next => exact iff_of_true trivial fun he => by cases he
  | clear => exact iff_of_true trivial fun he => by cases he
  | refetch n => exact iff_of_true trivial fun he => by cases he

lemma shows_run (hes : ∀ e ∈ es, e.isRefetch = false) (hs : Shows s) :
    Shows (es.foldl (step k d) s) := by
  induction es generalizing s with
  | nil => exact hs
  | cons e es ih =>
    obtain ⟨he, hes⟩ := List.forall_mem_cons.mp hes
    exact ih hes (hs.step he)

/-! ### Runs -/

/-- **The stored rating**: it reflects the last action whenever no notes wait, all along a run, if
and only if each time the timer fires with what is asked for and a rating is picked with the notes
that are. As long as the plan is not read again, the timer must not fire after a clear. -/
theorem reflects_iff (k : ℤ) (d : Db) (h : Rateable k d) (es : List Event) :
    (Always (step k d) (Reflects k d) (start (shownRating d k)) es ↔
      EachAllowed (step k d) Allowed (start (shownRating d k)) es) ∧
    ((∀ e ∈ es, e.isRefetch = false) →
      (Always (step k d) (Reflects k d) (start (shownRating d k)) es ↔
        EachAllowed (step k d) Timely (start (shownRating d k)) es)) := by
  have hall : Always (step k d) (Reflects k d) (start (shownRating d k)) es ↔
      EachAllowed (step k d) Allowed (start (shownRating d k)) es :=
    always_iff (I := fun _ => True) trivial (fun _ => rfl) (fun _ _ _ => trivial)
      fun _ _ _ hs => reflects_step h hs
  refine ⟨hall, fun hes => hall.trans ?_⟩
  refine forall₂_congr fun before e => forall_congr' fun hbefore => Shows.allowed_iff ?_
  refine shows_run (fun e he => hes e ?_) ⟨rfl, rfl, fun _ _ htimer => by cases htimer⟩
  exact hbefore.subset (List.mem_append_left _ he)

lemma rateable_threeDays : Rateable 1 (threeDays .ordered) := ⟨rfl, List.nodup_nil⟩

/-- A rating is picked and explained, and its notes are sent; then it is explained once more, changed
and cleared before the timer fires again. -/
def changeOfMind : List Event :=
  [.pick .loved, .type "with more salt", .fire, .type "with less salt", .pick .liked, .clear]

theorem reflects_iff_changeOfMind : Always (step 1 (threeDays .ordered))
    (Reflects 1 (threeDays .ordered)) (start (shownRating (threeDays .ordered) 1))
    changeOfMind := by
  refine ((reflects_iff 1 (threeDays .ordered) rateable_threeDays changeOfMind).2 ?_).mpr ?_
  · intro e he
    simp only [changeOfMind, List.mem_cons, List.not_mem_nil, or_false] at he
    rcases he with rfl | rfl | rfl | rfl | rfl | rfl <;> rfl
  · simp only [changeOfMind, eachAllowed_cons]
    refine ⟨?_, ?_, fun _ _ => by decide, ?_, ?_, ?_, eachAllowed_nil⟩ <;> exact fun h => by cases h

/-- The notes of a rating that was cleared are sent with the rating. -/
theorem not_reflects : ¬ ∀ (k : ℤ) (d : Db), Rateable k d → ∀ es : List Event,
    (∀ e ∈ es, e.isRefetch = false) →
      Always (step k d) (Reflects k d) (start (shownRating d k)) es := by
  intro h
  have hrun := h 1 (threeDays .ordered) rateable_threeDays
    [.pick .loved, .type "with more salt", .clear, .fire]
    (by simp [Event.isRefetch]) _ (List.prefix_refl _) rfl
  have hstored := shown_concat rateable_threeDays [.set .loved "", .clear]
    (.set .loved "with more salt")
  cases hstored.symm.trans hrun

end Veckomenyn.RatingControl
