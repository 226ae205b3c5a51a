import Veckomenyn.Completeness

/-!
The start of a plan moved on its own.

The dinners are numbered in their order and packed one a day from the new start. Packed rows
lie on different days, so packing them once more keeps the order the first packing gave them,
whatever ties it broke.
-/

namespace Veckomenyn.Shift

open Rows DateText Schema Sql Store Weeks Txn Dinners PatchSpec Completeness

/-! ### Rows in order -/

instance : Std.Total Before := ⟨fun a b => by unfold Before; omega⟩

instance : IsTrans Dinner Before := ⟨fun a b c => by unfold Before; omega⟩

lemma before_antisymm {a b : Dinner} (h : Before a b) (h' : Before b a) : a.id = b.id := by
  unfold Before at h h'
  omega

/-- The dinners of a plan in the order of `day_date`, `sort_order`, `id`. -/
def inOrder (d : Db) (id : ℤ) : List Dinner := (dinnersOf d id).insertionSort Before

/-- The rows one a day from `s` on. -/
def dayByDay (s : ℤ) (l : List Dinner) : List Dinner :=
  l.mapIdx fun i r => { r with dayDate := s + i }

lemma packed_eq (s : ℤ) (l : List Dinner) : packed s l = dayByDay s (l.insertionSort Before) := by
  rw [dayByDay, List.mapIdx_eq_zipIdx_map]
  rfl

lemma pairwise_dayByDay (s : ℤ) (l : List Dinner) : (dayByDay s l).Pairwise Before := by
  rw [List.pairwise_iff_getElem]
  intro i j hi hj hij
  simp only [dayByDay, List.getElem_mapIdx, Before]
  omega

lemma dayByDay_dayByDay (s s' : ℤ) (l : List Dinner) :
    dayByDay s' (dayByDay s l) = dayByDay s' l := by
  rw [dayByDay, dayByDay, List.mapIdx_mapIdx]
  rfl

/-- Rows of different identities have one order. -/
lemma sort_eq_of_perm {l l' : List Dinner} (hn : (l.map Dinner.id).Nodup) (hp : l.Perm l') :
    l.insertionSort Before = l'.insertionSort Before := by
  have hperm := (List.perm_insertionSort Before l).trans
    (hp.trans (List.perm_insertionSort Before l').symm)
  refine List.Perm.eq_of_pairwise (fun a b ha hb hab hba => ?_)
    (List.pairwise_insertionSort Before l) (List.pairwise_insertionSort Before l') hperm
  rw [List.mem_insertionSort] at ha
  rw [List.mem_insertionSort, ← hp.mem_iff] at hb
  exact List.inj_on_of_nodup_map hn ha hb (before_antisymm hab hba)

/-- Packing puts the rows in the order they had. -/
lemma inOrder_pack (d : Db) (id s : ℤ) : inOrder (pack d id s) id = dayByDay s (inOrder d id) := by
  rw [inOrder, sort_eq_of_perm (nodup_dinnersOf _ id) (dinnersOf_pack d id s), packed_eq]
  exact (pairwise_dayByDay s _).insertionSort_eq

/-! ### The request -/

/-- The request passes the checks of the handler and its transaction commits. -/
def Committed (pg : Pg) (now id : ℤ) (p : WeekPatch) (d d' : Db) : Prop :=
  1 ≤ id ∧ dateOk p.startDate = true ∧ dateOk p.endDate = true ∧
    (patchTx pg now id p).run d = (.ok (), d')

/-- A request with a start and nothing else. -/
def startOnly (t : String) : WeekPatch := ⟨none, some t, none, none, none, none, none⟩

/-- The row of a plan moved to the day `s`. -/
def moved (now s : ℤ) (w : Week) : Week :=
  { w with
    startDate := s
    endDate := w.endDate + (s - w.startDate)
    isoWeek := DateText.isoWeek s
    updatedAt := now }

variable {pg : Pg} {d d' : Db} {now now' now'' id : ℤ} {p : WeekPatch} {t t' : String} {w : Week}

/-- A committed request is one the handler has carried out. -/
lemma perform_committed (h : Committed pg now id p d d') :
    (perform (handlePatchWeek pg now id (.ok p)) d).2 = d' := by
  obtain ⟨hid, hs, he, hrun⟩ := h
  rw [perform_transaction hid hs he, hrun]

lemma Committed.patched (h : Committed pg now id p d d') :
    ∃ m w w', Patched pg now id p m w w' d d' := by
  obtain ⟨-, hs, he, hrun⟩ := h
  exact patched_of_ok hs he (Tx.inside_of_run_ok hrun)

lemma assign_start {s : ℤ} {w' : Week}
    (h : Saves pg now (Move.update ⟨some s, none⟩ w (startOnly (text s))) w w')
    (hs : s ≠ w.startDate) : w' = moved now s w := by
  obtain ⟨-, x, hx, hw'⟩ := h
  have hn : Move.newStart ⟨some s, none⟩ w ≠ w.startDate := hs
  have hu : Move.update ⟨some s, none⟩ w (startOnly (text s)) =
      ⟨some (isoWeek s), (some s).map text, (some (w.endDate + (s - w.startDate))).map text, none,
        none, none, none⟩ := by
    rw [Move.update, if_neg hn]
    have hend : Move.newEnd ⟨some s, none⟩ w = w.endDate + (s - w.startDate) := by
      rw [Move.newEnd, Move.curEnd, if_pos ⟨hn, rfl⟩]
      rfl
    rw [hend]
    rfl
  rw [hu, sets, addDate_text, addDate_text] at hx
  cases hx
  cases hw'
  rfl

/-- What a committed request with a start does. -/
lemma start_result (hw : d.weeks.find? id = some w) (ht : t ≠ text w.startDate)
    (h : Committed pg now id (startOnly t) d d') :
    ∃ s, t = text s ∧ d' = setWeek (pack d id s) (moved now s w) := by
  obtain ⟨m, v, w', hp⟩ := h.patched
  obtain rfl : v = w := Option.some.inj (hp.found.symm.trans hw)
  obtain ⟨hs, he⟩ := hp.carries
  obtain ⟨start, finish⟩ := m
  obtain rfl : finish = none := by
    cases finish with
    | none => rfl
    | some e => cases he
  cases start with
  | none => cases hs
  | some s =>
    obtain rfl : t = text s := Option.some.inj hs
    have hne : s ≠ v.startDate := fun hn => ht (congrArg text hn)
    refine ⟨s, rfl, ?_⟩
    have hw' := assign_start hp.saves hne
    have hshift := Move.shifted_of_ne (m := ⟨some s, none⟩) (w := v) hne d
    rw [hp.result, hw', Move.resized, hshift, hp.week_id]
    exact congrArg (setWeek · _) (Move.resize_self _ _ _)

/-! ### One shift, and two -/

/-- The plan `w` of `d` starts on the day `s` in `d'`, with the same rows in the same order, the
first on the first day. -/
structure ShiftedTo (id s : ℤ) (w : Week) (d d' : Db) : Prop where
  dinners : inOrder d' id = dayByDay s (inOrder d id)
  dates : ∃ w', d'.weeks.find? id = some w' ∧ w'.startDate = s ∧
    w'.endDate - w'.startDate = w.endDate - w.startDate
  others : OnlyDinnersOf id d d'

/-- The plan is the same but for the time of its last update. -/
def SamePlan (id : ℤ) (d d' : Db) : Prop :=
  (d.weeks.find? id).map (fun w => { w with updatedAt := 0 }) =
      (d'.weeks.find? id).map (fun w => { w with updatedAt := 0 }) ∧
    inOrder d id = inOrder d' id

lemma find_moved (D : Db) {s : ℤ} (hw : d.weeks.find? id = some w) :
    (setWeek D (moved now s w)).weeks.find? id = some (moved now s w) := by
  rw [findWeek_setWeek, if_pos]
  exact (Table.find?_eq_some.mp hw).2.symm

lemma shiftedTo_pack (now s : ℤ) (hw : d.weeks.find? id = some w) :
    ShiftedTo id s w d (setWeek (pack d id s) (moved now s w)) where
  dinners := inOrder_pack d id s
  dates := by
    refine ⟨moved now s w, find_moved _ hw, rfl, ?_⟩
    simp only [moved]
    ring
  others := onlyDinnersOf_pack d id s

/-- A plan moved twice lies where the second move alone takes it. -/
lemma moved_moved (now now' s s' : ℤ) (w : Week) :
    moved now' s' (moved now s w) = moved now' s' w := by
  simp only [moved, Week.mk.injEq, true_and, and_true]
  ring

lemma inOrder_pack_pack (d : Db) (w' : Week) (id s s' : ℤ) :
    inOrder (pack (setWeek (pack d id s) w') id s') id = inOrder (pack d id s') id := by
  have hset : inOrder (setWeek (pack d id s) w') id = inOrder (pack d id s) id := rfl
  rw [inOrder_pack, hset, inOrder_pack, dayByDay_dayByDay, inOrder_pack]

/-- **A start on its own** moves the plan: its rows keep everything but their days, lie one a day
from the new start in the order they had, and the period keeps its length. Two such moves are the
last one. -/
theorem start_shift (pg : Pg) (id : ℤ) (d : Db) (w : Week) (hw : d.weeks.find? id = some w) :
    (∀ now t d', t ≠ text w.startDate → Committed pg now id (startOnly t) d d' →
      ∃ s, pg.castDate t = some s ∧ ShiftedTo id s w d d') ∧
    ∀ now now' now'' t t' d₁ d₂ d₃, t ≠ text w.startDate → t' ≠ t → t' ≠ text w.startDate →
      Committed pg now id (startOnly t) d d₁ → Committed pg now' id (startOnly t') d₁ d₂ →
      Committed pg now'' id (startOnly t') d d₃ → SamePlan id d₂ d₃ := by
  constructor
  · intro now t d' ht h
    obtain ⟨s, rfl, rfl⟩ := start_result hw ht h
    exact ⟨s, pg.castDate_text s, shiftedTo_pack now s hw⟩
  · intro now now' now'' t t' d₁ d₂ d₃ ht hne ht' h₁ h₂ h₃
    obtain ⟨s, rfl, rfl⟩ := start_result hw ht h₁
    have hw₁ : (setWeek (pack d id s) (moved now s w)).weeks.find? id = some (moved now s w) :=
      find_moved _ hw
    obtain ⟨s', rfl, rfl⟩ := start_result hw₁ hne h₂
    obtain ⟨s'', hs, rfl⟩ := start_result hw ht' h₃
    obtain rfl : s' = s'' := text_inj.mp hs
    refine ⟨?_, inOrder_pack_pack d (moved now s w) id s s'⟩
    rw [find_moved _ hw₁, find_moved _ hw, moved_moved]
    rfl

/-- A start of a four-digit year is one that commits. -/
lemma start_commits (pg : Pg) (now : ℤ) {s : ℤ} (hid : 1 ≤ id) (hw : d.weeks.find? id = some w)
    (hs : FourDigit s) : ∃ d', Committed pg now id (startOnly (text s)) d d' := by
  have hr : ¬Move.Refused ⟨some s, none⟩ w := fun h => h.1 rfl
  have ha := accepted_dates pg now (m := ⟨some s, none⟩) hid (by simp) (by simpa using hs) (by simp)
    hr
  obtain ⟨w', -, hin⟩ := ha.inside hw
  exact ⟨_, hid, ha.startOk, ha.endOk, Tx.run_of_ok hin⟩

/-- Three dinners moved by a week, and from there by two days. -/
theorem start_shift_threeDays :
    (∃ d', Committed Pg.plain 5 1 (startOnly "2026-04-27") (threeDays .draft) d' ∧
      ∃ s, Pg.plain.castDate "2026-04-27" = some s ∧
        ShiftedTo 1 s (threeDaysWeek .draft) (threeDays .draft) d') ∧
    ∃ d₁ d₂ d₃, Committed Pg.plain 5 1 (startOnly "2026-04-27") (threeDays .draft) d₁ ∧
      Committed Pg.plain 6 1 (startOnly "2026-04-29") d₁ d₂ ∧
      Committed Pg.plain 7 1 (startOnly "2026-04-29") (threeDays .draft) d₃ ∧ SamePlan 1 d₂ d₃ := by
  have hw : (threeDays .draft).weeks.find? 1 = some (threeDaysWeek .draft) := by decide
  obtain ⟨hone, htwo⟩ := start_shift Pg.plain 1 (threeDays .draft) (threeDaysWeek .draft) hw
  obtain ⟨d₁, h₁⟩ := start_commits Pg.plain 5 (s := 739732) (by decide) hw (by decide)
  obtain ⟨d₃, h₃⟩ := start_commits Pg.plain 7 (s := 739734) (by decide) hw (by decide)
  obtain ⟨s, -, ⟨-, ⟨w₁, hw₁, -⟩, -⟩⟩ := hone 5 _ d₁ (by decide) h₁
  obtain ⟨d₂, h₂⟩ := start_commits Pg.plain 6 (s := 739734) (by decide) hw₁ (by decide)
  refine ⟨⟨d₁, h₁, hone 5 _ d₁ (by decide) h₁⟩, d₁, d₂, d₃, h₁, h₂, h₃, ?_⟩
  exact htwo 5 6 7 _ _ d₁ d₂ d₃ (by decide) (by decide) (by decide) h₁ h₂ h₃

end Veckomenyn.Shift
