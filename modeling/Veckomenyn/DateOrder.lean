import Veckomenyn.Completeness

/-!
Whether a patch leaves a plan that ends before it starts.

The handler compares the two dates only when it resizes the plan, so not when the body gives the
end that is stored; and it compares their texts.
-/

namespace Veckomenyn.DateOrder

open Rows DateText Schema Sql Store Weeks Txn Dinners PatchSpec Completeness

variable {pg : Pg} {now id : ℤ} {d : Db} {w : Week} {m : Move} {p : WeekPatch}

/-- The start passes an end the handler does not compare it with: the stored one, sent along; or,
of a plan whose start stays, an earlier day whose text does not sort before it. -/
def Passes (m : Move) (w : Week) : Prop :=
  (m.finish = some w.endDate ∧ w.endDate < m.newStart w) ∨
    ∃ e, m.finish = some e ∧ m.newStart w = w.startDate ∧ e < w.startDate ∧ ¬Cut e w.startDate

/-- The text of a day of the year 2026 does not sort before one of the year 10000. -/
example : (739727 : ℤ) < 3652059 ∧ ¬Cut 739727 3652059 := by decide

lemma newEnd_of_finish {e : ℤ} (h : m.finish = some e) : m.newEnd w = e := by
  rw [Move.newEnd, h, Option.getD_some]

lemma curEnd_of_finish {e : ℤ} (h : m.finish = some e) : m.curEnd w = w.endDate := by
  refine if_neg fun hn => ?_
  rw [h] at hn
  cases hn.2

/-- An end that is not sent stays as far behind the start. -/
lemma ordered_of_no_finish (ho : w.startDate ≤ w.endDate) (h : m.finish = none) :
    m.newStart w ≤ m.newEnd w := by
  rw [Move.newEnd, h, Option.getD_none, Move.curEnd]
  split_ifs with hn
  · omega
  · have hs : m.newStart w = w.startDate := by
      by_contra hs
      exact hn ⟨hs, h⟩
    omega

/-- A start that moves is a day of a four-digit year. -/
lemma fourDigit_newStart (h : Accepted pg now id p m w) (hs : m.newStart w ≠ w.startDate) :
    FourDigit (m.newStart w) := by
  have hy := fourDigit_of_dateOk (h.carries.1 ▸ h.startOk)
  cases ho : m.start with
  | none =>
    rw [Move.newStart, ho] at hs
    exact absurd rfl hs
  | some s =>
    rw [Move.newStart, ho]
    exact hy s ho

/-- **An accepted patch** crosses the dates exactly when the start passes an end it is not compared
with. -/
theorem crossed_iff (ho : w.startDate ≤ w.endDate) (h : Accepted pg now id p m w) :
    m.newEnd w < m.newStart w ↔ Passes m w := by
  constructor
  · intro hlt
    cases hf : m.finish with
    | none =>
      have := ordered_of_no_finish ho hf
      omega
    | some e =>
      rw [newEnd_of_finish hf] at hlt
      by_cases he : e = w.endDate
      · exact Or.inl ⟨he ▸ hf, he ▸ hlt⟩
      · -- the texts were compared
        have hcut : ¬Cut e (m.newStart w) := by
          intro hc
          refine h.accepted ⟨?_, by rw [newEnd_of_finish hf]; exact hc⟩
          rw [newEnd_of_finish hf, curEnd_of_finish hf]
          exact he
        have hs : m.newStart w = w.startDate := by
          by_contra hs
          have hye : FourDigit e := fourDigit_of_dateOk (h.carries.2 ▸ h.endOk) e hf
          exact hcut ((cut_iff hye (fourDigit_newStart h hs)).mpr hlt)
        exact Or.inr ⟨e, hf, hs, hs ▸ hlt, hs ▸ hcut⟩
  · rintro (⟨hf, hlt⟩ | ⟨e, hf, hs, hlt, -⟩)
    · rwa [newEnd_of_finish hf]
    · rwa [newEnd_of_finish hf, hs]

/-- The plan a database holds under `id` starts no later than it ends. -/
def Ordered (d : Db) (id : ℤ) : Prop :=
  ∀ w, d.weeks.find? id = some w → w.startDate ≤ w.endDate

lemma ordered_patched {w' : Week} {d' : Db} (h : Patched pg now id p m w w' d d') :
    Ordered d' id ↔ m.newStart w ≤ m.newEnd w := by
  have hw' : d'.weeks.find? id = some w' := by rw [findWeek_patched h, if_pos rfl]
  rw [← h.newStart, ← h.newEnd]
  constructor
  · intro ho
    exact ho w' hw'
  · intro ho v hv
    rw [hw', Option.some.injEq] at hv
    exact hv ▸ ho

/-- **The order of the dates**: a patch of a plan that does not end before it starts leaves it so
exactly when it is not one that is accepted with a start that passes an end it is not compared
with. -/
theorem ordered_iff (pg : Pg) (now id : ℤ) (d : Db) (w : Week) (body : Except String WeekPatch)
    (hw : d.weeks.find? id = some w) (ho : w.startDate ≤ w.endDate) :
    Ordered (perform (handlePatchWeek pg now id body) d).2 id ↔
      ∀ p m, body = .ok p → Accepted pg now id p m w → ¬Passes m w := by
  constructor
  · rintro hord p m rfl hacc hp
    obtain ⟨w', h⟩ := perform_accepted hw hacc
    have hle := (ordered_patched h).mp hord
    have hlt := (crossed_iff ho hacc).mpr hp
    omega
  · intro hall
    rcases perform_patch pg now id body d with h | ⟨p, m, v, w', hbody, hacc, h⟩
    · intro v hv
      rw [Table.find?, h.weeks] at hv
      have hvw : v = w := Option.some.inj (hv.symm.trans hw)
      exact hvw ▸ ho
    · obtain rfl : v = w := Option.some.inj (h.found.symm.trans hw)
      rw [ordered_patched h]
      by_contra hlt
      exact hall p m hbody hacc ((crossed_iff ho hacc).mp (by omega))

/-- The start of a plan, moved past its end. -/
theorem ordered_iff_threeDays :
    Ordered (perform (handlePatchWeek Pg.plain 5 1 (.ok (Move.patch ⟨some 739730, none⟩)))
      (threeDays .draft)).2 1 ↔
      ∀ p m, (.ok (Move.patch ⟨some 739730, none⟩) : Except String WeekPatch) = .ok p →
        Accepted Pg.plain 5 1 p m (threeDaysWeek .draft) → ¬Passes m (threeDaysWeek .draft) :=
  ordered_iff Pg.plain 5 1 (threeDays .draft) (threeDaysWeek .draft)
    (.ok (Move.patch ⟨some 739730, none⟩)) (by decide) (by decide)

/-- The same with the stored end sent along. -/
theorem not_ordered : ¬∀ (d : Db) (w : Week) (body : Except String WeekPatch),
    d.weeks.find? 1 = some w → w.startDate ≤ w.endDate →
      Ordered (perform (handlePatchWeek Pg.plain 5 1 body) d).2 1 := by
  intro hall
  obtain ⟨w', h⟩ := @perform_dates (threeDays .draft) (threeDaysWeek .draft)
    ⟨some 739730, some 739727⟩ Pg.plain 5 1 (by decide) (by decide) (by simp)
    (by decide) (by decide) (by decide)
  have hle := (ordered_patched h).mp (hall (threeDays .draft) (threeDaysWeek .draft) _
    (by decide) (by decide))
  exact absurd hle (by decide)

end Veckomenyn.DateOrder
