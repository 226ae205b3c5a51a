import Veckomenyn.Agent
import Veckomenyn.LockedPatch

/-!
The two ways of moving a plan: the agent's `update_week`, and the patch.

Both end in the same update of the row. The patch moves the dinners, the end and the label
along with the dates; the tool does nothing of the kind, so the two agree exactly when there
is nothing to move along.
-/

namespace Veckomenyn.TwoWays

open Rows DateText Schema Sql Store Weeks Txn WkCtx Tools Agent Dinners PatchSpec LockedPatch

def rowsOf (d : Db) (id : ℤ) : Multiset Dinner := (dinnersOf d id : List Dinner)

/-- The dates and the label of a plan. -/
def headOf (d : Db) (id : ℤ) : Option (ℤ × ℤ × String) :=
  (d.weeks.find? id).map fun w => (w.startDate, w.endDate, w.isoWeek)

/-- The same dates, the same label and the same dinner rows. -/
def Agree (id : ℤ) (d d' : Db) : Prop := headOf d id = headOf d' id ∧ rowsOf d id = rowsOf d' id

instance (id : ℤ) (d d' : Db) : Decidable (Agree id d d') := by
  unfold Agree; infer_instance

/-- The tool's input with these dates and nothing else, for the plan named by `k` or `iso`. -/
def input (m : Move) (k : ℤ) (iso : String) : UpdateWeekInput :=
  ⟨k, iso, none, m.start.map text, m.finish.map text, none, none, none, none⟩

def byTool (pg : Pg) (now : ℤ) (ctx : Ctx) (i : UpdateWeekInput) (d : Db) : Db :=
  (perform (updateWeekTool pg now ctx (some i)) d).2

def byPatch (pg : Pg) (now id : ℤ) (m : Move) (d : Db) : Db :=
  (perform (handlePatchWeek pg now id (.ok m.patch)) d).2

/-- The patch is accepted and has nothing to move along with the dates: a new start comes with an
end and lies in the week the label names, and the dates move no dinner. -/
structure NothingAlong (d : Db) (m : Move) (w : Week) : Prop extends MovesNothing d m w where
  accepted : ¬m.Refused w
  sent : m.newStart w ≠ w.startDate → m.finish ≠ none ∧ w.isoWeek = isoWeek (m.newStart w)

variable {pg : Pg} {d : Db} {id : ℤ} {w : Week} {m : Move}

/-! ### The tool -/

lemma run_lookUpWeek {Q σ : Type} {A : Q → Type} (ans : (q : Q) → σ → A q × σ)
    (i : UpdateWeekInput) (c : Db × σ) : (lookUpWeek i : Prog Q A ToolError _).run ans c =
      (.ok (if i.weekId = 0 ∧ i.isoWeek ≠ "" then latestWith i.isoWeek c.1 else some i.weekId), c) := by
  rw [lookUpWeek]
  split_ifs with h
  · rw [weekByIso, Prog.run_query, select_run]
    rfl
  · rfl

/-- An update that is stored does that and no more. -/
lemma perform_updateWeekTool {now : ℤ} {ctx : Ctx} {i : UpdateWeekInput} {w' : Week}
    (ht : target ctx i d = some id) (hw : d.weeks.find? id = some w)
    (hs : Saves pg now (WeekUpdate.ofInput i) w w') :
    (perform (updateWeekTool pg now ctx (some i)) d).2 = setWeek d w' := by
  obtain ⟨hne, s, hsets, hassign⟩ := hs
  obtain ⟨k, hk, hres⟩ := Option.bind_eq_some_iff.mp ht
  have hok : resolvePlan ctx k = .ok id := by
    rcases hr : resolvePlan ctx k with e | id' <;> rw [hr] at hres
    · cases hres
    · cases hres
      rfl
  have hrun := updateWeekStmt_of_assign hsets hw hassign
  rw [perform, updateWeekTool, Prog.run_bind]
  simp only [unmarshal, Prog.run_pure]
  rw [Prog.run_bind, run_lookUpWeek, hk]
  simp only
  rw [Prog.run_bind, hok]
  simp only [orFail, Prog.run_pure]
  rw [Prog.run_bind, updateWeek, hne]
  simp only [Bool.false_eq_true, if_false]
  rw [Prog.run_query, hrun]
  rfl

lemma exists_byTool (pg : Pg) (now : ℤ) {ctx : Ctx} {k : ℤ} {iso : String}
    (ht : target ctx (input m k iso) d = some id) (hw : d.weeks.find? id = some w)
    (hm : m.start ≠ none ∨ m.finish ≠ none) :
    ∃ w', byTool pg now ctx (input m k iso) d = setWeek d w' ∧ w'.id = w.id ∧
      w'.startDate = m.newStart w ∧ w'.endDate = m.finish.getD w.endDate ∧ w'.isoWeek = w.isoWeek := by
  obtain ⟨w', hs⟩ : ∃ w', Saves pg now (WeekUpdate.ofInput (input m k iso)) w w' :=
    saves_dates w (a := m.start) (b := m.finish) rfl rfl hm rfl rfl rfl
  have hu := hs.updated
  exact ⟨w', perform_updateWeekTool ht hw hs, hu.id, Patched.dateSet_text hu.startDate,
    Patched.dateSet_text hu.endDate, hu.isoWeek⟩

/-! ### The dinners -/

/-- The dates move no dinner exactly when the rows are the same. -/
lemma rowsOf_resized_iff (hid : w.id = id) :
    rowsOf (m.resized w d) id = rowsOf d id ↔ MovesNothing d m w := by
  have hplaces (D : Db) : placesOf D id = (rowsOf D id).map fun r => (r.id, r.dayDate) := rfl
  constructor
  · intro h
    refine (placesOf_resized_iff hid).mp ?_
    rw [hplaces, h, hplaces]
  · rintro ⟨hpack, hcut, hext⟩
    subst hid
    have hshift : rowsOf (m.shifted w d) w.id = rowsOf d w.id := by
      rw [Move.shifted]
      split_ifs with hn
      · rfl
      · refine Multiset.coe_eq_coe.mpr ((dinnersOf_pack d w.id _).trans ?_)
        have hsame : packed (m.newStart w) (dinnersOf d w.id) =
            (ranked Before (dinnersOf d w.id)).map Prod.fst := by
          rw [packed]
          refine List.map_congr_left fun x hx => ?_
          obtain ⟨r, n⟩ := x
          simp only
          rw [← hpack hn r n hx]
        rw [hsame]
        exact ranked_fst Before _
    rw [← hshift, Move.resized, Move.resize]
    split_ifs with he hc
    · rfl
    · refine Multiset.coe_eq_coe.mpr ((dinnersOf_cut _ _ _).trans ?_)
      rw [List.filter_eq_self.mpr]
      intro r hr
      have hr' : r ∈ rowsOf d w.id := hshift ▸ hr
      exact decide_eq_true (hcut hc r hr')
    · rw [span_eq_nil (by have := hext hc; omega)]
      refine Multiset.coe_eq_coe.mpr ((dinnersOf_addSlots _ _ _).trans ?_)
      rw [emptySlots_eq_nil.mpr rfl, List.append_nil]

/-! ### Agreement -/

lemma headOf_setWeek {d : Db} {w' : Week} (h : w'.id = id) :
    headOf (setWeek d w') id = some (w'.startDate, w'.endDate, w'.isoWeek) := by
  rw [headOf, setWeek, Table.find?_put, key_week, if_pos h.symm]
  rfl

/-- The end and the label an accepted patch leaves are those the tool leaves when a new start comes
with an end and lies in the week the label names. -/
lemma sent_iff (m : Move) (w : Week) : (m.finish.getD w.endDate = m.newEnd w ∧
    w.isoWeek = if m.newStart w = w.startDate then w.isoWeek else isoWeek (m.newStart w)) ↔
      (m.newStart w ≠ w.startDate → m.finish ≠ none ∧ w.isoWeek = isoWeek (m.newStart w)) := by
  by_cases hn : m.newStart w = w.startDate
  · have hcur : m.curEnd w = w.endDate := by simp [Move.curEnd, hn]
    simp [hn, Move.newEnd, hcur]
  · rw [if_neg hn]
    rcases hf : m.finish with _ | e
    · have hcur : m.curEnd w = w.endDate + (m.newStart w - w.startDate) := by
        simp [Move.curEnd, hn, hf]
      simp only [Move.newEnd, hf, hcur, Option.getD_none, ne_eq, hn, not_false_eq_true,
        not_true_eq_false, false_and, imp_false, iff_false, not_and]
      intro h
      omega
    · simp [Move.newEnd, hf, hn]

lemma isoWeek_update (m : Move) (w : Week) : (m.update w m.patch).isoWeek.getD w.isoWeek =
    if m.newStart w = w.startDate then w.isoWeek else isoWeek (m.newStart w) := by
  rw [Move.update]
  split_ifs <;> rfl

/-- **The two ways agree** on the dates, the label and the dinners of a plan exactly when the patch
is accepted and has nothing to move along. -/
theorem tool_and_patch_agree_iff (pg : Pg) (now now' id k : ℤ) (iso : String) (ctx : Ctx) (d : Db)
    (w : Week) (m : Move) (hid : 1 ≤ id) (hw : d.weeks.find? id = some w)
    (ht : target ctx (input m k iso) d = some id) (hm : m.start ≠ none ∨ m.finish ≠ none)
    (hs : ∀ x ∈ m.start, FourDigit x) (he : ∀ x ∈ m.finish, FourDigit x) :
    Agree id (byTool pg now ctx (input m k iso) d) (byPatch pg now' id m d) ↔
      NothingAlong d m w := by
  have hwid : w.id = id := (Table.find?_eq_some.mp hw).2
  obtain ⟨v, hv, hvid, hvs, hve, hvi⟩ := exists_byTool pg now ht hw hm
  have htool : headOf (setWeek d v) id =
      some (m.newStart w, m.finish.getD w.endDate, w.isoWeek) := by
    rw [headOf_setWeek (hvid.trans hwid), hvs, hve, hvi]
  rw [Agree, hv, htool, show rowsOf (setWeek d v) id = rowsOf d id from rfl]
  by_cases hr : m.Refused w
  · -- the patch changes nothing, the tool moves an end
    have hrows := perform_refused pg now' hid hw hs he hr
    refine iff_of_false ?_ fun h => h.accepted hr
    rintro ⟨hhead, -⟩
    rw [headOf, byPatch, hrows.findWeek, hw, Option.map_some, Option.some.injEq, Prod.mk.injEq,
      Prod.mk.injEq] at hhead
    obtain ⟨hstart, hend, -⟩ := hhead
    refine hr.1 ?_
    have hcur : m.curEnd w = w.endDate := by simp [Move.curEnd, hstart]
    rw [Move.newEnd, hcur, hend]
  · obtain ⟨v', h⟩ := perform_dates pg now' hid hw hm hs he hr
    have hpatch : headOf (byPatch pg now' id m d) id = some (m.newStart w, m.newEnd w,
        if m.newStart w = w.startDate then w.isoWeek else isoWeek (m.newStart w)) := by
      rw [byPatch, h.result, headOf_setWeek (h.updated.id.trans hwid), h.newStart, h.newEnd,
        h.updated.isoWeek, isoWeek_update]
    have hrows : rowsOf (byPatch pg now' id m d) id = rowsOf (m.resized w d) id := by
      rw [byPatch, h.result]
      rfl
    rw [hpatch, hrows, Option.some.injEq, Prod.mk.injEq, Prod.mk.injEq, sent_iff,
      eq_comm (a := rowsOf d id), rowsOf_resized_iff hwid]
    constructor
    · rintro ⟨⟨-, hsent⟩, hmoves⟩
      exact ⟨hmoves, hr, hsent⟩
    · rintro ⟨hmoves, -, hsent⟩
      exact ⟨⟨rfl, hsent⟩, hmoves⟩

/-- A plan cut to end a day earlier. -/
theorem tool_and_patch_agree_iff_threeDays :
    Agree 1 (byTool Pg.plain 5 background (input ⟨none, some 739726⟩ 1 "") (threeDays .draft))
        (byPatch Pg.plain 6 1 ⟨none, some 739726⟩ (threeDays .draft)) ↔
      NothingAlong (threeDays .draft) ⟨none, some 739726⟩ (threeDaysWeek .draft) :=
  tool_and_patch_agree_iff Pg.plain 5 6 1 1 "" background (threeDays .draft) (threeDaysWeek .draft)
    ⟨none, some 739726⟩ (by decide) (by decide) (by decide) (by decide) (by decide) (by decide)

/-- Extended by a day, a complete draft gets a placeholder by the patch and none by the tool. -/
theorem not_tool_and_patch_agree : ¬∀ (d : Db) (w : Week) (m : Move), d.weeks.find? 1 = some w →
    w.status = .draft → (m.start ≠ none ∨ m.finish ≠ none) → (∀ x ∈ m.start, FourDigit x) →
    (∀ x ∈ m.finish, FourDigit x) → m.newStart w ≤ m.newEnd w →
    m.newStart w ≤ m.finish.getD w.endDate →
    Agree 1 (byTool Pg.plain 5 background (input m 1 "") d) (byPatch Pg.plain 6 1 m d) := by
  intro h
  have := h (threeDays .draft) (threeDaysWeek .draft) ⟨none, some 739728⟩ (by decide) (by decide)
    (by decide) (by decide) (by decide) (by decide) (by decide)
  revert this
  decide

end Veckomenyn.TwoWays
