import Veckomenyn.CloneRows
import Veckomenyn.Tools

/-!
The end of a plan moved to a later day.

The handler adds one row for each day after the end it has stored, without a look at the rows that
lie there already. Rows lie past an end when the dinners were packed over it, or were added there.
-/

namespace Veckomenyn.Extension

open Rows DateText Schema Sql Store Weeks Txn Dinners PatchSpec Completeness Shift CloneRows Tools
  WkCtx

/-! ### The states of plans -/

/-- A request to the plan endpoints, or a call of one of the dinner tools. -/
inductive Act where
  | create (now : ℤ) (body : Except String WeekCreate)
  | clone (now sourceId : ℤ) (body : Except String String)
  | patch (now id : ℤ) (body : Except String WeekPatch)
  | addDinner (ctx : Ctx) (input : Option AddDinnerInput)
  | updateDinner (ctx : Ctx) (input : Option UpdateDinnerInput)
  | deleteDinner (ctx : Ctx) (input : Option ℤ)

def Act.run (pg : Pg) (quote : String → String) (d : Db) : Act → Db
  | create now body => (perform (handleCreateWeek pg now body) d).2
  | clone now sourceId body => (perform (handleCloneWeek pg now sourceId body) d).2
  | patch now id body => (perform (handlePatchWeek pg now id body) d).2
  | addDinner ctx input => (perform (addDinnerTool pg quote ctx input) d).2
  | updateDinner ctx input => (perform (updateDinnerTool pg ctx input) d).2
  | deleteDinner ctx input => (perform (deleteDinnerTool ctx input) d).2

/-- What the acts make of a database without plans. -/
inductive Reachable (pg : Pg) (quote : String → String) : Db → Prop
  | start {d : Db} (hw : d.weeks.rows = []) (hd : d.dinners.rows = []) : Reachable pg quote d
  | act {d : Db} (a : Act) (h : Reachable pg quote d) : Reachable pg quote (a.run pg quote d)

/-! ### The days that are added -/

/-- The rows of a plan on one day. -/
def rowsOn (d : Db) (id day : ℤ) : List Dinner := (dinnersOf d id).filter fun r => r.dayDate = day

/-- Each day after `e` up to `e'` got one empty row if it had none, and none if it had one. -/
def OneRowEach (d d' : Db) (id e e' : ℤ) : Prop :=
  ∀ day, e < day → day ≤ e' →
    (rowsOn d id day = [] → ∃ k, rowsOn d' id day = [emptySlot id day k]) ∧
      (rowsOn d id day ≠ [] → rowsOn d' id day = rowsOn d id day)

/-- The days after `e` up to `e'` are free; where the text of `e'` sorts before that of `e`, and the
handler cuts instead, they are taken. -/
def Clear (d : Db) (id e e' : ℤ) : Prop :=
  if Cut e' e then ∀ day, e < day → day ≤ e' → rowsOn d id day ≠ []
  else ∀ day, e < day → day ≤ e' → rowsOn d id day = []

/-- A request with an end and nothing else. -/
def endOnly (t : String) : WeekPatch := ⟨none, none, some t, none, none, none, none⟩

variable {pg : Pg} {d d' : Db} {now id : ℤ} {t : String} {w : Week} {e e' : ℤ}

lemma filter_slots (id : ℤ) {day : ℤ} {days : List ℤ} (hn : days.Nodup) (hday : day ∈ days)
    (n : ℤ) : ∃ k, (Table.numbered n (days.map (emptySlot id))).filter (fun r => r.dayDate = day) =
      [emptySlot id day k] := by
  induction days generalizing n with
  | nil => simp at hday
  | cons x days ih =>
    rw [List.nodup_cons] at hn
    rw [List.map_cons, Table.numbered]
    rcases List.mem_cons.mp hday with rfl | hday
    · -- the other slots are for other days
      refine ⟨n, ?_⟩
      have hrest : (Table.numbered (n + 1) (days.map (emptySlot id))).filter
          (fun r => r.dayDate = day) = [] := by
        refine List.filter_eq_nil_iff.mpr fun r hr hd => hn.1 ?_
        have hm := Table.numbered_map (n + 1) days (emptySlot id) Dinner.dayDate (fun y => y)
          fun _ _ => rfl
        rw [List.map_id'] at hm
        rw [← hm, ← of_decide_eq_true hd]
        exact List.mem_map_of_mem hr
      rw [List.filter_cons_of_pos (by simp [emptySlot]), hrest]
    · have hne : x ≠ day := fun h => hn.1 (h ▸ hday)
      rw [List.filter_cons_of_neg (by simp [emptySlot, hne])]
      exact ih hn.2 hday (n + 1)

lemma rowsOn_addSlots {days : List ℤ} (hn : days.Nodup) {day : ℤ} (hday : day ∈ days) :
    ∃ k, rowsOn (addSlots d id days) id day = rowsOn d id day ++ [emptySlot id day k] := by
  have hown : dinnersOf (addSlots d id days) id = dinnersOf d id ++ emptySlots d id days := by
    rw [dinnersOf, rows_storeSlots, List.filter_append]
    exact congrArg (dinnersOf d id ++ ·)
      (List.filter_eq_self.mpr fun r hr => by simpa using weekId_of_mem_slots hr)
  obtain ⟨k, hk⟩ := filter_slots id hn hday d.dinners.next
  exact ⟨k, by rw [rowsOn, hown, List.filter_append, emptySlots, hk, rowsOn]⟩

/-- A cut takes no row of a day it leaves. -/
lemma rowsOn_cut {day : ℤ} (hday : day ≤ e') :
    rowsOn (cutDinners d id e') id day = rowsOn d id day := by
  have hrows : (cutDinners d id e').dinners.rows =
      d.dinners.rows.filter fun r => r.id ∉ dinnersAfter d id e' := by
    rw [cutDinners, deleteDinners_apply]
    exact Table.rows_applyAll_del d.dinners (dinnersAfter d id e')
  simp only [rowsOn, dinnersOf, hrows, List.filter_filter]
  refine List.filter_congr fun r hr => ?_
  by_cases hmem : r.id ∈ dinnersAfter d id e'
  · -- a row that goes lies after `e'`
    obtain ⟨x, hx, hid⟩ := List.mem_map.mp hmem
    obtain ⟨hx, hlt⟩ := List.mem_filter.mp hx
    obtain rfl : x = r := d.dinners.key_inj (mem_dinnersOf.mp hx).1 hr hid
    have hne : x.dayDate ≠ day := by
      have := of_decide_eq_true hlt
      omega
    simp [hne]
  · simp [hmem]

/-! ### The request -/

/-- What a committed request with an end does. -/
lemma end_result (hw : d.weeks.find? id = some w) (ht : pg.castDate t = some e')
    (h : Committed pg now id (endOnly t) d d') :
    ∃ w', d' = setWeek (Move.resize d id e' w.endDate) w' := by
  obtain ⟨m, v, w', hp⟩ := h.patched
  obtain rfl : v = w := Option.some.inj (hp.found.symm.trans hw)
  obtain ⟨hs, he⟩ := hp.carries
  obtain ⟨start, finish⟩ := m
  obtain rfl : start = none := by
    cases start with
    | none => rfl
    | some s => cases hs
  cases finish with
  | none => cases he
  | some x =>
    obtain rfl : t = text x := Option.some.inj he
    obtain rfl : x = e' := by simpa using ht
    have hcur : Move.curEnd ⟨none, some x⟩ v = v.endDate := if_neg (by simp)
    refine ⟨w', hp.result.trans ?_⟩
    rw [Move.resized, hcur, Move.shifted_of_eq (m := ⟨none, some x⟩) rfl, hp.week_id]
    rfl

lemma oneRowEach_cut :
    OneRowEach d (cutDinners d id e') id e e' ↔
      ∀ day, e < day → day ≤ e' → rowsOn d id day ≠ [] := by
  constructor
  · intro h day h1 h2 hfree
    obtain ⟨k, hk⟩ := (h day h1 h2).1 hfree
    rw [rowsOn_cut h2, hfree] at hk
    cases hk
  · intro h day h1 h2
    exact ⟨fun hfree => absurd hfree (h day h1 h2), fun _ => rowsOn_cut h2⟩

lemma oneRowEach_addSlots :
    OneRowEach d (addSlots d id (span (e + 1) e')) id e e' ↔
      ∀ day, e < day → day ≤ e' → rowsOn d id day = [] := by
  have hadd (day : ℤ) (h1 : e < day) (h2 : day ≤ e') :
      ∃ k, rowsOn (addSlots d id (span (e + 1) e')) id day =
        rowsOn d id day ++ [emptySlot id day k] :=
    rowsOn_addSlots (nodup_span (e + 1) e') (mem_span.mpr ⟨by omega, h2⟩)
  constructor
  · intro h day h1 h2
    by_contra htaken
    obtain ⟨k, hk⟩ := hadd day h1 h2
    rw [(h day h1 h2).2 htaken] at hk
    simp at hk
  · intro h day h1 h2
    obtain ⟨k, hk⟩ := hadd day h1 h2
    rw [h day h1 h2, List.nil_append] at hk
    exact ⟨fun _ => ⟨k, hk⟩, fun htaken => absurd (h day h1 h2) htaken⟩

lemma oneRowEach_resize (hlt : e < e') (w' : Week) :
    OneRowEach d (setWeek (Move.resize d id e' e) w') id e e' ↔ Clear d id e e' := by
  change OneRowEach d (Move.resize d id e' e) id e e' ↔ _
  rw [Move.resize, if_neg (by omega), Clear]
  split_ifs with hcut
  · exact oneRowEach_cut
  · exact oneRowEach_addSlots

/-- **An extension** gives each new day one row, and none to a day that has one, exactly when no
dinner of the plan lies on the new days. -/
theorem extension_iff (pg : Pg) (now id : ℤ) (d d' : Db) (w : Week) (t : String) (e' : ℤ)
    (hw : d.weeks.find? id = some w) (ht : pg.castDate t = some e') (hlt : w.endDate < e')
    (h : Committed pg now id (endOnly t) d d') :
    OneRowEach d d' id w.endDate e' ↔ Clear d id w.endDate e' := by
  obtain ⟨w', rfl⟩ := end_result hw ht h
  exact oneRowEach_resize hlt w'

/-- An end of a four-digit year commits, unless its text sorts before that of the start. -/
lemma end_commits (pg : Pg) (now e' : ℤ) (hid : 1 ≤ id) (hw : d.weeks.find? id = some w)
    (he : FourDigit e') (hs : ¬Cut e' w.startDate) :
    ∃ d', Committed pg now id (endOnly (text e')) d d' := by
  have hr : ¬Move.Refused ⟨none, some e'⟩ w := fun h => hs h.2
  have ha := accepted_dates pg now (m := ⟨none, some e'⟩) hid (by simp) (by simp) (by simpa using he)
    hr
  obtain ⟨w', -, hin⟩ := ha.inside hw
  exact ⟨_, hid, ha.startOk, ha.endOk, Tx.run_of_ok hin⟩

/-- Three days extended by two. -/
theorem extension_iff_threeDays : ∃ d',
    Committed Pg.plain 5 1 (endOnly "2026-04-24") (threeDays .draft) d' ∧
      (OneRowEach (threeDays .draft) d' 1 739727 739729 ↔
        Clear (threeDays .draft) 1 739727 739729) := by
  have hw : (threeDays .draft).weeks.find? 1 = some (threeDaysWeek .draft) := by decide
  obtain ⟨d', h⟩ := end_commits Pg.plain 5 739729 (by decide) hw (by decide) (by decide)
  exact ⟨d', h, extension_iff Pg.plain 5 1 (threeDays .draft) d' (threeDaysWeek .draft) _ 739729 hw
    (by decide) (by decide) h⟩

/-! ### A dinner past the end -/

def noPlans : Db := { threeDays .draft with weeks := Table.empty, dinners := Table.empty }

/-- The JSON text of a string with nothing to escape. -/
def quoted (s : String) : String := "\"" ++ s ++ "\""

/-- A plan of one day, and a dinner on the day after it. -/
def pastEnd : Db :=
  Act.run Pg.plain quoted (Act.run Pg.plain quoted noPlans
    (.create 1 (.ok ⟨"2026-04-20", "2026-04-20", ""⟩)))
    (.addDinner ⟨1⟩ (some ⟨0, "2026-04-21", "Soppa", "", "", 4, none, "", []⟩))

lemma reachable_pastEnd : Reachable Pg.plain quoted pastEnd := .act _ (.act _ (.start rfl rfl))

lemma pastEnd_week : pastEnd.weeks.find? 1 =
    some ⟨1, isoWeek 739725, 739725, 739725, none, none, .draft, "", 1⟩ := by
  decide

lemma pastEnd_dinners : dinnersOf pastEnd 1 = [⟨1, 1, 739726, some 1, 4, "\x7b\x7d", "", 0⟩] := by
  decide

/-- Extended by that day, the plan has two rows on it. -/
theorem not_oneRowEach : ¬∀ (d d' : Db) (w : Week) (t : String) (e' : ℤ),
    Reachable Pg.plain quoted d → d.weeks.find? 1 = some w → Pg.plain.castDate t = some e' →
      w.endDate < e' → Committed Pg.plain 5 1 (endOnly t) d d' →
        OneRowEach d d' 1 w.endDate e' := by
  intro hall
  obtain ⟨d', h⟩ := end_commits Pg.plain 5 739726 (by decide) pastEnd_week (by decide)
    (by decide)
  have hone := hall pastEnd d' _ _ 739726 reachable_pastEnd pastEnd_week (by decide) (by decide) h
  obtain ⟨w', rfl⟩ := end_result pastEnd_week (Pg.plain.castDate_text 739726) h
  have hclear := (oneRowEach_resize (by decide) w').mp hone
  rw [Clear, if_neg (by decide)] at hclear
  have hfree := hclear 739726 (by decide) (by decide)
  rw [rowsOn, pastEnd_dinners] at hfree
  exact absurd hfree (by decide)

end Veckomenyn.Extension
