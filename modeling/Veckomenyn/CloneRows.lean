import Veckomenyn.Shift

/-!
The rows a clone adds, and those it leaves alone.

The new plan, the copies and the empty rows come after everything that is there; the copies are
the dinners of the source in their order, one a day from the new start.
-/

namespace Veckomenyn.CloneRows

open Rows DateText Schema Sql Store Weeks Txn Dinners PatchSpec CloneSpec Shift

/-! ### The request -/

/-- The request passes the checks of the handler and its transaction commits the plan `k`. -/
def CloneCommitted (pg : Pg) (now sourceId : ℤ) (startDate : String) (d d' : Db) (k : ℤ) : Prop :=
  1 ≤ sourceId ∧ (startDate = "" ∨ isoShape startDate.toList = true) ∧
    (cloneTx pg now startDate sourceId).run d = (.ok k, d')

variable {pg : Pg} {d d' : Db} {now sourceId k : ℤ} {startDate : String} {src w : Week}

/-- A committed request is one the handler has carried out. -/
lemma perform_cloneCommitted (h : CloneCommitted pg now sourceId startDate d d' k) :
    (perform (handleCloneWeek pg now sourceId (.ok startDate)) d).2 = d' := by
  obtain ⟨hid, hs, hrun⟩ := h
  have hid' : ¬sourceId < 1 := by omega
  have hs' : ¬(startDate ≠ "" ∧ (!isoShape startDate.toList) = true) := by
    rintro ⟨hne, hshape⟩
    rcases hs with hs | hs
    · exact hne hs
    · simp [hs] at hshape
  simp only [handleCloneWeek, hid', if_false]
  rw [if_neg hs', perform, run_transaction_then _ _ fun t => readsOnly_reload t, hrun]

lemma CloneCommitted.cloned (h : CloneCommitted pg now sourceId startDate d d' k) :
    ∃ src w, k = w.id ∧ Cloned pg now sourceId startDate src w d d' := by
  obtain ⟨-, -, hrun⟩ := h
  exact cloned_of_ok (Tx.inside_of_run_ok hrun)

/-! ### The new rows -/

/-- The columns of a dinner but for its identity and its plan. -/
def columns (r : Dinner) : ℤ × Option ℤ × ℤ × String × String × ℤ :=
  (r.dayDate, r.dishId, r.servings, r.sourcing, r.notes, r.sortOrder)

/-- The days of the period that none of these rows occupies. -/
def openDays (w : Week) (l : List Dinner) : List ℤ :=
  (span w.startDate w.endDate).filter fun day => day ∉ l.map Dinner.dayDate

/-- Nothing refers to the plan `k` or to its dinners but those dinners. -/
structure Bare (d : Db) (k : ℤ) : Prop where
  ratings : ∀ r ∈ d.ratings.rows, r.weekDinnerId ∉ (dinnersOf d k).map Dinner.id
  exceptions : ∀ r ∈ d.exceptions.rows, r.weekId ≠ k
  retrospectives : ∀ r ∈ d.retrospectives.rows, r.weekId ≠ k
  cartItems : ∀ r ∈ d.cartItems.rows, r.weekId ≠ some k

/-- `d'` is `d` with the plan `w` added, a clone of `src` with these copies and empty rows. -/
structure Added (startDate : String) (src w : Week) (copies empties : List Dinner) (d d' : Db) :
    Prop where
  weeks : d'.weeks.rows = d.weeks.rows ++ [w]
  draft : w.status = .draft
  notesMd : w.notesMd = ""
  startDate : if startDate = "" then w.startDate = src.startDate + 7
    else startDate = text w.startDate
  endDate : w.endDate = w.startDate + (src.endDate - src.startDate)
  isoWeek : w.isoWeek = DateText.isoWeek w.startDate
  dinners : d'.dinners.rows = d.dinners.rows ++ (copies ++ empties)
  own : dinnersOf d' w.id = copies ++ empties
  copied : copies.map columns = (dayByDay w.startDate (inOrder d src.id)).map columns
  padded : empties.map columns =
    (openDays w copies).map fun day => (day, none, 4, "\x7b\x7d", "", 0)
  bare : Bare d' w.id
  others : d' = { d with weeks := d'.weeks, dinners := d'.dinners }

lemma rows_storeSlots (D : Db) (days : List ℤ) :
    (addSlots D k days).dinners.rows = D.dinners.rows ++ emptySlots D k days :=
  Table.rows_insert emptySlots_id le_rfl

lemma rows_storeCloned (D : Db) :
    (storeDinners D (clonedDinners D w sourceId)).dinners.rows =
      D.dinners.rows ++ clonedDinners D w sourceId :=
  Table.rows_insert clonedDinners_id le_rfl

/-- The rows of a plan that is not there yet are the new ones. -/
lemma filter_new {l : List Dinner} (hold : ∀ r ∈ d.dinners.rows, r.weekId ≠ k)
    (hnew : ∀ r ∈ l, r.weekId = k) :
    (d.dinners.rows ++ l).filter (fun r => r.weekId = k) = l := by
  rw [List.filter_append, List.filter_eq_nil_iff.mpr fun r hr => by simpa using hold r hr,
    List.filter_eq_self.mpr fun r hr => by simpa using hnew r hr, List.nil_append]

lemma dinners_cloned (h : Cloned pg now sourceId startDate src w d d')
    (hold : ∀ r ∈ d.dinners.rows, r.weekId ≠ w.id) :
    ∃ copies empties, d'.dinners.rows = d.dinners.rows ++ (copies ++ empties) ∧
      (∀ r ∈ copies ++ empties, r.weekId = w.id) ∧
      copies.map columns = (dayByDay w.startDate (inOrder d sourceId)).map columns ∧
      empties.map columns = (openDays w copies).map fun day => (day, none, 4, "\x7b\x7d", "", 0) := by
  have hrows : (storeDinners (setWeek d w) (clonedDinners (setWeek d w) w sourceId)).dinners.rows =
      (setWeek d w).dinners.rows ++ clonedDinners (setWeek d w) w sourceId := rows_storeCloned _
  have hown : dinnersOf (copied d w sourceId) w.id = clonedDinners (setWeek d w) w sourceId := by
    rw [dinnersOf, copied, hrows]
    exact filter_new hold fun r hr => (mem_clonedDinners hr).1
  refine ⟨clonedDinners (setWeek d w) w sourceId,
    emptySlots (copied d w sourceId) w.id (missingDays (copied d w sourceId) w), ?_, ?_, ?_, ?_⟩
  · rw [h.result, CloneSpec.padded, rows_storeSlots, copied, hrows, List.append_assoc]
    rfl
  · intro r hr
    rcases List.mem_append.mp hr with hr | hr
    · exact (mem_clonedDinners hr).1
    · exact weekId_of_mem_slots hr
  · rw [clonedDinners_map _ _ _ columns columns fun _ _ => rfl, dinnersOf_setWeek, packed_eq]
    rfl
  · rw [emptySlots_map _ _ _ columns (fun day => (day, none, 4, "\x7b\x7d", "", 0)) fun _ _ => rfl,
      missingDays, hown]
    rfl

lemma others_cloned (h : Cloned pg now sourceId startDate src w d d') :
    d' = { d with weeks := d'.weeks, dinners := d'.dinners } := by
  rw [h.result]
  rfl

/-- A plan that no row refers to stays bare when its dinners are new. -/
lemma bare_cloned {l : List Dinner} (hf : ForeignKeys d) (hw : ¬d.weeks.Has k)
    (hothers : d' = { d with weeks := d'.weeks, dinners := d'.dinners })
    (hrows : d'.dinners.rows = d.dinners.rows ++ l) (hown : dinnersOf d' k = l) : Bare d' k := by
  have hratings : d'.ratings = d.ratings := by rw [hothers]
  have hexceptions : d'.exceptions = d.exceptions := by rw [hothers]
  have hretros : d'.retrospectives = d.retrospectives := by rw [hothers]
  have hcart : d'.cartItems = d.cartItems := by rw [hothers]
  refine ⟨fun r hr hmem => ?_, fun r hr hk => ?_, fun r hr hk => ?_, fun r hr hk => ?_⟩
  · -- a rating is of an old dinner, whose identity no new one has
    rw [hratings] at hr
    obtain ⟨x, hx, hid⟩ := hf.ratingDinner r hr
    have hnodup := d'.dinners.nodup
    rw [hrows, List.map_append] at hnodup
    have hne := (List.nodup_append.mp hnodup).2.2 _ (List.mem_map_of_mem hx)
    exact hne r.weekDinnerId (hown ▸ hmem) hid
  · exact hw (hk ▸ hf.exceptionWeek r (hexceptions ▸ hr))
  · exact hw (hk ▸ hf.retrospectiveWeek r (hretros ▸ hr))
  · exact hw (hf.cartItemWeek r (hcart ▸ hr) k hk)

/-- **A committed clone** adds one draft with the given start or the source's a week later, the
source's length and no notes; the source's dinners in their order one a day from that start, and an
empty row for each day of the period they leave open; and nothing else, neither to the new plan nor
to what was there. -/
theorem clone_rows (pg : Pg) (now sourceId k : ℤ) (startDate : String) (d d' : Db)
    (hf : ForeignKeys d) (h : CloneCommitted pg now sourceId startDate d d' k) :
    ∃ src w copies empties, d.weeks.find? sourceId = some src ∧ w.id = k ∧
      Added startDate src w copies empties d d' := by
  obtain ⟨src, w, rfl, hc⟩ := h.cloned
  have hsrc : src.id = sourceId := (Table.find?_eq_some.mp hc.found).2
  have hnew : ¬d.weeks.Has w.id := fun hw => by
    have := hw.lt_next
    rw [hc.id] at this
    omega
  obtain ⟨copies, empties, hrows, hweek, hcopied, hpadded⟩ := dinners_cloned hc fun r hr hk =>
    hnew (hk ▸ hf.dinnerWeek r hr)
  have hown : dinnersOf d' w.id = copies ++ empties := by
    rw [dinnersOf, hrows]
    exact filter_new (fun r hr hk => hnew (hk ▸ hf.dinnerWeek r hr)) hweek
  refine ⟨src, w, copies, empties, hc.found, rfl, ?_, hc.draft, hc.notesMd, ?_, hc.endDate,
    hc.isoWeek, hrows, hown, by rw [hsrc, hcopied], hpadded,
    bare_cloned hf hnew (others_cloned hc) hrows hown, others_cloned hc⟩
  · have hput : (setWeek d w).weeks.rows = d.weeks.rows ++ [w] :=
      Table.rows_put_new (r := w) (by rw [key_week, hc.id])
    rw [hc.result]
    exact hput
  · have hs := hc.startDate
    split_ifs at hs ⊢ with hblank
    · exact hs
    · exact (pg.castDate_shape (h.2.1.resolve_left hblank) hs).1

/-- A clone of a plan that is there commits, from a blank start or one of a four-digit year. -/
lemma clone_commits (pg : Pg) (now : ℤ) (startDate : String) (hid : 1 ≤ sourceId)
    (hw : d.weeks.find? sourceId = some src)
    (hs : startDate = "" ∨ ∃ s, startDate = text s ∧ FourDigit s) :
    ∃ d' k, CloneCommitted pg now sourceId startDate d d' k := by
  have ⟨given, hg⟩ : ∃ given, addDate pg (some startDate) = .ok given := by
    rcases hs with rfl | ⟨s, rfl, -⟩
    · exact ⟨_, rfl⟩
    · exact ⟨_, addDate_text pg (some s)⟩
  have ⟨v, hv⟩ : ∃ v, (cloneTarget pg now startDate sourceId).run d =
      .ok ([.week (.put v)], some v.id) := by
    simp only [cloneTarget, hg, hw, bind, Except.bind]
    exact ⟨_, rfl⟩
  have ⟨d', hin⟩ : ∃ d', (cloneTx pg now startDate sourceId).inside d = (.ok v.id, d') := by
    have hset : applyAll d [Write.week (.put v)] = setWeek d v := rfl
    rw [cloneTx, Tx.inside_bind_of_ok _ (Tx.inside_query_ok hv), hset]
    simp only
    rw [Tx.inside_bind_of_ok _ (inside_cloneDinners (find_setWeek d v) _),
      Tx.inside_bind_of_ok _ (inside_padDays
        (d := storeDinners (setWeek d v) (clonedDinners (setWeek d v) v sourceId))
        (find_setWeek d v) _)]
    exact ⟨_, rfl⟩
  refine ⟨d', v.id, hid, hs.imp_right ?_, Tx.run_of_ok hin⟩
  rintro ⟨s, rfl, hy⟩
  exact isoShape_text hy

/-- Three dinners cloned, to start a week after the source. -/
theorem clone_rows_threeDays : ∃ d' k, CloneCommitted Pg.plain 5 1 "" (threeDays .draft) d' k ∧
    ∃ src w copies empties, (threeDays .draft).weeks.find? 1 = some src ∧ w.id = k ∧
      Added "" src w copies empties (threeDays .draft) d' := by
  have hw : (threeDays .draft).weeks.find? 1 = some (threeDaysWeek .draft) := by decide
  obtain ⟨d', k, h⟩ := clone_commits Pg.plain 5 "" (by decide) hw (Or.inl rfl)
  exact ⟨d', k, h, clone_rows Pg.plain 5 1 k "" _ d' (foreignKeys_threeDays .draft) h⟩

end Veckomenyn.CloneRows
