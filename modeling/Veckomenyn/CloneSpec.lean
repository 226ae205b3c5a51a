import Veckomenyn.PatchSpec

/-!
What a clone of a plan does, dates read as days.
-/

namespace Veckomenyn.CloneSpec

open Rows DateText Schema Sql Store Weeks Txn Dinners PatchSpec

/-- The rows a clone has stored: the new plan, the packed copies and the padding. -/
def copied (d : Db) (w : Week) (sourceId : ℤ) : Db :=
  storeDinners (setWeek d w) (clonedDinners (setWeek d w) w sourceId)

def padded (d : Db) (w : Week) : Db := addSlots d w.id (missingDays d w)

/-- What a committed clone has done: `src` is the source, `w` the new plan. -/
structure Cloned (pg : Pg) (now sourceId : ℤ) (startDate : String) (src w : Week) (d d' : Db) :
    Prop where
  found : d.weeks.find? sourceId = some src
  id : w.id = d.weeks.next
  startDate : if startDate = "" then w.startDate = src.startDate + 7
    else pg.castDate startDate = some w.startDate
  endDate : w.endDate = w.startDate + (src.endDate - src.startDate)
  isoWeek : w.isoWeek = DateText.isoWeek w.startDate
  draft : w.status = .draft
  notesMd : w.notesMd = ""
  result : d' = padded (copied d w sourceId) w

variable {pg : Pg} {d d' : Db} {now sourceId t : ℤ} {startDate : String} {src w : Week}

lemma cloneTarget_ok {ws : List Write} {o : Option ℤ}
    (h : (cloneTarget pg now startDate sourceId).run d = .ok (ws, o)) :
    (o = none ∧ ws = []) ∨ ∃ src w, o = some w.id ∧ ws = [.week (.put w)] ∧
      d.weeks.find? sourceId = some src ∧ w.id = d.weeks.next ∧
      (if startDate = "" then w.startDate = src.startDate + 7
        else pg.castDate startDate = some w.startDate) ∧
      w.endDate = w.startDate + (src.endDate - src.startDate) ∧
      w.isoWeek = isoWeek w.startDate ∧ w.status = .draft ∧ w.notesMd = "" := by
  obtain ⟨given, hg, h⟩ := exists_of_bind h
  rcases hw : d.weeks.find? sourceId with _ | src
  · rw [hw] at h
    cases h
    exact Or.inl ⟨rfl, rfl⟩
  · rw [hw] at h
    cases h
    refine Or.inr ⟨src, _, rfl, rfl, rfl, rfl, ?_, rfl, rfl, rfl, rfl⟩
    rw [addDate] at hg
    split_ifs with hs
    · rw [if_pos hs] at hg
      cases hg
      rfl
    · rw [if_neg hs] at hg
      obtain ⟨x, hx, hg⟩ := exists_of_bind hg
      cases hg
      unfold date at hx
      split at hx
      · rename_i y hy
        rw [hy, ← Except.ok.inj hx]
        rfl
      · cases hx

lemma inside_cloneDinners (hw : d.weeks.find? w.id = some w) (f : DbError → Resp) :
    (Tx.query (cloneDinners w.id sourceId) f).inside d =
      (.ok (), storeDinners d (clonedDinners d w sourceId)) := by
  have hr : (cloneDinners w.id sourceId).run d =
      .ok (((clonedDinners d w sourceId).map .put).map Write.dinner, ()) := by
    simp only [cloneDinners, hw]
  rw [Tx.inside_query_ok hr, applyAll_dinners]
  rfl

lemma inside_padDays (hw : d.weeks.find? w.id = some w) (f : DbError → Resp) :
    (Tx.query (padDays w.id) f).inside d = (.ok (), padded d w) := by
  have hr : (padDays w.id).run d =
      .ok (((emptySlots d w.id (missingDays d w)).map .put).map Write.dinner, ()) := by
    simp only [padDays, hw]
  rw [Tx.inside_query_ok hr, applyAll_dinners]
  rfl

lemma find_setWeek (d : Db) (w : Week) : (setWeek d w).weeks.find? w.id = some w := by
  exact (Table.find?_put d.weeks w w.id).trans (if_pos rfl)

/-- **A committed clone**: the new plan, the packed copies of the source's dinners, and an empty
slot for each day left. -/
theorem cloned_of_ok (h : (cloneTx pg now startDate sourceId).inside d = (.ok t, d')) :
    ∃ src w, t = w.id ∧ Cloned pg now sourceId startDate src w d d' := by
  obtain ⟨o, v, ho, h⟩ := Tx.inside_bind_ok h
  rcases hr : (cloneTarget pg now startDate sourceId).run d with e | ⟨ws, o'⟩
  · rw [Tx.inside_query_error hr] at ho
    simp at ho
  rw [Tx.inside_query_ok hr, Prod.mk.injEq, Except.ok.injEq] at ho
  obtain ⟨rfl, rfl⟩ := ho
  rcases cloneTarget_ok hr with ⟨rfl, -⟩ | ⟨src, w, rfl, rfl, hf, hid, hs, he, hi, hd, hn⟩
  · simp at h
  · have hv : applyAll d [Write.week (.put w)] = setWeek d w := rfl
    simp only at h
    rw [hv, Tx.inside_bind_of_ok _ (inside_cloneDinners (find_setWeek d w) _),
      Tx.inside_bind_of_ok _ (inside_padDays
        (d := storeDinners (setWeek d w) (clonedDinners (setWeek d w) w sourceId))
        (find_setWeek d w) _)] at h
    simp only [Tx.inside_pure, Prod.mk.injEq, Except.ok.injEq] at h
    exact ⟨src, w, h.1.symm, hf, hid, hs, he, hi, hd, hn, h.2.symm⟩

/-- A clone leaves the rows alone or commits. -/
lemma perform_clone (pg : Pg) (now id : ℤ) (body : Except String String) (d : Db) :
    SameRows d (perform (handleCloneWeek pg now id body) d).2 ∨
      ∃ s src w, body = .ok s ∧
        Cloned pg now id s src w d (perform (handleCloneWeek pg now id body) d).2 := by
  unfold handleCloneWeek
  split_ifs with hid
  · exact Or.inl (SameRows.refl d)
  · rcases body with e | s
    · exact Or.inl (SameRows.refl d)
    · simp only
      split_ifs with hs
      · exact Or.inl (SameRows.refl d)
      · rw [perform, run_transaction_then _ _ fun t => readsOnly_reload t]
        rcases hin : (cloneTx pg now s id).inside d with ⟨e | t, v⟩
        · rw [Tx.run_of_error hin]
          exact Or.inl (sameRows_reserveAll d _)
        · rw [Tx.run_of_ok hin]
          obtain ⟨src, w, -, h⟩ := cloned_of_ok hin
          exact Or.inr ⟨s, src, w, rfl, h⟩

/-! ### The rows of a clone -/

lemma clonedDinners_id {l : List Dinner} {k : ℤ} :
    ∀ f ∈ l.map fun r id => ({ r with id := id, weekId := k } : Dinner), ∀ i, Keyed.key (f i) = i := by
  simp

lemma nodup_clonedDinners (d : Db) (w : Week) (sourceId : ℤ) :
    ((clonedDinners d w sourceId).map Dinner.id).Nodup := Table.nodup_numbered clonedDinners_id

lemma clonedDinners_map {β : Type} (d : Db) (w : Week) (sourceId : ℤ) (f : Dinner → β)
    (g : Dinner → β) (h : ∀ r k, f { r with id := k, weekId := w.id } = g r) :
    (clonedDinners d w sourceId).map f = (packed w.startDate (dinnersOf d sourceId)).map g :=
  Table.numbered_map _ _ _ _ _ h

lemma clonedDinners_days (d : Db) (w : Week) (sourceId : ℤ) :
    (clonedDinners d w sourceId).map Dinner.dayDate =
      span w.startDate (w.startDate + (dinnersOf d sourceId).length - 1) := by
  rw [clonedDinners_map d w sourceId Dinner.dayDate Dinner.dayDate fun _ _ => rfl, packed_days]

lemma mem_clonedDinners {x : Dinner} (h : x ∈ clonedDinners d w sourceId) :
    x.weekId = w.id ∧ ∃ r ∈ dinnersOf d sourceId, x.dishId = r.dishId := by
  have h1 := clonedDinners_map d w sourceId (fun r => (r.weekId, r.dishId))
    (fun r => (w.id, r.dishId)) fun _ _ => rfl
  have hm := h1 ▸ List.mem_map_of_mem (f := fun r : Dinner => (r.weekId, r.dishId)) h
  obtain ⟨r, hr, hx⟩ := List.mem_map.mp hm
  obtain ⟨y, n, hy, rfl⟩ := mem_packed.mp hr
  simp only [Prod.mk.injEq] at hx
  exact ⟨hx.1.symm, y, mem_of_mem_ranked Before hy, hx.2.symm⟩

lemma mem_storeCloned {x : Dinner} :
    x ∈ (storeDinners d (clonedDinners d w sourceId)).dinners.rows ↔
      x ∈ clonedDinners d w sourceId ∨ x ∈ d.dinners.rows := Table.mem_insert clonedDinners_id

/-- The dinners of the new plan before the padding are the copies. -/
lemma dinnersOf_copied (sourceId : ℤ) (hf : ForeignKeys d) (hid : w.id = d.weeks.next) :
    (dinnersOf (copied d w sourceId) w.id).Perm (clonedDinners (setWeek d w) w sourceId) := by
  refine perm_dinnersOf (nodup_of_ids (nodup_clonedDinners _ _ _)) fun x => ?_
  rw [copied, mem_storeCloned]
  constructor
  · rintro ⟨hx | hx, hw⟩
    · exact hx
    · have := (hf.dinnerWeek x hx).lt_next
      omega
  · exact fun hx => ⟨Or.inl hx, (mem_clonedDinners hx).1⟩

lemma onlyDinnersOf_copied : OnlyDinnersOf w.id d (copied d w sourceId) := by
  intro x hx
  rw [copied, mem_storeCloned]
  exact ⟨fun h => h.elim (fun h => absurd (mem_clonedDinners h).1 hx) fun h => h, Or.inr⟩

lemma foreignKeys_cloned (hf : ForeignKeys d) (h : Cloned pg now sourceId startDate src w d d') :
    ForeignKeys d' := by
  have hw : (copied d w sourceId).weeks.Has w.id := Table.has_of_find? (find_setWeek d w)
  rw [h.result]
  refine foreignKeys_addSlots (foreignKeys_storeDinners (foreignKeys_setWeek hf w)
    (nodup_clonedDinners _ _ _) (fun r hr => ?_) fun r hr k hk => ?_) hw _
  · rw [(mem_clonedDinners hr).1]
    exact hw
  · obtain ⟨-, y, hy, hd⟩ := mem_clonedDinners hr
    exact hf.dinnerDish y (mem_dinnersOf.mp hy).1 k (hd ▸ hk)

end Veckomenyn.CloneSpec
