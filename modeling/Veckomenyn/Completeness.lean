import Mathlib.Tactic.IntervalCases
import Veckomenyn.CloneSpec

/-!
One dinner a day, kept by every sequence of patches and clones.

A patch that carries one date is, on the plan it names, one of the operations of
`Planning`: nothing, a move, a cut or an extension. A clone packs and pads. All of them
keep a plan complete and leave the other plans alone.
-/

namespace Veckomenyn.Completeness

open Rows DateText Schema Sql Store Weeks Txn Dinners PatchSpec CloneSpec Planning

/-- The days of a plan's dinners. -/
def daysOf (d : Db) (id : ℤ) : Multiset ℤ := ((dinnersOf d id).map Dinner.dayDate : List ℤ)

/-- The plan `id` is there, and has one dinner on each of its days and none outside. -/
def CompletePlan (d : Db) (id : ℤ) : Prop :=
  ∃ w, d.weeks.find? id = some w ∧ w.startDate ≤ w.endDate ∧
    (∀ x, w.startDate ≤ x → x ≤ w.endDate → (daysOf d id).count x = 1) ∧
    ∀ x ∈ daysOf d id, w.startDate ≤ x ∧ x ≤ w.endDate

lemma planOf_days (d : Db) (w : Week) : (planOf d w).days = daysOf d w.id := rfl

lemma completePlan_iff {d : Db} {id : ℤ} {w : Week} (hw : d.weeks.find? id = some w) :
    CompletePlan d id ↔ (planOf d w).Complete := by
  have hid : w.id = id := (Table.find?_eq_some.mp hw).2
  rw [Plan.complete_iff, planOf_days, hid]
  constructor
  · rintro ⟨w', hw', h⟩
    rw [hw, Option.some.injEq] at hw'
    exact hw' ▸ h
  · exact fun h => ⟨w, hw, h⟩

lemma daysOf_perm {d d' : Db} {id : ℤ} (h : (dinnersOf d' id).Perm (dinnersOf d id)) :
    daysOf d' id = daysOf d id := Multiset.coe_eq_coe.mpr (h.map _)

/-! ### The days after each change -/

lemma daysOf_pack (d : Db) (id s : ℤ) :
    daysOf (pack d id s) id = (span s (s + (daysOf d id).card - 1) : List ℤ) := by
  have h := (dinnersOf_pack d id s).map Dinner.dayDate
  rw [packed_days] at h
  rw [daysOf, Multiset.coe_eq_coe.mpr h]
  simp [daysOf]

lemma daysOf_cut (d : Db) (id e : ℤ) :
    daysOf (cutDinners d id e) id = (daysOf d id).filter (· ≤ e) := by
  rw [daysOf, Multiset.coe_eq_coe.mpr ((dinnersOf_cut d id e).map Dinner.dayDate), daysOf,
    Multiset.filter_coe, List.filter_map]
  rfl

lemma daysOf_addSlots (d : Db) (id : ℤ) (days : List ℤ) :
    daysOf (addSlots d id days) id = daysOf d id + (days : List ℤ) := by
  have h := (dinnersOf_addSlots d id days).map Dinner.dayDate
  rw [List.map_append, emptySlots_map d id days Dinner.dayDate (fun x => x) fun _ _ => rfl,
    List.map_id'] at h
  rw [daysOf, Multiset.coe_eq_coe.mpr h, ← Multiset.coe_add]
  rfl

/-! ### A patch with one date -/

variable {pg : Pg} {d d' : Db} {now id : ℤ} {p : WeekPatch} {m : Move} {w w' : Week}

lemma planOf_patched (h : Patched pg now id p m w w' d d') :
    planOf d' w' = ⟨m.newStart w, m.newEnd w, daysOf (m.resized w d) w.id⟩ := by
  rw [planOf, h.newStart, h.newEnd, h.updated.id, h.result]
  rfl

/-- The start alone: the plan stays or moves. -/
lemma planOf_start (h : Patched pg now id p m w w' d d') (hm : m.finish = none) :
    planOf d' w' = planOf d w ∨ planOf d' w' = (planOf d w).moveTo (m.newStart w) := by
  have hend : m.newEnd w = m.curEnd w := by rw [Move.newEnd, hm]; rfl
  have hres : m.resized w d = m.shifted w d := by rw [Move.resized, hend, Move.resize, if_pos rfl]
  rw [planOf_patched h, hres, hend, Move.shifted, Move.curEnd]
  by_cases hn : m.newStart w = w.startDate
  · refine Or.inl ?_
    simp [hn, planOf, daysOf]
  · refine Or.inr ?_
    rw [if_neg hn, daysOf_pack, if_pos ⟨hn, hm⟩]
    rfl

/-- The end alone: the plan stays, is cut within its period, or extended. -/
lemma planOf_finish (h : Patched pg now id p m w w' d d') (hm : m.start = none)
    (hs : FourDigit w.startDate) (he : FourDigit w.endDate) :
    planOf d' w' = planOf d w ∨
      (planOf d' w' = (planOf d w).cut (m.newEnd w) ∧ w.startDate ≤ m.newEnd w ∧
        m.newEnd w ≤ w.endDate) ∨
      (planOf d' w' = (planOf d w).extend (m.newEnd w) ∧ w.endDate ≤ m.newEnd w) := by
  have hstart : m.newStart w = w.startDate := by rw [Move.newStart, hm]; rfl
  have hcur : m.curEnd w = w.endDate := by simp [Move.curEnd, hstart]
  have hshift : m.shifted w d = d := by rw [Move.shifted, if_pos hstart]
  rw [planOf_patched h, hstart, Move.resized, hcur, hshift, Move.resize]
  by_cases hsame : m.newEnd w = w.endDate
  · rw [if_pos hsame, hsame]
    exact Or.inl rfl
  rw [if_neg hsame]
  have hy : FourDigit (m.newEnd w) := by
    rcases hf : m.finish with _ | e
    · rw [Move.newEnd, hf, hcur] at hsame
      exact absurd rfl hsame
    · rw [Move.newEnd, hf]
      exact h.finishYear e hf
  have hle : w.startDate ≤ m.newEnd w := by
    by_contra hlt
    refine h.accepted ⟨hcur.symm ▸ hsame, ?_⟩
    rw [hstart]
    exact (cut_iff hy hs).mpr (by omega)
  split_ifs with hlt
  · have := (cut_iff hy he).mp hlt
    rw [daysOf_cut]
    exact Or.inr (Or.inl ⟨rfl, hle, by omega⟩)
  · have := (cut_iff hy he).not.mp hlt
    rw [daysOf_addSlots]
    exact Or.inr (Or.inr ⟨rfl, by omega⟩)

lemma complete_patched (h : Patched pg now id p m w w' d d')
    (hone : m.start = none ∨ m.finish = none) (hs : FourDigit w.startDate)
    (he : FourDigit w.endDate) (hc : (planOf d w).Complete) : (planOf d' w').Complete := by
  rcases hone with hm | hm
  · rcases planOf_finish h hm hs he with hp | ⟨hp, h1, h2⟩ | ⟨hp, h1⟩ <;> rw [hp]
    · exact hc
    · exact Plan.complete_cut hc h1 h2
    · exact Plan.complete_extend hc h1
  · rcases planOf_start h hm with hp | hp <;> rw [hp]
    · exact hc
    · exact Plan.complete_moveTo hc _

/-! ### The other plans -/

lemma onlyDinnersOf_resized (m : Move) (w : Week) (d : Db) :
    OnlyDinnersOf w.id d (m.resized w d) := by
  have h1 : OnlyDinnersOf w.id d (m.shifted w d) := by
    rw [Move.shifted]
    split_ifs
    · exact OnlyDinnersOf.refl _ _
    · exact onlyDinnersOf_pack _ _ _
  refine h1.trans ?_
  rw [Move.resized, Move.resize]
  split_ifs
  · exact OnlyDinnersOf.refl _ _
  · exact onlyDinnersOf_cut _ _ _
  · exact onlyDinnersOf_addSlots _ _ _

lemma findWeek_setWeek (d : Db) (w : Week) (k : ℤ) :
    (setWeek d w).weeks.find? k = if k = w.id then some w else d.weeks.find? k :=
  Table.find?_put d.weeks w k

lemma findWeek_patched (h : Patched pg now id p m w w' d d') (k : ℤ) :
    d'.weeks.find? k = if k = id then some w' else d.weeks.find? k := by
  have hid : w'.id = id := h.updated.id.trans h.week_id
  rw [h.result, findWeek_setWeek, Move.resized_weeks, hid]

lemma dinnersOf_patched (h : Patched pg now id p m w w' d d') {k : ℤ} (hk : k ≠ id) :
    (dinnersOf d' k).Perm (dinnersOf d k) := by
  rw [h.result]
  exact (onlyDinnersOf_resized m w d).dinnersOf (h.week_id ▸ hk)

lemma foreignKeys_patched (h : Patched pg now id p m w w' d d') (hf : ForeignKeys d) :
    ForeignKeys d' := by
  have hw : d.weeks.Has w.id := h.week_id ▸ Table.has_of_find? h.found
  have h1 : ForeignKeys (m.shifted w d) := by
    rw [Move.shifted]
    split_ifs
    · exact hf
    · exact foreignKeys_pack hf _ _
  rw [h.result]
  refine foreignKeys_setWeek ?_ w'
  rw [Move.resized, Move.resize]
  split_ifs
  · exact h1
  · exact foreignKeys_cut h1 _ _
  · exact foreignKeys_addSlots h1 (by rwa [Move.shifted_weeks]) _

/-! ### A clone -/

/-- The new plan is the source's dinners packed from its start, and padded. -/
lemma planOf_cloned {sourceId : ℤ} {startDate : String} (hf : ForeignKeys d)
    (h : Cloned pg now sourceId startDate w w' d d') : planOf d' w' =
      Plan.pad ⟨w'.startDate, w'.endDate,
        (span w'.startDate (w'.startDate + (daysOf d sourceId).card - 1) : List ℤ)⟩ := by
  have hcopied : daysOf (copied d w' sourceId) w'.id =
      (span w'.startDate (w'.startDate + (daysOf d sourceId).card - 1) : List ℤ) := by
    have hp := (dinnersOf_copied sourceId hf h.id).map Dinner.dayDate
    rw [clonedDinners_days, dinnersOf_setWeek] at hp
    rw [daysOf, Multiset.coe_eq_coe.mpr hp]
    simp [daysOf]
  have hdays : daysOf d' w'.id = daysOf (copied d w' sourceId) w'.id +
      (missingDays (copied d w' sourceId) w' : List ℤ) := by
    rw [h.result, padded, daysOf_addSlots]
  have hmissing : missingDays (copied d w' sourceId) w' = (span w'.startDate w'.endDate).filter
      fun day => day ∉ daysOf (copied d w' sourceId) w'.id := rfl
  rw [planOf, show ((dinnersOf d' w'.id).map Dinner.dayDate : List ℤ) = daysOf d' w'.id from rfl,
    hdays, hmissing, hcopied]
  rfl

lemma findWeek_cloned {sourceId : ℤ} {startDate : String}
    (h : Cloned pg now sourceId startDate w w' d d') (k : ℤ) :
    d'.weeks.find? k = if k = w'.id then some w' else d.weeks.find? k := by
  rw [h.result]
  exact findWeek_setWeek d w' k

lemma dinnersOf_cloned {sourceId : ℤ} {startDate : String}
    (h : Cloned pg now sourceId startDate w w' d d') {k : ℤ} (hk : k ≠ w'.id) :
    (dinnersOf d' k).Perm (dinnersOf d k) := by
  rw [h.result]
  exact (onlyDinnersOf_copied.trans (onlyDinnersOf_addSlots _ _ _)).dinnersOf hk

/-! ### Any sequence of requests -/

inductive Request where
  | patch (now id : ℤ) (p : WeekPatch)
  | clone (now sourceId : ℤ) (startDate : String)

namespace Request

def handler (pg : Pg) : Request → Prog Empty Empty.elim Resp Resp
  | patch now id p => handlePatchWeek pg now id (.ok p)
  | clone now sourceId startDate => handleCloneWeek pg now sourceId (.ok startDate)

/-- At most one of the two dates of the period. -/
def OneDate : Request → Prop
  | patch _ _ p => p.startDate = none ∨ p.endDate = none
  | clone _ _ _ => True

end Request

/-- The database after the requests, one after the other. -/
def serve (pg : Pg) (d : Db) (reqs : List Request) : Db :=
  reqs.foldl (fun d r => (perform (r.handler pg) d).2) d

lemma serve_append (pg : Pg) (d : Db) (xs ys : List Request) :
    serve pg d (xs ++ ys) = serve pg (serve pg d xs) ys := List.foldl_append

/-- Every plan starts and ends in a year of four digits. -/
def FourDigitDates (d : Db) : Prop :=
  ∀ w ∈ d.weeks.rows, FourDigit w.startDate ∧ FourDigit w.endDate

instance (d : Db) : Decidable (FourDigitDates d) := by unfold FourDigitDates; infer_instance

lemma completePlan_of_eq {k : ℤ} (hw : d'.weeks.find? k = d.weeks.find? k)
    (hd : (dinnersOf d' k).Perm (dinnersOf d k)) (h : CompletePlan d k) : CompletePlan d' k := by
  rw [CompletePlan, daysOf_perm hd, hw]
  exact h

lemma SameRows.completePlan {k : ℤ} (h : SameRows d d') (hc : CompletePlan d k) :
    CompletePlan d' k :=
  completePlan_of_eq (h.findWeek k) (h.dinnersOf k ▸ List.Perm.refl _) hc

/-- One request keeps every complete plan complete. -/
lemma completePlan_step {r : Request} {k : ℤ} (hone : r.OneDate) (hy : FourDigitDates d)
    (hc : CompletePlan d k) : CompletePlan (perform (r.handler pg) d).2 k := by
  cases r with
  | patch now id p =>
    rcases perform_patch pg now id (.ok p) d with h | ⟨q, m, w, w', hq, -, h⟩
    · exact SameRows.completePlan h hc
    · cases hq
      by_cases hk : k = id
      · subst hk
        have hw := findWeek_patched h k
        rw [if_pos rfl] at hw
        obtain ⟨h1, h2⟩ := hy w (Table.find?_eq_some.mp h.found).1
        have hm : m.start = none ∨ m.finish = none := by
          refine hone.imp (fun hp => ?_) fun hp => ?_
          · simpa [h.carries.1] using hp
          · simpa [h.carries.2] using hp
        exact (completePlan_iff hw).mpr
          (complete_patched h hm h1 h2 ((completePlan_iff h.found).mp hc))
      · refine completePlan_of_eq ?_ (dinnersOf_patched h hk) hc
        exact (findWeek_patched h k).trans (if_neg hk)
  | clone now sourceId startDate =>
    rcases perform_clone pg now sourceId (.ok startDate) d with h | ⟨q, src, w, -, h⟩
    · exact SameRows.completePlan h hc
    · have hk : k ≠ w.id := by
        obtain ⟨w0, hw0, -⟩ := hc
        have := (Table.has_of_find? hw0).lt_next
        rw [h.id]
        omega
      exact completePlan_of_eq ((findWeek_cloned h k).trans (if_neg hk)) (dinnersOf_cloned h hk) hc

lemma foreignKeys_step {r : Request} (hf : ForeignKeys d) :
    ForeignKeys (perform (r.handler pg) d).2 := by
  cases r with
  | patch now id p =>
    rcases perform_patch pg now id (.ok p) d with h | ⟨q, m, w, w', -, -, h⟩
    · exact h.foreignKeys hf
    · exact foreignKeys_patched h hf
  | clone now sourceId startDate =>
    rcases perform_clone pg now sourceId (.ok startDate) d with h | ⟨q, src, w, -, h⟩
    · exact h.foreignKeys hf
    · exact foreignKeys_cloned hf h

/-- The plan a clone adds is complete when its source has a period with room for its dinners. -/
lemma completePlan_clone {now sourceId t : ℤ} {startDate : String} (hf : ForeignKeys d)
    (hsrc : ∀ w, d.weeks.find? sourceId = some w → w.startDate ≤ w.endDate ∧
      ((dinnersOf d sourceId).length : ℤ) ≤ w.endDate - w.startDate + 1)
    (hold : d.weeks.find? t = none)
    (hnew : (perform (handleCloneWeek pg now sourceId (.ok startDate)) d).2.weeks.find? t ≠ none) :
    CompletePlan (perform (handleCloneWeek pg now sourceId (.ok startDate)) d).2 t := by
  rcases perform_clone pg now sourceId (.ok startDate) d with h | ⟨q, src, w, -, h⟩
  · exact absurd ((h.findWeek t).trans hold) hnew
  · have hfw := findWeek_cloned h t
    by_cases ht : t = w.id
    · rw [if_pos ht] at hfw
      obtain ⟨h1, h2⟩ := hsrc src h.found
      have he := h.endDate
      rw [completePlan_iff hfw, planOf_cloned hf h]
      have hcard : ((daysOf d sourceId).card : ℤ) = (dinnersOf d sourceId).length := by
        simp [daysOf]
      refine Plan.complete_pad (p := ⟨w.startDate, w.endDate, daysOf d sourceId⟩) ?_ ?_
      · simp only
        omega
      · simp only
        omega
    · rw [if_neg ht] at hfw
      exact absurd (hfw.trans hold) hnew

lemma completePlan_serve {k : ℤ} (reqs : List Request) (hone : ∀ r ∈ reqs, r.OneDate)
    (hy : ∀ xs ys, reqs = xs ++ ys → ys ≠ [] → FourDigitDates (serve pg d xs))
    (hc : CompletePlan d k) : CompletePlan (serve pg d reqs) k := by
  induction reqs generalizing d with
  | nil => exact hc
  | cons r rs ih =>
    refine ih (fun x hx => hone x (by simp [hx])) (fun xs ys h hne => ?_)
      (completePlan_step (hone r (by simp)) (hy [] (r :: rs) rfl (by simp)) hc)
    exact hy (r :: xs) ys (by rw [h]; rfl) hne

lemma foreignKeys_serve (reqs : List Request) (hf : ForeignKeys d) :
    ForeignKeys (serve pg d reqs) := by
  induction reqs generalizing d with
  | nil => exact hf
  | cons r rs ih => exact ih (foreignKeys_step hf)

/-- **One dinner a day**: through any sequence of patches with at most one date and of clones, in
which the stored dates have four-digit years, a complete plan stays complete, and the plan added
by a clone of a plan with a period and room for its dinners is complete from then on. -/
theorem one_dinner_a_day (pg : Pg) (d : Db) (reqs : List Request) (hf : ForeignKeys d)
    (hone : ∀ r ∈ reqs, r.OneDate)
    (hy : ∀ xs ys, reqs = xs ++ ys → ys ≠ [] → FourDigitDates (serve pg d xs)) :
    (∀ k, CompletePlan d k → CompletePlan (serve pg d reqs) k) ∧
    ∀ xs now sourceId startDate ys, reqs = xs ++ .clone now sourceId startDate :: ys →
      (∀ w, (serve pg d xs).weeks.find? sourceId = some w → w.startDate ≤ w.endDate ∧
        ((dinnersOf (serve pg d xs) sourceId).length : ℤ) ≤ w.endDate - w.startDate + 1) →
      ∀ t, (serve pg d xs).weeks.find? t = none →
        (serve pg d (xs ++ [.clone now sourceId startDate])).weeks.find? t ≠ none →
        CompletePlan (serve pg d (xs ++ [.clone now sourceId startDate])) t ∧
          CompletePlan (serve pg d reqs) t := by
  refine ⟨fun k hc => completePlan_serve reqs hone hy hc, ?_⟩
  intro xs now sourceId startDate ys hreqs hsrc t hold hnew
  rw [serve_append] at hnew ⊢
  have hc := completePlan_clone (foreignKeys_serve xs hf) hsrc hold hnew
  refine ⟨hc, ?_⟩
  have hsplit : reqs = (xs ++ [.clone now sourceId startDate]) ++ ys := by simp [hreqs]
  rw [hsplit, serve_append, serve_append]
  refine completePlan_serve ys (fun r hr => hone r (by simp [hreqs, hr])) (fun us vs h hne => ?_) hc
  have := hy (xs ++ [.clone now sourceId startDate] ++ us) vs (by rw [hsplit, h]; simp) hne
  rwa [serve_append, serve_append] at this

/-- A plan moved by two days, then cloned. -/
def moveThenClone : List Request :=
  [.patch 5 1 ⟨none, some "2026-04-22", none, none, none, none, none⟩, .clone 6 1 ""]

theorem one_dinner_a_day_moveThenClone :
    CompletePlan (serve Pg.plain (threeDays .draft) moveThenClone) 1 ∧
      CompletePlan (serve Pg.plain (threeDays .draft) moveThenClone) 2 := by
  have hone : ∀ r ∈ moveThenClone, r.OneDate := by
    simp [moveThenClone, Request.OneDate]
  have hy : ∀ xs ys, moveThenClone = xs ++ ys → ys ≠ [] →
      FourDigitDates (serve Pg.plain (threeDays .draft) xs) := by
    intro xs ys h hne
    have hx : xs = moveThenClone.take xs.length := by rw [h, List.take_left']; rfl
    have hl : xs.length < 2 := by
      have h1 := congrArg List.length h
      have h2 := List.length_pos_iff.mpr hne
      simp only [moveThenClone, List.length_append, List.length_cons, List.length_nil] at h1
      omega
    rw [hx]
    generalize xs.length = n at hl
    interval_cases n <;> decide
  have h := one_dinner_a_day Pg.plain (threeDays .draft) moveThenClone (foreignKeys_threeDays _)
    hone hy
  refine ⟨h.1 1 ?_, (h.2 (moveThenClone.take 1) 6 1 "" [] rfl ?_ 2 (by decide) (by decide)).2⟩
  · refine ⟨_, rfl, by decide, fun x h1 h2 => ?_, by decide⟩
    have h1' : 739725 ≤ x := h1
    have h2' : x ≤ 739727 := h2
    interval_cases x <;> decide
  · rintro w hw
    cases hw
    decide

end Veckomenyn.Completeness
