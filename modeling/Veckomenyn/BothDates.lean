import Veckomenyn.Completeness

/-!
Both dates in one patch, against the start alone followed by the end alone.

Either way the dinners are packed from the new start. The two then differ in the end the
new end is compared with: one request goes by the stored end, two requests go by the end
that has slid along with the start.
-/

namespace Veckomenyn.BothDates

open Rows DateText Schema Sql Weeks Txn Dinners PatchSpec Completeness

/-- What a dinner row holds: day, dish, servings, sourcing and notes. -/
def content (r : Dinner) : ℤ × Option ℤ × ℤ × String × String :=
  (r.dayDate, r.dishId, r.servings, r.sourcing, r.notes)

def contentOf (d : Db) (id : ℤ) : Multiset (ℤ × Option ℤ × ℤ × String × String) :=
  ((dinnersOf d id).map content : List _)

def datesOf (d : Db) (id : ℤ) : Option (ℤ × ℤ) :=
  (d.weeks.find? id).map fun w => (w.startDate, w.endDate)

/-- The plan has the same dates and the same dinner rows, identities apart. -/
def SamePlan (id : ℤ) (d d' : Db) : Prop :=
  datesOf d id = datesOf d' id ∧ contentOf d id = contentOf d' id

instance (id : ℤ) (d d' : Db) : Decidable (SamePlan id d d') := by
  unfold SamePlan; infer_instance

/-- One request with both dates. -/
def together (pg : Pg) (now id s e : ℤ) (d : Db) : Db :=
  (perform (handlePatchWeek pg now id (.ok (Move.patch ⟨some s, some e⟩))) d).2

/-- A request with the start alone, then one with the end alone. -/
def oneByOne (pg : Pg) (now now' id s e : ℤ) (d : Db) : Db :=
  (perform (handlePatchWeek pg now' id (.ok (Move.patch ⟨none, some e⟩)))
    (perform (handlePatchWeek pg now id (.ok (Move.patch ⟨some s, none⟩))) d).2).2

/-- The end of the plan once it has slid along with its start. -/
def slid (w : Week) (s : ℤ) : ℤ := w.endDate + (s - w.startDate)

/-- The stored end and the slid end lead the resize to the same rows, `n` being the number of
dinners of the plan. -/
def SameResize (w : Week) (n : ℕ) (s e : ℤ) : Prop :=
  (Cut e w.endDate ∨ e ≤ w.endDate) ∧ (Cut e (slid w s) ∨ e ≤ slid w s) ∧
    ((Cut e w.endDate ↔ Cut e (slid w s)) ∨ (n : ℤ) ≤ e - s + 1)

/-- A plan with one dinner a day is left with one dinner a day. -/
def RoomForAll (w : Week) (s e : ℤ) : Prop :=
  e ≤ slid w s ∧ (Cut e w.endDate ∨ e = slid w s ∧ e ≤ w.endDate)

variable {pg : Pg} {d : Db} {id : ℤ} {w : Week}

/-! ### Rows after a resize -/

lemma filter_eq_add_iff {α : Type} {q : α → Prop} [DecidablePred q] {s t : Multiset α} :
    s.filter q = s + t ↔ t = 0 ∧ ∀ x ∈ s, q x := by
  constructor
  · intro h
    have hc : s.card + t.card ≤ s.card := by
      rw [← Multiset.card_add, ← h]
      exact Multiset.card_le_card (Multiset.filter_le q s)
    have ht : t = 0 := Multiset.card_eq_zero.mp (by omega)
    rw [ht, add_zero] at h
    exact ⟨ht, Multiset.filter_eq_self.mp h⟩
  · rintro ⟨rfl, h⟩
    rw [add_zero, Multiset.filter_eq_self.mpr h]

/-- The contents of the empty slots for these days. -/
def emptyContents (days : List ℤ) : Multiset (ℤ × Option ℤ × ℤ × String × String) :=
  (days.map fun day => content (emptySlot 0 day 0) : List _)

lemma contentOf_resize (d : Db) (id e cur : ℤ) : contentOf (Move.resize d id e cur) id =
    if Cut e cur then (contentOf d id).filter (·.1 ≤ e)
    else contentOf d id + emptyContents (span (cur + 1) e) := by
  rw [Move.resize]
  by_cases he : e = cur
  · have hc : ¬Cut e cur := he ▸ cut_irrefl e
    rw [if_pos he, if_neg hc, span_eq_nil (by omega)]
    simp [emptyContents]
  · rw [if_neg he]
    by_cases hc : Cut e cur
    · rw [if_pos hc, if_pos hc, contentOf,
        Multiset.coe_eq_coe.mpr ((dinnersOf_cut d id e).map content), contentOf,
        Multiset.filter_coe, List.filter_map]
      rfl
    · rw [if_neg hc, if_neg hc, contentOf,
        Multiset.coe_eq_coe.mpr ((dinnersOf_addSlots d id (span (cur + 1) e)).map content),
        List.map_append, emptySlots_map d id _ content (fun day => content (emptySlot 0 day 0))
          fun _ _ => rfl, ← Multiset.coe_add]
      rfl

lemma card_emptyContents (a b : ℤ) :
    (emptyContents (span a b)).card = (b - a + 1).toNat := by
  simp [emptyContents, length_span]

lemma emptyContents_eq_zero {a b : ℤ} : emptyContents (span a b) = 0 ↔ b < a := by
  rw [← Multiset.card_eq_zero, card_emptyContents]
  omega

lemma contentOf_days (d : Db) (id : ℤ) : (contentOf d id).map Prod.fst = daysOf d id := by
  rw [contentOf, Multiset.map_coe, List.map_map]
  rfl

/-- The days of the packed rows all lie up to `e` when there is room for them. -/
lemma forall_packed_le (d : Db) (id : ℤ) {s e : ℤ} (hse : s ≤ e) :
    (∀ x ∈ contentOf (pack d id s) id, x.1 ≤ e) ↔ ((dinnersOf d id).length : ℤ) ≤ e - s + 1 := by
  have hcard : (daysOf d id).card = (dinnersOf d id).length := by simp [daysOf]
  have hmem : (∀ x ∈ contentOf (pack d id s) id, x.1 ≤ e) ↔
      ∀ y ∈ (contentOf (pack d id s) id).map Prod.fst, y ≤ e := by
    simp [Multiset.mem_map]
  rw [hmem, contentOf_days, daysOf_pack, hcard]
  simp only [Multiset.mem_coe, mem_span]
  constructor
  · intro h
    by_contra hc
    have := h (s + (dinnersOf d id).length - 1) (by omega)
    omega
  · rintro h x hx
    omega

/-- Resizing packed dinners by two different ends gives the same rows in exactly these cases. -/
lemma resize_agree_iff {s e a b : ℤ} (hab : a ≠ b) (hse : s ≤ e) :
    contentOf (Move.resize (pack d id s) id e a) id =
        contentOf (Move.resize (pack d id s) id e b) id ↔
      (Cut e a ∨ e ≤ a) ∧ (Cut e b ∨ e ≤ b) ∧
        ((Cut e a ↔ Cut e b) ∨ ((dinnersOf d id).length : ℤ) ≤ e - s + 1) := by
  have hle := forall_packed_le d id hse
  rw [contentOf_resize, contentOf_resize]
  by_cases ha : Cut e a <;> by_cases hb : Cut e b <;>
    simp only [ha, hb, if_true, if_false, true_or, false_or, true_and, and_true, iff_true,
      iff_false, not_true]
  · rw [filter_eq_add_iff, emptyContents_eq_zero, hle]
    omega
  · rw [eq_comm, filter_eq_add_iff, emptyContents_eq_zero, hle]
    omega
  · rw [add_left_cancel_iff]
    constructor
    · intro h
      have := congrArg Multiset.card h
      rw [card_emptyContents, card_emptyContents] at this
      omega
    · rintro ⟨h1, h2⟩
      rw [emptyContents_eq_zero.mpr (by omega), emptyContents_eq_zero.mpr (by omega)]

/-! ### The two ways -/

/-- The dates of a request that moves the start, moves it, and the end it goes by depends on
whether the end comes along. -/
lemma together_eq (pg : Pg) (now : ℤ) {s e : ℤ} (hid : 1 ≤ id) (hw : d.weeks.find? id = some w)
    (hs : FourDigit s) (he : FourDigit e) (hne : s ≠ w.startDate) (hse : s ≤ e) :
    ∃ w', w'.id = id ∧ w'.startDate = s ∧ w'.endDate = e ∧ together pg now id s e d =
      setWeek (Move.resize (pack d id s) id e w.endDate) w' := by
  have hr : ¬Move.Refused ⟨some s, some e⟩ w := fun h => by
    have := (cut_iff he hs).mp h.2
    omega
  obtain ⟨w', h⟩ := perform_dates pg now (m := ⟨some s, some e⟩) hid hw (by simp)
    (by simpa using hs) (by simpa using he) hr
  refine ⟨w', h.updated.id.trans h.week_id, h.newStart, h.newEnd, h.result.trans ?_⟩
  have hshift := Move.shifted_of_ne (m := ⟨some s, some e⟩) (w := w) hne d
  have hcur : Move.curEnd ⟨some s, some e⟩ w = w.endDate := if_neg (by simp)
  rw [Move.resized, hshift, hcur, h.week_id]
  rfl

lemma oneByOne_eq (pg : Pg) (now now' : ℤ) {s e : ℤ} (hid : 1 ≤ id) (hw : d.weeks.find? id = some w)
    (hs : FourDigit s) (he : FourDigit e) (hne : s ≠ w.startDate) (hse : s ≤ e) :
    ∃ w' w'', w''.id = id ∧ w''.startDate = s ∧ w''.endDate = e ∧
      oneByOne pg now now' id s e d =
        setWeek (Move.resize (setWeek (pack d id s) w') id e (slid w s)) w'' := by
  have hr : ¬Move.Refused ⟨some s, none⟩ w := fun h => h.1 rfl
  obtain ⟨w', h⟩ := perform_dates pg now (m := ⟨some s, none⟩) hid hw (by simp)
    (by simpa using hs) (by simp) hr
  have hcur : Move.curEnd ⟨some s, none⟩ w = slid w s := if_pos ⟨hne, rfl⟩
  have hw' := findWeek_patched h id
  rw [if_pos rfl] at hw'
  have hstart : w'.startDate = s := h.newStart
  have hend : w'.endDate = slid w s := h.newEnd.trans hcur
  have hr' : ¬Move.Refused ⟨none, some e⟩ w' := fun hc => by
    have h2 : Cut e w'.startDate := hc.2
    rw [hstart, cut_iff he hs] at h2
    omega
  obtain ⟨w'', h'⟩ := perform_dates pg now' (m := ⟨none, some e⟩) hid hw' (by simp)
    (by simp) (by simpa using he) hr'
  refine ⟨w', w'', h'.updated.id.trans h'.week_id, h'.newStart.trans hstart, h'.newEnd, ?_⟩
  have hd : (perform (handlePatchWeek pg now id (.ok (Move.patch ⟨some s, none⟩))) d).2 =
      setWeek (pack d id s) w' := by
    have hshift := Move.shifted_of_ne (m := ⟨some s, none⟩) (w := w) hne d
    rw [h.week_id] at hshift
    rw [h.result, Move.resized, show Move.newEnd ⟨some s, none⟩ w = Move.curEnd ⟨some s, none⟩ w
      from rfl, Move.resize_self, hshift]
    rfl
  have hcur' : Move.curEnd ⟨none, some e⟩ w' = slid w s := (if_neg (by simp)).trans hend
  rw [oneByOne, h'.result, hd, Move.resized, Move.shifted_of_eq (m := ⟨none, some e⟩) rfl, hcur',
    h'.week_id]
  rfl

lemma samePlan_iff {now now1 now2 s e : ℤ} (hid : 1 ≤ id) (hw : d.weeks.find? id = some w)
    (hs : FourDigit s) (he : FourDigit e) (hne : s ≠ w.startDate) (hse : s ≤ e) :
    SamePlan id (together pg now id s e d) (oneByOne pg now1 now2 id s e d) ↔
      SameResize w (dinnersOf d id).length s e := by
  obtain ⟨w1, hi1, hs1, he1, h1⟩ := together_eq pg now hid hw hs he hne hse
  obtain ⟨w', w2, hi2, hs2, he2, h2⟩ :=
    oneByOne_eq pg now1 now2 hid hw hs he hne hse
  have hdates (D : Db) (v : Week) (hv : v.id = id) :
      datesOf (setWeek D v) id = some (v.startDate, v.endDate) := by
    rw [datesOf, findWeek_setWeek, if_pos hv.symm]
    rfl
  have hc (D : Db) (v : Week) : contentOf (setWeek D v) id = contentOf D id := rfl
  have hstep : contentOf (Move.resize (setWeek (pack d id s) w') id e (slid w s)) id =
      contentOf (Move.resize (pack d id s) id e (slid w s)) id := by
    rw [contentOf_resize, contentOf_resize, hc]
  rw [SamePlan, h1, h2, hdates _ w1 hi1, hdates _ w2 hi2, hs1, he1, hs2, he2, hc, hc, hstep,
    resize_agree_iff (by rw [slid]; omega) hse]
  simp [SameResize]

/-! ### A complete plan -/

lemma daysOf_resize (d : Db) (id e cur : ℤ) : daysOf (Move.resize d id e cur) id =
    if Cut e cur then (daysOf d id).filter (· ≤ e)
    else daysOf d id + (span (cur + 1) e : List ℤ) := by
  have hfilter (t : Multiset (ℤ × Option ℤ × ℤ × String × String)) :
      (t.filter (·.1 ≤ e)).map Prod.fst = (t.map Prod.fst).filter (· ≤ e) := by
    rw [Multiset.filter_map]
    rfl
  rw [← contentOf_days, contentOf_resize, ← contentOf_days]
  split_ifs
  · exact hfilter _
  · rw [Multiset.map_add, emptyContents, Multiset.map_coe, List.map_map]
    congr 2
    exact List.map_id _

lemma complete_together_iff {now s e : ℤ} (hid : 1 ≤ id) (hw : d.weeks.find? id = some w)
    (hs : FourDigit s) (he : FourDigit e) (hne : s ≠ w.startDate) (hse : s ≤ e)
    (hc : CompletePlan d id) :
    CompletePlan (together pg now id s e d) id ↔ RoomForAll w s e := by
  obtain ⟨w1, hi1, hs1, he1, h1⟩ := together_eq pg now hid hw hs he hne hse
  have hcard := ((completePlan_iff hw).mp hc).card
  have hwid : w.id = id := (Table.find?_eq_some.mp hw).2
  rw [planOf_days, hwid] at hcard
  have hpack : daysOf (pack d id s) id = (span s (slid w s) : List ℤ) := by
    rw [daysOf_pack]
    congr 2
    have : (planOf d w).finish - (planOf d w).start = w.endDate - w.startDate := rfl
    rw [slid]
    omega
  have hfind : (together pg now id s e d).weeks.find? id = some w1 := by
    rw [h1, findWeek_setWeek, if_pos hi1.symm]
  have hplan : planOf (together pg now id s e d) w1 =
      ⟨s, e, daysOf (Move.resize (pack d id s) id e w.endDate) id⟩ := by
    rw [h1, planOf, hs1, he1, hi1]
    rfl
  rw [completePlan_iff hfind, hplan, Planning.Plan.Complete]
  simp only [hse, true_and]
  rw [daysOf_resize, hpack, RoomForAll]
  have hslid : slid w s ≠ w.endDate := by rw [slid]; omega
  have hlong : w.startDate ≤ w.endDate := by
    obtain ⟨v, hv, h, -⟩ := hc
    rw [hw, Option.some.injEq] at hv
    exact hv ▸ h
  by_cases hcut : Cut e w.endDate
  · rw [if_pos hcut, Multiset.filter_coe]
    simp only [hcut, true_or, and_true]
    constructor
    · intro h
      have hmem : e ∈ ((span s e : List ℤ) : Multiset ℤ) := mem_span.mpr ⟨hse, le_refl e⟩
      rw [← h, Multiset.mem_coe, List.mem_filter, mem_span] at hmem
      exact hmem.1.2
    · intro h
      refine Multiset.coe_eq_coe.mpr ((List.perm_ext_iff_of_nodup ((nodup_span _ _).filter _)
        (nodup_span _ _)).mpr fun x => ?_)
      simp only [List.mem_filter, mem_span, decide_eq_true_eq]
      omega
  · rw [if_neg hcut]
    simp only [hcut, false_or]
    constructor
    · intro h
      have hlen := congrArg Multiset.card h
      rw [Multiset.card_add, Multiset.coe_card, Multiset.coe_card, Multiset.coe_card, length_span,
        length_span, length_span] at hlen
      rw [slid] at hlen hslid ⊢
      omega
    · rintro ⟨-, h1, h2⟩
      rw [span_eq_nil (a := w.endDate + 1) (by omega), ← h1]
      simp

/-- **Both dates at once**: the one request and the two leave the same plan, and a complete plan
complete, exactly when the stored end and the slid end lead to the same resize and, for a
complete plan, the new end lies within the slid period and cuts the stored one. -/
theorem both_dates_iff (pg : Pg) (now now1 now2 id s e : ℤ) (d : Db) (w : Week) (hid : 1 ≤ id)
    (hw : d.weeks.find? id = some w) (hs : FourDigit s) (he : FourDigit e)
    (hne : s ≠ w.startDate) (hse : s ≤ e) :
    (SamePlan id (together pg now id s e d) (oneByOne pg now1 now2 id s e d) ∧
        (CompletePlan d id → CompletePlan (together pg now id s e d) id)) ↔
      SameResize w (dinnersOf d id).length s e ∧ (CompletePlan d id → RoomForAll w s e) :=
  and_congr (samePlan_iff hid hw hs he hne hse)
    (forall_congr' fun hc => complete_together_iff hid hw hs he hne hse hc)

/-- A plan moved to start a day earlier and to end on that day. -/
theorem both_dates_iff_threeDays :
    (SamePlan 1 (together Pg.plain 5 1 739724 739724 (threeDays .draft))
        (oneByOne Pg.plain 5 6 1 739724 739724 (threeDays .draft)) ∧
      (CompletePlan (threeDays .draft) 1 →
        CompletePlan (together Pg.plain 5 1 739724 739724 (threeDays .draft)) 1)) ↔
      SameResize (threeDaysWeek .draft) (dinnersOf (threeDays .draft) 1).length 739724 739724 ∧
        (CompletePlan (threeDays .draft) 1 → RoomForAll (threeDaysWeek .draft) 739724 739724) :=
  both_dates_iff Pg.plain 5 5 6 1 739724 739724 (threeDays .draft) (threeDaysWeek .draft)
    (by decide) (by decide) (by decide) (by decide) (by decide) (by decide)

/-- Moved by a week with both dates, a plan of three dinners is left with ten. -/
theorem not_both_dates : ¬∀ (d : Db) (w : Week) (s e : ℤ), d.weeks.find? 1 = some w →
    w.startDate ≤ w.endDate → FourDigit s → FourDigit e → s ≠ w.startDate → s ≤ e →
    SamePlan 1 (together Pg.plain 5 1 s e d) (oneByOne Pg.plain 5 6 1 s e d) := by
  intro h
  have := h (threeDays .draft) (threeDaysWeek .draft) 739732 739734 (by decide) (by decide)
    (by decide) (by decide) (by decide) (by decide)
  revert this
  decide

end Veckomenyn.BothDates
