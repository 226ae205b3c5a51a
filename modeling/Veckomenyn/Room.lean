import Veckomenyn.CloneRows

/-!
Whether the dinners of a plan stay within its period.

A moved start and a clone pack the dinners one a day, while the period keeps the length it had.
Several dinners of one day then take days of their own, and there may be too few.
-/

namespace Veckomenyn.Room

open Rows DateText Schema Sql Store Weeks Txn Dinners PatchSpec CloneSpec Completeness Planning
  Shift CloneRows

/-! ### Periods with room -/

/-- All dinners lie on days of the period. -/
def Inside (p : Plan) : Prop := ∀ x ∈ p.days, p.start ≤ x ∧ x ≤ p.finish

/-- There are no more dinners than days. -/
def Fits (p : Plan) : Prop := (p.days.card : ℤ) ≤ p.finish - p.start + 1

instance (p : Plan) : Decidable (Fits p) := by unfold Fits; infer_instance

/-- Days in a row from the start of a period end within it when they are not too many. -/
lemma forall_span_iff {s e : ℤ} (n : ℕ) (hse : s ≤ e) :
    (∀ x ∈ span s (s + n - 1), s ≤ x ∧ x ≤ e) ↔ (n : ℤ) ≤ e - s + 1 := by
  simp only [mem_span]
  constructor
  · intro h
    by_contra hlt
    have := h (s + n - 1) (by omega)
    omega
  · intro h x hx
    omega

lemma inside_moveTo {p : Plan} (s : ℤ) (hp : p.start ≤ p.finish) :
    Inside (p.moveTo s) ↔ Fits p := by
  have h := forall_span_iff (s := s) (e := p.finish + (s - p.start)) p.days.card (by omega)
  rw [Fits, show p.finish - p.start + 1 = p.finish + (s - p.start) - s + 1 by ring, ← h]
  rfl

/-- The padding is inside by itself. -/
lemma inside_pad {p : Plan} : Inside p.pad ↔ Inside p := by
  have hpad (x : ℤ) : x ∈ p.pad.days ↔ x ∈ p.days ∨
      (p.start ≤ x ∧ x ≤ p.finish) ∧ x ∉ p.days := by
    simp [Plan.pad, mem_span]
  constructor
  · intro h x hx
    exact h x ((hpad x).mpr (Or.inl hx))
  · intro h x hx
    rcases (hpad x).mp hx with hx | ⟨hx, -⟩
    · exact h x hx
    · exact hx

/-! ### The plan of a database -/

/-- The dinners of the plan `id` lie within its period. -/
def Within (d : Db) (id : ℤ) : Prop :=
  ∀ w, d.weeks.find? id = some w →
    ∀ r ∈ dinnersOf d id, w.startDate ≤ r.dayDate ∧ r.dayDate ≤ w.endDate

variable {pg : Pg} {d d' : Db} {now id k : ℤ} {t : String} {w : Week}

lemma within_iff_inside (hw : d.weeks.find? id = some w) : Within d id ↔ Inside (planOf d w) := by
  have hid : w.id = id := (Table.find?_eq_some.mp hw).2
  have hdays (x : ℤ) : x ∈ (planOf d w).days ↔ ∃ r ∈ dinnersOf d id, r.dayDate = x := by
    rw [planOf, hid, Multiset.mem_coe, List.mem_map]
  constructor
  · intro h x hx
    obtain ⟨r, hr, rfl⟩ := (hdays x).mp hx
    exact h w hw r hr
  · intro h v hv r hr
    obtain rfl : v = w := Option.some.inj (hv.symm.trans hw)
    exact h r.dayDate ((hdays _).mpr ⟨r, hr, rfl⟩)

/-- A request with the stored start leaves the plan where it is. -/
lemma planOf_same_start (hw : d.weeks.find? id = some w)
    (h : Committed pg now id (startOnly (text w.startDate)) d d') :
    ∃ w', d'.weeks.find? id = some w' ∧ planOf d' w' = planOf d w := by
  obtain ⟨m, v, w', hp⟩ := h.patched
  obtain rfl : v = w := Option.some.inj (hp.found.symm.trans hw)
  obtain ⟨hs, he⟩ := hp.carries
  have hfinish : m.finish = none := by
    cases hf : m.finish with
    | none => rfl
    | some e =>
      rw [hf] at he
      cases he
  have hstart : m.newStart v = v.startDate := by
    cases ho : m.start with
    | none => rw [Move.newStart, ho, Option.getD_none]
    | some s =>
      rw [ho] at hs
      rw [Move.newStart, ho, Option.getD_some]
      exact (text_inj.mp (Option.some.inj hs)).symm
  have hcur : m.curEnd v = v.endDate := if_neg fun hn => hn.1 hstart
  have hend : m.newEnd v = v.endDate := by rw [Move.newEnd, hfinish, Option.getD_none, hcur]
  refine ⟨w', (findWeek_patched hp id).trans (if_pos rfl), ?_⟩
  rw [planOf_patched hp, hstart, hend, Move.resized, hend, hcur, Move.resize_self,
    Move.shifted_of_eq hstart]
  rfl

lemma planOf_moved (now s : ℤ) (hw : d.weeks.find? id = some w) :
    planOf (setWeek (pack d id s) (moved now s w)) (moved now s w) = (planOf d w).moveTo s := by
  have hid : w.id = id := (Table.find?_eq_some.mp hw).2
  have hdays : daysOf (setWeek (pack d id s) (moved now s w)) id =
      (span s (s + (daysOf d id).card - 1) : List ℤ) := daysOf_pack d id s
  rw [planOf, Plan.moveTo, planOf_days, hid, ← hdays]
  exact congrArg (Plan.mk _ _ <| daysOf _ ·) hid

/-- A moved plan has room when it fits. -/
lemma within_shifted (hw : d.weeks.find? id = some w) (ho : w.startDate ≤ w.endDate)
    (ht : t ≠ text w.startDate) (h : Committed pg now id (startOnly t) d d') :
    Within d' id ↔ Fits (planOf d w) := by
  obtain ⟨s, -, rfl⟩ := start_result hw ht h
  rw [within_iff_inside (find_moved _ hw), planOf_moved now s hw]
  exact inside_moveTo s ho

lemma within_cloned {startDate : String} (hf : ForeignKeys d) (hw : d.weeks.find? id = some w)
    (ho : w.startDate ≤ w.endDate) (h : CloneCommitted pg now id startDate d d' k) :
    Within d' k ↔ Fits (planOf d w) := by
  obtain ⟨src, w', rfl, hc⟩ := h.cloned
  obtain rfl : src = w := Option.some.inj (hc.found.symm.trans hw)
  have hid : src.id = id := (Table.find?_eq_some.mp hw).2
  have hw' : d'.weeks.find? w'.id = some w' := (findWeek_cloned hc w'.id).trans (if_pos rfl)
  have hend := hc.endDate
  have hlen : w'.endDate - w'.startDate = src.endDate - src.startDate := by omega
  have hle : w'.startDate ≤ w'.endDate := by omega
  rw [within_iff_inside hw', planOf_cloned hf hc, inside_pad]
  refine (forall_span_iff (daysOf d id).card hle).trans ?_
  rw [hlen, Fits, planOf_days, hid]
  rfl

/-- **Room**: of a plan whose dinners lie within its period, a start on its own leaves them within
the new one exactly when it is the stored start or there are no more dinners than days; a clone
has its dinners within its period exactly when there are no more than days. -/
theorem inside_kept_iff (pg : Pg) (id : ℤ) (d : Db) (w : Week) (hw : d.weeks.find? id = some w)
    (ho : w.startDate ≤ w.endDate) (hd : Within d id) (hf : ForeignKeys d) :
    (∀ now t d', Committed pg now id (startOnly t) d d' →
      (Within d' id ↔ t = text w.startDate ∨ Fits (planOf d w))) ∧
    ∀ now startDate d' k, CloneCommitted pg now id startDate d d' k →
      (Within d' k ↔ Fits (planOf d w)) := by
  refine ⟨fun now t d' h => ?_, fun now startDate d' k h => within_cloned hf hw ho h⟩
  by_cases ht : t = text w.startDate
  · subst ht
    obtain ⟨w', hw', hplan⟩ := planOf_same_start hw h
    have hin : Inside (planOf d w) := (within_iff_inside hw).mp hd
    rw [within_iff_inside hw', hplan]
    exact ⟨fun _ => Or.inl rfl, fun _ => hin⟩
  · rw [within_shifted hw ho ht h]
    exact ⟨Or.inr, fun h => h.resolve_left ht⟩

/-- Three dinners in three days, moved by a week and cloned. -/
theorem inside_kept_threeDays :
    (∃ d', Committed Pg.plain 5 1 (startOnly "2026-04-27") (threeDays .draft) d' ∧
      (Within d' 1 ↔ "2026-04-27" = text 739725 ∨
        Fits (planOf (threeDays .draft) (threeDaysWeek .draft)))) ∧
    ∃ d' k, CloneCommitted Pg.plain 5 1 "" (threeDays .draft) d' k ∧
      (Within d' k ↔ Fits (planOf (threeDays .draft) (threeDaysWeek .draft))) := by
  have hw : (threeDays .draft).weeks.find? 1 = some (threeDaysWeek .draft) := by decide
  have hin : Within (threeDays .draft) 1 := by
    intro w hfind
    obtain rfl : threeDaysWeek .draft = w := Option.some.inj (hw.symm.trans hfind)
    decide
  obtain ⟨hshift, hclone⟩ := inside_kept_iff Pg.plain 1 (threeDays .draft) (threeDaysWeek .draft) hw
    (by decide) hin (foreignKeys_threeDays .draft)
  obtain ⟨d', h⟩ := start_commits Pg.plain 5 (s := 739732) (by decide) hw (by decide)
  obtain ⟨d'', k, h'⟩ := clone_commits Pg.plain 5 "" (by decide) hw (Or.inl rfl)
  exact ⟨⟨d', h, hshift 5 _ d' h⟩, d'', k, h', hclone 5 "" d'' k h'⟩

/-! ### Two dinners on one day -/

def crowdedWeek : Week := { threeDaysWeek .draft with endDate := 739726 }

/-- A plan of two days, with two dinners on the second. -/
def crowded : Db :=
  { threeDays .draft with
    weeks := ⟨[crowdedWeek], 2, List.nodup_singleton _, fun r hr => by
      rw [List.mem_singleton.mp hr]
      exact Int.lt_succ 1⟩
    dinners := ⟨[⟨1, 1, 739725, none, 4, "\x7b\x7d", "", 0⟩,
      ⟨2, 1, 739726, none, 4, "\x7b\x7d", "", 0⟩, ⟨3, 1, 739726, none, 4, "\x7b\x7d", "", 1⟩], 4,
      by decide, by decide⟩ }

lemma foreignKeys_crowded : ForeignKeys crowded := by
  constructor <;> simp [crowded, crowdedWeek, threeDays, threeDaysWeek, Table.empty, Table.Has]

lemma within_crowded : Within crowded 1 := by
  have hw : crowded.weeks.find? 1 = some crowdedWeek := by decide
  intro w hfind
  obtain rfl : crowdedWeek = w := Option.some.inj (hw.symm.trans hfind)
  decide

/-- Moved or cloned, that plan has a dinner on the day after its end. -/
theorem not_within :
    (¬∀ (d : Db) (w : Week), d.weeks.find? 1 = some w → w.startDate ≤ w.endDate → Within d 1 →
      ∀ now t d', Committed Pg.plain now 1 (startOnly t) d d' → Within d' 1) ∧
    ¬∀ (d : Db) (w : Week), d.weeks.find? 1 = some w → w.startDate ≤ w.endDate → Within d 1 →
      ∀ now startDate d' k, CloneCommitted Pg.plain now 1 startDate d d' k → Within d' k := by
  have hw : crowded.weeks.find? 1 = some crowdedWeek := by decide
  have hfull : ¬Fits (planOf crowded crowdedWeek) := by decide
  constructor
  · intro h
    obtain ⟨d', hc⟩ := start_commits Pg.plain 5 (s := 739732) (by decide) hw (by decide)
    have hin := h crowded crowdedWeek hw (by decide) within_crowded 5 _ d' hc
    exact hfull ((within_shifted hw (by decide) (by decide) hc).mp hin)
  · intro h
    obtain ⟨d', k, hc⟩ := clone_commits Pg.plain 5 "" (by decide) hw (Or.inl rfl)
    have hin := h crowded crowdedWeek hw (by decide) within_crowded 5 "" d' k hc
    exact hfull ((within_cloned foreignKeys_crowded hw (by decide) hc).mp hin)

end Veckomenyn.Room
