import Veckomenyn.Completeness

/-!
A patch of a plan past its draft.

The agent's tools refuse to change the menu of a plan whose cart is built. The patch does
not ask for the status at all: what it does to the dinners is decided by the dates, so it
leaves them alone exactly when the dates it carries move nothing.
-/

namespace Veckomenyn.LockedPatch

open Rows DateText Schema Sql Store Weeks Txn Dinners PatchSpec Completeness

/-- Which dinners a plan has, and on which days. -/
def placesOf (d : Db) (id : ℤ) : Multiset (ℤ × ℤ) :=
  ((dinnersOf d id).map fun r => (r.id, r.dayDate) : List _)

/-- No dinner of the plan is inserted, deleted or moved to another day. -/
def KeepsDinners (id : ℤ) (d d' : Db) : Prop := placesOf d' id = placesOf d id

instance (id : ℤ) (d d' : Db) : Decidable (KeepsDinners id d d') := by
  unfold KeepsDinners; infer_instance

/-- Every dinner lies where packing from the new start puts it, and no dinner lies after the new
end nor is a day to be filled up to it. -/
structure MovesNothing (d : Db) (m : Move) (w : Week) : Prop where
  packed : m.newStart w ≠ w.startDate →
    ∀ r n, (r, n) ∈ ranked Before (dinnersOf d w.id) → r.dayDate = m.newStart w + (n : ℕ)
  cut : Cut (m.newEnd w) (m.curEnd w) → ∀ r ∈ dinnersOf d w.id, r.dayDate ≤ m.newEnd w
  extended : ¬Cut (m.newEnd w) (m.curEnd w) → m.newEnd w ≤ m.curEnd w

variable {pg : Pg} {d : Db} {id : ℤ} {w : Week} {m : Move}

lemma mem_placesOf {d : Db} {id : ℤ} {x : ℤ × ℤ} :
    x ∈ placesOf d id ↔ ∃ r ∈ dinnersOf d id, (r.id, r.dayDate) = x := by
  simp [placesOf]

lemma placesOf_pack (d : Db) (id s : ℤ) : placesOf (pack d id s) id =
    ((ranked Before (dinnersOf d id)).map fun x => (x.1.id, s + (x.2 : ℤ)) : List _) := by
  refine Multiset.coe_eq_coe.mpr (((dinnersOf_pack d id s).map _).trans ?_)
  rw [packed, List.map_map]
  exact List.Perm.refl _

/-- A plan is packed from `s` when packing it from there moves nothing. -/
lemma placesOf_pack_eq_iff {s : ℤ} : placesOf (pack d id s) id = placesOf d id ↔
    ∀ r n, (r, n) ∈ ranked Before (dinnersOf d id) → r.dayDate = s + (n : ℕ) := by
  have hback : placesOf d id =
      ((ranked Before (dinnersOf d id)).map fun x => (x.1.id, x.1.dayDate) : List _) := by
    refine Multiset.coe_eq_coe.mpr ?_
    have h := (ranked_fst Before (dinnersOf d id)).map fun r : Dinner => (r.id, r.dayDate)
    rw [List.map_map] at h
    exact h.symm
  constructor
  · -- the identity of a row tells which of the packed places is its own
    intro h r n hr
    have hrow : r ∈ dinnersOf d id := mem_of_mem_ranked Before hr
    have hmem : (r.id, s + (n : ℤ)) ∈ placesOf d id := by
      rw [← h, placesOf_pack]
      exact List.mem_map_of_mem (f := fun x : Dinner × ℕ => (x.1.id, s + (x.2 : ℤ))) hr
    obtain ⟨y, hy, hxy⟩ := mem_placesOf.mp hmem
    rw [Prod.mk.injEq] at hxy
    have hyr : y = r := d.dinners.key_inj (mem_dinnersOf.mp hy).1 (mem_dinnersOf.mp hrow).1 hxy.1
    rw [← hxy.2, hyr]
  · intro h
    rw [placesOf_pack, hback]
    refine congrArg _ (List.map_congr_left fun x hx => ?_)
    rw [h x.1 x.2 hx]

lemma placesOf_cut (d : Db) (id e : ℤ) :
    placesOf (cutDinners d id e) id = (placesOf d id).filter (·.2 ≤ e) := by
  rw [placesOf, Multiset.coe_eq_coe.mpr ((dinnersOf_cut d id e).map _), placesOf,
    Multiset.filter_coe, List.filter_map]
  rfl

lemma placesOf_addSlots (d : Db) (id : ℤ) (days : List ℤ) : placesOf (addSlots d id days) id =
    placesOf d id + ((emptySlots d id days).map fun r => (r.id, r.dayDate) : List _) := by
  rw [placesOf, Multiset.coe_eq_coe.mpr ((dinnersOf_addSlots d id days).map _), List.map_append,
    ← Multiset.coe_add]
  rfl

lemma emptySlots_eq_nil {days : List ℤ} : emptySlots d id days = [] ↔ days = [] := by
  have h := congrArg List.length (emptySlots_map d id days (fun _ => ()) (fun _ => ()) fun _ _ => rfl)
  rw [List.length_map, List.length_map] at h
  rw [← List.length_eq_zero_iff, ← List.length_eq_zero_iff, h]

lemma placesOf_resize (D : Db) (id e cur : ℤ) : placesOf (Move.resize D id e cur) id =
    if Cut e cur then (placesOf D id).filter (·.2 ≤ e)
    else placesOf D id +
      ((emptySlots D id (span (cur + 1) e)).map fun r => (r.id, r.dayDate) : List _) := by
  rw [Move.resize]
  by_cases he : e = cur
  · rw [if_pos he, if_neg (he ▸ cut_irrefl e), span_eq_nil (by omega), emptySlots_eq_nil.mpr rfl]
    simp
  · rw [if_neg he]
    split_ifs
    · exact placesOf_cut D id e
    · exact placesOf_addSlots D id _

/-- Counting rows: a resize can only give the old places back by leaving them alone. -/
lemma placesOf_resize_eq_iff {D : Db} {e cur : ℤ}
    (hcard : (placesOf D id).card = (placesOf d id).card) :
    placesOf (Move.resize D id e cur) id = placesOf d id ↔ placesOf D id = placesOf d id ∧
      (Cut e cur → ∀ x ∈ placesOf d id, x.2 ≤ e) ∧ (¬Cut e cur → e ≤ cur) := by
  rw [placesOf_resize]
  by_cases hc : Cut e cur
  · simp only [hc, if_true, not_true, false_imp_iff, and_true, true_imp_iff]
    constructor
    · intro h
      have hle : (placesOf D id).card ≤ ((placesOf D id).filter (·.2 ≤ e)).card := by
        rw [h, hcard]
      have heq := Multiset.eq_of_le_of_card_le (Multiset.filter_le _ (placesOf D id)) hle
      rw [heq] at h
      exact ⟨h, h ▸ Multiset.filter_eq_self.mp heq⟩
    · rintro ⟨h, hle⟩
      rw [h, Multiset.filter_eq_self.mpr hle]
  · simp only [hc, if_false, false_imp_iff, true_and, not_false_iff, true_imp_iff]
    constructor
    · intro h
      have hlen := congrArg Multiset.card h
      rw [Multiset.card_add, hcard, Multiset.coe_card, List.length_map] at hlen
      have hnil : emptySlots D id (span (cur + 1) e) = [] :=
        List.length_eq_zero_iff.mp (by omega)
      rw [hnil] at h
      have hspan := congrArg List.length (emptySlots_eq_nil.mp hnil)
      rw [length_span, List.length_nil] at hspan
      exact ⟨by simpa using h, by omega⟩
    · rintro ⟨h, hle⟩
      rw [span_eq_nil (by omega), emptySlots_eq_nil.mpr rfl, h]
      simp

lemma placesOf_resized_iff (hid : w.id = id) :
    placesOf (m.resized w d) id = placesOf d id ↔ MovesNothing d m w := by
  subst hid
  have hcard : (placesOf (m.shifted w d) w.id).card = (placesOf d w.id).card := by
    rw [Move.shifted]
    split_ifs
    · rfl
    · rw [placesOf_pack]
      simp [placesOf, ranked, List.length_zipIdx]
  have hshift : placesOf (m.shifted w d) w.id = placesOf d w.id ↔ (m.newStart w ≠ w.startDate →
      ∀ r n, (r, n) ∈ ranked Before (dinnersOf d w.id) → r.dayDate = m.newStart w + (n : ℕ)) := by
    rw [Move.shifted]
    split_ifs with hn
    · simp [hn]
    · rw [placesOf_pack_eq_iff]
      simp [hn]
  have hrows (e : ℤ) : (∀ x ∈ placesOf d w.id, x.2 ≤ e) ↔ ∀ r ∈ dinnersOf d w.id, r.dayDate ≤ e := by
    simp only [mem_placesOf]
    refine ⟨fun h r hr => h _ ⟨r, hr, rfl⟩, ?_⟩
    rintro h - ⟨r, hr, rfl⟩
    exact h r hr
  rw [Move.resized, placesOf_resize_eq_iff hcard, hshift, hrows]
  constructor
  · rintro ⟨h1, h2, h3⟩
    exact ⟨h1, h2, h3⟩
  · rintro ⟨h1, h2, h3⟩
    exact ⟨h1, h2, h3⟩

/-- **A patch keeps the dinners** of a plan exactly when it is refused or its dates move nothing;
the status of the plan plays no part. -/
theorem patch_keeps_dinners_iff (pg : Pg) (now id : ℤ) (p : WeekPatch) (d : Db) :
    KeepsDinners id d (perform (handlePatchWeek pg now id (.ok p)) d).2 ↔
      ∀ m w, d.weeks.find? id = some w → Accepted pg now id p m w → MovesNothing d m w := by
  have key {m : Move} {w w' : Week}
      (h : Patched pg now id p m w w' d (perform (handlePatchWeek pg now id (.ok p)) d).2) :
      KeepsDinners id d (perform (handlePatchWeek pg now id (.ok p)) d).2 ↔ MovesNothing d m w := by
    rw [← placesOf_resized_iff h.week_id, KeepsDinners, h.result]
    rfl
  constructor
  · intro hk m w hw hacc
    obtain ⟨w', h⟩ := perform_accepted hw hacc
    exact (key h).mp hk
  · intro hall
    rcases perform_patch pg now id (.ok p) d with h | ⟨q, m, w, w', hq, hacc, h⟩
    · rw [KeepsDinners, placesOf, h.dinnersOf]
      rfl
    · cases hq
      exact (key h).mpr (hall m w h.found hacc)

/-- Ending a placed order's plan a day earlier deletes the dinner of its last day. -/
theorem not_keeps_dinners : ¬∀ (d : Db) (w : Week) (p : WeekPatch), d.weeks.find? 1 = some w →
    w.status ≠ .draft → p.status ≠ some "draft" →
    KeepsDinners 1 d (perform (handlePatchWeek Pg.plain 5 1 (.ok p)) d).2 := by
  intro h
  have := h (threeDays .ordered) (threeDaysWeek .ordered)
    ⟨none, none, some "2026-04-21", none, none, none, none⟩ (by decide) (by decide) (by decide)
  revert this
  decide

end Veckomenyn.LockedPatch
