import Veckomenyn.Weeks
import Veckomenyn.Planning

/-!
What the statements of the plan endpoints do to the dinners of a plan.

Three changes cover them all: storing a list of rows, packing included, deleting the rows
after a day, and storing the row of a plan. For each of them this file says which dinners
the plan has afterwards and that the other plans keep theirs.
-/

namespace Veckomenyn.Dinners

open Rows DateText Schema Sql Weeks Txn Planning

def storeDinners (d : Db) (l : List Dinner) : Db :=
  { d with dinners := d.dinners.applyAll (l.map .put) }

def cutDinners (d : Db) (id e : ℤ) : Db := applyAll d (deleteDinners d (dinnersAfter d id e))

def setWeek (d : Db) (w : Week) : Db := { d with weeks := d.weeks.put w }

def pack (d : Db) (id s : ℤ) : Db := storeDinners d (packed s (dinnersOf d id))

def addSlots (d : Db) (id : ℤ) (days : List ℤ) : Db := storeDinners d (emptySlots d id days)

/-- The plan of a row of `weeks`. -/
def planOf (d : Db) (w : Week) : Plan :=
  ⟨w.startDate, w.endDate, ((dinnersOf d w.id).map Dinner.dayDate : List ℤ)⟩

lemma deleteDinners_apply (d : Db) (ks : List ℤ) : applyAll d (deleteDinners d ks) =
    { d with dinners := d.dinners.applyAll (ks.map .del),
             ratings := d.ratings.applyAll ((ratingsOf d ks).map .del) } := by
  rw [deleteDinners, applyAll_append, applyAll_dinners, applyAll_ratings]

@[simp] lemma storeDinners_weeks (d : Db) (l : List Dinner) : (storeDinners d l).weeks = d.weeks :=
  rfl
@[simp] lemma pack_weeks (d : Db) (id s : ℤ) : (pack d id s).weeks = d.weeks := rfl
@[simp] lemma addSlots_weeks (d : Db) (id : ℤ) (l : List ℤ) : (addSlots d id l).weeks = d.weeks :=
  rfl
@[simp] lemma cutDinners_weeks (d : Db) (id e : ℤ) : (cutDinners d id e).weeks = d.weeks := by
  rw [cutDinners, deleteDinners_apply]
@[simp] lemma setWeek_dinners (d : Db) (w : Week) : (setWeek d w).dinners = d.dinners := rfl
@[simp] lemma dinnersOf_setWeek (d : Db) (w : Week) (id : ℤ) :
    dinnersOf (setWeek d w) id = dinnersOf d id := rfl

/-! ### Packed rows -/

lemma mem_packed {s : ℤ} {l : List Dinner} {x : Dinner} : x ∈ packed s l ↔
    ∃ r n, (r, n) ∈ ranked Before l ∧ x = { r with dayDate := s + (n : ℕ) } := by
  simp only [packed, List.mem_map, Prod.exists, eq_comm]

/-- Packing keeps every column but the day. -/
lemma packed_map {β : Type} (s : ℤ) (l : List Dinner) (f : Dinner → β)
    (hf : ∀ r day, f { r with dayDate := day } = f r) : ((packed s l).map f).Perm (l.map f) := by
  have h : (packed s l).map f = ((ranked Before l).map Prod.fst).map f := by
    rw [packed, List.map_map, List.map_map]
    exact List.map_congr_left fun x _ => hf _ _
  rw [h]
  exact (ranked_fst Before l).map f

lemma packed_ids (s : ℤ) (l : List Dinner) : ((packed s l).map Dinner.id).Perm (l.map Dinner.id) :=
  packed_map s l _ fun _ _ => rfl

lemma packed_days (s : ℤ) (l : List Dinner) :
    (packed s l).map Dinner.dayDate = span s (s + l.length - 1) := by
  have h : (packed s l).map Dinner.dayDate =
      ((ranked Before l).map Prod.snd).map fun (n : ℕ) => s + (n : ℤ) := by
    rw [packed, List.map_map, List.map_map]
    rfl
  rw [h, ranked_snd, map_range]

lemma weekId_of_mem_packed {s id : ℤ} {d : Db} {x : Dinner} (h : x ∈ packed s (dinnersOf d id)) :
    x.weekId = id := by
  obtain ⟨r, n, hr, rfl⟩ := mem_packed.mp h
  exact (mem_dinnersOf.mp (mem_of_mem_ranked Before hr)).2

/-! ### Empty slots -/

lemma emptySlots_id {id : ℤ} {days : List ℤ} :
    ∀ f ∈ days.map (emptySlot id), ∀ k, Keyed.key (f k) = k := by
  simp [emptySlot]

lemma emptySlots_map {β : Type} (d : Db) (id : ℤ) (days : List ℤ) (f : Dinner → β) (g : ℤ → β)
    (h : ∀ day k, f (emptySlot id day k) = g day) :
    (emptySlots d id days).map f = days.map g :=
  Table.numbered_map _ _ _ _ _ h

lemma weekId_of_mem_slots {d : Db} {id : ℤ} {days : List ℤ} {x : Dinner}
    (h : x ∈ emptySlots d id days) : x.weekId = id := by
  have hm := emptySlots_map d id days Dinner.weekId (fun _ => id) fun _ _ => rfl
  have := hm ▸ List.mem_map_of_mem (f := Dinner.weekId) h
  simp only [List.mem_map] at this
  obtain ⟨-, -, h⟩ := this
  exact h.symm

/-! ### The dinners afterwards -/

lemma nodup_of_ids {l : List Dinner} (h : (l.map Dinner.id).Nodup) : l.Nodup := h.of_map _

/-- Rows stored for one plan: its old rows but for those replaced, and the new ones. -/
lemma mem_storeDinners {d : Db} {l : List Dinner} {x : Dinner} (hl : (l.map Dinner.id).Nodup) :
    x ∈ (storeDinners d l).dinners.rows ↔ x ∈ l ∨ x ∈ d.dinners.rows ∧ x.id ∉ l.map Dinner.id :=
  Table.mem_applyAll_put hl

lemma mem_pack {d : Db} {id s : ℤ} {x : Dinner} : x ∈ (pack d id s).dinners.rows ↔
    x ∈ packed s (dinnersOf d id) ∨ x ∈ d.dinners.rows ∧ x.weekId ≠ id := by
  rw [pack, mem_storeDinners ((packed_ids s _).nodup_iff.mpr (nodup_dinnersOf d id)),
    (packed_ids s _).mem_iff]
  refine or_congr_right (and_congr_right fun hx => not_congr ?_)
  constructor
  · intro h
    obtain ⟨y, hy, hk⟩ := List.mem_map.mp h
    obtain ⟨hy, hw⟩ := mem_dinnersOf.mp hy
    rwa [← d.dinners.key_inj hy hx hk]
  · exact fun h => List.mem_map_of_mem (mem_dinnersOf.mpr ⟨hx, h⟩)

lemma mem_addSlots {d : Db} {id : ℤ} {days : List ℤ} {x : Dinner} :
    x ∈ (addSlots d id days).dinners.rows ↔ x ∈ emptySlots d id days ∨ x ∈ d.dinners.rows :=
  Table.mem_insert emptySlots_id

lemma mem_cutDinners {d : Db} {id e : ℤ} {x : Dinner} : x ∈ (cutDinners d id e).dinners.rows ↔
    x ∈ d.dinners.rows ∧ (x.weekId = id → x.dayDate ≤ e) := by
  rw [cutDinners, deleteDinners_apply]
  simp only
  rw [Table.mem_applyAll_del]
  refine and_congr_right fun hx => ?_
  simp only [dinnersAfter, List.mem_map, List.mem_filter, mem_dinnersOf, key_dinner]
  constructor
  · intro h hw
    by_contra hlt
    exact h ⟨x, ⟨⟨hx, hw⟩, by simpa using hlt⟩, rfl⟩
  · rintro h ⟨y, ⟨⟨hy, hw⟩, hlt⟩, hk⟩
    obtain rfl := d.dinners.key_inj hy hx hk
    have := h hw
    simp only [decide_eq_true_eq] at hlt
    omega

lemma perm_dinnersOf {d : Db} {id : ℤ} {l : List Dinner} (hl : l.Nodup)
    (h : ∀ x, (x ∈ d.dinners.rows ∧ x.weekId = id) ↔ x ∈ l) : (dinnersOf d id).Perm l :=
  (List.perm_ext_iff_of_nodup (nodup_of_ids (nodup_dinnersOf d id)) hl).mpr fun x => by
    rw [mem_dinnersOf, h]

lemma dinnersOf_pack (d : Db) (id s : ℤ) :
    (dinnersOf (pack d id s) id).Perm (packed s (dinnersOf d id)) := by
  refine perm_dinnersOf
    (nodup_of_ids ((packed_ids s _).nodup_iff.mpr (nodup_dinnersOf d id))) fun x => ?_
  rw [mem_pack]
  constructor
  · rintro ⟨hx | ⟨-, hx⟩, hw⟩
    · exact hx
    · exact absurd hw hx
  · exact fun hx => ⟨Or.inl hx, weekId_of_mem_packed hx⟩

lemma nodup_emptySlots (d : Db) (id : ℤ) (days : List ℤ) :
    ((emptySlots d id days).map Dinner.id).Nodup := Table.nodup_numbered emptySlots_id

lemma dinnersOf_addSlots (d : Db) (id : ℤ) (days : List ℤ) :
    (dinnersOf (addSlots d id days) id).Perm (dinnersOf d id ++ emptySlots d id days) := by
  refine perm_dinnersOf (List.nodup_append.mpr ⟨nodup_of_ids (nodup_dinnersOf d id),
    nodup_of_ids (nodup_emptySlots d id days), ?_⟩) fun x => ?_
  · rintro x hx y hy rfl
    have h1 := d.dinners.fresh x (mem_dinnersOf.mp hx).1
    have h2 := Table.key_numbered emptySlots_id x hy
    exact absurd h1 (not_lt.mpr h2)
  · rw [mem_addSlots, List.mem_append, mem_dinnersOf]
    constructor
    · rintro ⟨hx | hx, hw⟩
      · exact Or.inr hx
      · exact Or.inl ⟨hx, hw⟩
    · rintro (⟨hx, hw⟩ | hx)
      · exact ⟨Or.inr hx, hw⟩
      · exact ⟨Or.inl hx, weekId_of_mem_slots hx⟩

lemma dinnersOf_cut (d : Db) (id e : ℤ) :
    (dinnersOf (cutDinners d id e) id).Perm ((dinnersOf d id).filter fun r => r.dayDate ≤ e) := by
  refine perm_dinnersOf ((nodup_of_ids (nodup_dinnersOf d id)).filter _) fun x => ?_
  rw [mem_cutDinners, List.mem_filter, mem_dinnersOf, decide_eq_true_eq]
  tauto

/-! ### The dinners of the other plans -/

/-- A change that leaves alone the dinners of every plan but `id`. -/
def OnlyDinnersOf (id : ℤ) (d d' : Db) : Prop :=
  ∀ x : Dinner, x.weekId ≠ id → (x ∈ d'.dinners.rows ↔ x ∈ d.dinners.rows)

lemma OnlyDinnersOf.refl (id : ℤ) (d : Db) : OnlyDinnersOf id d d := fun _ _ => Iff.rfl

lemma OnlyDinnersOf.trans {id : ℤ} {a b c : Db} (h : OnlyDinnersOf id a b)
    (h' : OnlyDinnersOf id b c) : OnlyDinnersOf id a c :=
  fun x hx => (h' x hx).trans (h x hx)

lemma onlyDinnersOf_pack (d : Db) (id s : ℤ) : OnlyDinnersOf id d (pack d id s) := by
  intro x hx
  rw [mem_pack]
  exact ⟨fun h => h.elim (fun h => absurd (weekId_of_mem_packed h) hx) And.left,
    fun h => Or.inr ⟨h, hx⟩⟩

lemma onlyDinnersOf_addSlots (d : Db) (id : ℤ) (days : List ℤ) :
    OnlyDinnersOf id d (addSlots d id days) := by
  intro x hx
  rw [mem_addSlots]
  exact ⟨fun h => h.elim (fun h => absurd (weekId_of_mem_slots h) hx) fun h => h, Or.inr⟩

lemma onlyDinnersOf_cut (d : Db) (id e : ℤ) : OnlyDinnersOf id d (cutDinners d id e) := by
  intro x hx
  rw [mem_cutDinners]
  exact ⟨And.left, fun h => ⟨h, fun hw => absurd hw hx⟩⟩

lemma OnlyDinnersOf.dinnersOf {id k : ℤ} {d d' : Db} (h : OnlyDinnersOf id d d') (hk : k ≠ id) :
    (Sql.dinnersOf d' k).Perm (Sql.dinnersOf d k) := by
  refine perm_dinnersOf (nodup_of_ids (nodup_dinnersOf d k)) fun x => ?_
  rw [mem_dinnersOf]
  refine and_congr_left fun hw => h x ?_
  rwa [hw]

/-! ### Foreign keys -/

lemma foreignKeys_setWeek {d : Db} (h : ForeignKeys d) (w : Week) : ForeignKeys (setWeek d w) := by
  have hw (k : ℤ) (hk : d.weeks.Has k) : (setWeek d w).weeks.Has k := Table.has_put.mpr (Or.inr hk)
  exact ⟨fun r hr => hw _ (h.dinnerWeek r hr), h.dinnerDish,
    fun r hr => hw _ (h.exceptionWeek r hr), fun r hr => hw _ (h.retrospectiveWeek r hr),
    h.ratingDinner, fun r hr k hk => hw _ (h.cartItemWeek r hr k hk)⟩

/-- Rows stored for plans and dishes that are there, no dinner lost. -/
lemma foreignKeys_storeDinners {d : Db} (h : ForeignKeys d) {l : List Dinner}
    (hl : (l.map Dinner.id).Nodup) (hw : ∀ r ∈ l, d.weeks.Has r.weekId)
    (hd : ∀ r ∈ l, ∀ k ∈ r.dishId, d.dishes.Has k) : ForeignKeys (storeDinners d l) := by
  have hkeep (k : ℤ) (hk : d.dinners.Has k) : (storeDinners d l).dinners.Has k := by
    obtain ⟨r, hr, rfl⟩ := hk
    by_cases hm : r.id ∈ l.map Dinner.id
    · obtain ⟨x, hx, hid⟩ := List.mem_map.mp hm
      exact ⟨x, (mem_storeDinners hl).mpr (Or.inl hx), hid⟩
    · exact ⟨r, (mem_storeDinners hl).mpr (Or.inr ⟨hr, hm⟩), rfl⟩
  refine ⟨fun r hr => ?_, fun r hr => ?_, h.exceptionWeek, h.retrospectiveWeek,
    fun r hr => hkeep _ (h.ratingDinner r hr), h.cartItemWeek⟩ <;>
  rcases (mem_storeDinners hl).mp hr with hr | ⟨hr, -⟩
  · exact hw r hr
  · exact h.dinnerWeek r hr
  · exact hd r hr
  · exact h.dinnerDish r hr

lemma foreignKeys_pack {d : Db} (h : ForeignKeys d) (id s : ℤ) : ForeignKeys (pack d id s) := by
  refine foreignKeys_storeDinners h ((packed_ids s _).nodup_iff.mpr (nodup_dinnersOf d id)) ?_ ?_ <;>
  · intro r hr
    obtain ⟨x, n, hx, rfl⟩ := mem_packed.mp hr
    have hx := (mem_dinnersOf.mp (mem_of_mem_ranked Before hx)).1
    first
    | exact h.dinnerWeek x hx
    | exact h.dinnerDish x hx

lemma dishId_of_mem_slots {d : Db} {id : ℤ} {days : List ℤ} {x : Dinner}
    (h : x ∈ emptySlots d id days) : x.dishId = none := by
  have hm := emptySlots_map d id days Dinner.dishId (fun _ => none) fun _ _ => rfl
  have := hm ▸ List.mem_map_of_mem (f := Dinner.dishId) h
  simp only [List.mem_map] at this
  obtain ⟨-, -, h⟩ := this
  exact h.symm

lemma foreignKeys_addSlots {d : Db} (h : ForeignKeys d) {id : ℤ} (hid : d.weeks.Has id)
    (days : List ℤ) : ForeignKeys (addSlots d id days) :=
  foreignKeys_storeDinners h (nodup_emptySlots d id days)
    (fun r hr => by rwa [weekId_of_mem_slots hr])
    (fun r hr k hk => by rw [dishId_of_mem_slots hr] at hk; cases hk)

lemma foreignKeys_cut {d : Db} (h : ForeignKeys d) (id e : ℤ) : ForeignKeys (cutDinners d id e) := by
  have hrow (r : Dinner) (hr : r ∈ (cutDinners d id e).dinners.rows) : r ∈ d.dinners.rows :=
    (mem_cutDinners.mp hr).1
  have heq := deleteDinners_apply d (dinnersAfter d id e)
  refine ⟨fun r hr => ?_, fun r hr => ?_, ?_, ?_, fun r hr => ?_, ?_⟩
  · rw [cutDinners_weeks]
    exact h.dinnerWeek r (hrow r hr)
  · rw [cutDinners, heq]
    exact h.dinnerDish r (hrow r hr)
  · rw [cutDinners, heq]
    exact h.exceptionWeek
  · rw [cutDinners, heq]
    exact h.retrospectiveWeek
  · -- a rating that is left is a rating of a dinner that is left
    rw [cutDinners, heq] at hr
    obtain ⟨hr, hk⟩ := Table.mem_applyAll_del.mp hr
    obtain ⟨x, hx, hxk⟩ := h.ratingDinner r hr
    refine ⟨x, ?_, hxk⟩
    rw [cutDinners, heq]
    refine Table.mem_applyAll_del.mpr ⟨hx, fun hgone => hk ?_⟩
    refine List.mem_map_of_mem (List.mem_filter.mpr ⟨hr, ?_⟩)
    rw [decide_eq_true_eq, ← hxk]
    exact hgone
  · rw [cutDinners, heq]
    exact h.cartItemWeek

/-! ### A small database -/

def threeDaysWeek (status : Status) : Week :=
  ⟨1, "2026-W17", 739725, 739727, none, none, status, "", 0⟩

/-- One plan, from 2026-04-20 for three days, with a dinner on each of them. -/
def threeDays (status : Status) : Db where
  weeks := ⟨[threeDaysWeek status], 2, List.nodup_singleton _, fun r hr => by
    rw [List.mem_singleton.mp hr]
    exact Int.lt_succ 1⟩
  dinners := ⟨[⟨1, 1, 739725, none, 4, "\x7b\x7d", "", 0⟩, ⟨2, 1, 739726, none, 4, "\x7b\x7d", "", 0⟩,
    ⟨3, 1, 739727, none, 4, "\x7b\x7d", "", 0⟩], 4, by decide, by decide⟩
  exceptions := Table.empty
  retrospectives := Table.empty
  ratings := Table.empty
  cartItems := Table.empty
  dishes := Table.empty
  principles := Table.empty
  settings := ⟨7, 1, -1, 4, "sv", "anthropic", ""⟩

lemma foreignKeys_threeDays (status : Status) : ForeignKeys (threeDays status) := by
  constructor <;> simp [threeDays, threeDaysWeek, Table.empty, Table.Has]

end Veckomenyn.Dinners
