import Veckomenyn.CloneSpec
import Veckomenyn.Writers

/-!
Plans that are deleted stay deleted.

Whatever refers to a row refers to one that is there, after every request, whichever of its
statements fail. The identity of a deleted plan is never drawn again, so nothing of it comes back:
not by a request that was late, nor by a chat that is still bound to it.
-/

namespace Veckomenyn.Deleted

open Rows Schema Sql Store Txn Tools CartTools Weeks Dinners CloneSpec Service Writers

variable {d d' : Db} {β : Type}

/-! ### References -/

/-- What the row refers to is there. No plan, dinner or dish is taken away. -/
def Refers (d : Db) : Write → Prop
  | .week (.del _) | .dinner (.del _) | .dish (.del _) => False
  | .dinner (.put r) => d.weeks.Has r.weekId ∧ ∀ k ∈ r.dishId, d.dishes.Has k
  | .exception (.put r) => d.weeks.Has r.weekId
  | .retrospective (.put r) => d.weeks.Has r.weekId
  | .rating (.put r) => d.dinners.Has r.weekDinnerId
  | .cartItem (.put r) => ∀ k ∈ r.weekId, d.weeks.Has k
  | _ => True

/-- The rows that are referred to stay. -/
structure Grows (d d' : Db) : Prop where
  weeks : ∀ k, d.weeks.Has k → d'.weeks.Has k
  dinners : ∀ k, d.dinners.Has k → d'.dinners.Has k
  dishes : ∀ k, d.dishes.Has k → d'.dishes.Has k

lemma mem_apply {α : Type} [Keyed α] {t : Table α} {w : RowWrite α} {x : α}
    (h : x ∈ (t.apply w).rows) : x ∈ t.rows ∨ w = .put x := by
  cases w with
  | put r =>
    rcases Table.mem_put.mp h with rfl | ⟨h, -⟩
    · exact Or.inr rfl
    · exact Or.inl h
  | del k => exact Or.inl (Table.mem_del.mp h).1

lemma grows_apply {w : Write} (h : Refers d w) : Grows d (d.apply w) := by
  have hput {α : Type} [Keyed α] (t : Table α) (r : α) (k : ℤ) (hk : t.Has k) : (t.put r).Has k :=
    Table.has_put.mpr (Or.inr hk)
  cases w with
  | week w =>
    cases w with
    | put r => exact ⟨fun k => hput _ r k, fun _ => id, fun _ => id⟩
    | del k => exact h.elim
  | dinner w =>
    cases w with
    | put r => exact ⟨fun _ => id, fun k => hput _ r k, fun _ => id⟩
    | del k => exact h.elim
  | dish w =>
    cases w with
    | put r => exact ⟨fun _ => id, fun _ => id, fun k => hput _ r k⟩
    | del k => exact h.elim
  | _ => exact ⟨fun _ => id, fun _ => id, fun _ => id⟩

lemma Refers.mono {w : Write} (h : Refers d w) (g : Grows d d') : Refers d' w := by
  cases w with
  | week w => cases w <;> exact h
  | dinner w =>
    cases w with
    | put r => exact ⟨g.weeks _ h.1, fun k hk => g.dishes k (h.2 k hk)⟩
    | del k => exact h
  | exception w =>
    cases w with
    | put r => exact g.weeks _ h
    | del k => exact h
  | retrospective w =>
    cases w with
    | put r => exact g.weeks _ h
    | del k => exact h
  | rating w =>
    cases w with
    | put r => exact g.dinners _ h
    | del k => exact h
  | cartItem w =>
    cases w with
    | put r => exact fun k hk => g.weeks k (h k hk)
    | del k => exact h
  | dish w => cases w <;> exact h
  | principle w => exact h
  | settings s => exact h

lemma foreignKeys_apply {w : Write} (hf : ForeignKeys d) (h : Refers d w) :
    ForeignKeys (d.apply w) := by
  have g := grows_apply h
  refine ⟨fun r hr => g.weeks _ ?_, fun r hr k hk => g.dishes _ ?_, fun r hr => g.weeks _ ?_,
    fun r hr => g.weeks _ ?_, fun r hr => g.dinners _ ?_, fun r hr k hk => g.weeks _ ?_⟩
  · cases w with
    | dinner w =>
      rcases mem_apply hr with hr | rfl
      · exact hf.dinnerWeek r hr
      · exact h.1
    | _ => exact hf.dinnerWeek r hr
  · cases w with
    | dinner w =>
      rcases mem_apply hr with hr | rfl
      · exact hf.dinnerDish r hr k hk
      · exact h.2 k hk
    | _ => exact hf.dinnerDish r hr k hk
  · cases w with
    | exception w =>
      rcases mem_apply hr with hr | rfl
      · exact hf.exceptionWeek r hr
      · exact h
    | _ => exact hf.exceptionWeek r hr
  · cases w with
    | retrospective w =>
      rcases mem_apply hr with hr | rfl
      · exact hf.retrospectiveWeek r hr
      · exact h
    | _ => exact hf.retrospectiveWeek r hr
  · cases w with
    | rating w =>
      rcases mem_apply hr with hr | rfl
      · exact hf.ratingDinner r hr
      · exact h
    | _ => exact hf.ratingDinner r hr
  · cases w with
    | cartItem w =>
      rcases mem_apply hr with hr | rfl
      · exact hf.cartItemWeek r hr k hk
      · exact h k hk
    | _ => exact hf.cartItemWeek r hr k hk

lemma foreignKeys_applyAll {ws : List Write} (hf : ForeignKeys d) (h : ∀ w ∈ ws, Refers d w) :
    ForeignKeys (applyAll d ws) := by
  induction ws generalizing d with
  | nil => exact hf
  | cons w ws ih =>
    obtain ⟨hw, hws⟩ := List.forall_mem_cons.mp h
    have g := grows_apply hw
    exact ih (foreignKeys_apply hf hw) fun v hv => (hws v hv).mono g

/-! ### Identities -/

/-- A plan or a dinner stored is one that is there, or a new one. -/
def Mints (d : Db) : Write → Prop
  | .week w => d.weeks.Mints w
  | .dinner w => d.dinners.Mints w
  | _ => True

/-- What was gone is gone. -/
structure Later (d d' : Db) : Prop where
  weeks : ∀ k, d.weeks.Gone k → d'.weeks.Gone k
  dinners : ∀ k, d.dinners.Gone k → d'.dinners.Gone k

lemma Later.refl (d : Db) : Later d d := ⟨fun _ => id, fun _ => id⟩

lemma Later.trans {a b c : Db} (h : Later a b) (h' : Later b c) : Later a c :=
  ⟨fun k hk => h'.weeks k (h.weeks k hk), fun k hk => h'.dinners k (h.dinners k hk)⟩

lemma next_le_applyAll {α : Type} [Keyed α] (t : Table α) (ws : List (RowWrite α)) :
    t.next ≤ (t.applyAll ws).next := by
  induction ws generalizing t with
  | nil => exact le_rfl
  | cons w ws ih => exact (t.next_le_apply w).trans (ih _)

lemma later_reserve (d : Db) (w : Write) : Later d (Db.reserve d w) := by
  cases w with
  | week w => exact ⟨fun k h => h.reserveFor w, fun _ => id⟩
  | dinner w => exact ⟨fun _ => id, fun k h => h.reserveFor w⟩
  | _ => exact ⟨fun _ => id, fun _ => id⟩

lemma later_applyAll {ws : List Write} (h : ∀ w ∈ ws, Mints d w) : Later d (applyAll d ws) := by
  -- the identities of all of the writes are judged by what was there before the first
  suffices ∀ v, Later d v → Later d (applyAll v ws) from this d (Later.refl d)
  induction ws with
  | nil => exact fun v hv => hv
  | cons w ws ih =>
    obtain ⟨hw, hws⟩ := List.forall_mem_cons.mp h
    refine fun v hv => ih hws _ ?_
    cases w with
    | week w => exact ⟨fun k hk => (hv.weeks k hk).apply hk hw, hv.dinners⟩
    | dinner w => exact ⟨hv.weeks, fun k hk => (hv.dinners k hk).apply hk hw⟩
    | _ => exact ⟨hv.weeks, hv.dinners⟩

/-! ### Statements that store rows -/

/-- The write is of a retrospective only if the statement is about retrospectives. -/
def Labelled (l : Label) (w : Write) : Prop := w.row.1 = .retrospectives → l = .insertRetrospective

/-- Every write of the statement is of a row whose references hold, under an identity of its
own. -/
def Adds (s : Stmt β) : Prop :=
  ∀ d ws b, s.run d = .ok (ws, b) → ForeignKeys d →
    ∀ w ∈ ws, Refers d w ∧ Mints d w ∧ Labelled s.label w

/-- The references hold, and what was gone in `d₀` is gone. -/
structure Sound (d₀ d : Db) : Prop where
  foreignKeys : ForeignKeys d
  later : Later d₀ d

lemma Adds.keeping {s : Stmt β} (h : Adds s) (d₀ : Db) : Prog.Keeping (Sound d₀) β s := by
  intro d ws b hs hd
  have hw := h d ws b hs hd.foreignKeys
  exact ⟨foreignKeys_applyAll hd.foreignKeys fun w hm => (hw w hm).1,
    hd.later.trans (later_applyAll fun w hm => (hw w hm).2.1)⟩

lemma has_of_references {α : Type} [Keyed α] {t : Table α} {column : String} {k : ℤ} {u : Unit}
    (h : references t column k = .ok u) : t.Has k := by
  rw [references] at h
  split_ifs at h with hs
  obtain ⟨r, hr⟩ := Option.isSome_iff_exists.mp hs
  exact Table.has_of_find? hr

lemma mem_dels {α : Type} {f : RowWrite α → Write} {ks : List ℤ} {w : Write}
    (h : w ∈ (ks.map .del).map f) : ∃ k, w = f (.del k) := by
  obtain ⟨_, hk, rfl⟩ := List.mem_map.mp h
  obtain ⟨k, -, rfl⟩ := List.mem_map.mp hk
  exact ⟨k, rfl⟩

lemma adds_read {s : Stmt β} (h : Prog.ReadOnly s) : Adds s := by
  intro d ws b hs _ w hw
  rw [h d ws b hs] at hw
  cases hw

/-- A statement that writes one row at most. -/
lemma adds_of_single {s : Stmt β} (h : ∀ d ws b, s.run d = .ok (ws, b) → ForeignKeys d →
    ws = [] ∨ ∃ w, ws = [w] ∧ Refers d w ∧ Mints d w ∧ Labelled s.label w) : Adds s := by
  intro d ws b hs hf w hw
  rcases h d ws b hs hf with rfl | ⟨v, rfl, hv⟩
  · cases hw
  · rwa [List.mem_singleton.mp hw]

section

variable {pg : Pg} {now : ℤ}

lemma adds_createWeek (c : WeekCreate) : Adds (createWeek pg now c) := by
  refine adds_of_single fun d ws b h _ => Or.inr ?_
  obtain ⟨_, -, h⟩ := exists_of_bind h
  obtain ⟨_, -, h⟩ := exists_of_bind h
  cases h
  exact ⟨_, rfl, trivial, Or.inr le_rfl, nofun⟩

lemma adds_insertWeek (iso s e delivery order notes : String) :
    Adds (insertWeek pg now iso s e delivery order notes) := by
  refine adds_of_single fun d ws b h _ => Or.inr ?_
  obtain ⟨w, rfl, hid⟩ := Effects.insertWeek_writes h
  exact ⟨_, rfl, trivial, Or.inr hid.ge, nofun⟩

lemma adds_updateWeek (id : ℤ) (u : WeekUpdate) : Adds (updateWeekStmt pg now id u) := by
  refine adds_of_single fun d ws b h _ => ?_
  rcases updateWeekStmt_ok h with ⟨-, rfl, -⟩ | ⟨w, w', s, hw, hs, hw', rfl, -⟩
  · exact Or.inl rfl
  · have hid := (updated_of_assign hs hw').id
    exact Or.inr ⟨_, rfl, trivial, Or.inl ⟨w, (Table.find?_eq_some.mp hw).1, hid.symm⟩, nofun⟩

lemma adds_cloneTarget (s : String) (sourceId : ℤ) : Adds (cloneTarget pg now s sourceId) := by
  refine adds_of_single fun d ws b h _ => ?_
  obtain ⟨given, -, h⟩ := exists_of_bind h
  rcases hsrc : d.weeks.find? sourceId with _ | src <;> rw [hsrc] at h <;> cases h
  · exact Or.inl rfl
  · exact Or.inr ⟨_, rfl, trivial, Or.inr le_rfl, nofun⟩

lemma adds_insertDish (name cuisine recipe : String) (n : ℤ) (tags day : String) :
    Adds (insertDish pg name cuisine recipe n tags day) := by
  refine adds_of_single fun d ws b h _ => ?_
  obtain ⟨r, rfl, -⟩ := Effects.insertDish_writes h
  exact Or.inr ⟨_, rfl, trivial, trivial, nofun⟩

lemma adds_insertDinner (weekId : ℤ) (day : String) (dishId n : ℤ) (sourcing notes : String) :
    Adds (insertDinner pg weekId day dishId n sourcing notes) := by
  refine adds_of_single fun d ws b h _ => Or.inr ?_
  obtain ⟨_, -, h⟩ := exists_of_bind h
  obtain ⟨_, -, h⟩ := exists_of_bind h
  obtain ⟨_, -, h⟩ := exists_of_bind h
  obtain ⟨_, hweek, h⟩ := exists_of_bind h
  obtain ⟨_, hdish, h⟩ := exists_of_bind h
  cases h
  refine ⟨_, rfl, ⟨has_of_references hweek, fun k hk => ?_⟩, Or.inr le_rfl, nofun⟩
  cases hk
  exact has_of_references hdish

lemma adds_repointDinner (dinnerId dishId n : ℤ) (sourcing notes : String) :
    Adds (repointDinner pg dinnerId dishId n sourcing notes) := by
  refine adds_of_single fun d ws b h hf => ?_
  obtain ⟨_, -, h⟩ := exists_of_bind h
  obtain ⟨_, -, h⟩ := exists_of_bind h
  rcases hr : d.dinners.find? dinnerId with _ | r <;> rw [hr] at h
  · cases h
    exact Or.inl rfl
  · obtain ⟨_, hdish, h⟩ := exists_of_bind h
    cases h
    have hmem := (Table.find?_eq_some.mp hr).1
    refine Or.inr ⟨_, rfl, ⟨hf.dinnerWeek r hmem, fun k hk => ?_⟩, Or.inl ⟨r, hmem, rfl⟩, nofun⟩
    cases hk
    exact has_of_references hdish

lemma adds_insertException (weekId : ℤ) (kind text : String) :
    Adds (insertException weekId kind text) := by
  refine adds_of_single fun d ws b h _ => Or.inr ?_
  obtain ⟨_, hweek, h⟩ := exists_of_bind h
  cases h
  exact ⟨_, rfl, has_of_references hweek, trivial, nofun⟩

lemma adds_updateException (id : ℤ) (kind text : Option String) :
    Adds (updateException id kind text) := by
  refine adds_of_single fun d ws b h hf => ?_
  simp only [updateException] at h
  rcases hr : d.exceptions.find? id with _ | r <;> rw [hr] at h <;> cases h
  · exact Or.inl rfl
  · exact Or.inr ⟨_, rfl, hf.exceptionWeek r (Table.find?_eq_some.mp hr).1, trivial,
      fun h => by cases h⟩

lemma adds_deleteException (id : ℤ) : Adds (deleteException id) := by
  refine adds_of_single fun d ws b h _ => ?_
  simp only [deleteException] at h
  rcases hr : d.exceptions.find? id with _ | r <;> rw [hr] at h <;> cases h
  · exact Or.inl rfl
  · exact Or.inr ⟨_, rfl, trivial, trivial, fun h => by cases h⟩

lemma adds_insertRetrospective (weekId : ℤ) (notes : String) :
    Adds (insertRetrospective now weekId notes) := by
  refine adds_of_single fun d ws b h _ => Or.inr ?_
  obtain ⟨_, hweek, h⟩ := exists_of_bind h
  cases h
  exact ⟨_, rfl, has_of_references hweek, trivial, fun _ => rfl⟩

lemma newestRetrospective_mem {weekId : ℤ} {r : Retrospective}
    (h : newestRetrospective weekId d = some r) :
    r ∈ d.retrospectives.rows ∧ r.weekId = weekId := by
  have hmem := (List.mem_insertionSort _).mp (List.mem_of_head? h)
  rw [List.mem_filter, decide_eq_true_eq] at hmem
  exact hmem

lemma adds_updateNewest (weekId : ℤ) (notes : String) : Adds (updateNewest weekId notes) := by
  refine adds_of_single fun d ws b h hf => ?_
  simp only [updateNewest] at h
  rcases hr : newestRetrospective weekId d with _ | r <;> rw [hr] at h <;> cases h
  · exact Or.inl rfl
  · exact Or.inr ⟨_, rfl, hf.retrospectiveWeek r (newestRetrospective_mem hr).1, trivial,
      fun _ => rfl⟩

/-- A rating is stored for a dinner that is there. -/
lemma adds_rating {s : Stmt β} {dinnerId : ℤ} (h : ∀ d ws b, s.run d = .ok (ws, b) → ws = [] ∨
    d.dinners.Has dinnerId ∧ ∃ r : Rating, ws = [.rating (.put r)] ∧ r.weekDinnerId = dinnerId) :
    Adds s := by
  refine adds_of_single fun d ws b hs _ => ?_
  rcases h d ws b hs with rfl | ⟨hk, r, rfl, rfl⟩
  · exact Or.inl rfl
  · exact Or.inr ⟨_, rfl, hk, trivial, nofun⟩

lemma adds_upsertRating (dinnerId : ℤ) (rating notes : String) :
    Adds (upsertRating dinnerId rating notes) := by
  refine @adds_rating _ _ dinnerId fun d ws b h => Or.inr ?_
  simp only [upsertRating] at h
  rcases hv : Verdict.ofText rating with _ | verdict <;> rw [hv] at h
  · cases h
  · obtain ⟨_, hk, h⟩ := exists_of_bind h
    refine ⟨has_of_references hk, ?_⟩
    rcases hr : d.ratings.rows.find? (fun r => r.weekDinnerId = dinnerId) with _ | r <;>
      rw [hr] at h <;> cases h
    · exact ⟨_, rfl, rfl⟩
    · exact ⟨_, rfl, by simpa using List.find?_some hr⟩

lemma adds_setRating (dinnerId : ℤ) (rating notes : String) :
    Adds (setRating dinnerId rating notes) := by
  refine @adds_rating _ _ dinnerId fun d ws b h => ?_
  simp only [setRating] at h
  rcases hd : d.dinners.find? dinnerId with _ | x <;> rw [hd] at h
  · cases h
    exact Or.inl rfl
  · refine Or.inr ⟨Table.has_of_find? hd, ?_⟩
    rcases hv : Verdict.ofText rating with _ | verdict <;> rw [hv] at h
    · cases h
    · rcases hr : d.ratings.rows.find? (fun r => r.weekDinnerId = dinnerId) with _ | r <;>
        rw [hr] at h <;> cases h
      · exact ⟨_, rfl, rfl⟩
      · exact ⟨_, rfl, by simpa using List.find?_some hr⟩

lemma adds_insertCartItem (weekId : ℤ) (code : String) (qty : ℤ) (reason : String)
    (snapshot : Option Snapshot) : Adds (insertCartItem now weekId code qty reason snapshot) := by
  refine adds_of_single fun d ws b h _ => Or.inr ?_
  obtain ⟨_, -, h⟩ := exists_of_bind h
  obtain ⟨_, hweek, h⟩ := exists_of_bind h
  cases h
  refine ⟨_, rfl, fun k hk => ?_, trivial, nofun⟩
  cases hk
  exact has_of_references hweek

/-- Rows of a table nothing refers to are deleted. -/
lemma adds_dels {s : Stmt β} (h : ∀ d ws b, s.run d = .ok (ws, b) → ∀ w ∈ ws,
    (∃ k, w = .rating (.del k)) ∨ (∃ k, w = .cartItem (.del k)) ∨ ∃ k, w = .principle (.del k)) :
    Adds s := by
  intro d ws b hs _ w hw
  rcases h d ws b hs w hw with ⟨k, rfl⟩ | ⟨k, rfl⟩ | ⟨k, rfl⟩ <;>
    exact ⟨trivial, trivial, nofun⟩

lemma adds_clearRating (dinnerId : ℤ) : Adds (clearRating dinnerId) :=
  adds_dels fun d ws b h w hw => by
    cases h
    exact Or.inl (mem_dels hw)

lemma adds_deleteCartItems (p : CartItem → Bool) : Adds (deleteCartItems p) :=
  adds_dels fun d ws b h w hw => by
    cases h
    exact Or.inr (Or.inl (mem_dels hw))

lemma adds_deletePrinciples (category : String) : Adds (deletePrinciples category) :=
  adds_dels fun d ws b h w hw => by
    cases h
    exact Or.inr (Or.inr (mem_dels hw))

lemma adds_deletePreference (category : String) : Adds (Preferences.deletePreference category) := by
  intro d ws b h hf
  obtain ⟨⟨vs, u⟩, hvs, h⟩ := exists_of_bind h
  cases h
  exact adds_deletePrinciples category d _ u hvs hf

lemma adds_insertPrinciple (category body : String) : Adds (insertPrinciple category body) := by
  refine adds_of_single fun d ws b h _ => Or.inr ?_
  cases h
  exact ⟨_, rfl, trivial, trivial, nofun⟩

lemma adds_updateSettings (i : SettingsInput) : Adds (Tools.updateSettings i) := by
  refine adds_of_single fun d ws b h _ => Or.inr ?_
  obtain ⟨_, -, h⟩ := exists_of_bind h
  obtain ⟨_, -, h⟩ := exists_of_bind h
  obtain ⟨_, -, h⟩ := exists_of_bind h
  obtain ⟨_, -, h⟩ := exists_of_bind h
  split_ifs at h
  cases h
  exact ⟨_, rfl, trivial, trivial, nofun⟩

lemma adds_patchSettings (u : Setup.SettingsPatch) : Adds (Setup.updateSettings u) := by
  refine adds_of_single fun d ws b h _ => Or.inr ?_
  obtain ⟨_, -, h⟩ := exists_of_bind h
  obtain ⟨_, -, h⟩ := exists_of_bind h
  obtain ⟨_, -, h⟩ := exists_of_bind h
  obtain ⟨_, -, h⟩ := exists_of_bind h
  obtain ⟨_, -, h⟩ := exists_of_bind h
  cases h
  exact ⟨_, rfl, trivial, trivial, nofun⟩

/-! ### Statements that store many dinners -/

/-- Dinners of plans that are there, each one that is there or a new one. -/
lemma adds_dinners {s : Stmt β} (h : ∀ d ws b, s.run d = .ok (ws, b) → ForeignKeys d → ws = [] ∨
    ∃ l : List Dinner, ws = (l.map .put).map .dinner ∧ ∀ r ∈ l, d.weeks.Has r.weekId ∧
      (∀ k ∈ r.dishId, d.dishes.Has k) ∧ (d.dinners.Has r.id ∨ d.dinners.next ≤ r.id)) :
    Adds s := by
  intro d ws b hs hf w hw
  rcases h d ws b hs hf with rfl | ⟨l, rfl, hl⟩
  · cases hw
  · obtain ⟨_, hput, rfl⟩ := List.mem_map.mp hw
    obtain ⟨r, hr, rfl⟩ := List.mem_map.mp hput
    obtain ⟨hweek, hdish, hid⟩ := hl r hr
    exact ⟨⟨hweek, hdish⟩, hid, nofun⟩

lemma adds_shiftDinners (s : String) (id : ℤ) : Adds (shiftDinners pg s id) := by
  refine adds_dinners fun d ws b h hf => Or.inr ?_
  obtain ⟨day, -, h⟩ := exists_of_bind h
  cases h
  refine ⟨_, rfl, fun r hr => ?_⟩
  obtain ⟨x, n, hx, rfl⟩ := mem_packed.mp hr
  have hmem := (mem_dinnersOf.mp (mem_of_mem_ranked Before hx)).1
  exact ⟨hf.dinnerWeek x hmem, hf.dinnerDish x hmem, Or.inl ⟨x, hmem, rfl⟩⟩

lemma emptySlots_sound {id : ℤ} {days : List ℤ} (hid : d.weeks.Has id) :
    ∀ r ∈ emptySlots d id days, d.weeks.Has r.weekId ∧ (∀ k ∈ r.dishId, d.dishes.Has k) ∧
      (d.dinners.Has r.id ∨ d.dinners.next ≤ r.id) := by
  intro r hr
  refine ⟨weekId_of_mem_slots hr ▸ hid, fun k hk => ?_,
    Or.inr (Table.key_numbered emptySlots_id r hr)⟩
  rw [dishId_of_mem_slots hr] at hk
  cases hk

lemma adds_addEmptySlots (id : ℤ) (e e' : String) : Adds (addEmptySlots pg id e e') := by
  refine adds_dinners fun d ws b h _ => ?_
  obtain ⟨_, -, h⟩ := exists_of_bind h
  obtain ⟨_, -, h⟩ := exists_of_bind h
  simp only at h
  split_ifs at h
  · cases h
    exact Or.inl rfl
  · obtain ⟨_, hweek, h⟩ := exists_of_bind h
    cases h
    exact Or.inr ⟨_, rfl, emptySlots_sound (has_of_references hweek)⟩

lemma adds_padDays (targetId : ℤ) : Adds (padDays targetId) := by
  refine adds_dinners fun d ws b h _ => ?_
  simp only [padDays] at h
  rcases hw : d.weeks.find? targetId with _ | w <;> rw [hw] at h <;> cases h
  · exact Or.inl rfl
  · exact Or.inr ⟨_, rfl, emptySlots_sound ⟨w, (Table.find?_eq_some.mp hw).1, rfl⟩⟩

lemma adds_cloneDinners (targetId sourceId : ℤ) : Adds (cloneDinners targetId sourceId) := by
  refine adds_dinners fun d ws b h hf => ?_
  simp only [cloneDinners] at h
  rcases hw : d.weeks.find? targetId with _ | w <;> rw [hw] at h
  · simp only at h
    split_ifs at h
    cases h
    exact Or.inl rfl
  · cases h
    refine Or.inr ⟨_, rfl, fun r hr => ?_⟩
    obtain ⟨hweek, x, hx, hdish⟩ := mem_clonedDinners hr
    refine ⟨hweek ▸ ⟨w, (Table.find?_eq_some.mp hw).1, rfl⟩, fun k hk => ?_,
      Or.inr (Table.key_numbered clonedDinners_id r hr)⟩
    exact hf.dinnerDish x (mem_dinnersOf.mp hx).1 k (hdish ▸ hk)

end

/-! ### Statements that delete -/

/-- Rows that refer to something are fewer, and what those that are left refer to is left. -/
lemma foreignKeys_of_fewer (hf : ForeignKeys d) (hdishes : d'.dishes = d.dishes)
    (hdinners : ∀ r ∈ d'.dinners.rows, r ∈ d.dinners.rows ∧ d'.weeks.Has r.weekId)
    (hexceptions : ∀ r ∈ d'.exceptions.rows, d'.weeks.Has r.weekId)
    (hretros : ∀ r ∈ d'.retrospectives.rows, d'.weeks.Has r.weekId)
    (hratings : ∀ r ∈ d'.ratings.rows, d'.dinners.Has r.weekDinnerId)
    (hcart : ∀ r ∈ d'.cartItems.rows, ∀ k ∈ r.weekId, d'.weeks.Has k) : ForeignKeys d' :=
  ⟨fun r hr => (hdinners r hr).2, fun r hr => hdishes ▸ hf.dinnerDish r (hdinners r hr).1,
    hexceptions, hretros, hratings, hcart⟩

lemma foreignKeys_deleteDinners (hf : ForeignKeys d) (ks : List ℤ) :
    ForeignKeys (applyAll d (deleteDinners d ks)) := by
  rw [deleteDinners_apply]
  refine foreignKeys_of_fewer hf rfl (fun r hr => ?_) hf.exceptionWeek hf.retrospectiveWeek
    (fun r hr => ?_) hf.cartItemWeek
  · have hr := (Table.mem_applyAll_del.mp hr).1
    exact ⟨hr, hf.dinnerWeek r hr⟩
  · -- a rating that is left is a rating of a dinner that is left
    obtain ⟨hr, hk⟩ := Table.mem_applyAll_del.mp hr
    obtain ⟨x, hx, hxk⟩ := hf.ratingDinner r hr
    refine ⟨x, Table.mem_applyAll_del.mpr ⟨hx, fun hgone => hk ?_⟩, hxk⟩
    refine List.mem_map_of_mem (List.mem_filter.mpr ⟨hr, ?_⟩)
    rw [decide_eq_true_eq, ← hxk]
    exact hgone

lemma mints_deleteDinners (d : Db) (ks : List ℤ) : ∀ w ∈ deleteDinners d ks, Mints d w := by
  intro w hw
  rcases List.mem_append.mp hw with hw | hw <;> obtain ⟨k, rfl⟩ := mem_dels hw <;> trivial

/-- A statement that deletes dinners with their ratings. -/
lemma keeping_dinners {s : Stmt β} (h : ∀ d ws b, s.run d = .ok (ws, b) →
    ws = [] ∨ ∃ ks, ws = deleteDinners d ks) (d₀ : Db) : Prog.Keeping (Sound d₀) β s := by
  intro d ws b hs hd
  rcases h d ws b hs with rfl | ⟨ks, rfl⟩
  · exact hd
  · exact ⟨foreignKeys_deleteDinners hd.foreignKeys ks,
      hd.later.trans (later_applyAll (mints_deleteDinners d ks))⟩

lemma writes_truncateDinners {pg : Pg} (id : ℤ) (e : String) (d : Db) (ws : List Write) (u : Unit)
    (h : (truncateDinners pg id e).run d = .ok (ws, u)) :
    ws = [] ∨ ∃ ks, ws = deleteDinners d ks := by
  obtain ⟨_, -, h⟩ := exists_of_bind h
  cases h
  exact Or.inr ⟨_, rfl⟩

lemma writes_deleteDinner (id : ℤ) (d : Db) (ws : List Write) (n : ℕ)
    (h : (deleteDinner id).run d = .ok (ws, n)) : ws = [] ∨ ∃ ks, ws = deleteDinners d ks := by
  simp only [deleteDinner] at h
  rcases hr : d.dinners.find? id with _ | r <;> rw [hr] at h <;> cases h
  · exact Or.inl rfl
  · exact Or.inr ⟨_, rfl⟩

/-- The plan and all that hangs off it are taken out, and nothing else. -/
structure Without (k : ℤ) (d d' : Db) : Prop where
  weeks : d'.weeks.rows = d.weeks.rows.filter fun w => w.id ≠ k
  dinners : d'.dinners.rows = d.dinners.rows.filter fun r => r.weekId ≠ k
  exceptions : d'.exceptions.rows = d.exceptions.rows.filter fun r => r.weekId ≠ k
  retrospectives : d'.retrospectives.rows = d.retrospectives.rows.filter fun r => r.weekId ≠ k
  ratings : d'.ratings.rows =
    d.ratings.rows.filter fun r => r.weekDinnerId ∉ (dinnersOf d k).map Dinner.id
  cartItems : d'.cartItems.rows = d.cartItems.rows.filter fun r => r.weekId ≠ some k
  dishes : d'.dishes = d.dishes
  principles : d'.principles = d.principles
  settings : d'.settings = d.settings

lemma cascade_apply (d : Db) (k : ℤ) : applyAll d (cascade d k) =
    { d with
      weeks := d.weeks.del k
      dinners := d.dinners.applyAll (((dinnersOf d k).map Dinner.id).map .del)
      ratings := d.ratings.applyAll ((ratingsOf d ((dinnersOf d k).map Dinner.id)).map .del)
      exceptions := d.exceptions.applyAll
        (((d.exceptions.rows.filter fun r => r.weekId = k).map WeekException.id).map .del)
      retrospectives := d.retrospectives.applyAll
        (((d.retrospectives.rows.filter fun r => r.weekId = k).map Retrospective.id).map .del)
      cartItems := d.cartItems.applyAll
        (((d.cartItems.rows.filter fun r => r.weekId = some k).map CartItem.id).map .del) } := by
  simp only [cascade, deleteDinners, List.cons_append, applyAll_cons, applyAll_append,
    applyAll_dinners, applyAll_ratings, applyAll_exceptions, applyAll_retrospectives,
    applyAll_cartItems]
  rfl

lemma without_cascade (d : Db) (k : ℤ) : Without k d (applyAll d (cascade d k)) := by
  have hdels {α : Type} [Keyed α] (t : Table α) (p : α → Prop) [DecidablePred p] :
      (t.applyAll (((t.rows.filter fun r => p r).map Keyed.key).map .del)).rows =
        t.rows.filter fun r => ¬p r := by
    rw [Table.rows_del_filter]
    exact List.filter_congr fun r _ => by simp
  rw [cascade_apply]
  exact ⟨rfl, hdels d.dinners _, hdels d.exceptions _, hdels d.retrospectives _,
    hdels d.ratings _, hdels d.cartItems _, rfl, rfl, rfl⟩

lemma Without.foreignKeys {k : ℤ} (h : Without k d d') (hf : ForeignKeys d) : ForeignKeys d' := by
  have hweek {j : ℤ} (hj : d.weeks.Has j) (hne : j ≠ k) : d'.weeks.Has j := by
    obtain ⟨w, hw, rfl⟩ := hj
    exact ⟨w, h.weeks ▸ List.mem_filter.mpr ⟨hw, decide_eq_true hne⟩, rfl⟩
  have hdinner {r : Dinner} (hr : r ∈ d'.dinners.rows) : r ∈ d.dinners.rows ∧ r.weekId ≠ k := by
    rw [h.dinners, List.mem_filter, decide_eq_true_eq] at hr
    exact hr
  refine foreignKeys_of_fewer hf h.dishes (fun r hr => ?_) (fun r hr => ?_) (fun r hr => ?_)
    (fun r hr => ?_) (fun r hr j hj => ?_)
  · exact ⟨(hdinner hr).1, hweek (hf.dinnerWeek r (hdinner hr).1) (hdinner hr).2⟩
  · rw [h.exceptions, List.mem_filter, decide_eq_true_eq] at hr
    exact hweek (hf.exceptionWeek r hr.1) hr.2
  · rw [h.retrospectives, List.mem_filter, decide_eq_true_eq] at hr
    exact hweek (hf.retrospectiveWeek r hr.1) hr.2
  · rw [h.ratings, List.mem_filter, decide_eq_true_eq] at hr
    obtain ⟨x, hx, hxk⟩ := hf.ratingDinner r hr.1
    refine ⟨x, h.dinners ▸ List.mem_filter.mpr ⟨hx, decide_eq_true fun hk => hr.2 ?_⟩, hxk⟩
    exact hxk ▸ List.mem_map_of_mem (mem_dinnersOf.mpr ⟨hx, hk⟩)
  · rw [h.cartItems, List.mem_filter, decide_eq_true_eq] at hr
    obtain ⟨hr, hne⟩ := hr
    refine hweek (hf.cartItemWeek r hr j hj) fun hjk => hne ?_
    rw [Option.mem_def.mp hj, hjk]

lemma mints_cascade (d : Db) (k : ℤ) : ∀ w ∈ cascade d k, Mints d w := by
  intro w hw
  simp only [cascade, List.cons_append, List.mem_cons, List.mem_append] at hw
  rcases hw with rfl | ((hw | hw) | hw) | hw
  · trivial
  · exact mints_deleteDinners d _ w hw
  · obtain ⟨j, rfl⟩ := mem_dels hw
    trivial
  · obtain ⟨j, rfl⟩ := mem_dels hw
    trivial
  · obtain ⟨j, rfl⟩ := mem_dels hw
    trivial

lemma keeping_deleteWeek (k : ℤ) (d₀ : Db) : Prog.Keeping (Sound d₀) ℕ (deleteWeek k) := by
  intro d ws b hs hd
  simp only [deleteWeek] at hs
  rcases hw : d.weeks.find? k with _ | w <;> rw [hw] at hs <;> cases hs
  · exact hd
  · exact ⟨(without_cascade d k).foreignKeys hd.foreignKeys,
      hd.later.trans (later_applyAll (mints_cascade d k))⟩

/-! ### Every request -/

lemma covers_sound (d₀ : Db) : Covers (Prog.Keeping (Sound d₀)) where
  read _ _ h := (adds_read h).keeping d₀
  createWeek _ _ c := (adds_createWeek c).keeping d₀
  insertWeek _ _ iso s e delivery order notes :=
    (adds_insertWeek iso s e delivery order notes).keeping d₀
  updateWeek _ _ id u := (adds_updateWeek id u).keeping d₀
  shiftDinners _ s id := (adds_shiftDinners s id).keeping d₀
  truncateDinners _ id e := keeping_dinners (writes_truncateDinners id e) d₀
  addEmptySlots _ id e e' := (adds_addEmptySlots id e e').keeping d₀
  cloneTarget _ _ s id := (adds_cloneTarget s id).keeping d₀
  cloneDinners t id := (adds_cloneDinners t id).keeping d₀
  padDays t := (adds_padDays t).keeping d₀
  insertDish _ name cuisine recipe n tags day :=
    (adds_insertDish name cuisine recipe n tags day).keeping d₀
  insertDinner _ id day dish n sourcing notes :=
    (adds_insertDinner id day dish n sourcing notes).keeping d₀
  repointDinner _ id dish n sourcing notes :=
    (adds_repointDinner id dish n sourcing notes).keeping d₀
  deleteDinner id := keeping_dinners (writes_deleteDinner id) d₀
  insertException id kind text := (adds_insertException id kind text).keeping d₀
  updateException id kind text := (adds_updateException id kind text).keeping d₀
  deleteException id := (adds_deleteException id).keeping d₀
  upsertRating id rating notes := (adds_upsertRating id rating notes).keeping d₀
  setRating id rating notes := (adds_setRating id rating notes).keeping d₀
  clearRating id := (adds_clearRating id).keeping d₀
  insertCartItem _ id code qty reason snapshot :=
    (adds_insertCartItem id code qty reason snapshot).keeping d₀
  deleteCartItems p := (adds_deleteCartItems p).keeping d₀
  deletePrinciples category := (adds_deletePrinciples category).keeping d₀
  deletePreference category := (adds_deletePreference category).keeping d₀
  insertPrinciple category body := (adds_insertPrinciple category body).keeping d₀
  updateSettings i := (adds_updateSettings i).keeping d₀
  patchSettings u := (adds_patchSettings u).keeping d₀

lemma coversNotes_sound (d₀ : Db) : CoversNotes (Prog.Keeping (Sound d₀)) where
  deleteWeek k := keeping_deleteWeek k d₀
  insertRetrospective _ id notes := (adds_insertRetrospective id notes).keeping d₀
  updateNewest id notes := (adds_updateNewest id notes).keeping d₀

lemma sound_reserve {d₀ : Db} (d : Db) (w : Write) (h : Sound d₀ d) : Sound d₀ (Db.reserve d w) :=
  ⟨(sameRows_reserveAll d [w]).foreignKeys h.foreignKeys, h.later.trans (later_reserve d w)⟩

section

variable {σ : Type} (S : Agent.Setup) (ans : (q : Call) → σ → Answer q × σ)

lemma sound_serve (vs : List Visit) {d₀ : Db} {c : Db × σ} (h : Sound d₀ c.1) :
    Sound d₀ (serve S ans c vs).1 :=
  serve_keeps S ans sound_reserve (covers_sound d₀) (coversNotes_sound d₀) vs h

/-- A deletion that succeeds has found the plan and taken it out, one that does not has done
nothing. -/
lemma deleteWeek_ends {lost : DbError → Service.Resp} {f : ℕ → Option DbError} (k : ℤ)
    (c : Db × σ) :
    (∃ e m, (handleDeleteWeek k).runWith f lost ans 0 c = ((.error e, m), c)) ∨
      c.1.weeks.Has k ∧ ∃ m, (handleDeleteWeek k).runWith f lost ans 0 c =
        ((.ok .noContent, m), applyAll c.1 (cascade c.1 k), c.2) := by
  unfold handleDeleteWeek
  split_ifs
  · exact Or.inl ⟨_, _, rfl⟩
  rw [Prog.runWith_query]
  rcases f 0 with _ | e
  · rcases hw : c.1.weeks.find? k with _ | w <;> simp only [deleteWeek, hw]
    · exact Or.inl ⟨_, _, rfl⟩
    · exact Or.inr ⟨Table.has_of_find? hw, _, rfl⟩
  · exact Or.inl ⟨_, _, rfl⟩

lemma deleted_of_ok {lost : DbError → Service.Resp} {f : ℕ → Option DbError} {k : ℤ} {c : Db × σ}
    (h : (ends ans lost (handleDeleteWeek k) f c).1 = true) :
    c.1.weeks.Has k ∧ (ends ans lost (handleDeleteWeek k) f c).2.1 =
      applyAll c.1 (cascade c.1 k) := by
  unfold ends at h ⊢
  rcases deleteWeek_ends ans k c with ⟨e, m, hrun⟩ | ⟨hk, m, hrun⟩ <;> rw [hrun] at h ⊢
  · cases h
  · exact ⟨hk, rfl⟩

lemma kept_of_not_ok {lost : DbError → Service.Resp} {f : ℕ → Option DbError} {k : ℤ} {c : Db × σ}
    (h : (ends ans lost (handleDeleteWeek k) f c).1 = false) :
    (ends ans lost (handleDeleteWeek k) f c).2.1 = c.1 := by
  unfold ends at h ⊢
  rcases deleteWeek_ends ans k c with ⟨e, m, hrun⟩ | ⟨hk, m, hrun⟩ <;> rw [hrun] at h ⊢
  cases h

/-- There is nothing of the plan. -/
structure NoneOf (k : ℤ) (d : Db) : Prop where
  week : ¬d.weeks.Has k
  dinners : ∀ r ∈ d.dinners.rows, r.weekId ≠ k
  exceptions : ∀ r ∈ d.exceptions.rows, r.weekId ≠ k
  retrospectives : ∀ r ∈ d.retrospectives.rows, r.weekId ≠ k
  cartItems : ∀ r ∈ d.cartItems.rows, r.weekId ≠ some k

lemma noneOf_of_foreignKeys {k : ℤ} (hf : ForeignKeys d) (h : ¬d.weeks.Has k) : NoneOf k d where
  week := h
  dinners r hr hk := h (hk ▸ hf.dinnerWeek r hr)
  exceptions r hr hk := h (hk ▸ hf.exceptionWeek r hr)
  retrospectives r hr hk := h (hk ▸ hf.retrospectiveWeek r hr)
  cartItems r hr hk := h (hf.cartItemWeek r hr k hk)

/-- **What is deleted stays deleted**: a deletion that is answered with success takes the plan and
what hangs off it and nothing else; and whatever is asked for afterwards, by the API or in any
chat, and whichever statements fail, there is nothing of the plan again, and no rating of a dinner
it had. -/
theorem stays_deleted (c : Db × σ) (hf : ForeignKeys c.1) (before after : List Visit) (v : Visit)
    (k : ℤ) (hv : v.request = .deleteWeek k)
    (hok : (visit S ans (serve S ans c before) v).1 = true) :
    Without k (serve S ans c before).1 (visit S ans (serve S ans c before) v).2.1 ∧
      ForeignKeys (serve S ans c (before ++ v :: after)).1 ∧
      NoneOf k (serve S ans c (before ++ v :: after)).1 ∧
      ∀ r ∈ (serve S ans c (before ++ v :: after)).1.ratings.rows,
        r.weekDinnerId ∉ (dinnersOf (serve S ans c before).1 k).map Dinner.id := by
  have hbefore := sound_serve S ans before ⟨hf, Later.refl c.1⟩
  have hrun : serve S ans c (before ++ v :: after) =
      serve S ans (visit S ans (serve S ans c before) v).2 after := by
    rw [serve, List.foldl_append, List.foldl_cons]
    rfl
  generalize serve S ans c before = u at *
  have hvisit : visit S ans u v =
      ends ans (fun _ => Service.internalError) (handleDeleteWeek k) v.faults u := by
    unfold visit
    rw [hv]
  rw [hvisit] at hok hrun ⊢
  obtain ⟨hhas, hdel⟩ := deleted_of_ok ans hok
  have hwithout : Without k u.1 (ends ans (fun _ => Service.internalError)
      (handleDeleteWeek k) v.faults u).2.1 := hdel ▸ without_cascade u.1 k
  generalize ends ans (fun _ => Service.internalError) (handleDeleteWeek k) v.faults u = r at *
  refine ⟨hwithout, ?_⟩
  have hafter : Sound r.2.1 (serve S ans r.2 after).1 := sound_serve S ans after
    ⟨hwithout.foreignKeys hbefore.foreignKeys, Later.refl _⟩
  rw [hrun]
  generalize serve S ans r.2 after = z at *
  -- the plan was there, and is gone since
  have hnext : k < r.2.1.weeks.next := by
    rw [hdel, cascade_apply]
    exact hhas.lt_next
  have hgone : ¬r.2.1.weeks.Has k := by
    rintro ⟨w, hw, hid⟩
    rw [hwithout.weeks, List.mem_filter, decide_eq_true_eq] at hw
    exact hw.2 hid
  refine ⟨hafter.foreignKeys, noneOf_of_foreignKeys hafter.foreignKeys
    (hafter.later.weeks k ⟨hnext, hgone⟩).2, fun x hx hmem => ?_⟩
  -- so are its dinners
  obtain ⟨y, hy, hid⟩ := List.mem_map.mp hmem
  obtain ⟨hy, hyk⟩ := mem_dinnersOf.mp hy
  have hlater := hafter.later.dinners x.weekDinnerId ⟨?_, ?_⟩
  · exact hlater.2 (hafter.foreignKeys.ratingDinner x hx)
  · have hnext : u.1.dinners.next ≤ r.2.1.dinners.next := by
      rw [hdel, cascade_apply]
      exact next_le_applyAll _ _
    have hfresh : y.id < u.1.dinners.next := u.1.dinners.fresh y hy
    exact hid ▸ hfresh.trans_le hnext
  · rintro ⟨a, ha, haid⟩
    rw [hwithout.dinners, List.mem_filter, decide_eq_true_eq] at ha
    have hay : a = y := u.1.dinners.key_inj ha.1 hy (haid.trans hid.symm)
    exact ha.2 (hay ▸ hyk)

end

/-- A chat that is bound to the plan 1 adds a dinner and a page rates one, after the plan was
deleted. -/
def tooLate : List Visit := [
  ⟨2, .call ⟨1⟩ 0 (.addDinner (some ⟨0, "2026-04-21", "Stew", "", "", 0, none, "", []⟩)),
    fun _ => none⟩,
  ⟨3, .putDinnerRating 1 (.ok ⟨"loved", ""⟩), fun _ => none⟩]

theorem stays_deleted_tooLate :
    (visit Frames.noShop Frames.noAnswers (Dinners.threeDays .draft, ())
      ⟨1, .deleteWeek 1, fun _ => none⟩).1 = true ∧
    NoneOf 1 (serve Frames.noShop Frames.noAnswers (Dinners.threeDays .draft, ())
      ([] ++ ⟨1, .deleteWeek 1, fun _ => none⟩ :: tooLate)).1 := by
  have hok : (visit Frames.noShop Frames.noAnswers (Dinners.threeDays .draft, ())
      ⟨1, .deleteWeek 1, fun _ => none⟩).1 = true := by rfl
  exact ⟨hok, (stays_deleted Frames.noShop Frames.noAnswers _ (foreignKeys_threeDays .draft) []
    tooLate _ 1 rfl hok).2.2.1⟩

end Veckomenyn.Deleted
