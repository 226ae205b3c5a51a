import Veckomenyn.Interleave
import Veckomenyn.PatchSpec

/-!
The statements of a patch, one at a time.

After it has read the dates, a patch sends statements that depend on the dates, the dinners
and the ratings alone and write nothing but dinners and ratings; then it updates the row of
the plan. Whether it sends any before the update is decided by the dates it has read.
-/

namespace Veckomenyn.PatchSteps

open Rows DateText Schema Sql Store Weeks Txn Dinners PatchSpec

/-- The dates a patch reads. -/
def storedDates (id : ℤ) (d : Db) : Option (String × String) :=
  (d.weeks.find? id).map fun w => (text w.startDate, text w.endDate)

/-- A row of the menu or a rating of it. -/
def MenuWrite : Write → Prop
  | .dinner _ => True
  | .rating _ => True
  | _ => False

/-- What the statements before the update go by is the same. -/
structure Alike (id : ℤ) (d d' : Db) : Prop where
  dates : storedDates id d' = storedDates id d
  dinners : d'.dinners = d.dinners
  ratings : d'.ratings = d.ratings

variable {pg : Pg} {id now : ℤ} {p : WeekPatch} {d d' : Db} {w w' : Week}

lemma Alike.refl (id : ℤ) (d : Db) : Alike id d d := ⟨rfl, rfl, rfl⟩

lemma Alike.trans {d'' : Db} (h : Alike id d d') (h' : Alike id d' d'') : Alike id d d'' :=
  ⟨h'.dates.trans h.dates, h'.dinners.trans h.dinners, h'.ratings.trans h.ratings⟩

lemma weeks_menu {ws : List Write} (h : ∀ w ∈ ws, MenuWrite w) : (applyAll d ws).weeks = d.weeks :=
  applyAll_induction (I := fun (v : Db) => v.weeks = d.weeks) rfl fun w hw v hv => by
    have := h w hw
    cases w <;> first | exact hv | exact this.elim

lemma Alike.applyAll {ws : List Write} (h : Alike id d d') (hw : ∀ w ∈ ws, MenuWrite w) :
    Alike id (applyAll d ws) (applyAll d' ws) := by
  induction ws generalizing d d' with
  | nil => exact h
  | cons w ws ih =>
    refine ih ?_ fun v hv => hw v (by simp [hv])
    have := hw w (by simp)
    cases w <;> first
      | exact this.elim
      | exact ⟨h.dates, by simp [Database.apply, Db.apply, h.dinners, h.ratings],
          by simp [Database.apply, Db.apply, h.dinners, h.ratings]⟩

/-- A statement a patch may send before its update. -/
structure Calm (id : ℤ) (β : Type) (s : Stmt β) : Prop where
  reads : s.label ≠ .weekDates
  label : s.label ≠ .updateWeek
  writes : ∀ d ws b, s.run d = .ok (ws, b) → ∀ w ∈ ws, MenuWrite w
  alike : ∀ d d', Alike id d d' → s.run d = s.run d'

lemma menuWrite_dinners (l : List (RowWrite Dinner)) : ∀ w ∈ l.map Write.dinner, MenuWrite w := by
  intro w hw
  obtain ⟨_, -, rfl⟩ := List.mem_map.mp hw
  trivial

lemma Alike.dinnersOf (h : Alike id d d') : Sql.dinnersOf d' id = Sql.dinnersOf d id := by
  rw [Sql.dinnersOf, h.dinners, Sql.dinnersOf]

lemma calm_shiftDinners (t : String) : Calm id Unit (shiftDinners pg t id) := by
  refine ⟨nofun, nofun, fun d ws b h => ?_, fun d d' h => ?_⟩
  · obtain ⟨_, -, h⟩ := exists_of_bind h
    cases h
    exact menuWrite_dinners _
  · simp only [shiftDinners, h.dinnersOf]

lemma calm_computeEnd (e s' s : String) : Calm id String (computeEnd pg e s' s) := by
  refine ⟨nofun, nofun, fun d ws b h => ?_, fun _ _ _ => rfl⟩
  obtain ⟨_, -, h⟩ := exists_of_bind h
  obtain ⟨_, -, h⟩ := exists_of_bind h
  obtain ⟨_, -, h⟩ := exists_of_bind h
  cases h
  simp

lemma calm_computeIsoWeek (s : String) : Calm id String (computeIsoWeek pg s) := by
  refine ⟨nofun, nofun, fun d ws b h => ?_, fun _ _ _ => rfl⟩
  obtain ⟨_, -, h⟩ := exists_of_bind h
  cases h
  simp

lemma calm_truncateDinners (e : String) : Calm id Unit (truncateDinners pg id e) := by
  refine ⟨nofun, nofun, fun d ws b h => ?_, fun d d' h => ?_⟩
  · obtain ⟨_, -, h⟩ := exists_of_bind h
    cases h
    intro w hw
    rcases List.mem_append.mp hw with hw | hw <;> obtain ⟨_, -, rfl⟩ := List.mem_map.mp hw <;> trivial
  · simp only [truncateDinners, deleteDinners, dinnersAfter, ratingsOf, h.dinnersOf, h.ratings]
    rfl

lemma Alike.references (h : Alike id d d') (column : String) :
    Sql.references d'.weeks column id = Sql.references d.weeks column id := by
  have := congrArg Option.isSome h.dates
  rw [storedDates, storedDates, Option.isSome_map, Option.isSome_map] at this
  rw [Sql.references, this, Sql.references]

lemma calm_addEmptySlots (e e' : String) : Calm id Unit (addEmptySlots pg id e e') := by
  refine ⟨nofun, nofun, fun d ws b h => ?_, fun d d' h => ?_⟩
  · obtain ⟨_, -, h⟩ := exists_of_bind h
    obtain ⟨_, -, h⟩ := exists_of_bind h
    simp only at h
    split_ifs at h
    · cases h
      simp
    · obtain ⟨_, -, h⟩ := exists_of_bind h
      cases h
      exact menuWrite_dinners _
  · simp only [addEmptySlots, emptySlots, h.dinners, h.references]
    rfl

/-! ### Before the update -/

/-- The patch carries no date but those the plan has. -/
def Still (p : WeekPatch) (cs ce : String) : Prop :=
  (p.startDate = none ∨ p.startDate = some cs) ∧ (p.endDate = none ∨ p.endDate = some ce)

instance (p : WeekPatch) (cs ce : String) : Decidable (Still p cs ce) := by
  unfold Still; infer_instance

/-- The update sets the dates of the patch; the end it sets is another one only when the start
moves. -/
def Sends (p : WeekPatch) (cs : String) (u : WeekUpdate) : Prop :=
  u.startDate = p.startDate ∧
    (p.startDate = none ∨ p.startDate = some cs → u.endDate = p.endDate)

/-- From the dates it has read to the update. -/
def prepare (pg : Pg) (id : ℤ) (p : WeekPatch) (cs ce : String) : Tx Resp WeekUpdate := do
  let s ← startShift pg id p cs ce
  endResize pg id s.patch s.curStart s.curEnd
  pure s.patch.toUpdate

lemma patchTx_eq (pg : Pg) (now id : ℤ) (p : WeekPatch) : patchTx pg now id p =
    Tx.stmt (weekDates id) (fun _ => internalError) fun
      | none => Tx.fail notFound
      | some (cs, ce) => prepare pg id p cs ce >>= saveWeek pg now id := by
  rw [patchTx]
  refine congrArg (Tx.stmt (weekDates id) fun _ => internalError) (funext fun o => ?_)
  rcases o with _ | ⟨cs, ce⟩
  · rfl
  · change _ = prepare pg id p cs ce >>= saveWeek pg now id
    rw [prepare, Tx.bind_assoc]
    refine congrArg (Tx.bind (startShift pg id p cs ce)) (funext fun s => ?_)
    rw [Tx.bind_assoc]
    rfl

lemma prepare_still {cs ce : String} (h : Still p cs ce) :
    prepare pg id p cs ce = pure p.toUpdate := by
  have hs : startShift pg id p cs ce = pure ⟨p, cs, ce⟩ := by
    rw [startShift]
    rcases h.1 with h | h <;> simp [h]
  have he : endResize pg id p cs ce = pure () := by
    rw [endResize]
    rcases h.2 with h | h <;> simp [h]
  rw [prepare, hs]
  show (endResize pg id p cs ce >>= _) = _
  rw [he]
  rfl

section

variable {C : ∀ β : Type, Stmt β → Prop}

lemma query_forall {β : Type} {s : Stmt β} (h : C β s) (f : DbError → Resp) :
    (Tx.query s f).Forall C fun _ => True := ⟨h, fun _ => trivial⟩

lemma endResize_forall (htruncate : ∀ e, C Unit (truncateDinners pg id e))
    (hslots : ∀ e e', C Unit (addEmptySlots pg id e e')) (p : WeekPatch) (cs ce : String) :
    (endResize pg id p cs ce).Forall C fun _ => True := by
  rw [endResize]
  split
  · trivial
  · split_ifs
    · trivial
    · trivial
    · exact query_forall (htruncate _) _
    · exact query_forall (hslots _ _) _
    · trivial

lemma slideEnd_forall (hend : ∀ e s' s, C String (computeEnd pg e s' s)) (p : WeekPatch)
    (t cs ce : String) : (slideEnd pg p t cs ce).Forall C fun _ => True := by
  rw [slideEnd]
  split
  · trivial
  · exact (query_forall (hend _ _ _) _).bind fun _ _ => trivial

lemma newIsoWeek_forall (hiso : ∀ s, C String (computeIsoWeek pg s)) (p : WeekPatch)
    (t : String) : (newIsoWeek pg p t).Forall C fun _ => True := by
  rw [newIsoWeek]
  split
  · trivial
  · exact query_forall (hiso _) _

lemma startShift_forall (hshift : ∀ t, C Unit (shiftDinners pg t id))
    (hend : ∀ e s' s, C String (computeEnd pg e s' s))
    (hiso : ∀ s, C String (computeIsoWeek pg s)) (p : WeekPatch) (cs ce : String) :
    (startShift pg id p cs ce).Forall C fun s => Sends p cs s.patch.toUpdate := by
  rw [startShift]
  split
  · exact ⟨rfl, fun _ => rfl⟩
  · rename_i t ht
    split_ifs with hcs
    · exact ⟨rfl, fun _ => rfl⟩
    · refine (query_forall (hshift t) _).bind fun _ _ => ?_
      refine (slideEnd_forall hend p t cs ce).bind fun ends _ => ?_
      refine (newIsoWeek_forall hiso p t).bind fun iso _ => ?_
      exact ⟨rfl, fun h => absurd h (by simp [ht, hcs])⟩

/-- **Before its update** a patch sends statements of five kinds only, and then the dates it
carries. -/
theorem prepare_forall (hshift : ∀ t, C Unit (shiftDinners pg t id))
    (hend : ∀ e s' s, C String (computeEnd pg e s' s))
    (hiso : ∀ s, C String (computeIsoWeek pg s))
    (htruncate : ∀ e, C Unit (truncateDinners pg id e))
    (hslots : ∀ e e', C Unit (addEmptySlots pg id e e')) (p : WeekPatch) (cs ce : String) :
    (prepare pg id p cs ce).Forall C (Sends p cs) :=
  (startShift_forall hshift hend hiso p cs ce).bind fun _ hs =>
    (endResize_forall htruncate hslots _ _ _).bind fun _ _ => hs

end

lemma prepare_calm (pg : Pg) (id : ℤ) (p : WeekPatch) (cs ce : String) :
    (prepare pg id p cs ce).Forall (Calm id) (Sends p cs) :=
  prepare_forall calm_shiftDinners calm_computeEnd calm_computeIsoWeek calm_truncateDinners
    calm_addEmptySlots p cs ce

/-! ### The update -/

lemma storedDates_put (ws : List Write) (hid : w'.id = id) :
    storedDates id (applyAll d (ws ++ [.week (.put w')])) =
      some (text w'.startDate, text w'.endDate) := by
  rw [applyAll_append, storedDates]
  show Option.map _ ((applyAll d ws).weeks.put w' |>.find? id) = _
  rw [Table.find?_put, key_week, if_pos hid.symm]
  rfl

/-- A date that is sent as it is stored stays. -/
lemma dateSet_same {v : Option String} {cur new : ℤ} (h : DateSet pg v cur new)
    (hv : v = none ∨ v = some (text cur)) : new = cur := by
  rcases hv with rfl | rfl
  · exact h
  · simpa using h.2.symm

lemma dates_of_still {cs ce : String} {u : WeekUpdate} (hu : Updated pg now u w w')
    (hsend : Sends p cs u) (hp : Still p cs ce) (hw : (text w.startDate, text w.endDate) = (cs, ce)) :
    (text w'.startDate, text w'.endDate) = (cs, ce) := by
  obtain ⟨rfl, rfl⟩ := Prod.mk.inj hw
  have hs := dateSet_same hu.startDate (hsend.1 ▸ hp.1)
  have he := dateSet_same hu.endDate (hsend.2 hp.1 ▸ hp.2)
  rw [hs, he]

/-- A date that is sent and is not the stored one moves. -/
lemma dates_of_moving {cs ce : String} {u : WeekUpdate} (hs : dateOk p.startDate = true)
    (he : dateOk p.endDate = true) (hu : Updated pg now u w w') (hsend : Sends p cs u)
    (hp : ¬Still p cs ce) : (text w'.startDate, text w'.endDate) ≠ (cs, ce) := by
  -- a stored date reads back as the text that was sent
  have back {v : Option String} {cur new : ℤ} (hv : dateOk v = true) (h : DateSet pg v cur new) :
      v = none ∨ v = some (text new) := by
    cases v with
    | none => exact Or.inl rfl
    | some t =>
      exact Or.inr (congrArg some (pg.castDate_shape (by simpa [dateOk] using hv) h.2).1)
  intro h
  obtain ⟨rfl, rfl⟩ := Prod.mk.inj h
  have hstart := back hs (hsend.1 ▸ hu.startDate)
  exact hp ⟨hstart, back he (hsend.2 hstart ▸ hu.endDate)⟩

lemma carries_of_moving {cs ce : String} (hp : ¬Still p cs ce) :
    p.startDate.isSome || p.endDate.isSome := by
  by_contra h
  simp only [Bool.or_eq_true, not_or, Option.not_isSome_iff_eq_none] at h
  exact hp ⟨Or.inl h.1, Or.inl h.2⟩

end Veckomenyn.PatchSteps
