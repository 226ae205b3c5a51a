import Veckomenyn.Schema

/-!
What the SQL of the program rests on.

`Pg` is the part of Postgres the model does not define: the casts from text and the text
of a timestamp. A cast of a well-shaped date is pinned down, since the code validates the
shape before it sends the text; on any other text the cast is left open. The labels name
the statements, so that a schedule can be watched.
-/

namespace Veckomenyn.Sql

open Rows DateText Schema Txn

/-- Postgres' casts. -/
structure Pg where
  castDate : String → Option ℤ
  castJsonb : String → Option String
  timestampText : ℤ → String
  castDate_of_parse {s : String} {d : ℤ} : parseDate s = some d → castDate s = some d
  castDate_of_shape {s : String} : isoShape s.toList = true → parseDate s = none → castDate s = none
  castJsonb_object : castJsonb "\x7b\x7d" = some "\x7b\x7d"
  castJsonb_array : castJsonb "[]" = some "[]"

namespace Pg

/-- Casts that take what Postgres prints and nothing else. -/
def plain : Pg where
  castDate := parseDate
  castJsonb := some
  timestampText t := toString t
  castDate_of_parse := id
  castDate_of_shape _ := id
  castJsonb_object := rfl
  castJsonb_array := rfl

variable (pg : Pg)

@[simp] lemma castDate_text (d : ℤ) : pg.castDate (text d) = some d :=
  pg.castDate_of_parse (parseDate_text d)

/-- A well-shaped text that casts is the text of a day of a four-digit year. -/
lemma castDate_shape {s : String} {d : ℤ} (hs : isoShape s.toList = true)
    (h : pg.castDate s = some d) : s = text d ∧ FourDigit d := by
  rcases hp : parseDate s with _ | d'
  · rw [pg.castDate_of_shape hs hp] at h
    cases h
  · rw [pg.castDate_of_parse hp, Option.some.injEq] at h
    exact text_of_parseDate hs (h ▸ hp)

end Pg

/-- `brokenOff` says how many rows of a result have come before reading it has failed. -/
inductive DbError where
  | badDate (s : String)
  | badJson (s : String)
  | outOfRange (column : String)
  | notNull (column : String)
  | check (constraint : String)
  | foreignKey (column : String)
  | brokenOff (rows : ℕ)
deriving DecidableEq, Repr

def DbError.rowsRead : DbError → ℕ
  | .brokenOff rows => rows
  | _ => 0

/-- The statements, by what they do. -/
inductive Label where
  | weekDates
  | shiftDinners
  | computeEnd
  | computeIsoWeek
  | truncateDinners
  | addEmptySlots
  | updateWeek
  | cloneTarget
  | cloneDinners
  | padDays
  | weekByIso
  | dinnerWeek
  | weekStatus
  | exceptionWeek
  | insertWeek
  | insertDish
  | insertDinner
  | dinnerDay
  | repointDinner
  | deleteDinner
  | insertException
  | updateException
  | deleteException
  | insertRetrospective
  | upsertRating
  | deletePrinciple
  | insertPrinciple
  | updateSettings
  | insertCartItem
  | deleteCartItems
  | read
deriving DecidableEq, Repr

abbrev Stmt (β : Type) := Txn.Stmt Db Write DbError Label β

abbrev Tx (ε α : Type) := Txn.Tx Db Write DbError Label ε α

abbrev Prog (Q : Type) (A : Q → Type) (ε α : Type) := Txn.Prog Db Write DbError Label Q A ε α

/-- A program that asks nothing of the outside world, run on a database. -/
def perform {ε α : Type} (x : Prog Empty Empty.elim ε α) (d : Db) : Except ε α × Db :=
  let r := x.run (fun q => q.elim) (d, ())
  (r.1, r.2.1)

def date (pg : Pg) (s : String) : Except DbError ℤ :=
  match pg.castDate s with
  | some d => .ok d
  | none => .error (.badDate s)

def jsonb (pg : Pg) (s : String) : Except DbError String :=
  match pg.castJsonb s with
  | some j => .ok j
  | none => .error (.badJson s)

/-- A value bound to an `INT` column. -/
def int4 (column : String) (n : ℤ) : Except DbError ℤ :=
  if -2147483648 ≤ n ∧ n ≤ 2147483647 then .ok n else .error (.outOfRange column)

/-- The `REFERENCES` of a row about to be stored. -/
def references {α : Type} [Keyed α] (t : Table α) (column : String) (k : ℤ) : Except DbError Unit :=
  if (t.find? k).isSome then .ok () else .error (.foreignKey column)

/-- A `SELECT`. -/
def select {β : Type} (label : Label) (f : Db → β) : Stmt β := ⟨label, fun d => .ok ([], f d)⟩

@[simp] lemma select_run {β : Type} (label : Label) (f : Db → β) (d : Db) :
    (select label f).run d = .ok ([], f d) := rfl

lemma inside_select {β ε : Type} (label : Label) (f : Db → β) (fail : DbError → ε) (d : Db) :
    (Tx.query (select label f) fail).inside d = (.ok (f d), d) :=
  Tx.inside_query_ok (select_run label f d)

lemma references_of_find {α : Type} [Keyed α] {t : Table α} {k : ℤ} {r : α}
    (h : t.find? k = some r) (column : String) : references t column k = .ok () := by
  rw [references, h]
  rfl

lemma date_of_cast {pg : Pg} {s : String} {d : ℤ} (h : pg.castDate s = some d) :
    date pg s = .ok d := by rw [date, h]

@[simp] lemma date_text (pg : Pg) (d : ℤ) : date pg (text d) = .ok d :=
  date_of_cast (pg.castDate_text d)

/-! ### Writes to one relation -/

@[simp] lemma applyAll_weeks (d : Db) (ws : List (RowWrite Week)) :
    applyAll d (ws.map Write.week) = { d with weeks := d.weeks.applyAll ws } := by
  induction ws generalizing d with
  | nil => rfl
  | cons w ws ih => exact ih _

@[simp] lemma applyAll_dinners (d : Db) (ws : List (RowWrite Dinner)) :
    applyAll d (ws.map Write.dinner) = { d with dinners := d.dinners.applyAll ws } := by
  induction ws generalizing d with
  | nil => rfl
  | cons w ws ih => exact ih _

@[simp] lemma applyAll_exceptions (d : Db) (ws : List (RowWrite WeekException)) :
    applyAll d (ws.map Write.exception) = { d with exceptions := d.exceptions.applyAll ws } := by
  induction ws generalizing d with
  | nil => rfl
  | cons w ws ih => exact ih _

@[simp] lemma applyAll_retrospectives (d : Db) (ws : List (RowWrite Retrospective)) :
    applyAll d (ws.map Write.retrospective) =
      { d with retrospectives := d.retrospectives.applyAll ws } := by
  induction ws generalizing d with
  | nil => rfl
  | cons w ws ih => exact ih _

@[simp] lemma applyAll_ratings (d : Db) (ws : List (RowWrite Rating)) :
    applyAll d (ws.map Write.rating) = { d with ratings := d.ratings.applyAll ws } := by
  induction ws generalizing d with
  | nil => rfl
  | cons w ws ih => exact ih _

@[simp] lemma applyAll_cartItems (d : Db) (ws : List (RowWrite CartItem)) :
    applyAll d (ws.map Write.cartItem) = { d with cartItems := d.cartItems.applyAll ws } := by
  induction ws generalizing d with
  | nil => rfl
  | cons w ws ih => exact ih _

@[simp] lemma applyAll_principles (d : Db) (ws : List (RowWrite Principle)) :
    applyAll d (ws.map Write.principle) = { d with principles := d.principles.applyAll ws } := by
  induction ws generalizing d with
  | nil => rfl
  | cons w ws ih => exact ih _

/-- Two databases with the same rows; their identity counters may differ. -/
structure SameRows (d d' : Db) : Prop where
  weeks : d'.weeks.rows = d.weeks.rows
  dinners : d'.dinners.rows = d.dinners.rows
  exceptions : d'.exceptions.rows = d.exceptions.rows
  retrospectives : d'.retrospectives.rows = d.retrospectives.rows
  ratings : d'.ratings.rows = d.ratings.rows
  cartItems : d'.cartItems.rows = d.cartItems.rows
  dishes : d'.dishes.rows = d.dishes.rows
  principles : d'.principles.rows = d.principles.rows
  settings : d'.settings = d.settings

lemma SameRows.refl (d : Db) : SameRows d d := ⟨rfl, rfl, rfl, rfl, rfl, rfl, rfl, rfl, rfl⟩

lemma SameRows.trans {a b c : Db} (h : SameRows a b) (h' : SameRows b c) : SameRows a c :=
  ⟨h'.weeks.trans h.weeks, h'.dinners.trans h.dinners, h'.exceptions.trans h.exceptions,
    h'.retrospectives.trans h.retrospectives, h'.ratings.trans h.ratings,
    h'.cartItems.trans h.cartItems, h'.dishes.trans h.dishes, h'.principles.trans h.principles,
    h'.settings.trans h.settings⟩

/-- Raised counters leave the rows alone. -/
lemma sameRows_reserveAll (d : Db) (ws : List Write) : SameRows d (reserveAll d ws) := by
  have hr {α : Type} [Keyed α] (t : Table α) (w : RowWrite α) : (t.reserveFor w).rows = t.rows := by
    cases w <;> rfl
  induction ws generalizing d with
  | nil => exact SameRows.refl d
  | cons w ws ih =>
    have h : SameRows d (Db.reserve d w) := by
      cases w <;> constructor <;> simp [Db.reserve, hr]
    exact h.trans (ih _)

lemma SameRows.symm {d d' : Db} (h : SameRows d d') : SameRows d' d :=
  ⟨h.weeks.symm, h.dinners.symm, h.exceptions.symm, h.retrospectives.symm, h.ratings.symm,
    h.cartItems.symm, h.dishes.symm, h.principles.symm, h.settings.symm⟩

/-- Identities may be reserved before or after the writes. -/
lemma applyAll_reserveAll (d : Db) (us ws : List Write) :
    applyAll (reserveAll d us) ws = reserveAll (applyAll d ws) us := by
  have step (d : Db) (v w : Write) :
      Database.apply (Database.reserve d v) w = Database.reserve (Database.apply d w) v := by
    cases v <;> cases w <;>
      first
        | rfl
        | simp only [Database.apply, Database.reserve, Db.apply, Db.reserve, Table.apply_reserveFor]
  have stmt (d : Db) (v : Write) (ws : List Write) :
      applyAll (Database.reserve d v) ws = Database.reserve (applyAll d ws) v := by
    induction ws generalizing d with
    | nil => rfl
    | cons w ws ih => rw [applyAll_cons, step, ih, applyAll_cons]
  induction us generalizing d with
  | nil => rfl
  | cons u us ih => rw [reserveAll_cons, ih, stmt, reserveAll_cons]

/-! ### Plans -/

/-- `ORDER BY day_date, sort_order, id`. -/
def Before (a b : Dinner) : Prop :=
  a.dayDate < b.dayDate ∨ a.dayDate = b.dayDate ∧
    (a.sortOrder < b.sortOrder ∨ a.sortOrder = b.sortOrder ∧ a.id ≤ b.id)

instance : DecidableRel Before := fun a b => by unfold Before; infer_instance

def dinnersOf (d : Db) (id : ℤ) : List Dinner := d.dinners.rows.filter fun r => r.weekId = id

/-- A row of `week_dinners` whose other columns have their defaults. -/
def emptySlot (weekId day id : ℤ) : Dinner := ⟨id, weekId, day, none, 4, "\x7b\x7d", "", 0⟩

/-- The ratings of these dinners. -/
def ratingsOf (d : Db) (dinners : List ℤ) : List ℤ :=
  (d.ratings.rows.filter fun r => r.weekDinnerId ∈ dinners).map Rating.id

/-- A `DELETE` of dinners takes their ratings along (`ON DELETE CASCADE`). -/
def deleteDinners (d : Db) (dinners : List ℤ) : List Write :=
  (dinners.map .del).map .dinner ++ ((ratingsOf d dinners).map .del).map .rating

lemma mem_dinnersOf {d : Db} {id : ℤ} {r : Dinner} :
    r ∈ dinnersOf d id ↔ r ∈ d.dinners.rows ∧ r.weekId = id := by
  simp [dinnersOf]

/-- The `REFERENCES` of the schema hold. -/
structure ForeignKeys (d : Db) : Prop where
  dinnerWeek : ∀ r ∈ d.dinners.rows, d.weeks.Has r.weekId
  dinnerDish : ∀ r ∈ d.dinners.rows, ∀ k ∈ r.dishId, d.dishes.Has k
  exceptionWeek : ∀ r ∈ d.exceptions.rows, d.weeks.Has r.weekId
  retrospectiveWeek : ∀ r ∈ d.retrospectives.rows, d.weeks.Has r.weekId
  ratingDinner : ∀ r ∈ d.ratings.rows, d.dinners.Has r.weekDinnerId
  cartItemWeek : ∀ r ∈ d.cartItems.rows, ∀ k ∈ r.weekId, d.weeks.Has k

lemma SameRows.foreignKeys {d d' : Db} (h : SameRows d d') (hf : ForeignKeys d) :
    ForeignKeys d' := by
  obtain ⟨h1, h2, h3, h4, h5, h6, h7, -, -⟩ := h
  obtain ⟨f1, f2, f3, f4, f5, f6⟩ := hf
  constructor <;> simp only [Table.Has, h1, h2, h3, h4, h5, h6, h7] <;> assumption

lemma SameRows.dinnersOf {d d' : Db} (h : SameRows d d') (id : ℤ) :
    Sql.dinnersOf d' id = Sql.dinnersOf d id := by
  rw [Sql.dinnersOf, h.dinners, Sql.dinnersOf]

lemma SameRows.findWeek {d d' : Db} (h : SameRows d d') (id : ℤ) :
    d'.weeks.find? id = d.weeks.find? id := by
  rw [Table.find?, h.weeks, Table.find?]

lemma nodup_dinnersOf (d : Db) (id : ℤ) : ((dinnersOf d id).map Dinner.id).Nodup :=
  d.dinners.nodup.sublist ((List.filter_sublist).map _)

end Veckomenyn.Sql
