import Mathlib.Algebra.Order.Ring.Rat
import Veckomenyn.DateText
import Veckomenyn.Rows
import Veckomenyn.Txn

/-!
The tables the plans live in, and the writes statements make to them.

A `Db` holds one table for each relation the code writes; columns no modelled statement
reads (`created_at` of a plan, of a dinner) are left out. Postgres itself enters through
`Pg`: how it casts the text of a date or of a JSON document. Days are counted from
0001-01-01, timestamps are integers.
-/

namespace Veckomenyn.Schema

open Rows DateText

inductive Status where
  | draft
  | cartBuilt
  | ordered
deriving DecidableEq, Repr

namespace Status

def text : Status → String
  | draft => "draft"
  | cartBuilt => "cart_built"
  | ordered => "ordered"

/-- `weeks_status_check`. -/
def ofText (s : String) : Option Status := [draft, cartBuilt, ordered].find? fun x => x.text = s

lemma text_of_ofText {s : String} {x : Status} (h : ofText s = some x) : x.text = s := by
  simpa using List.find?_some h

lemma text_eq_draft {s : Status} : s.text = "draft" ↔ s = draft := by
  cases s <;> decide

end Status

inductive Verdict where
  | loved
  | liked
  | meh
  | disliked
deriving DecidableEq, Repr

namespace Verdict

def text : Verdict → String
  | loved => "loved"
  | liked => "liked"
  | meh => "meh"
  | disliked => "disliked"

def ofText (s : String) : Option Verdict :=
  [loved, liked, meh, disliked].find? fun x => x.text = s

end Verdict

/-! ### Rows -/

structure Week where
  id : ℤ
  isoWeek : String
  startDate : ℤ
  endDate : ℤ
  deliveryDate : Option ℤ
  orderDate : Option ℤ
  status : Status
  notesMd : String
  updatedAt : ℤ
deriving DecidableEq, Repr

structure Dinner where
  id : ℤ
  weekId : ℤ
  dayDate : ℤ
  dishId : Option ℤ
  servings : ℤ
  sourcing : String
  notes : String
  sortOrder : ℤ
deriving DecidableEq, Repr

/-- A row of `week_exceptions`. -/
structure WeekException where
  id : ℤ
  weekId : ℤ
  kind : String
  description : String
deriving DecidableEq, Repr

structure Retrospective where
  id : ℤ
  weekId : ℤ
  notesMd : String
  createdAt : ℤ
deriving DecidableEq, Repr

structure Rating where
  id : ℤ
  weekDinnerId : ℤ
  rating : Option Verdict
  notes : String
deriving DecidableEq, Repr

/-- What `product_snapshot_json` holds when it is not the empty object. -/
structure Snapshot where
  name : String
  unitPrice : ℚ
  lineTotal : ℚ
deriving DecidableEq

structure CartItem where
  id : ℤ
  weekId : Option ℤ
  productCode : String
  qty : ℚ
  reasonMd : String
  addedAt : ℤ
  committed : Bool
  snapshot : Option Snapshot
deriving DecidableEq

structure Dish where
  id : ℤ
  name : String
  cuisine : Option String
  recipeMd : String
  servings : ℤ
  tags : String
  lastMadeAt : Option ℤ
deriving DecidableEq, Repr

/-- A row of `cooking_principles`. -/
structure Principle where
  id : ℤ
  category : String
  bodyMd : String
deriving DecidableEq, Repr

/-- The row of `household_settings`. -/
structure Settings where
  defaultDinners : ℤ
  defaultDeliveryWeekday : ℤ
  defaultOrderOffsetDays : ℤ
  defaultServings : ℤ
  language : String
  llmProvider : String
  notesMd : String
deriving DecidableEq, Repr

instance : Keyed Week := ⟨Week.id⟩
instance : Keyed Dinner := ⟨Dinner.id⟩
instance : Keyed WeekException := ⟨WeekException.id⟩
instance : Keyed Retrospective := ⟨Retrospective.id⟩
instance : Keyed Rating := ⟨Rating.id⟩
instance : Keyed CartItem := ⟨CartItem.id⟩
instance : Keyed Dish := ⟨Dish.id⟩
instance : Keyed Principle := ⟨Principle.id⟩

@[simp] lemma key_week (r : Week) : Keyed.key r = r.id := rfl
@[simp] lemma key_dinner (r : Dinner) : Keyed.key r = r.id := rfl
@[simp] lemma key_exception (r : WeekException) : Keyed.key r = r.id := rfl
@[simp] lemma key_retrospective (r : Retrospective) : Keyed.key r = r.id := rfl
@[simp] lemma key_rating (r : Rating) : Keyed.key r = r.id := rfl
@[simp] lemma key_cartItem (r : CartItem) : Keyed.key r = r.id := rfl
@[simp] lemma key_dish (r : Dish) : Keyed.key r = r.id := rfl
@[simp] lemma key_principle (r : Principle) : Keyed.key r = r.id := rfl

/-! ### The database -/

@[ext] structure Db where
  weeks : Table Week
  dinners : Table Dinner
  exceptions : Table WeekException
  retrospectives : Table Retrospective
  ratings : Table Rating
  cartItems : Table CartItem
  dishes : Table Dish
  principles : Table Principle
  settings : Settings

inductive Write where
  | week (w : RowWrite Week)
  | dinner (w : RowWrite Dinner)
  | exception (w : RowWrite WeekException)
  | retrospective (w : RowWrite Retrospective)
  | rating (w : RowWrite Rating)
  | cartItem (w : RowWrite CartItem)
  | dish (w : RowWrite Dish)
  | principle (w : RowWrite Principle)
  | settings (s : Settings)

inductive Relation where
  | weeks
  | dinners
  | exceptions
  | retrospectives
  | ratings
  | cartItems
  | dishes
  | principles
  | settings
deriving DecidableEq, Repr

namespace Write

/-- The row a write locks. -/
def row : Write → Relation × ℤ
  | week w => (.weeks, w.key)
  | dinner w => (.dinners, w.key)
  | exception w => (.exceptions, w.key)
  | retrospective w => (.retrospectives, w.key)
  | rating w => (.ratings, w.key)
  | cartItem w => (.cartItems, w.key)
  | dish w => (.dishes, w.key)
  | principle w => (.principles, w.key)
  | settings _ => (.settings, 1)

end Write

namespace Db

def apply (d : Db) : Write → Db
  | .week w => { d with weeks := d.weeks.apply w }
  | .dinner w => { d with dinners := d.dinners.apply w }
  | .exception w => { d with exceptions := d.exceptions.apply w }
  | .retrospective w => { d with retrospectives := d.retrospectives.apply w }
  | .rating w => { d with ratings := d.ratings.apply w }
  | .cartItem w => { d with cartItems := d.cartItems.apply w }
  | .dish w => { d with dishes := d.dishes.apply w }
  | .principle w => { d with principles := d.principles.apply w }
  | .settings s => { d with settings := s }

def reserve (d : Db) : Write → Db
  | .week w => { d with weeks := d.weeks.reserveFor w }
  | .dinner w => { d with dinners := d.dinners.reserveFor w }
  | .exception w => { d with exceptions := d.exceptions.reserveFor w }
  | .retrospective w => { d with retrospectives := d.retrospectives.reserveFor w }
  | .rating w => { d with ratings := d.ratings.reserveFor w }
  | .cartItem w => { d with cartItems := d.cartItems.reserveFor w }
  | .dish w => { d with dishes := d.dishes.reserveFor w }
  | .principle w => { d with principles := d.principles.reserveFor w }
  | .settings _ => d

end Db

instance : Txn.Database Db Write (Relation × ℤ) where
  apply := Db.apply
  key := Write.row
  reserve := Db.reserve
  reserve_apply d w := by
    cases w <;> simp [Db.apply, Db.reserve, Table.reserveFor_apply]
  reserve_stays {d w} v h := by
    cases w <;> cases v <;>
      simp_all [Db.apply, Db.reserve, Table.reserveFor_stays, Db.ext_iff]

end Veckomenyn.Schema
