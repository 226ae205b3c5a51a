import Veckomenyn.Latest
import Veckomenyn.Tools

/-!
The migration after which a dinner has one rating.

Before it every rating of a retrospective was a row of its own, and all that one transaction
wrote has one time. The migration keeps the newest row of each dinner and has an index see to it
that there is no other; the server does not start when it fails.
-/

namespace Veckomenyn.RatingMigration

open Rows Schema Sql Tools Latest

/-- A row of `dish_ratings`, as the first migration made them. -/
structure DishRating where
  id : ℤ
  weekDinnerId : ℤ
  rating : Option Verdict
  notes : String
  createdAt : ℤ
deriving DecidableEq, Repr

instance : Keyed DishRating := ⟨DishRating.id⟩

/-! ### Before -/

/-- The tables of the ratings and of what they are about. -/
structure Old where
  dinners : Table Dinner
  ratings : Table DishRating

namespace Old

def empty : Old := ⟨Table.empty, Table.empty⟩

/-- The `INSERT`s of a transaction; an error is the table with the identities it has drawn. -/
def insertRatings (dinners : Table Dinner) (now : ℤ) :
    List RatingInput → Table DishRating → Except (Table DishRating) (Table DishRating)
  | [], t => .ok t
  | i :: is, t =>
    match Verdict.ofText i.rating, dinners.find? i.dinnerId with
    | some v, some _ =>
      insertRatings dinners now is (t.put ⟨t.next, i.dinnerId, some v, i.notes, now⟩)
    | _, _ => .error (t.reserve (t.next + 1))

/-- The ratings of a retrospective, in a transaction begun at `now`. -/
def rate (s : Old) (now : ℤ) (ratings : List RatingInput) : Old :=
  match insertRatings s.dinners now ratings s.ratings with
  | .ok t => { s with ratings := t }
  | .error t => { s with ratings := s.ratings.reserve t.next }

/-- The ratings go with their dinners (`ON DELETE CASCADE`). -/
def deleteDinners (s : Old) (ids : List ℤ) : Old where
  dinners := s.dinners.applyAll (ids.map .del)
  ratings := s.ratings.applyAll
    (((s.ratings.rows.filter fun r => r.weekDinnerId ∈ ids).map DishRating.id).map .del)

end Old

inductive Change where
  | addDinner (dinner : Dinner)
  | deleteDinners (ids : List ℤ)
  | rate (now : ℤ) (ratings : List RatingInput)

namespace Old

def change (s : Old) : Change → Old
  | .addDinner dinner => { s with dinners := s.dinners.put { dinner with id := s.dinners.next } }
  | .deleteDinners ids => s.deleteDinners ids
  | .rate now ratings => s.rate now ratings

def changed (cs : List Change) : Old := cs.foldl change empty

end Old

/-! ### The migration -/

/-- `DELETE FROM dish_ratings a USING dish_ratings b`: `a` goes when a `b` of the dinner is later. -/
def deleteOlder (t : Table DishRating) : Table DishRating :=
  t.applyAll (((t.rows.filter fun a => ∃ b ∈ t.rows, a.weekDinnerId = b.weekDinnerId ∧
    a.createdAt < b.createdAt).map DishRating.id).map .del)

inductive MigrationError where
  | notUnique (index : String)
deriving DecidableEq, Repr

def createUniqueIndex (t : Table DishRating) : Except MigrationError Unit :=
  if (t.rows.map DishRating.weekDinnerId).Nodup then .ok ()
  else .error (.notUnique "dish_ratings_week_dinner_id_key")

/-- The migration is one transaction. -/
def up (t : Table DishRating) : Except MigrationError Unit × Table DishRating :=
  match createUniqueIndex (deleteOlder t) with
  | .ok () => (.ok (), deleteOlder t)
  | .error e => (.error e, t)

/-! ### What it leaves -/

/-- What the migration is for: each dinner that was rated has one rating left, which is none older
than another of its, and the index is made. -/
structure Collapses (t : Table DishRating) : Prop where
  one (r : DishRating) (hr : r ∈ t.rows) : ∃ x ∈ t.rows,
    (∀ y ∈ t.rows, y.weekDinnerId = r.weekDinnerId → y.createdAt ≤ x.createdAt) ∧
      ((deleteOlder t).rows.filter fun y => y.weekDinnerId = r.weekDinnerId) = [x]
  index : up t = (.ok (), deleteOlder t)

variable {t : Table DishRating}

lemma rows_deleteOlder (t : Table DishRating) :
    (deleteOlder t).rows = collapse DishRating.weekDinnerId DishRating.createdAt t.rows := by
  unfold deleteOlder
  refine (t.rows_del_filter _).trans (List.filter_congr fun a _ => ?_)
  rw [decide_not]
  rfl

lemma up_ok_iff : up t = (.ok (), deleteOlder t) ↔
    ((deleteOlder t).rows.map DishRating.weekDinnerId).Nodup := by
  unfold up createUniqueIndex
  split_ifs with h <;> simp [h]

/-- **The migration**: it leaves each dinner one rating, and ends well, exactly when no dinner has
two ratings at the time of its newest. -/
theorem collapses_iff (t : Table DishRating) :
    Collapses t ↔ Untied DishRating.weekDinnerId DishRating.createdAt t.rows := by
  have hn : t.rows.Nodup := t.nodup.of_map _
  have hrows := rows_deleteOlder t
  have hnodup := nodup_collapse_iff DishRating.weekDinnerId DishRating.createdAt hn
  constructor
  · intro h
    rw [← hnodup, ← hrows]
    exact up_ok_iff.mp h.index
  · intro h
    rw [← hnodup, ← hrows] at h
    refine ⟨fun r hr => ?_, up_ok_iff.mpr h⟩
    obtain ⟨x, hx, hkey⟩ := exists_newest DishRating.weekDinnerId DishRating.createdAt hr
    obtain ⟨hmem, hnew⟩ := mem_collapse.mp hx
    refine ⟨x, hmem, fun y hy hk => not_older_iff.mp hnew y hy (hk.trans hkey.symm), ?_⟩
    -- the rows that stay differ in their dinners, so the dinner's own is the only one
    rw [← hrows] at hx
    refine List.perm_singleton.mp ((List.perm_ext_iff_of_nodup ((h.of_map _).filter _)
      (List.nodup_singleton x)).mpr fun y => ?_)
    rw [List.mem_filter, List.mem_singleton, decide_eq_true_iff]
    constructor
    · rintro ⟨hy, hk⟩
      exact List.inj_on_of_nodup_map h hy hx (hk.trans hkey.symm)
    · rintro rfl
      exact ⟨hx, hkey⟩

/-- A dinner rated twice in one transaction. -/
def ratedTwice : Old := Old.changed [.addDinner ⟨1, 1, 739725, none, 4, "\x7b\x7d", "", 0⟩,
  .rate 0 [⟨1, "liked", ""⟩, ⟨1, "loved", ""⟩]]

/-- Its index cannot be made. -/
theorem not_collapses : ¬ Collapses ratedTwice.ratings := by
  intro h
  have herror : (up ratedTwice.ratings).1 =
      .error (.notUnique "dish_ratings_week_dinner_id_key") := by decide
  rw [h.index] at herror
  cases herror

/-! ### Transactions that rate a dinner once -/

/-- No two rows agree in dinner and time, and the times are among these. -/
structure Spread (times : List ℤ) (t : Table DishRating) : Prop where
  inj : ∀ a ∈ t.rows, ∀ b ∈ t.rows, a.weekDinnerId = b.weekDinnerId →
    a.createdAt = b.createdAt → a = b
  seen : ∀ r ∈ t.rows, r.createdAt ∈ times

lemma Spread.mono {times times' : List ℤ} {t' : Table DishRating} (h : Spread times t)
    (ht : ∀ r ∈ t'.rows, r ∈ t.rows) (hs : times ⊆ times') : Spread times' t' where
  inj a ha b hb := h.inj a (ht a ha) b (ht b hb)
  seen r hr := hs (h.seen r (ht r hr))

lemma spread_insertRatings {dinners : Table Dinner} {now : ℤ} {times : List ℤ}
    {is : List RatingInput} {t' : Table DishRating} (h : Spread (now :: times) t)
    (hn : (is.map RatingInput.dinnerId).Nodup)
    (hnew : ∀ r ∈ t.rows, r.createdAt = now → r.weekDinnerId ∉ is.map RatingInput.dinnerId)
    (hok : Old.insertRatings dinners now is t = .ok t') : Spread (now :: times) t' := by
  induction is generalizing t with
  | nil =>
    cases hok
    exact h
  | cons i is ih =>
    obtain ⟨hi, hn⟩ := List.nodup_cons.mp hn
    unfold Old.insertRatings at hok
    split at hok
    · next v _ _ _ =>
      have hrow {r : DishRating} (hr : r ∈ t.rows) (ht : r.createdAt = now) :
          r.weekDinnerId ≠ i.dinnerId ∧ r.weekDinnerId ∉ is.map RatingInput.dinnerId := by
        simpa using hnew r hr ht
      refine ih ⟨?_, ?_⟩ hn ?_ hok
      · intro a ha b hb hkey htime
        rcases Table.mem_put.mp ha with rfl | ⟨ha, -⟩ <;>
          rcases Table.mem_put.mp hb with rfl | ⟨hb, -⟩
        · rfl
        · exact absurd hkey.symm (hrow hb htime.symm).1
        · exact absurd hkey (hrow ha htime).1
        · exact h.inj a ha b hb hkey htime
      · intro r hr
        rcases Table.mem_put.mp hr with rfl | ⟨hr, -⟩
        · exact List.mem_cons_self
        · exact h.seen r hr
      · intro r hr ht
        rcases Table.mem_put.mp hr with rfl | ⟨hr, -⟩
        · exact hi
        · exact (hrow hr ht).2
    · cases hok

/-- A transaction at a new time that rates no dinner twice. -/
lemma Spread.rate {s : Old} {ts : List ℤ} {now : ℤ} {is : List RatingInput}
    (h : Spread ts s.ratings) (hnow : now ∉ ts) (hn : (is.map RatingInput.dinnerId).Nodup) :
    Spread (now :: ts) (s.rate now is).ratings := by
  have hs : Spread (now :: ts) s.ratings := h.mono (fun _ hr => hr) (List.subset_cons_self _ _)
  have hnew : ∀ r ∈ s.ratings.rows, r.createdAt = now →
      r.weekDinnerId ∉ is.map RatingInput.dinnerId :=
    fun r hr ht => absurd (ht ▸ h.seen r hr) hnow
  unfold Old.rate
  split
  · next t' hok => exact spread_insertRatings hs hn hnew hok
  · next t' _ => exact hs.mono (fun _ hr => hr) (List.Subset.refl _)

/-- The times of the transactions that rate. -/
def times : List Change → List ℤ
  | [] => []
  | .rate now _ :: cs => now :: times cs
  | _ :: cs => times cs

lemma spread_foldl {cs : List Change} {s : Old} {ts : List ℤ} (h : Spread ts s.ratings)
    (hnow : (times cs).Nodup) (hdis : ∀ now ∈ times cs, now ∉ ts)
    (honce : ∀ now is, .rate now is ∈ cs → (is.map RatingInput.dinnerId).Nodup) :
    ∃ ts', Spread ts' (cs.foldl Old.change s).ratings := by
  induction cs generalizing s ts with
  | nil => exact ⟨ts, h⟩
  | cons c cs ih =>
    have hrest : ∀ now is, Change.rate now is ∈ cs → (is.map RatingInput.dinnerId).Nodup :=
      fun now is hmem => honce now is (List.mem_cons_of_mem _ hmem)
    cases c with
    | addDinner dinner => exact @ih (s.change (.addDinner dinner)) ts h hnow hdis hrest
    | deleteDinners ids =>
      have hdel : Spread ts (s.deleteDinners ids).ratings :=
        h.mono (fun r hr => (Table.mem_applyAll_del.mp hr).1) (List.Subset.refl _)
      exact ih hdel hnow hdis hrest
    | rate now is =>
      obtain ⟨hfirst, hnow⟩ := List.nodup_cons.mp hnow
      have hrate : Spread (now :: ts) (s.rate now is).ratings :=
        h.rate (hdis now List.mem_cons_self) (honce now is List.mem_cons_self)
      refine ih hrate hnow (fun now' hmem => ?_) hrest
      rw [List.mem_cons, not_or]
      exact ⟨fun he => hfirst (he ▸ hmem), hdis now' (List.mem_cons_of_mem _ hmem)⟩

/-- **Changes over time**: when no two transactions begin at one time and none rates a dinner twice,
no two ratings are tied. -/
theorem untied_changed {cs : List Change} (hnow : (times cs).Nodup)
    (honce : ∀ now is, .rate now is ∈ cs → (is.map RatingInput.dinnerId).Nodup) :
    Untied DishRating.weekDinnerId DishRating.createdAt (Old.changed cs).ratings.rows := by
  have hempty : Spread [] Old.empty.ratings :=
    ⟨fun a ha => absurd ha List.not_mem_nil, fun r hr => absurd hr List.not_mem_nil⟩
  obtain ⟨ts, h⟩ := spread_foldl hempty hnow (fun _ _ => List.not_mem_nil) honce
  exact untied_of_inj h.inj

end Veckomenyn.RatingMigration
