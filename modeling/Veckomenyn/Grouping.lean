import Mathlib.Algebra.BigOperators.Group.List.Basic
import Mathlib.Data.List.Dedup
import Mathlib.Data.List.Sort
import Mathlib.Data.List.TakeWhile
import Mathlib.Order.Defs.LinearOrder

/-!
Rows in groups, and rows in order.

A group is a key with the rows that have it, and every key is there once; what is added up over the
groups is what is added up over the rows. An order leaves rows of one weight in any order.
-/

namespace Veckomenyn.Grouping

variable {α β κ M : Type}

/-! ### Groups -/

section

variable [DecidableEq κ]

def groupBy (f : α → κ) (xs : List α) : List (κ × List α) :=
  (xs.map f).dedup.map fun k => (k, xs.filter fun x => f x = k)

variable {f : α → κ} {xs : List α}

lemma keys_groupBy : (groupBy f xs).map Prod.fst = (xs.map f).dedup := by
  rw [groupBy, List.map_map]
  exact List.map_id _

lemma nodup_keys : ((groupBy f xs).map Prod.fst).Nodup := by
  rw [keys_groupBy]
  exact List.nodup_dedup _

lemma mem_groupBy {g : κ × List α} :
    g ∈ groupBy f xs ↔ g.1 ∈ xs.map f ∧ g.2 = xs.filter fun x => f x = g.1 := by
  rw [groupBy, List.mem_map]
  constructor
  · rintro ⟨k, hk, rfl⟩
    exact ⟨List.mem_dedup.mp hk, rfl⟩
  · rintro ⟨hk, hg⟩
    exact ⟨g.1, List.mem_dedup.mpr hk, Prod.ext rfl hg.symm⟩

variable [AddCommMonoid M]

/-- Of elements with different keys one counts at most. -/
lemma sum_ite_key (h : (xs.map f).Nodup) (w : α → M) (k : κ) :
    (xs.map fun x => if f x = k then w x else 0).sum =
      ((xs.find? fun x => f x = k).map w).getD 0 := by
  induction xs with
  | nil => rfl
  | cons x xs ih =>
    rw [List.map_cons, List.nodup_cons] at h
    by_cases hx : f x = k
    · have hzero : (xs.map fun y => if f y = k then w y else 0).sum = 0 := by
        refine List.sum_eq_zero fun m hm => ?_
        obtain ⟨y, hy, rfl⟩ := List.mem_map.mp hm
        exact if_neg fun hyk => h.1 (List.mem_map.mpr ⟨y, hy, hyk.trans hx.symm⟩)
      rw [List.map_cons, List.sum_cons, hzero, if_pos hx, add_zero]
      simp [hx]
    · rw [List.map_cons, List.sum_cons, if_neg hx, zero_add, ih h.2]
      simp [hx]

lemma sum_by_key (w : α → M) {ks : List κ} (hks : ks.Nodup) (hxs : ∀ x ∈ xs, f x ∈ ks) :
    (ks.map fun k => ((xs.filter fun x => f x = k).map w).sum).sum = (xs.map w).sum := by
  induction xs with
  | nil =>
    refine List.sum_eq_zero fun x hx => ?_
    obtain ⟨k, -, rfl⟩ := List.mem_map.mp hx
    rfl
  | cons x xs ih =>
    have hsplit (k : κ) : (((x :: xs).filter fun y => f y = k).map w).sum =
        (if k = f x then w x else 0) + ((xs.filter fun y => f y = k).map w).sum := by
      by_cases hk : f x = k
      · simp [hk]
      · simp [hk, Ne.symm hk]
    have honce : (ks.map fun k => if k = f x then w x else 0).sum = w x := by
      have hfound : (ks.find? fun k => k = f x).isSome := by
        rw [List.find?_isSome]
        exact ⟨f x, hxs x List.mem_cons_self, decide_eq_true rfl⟩
      obtain ⟨k, hk⟩ := Option.isSome_iff_exists.mp hfound
      have hids : (ks.map fun k => k).Nodup := by rwa [List.map_id']
      rw [sum_ite_key hids (fun _ => w x) (f x), hk, Option.map_some, Option.getD_some]
    simp only [hsplit]
    rw [List.sum_map_add, honce, ih fun y hy => hxs y (List.mem_cons_of_mem _ hy), List.map_cons,
      List.sum_cons]

/-- **The sums over the groups add up to the sum over the rows.** -/
theorem sum_groupBy (w : α → M) :
    ((groupBy f xs).map fun g => (g.2.map w).sum).sum = (xs.map w).sum := by
  rw [groupBy, List.map_map]
  exact sum_by_key w (List.nodup_dedup _) fun x hx => List.mem_dedup.mpr (List.mem_map_of_mem hx)

end

/-! ### Orders -/

/-- `ORDER BY`; rows of one weight may come in any order. -/
structure OrderBy [LinearOrder β] (w : α → β) where
  sort : List α → List α
  perm (l : List α) : (sort l).Perm l
  sorted (l : List α) : (sort l).Pairwise fun a b => w a ≤ w b

variable [LinearOrder β] {w : α → β}

/-- The order that keeps rows of one weight as they are. -/
def stable (w : α → β) : OrderBy w where
  sort := List.insertionSort fun a b => w a ≤ w b
  perm := List.perm_insertionSort _
  sorted l := by
    have : Std.Total fun a b => w a ≤ w b := ⟨fun a b => le_total _ _⟩
    have : IsTrans α fun a b => w a ≤ w b := ⟨fun a b c h h' => le_trans h h'⟩
    exact List.pairwise_insertionSort _ l

variable (o : OrderBy w)

section

variable [DecidableEq κ] {ρ : Type} {f : ρ → κ} {mk : κ × List ρ → α} {xs : List ρ}

/-- A row for each group, in order. -/
def report (f : ρ → κ) (mk : κ × List ρ → α) (xs : List ρ) : List α :=
  o.sort ((groupBy f xs).map mk)

lemma mem_report {r : α} : r ∈ report o f mk xs ↔ ∃ g ∈ groupBy f xs, mk g = r :=
  ((o.perm _).mem_iff).trans List.mem_map

lemma nodup_report {label : α → κ} (h : ∀ g, label (mk g) = g.1) :
    ((report o f mk xs).map label).Nodup := by
  have hkeys : ((groupBy f xs).map mk).map label = (groupBy f xs).map Prod.fst := by
    rw [List.map_map]
    exact List.map_congr_left fun g _ => h g
  refine ((o.perm _).map label).nodup_iff.mpr ?_
  rw [hkeys]
  exact nodup_keys

lemma sum_report [AddCommMonoid M] {m : α → M} {v : ρ → M}
    (h : ∀ g, m (mk g) = (g.2.map v).sum) :
    ((report o f mk xs).map m).sum = (xs.map v).sum := by
  have hsums : ((groupBy f xs).map mk).map m = (groupBy f xs).map fun g => (g.2.map v).sum := by
    rw [List.map_map]
    exact List.map_congr_left fun g _ => h g
  calc ((report o f mk xs).map m).sum
      = (((groupBy f xs).map mk).map m).sum := ((o.perm _).map m).sum_eq
    _ = ((groupBy f xs).map fun g => (g.2.map v).sum).sum := by rw [hsums]
    _ = (xs.map v).sum := sum_groupBy v

end

variable [DecidableEq α] {l : List α} {x : α}

/-- The number of rows ahead of one. -/
def rank (l : List α) (x : α) : ℕ := (o.sort l).idxOf x

/-- **A limit keeps what has fewer rows ahead.** -/
lemma mem_take_iff (hx : x ∈ l) (n : ℕ) : x ∈ (o.sort l).take n ↔ rank o l x < n :=
  List.mem_take_iff_idxOf_lt ((o.perm l).mem_iff.mpr hx)

/-- The rows of less weight are ahead. -/
lemma countP_le_rank (hx : x ∈ l) : l.countP (fun y => w y < w x) ≤ rank o l x := by
  obtain ⟨front, back, hsort, hfront⟩ :=
    List.eq_append_cons_of_mem ((o.perm l).mem_iff.mpr hx)
  have hrank : rank o l x = front.length := by
    rw [rank, hsort, List.idxOf_append_of_notMem hfront, List.idxOf_cons_self, Nat.add_zero]
  have hsorted := o.sorted l
  rw [hsort, List.pairwise_append, List.pairwise_cons] at hsorted
  obtain ⟨-, ⟨hback, -⟩, -⟩ := hsorted
  have hnone : back.countP (fun y => w y < w x) = 0 := by
    rw [List.countP_eq_zero]
    intro y hy
    simpa using hback y hy
  rw [← (o.perm l).countP_eq, hsort, List.countP_append, List.countP_cons_of_neg (by simp), hnone,
    hrank]
  exact List.countP_le_length

/-- The order that puts `x` first among the rows of its weight. -/
def favouring (w : α → β) (x : α) : OrderBy w where
  sort l := if x ∈ l then (stable w).sort (x :: l.erase x) else (stable w).sort l
  perm l := by
    split_ifs with hx
    · exact ((stable w).perm _).trans (List.perm_cons_erase hx).symm
    · exact (stable w).perm l
  sorted l := by split_ifs <;> exact (stable w).sorted _

/-- Only the rows of less weight are ahead of the one that is put first. -/
lemma rank_favouring_le (hx : x ∈ l) :
    rank (favouring w x) l x ≤ l.countP fun y => w y < w x := by
  let rest := (stable w).sort (l.erase x)
  let front := rest.takeWhile fun y => ¬w x ≤ w y
  have hsort : (favouring w x).sort l = front ++ x :: rest.dropWhile fun y => ¬w x ≤ w y :=
    (if_pos hx).trans (List.orderedInsert_eq_take_drop _ x rest)
  have hlight : ∀ y ∈ front, w y < w x := fun y hy => by
    simpa using List.mem_takeWhile_imp hy
  have hnotMem : x ∉ front := fun hmem => lt_irrefl _ (hlight x hmem)
  calc rank (favouring w x) l x
      = front.length := by
        rw [rank, hsort, List.idxOf_append_of_notMem hnotMem, List.idxOf_cons_self, Nat.add_zero]
    _ = front.countP fun y => w y < w x :=
        (List.countP_eq_length.mpr fun y hy => decide_eq_true (hlight y hy)).symm
    _ ≤ rest.countP fun y => w y < w x := (List.takeWhile_sublist _).countP_le
    _ = (l.erase x).countP fun y => w y < w x := ((stable w).perm _).countP_eq _
    _ ≤ l.countP fun y => w y < w x := List.erase_sublist.countP_le

end Veckomenyn.Grouping
