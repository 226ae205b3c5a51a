import Mathlib.Algebra.BigOperators.Group.List.Lemmas
import Mathlib.Algebra.Order.BigOperators.Group.List
import Mathlib.Tactic.Linarith
import Veckomenyn.CartMirror
import Veckomenyn.Grouping

/-!
The total the page shows over a shopping list, and the cart the list was made from.

A row of the list keeps the price of its code's whole line in the cart, and the page adds the rows
up.
-/

namespace Veckomenyn.RunningTotal

open Schema Sql Txn WkCtx Tools CartTools CartMirror Grouping
open Rows (Table)

/-- What the section of the cart adds up; a snapshot without a price counts nothing. -/
def runningTotal (items : List CartItem) : ℚ :=
  items.foldl (fun acc i => acc + ((i.snapshot.map Snapshot.lineTotal).getD 0)) 0

/-- The rows of a plan. -/
def planItems (id : ℤ) (d : Db) : List CartItem :=
  d.cartItems.rows.filter fun r => r.weekId = some id

/-! ### Upstream -/

/-- What upstream makes of the lines of a cart when a product is added: a code has one line, no
line comes from nowhere, and none costs less than nothing. -/
structure Shop where
  put : List CartLine → String → ℤ → List CartLine
  nodup : ∀ lines code qty, (lines.map CartLine.code).Nodup →
    ((put lines code qty).map CartLine.code).Nodup
  codes : ∀ lines code qty, ∀ l ∈ put lines code qty,
    l.code = code ∨ l.code ∈ lines.map CartLine.code
  nonneg : ∀ lines code qty, (∀ l ∈ lines, 0 ≤ l.lineTotal) →
    ∀ l ∈ put lines code qty, 0 ≤ l.lineTotal

def cartTotal (lines : List CartLine) : ℚ := (lines.map CartLine.lineTotal).sum

namespace Shop

variable (s : Shop)

/-- The provider when every request succeeds, and the lines of the log. -/
def reply : (c : Call) → List CartLine × List String → Answer c × (List CartLine × List String)
  | .search _ _, o => (.ok [], o)
  | .cartGet, o => (.ok ⟨o.1, cartTotal o.1⟩, o)
  | .cartAdd code qty, o =>
    (.ok ⟨s.put o.1 code qty, cartTotal (s.put o.1 code qty)⟩, (s.put o.1 code qty, o.2))
  | .cartRemove code, o =>
    let lines := o.1.filter fun l => l.code ≠ code
    (.ok ⟨lines, cartTotal lines⟩, (lines, o.2))
  | .cartClear, o => (.ok (), ([], o.2))
  | .ordersRecent _, o => (.ok [], o)
  | .orderDetail _, o => (.error "no such order", o)
  | .warn what, o => ((), (o.1, o.2 ++ [what]))

/-- The lines of the cart after the adds of a batch. -/
def filled (lines : List CartLine) (items : List CartAddInput) : List CartLine :=
  items.foldl (fun lines i => s.put lines i.code (qtyOr1 i.qty)) lines

/-- What holds of the lines of a cart that `items` have been put into. -/
structure Holds (lines : List CartLine) (items : List CartAddInput) : Prop where
  nodup : (lines.map CartLine.code).Nodup
  codes : ∀ l ∈ lines, ∃ i ∈ items, i.code = l.code
  nonneg : ∀ l ∈ lines, 0 ≤ l.lineTotal

variable {s}

lemma holds_nil : Holds [] [] where
  nodup := List.nodup_nil
  codes := by simp
  nonneg := by simp

lemma Holds.put {lines : List CartLine} {items : List CartAddInput} (h : Holds lines items)
    (i : CartAddInput) : Holds (s.put lines i.code (qtyOr1 i.qty)) (items ++ [i]) where
  nodup := s.nodup _ _ _ h.nodup
  nonneg := s.nonneg _ _ _ h.nonneg
  codes := by
    intro l hl
    rcases s.codes _ _ _ l hl with hnew | hold
    · exact ⟨i, by simp, hnew.symm⟩
    · obtain ⟨l', hl', hcode⟩ := List.mem_map.mp hold
      obtain ⟨j, hj, hj'⟩ := h.codes l' hl'
      exact ⟨j, by simp [hj], hj'.trans hcode⟩

lemma Holds.filled {lines : List CartLine} {before items : List CartAddInput}
    (h : Holds lines before) : Holds (s.filled lines items) (before ++ items) := by
  induction items generalizing lines before with
  | nil => simpa [Shop.filled] using h
  | cons i items ih =>
    have hnext := ih (h.put (s := s) i)
    rwa [List.append_assoc, List.singleton_append] at hnext

end Shop

/-! ### Sums -/

/-- The price of a code's line, if there is one. -/
def lineOf (lines : List CartLine) (code : String) : ℚ :=
  ((lines.find? fun l => l.code = code).map CartLine.lineTotal).getD 0

/-- How many of the items have a code. -/
def times (items : List CartAddInput) (code : String) : ℕ := items.countP fun i => i.code = code

/-- A line is counted once for every item that has its code. -/
lemma sum_lineOf {lines : List CartLine} (h : (lines.map CartLine.code).Nodup)
    (items : List CartAddInput) : (items.map fun i => lineOf lines i.code).sum =
      (lines.map fun l => (times items l.code : ℚ) * l.lineTotal).sum := by
  induction items with
  | nil => simp [times]
  | cons i items ih =>
    have hline : lineOf lines i.code =
        (lines.map fun l => if l.code = i.code then l.lineTotal else 0).sum :=
      (sum_ite_key h CartLine.lineTotal i.code).symm
    rw [List.map_cons, List.sum_cons, ih, hline, ← List.sum_map_add]
    refine congrArg List.sum (List.map_congr_left fun l _ => ?_)
    by_cases hl : l.code = i.code
    · simp [times, hl, add_mul, add_comm]
    · simp [times, hl, Ne.symm hl]

lemma sum_eq_iff_of_le {α : Type} {f g : α → ℚ} {xs : List α} (h : ∀ x ∈ xs, g x ≤ f x) :
    (xs.map f).sum = (xs.map g).sum ↔ ∀ x ∈ xs, f x = g x := by
  induction xs with
  | nil => simp
  | cons x xs ih =>
    have hx := h x (by simp)
    have hxs : ∀ y ∈ xs, g y ≤ f y := fun y hy => h y (by simp [hy])
    have hsum : (xs.map g).sum ≤ (xs.map f).sum := List.sum_le_sum hxs
    rw [List.map_cons, List.map_cons, List.sum_cons, List.sum_cons, List.forall_mem_cons,
      ← ih hxs]
    constructor
    · intro heq
      exact ⟨by linarith, by linarith⟩
    · rintro ⟨h₁, h₂⟩
      rw [h₁, h₂]

/-- Only the snapshots count. -/
lemma runningTotal_eq (items : List CartItem) : runningTotal items =
    ((items.map CartItem.snapshot).map fun o => (o.map Snapshot.lineTotal).getD 0).sum := by
  have hfold : ∀ acc : ℚ, items.foldl
      (fun acc i => acc + ((i.snapshot.map Snapshot.lineTotal).getD 0)) acc =
      acc + ((items.map CartItem.snapshot).map fun o => (o.map Snapshot.lineTotal).getD 0).sum := by
    induction items with
    | nil => simp
    | cons i items ih =>
      intro acc
      rw [List.foldl_cons, ih, List.map_cons, List.map_cons, List.sum_cons, add_assoc]
  rw [runningTotal, hfold, zero_add]

/-! ### A batch -/

variable (s : Shop)

lemma run_addAll (items : List CartAddInput) (d : Db) (lines : List CartLine)
    (ws : List String) : (addAll items).run s.reply (d, (lines, ws)) =
      (.ok (items, []), (d, (s.filled lines items, ws))) := by
  induction items generalizing lines with
  | nil => rfl
  | cons i items ih =>
    exact (Prog.run_bind_of_ok _ rfl).trans
      (Prog.run_bind_of_ok _ (ih (s.put lines i.code (qtyOr1 i.qty))))

/-- Every item that is recorded has the price of its code's line. -/
lemma run_recordAll (now id : ℤ) (cart : Cart) (items : List CartAddInput) (d : Db)
    (lines : List CartLine) (ws : List String) : ∃ d' ws',
      (recordAll now id cart items).run s.reply (d, (lines, ws)) =
        (.ok (), (d', (lines, ws ++ ws'))) ∧
      (ws' = [] → (planItems id d').map CartItem.snapshot =
        (planItems id d).map CartItem.snapshot ++
          items.map fun i => snapshotLine cart i.code) := by
  induction items generalizing d ws with
  | nil => exact ⟨d, [], by rw [List.append_nil]; rfl, by simp⟩
  | cons i items ih =>
    rcases mirror_cases s.reply (insertCartItem now id i.code (qtyOr1 i.qty) i.reason
      (snapshotLine cart i.code)) "cart_items insert failed" d (lines, ws) with
      ⟨writes, hs, hrun⟩ | hrun
    · obtain ⟨d', ws', hrest, hrows⟩ := ih (applyAll d writes) ws
      refine ⟨d', ws', (Prog.run_bind_of_ok _ hrun).trans hrest, fun hws => ?_⟩
      have hnew : (planItems id (applyAll d writes)).map CartItem.snapshot =
          (planItems id d).map CartItem.snapshot ++ [snapshotLine cart i.code] := by
        rw [planItems, rows_insertCartItem hs, List.filter_append, List.map_append]
        simp [planItems]
      rw [hrows hws, hnew, List.append_assoc, List.map_cons, List.singleton_append]
    · obtain ⟨d', ws', hrest, -⟩ := ih d (ws ++ ["cart_items insert failed"])
      refine ⟨d', "cart_items insert failed" :: ws', ?_, by simp⟩
      rw [recordAll, Prog.run_bind_of_ok _ hrun]
      exact hrest.trans (by simp)

/-- The database, the cart and the log after a batch that starts with an empty cart. -/
def after (ctx : Ctx) (now : ℤ) (items : List CartAddInput) (d : Db) :
    Db × List CartLine × List String :=
  ((shopCartAddManyTool now ctx (some items)).run s.reply (d, ([], []))).2

variable {s}

lemma after_eq {ctx : Ctx} (hc : 0 < ctx.weekId) (now : ℤ) (items : List CartAddInput) (d : Db) :
    ∃ d' ws, after s ctx now items d = (d', (s.filled [] items, ws)) ∧
      (ws = [] → (planItems ctx.weekId d').map CartItem.snapshot =
        (planItems ctx.weekId d).map CartItem.snapshot ++ items.map fun i =>
          snapshotLine ⟨s.filled [] items, cartTotal (s.filled [] items)⟩ i.code) := by
  have hget : (ask Provider.cartGet).run s.reply (d, (s.filled [] items, [])) =
      (.ok ⟨s.filled [] items, cartTotal (s.filled [] items)⟩, (d, (s.filled [] items, []))) := rfl
  obtain ⟨d', ws, hrecord, hrows⟩ := run_recordAll s now ctx.weekId
    ⟨s.filled [] items, cartTotal (s.filled [] items)⟩ items d (s.filled [] items) []
  rw [List.nil_append] at hrecord
  refine ⟨d', ws, ?_, hrows⟩
  have hrun : (shopCartAddManyTool now ctx (some items)).run s.reply (d, ([], [])) = _ :=
    (Prog.run_bind_of_ok _ rfl).trans ((Prog.run_bind_of_ok _ (run_addAll s items d [] [])).trans
      (Prog.run_bind_of_ok _ hget))
  rw [after, hrun, inPlan, if_pos hc, Prog.run_bind_of_ok _ hrecord]
  rfl

/-- **The running total**: after a batch it is the cart's when every code with a price has been
put in once. -/
theorem runningTotal_iff {ctx : Ctx} (hc : 0 < ctx.weekId) (now : ℤ) (items : List CartAddInput)
    {d : Db} (hd : planItems ctx.weekId d = []) (hw : (after s ctx now items d).2.2 = []) :
    runningTotal (planItems ctx.weekId (after s ctx now items d).1) =
        cartTotal (after s ctx now items d).2.1 ↔
      ∀ l ∈ (after s ctx now items d).2.1, l.lineTotal = 0 ∨ times items l.code = 1 := by
  obtain ⟨d', ws, hafter, hrows⟩ := after_eq (s := s) hc now items d
  rw [hafter] at hw ⊢
  have hholds : Shop.Holds (s.filled [] items) items := Shop.holds_nil.filled
  have hsnap := hrows hw
  rw [hd, List.map_nil, List.nil_append] at hsnap
  have htotal : runningTotal (planItems ctx.weekId d') =
      (items.map fun i => lineOf (s.filled [] items) i.code).sum := by
    rw [runningTotal_eq, hsnap, List.map_map]
    refine congrArg List.sum (List.map_congr_left fun i _ => ?_)
    simp [snapshotLine, lineOf, Function.comp_def]
  have hle : ∀ l ∈ s.filled [] items, l.lineTotal ≤ (times items l.code : ℚ) * l.lineTotal := by
    intro l hl
    obtain ⟨i, hi, hcode⟩ := hholds.codes l hl
    have hone : 1 ≤ times items l.code := List.countP_pos_iff.mpr ⟨i, hi, by simpa using hcode⟩
    have hcast : (1 : ℚ) ≤ times items l.code := by exact_mod_cast hone
    exact le_mul_of_one_le_left (hholds.nonneg l hl) hcast
  rw [htotal, sum_lineOf hholds.nodup, cartTotal, sum_eq_iff_of_le hle]
  refine forall₂_congr fun l hl => ?_
  by_cases hzero : l.lineTotal = 0
  · simp [hzero]
  · rw [mul_eq_right₀ hzero, or_iff_right hzero, Nat.cast_eq_one]

/-! ### A code twice -/

/-- Every product costs ten kronor, and adding one sets how many there are. -/
def tenKronor : Shop where
  put lines code qty :=
    lines.filter (fun l => l.code ≠ code) ++ [⟨code, code, (qty : ℚ), 10, 10 * (qty.toNat : ℚ)⟩]
  nodup lines code qty h := by
    rw [List.map_append]
    refine List.nodup_append.mpr ⟨h.sublist (List.filter_sublist.map _), by simp, ?_⟩
    rintro a ha b hb rfl
    obtain ⟨l, hl, hcode⟩ := List.mem_map.mp ha
    have hne : l.code ≠ code := by simpa using (List.mem_filter.mp hl).2
    exact hne (hcode.trans (by simpa using hb))
  codes lines code qty l hl := by
    rcases List.mem_append.mp hl with hl | hl
    · exact .inr (List.mem_map_of_mem (List.mem_of_mem_filter hl))
    · exact .inl (by rw [List.mem_singleton.mp hl])
  nonneg lines code qty h l hl := by
    rcases List.mem_append.mp hl with hl | hl
    · exact h l (List.mem_of_mem_filter hl)
    · rw [List.mem_singleton.mp hl]
      positivity

theorem runningTotal_iff_milk_egg :
    runningTotal (planItems 1
      (after tenKronor ⟨1⟩ 0 [⟨"milk", 1, ""⟩, ⟨"egg", 2, ""⟩] (Dinners.threeDays .draft)).1) =
      cartTotal (after tenKronor ⟨1⟩ 0 [⟨"milk", 1, ""⟩, ⟨"egg", 2, ""⟩]
        (Dinners.threeDays .draft)).2.1 := by
  refine (@runningTotal_iff tenKronor ⟨1⟩ (by decide) 0 [⟨"milk", 1, ""⟩, ⟨"egg", 2, ""⟩]
    (Dinners.threeDays .draft) (by decide) (by decide)).mpr fun l hl => .inr ?_
  have honce : ∀ l ∈ (after tenKronor ⟨1⟩ 0 [⟨"milk", 1, ""⟩, ⟨"egg", 2, ""⟩]
      (Dinners.threeDays .draft)).2.1, times [⟨"milk", 1, ""⟩, ⟨"egg", 2, ""⟩] l.code = 1 := by
    decide
  exact honce l hl

/-- Milk twice: one line of the cart, and two rows with its price. -/
theorem not_runningTotal : ¬ ∀ (s : Shop) (ctx : Ctx), 0 < ctx.weekId →
    ∀ (now : ℤ) (items : List CartAddInput) (d : Db), planItems ctx.weekId d = [] →
      (after s ctx now items d).2.2 = [] →
      runningTotal (planItems ctx.weekId (after s ctx now items d).1) =
        cartTotal (after s ctx now items d).2.1 := by
  intro h
  have htwice := h tenKronor ⟨1⟩ (by decide) 0 [⟨"milk", 1, ""⟩, ⟨"milk", 1, ""⟩]
    (Dinners.threeDays .draft) (by decide) (by decide)
  have hrows : (planItems 1 (after tenKronor ⟨1⟩ 0 [⟨"milk", 1, ""⟩, ⟨"milk", 1, ""⟩]
      (Dinners.threeDays .draft)).1).map CartItem.snapshot =
      [some ⟨"milk", 10, 10 * (1 : ℕ)⟩, some ⟨"milk", 10, 10 * (1 : ℕ)⟩] := rfl
  have hcart : (after tenKronor ⟨1⟩ 0 [⟨"milk", 1, ""⟩, ⟨"milk", 1, ""⟩]
      (Dinners.threeDays .draft)).2.1 = [⟨"milk", "milk", (1 : ℤ), 10, 10 * (1 : ℕ)⟩] := rfl
  rw [runningTotal_eq, hrows, hcart] at htwice
  norm_num [cartTotal] at htwice

end Veckomenyn.RunningTotal
