import Mathlib.Data.List.Nodup
import Mathlib.Data.List.Perm.Basic
import Mathlib.Data.List.Sort
import Mathlib.Tactic.NormNum
import Mathlib.Tactic.Ring

/-!
Tables of rows with a generated identity.

A table carries the proofs that no two of its rows share an identity and that the next
identity it hands out has never been used. Rows are changed by row writes: `put` stores a
row under its identity, replacing the one it finds there, and `del` removes one. What a
statement does to many rows is the list of its row writes, and the lemmas at the end say
what such a list does in one go.
-/

namespace Veckomenyn.Rows

/-- Rows with an identity. -/
class Keyed (α : Type) where
  key : α → ℤ

open Keyed

structure Table (α : Type) [Keyed α] where
  rows : List α
  next : ℤ
  nodup : (rows.map key).Nodup
  fresh : ∀ r ∈ rows, key r < next

inductive RowWrite (α : Type) where
  | put (r : α)
  | del (k : ℤ)

variable {α : Type} [Keyed α]

def RowWrite.key : RowWrite α → ℤ
  | .put r => Keyed.key r
  | .del k => k

def putRow (r : α) (rows : List α) : List α :=
  if key r ∈ rows.map key then rows.map fun x => if key x = key r then r else x
  else rows ++ [r]

lemma keys_putRow (r : α) (rows : List α) : (putRow r rows).map key =
    if key r ∈ rows.map key then rows.map key else rows.map key ++ [key r] := by
  unfold putRow
  split_ifs with h
  · rw [List.map_map]
    refine List.map_congr_left fun x _ => ?_
    by_cases hx : key x = key r <;> simp [hx]
  · simp

lemma mem_putRow {r x : α} {rows : List α} :
    x ∈ putRow r rows ↔ x = r ∨ x ∈ rows ∧ key x ≠ key r := by
  unfold putRow
  split_ifs with h
  · simp only [List.mem_map]
    constructor
    · rintro ⟨y, hy, rfl⟩
      by_cases hk : key y = key r
      · simp [hk]
      · simp [hk, hy]
    · rintro (rfl | ⟨hx, hk⟩)
      · obtain ⟨y, hy, hk⟩ := List.mem_map.mp h
        exact ⟨y, hy, by simp [hk]⟩
      · exact ⟨x, hx, by simp [hk]⟩
  · have hne : ∀ y ∈ rows, key y ≠ key r := fun y hy hk => h (hk ▸ List.mem_map_of_mem hy)
    simp only [List.mem_append, List.mem_singleton]
    constructor
    · rintro (hx | rfl)
      · exact Or.inr ⟨hx, hne x hx⟩
      · exact Or.inl rfl
    · rintro (rfl | ⟨hx, -⟩)
      · exact Or.inr rfl
      · exact Or.inl hx

namespace Table

def empty : Table α := ⟨[], 1, by simp, by simp⟩

def put (t : Table α) (r : α) : Table α where
  rows := putRow r t.rows
  next := max t.next (key r + 1)
  nodup := by
    rw [keys_putRow]
    split_ifs with h
    · exact t.nodup
    · refine List.nodup_append.mpr ⟨t.nodup, List.nodup_singleton _, fun a ha b hb => ?_⟩
      rw [List.mem_singleton.mp hb]
      exact fun hk => h (hk ▸ ha)
  fresh x hx := by
    rcases mem_putRow.mp hx with rfl | ⟨hx, -⟩
    · omega
    · have := t.fresh x hx; omega

def del (t : Table α) (k : ℤ) : Table α where
  rows := t.rows.filter fun r => key r ≠ k
  next := t.next
  nodup := t.nodup.sublist ((List.filter_sublist).map key)
  fresh x hx := t.fresh x (List.mem_of_mem_filter hx)

/-- Identities below `n` are not handed out any more. -/
def reserve (t : Table α) (n : ℤ) : Table α where
  rows := t.rows
  next := max t.next n
  nodup := t.nodup
  fresh x hx := by have := t.fresh x hx; omega

def apply (t : Table α) : RowWrite α → Table α
  | .put r => t.put r
  | .del k => t.del k

def applyAll (t : Table α) (ws : List (RowWrite α)) : Table α := ws.foldl apply t

def find? (t : Table α) (k : ℤ) : Option α := t.rows.find? fun r => key r = k

@[ext] lemma ext {s t : Table α} (h : s.rows = t.rows) (hn : s.next = t.next) : s = t := by
  cases s; cases t; simp_all

@[simp] lemma applyAll_nil (t : Table α) : t.applyAll [] = t := rfl
@[simp] lemma applyAll_cons (t : Table α) (w : RowWrite α) (ws : List (RowWrite α)) :
    t.applyAll (w :: ws) = (t.apply w).applyAll ws := rfl

/-! ### Rows one by one -/

lemma key_inj (t : Table α) {x y : α} (hx : x ∈ t.rows) (hy : y ∈ t.rows)
    (h : key x = key y) : x = y :=
  List.inj_on_of_nodup_map t.nodup hx hy h

lemma find?_eq_some {t : Table α} {k : ℤ} {r : α} :
    t.find? k = some r ↔ r ∈ t.rows ∧ key r = k := by
  unfold find?
  constructor
  · intro h
    exact ⟨List.mem_of_find?_eq_some h, by simpa using List.find?_some h⟩
  · rintro ⟨hr, rfl⟩
    rcases hf : t.rows.find? fun x => decide (key x = key r) with _ | x
    · have := List.find?_eq_none.mp hf r hr
      simp at this
    · have hx := List.mem_of_find?_eq_some hf
      have hk : key x = key r := by simpa using List.find?_some hf
      rw [t.key_inj hx hr hk]

lemma find?_eq_none {t : Table α} {k : ℤ} : t.find? k = none ↔ ∀ r ∈ t.rows, key r ≠ k := by
  simp [find?, List.find?_eq_none]

/-- Some row has this identity. -/
def Has (t : Table α) (k : ℤ) : Prop := ∃ r ∈ t.rows, key r = k

lemma has_of_find? {t : Table α} {k : ℤ} {r : α} (h : t.find? k = some r) : t.Has k :=
  ⟨r, find?_eq_some.mp h⟩

lemma find?_eq_none_iff {t : Table α} {k : ℤ} : t.find? k = none ↔ ¬t.Has k := by
  rw [find?_eq_none, Has]
  push Not
  rfl

lemma Has.lt_next {t : Table α} {k : ℤ} (h : t.Has k) : k < t.next := by
  obtain ⟨r, hr, rfl⟩ := h
  exact t.fresh r hr

@[simp] lemma mem_put {t : Table α} {r x : α} :
    x ∈ (t.put r).rows ↔ x = r ∨ x ∈ t.rows ∧ key x ≠ key r := mem_putRow

@[simp] lemma mem_del {t : Table α} {k : ℤ} {x : α} :
    x ∈ (t.del k).rows ↔ x ∈ t.rows ∧ key x ≠ k := by
  simp [del]

lemma find?_put (t : Table α) (r : α) (k : ℤ) :
    (t.put r).find? k = if k = key r then some r else t.find? k := by
  split_ifs with h
  · exact find?_eq_some.mpr ⟨mem_put.mpr (Or.inl rfl), h.symm⟩
  · rcases hf : t.find? k with _ | x
    · rw [find?_eq_none] at hf ⊢
      intro y hy
      rcases mem_put.mp hy with rfl | ⟨hy, -⟩
      · exact Ne.symm h
      · exact hf y hy
    · obtain ⟨hx, rfl⟩ := find?_eq_some.mp hf
      exact find?_eq_some.mpr ⟨mem_put.mpr (Or.inr ⟨hx, h⟩), rfl⟩

lemma has_put {t : Table α} {r : α} {k : ℤ} : (t.put r).Has k ↔ k = key r ∨ t.Has k := by
  simp only [Has, mem_put]
  constructor
  · rintro ⟨x, rfl | ⟨hx, -⟩, rfl⟩
    · exact Or.inl rfl
    · exact Or.inr ⟨x, hx, rfl⟩
  · rintro (rfl | ⟨x, hx, rfl⟩)
    · exact ⟨r, Or.inl rfl, rfl⟩
    · by_cases h : key x = key r
      · exact ⟨r, Or.inl rfl, h.symm⟩
      · exact ⟨x, Or.inr ⟨hx, h⟩, rfl⟩

/-! ### Many rows at once -/

lemma mem_applyAll_put {t : Table α} {l : List α} (hl : (l.map key).Nodup) {x : α} :
    x ∈ (t.applyAll (l.map .put)).rows ↔ x ∈ l ∨ x ∈ t.rows ∧ key x ∉ l.map key := by
  induction l generalizing t with
  | nil => simp
  | cons r l ih =>
    rw [List.map_cons, List.nodup_cons] at hl
    rw [List.map_cons, applyAll_cons, ih hl.2]
    simp only [apply, mem_put, List.mem_cons, List.map_cons, not_or]
    constructor
    · rintro (hx | ⟨rfl | ⟨hx, hk⟩, hk'⟩)
      · exact Or.inl (Or.inr hx)
      · exact Or.inl (Or.inl rfl)
      · exact Or.inr ⟨hx, hk, hk'⟩
    · rintro ((rfl | hx) | ⟨hx, hk, hk'⟩)
      · exact Or.inr ⟨Or.inl rfl, hl.1⟩
      · exact Or.inl hx
      · exact Or.inr ⟨Or.inr ⟨hx, hk⟩, hk'⟩

lemma mem_applyAll_del {t : Table α} {ks : List ℤ} {x : α} :
    x ∈ (t.applyAll (ks.map .del)).rows ↔ x ∈ t.rows ∧ key x ∉ ks := by
  induction ks generalizing t with
  | nil => simp
  | cons k ks ih =>
    rw [List.map_cons, applyAll_cons, ih]
    simp only [apply, mem_del, List.mem_cons, not_or, and_assoc]

lemma rows_applyAll_del (t : Table α) (ks : List ℤ) :
    (t.applyAll (ks.map .del)).rows = t.rows.filter fun r => key r ∉ ks := by
  induction ks generalizing t with
  | nil => simp
  | cons k ks ih =>
    rw [List.map_cons, applyAll_cons, ih]
    simp only [apply, del, List.filter_filter]
    exact List.filter_congr fun r _ => by simp [Bool.and_comm]

/-- Deleting the rows of a kind leaves the others, in their order. -/
lemma rows_del_filter (t : Table α) (p : α → Bool) :
    (t.applyAll (((t.rows.filter p).map key).map .del)).rows = t.rows.filter fun r => !p r := by
  rw [rows_applyAll_del]
  refine List.filter_congr fun r hr => ?_
  rw [Bool.eq_iff_iff, decide_eq_true_iff, Bool.not_eq_true']
  constructor
  · intro hn
    refine Bool.eq_false_iff.mpr fun hp => hn ?_
    exact List.mem_map_of_mem (List.mem_filter.mpr ⟨hr, hp⟩)
  · intro hp hmem
    obtain ⟨x, hx, hk⟩ := List.mem_map.mp hmem
    obtain ⟨hx, hpx⟩ := List.mem_filter.mp hx
    obtain rfl : x = r := t.key_inj hx hr hk
    exact Bool.false_ne_true (hp.symm.trans hpx)

lemma rows_put_new {t : Table α} {r : α} (h : t.next ≤ key r) :
    (t.put r).rows = t.rows ++ [r] := by
  refine if_neg fun hmem => ?_
  obtain ⟨x, hx, hk⟩ := List.mem_map.mp hmem
  have := t.fresh x hx
  omega

/-- Rows with the identities from `n` on, one after the other. -/
def numbered (n : ℤ) : List (ℤ → α) → List α
  | [] => []
  | f :: fs => f n :: numbered (n + 1) fs

lemma key_numbered {n : ℤ} {fs : List (ℤ → α)} (hf : ∀ f ∈ fs, ∀ k, key (f k) = k) :
    ∀ x ∈ numbered n fs, n ≤ key x := by
  induction fs generalizing n with
  | nil => simp [numbered]
  | cons f fs ih =>
    intro x hx
    rcases List.mem_cons.mp hx with rfl | hx
    · rw [hf f (by simp)]
    · have := ih (fun g hg => hf g (by simp [hg])) x hx
      omega

lemma nodup_numbered {n : ℤ} {fs : List (ℤ → α)} (hf : ∀ f ∈ fs, ∀ k, key (f k) = k) :
    ((numbered n fs).map key).Nodup := by
  induction fs generalizing n with
  | nil => simp [numbered]
  | cons f fs ih =>
    have hf' : ∀ g ∈ fs, ∀ k, key (g k) = k := fun g hg => hf g (by simp [hg])
    rw [numbered, List.map_cons, List.nodup_cons, hf f (by simp)]
    refine ⟨fun hn => ?_, ih hf'⟩
    obtain ⟨x, hx, hk⟩ := List.mem_map.mp hn
    have := key_numbered hf' x hx
    omega

omit [Keyed α] in
lemma numbered_map {β γ : Type} (n : ℤ) (l : List β) (mk : β → ℤ → α) (g : α → γ) (h : β → γ)
    (hg : ∀ b k, g (mk b k) = h b) : (numbered n (l.map mk)).map g = l.map h := by
  induction l generalizing n with
  | nil => rfl
  | cons b l ih => simp [numbered, hg, ih]

/-- Rows with fresh identities join the rows of the table. -/
lemma mem_insert {t : Table α} {fs : List (ℤ → α)} (hf : ∀ f ∈ fs, ∀ k, key (f k) = k) {x : α} :
    x ∈ (t.applyAll ((numbered t.next fs).map .put)).rows ↔
      x ∈ numbered t.next fs ∨ x ∈ t.rows := by
  rw [mem_applyAll_put (nodup_numbered hf)]
  refine or_congr_right ⟨And.left, fun hx => ⟨hx, fun hk => ?_⟩⟩
  obtain ⟨y, hy, hk⟩ := List.mem_map.mp hk
  have := key_numbered hf y hy
  have := t.fresh x hx
  omega

/-- They come after the rows that are there. -/
lemma rows_insert {t : Table α} {n : ℤ} {fs : List (ℤ → α)} (hf : ∀ f ∈ fs, ∀ k, key (f k) = k)
    (hn : t.next ≤ n) :
    (t.applyAll ((numbered n fs).map .put)).rows = t.rows ++ numbered n fs := by
  induction fs generalizing t n with
  | nil => simp [numbered]
  | cons f fs ih =>
    have hk : key (f n) = n := hf f (by simp) n
    have hput : (t.put (f n)).rows = t.rows ++ [f n] := rows_put_new (by rw [hk]; exact hn)
    have hnext : (t.put (f n)).next ≤ n + 1 := by
      simp only [put, hk]
      omega
    rw [numbered, List.map_cons, applyAll_cons]
    have h := ih (fun g hg => hf g (by simp [hg])) hnext
    rw [apply, h, hput, List.append_assoc, List.singleton_append]

/-! ### Identities that stay handed out -/

def reserveFor (t : Table α) : RowWrite α → Table α
  | .put r => t.reserve (key r + 1)
  | .del _ => t

lemma reserveFor_apply (t : Table α) (w : RowWrite α) : (t.apply w).reserveFor w = t.apply w := by
  cases w with
  | put r => ext1 <;> simp [apply, put, reserveFor, reserve]
  | del k => rfl

lemma reserveFor_stays {t : Table α} {w : RowWrite α} (v : RowWrite α) (h : t.reserveFor w = t) :
    (t.apply v).reserveFor w = t.apply v := by
  cases w with
  | del k => rfl
  | put r =>
    have hn : max t.next (key r + 1) = t.next := congrArg Table.next h
    ext1
    · rfl
    · cases v <;> simp only [apply, put, del, reserveFor, reserve] <;> omega

lemma apply_reserveFor (t : Table α) (v w : RowWrite α) :
    (t.reserveFor v).apply w = (t.apply w).reserveFor v := by
  cases v with
  | del k => rfl
  | put r =>
    cases w with
    | put x => exact ext rfl (max_right_comm _ _ _)
    | del k => rfl

lemma next_le_apply (t : Table α) (w : RowWrite α) : t.next ≤ (t.apply w).next := by
  cases w with
  | put r => exact le_max_left _ _
  | del k => exact le_rfl

lemma next_le_reserveFor (t : Table α) (w : RowWrite α) : t.next ≤ (t.reserveFor w).next := by
  cases w with
  | put r => exact le_max_left _ _
  | del k => exact le_rfl

/-! ### Identities that are drawn once -/

/-- A row with this identity was there, and is there no more. -/
def Gone (t : Table α) (k : ℤ) : Prop := k < t.next ∧ ¬t.Has k

/-- A row is stored in the place of one that is there, or under a new identity. -/
def Mints (t : Table α) : RowWrite α → Prop
  | .put r => t.Has (key r) ∨ t.next ≤ key r
  | .del _ => True

lemma Gone.apply {s t : Table α} {k : ℤ} {w : RowWrite α} (hs : Gone s k) (h : Gone t k)
    (hw : Mints t w) : Gone (s.apply w) k := by
  refine ⟨hs.1.trans_le (next_le_apply s w), fun hk => ?_⟩
  cases w with
  | put r =>
    rcases has_put.mp hk with rfl | hk
    · rcases hw with hw | hw
      · exact h.2 hw
      · exact absurd h.1 (not_lt.mpr hw)
    · exact hs.2 hk
  | del j =>
    obtain ⟨x, hx, hxk⟩ := hk
    exact hs.2 ⟨x, (mem_del.mp hx).1, hxk⟩

lemma Gone.reserveFor {t : Table α} {k : ℤ} (h : Gone t k) (w : RowWrite α) :
    Gone (t.reserveFor w) k := by
  refine ⟨h.1.trans_le (next_le_reserveFor t w), ?_⟩
  cases w <;> exact h.2

/-! ### Rows that writes spare -/

/-- The two tables have the same rows in `S`. -/
def Agree (S : α → Prop) (t t' : Table α) : Prop := ∀ x, S x → (x ∈ t'.rows ↔ x ∈ t.rows)

/-- The write touches no row of `t` in `S`, and brings none. -/
def Spares (S : α → Prop) (t : Table α) : RowWrite α → Prop
  | .put r => ¬S r ∧ ∀ x ∈ t.rows, S x → key x ≠ key r
  | .del k => ∀ x ∈ t.rows, S x → key x ≠ k

variable {S : α → Prop} {t t' t'' : Table α}

lemma Agree.refl (S : α → Prop) (t : Table α) : Agree S t t := fun _ _ => Iff.rfl

lemma Agree.trans (h : Agree S t t') (h' : Agree S t' t'') : Agree S t t'' :=
  fun x hx => (h' x hx).trans (h x hx)

lemma Agree.of_rows_eq (h : t'.rows = t.rows) : Agree S t t' := fun x _ => by rw [h]

lemma Agree.apply {w : RowWrite α} (h : Agree S t t') (hw : Spares S t w) :
    Agree S t (t'.apply w) := by
  intro x hx
  cases w with
  | put r =>
    rw [Table.apply, mem_put, h x hx]
    refine ⟨?_, fun ht => Or.inr ⟨ht, hw.2 x ht hx⟩⟩
    rintro (rfl | ⟨ht, -⟩)
    · exact absurd hx hw.1
    · exact ht
  | del k =>
    rw [Table.apply, mem_del, h x hx]
    exact ⟨And.left, fun ht => ⟨ht, hw x ht hx⟩⟩

lemma spares_put_new {r : α} (hr : ¬S r) (hn : t.next ≤ key r) : Spares S t (.put r) :=
  ⟨hr, fun x hx _ hk => by have := t.fresh x hx; omega⟩

/-- A write to the row of another spares the rows in `S`. -/
lemma spares_del {k : ℤ} {r : α} (hr : t.find? k = some r) (hS : ¬S r) : Spares S t (.del k) := by
  obtain ⟨hmem, rfl⟩ := find?_eq_some.mp hr
  intro x hx hSx hk
  exact hS (t.key_inj hx hmem hk ▸ hSx)

lemma spares_put {r r' : α} (hr : t.find? (key r) = some r') (hS' : ¬S r') (hS : ¬S r) :
    Spares S t (.put r) := ⟨hS, spares_del hr hS'⟩

end Table

/-! ### Series -/

/-- The whole numbers from `a` to `b`. -/
def span (a b : ℤ) : List ℤ := (List.range (b - a + 1).toNat).map fun (i : ℕ) => a + (i : ℤ)

lemma mem_span {a b x : ℤ} : x ∈ span a b ↔ a ≤ x ∧ x ≤ b := by
  simp only [span, List.mem_map, List.mem_range]
  constructor
  · rintro ⟨i, hi, rfl⟩
    omega
  · rintro ⟨h1, h2⟩
    exact ⟨(x - a).toNat, by omega, by omega⟩

lemma nodup_span (a b : ℤ) : (span a b).Nodup :=
  List.nodup_range.map fun i j h => by simpa using h

lemma length_span (a b : ℤ) : (span a b).length = (b - a + 1).toNat := by simp [span]

lemma span_eq_nil {a b : ℤ} (h : b < a) : span a b = [] := by
  rw [← List.length_eq_zero_iff, length_span]
  omega

lemma map_range (a : ℤ) (n : ℕ) : (List.range n).map (fun (i : ℕ) => a + (i : ℤ)) = span a (a + n - 1) := by
  rw [span]
  congr 2
  omega

lemma span_append_perm {a b c : ℤ} (h1 : a ≤ c + 1) (h2 : c ≤ b) :
    (span a c ++ span (c + 1) b).Perm (span a b) := by
  refine (List.perm_ext_iff_of_nodup ?_ (nodup_span a b)).mpr fun x => ?_
  · refine List.nodup_append.mpr ⟨nodup_span a c, nodup_span _ b, fun x hx y hy hxy => ?_⟩
    rw [mem_span] at hx hy
    omega
  · simp only [List.mem_append, mem_span]
    omega

/-! ### Row numbers -/

variable (r : α → α → Prop) [DecidableRel r]

/-- The rows in the order of `r`, each with the number of rows before it. -/
def ranked (l : List α) : List (α × ℕ) := (l.insertionSort r).zipIdx

omit [Keyed α] in
lemma ranked_fst (l : List α) : ((ranked r l).map Prod.fst).Perm l := by
  rw [ranked, List.zipIdx_map_fst]
  exact List.perm_insertionSort r l

omit [Keyed α] in
lemma ranked_snd (l : List α) : (ranked r l).map Prod.snd = List.range l.length := by
  rw [ranked, List.zipIdx_map_snd, List.length_insertionSort, List.range_eq_range']

omit [Keyed α] in
lemma mem_of_mem_ranked {l : List α} {x : α × ℕ} (h : x ∈ ranked r l) : x.1 ∈ l :=
  (ranked_fst r l).mem_iff.mp (List.mem_map_of_mem h)

end Veckomenyn.Rows
