import Veckomenyn.Rows

/-!
A table with a second key, and `INSERT … ON CONFLICT … DO UPDATE` on it.

The row that has the value of the column is renewed where it stands. Where there is none a new row
is added.
-/

namespace Veckomenyn.Conflict

open Rows Keyed

variable {α κ : Type} [Keyed α] [DecidableEq κ]

/-- The rows with this value of the column. -/
def having (col : α → κ) (t : Table α) (k : κ) : List α := t.rows.filter fun r => col r = k

/-- No value of the column comes twice. -/
def Unique (col : α → κ) (t : Table α) : Prop := (t.rows.map col).Nodup

instance (col : α → κ) (t : Table α) : Decidable (Unique col t) :=
  inferInstanceAs (Decidable (t.rows.map col).Nodup)

def upsert (col : α → κ) (t : Table α) (k : κ) (new : ℤ → α) (renew : α → α) : Table α :=
  match t.rows.find? fun r => col r = k with
  | none => t.put (new t.next)
  | some r => t.put (renew r)

variable {col : α → κ} {t : Table α} {k : κ} {r r' : α}

lemma mem_having : r ∈ having col t k ↔ r ∈ t.rows ∧ col r = k := by
  rw [having, List.mem_filter, decide_eq_true_iff]

omit [DecidableEq κ] in
lemma Unique.inj (h : Unique col t) (hr : r ∈ t.rows) (hr' : r' ∈ t.rows) (hcol : col r = col r') :
    r = r' :=
  List.inj_on_of_nodup_map h hr hr' hcol

/-- One row at most has a value. -/
lemma Unique.having_eq (h : Unique col t) (hr : r ∈ t.rows) : having col t (col r) = [r] := by
  have hall : ∀ x ∈ having col t (col r), x = r := fun x hx => by
    obtain ⟨hx, hcol⟩ := mem_having.mp hx
    exact h.inj hx hr hcol
  have hrep := List.eq_replicate_of_mem hall
  have hn : (having col t (col r)).Nodup := (List.Nodup.of_map _ h).filter _
  rw [hrep, List.nodup_replicate] at hn
  have hmem : r ∈ having col t (col r) := mem_having.mpr ⟨hr, rfl⟩
  have hpos := List.length_pos_of_mem hmem
  have hone : (having col t (col r)).length = 1 := by omega
  rw [hrep, hone]
  rfl

/-! ### A row renewed -/

omit [DecidableEq κ] in
lemma rows_renewed (hr : r ∈ t.rows) (hkey : key r' = key r) :
    (t.put r').rows = t.rows.map fun x => if key x = key r' then r' else x :=
  if_pos (hkey ▸ List.mem_map_of_mem hr)

omit [DecidableEq κ] in
lemma col_renewed (hr : r ∈ t.rows) (hkey : key r' = key r) (hcol : col r' = col r) {x : α}
    (hx : x ∈ t.rows) : col (if key x = key r' then r' else x) = col x := by
  split
  · rename_i h
    rw [hcol, t.key_inj hx hr (h.trans hkey)]
  · rfl

omit [DecidableEq κ] in
lemma unique_renewed (h : Unique col t) (hr : r ∈ t.rows) (hkey : key r' = key r)
    (hcol : col r' = col r) : Unique col (t.put r') := by
  have hsame : (t.put r').rows.map col = t.rows.map col := by
    rw [rows_renewed hr hkey, List.map_map]
    exact List.map_congr_left fun x hx => col_renewed hr hkey hcol hx
  rw [Unique, hsame]
  exact h

lemma having_renewed_ne (hr : r ∈ t.rows) (hkey : key r' = key r) (hcol : col r' = col r)
    (hk : k ≠ col r) : having col (t.put r') k = having col t k := by
  rw [having, rows_renewed hr hkey, having, List.filter_map]
  have hfilter : t.rows.filter ((fun x => decide (col x = k)) ∘ fun x =>
      if key x = key r' then r' else x) = t.rows.filter fun x => col x = k := by
    refine List.filter_congr fun x hx => ?_
    rw [Function.comp_apply, col_renewed hr hkey hcol hx]
  rw [hfilter]
  calc (t.rows.filter fun x => col x = k).map (fun x => if key x = key r' then r' else x)
    _ = (t.rows.filter fun x => col x = k).map id := by
      refine List.map_congr_left fun x hx => if_neg fun h => ?_
      obtain ⟨hx, hcx⟩ := mem_having.mp hx
      obtain rfl : x = r := t.key_inj hx hr (h.trans hkey)
      exact hk hcx.symm
    _ = t.rows.filter fun x => col x = k := List.map_id _

/-! ### A row added -/

omit [DecidableEq κ] in
lemma unique_added (h : Unique col t) (hkey : t.next ≤ key r) (hnew : ∀ x ∈ t.rows, col x ≠ col r) :
    Unique col (t.put r) := by
  rw [Unique, Table.rows_put_new hkey, List.map_append, List.map_singleton, List.nodup_append]
  refine ⟨h, List.nodup_singleton _, fun c hc c' hc' => ?_⟩
  obtain ⟨x, hx, rfl⟩ := List.mem_map.mp hc
  rw [List.mem_singleton.mp hc']
  exact hnew x hx

lemma having_added_ne (hkey : t.next ≤ key r) (hk : k ≠ col r) :
    having col (t.put r) k = having col t k := by
  rw [having, Table.rows_put_new hkey, List.filter_append, List.filter_singleton, having]
  simp [hk.symm]

/-! ### One or the other -/

/-- The new row has the value, and a renewed row keeps its own. -/
structure Writes (col : α → κ) (k : κ) (new : ℤ → α) (renew : α → α) : Prop where
  newKey : ∀ n, key (new n) = n
  newCol : ∀ n, col (new n) = k
  renewKey : ∀ r, key (renew r) = key r
  renewCol : ∀ r, col (renew r) = col r

variable {new : ℤ → α} {renew : α → α}

/-- The column stays a key. -/
theorem Unique.upsert (h : Unique col t) (hw : Writes col k new renew) :
    Unique col (upsert col t k new renew) := by
  unfold Conflict.upsert
  rcases hf : t.rows.find? fun r => col r = k with _ | r
  · refine unique_added h (hw.newKey _).ge fun x hx => ?_
    rw [hw.newCol]
    simpa using List.find?_eq_none.mp hf x hx
  · exact unique_renewed h (List.mem_of_find?_eq_some hf) (hw.renewKey r) (hw.renewCol r)

/-- **The value** is held by one row afterwards, the new one or one that was renewed. -/
theorem having_upsert (h : Unique col t) (hw : Writes col k new renew) :
    ∃ x, having col (upsert col t k new renew) k = [x] ∧ (x = new t.next ∨ ∃ r, x = renew r) := by
  have hu := h.upsert hw
  unfold upsert at hu ⊢
  rcases hf : t.rows.find? fun r => col r = k with _ | r
  · rw [hf] at hu
    refine ⟨new t.next, ?_, Or.inl rfl⟩
    have hmem : new t.next ∈ (t.put (new t.next)).rows := Table.mem_put.mpr (Or.inl rfl)
    simpa only [hw.newCol] using hu.having_eq hmem
  · rw [hf] at hu
    refine ⟨renew r, ?_, Or.inr ⟨r, rfl⟩⟩
    have hcol : col r = k := by simpa using List.find?_some hf
    have hmem : renew r ∈ (t.put (renew r)).rows := Table.mem_put.mpr (Or.inl rfl)
    simpa only [hw.renewCol, hcol] using hu.having_eq hmem

/-- **Other values** keep their rows. -/
theorem having_upsert_ne (hw : Writes col k new renew) {j : κ} (hj : j ≠ k) :
    having col (upsert col t k new renew) j = having col t j := by
  unfold upsert
  rcases hf : t.rows.find? fun r => col r = k with _ | r
  · exact having_added_ne (hw.newKey _).ge (by rwa [hw.newCol])
  · have hcol : col r = k := by simpa using List.find?_some hf
    exact having_renewed_ne (List.mem_of_find?_eq_some hf) (hw.renewKey r) (hw.renewCol r)
      (by rwa [hcol])

end Veckomenyn.Conflict
