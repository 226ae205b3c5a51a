import Mathlib.Data.List.MinMax
import Mathlib.Data.List.Nodup

/-!
The newest entries of each key.

Entries are dropped when another of the same key is later. What stays are the newest of each key:
all of them, when several share the latest time.
-/

namespace Veckomenyn.Latest

variable {α κ τ : Type*} [DecidableEq κ] [LinearOrder τ] {key : α → κ} {time : α → τ}
  {xs : List α} {a : α}

/-- Another entry of the key is later. -/
def Older (key : α → κ) (time : α → τ) (xs : List α) (a : α) : Prop :=
  ∃ b ∈ xs, key a = key b ∧ time a < time b

instance : DecidablePred (Older key time xs) := fun a =>
  inferInstanceAs (Decidable (∃ b ∈ xs, key a = key b ∧ time a < time b))

/-- What stays. -/
def collapse (key : α → κ) (time : α → τ) (xs : List α) : List α :=
  xs.filter fun a => ¬ Older key time xs a

/-- No other entry of the key shares its latest time. -/
def Untied (key : α → κ) (time : α → τ) (xs : List α) : Prop :=
  ∀ a ∈ xs, ∀ b ∈ xs, key a = key b → time a = time b → ¬ Older key time xs a → a = b

instance [DecidableEq α] : Decidable (Untied key time xs) :=
  inferInstanceAs (Decidable (∀ a ∈ xs, ∀ b ∈ xs, key a = key b → time a = time b →
    ¬ Older key time xs a → a = b))

omit [DecidableEq κ] in
lemma not_older_iff : ¬ Older key time xs a ↔ ∀ b ∈ xs, key b = key a → time b ≤ time a := by
  unfold Older
  push Not
  exact forall_congr' fun b => forall_congr' fun _ => by rw [eq_comm]

lemma mem_collapse : a ∈ collapse key time xs ↔ a ∈ xs ∧ ¬ Older key time xs a := by
  simp [collapse]

/-- Of a key that is there, one entry stays. -/
lemma exists_newest (key : α → κ) (time : α → τ) (ha : a ∈ xs) :
    ∃ b ∈ collapse key time xs, key b = key a := by
  let ys := xs.filter fun b => key b = key a
  have hne : ys.argmax time ≠ none := by
    rw [ne_eq, List.argmax_eq_none]
    exact List.ne_nil_of_mem (List.mem_filter.mpr ⟨ha, decide_eq_true rfl⟩)
  obtain ⟨b, hb⟩ := Option.ne_none_iff_exists'.mp hne
  obtain ⟨hmem, hkey⟩ := List.mem_filter.mp (List.argmax_mem hb)
  have hkey : key b = key a := of_decide_eq_true hkey
  refine ⟨b, mem_collapse.mpr ⟨hmem, not_older_iff.mpr fun c hc hk => ?_⟩, hkey⟩
  have hc : c ∈ ys := List.mem_filter.mpr ⟨hc, decide_eq_true (hk.trans hkey)⟩
  exact List.le_of_mem_argmax hc hb

/-- **What stays**: one entry of each key, exactly when no two share the latest time of theirs. -/
theorem nodup_collapse_iff (key : α → κ) (time : α → τ) (hn : xs.Nodup) :
    ((collapse key time xs).map key).Nodup ↔ Untied key time xs := by
  have hc : (collapse key time xs).Nodup := hn.filter _
  constructor
  · intro h a ha b hb hkey htime hnew
    have hb' : ¬ Older key time xs b := by
      rintro ⟨c, hc, hk, ht⟩
      exact hnew ⟨c, hc, hkey.trans hk, htime ▸ ht⟩
    exact List.inj_on_of_nodup_map h (mem_collapse.mpr ⟨ha, hnew⟩) (mem_collapse.mpr ⟨hb, hb'⟩) hkey
  · intro h
    refine hc.map_on fun a ha b hb hkey => ?_
    obtain ⟨ha, hna⟩ := mem_collapse.mp ha
    obtain ⟨hb, hnb⟩ := mem_collapse.mp hb
    refine h a ha b hb hkey (le_antisymm ?_ ?_) hna
    · exact not_older_iff.mp hnb a ha hkey
    · exact not_older_iff.mp hna b hb hkey.symm

omit [DecidableEq κ] in
/-- Entries that differ in key or time are not tied. -/
lemma untied_of_inj (h : ∀ a ∈ xs, ∀ b ∈ xs, key a = key b → time a = time b → a = b) :
    Untied key time xs :=
  fun a ha b hb hkey htime _ => h a ha b hb hkey htime

end Veckomenyn.Latest
