import Mathlib.Data.List.Infix

/-!
A stream of encoded items that is cut off.

What has come of it is the encodings of its first items and a part of the next one.
-/

namespace Veckomenyn.Framing

variable {α β : Type} (enc : α → List β)

def encode (xs : List α) : List β := xs.flatMap enc

@[simp] lemma encode_nil : encode enc [] = [] := rfl

@[simp] lemma encode_cons (x : α) (xs : List α) :
    encode enc (x :: xs) = enc x ++ encode enc xs := List.flatMap_cons

lemma encode_append (xs ys : List α) :
    encode enc (xs ++ ys) = encode enc xs ++ encode enc ys := List.flatMap_append

lemma encode_take_mono {xs : List α} {j k : ℕ} (h : j ≤ k) :
    encode enc (xs.take j) <+: encode enc (xs.take k) := by
  have hsplit : xs.take k = xs.take j ++ (xs.take k).drop j := by
    conv_lhs => rw [← List.take_append_drop j (xs.take k), List.take_take, min_eq_left h]
  rw [hsplit, encode_append]
  exact List.prefix_append _ _

/-- The first `m` items have come whole, and `t` of the next one. -/
structure Cut (xs : List α) (r : List β) (m : ℕ) (t : List β) : Prop where
  le : m ≤ xs.length
  eq : r = encode enc (xs.take m) ++ t
  part : ∀ x, xs[m]? = some x → t <+: enc x ∧ t ≠ enc x
  ended : xs[m]? = none → t = []

variable {enc} {xs : List α} {r t : List β} {m : ℕ}

lemma Cut.cons (x : α) (h : Cut enc xs r m t) : Cut enc (x :: xs) (enc x ++ r) (m + 1) t := by
  refine ⟨Nat.succ_le_succ h.le, ?_, ?_, ?_⟩
  · rw [List.take_succ_cons, encode_cons, List.append_assoc, ← h.eq]
  · rw [List.getElem?_cons_succ]
    exact h.part
  · rw [List.getElem?_cons_succ]
    exact h.ended

theorem exists_cut (h : r <+: encode enc xs) : ∃ m t, Cut enc xs r m t := by
  induction xs generalizing r with
  | nil =>
    obtain rfl := List.prefix_nil.mp h
    exact ⟨0, [], le_rfl, rfl, by simp, fun _ => rfl⟩
  | cons x xs ih =>
    rw [encode_cons] at h
    by_cases hx : enc x <+: r
    · obtain ⟨r', rfl⟩ := hx
      obtain ⟨m, t, hcut⟩ := ih ((List.prefix_append_right_inj _).mp h)
      exact ⟨m + 1, t, hcut.cons x⟩
    · -- the first item is not whole yet
      have hr : r <+: enc x :=
        (List.prefix_or_prefix_of_prefix h (List.prefix_append _ _)).resolve_right hx
      refine ⟨0, r, Nat.zero_le _, rfl, ?_, by simp⟩
      intro y hy
      cases hy
      exact ⟨hr, fun heq => hx (heq ▸ List.prefix_rfl)⟩

/-- **The whole items are counted by `m`.** -/
theorem Cut.prefix_iff (h : Cut enc xs r m t) {j : ℕ} (hj : j ≤ xs.length) :
    encode enc (xs.take j) <+: r ↔ j ≤ m := by
  constructor
  · intro hpre
    by_contra hlt
    have hm : m < xs.length := by omega
    have hsucc : encode enc (xs.take (m + 1)) <+: r :=
      (encode_take_mono enc (by omega)).trans hpre
    have hx := h.part xs[m] (List.getElem?_eq_getElem hm)
    rw [h.eq, List.take_succ_eq_append_getElem hm, encode_append, List.prefix_append_right_inj,
      encode_cons, encode_nil, List.append_nil] at hsucc
    exact hx.2 (hx.1.eq_of_length (le_antisymm hx.1.length_le hsucc.length_le))
  · intro hle
    rw [h.eq]
    exact (encode_take_mono enc hle).trans (List.prefix_append _ _)

end Veckomenyn.Framing
