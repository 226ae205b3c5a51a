import Mathlib.Data.List.Basic

/-!
Lists cut at a separator.

A separator is found at the first place it starts. Parts that do not hold its first item are
found again, whatever the last of them holds.
-/

namespace Veckomenyn.Splitting

variable {α : Type} [DecidableEq α]

/-- What stands before the first separator, which is not empty, and what follows it. -/
def cut (sep : List α) : List α → Option (List α × List α)
  | [] => none
  | x :: xs =>
    if sep <+: x :: xs then some ([], (x :: xs).drop sep.length)
    else (cut sep xs).map fun p => (x :: p.1, p.2)

/-- Up to `n` parts, the last of which is not cut any further. -/
def splitN (sep : List α) : ℕ → List α → List (List α)
  | 0, _ => []
  | 1, xs => [xs]
  | n + 2, xs =>
    match cut sep xs with
    | none => [xs]
    | some p => p.1 :: splitN sep (n + 1) p.2

variable {s : α} {sep xs : List α}

lemma cut_of_notMem (h : s ∉ xs) : cut (s :: sep) xs = none := by
  induction xs with
  | nil => rfl
  | cons x xs ih =>
    simp only [List.mem_cons, not_or] at h
    have hstart : ¬ s :: sep <+: x :: xs := fun hp => h.1 (List.cons_prefix_cons.mp hp).1
    rw [cut, if_neg hstart, ih h.2, Option.map_none]

lemma cut_append (h : s ∉ xs) (ys : List α) :
    cut (s :: sep) (xs ++ (s :: sep ++ ys)) = some (xs, ys) := by
  induction xs with
  | nil =>
    have hstart : s :: sep <+: s :: (sep ++ ys) := List.prefix_append (s :: sep) ys
    rw [List.nil_append, List.cons_append, cut, if_pos hstart, ← List.cons_append, List.drop_left]
  | cons x xs ih =>
    simp only [List.mem_cons, not_or] at h
    have hstart : ¬ s :: sep <+: x :: (xs ++ (s :: sep ++ ys)) := fun hp =>
      h.1 (List.cons_prefix_cons.mp hp).1
    rw [List.cons_append, cut, if_neg hstart, ih h.2, Option.map_some]

/-- **Joined parts come apart as they were.** -/
theorem splitN_intercalate {parts : List (List α)} {last : List α} {n : ℕ}
    (hn : parts.length < n) (h : ∀ p ∈ parts, s ∉ p) (hlast : parts.length + 1 < n → s ∉ last) :
    splitN (s :: sep) n (parts.foldr (fun p rest => p ++ (s :: sep ++ rest)) last) =
      parts ++ [last] := by
  induction parts generalizing n with
  | nil =>
    rcases n with _ | _ | n
    · exact absurd hn (Nat.lt_irrefl 0)
    · rfl
    · have hlast' : s ∉ last := hlast (by rw [List.length_nil]; omega)
      rw [List.foldr_nil, splitN, cut_of_notMem hlast']
      rfl
  | cons p parts ih =>
    rw [List.length_cons] at hn hlast
    obtain ⟨n, rfl⟩ : ∃ m, n = m + 2 := ⟨n - 2, by omega⟩
    have hrest := ih (n := n + 1) (by omega) (fun q hq => h q (List.mem_cons_of_mem _ hq))
      fun hlt => hlast (by omega)
    rw [List.foldr_cons, splitN, cut_append (h p List.mem_cons_self)]
    exact congrArg (p :: ·) hrest

end Veckomenyn.Splitting
