import Mathlib.Data.List.Forall2
import Mathlib.Data.List.Nodup

/-!
Lists side by side.

What sorts, filters and searches two lists by what their elements have in common does the same to
both.
-/

namespace Veckomenyn.SideBySide

variable {ε α β : Type} {R : α → β → Prop} {l : List α} {l' : List β}

lemma exists_pairs (h : List.Forall₂ R l l') : ∃ ps : List (α × β),
    ps.map Prod.fst = l ∧ ps.map Prod.snd = l' ∧ ∀ p ∈ ps, R p.1 p.2 := by
  induction h with
  | nil => exact ⟨[], rfl, rfl, List.forall_mem_nil _⟩
  | @cons a b l l' hab _ ih =>
    obtain ⟨ps, rfl, rfl, hps⟩ := ih
    exact ⟨(a, b) :: ps, rfl, rfl, List.forall_mem_cons.mpr ⟨hab, hps⟩⟩

lemma forall₂_pairs {ps : List (α × β)} (h : ∀ p ∈ ps, R p.1 p.2) :
    List.Forall₂ R (ps.map Prod.fst) (ps.map Prod.snd) := by
  rw [List.forall₂_map_left_iff, List.forall₂_map_right_iff, List.forall₂_same]
  exact h

/-- Lists that compare alike are sorted alike. -/
lemma forall₂_mergeSort (h : List.Forall₂ R l l') {le : α → α → Bool} {le' : β → β → Bool}
    (hle : ∀ a b a' b', R a a' → R b b' → le a b = le' a' b') :
    List.Forall₂ R (l.mergeSort le) (l'.mergeSort le') := by
  obtain ⟨ps, rfl, rfl, hps⟩ := exists_pairs h
  let both (p q : α × β) : Bool := le p.1 q.1
  have hfst : (ps.mergeSort both).map Prod.fst = (ps.map Prod.fst).mergeSort le :=
    List.map_mergeSort fun p _ q _ => rfl
  have hsnd : (ps.mergeSort both).map Prod.snd = (ps.map Prod.snd).mergeSort le' :=
    List.map_mergeSort fun p hp q hq => hle _ _ _ _ (hps p hp) (hps q hq)
  rw [← hfst, ← hsnd]
  exact forall₂_pairs fun p hp => hps p (List.mem_mergeSort.mp hp)

lemma forall₂_filter (h : List.Forall₂ R l l') {f : α → Bool} {g : β → Bool}
    (hfg : ∀ a b, R a b → f a = g b) : List.Forall₂ R (l.filter f) (l'.filter g) := by
  induction h with
  | nil => exact .nil
  | @cons a b l l' hab _ ih =>
    rw [List.filter_cons, List.filter_cons, ← hfg a b hab]
    split_ifs
    · exact .cons hab ih
    · exact ih

lemma rel_find? (h : List.Forall₂ R l l') {f : α → Bool} {g : β → Bool}
    (hfg : ∀ a b, R a b → f a = g b) : Option.Rel R (l.find? f) (l'.find? g) := by
  induction h with
  | nil => exact .none
  | @cons a b l l' hab _ ih =>
    rw [List.find?_cons, List.find?_cons, ← hfg a b hab]
    split
    · exact .some hab
    · exact ih

/-- A pass that fails nowhere. -/
lemma forall₂_mapM {f : α → Except ε β} (h : ∀ a ∈ l, ∃ b, f a = .ok b) :
    ∃ bs, l.mapM f = .ok bs ∧ List.Forall₂ (fun a b => f a = .ok b) l bs := by
  induction l with
  | nil => exact ⟨[], rfl, .nil⟩
  | cons a l ih =>
    obtain ⟨⟨b, hb⟩, hl⟩ := List.forall_mem_cons.mp h
    obtain ⟨bs, hbs, hf⟩ := ih hl
    refine ⟨b :: bs, ?_, .cons hb hf⟩
    rw [List.mapM_cons, hb, hbs]
    rfl

/-- An element is found by what tells it from the others. -/
lemma find?_of_nodup {γ : Type} [DecidableEq γ] {key : α → γ} (hn : (l.map key).Nodup) {a : α}
    (ha : a ∈ l) : l.find? (fun x => key x = key a) = some a := by
  cases hf : l.find? fun x => key x = key a with
  | none => exact absurd (List.find?_eq_none.mp hf a ha) (by simp)
  | some x =>
    have hx : key x = key a := by simpa using List.find?_some hf
    exact congrArg some (List.inj_on_of_nodup_map hn (List.mem_of_find?_eq_some hf) ha hx)

end Veckomenyn.SideBySide
