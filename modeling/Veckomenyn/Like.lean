import Mathlib.Data.List.Infix

/-!
Patterns with wildcards, as SQL has them.

`%` stands for any run of characters, `_` for any one, and a backslash makes the next character
stand for itself. Two characters are the same when `fold` sends them to the same.
-/

namespace Veckomenyn.Like

inductive Part where
  | any
  | one
  | lit (c : Char)
deriving DecidableEq

/-- A pattern that ends with its escape is refused. -/
def parse : List Char → Option (List Part)
  | [] => some []
  | c :: p =>
    if c = '\\' then
      match p with
      | [] => none
      | x :: p' => (parse p').map (Part.lit x :: ·)
    else if c = '%' then (parse p).map (Part.any :: ·)
    else if c = '_' then (parse p).map (Part.one :: ·)
    else (parse p).map (Part.lit c :: ·)

variable {β : Type} [DecidableEq β] (fold : Char → β)

/-- Whether the whole text is what the parts stand for. -/
def fits : List Part → List Char → Bool
  | [], t => t.isEmpty
  | .any :: p, t => t.tails.any (fits p)
  | .one :: _, [] => false
  | .one :: p, _ :: t => fits p t
  | .lit _ :: _, [] => false
  | .lit c :: p, x :: t => fold x = fold c && fits p t

def like (t p : List Char) : Option Bool := (parse p).map fun parts => fits fold parts t

/-! ### Reading a pattern -/

@[simp] lemma parse_nil : parse [] = some [] := rfl

@[simp] lemma parse_escaped (c : Char) (p : List Char) :
    parse ('\\' :: c :: p) = (parse p).map (Part.lit c :: ·) := rfl

@[simp] lemma parse_any (p : List Char) : parse ('%' :: p) = (parse p).map (Part.any :: ·) := by
  rw [parse.eq_def]
  rfl

lemma parse_plain {c : Char} (h : c ∉ ['\\', '%', '_']) (p : List Char) :
    parse (c :: p) = (parse p).map (Part.lit c :: ·) := by
  have h1 : c ≠ '\\' := fun hc => h (by simp [hc])
  have h2 : c ≠ '%' := fun hc => h (by simp [hc])
  have h3 : c ≠ '_' := fun hc => h (by simp [hc])
  rw [parse.eq_def]
  simp only [if_neg h1, if_neg h2, if_neg h3]

/-- A character as a pattern for itself alone. -/
def escape (c : Char) : List Char := if c ∈ ['\\', '%', '_'] then ['\\', c] else [c]

lemma parse_escape (c : Char) (p : List Char) :
    parse (escape c ++ p) = (parse p).map (Part.lit c :: ·) := by
  unfold escape
  split
  · exact parse_escaped c p
  · rename_i h
    exact parse_plain h p

/-- **A text that is escaped is read as its characters.** -/
theorem parse_escapes (q p : List Char) :
    parse (q.flatMap escape ++ p) = (parse p).map (q.map Part.lit ++ ·) := by
  induction q with
  | nil => simp
  | cons c q ih =>
    rw [List.flatMap_cons, List.append_assoc, parse_escape, ih, Option.map_map]
    rfl

/-! ### What the parts stand for -/

variable {fold} {p : List Part} {t : List Char}

lemma fits_any : fits fold (.any :: p) t = true ↔ ∃ s, s <:+ t ∧ fits fold p s = true := by
  rw [fits, List.any_eq_true]
  constructor
  · rintro ⟨s, hs, h⟩
    exact ⟨s, (List.mem_tails s t).mp hs, h⟩
  · rintro ⟨s, hs, h⟩
    exact ⟨s, (List.mem_tails s t).mpr hs, h⟩

lemma fits_lit {c : Char} : fits fold (.lit c :: p) t = true ↔
    ∃ x s, t = x :: s ∧ fold x = fold c ∧ fits fold p s = true := by
  cases t with
  | nil => simp [fits]
  | cons x s => simp [fits]

/-- Any run at the end takes all that is left. -/
lemma fits_rest : fits fold [.any] t = true := by
  rw [fits_any]
  exact ⟨[], List.nil_suffix, rfl⟩

lemma fits_lits {q : List Char} : fits fold (q.map Part.lit ++ p) t = true ↔
    ∃ a s, t = a ++ s ∧ a.map fold = q.map fold ∧ fits fold p s = true := by
  induction q generalizing t with
  | nil =>
    constructor
    · intro h
      exact ⟨[], t, rfl, rfl, h⟩
    · rintro ⟨a, s, rfl, ha, h⟩
      obtain rfl := List.map_eq_nil_iff.mp ha
      exact h
  | cons c q ih =>
    rw [List.map_cons, List.cons_append, fits_lit]
    constructor
    · rintro ⟨x, s, rfl, hx, h⟩
      obtain ⟨a, s, rfl, ha, h⟩ := ih.mp h
      exact ⟨x :: a, s, rfl, by rw [List.map_cons, hx, ha, List.map_cons], h⟩
    · rintro ⟨a, s, rfl, ha, h⟩
      obtain ⟨x, a, rfl, hx, ha⟩ := List.map_eq_cons_iff.mp ha
      exact ⟨x, a ++ s, rfl, hx, ih.mpr ⟨a, s, rfl, ha, h⟩⟩

/-- **Characters between two runs** occur in the text side by side. -/
theorem fits_between {q : List Char} :
    fits fold (.any :: (q.map Part.lit ++ [.any])) t = true ↔ q.map fold <:+: t.map fold := by
  rw [fits_any]
  constructor
  · rintro ⟨_, ⟨l, rfl⟩, h⟩
    obtain ⟨a, s, rfl, ha, -⟩ := fits_lits.mp h
    rw [List.map_append, List.map_append, ha]
    exact List.infix_append' _ _ _
  · rintro ⟨l, r, h⟩
    obtain ⟨l', r', rfl, hl, hr⟩ := List.map_eq_append_iff.mp h.symm
    obtain ⟨l'', a, rfl, hl, ha⟩ := List.map_eq_append_iff.mp hl
    refine ⟨a ++ r', ⟨l'', (List.append_assoc _ _ _).symm⟩, ?_⟩
    exact fits_lits.mpr ⟨a, r', rfl, ha, fits_rest⟩

/-- **An escaped text between two wildcards** is a pattern for the texts that contain it. -/
theorem like_between (q t : List Char) :
    like fold t ('%' :: (q.flatMap escape ++ ['%'])) =
      some (decide (q.map fold <:+: t.map fold)) := by
  have hrest : parse ['%'] = some [Part.any] := by rw [parse_any, parse_nil, Option.map_some]
  have hparts : parse ('%' :: (q.flatMap escape ++ ['%'])) =
      some (.any :: (q.map Part.lit ++ [.any])) := by
    rw [parse_any, parse_escapes, hrest]
    rfl
  rw [like, hparts, Option.map_some, Option.some.injEq, Bool.eq_iff_iff, decide_eq_true_iff]
  exact fits_between

end Veckomenyn.Like
