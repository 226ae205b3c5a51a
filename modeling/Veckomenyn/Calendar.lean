import Mathlib.Tactic.NormNum

/-!
The proleptic Gregorian calendar as day numbers.

Day `0` is the first of January of year `1`, a Monday; the year before year `1` is year `0`.
A year is read off the day by the quotients of its 400, 100, 4 and 1 year cycles, and a month
off the day within the year by the regular pattern of the months from March on.
-/

namespace Veckomenyn.Calendar

/-- The days before year `y`. -/
def yearStart (y : ℤ) : ℤ := 365 * (y - 1) + (y - 1) / 4 - (y - 1) / 100 + (y - 1) / 400

/-- The number of leap days of a year. -/
def leap (y : ℤ) : ℤ := if y % 4 = 0 ∧ (y % 100 ≠ 0 ∨ y % 400 = 0) then 1 else 0

def year (d : ℤ) : ℤ :=
  let r400 := d % 146097
  let n100 := min 3 (r400 / 36524)
  let r100 := r400 - 36524 * n100
  let n4 := r100 / 1461
  let n1 := min 3 ((r100 - 1461 * n4) / 365)
  400 * (d / 146097) + 100 * n100 + 4 * n4 + n1 + 1

lemma leap_cases (y : ℤ) : leap y = 0 ∨ leap y = 1 := by
  unfold leap
  split_ifs
  · exact Or.inr rfl
  · exact Or.inl rfl

lemma yearStart_succ (y : ℤ) : yearStart (y + 1) = yearStart y + 365 + leap y := by
  unfold yearStart leap
  split_ifs <;> omega

lemma yearStart_mono {y z : ℤ} (h : y ≤ z) : yearStart y ≤ yearStart z := by
  unfold yearStart; omega

lemma yearStart_split {a b c e : ℤ} (hb : 0 ≤ b ∧ b ≤ 3) (hc : 0 ≤ c ∧ c ≤ 24)
    (he : 0 ≤ e ∧ e ≤ 3) :
    yearStart (400 * a + 100 * b + 4 * c + e + 1) =
      146097 * a + 36524 * b + 1461 * c + 365 * e := by
  unfold yearStart; omega

lemma min_div (r : ℤ) {k m : ℤ} (hm : 0 < m) (hk : 0 ≤ k) (hr : 0 ≤ r) :
    0 ≤ min k (r / m) ∧ min k (r / m) ≤ k ∧ m * min k (r / m) ≤ r ∧
      (r < m * min k (r / m) + m ∨ min k (r / m) = k) := by
  have h0 : 0 ≤ r / m := Int.ediv_nonneg hr hm.le
  have h1 : m * (r / m) ≤ r := Int.mul_ediv_self_le hm.ne'
  have h2 : r < m * (r / m) + m := Int.lt_mul_ediv_self_add hm
  rcases le_total k (r / m) with h | h
  · rw [min_eq_left h]
    exact ⟨hk, le_rfl, le_trans (Int.mul_le_mul_of_nonneg_left h hm.le) h1, Or.inr rfl⟩
  · rw [min_eq_right h]
    exact ⟨h0, h, h1, Or.inl h2⟩

/-- The quotients the year is read off, and the day within the year. -/
lemma year_digits (d : ℤ) : ∃ a b c e t : ℤ, year d = 400 * a + 100 * b + 4 * c + e + 1 ∧
    (0 ≤ b ∧ b ≤ 3) ∧ (0 ≤ c ∧ c ≤ 24) ∧ (0 ≤ e ∧ e ≤ 3) ∧
    d = 146097 * a + 36524 * b + 1461 * c + 365 * e + t ∧ 0 ≤ t ∧
    (t < 365 ∨ t = 365 ∧ e = 3 ∧ (c ≤ 23 ∨ b = 3)) := by
  obtain ⟨hr0, hr1⟩ : 0 ≤ d % 146097 ∧ d % 146097 < 146097 := by omega
  have hb := min_div (d % 146097) (k := 3) (m := 36524) (by norm_num) (by norm_num) hr0
  obtain ⟨b, hb'⟩ : ∃ b, b = min 3 (d % 146097 / 36524) := ⟨_, rfl⟩
  rw [← hb'] at hb
  obtain ⟨c, hc⟩ : ∃ c, c = (d % 146097 - 36524 * b) / 1461 := ⟨_, rfl⟩
  have he := min_div (d % 146097 - 36524 * b - 1461 * c) (k := 3) (m := 365) (by norm_num)
    (by norm_num) (by omega)
  obtain ⟨e, he'⟩ : ∃ e, e = min 3 ((d % 146097 - 36524 * b - 1461 * c) / 365) := ⟨_, rfl⟩
  rw [← he'] at he
  refine ⟨d / 146097, b, c, e, d % 146097 - 36524 * b - 1461 * c - 365 * e, ?_, ⟨hb.1, hb.2.1⟩,
    ?_, ⟨he.1, he.2.1⟩, ?_, ?_, ?_⟩
  · simp only [year, ← hb', ← hc, ← he']
  all_goals clear hb' he'; omega

lemma year_spec (d : ℤ) : yearStart (year d) ≤ d ∧ d < yearStart (year d + 1) := by
  obtain ⟨a, b, c, e, t, hy, hb, hc, he, hd, ht, hlast⟩ := year_digits d
  have hs := yearStart_split (a := a) hb hc he
  rw [yearStart_succ, hy, hs]
  refine ⟨by omega, ?_⟩
  rcases hlast with h | ⟨rfl, rfl, hcb⟩
  · have := leap_cases (400 * a + 100 * b + 4 * c + e + 1)
    omega
  · -- the last day of a leap year
    have hl : leap (400 * a + 100 * b + 4 * c + 3 + 1) = 1 := by
      unfold leap
      rw [if_pos]
      rcases hcb with h | h <;> omega
    omega

lemma year_eq {d : ℤ} {y : ℤ} (h0 : yearStart y ≤ d) (h1 : d < yearStart (y + 1)) :
    year d = y := by
  have ⟨s0, s1⟩ := year_spec d
  rcases lt_trichotomy (year d) y with h | h | h
  · have := yearStart_mono (show year d + 1 ≤ y by omega); omega
  · exact h
  · have := yearStart_mono (show y + 1 ≤ year d by omega); omega

lemma year_mono {a b : ℤ} (h : a ≤ b) : year a ≤ year b := by
  by_contra hc
  have ⟨a0, _⟩ := year_spec a
  have ⟨_, b1⟩ := year_spec b
  have := yearStart_mono (show year b + 1 ≤ year a by omega)
  omega

/-! ### Months -/

/-- The days before month `m` of a year with `l` leap days; month `13` closes the year. -/
def monthStart (l m : ℤ) : ℤ :=
  if m ≤ 2 then 31 * (m - 1) else (153 * (m - 3) + 2) / 5 + 59 + l

/-- The month of the `r`-th day of a year with `l` leap days. -/
def monthOf (l r : ℤ) : ℤ :=
  if r < 31 then 1 else if r < 59 + l then 2 else (5 * (r - 59 - l) + 2) / 153 + 3

def yearDay (d : ℤ) : ℤ := d - yearStart (year d)
def month (d : ℤ) : ℤ := monthOf (leap (year d)) (yearDay d)
def monthDay (d : ℤ) : ℤ := yearDay d - monthStart (leap (year d)) (month d) + 1

def ofYmd (y m k : ℤ) : ℤ := yearStart y + monthStart (leap y) m + k - 1

/-- Month `m` of year `y` has a day `k`. -/
def ValidYmd (y m k : ℤ) : Prop :=
  1 ≤ m ∧ m ≤ 12 ∧ 1 ≤ k ∧ k ≤ monthStart (leap y) (m + 1) - monthStart (leap y) m

instance (y m k : ℤ) : Decidable (ValidYmd y m k) := by unfold ValidYmd; infer_instance

lemma monthStart_mono {l m n : ℤ} (_ : l = 0 ∨ l = 1) (hm : 1 ≤ m) (h : m ≤ n) :
    monthStart l m ≤ monthStart l n := by
  unfold monthStart; split_ifs <;> omega

lemma month_length (y m : ℤ) : monthStart (leap y) (m + 1) - monthStart (leap y) m ≤ 31 := by
  have := leap_cases y
  unfold monthStart; split_ifs <;> omega

lemma monthOf_spec {l r : ℤ} (_ : l = 0 ∨ l = 1) (h0 : 0 ≤ r) (h1 : r < 365 + l) :
    1 ≤ monthOf l r ∧ monthOf l r ≤ 12 ∧ monthStart l (monthOf l r) ≤ r ∧
      r < monthStart l (monthOf l r + 1) := by
  unfold monthOf
  split_ifs with hj hf
  · simp only [monthStart]; omega
  · simp only [monthStart]; norm_num; omega
  · obtain ⟨q, hq⟩ : ∃ q, q = (5 * (r - 59 - l) + 2) / 153 := ⟨_, rfl⟩
    rw [← hq, monthStart, monthStart, if_neg (by omega), if_neg (by omega)]
    omega

lemma monthOf_eq {l r m : ℤ} (hl : l = 0 ∨ l = 1) (hm : 1 ≤ m ∧ m ≤ 12)
    (h0 : monthStart l m ≤ r) (h1 : r < monthStart l (m + 1)) : monthOf l r = m := by
  have hr0 : 0 ≤ r := le_trans (by unfold monthStart; split_ifs <;> omega) h0
  have hr1 : r < 365 + l := by
    have := monthStart_mono hl (show 1 ≤ m + 1 by omega) (show m + 1 ≤ 13 by omega)
    rw [show monthStart l 13 = 365 + l by unfold monthStart; norm_num] at this
    omega
  obtain ⟨s0, s1, s2, s3⟩ := monthOf_spec hl hr0 hr1
  rcases lt_trichotomy (monthOf l r) m with h | h | h
  · have := monthStart_mono hl (by omega) (show monthOf l r + 1 ≤ m by omega); omega
  · exact h
  · have := monthStart_mono hl (by omega) (show m + 1 ≤ monthOf l r by omega); omega

lemma yearDay_bounds (d : ℤ) : 0 ≤ yearDay d ∧ yearDay d < 365 + leap (year d) := by
  have ⟨h0, h1⟩ := year_spec d
  rw [yearStart_succ] at h1
  unfold yearDay; omega

lemma valid_ymd (d : ℤ) : ValidYmd (year d) (month d) (monthDay d) := by
  have ⟨h0, h1⟩ := yearDay_bounds d
  have h := monthOf_spec (leap_cases (year d)) h0 h1
  unfold ValidYmd monthDay month
  omega

lemma ofYmd_ymd (d : ℤ) : ofYmd (year d) (month d) (monthDay d) = d := by
  unfold ofYmd monthDay yearDay; omega

lemma ymd_ofYmd {y m k : ℤ} (h : ValidYmd y m k) :
    year (ofYmd y m k) = y ∧ month (ofYmd y m k) = m ∧ monthDay (ofYmd y m k) = k := by
  obtain ⟨hm1, hm2, hk1, hk2⟩ := h
  have hl := leap_cases y
  have hlo := monthStart_mono hl le_rfl hm1
  have hhi := monthStart_mono hl (show 1 ≤ m + 1 by omega) (show m + 1 ≤ 13 by omega)
  rw [show monthStart (leap y) 13 = 365 + leap y by unfold monthStart; norm_num] at hhi
  rw [show monthStart (leap y) 1 = 0 by unfold monthStart; norm_num] at hlo
  have hs := yearStart_succ y
  have hy : year (ofYmd y m k) = y := year_eq (by unfold ofYmd; omega) (by unfold ofYmd; omega)
  have hr : yearDay (ofYmd y m k) = monthStart (leap y) m + k - 1 := by
    unfold yearDay; rw [hy]; unfold ofYmd; omega
  have hmo : month (ofYmd y m k) = m := by
    unfold month; rw [hy, hr]; exact monthOf_eq hl ⟨hm1, hm2⟩ (by omega) (by omega)
  refine ⟨hy, hmo, ?_⟩
  unfold monthDay; rw [hmo, hy, hr]; omega

/-- Days are ordered like their year, month and day of the month. -/
lemma lt_iff_ymd (a b : ℤ) : a < b ↔ year a < year b ∨ year a = year b ∧
    (month a < month b ∨ month a = month b ∧ monthDay a < monthDay b) := by
  rcases lt_trichotomy (year a) (year b) with h | h | h
  · have : ¬ b ≤ a := fun hc => absurd (year_mono hc) (by omega)
    omega
  · have ea := ofYmd_ymd a
    have eb := ofYmd_ymd b
    have va := valid_ymd a
    have vb := valid_ymd b
    have hl := leap_cases (year b)
    rw [h] at ea va
    unfold ofYmd at ea eb
    unfold ValidYmd at va vb
    rcases lt_trichotomy (month a) (month b) with hm | hm | hm
    · have := monthStart_mono hl (by omega) (show month a + 1 ≤ month b by omega)
      omega
    · rw [hm] at ea; omega
    · have := monthStart_mono hl (by omega) (show month b + 1 ≤ month a by omega)
      omega
  · have : ¬ a ≤ b := fun hc => absurd (year_mono hc) (by omega)
    omega

end Veckomenyn.Calendar
