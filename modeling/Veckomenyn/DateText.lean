import Veckomenyn.Calendar

/-!
The ISO text of a day, `YYYY-MM-DD`, its reading, and the order of texts.

The year is padded to four digits and longer years run on, so texts compare like the days
they stand for only while the years have four digits. `textLt` compares character by
character, whatever the years are.
-/

namespace Veckomenyn.DateText

open Veckomenyn.Calendar

/-- The order of strings, character by character. -/
def ltChars : List Char → List Char → Bool
  | _, [] => false
  | [], _ :: _ => true
  | a :: as, b :: bs => if a = b then ltChars as bs else decide (a.toNat < b.toNat)

def textLt (s t : String) : Bool := ltChars s.toList t.toList

/-- `n` in at least `k` digits. -/
def pad (k n : ℕ) : List Char :=
  List.replicate (k - (Nat.toDigits 10 n).length) '0' ++ Nat.toDigits 10 n

/-- `-MM-DD`. -/
def tail (d : ℤ) : List Char :=
  '-' :: (pad 2 (month d).toNat ++ '-' :: pad 2 (monthDay d).toNat)

def bcMark : List Char := [' ', 'B', 'C']

/-- A year before year `1` is counted backwards and marked. -/
def chars (d : ℤ) : List Char :=
  if 0 < year d then pad 4 (year d).toNat ++ tail d
  else pad 4 (1 - year d).toNat ++ tail d ++ bcMark

def text (d : ℤ) : String := String.ofList (chars d)

/-- The ISO 8601 week a day lies in, as `IYYY-Www`: the week belongs to the year of its
Thursday. -/
def isoWeek (d : ℤ) : String :=
  let thursday := d - d % 7 + 3
  let y := year thursday
  let n := (thursday - yearStart y) / 7 + 1
  String.ofList (pad 4 (if 0 < y then y else 1 - y).toNat ++ '-' :: 'W' :: pad 2 n.toNat)

/-! ### Reading a text back -/

def number (cs : List Char) : Option ℕ :=
  if cs.all Char.isDigit then some (Nat.ofDigitChars 10 cs 0) else none

def readTail : List Char → Option (ℕ × ℕ)
  | ['-', a, b, '-', c, d] =>
    match number [a, b], number [c, d] with
    | some m, some k => some (m, k)
    | _, _ => none
  | _ => none

/-- A year of at least four digits, then month and day. -/
def readDay (bc : Bool) (cs : List Char) : Option ℤ :=
  let n := cs.length - 6
  match number (cs.take n), readTail (cs.drop n) with
  | some y, some (m, k) =>
    let y' : ℤ := if bc then 1 - y else y
    if 4 ≤ n ∧ 1 ≤ y ∧ ValidYmd y' m k then some (ofYmd y' m k) else none
  | _, _ => none

def readChars (cs : List Char) : Option ℤ :=
  if cs.drop (cs.length - 3) = bcMark then readDay true (cs.take (cs.length - 3))
  else readDay false cs

def parseDate (s : String) : Option ℤ := readChars s.toList

/-- Four digits, two digits, two digits, with dashes between. -/
def isoShape : List Char → Bool
  | [a, b, c, d, '-', e, f, '-', g, h] => [a, b, c, d, e, f, g, h].all Char.isDigit
  | _ => false

/-- The years whose text has four digits. -/
def FourDigit (d : ℤ) : Prop := 1 ≤ year d ∧ year d ≤ 9999

instance (d : ℤ) : Decidable (FourDigit d) := by unfold FourDigit; infer_instance

/-! ### Digits -/

lemma pad_digits (k n : ℕ) : (pad k n).all Char.isDigit = true := by
  rw [List.all_eq_true]
  intro c hc
  rcases List.mem_append.mp hc with h | h
  · rw [List.eq_of_mem_replicate h]; decide
  · exact Nat.isDigit_of_mem_toDigits (by decide) (by decide) h

lemma pad_value (k n : ℕ) : Nat.ofDigitChars 10 (pad k n) 0 = n := by
  rw [pad, Nat.ofDigitChars_append, Nat.ofDigitChars_replicate_zero, Nat.mul_zero]
  exact Nat.ofDigitChars_ten_toDigits

lemma number_pad (k n : ℕ) : number (pad k n) = some n := by
  rw [number, if_pos (pad_digits k n), pad_value]

lemma pad_length {k n : ℕ} (hk : 0 < k) (h : n < 10 ^ k) : (pad k n).length = k := by
  have := (Nat.length_toDigits_le_iff (n := n) (by decide : 1 < 10) hk).mpr h
  simp only [pad, List.length_append, List.length_replicate]
  omega

lemma le_pad_length (k n : ℕ) : k ≤ (pad k n).length := by
  simp only [pad, List.length_append, List.length_replicate]
  omega

/-- Numbers of digits below the base, compared digit by digit. -/
lemma mul_add_lt_iff {p q r x y : ℕ} (hx : x < p) (hy : y < p) (h : q ≠ r) :
    p * q + x < p * r + y ↔ q < r := by
  constructor
  · intro hlt
    by_contra hc
    have : p * (r + 1) ≤ p * q := Nat.mul_le_mul_left _ (by omega)
    rw [Nat.mul_succ] at this
    omega
  · intro hlt
    have : p * (q + 1) ≤ p * r := Nat.mul_le_mul_left _ (by omega)
    rw [Nat.mul_succ] at this
    omega

lemma digit_toNat {c : Char} (h : c.isDigit = true) : '0'.toNat ≤ c.toNat := by
  simp only [Char.isDigit, Bool.and_eq_true, decide_eq_true_eq] at h
  exact UInt32.le_iff_toNat_le.mp h.1

lemma digit_value {c : Char} (h : c.isDigit = true) : c.toNat - '0'.toNat < 10 := by
  simp only [Char.isDigit, Bool.and_eq_true, decide_eq_true_eq] at h
  have h1 : c.toNat ≤ 57 := UInt32.le_iff_toNat_le.mp h.2
  have h2 : '0'.toNat = 48 := rfl
  omega

lemma ofDigitChars_cons' (c : Char) (cs : List Char) : Nat.ofDigitChars 10 (c :: cs) 0 =
    10 ^ cs.length * (c.toNat - '0'.toNat) + Nat.ofDigitChars 10 cs 0 := by
  rw [Nat.ofDigitChars_cons, Nat.ofDigitChars_eq_ofDigitChars_zero]
  simp

lemma digits_lt {cs : List Char} (h : cs.all Char.isDigit = true) :
    Nat.ofDigitChars 10 cs 0 < 10 ^ cs.length := by
  induction cs with
  | nil => simp
  | cons c cs ih =>
    simp only [List.all_cons, Bool.and_eq_true] at h
    have h1 := ih h.2
    have h2 := digit_value h.1
    rw [ofDigitChars_cons', List.length_cons, pow_succ]
    calc 10 ^ cs.length * (c.toNat - '0'.toNat) + Nat.ofDigitChars 10 cs 0
        < 10 ^ cs.length * (c.toNat - '0'.toNat) + 10 ^ cs.length := by omega
      _ = 10 ^ cs.length * (c.toNat - '0'.toNat + 1) := by rw [Nat.mul_succ]
      _ ≤ 10 ^ cs.length * 10 := Nat.mul_le_mul_left _ (by omega)

/-- Digit strings of one length compare like their values. -/
lemma ltChars_digits {a b : List Char} (ha : a.all Char.isDigit = true)
    (hb : b.all Char.isDigit = true) (hl : a.length = b.length) :
    ltChars a b = true ↔ Nat.ofDigitChars 10 a 0 < Nat.ofDigitChars 10 b 0 := by
  induction a generalizing b with
  | nil =>
    obtain rfl := List.length_eq_zero_iff.mp hl.symm
    simp [ltChars]
  | cons c cs ih =>
    rcases b with _ | ⟨e, es⟩
    · simp at hl
    · simp only [List.all_cons, Bool.and_eq_true] at ha hb
      have hl' : cs.length = es.length := by simpa using hl
      have hc := digit_toNat ha.1
      have he := digit_toNat hb.1
      have h1 := digits_lt ha.2
      have h2 := digits_lt hb.2
      rw [ofDigitChars_cons', ofDigitChars_cons', hl', ltChars]
      rw [hl'] at h1
      split_ifs with hce
      · subst hce
        rw [ih ha.2 hb.2 hl']
        omega
      · have hne : c.toNat ≠ e.toNat := fun h => hce (Char.ext (UInt32.toNat_inj.mp h))
        rw [decide_eq_true_eq, mul_add_lt_iff h1 h2 (by omega)]
        omega

lemma ltChars_append {a b : List Char} (hl : a.length = b.length) (x y : List Char) :
    ltChars (a ++ x) (b ++ y) = true ↔ ltChars a b = true ∨ a = b ∧ ltChars x y = true := by
  induction a generalizing b with
  | nil =>
    obtain rfl := List.length_eq_zero_iff.mp hl.symm
    simp [ltChars]
  | cons c cs ih =>
    rcases b with _ | ⟨e, es⟩
    · simp at hl
    · simp only [List.cons_append, ltChars]
      split_ifs with hce
      · rw [ih (by simpa using hl)]
        simp [hce]
      · simp [hce]

lemma ltChars_irrefl (a : List Char) : ltChars a a = false := by
  induction a with
  | nil => rfl
  | cons c cs ih => simp [ltChars, ih]

lemma ltChars_trichotomy {a b : List Char} (h1 : ltChars a b = false)
    (h2 : ltChars b a = false) : a = b := by
  induction a generalizing b with
  | nil =>
    cases b with
    | nil => rfl
    | cons => simp [ltChars] at h1
  | cons c cs ih =>
    cases b with
    | nil => simp [ltChars] at h2
    | cons e es =>
      rw [ltChars] at h1 h2
      by_cases hce : c = e
      · subst hce
        rw [if_pos rfl] at h1 h2
        rw [ih h1 h2]
      · rw [if_neg hce, decide_eq_false_iff_not] at h1
        rw [if_neg (Ne.symm hce), decide_eq_false_iff_not] at h2
        exact absurd (Char.ext (UInt32.toNat_inj.mp (show c.toNat = e.toNat by omega))) hce

/-- Digit strings of one length are equal when their values are. -/
lemma digits_inj {a b : List Char} (ha : a.all Char.isDigit = true)
    (hb : b.all Char.isDigit = true) (hl : a.length = b.length)
    (h : Nat.ofDigitChars 10 a 0 = Nat.ofDigitChars 10 b 0) : a = b := by
  refine ltChars_trichotomy ?_ ?_
  · rw [Bool.eq_false_iff, ne_eq, ltChars_digits ha hb hl, h]
    exact lt_irrefl _
  · rw [Bool.eq_false_iff, ne_eq, ltChars_digits hb ha hl.symm, h]
    exact lt_irrefl _

lemma textLt_trichotomy {s t : String} (h1 : textLt s t = false) (h2 : textLt t s = false) :
    s = t := String.toList_inj.mp (ltChars_trichotomy h1 h2)

/-! ### The text of a day -/

lemma month_lt (d : ℤ) : (month d).toNat < 10 ^ 2 ∧ (monthDay d).toNat < 10 ^ 2 := by
  obtain ⟨h1, h2, h3, h4⟩ := valid_ymd d
  have := month_length (year d) (month d)
  omega

lemma tail_length (d : ℤ) : (tail d).length = 6 := by
  simp only [tail, List.length_cons, List.length_append]
  rw [pad_length (by decide) (month_lt d).1, pad_length (by decide) (month_lt d).2]

lemma ltChars_pad {k m n : ℕ} (hk : 0 < k) (hm : m < 10 ^ k) (hn : n < 10 ^ k)
    (x y : List Char) :
    ltChars (pad k m ++ x) (pad k n ++ y) = true ↔ m < n ∨ m = n ∧ ltChars x y = true := by
  have hl : (pad k m).length = (pad k n).length := by rw [pad_length hk hm, pad_length hk hn]
  rw [ltChars_append hl, ltChars_digits (pad_digits k m) (pad_digits k n) hl, pad_value, pad_value]
  have : pad k m = pad k n ↔ m = n :=
    ⟨fun h => by have := congrArg (Nat.ofDigitChars 10 · 0) h; simpa [pad_value] using this,
      fun h => by rw [h]⟩
  rw [this]

lemma tail_lt_iff (a b : ℤ) : ltChars (tail a) (tail b) = true ↔
    month a < month b ∨ month a = month b ∧ monthDay a < monthDay b := by
  obtain ⟨a1, -, a3, -⟩ := valid_ymd a
  obtain ⟨b1, -, b3, -⟩ := valid_ymd b
  have e (x y : List Char) (c : Char) : ltChars (c :: x) (c :: y) = ltChars x y := by
    simp [ltChars]
  rw [tail, tail, e, ltChars_pad (by decide) (month_lt a).1 (month_lt b).1, e,
    ← List.append_nil (pad 2 (monthDay a).toNat), ← List.append_nil (pad 2 (monthDay b).toNat),
    ltChars_pad (by decide) (month_lt a).2 (month_lt b).2, ltChars_irrefl]
  simp only [Bool.false_eq_true, and_false, or_false]
  omega

/-- **Within the four-digit years texts are ordered like the days.** -/
theorem text_lt_iff {a b : ℤ} (ha : FourDigit a) (hb : FourDigit b) :
    textLt (text a) (text b) = true ↔ a < b := by
  obtain ⟨a1, a2⟩ := ha
  obtain ⟨b1, b2⟩ := hb
  rw [textLt, text, text, String.toList_ofList, String.toList_ofList, chars, chars,
    if_pos (by omega), if_pos (by omega), ltChars_pad (by decide) (by omega) (by omega),
    tail_lt_iff, lt_iff_ymd a b]
  omega

lemma pad_two {n : ℕ} (h : n < 10 ^ 2) : ∃ a b, pad 2 n = [a, b] := by
  have := pad_length (by decide) h
  match hp : pad 2 n, this with
  | [a, b], _ => exact ⟨a, b, rfl⟩

lemma readTail_tail (d : ℤ) :
    readTail (tail d) = some ((month d).toNat, (monthDay d).toNat) := by
  obtain ⟨a, b, hm⟩ := pad_two (month_lt d).1
  obtain ⟨x, y, hk⟩ := pad_two (month_lt d).2
  have h1 := number_pad 2 (month d).toNat
  have h2 := number_pad 2 (monthDay d).toNat
  rw [hm] at h1
  rw [hk] at h2
  simp [tail, hm, hk, readTail, h1, h2]

lemma readDay_pad (bc : Bool) (d : ℤ) {n : ℕ} (hn : 1 ≤ n)
    (hy : (if bc then 1 - (n : ℤ) else n) = year d) : readDay bc (pad 4 n ++ tail d) = some d := by
  have hlen : (pad 4 n ++ tail d).length - 6 = (pad 4 n).length := by
    rw [List.length_append, tail_length]; omega
  have hv := valid_ymd d
  obtain ⟨h1, -, h3, -⟩ := hv
  have e1 : ((month d).toNat : ℤ) = month d := Int.toNat_of_nonneg (by omega)
  have e2 : ((monthDay d).toNat : ℤ) = monthDay d := Int.toNat_of_nonneg (by omega)
  rw [readDay, hlen, List.take_left, List.drop_left, number_pad, readTail_tail]
  simp only [hy, e1, e2]
  rw [if_pos ⟨le_pad_length 4 n, hn, valid_ymd d⟩, ofYmd_ymd]

lemma readChars_chars (d : ℤ) : readChars (chars d) = some d := by
  unfold readChars chars
  split_ifs with hy hbc hbc
  · -- the text of a year from `1` on does not end in the mark
    exfalso
    obtain ⟨x, y, hk⟩ := pad_two (month_lt d).2
    have hs : pad 4 (year d).toNat ++ tail d =
        (pad 4 (year d).toNat ++ '-' :: pad 2 (month d).toNat) ++ ['-', x, y] := by
      simp [tail, hk]
    have hlen : ((pad 4 (year d).toNat ++ '-' :: pad 2 (month d).toNat) ++ ['-', x, y]).length - 3 =
        (pad 4 (year d).toNat ++ '-' :: pad 2 (month d).toNat).length := by
      rw [List.length_append]; simp
    rw [hs, hlen, List.drop_left] at hbc
    simp [bcMark] at hbc
  · refine readDay_pad false d (by omega) ?_
    simp only [Bool.false_eq_true, if_false]
    omega
  · have hlen : (pad 4 (1 - year d).toNat ++ tail d ++ bcMark).length - 3 =
        (pad 4 (1 - year d).toNat ++ tail d).length := by
      rw [List.length_append]; simp [bcMark]
    rw [hlen, List.take_left]
    refine readDay_pad true d (by omega) ?_
    simp only [if_true]
    omega
  · exfalso
    apply hbc
    have hlen : (pad 4 (1 - year d).toNat ++ tail d ++ bcMark).length - 3 =
        (pad 4 (1 - year d).toNat ++ tail d).length := by
      rw [List.length_append]; simp [bcMark]
    rw [hlen, List.drop_left]

/-- **Reading a text gives the day it was made from.** -/
theorem parseDate_text (d : ℤ) : parseDate (text d) = some d := by
  rw [parseDate, text, String.toList_ofList, readChars_chars]

lemma number_eq {cs : List Char} {n : ℕ} (h : number cs = some n) (hl : 0 < cs.length) :
    pad cs.length n = cs := by
  unfold number at h
  split_ifs at h with hd
  have hn : Nat.ofDigitChars 10 cs 0 = n := by simpa using h
  have hlt := digits_lt hd
  rw [hn] at hlt
  refine digits_inj (pad_digits _ _) hd (pad_length hl hlt) ?_
  rw [pad_value, hn]

/-- **A text of the shape `YYYY-MM-DD` that reads as a day is the text of that day.** -/
theorem text_of_parseDate {s : String} {d : ℤ} (hs : isoShape s.toList = true)
    (h : parseDate s = some d) : s = text d ∧ FourDigit d := by
  unfold parseDate at h
  rw [text, ← String.ofList_toList (s := s)]
  generalize s.toList = cs at hs h
  unfold isoShape at hs
  split at hs
  · rename_i a b c e m n k l
    simp only [readChars, readDay, bcMark, readTail, List.length_cons, List.length_nil, List.drop,
      List.take, Nat.reduceAdd, Nat.reduceSub] at h
    simp only [List.cons.injEq, Char.reduceEq, false_and, if_false] at h
    rcases hy : number [a, b, c, e] with _ | y
    · simp [hy] at h
    rcases hm : number [m, n] with _ | mo
    · simp [hy, hm] at h
    rcases hk : number [k, l] with _ | da
    · simp [hy, hm, hk] at h
    simp only [hy, hm, hk, Bool.false_eq_true, if_false] at h
    split_ifs at h with hv
    obtain ⟨-, hy1, hv⟩ := hv
    obtain rfl : ofYmd y mo da = d := by simpa using h
    obtain ⟨h1, h2, h3⟩ := ymd_ofYmd hv
    have e1 := number_eq hy (by simp)
    have e2 := number_eq hm (by simp)
    have e3 := number_eq hk (by simp)
    have hy4 : y < 10 ^ 4 := by
      by_contra hc
      have hne : (Nat.toDigits 10 y).length ≤ 4 := by
        have hlen := congrArg List.length e1
        simp only [pad, List.length_append, List.length_replicate, List.length_cons,
          List.length_nil] at hlen
        omega
      exact hc ((Nat.length_toDigits_le_iff (by decide) (by decide)).mp hne)
    simp only [List.length_cons, List.length_nil, Nat.reduceAdd] at e1 e2 e3
    refine ⟨congrArg String.ofList ?_, by unfold FourDigit; rw [h1]; omega⟩
    rw [chars, tail, h1, h2, h3, if_pos (by omega), Int.toNat_natCast, Int.toNat_natCast,
      Int.toNat_natCast, e1, e2, e3]
    rfl
  · simp at hs

/-- The text of a day of a four-digit year has the shape of a date. -/
lemma isoShape_text {d : ℤ} (h : FourDigit d) : isoShape (text d).toList = true := by
  obtain ⟨h1, h2⟩ := h
  have hy : (year d).toNat < 10 ^ 4 := by omega
  obtain ⟨a, b, hm⟩ := pad_two (month_lt d).1
  obtain ⟨x, y, hk⟩ := pad_two (month_lt d).2
  have hdm := pad_digits 2 (month d).toNat
  have hdk := pad_digits 2 (monthDay d).toNat
  have hdy := pad_digits 4 (year d).toNat
  rw [text, String.toList_ofList, chars, if_pos (by omega), tail]
  rw [hm] at hdm ⊢
  rw [hk] at hdk ⊢
  match hp : pad 4 (year d).toNat, pad_length (by decide) hy with
  | [p, q, r, s], _ =>
    rw [hp] at hdy
    simp only [List.all_cons, List.all_nil, Bool.and_true, Bool.and_eq_true] at hdm hdk hdy
    simp [isoShape, hdm, hdk, hdy]

lemma text_ne_empty (d : ℤ) : text d ≠ "" := by
  intro h
  have := parseDate_text d
  rw [h] at this
  simp [parseDate, readChars, readDay, bcMark, number, readTail] at this

end Veckomenyn.DateText
