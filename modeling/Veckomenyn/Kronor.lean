import Mathlib.Data.Rat.Floor
import Mathlib.Tactic.Linarith
import Mathlib.Tactic.NormNum
import Veckomenyn.DateText

/-!
Amounts in kronor, written the Swedish way and read back.

Upstream writes an amount with a comma before its two decimals and something between groups of
three digits; the page writes one with blanks. Numbers are exact here.
-/

namespace Veckomenyn.Kronor

open DateText

/-! ### Reading -/

/-- The number the digits before and after a point make. -/
def value (int frac : List Char) : ℚ :=
  Nat.ofDigitChars 10 int 0 + Nat.ofDigitChars 10 frac 0 / 10 ^ frac.length

/-- `strconv.ParseFloat` for a text of digits and points. -/
def parseFloat (cs : List Char) : Option ℚ :=
  let int := cs.takeWhile Char.isDigit
  match cs.drop int.length with
  | [] => if int.isEmpty then none else some (value int [])
  | c :: frac =>
    if c = '.' ∧ frac.all Char.isDigit ∧ ¬ (int ++ frac).isEmpty then some (value int frac)
    else none

def parseKronor (s : String) : ℚ :=
  let cleaned := s.toList.filter fun r => r.isDigit || r = ',' || r = '.'
  let cleaned := cleaned.filter (· ≠ '.')
  let cleaned := cleaned.map fun c => if c = ',' then '.' else c
  if cleaned = [] then 0 else (parseFloat cleaned).getD 0

/-! ### Writing -/

/-- A whole number from `10 ^ 21` on, as the page's language writes it. -/
def exponential (m : ℕ) : List Char :=
  let ds := Nat.toDigits 10 m
  match (ds.reverse.dropWhile (· = '0')).reverse with
  | [] => []
  | d :: rest =>
    d :: ((if rest = [] then [] else '.' :: rest) ++ 'e' :: '+' :: Nat.toDigits 10 (ds.length - 1))

/-- `toFixed(2)` of a number that is not negative. A number that large is whole. -/
def fixed (x : ℚ) : List Char :=
  if 10 ^ 21 ≤ x then exponential ⌊x⌋.toNat
  else
    let m := pad 3 ⌊100 * x + 1 / 2⌋.toNat
    m.take (m.length - 2) ++ '.' :: m.drop (m.length - 2)

def toFixed2 (x : ℚ) : List Char := if x < 0 then '-' :: fixed (-x) else fixed x

/-- `replace(".", ",")`, of the first point only. -/
def replacePoint (cs : List Char) : List Char :=
  match cs.dropWhile (· ≠ '.') with
  | [] => cs
  | _ :: rest => cs.takeWhile (· ≠ '.') ++ ',' :: rest

def isWord (c : Char) : Bool := c.isAlphanum || c = '_'

/-- `(\d{3})+(?!\d)` matches here. -/
def ahead : List Char → Bool
  | a :: b :: c :: cs =>
    a.isDigit && b.isDigit && c.isDigit && (ahead cs || !(cs.head?.any Char.isDigit))
  | _ => false

/-- `replace(/\B(?=(\d{3})+(?!\d))/g, " ")` after a character. -/
def spaced (prev : Option Char) : List Char → List Char
  | [] => []
  | c :: cs =>
    if (prev.any isWord == isWord c) && ahead (c :: cs) then ' ' :: c :: spaced (some c) cs
    else c :: spaced (some c) cs

def formatKronor (v : ℚ) : String :=
  String.ofList (spaced none (replacePoint (toFixed2 v)) ++ " kr".toList)

/-! ### Renderings -/

/-- A rendering of `n` öre: anything but digits and commas between the digits and after them. -/
def Swedish (n : ℕ) (s : String) : Prop :=
  ∃ int suffix : List Char, s.toList = int ++ ',' :: (pad 2 (n % 100) ++ suffix) ∧
    int.filter Char.isDigit = Nat.toDigits 10 (n / 100) ∧ ',' ∉ int ∧
    ∀ c ∈ suffix, c.isDigit = false ∧ c ≠ ','

/-- Digits in groups of three, the first group with what is left over. -/
def grouped (sep : Char) : List Char → List Char
  | [] => []
  | d :: ds =>
    if 0 < ds.length ∧ ds.length % 3 = 0 then d :: sep :: grouped sep ds else d :: grouped sep ds

example : grouped '.' "1234567".toList = "1.234.567".toList := by decide

/-! ### What is read -/

lemma takeWhile_digits {ds rest : List Char} (h : ds.all Char.isDigit = true)
    (hrest : ∀ c ∈ rest.head?, c.isDigit = false) :
    (ds ++ rest).takeWhile Char.isDigit = ds := by
  rw [List.takeWhile_append_of_pos (List.all_eq_true.mp h)]
  cases rest with
  | nil => simp
  | cons c cs => simp [hrest c rfl]

lemma parseFloat_point {int frac : List Char} (hint : int.all Char.isDigit = true)
    (hfrac : frac.all Char.isDigit = true) (hne : int ≠ []) :
    parseFloat (int ++ '.' :: frac) = some (value int frac) := by
  have htake : (int ++ '.' :: frac).takeWhile Char.isDigit = int :=
    takeWhile_digits hint (by simp)
  simp [parseFloat, htake, hfrac, hne]

/-- The two decimals and the digits before them are the amount. -/
lemma value_ore (n : ℕ) : value (Nat.toDigits 10 (n / 100)) (pad 2 (n % 100)) = n / 100 := by
  have hmod : n % 100 < 100 := Nat.mod_lt _ (by decide)
  have hlen : (pad 2 (n % 100)).length = 2 := pad_length (by decide) hmod
  have hsplit : ((n : ℕ) : ℚ) = 100 * ((n / 100 : ℕ) : ℚ) + ((n % 100 : ℕ) : ℚ) := by
    exact_mod_cast (Nat.div_add_mod n 100).symm
  rw [value, Nat.ofDigitChars_ten_toDigits, pad_value, hlen, hsplit]
  ring

lemma digits_toDigits (n : ℕ) : (Nat.toDigits 10 n).all Char.isDigit = true :=
  List.all_eq_true.mpr fun _ hc => Nat.isDigit_of_mem_toDigits (by decide) (by decide) hc

lemma digits_clean {ds : List Char} (h : ds.all Char.isDigit = true) :
    ds.filter (fun c => c.isDigit || c = ',') = ds ∧
      ds.map (fun c => if c = ',' then '.' else c) = ds := by
  have hcomma : ∀ c ∈ ds, c ≠ ',' := by
    rintro c hc rfl
    exact absurd (List.all_eq_true.mp h _ hc) (by decide)
  constructor
  · refine List.filter_eq_self.mpr fun c hc => ?_
    rw [List.all_eq_true.mp h c hc, Bool.true_or]
  · refine (List.map_congr_left fun c hc => ?_).trans (List.map_id ds)
    rw [if_neg (hcomma c hc), id]

/-- Only digits and commas are left of a text. -/
lemma filter_clean (cs : List Char) :
    (cs.filter fun r => r.isDigit || r = ',' || r = '.').filter (· ≠ '.') =
      cs.filter fun c => c.isDigit || c = ',' := by
  rw [List.filter_filter]
  refine List.filter_congr fun c _ => ?_
  by_cases hc : c = '.'
  · subst hc
    decide
  · simp [hc]

/-- An amount is read from each of its renderings. -/
lemma parseKronor_swedish {n : ℕ} {s : String} (h : Swedish n s) : parseKronor s = n / 100 := by
  obtain ⟨int, suffix, hs, hint, hcomma, hsuffix⟩ := h
  have hdigits := digits_toDigits (n / 100)
  have hpad := pad_digits 2 (n % 100)
  have hfront : int.filter (fun c => c.isDigit || c = ',') = Nat.toDigits 10 (n / 100) := by
    rw [← hint]
    refine List.filter_congr fun c hc => ?_
    have hne : c ≠ ',' := fun h => hcomma (h ▸ hc)
    simp [hne]
  have hback : suffix.filter (fun c => c.isDigit || c = ',') = [] := by
    refine List.filter_eq_nil_iff.mpr fun c hc => ?_
    simp [(hsuffix c hc).1, (hsuffix c hc).2]
  have hclean : s.toList.filter (fun c => c.isDigit || c = ',') =
      Nat.toDigits 10 (n / 100) ++ ',' :: pad 2 (n % 100) := by
    rw [hs, List.filter_append, List.filter_cons_of_pos (by decide), List.filter_append, hfront,
      (digits_clean hpad).1, hback, List.append_nil]
  have hpoint : (Nat.toDigits 10 (n / 100) ++ ',' :: pad 2 (n % 100)).map
      (fun c => if c = ',' then '.' else c) =
      Nat.toDigits 10 (n / 100) ++ '.' :: pad 2 (n % 100) := by
    rw [List.map_append, List.map_cons, (digits_clean hdigits).2, (digits_clean hpad).2]
    rfl
  unfold parseKronor
  simp only [filter_clean, hclean, hpoint]
  rw [if_neg (by simp), parseFloat_point hdigits hpad Nat.toDigits_ne_nil, Option.getD_some,
    value_ore]

/-! ### What is written -/

/-- A run of digits is ahead when it is a multiple of three long. -/
lemma ahead_digits : ∀ {ds rest : List Char}, ds.all Char.isDigit = true →
    (∀ c ∈ rest.head?, c.isDigit = false) →
      ahead (ds ++ rest) = decide (0 < ds.length ∧ ds.length % 3 = 0)
  | [], rest, _, hrest => by
    match rest with
    | [] => rfl
    | [c] => rfl
    | [c, d] => rfl
    | c :: d :: e :: rest => simp [ahead, hrest c rfl]
  | [a], rest, _, hrest => by
    match rest with
    | [] => rfl
    | [c] => rfl
    | c :: d :: rest => simp [ahead, hrest c rfl]
  | [a, b], rest, _, hrest => by
    match rest with
    | [] => rfl
    | c :: rest => simp [ahead, hrest c rfl]
  | a :: b :: c :: ds, rest, h, hrest => by
    simp only [List.all_cons, Bool.and_eq_true] at h
    obtain ⟨ha, hb, hc, hds⟩ := h
    simp only [List.cons_append, ahead, ha, hb, hc, Bool.true_and]
    rw [ahead_digits hds hrest]
    cases ds with
    | nil =>
      cases rest with
      | nil => simp
      | cons e rest => simp [hrest e rfl]
    | cons d ds =>
      simp only [List.all_cons, Bool.and_eq_true] at hds
      simp only [List.cons_append, List.head?_cons, Option.any_some, hds.1, Bool.not_true,
        Bool.or_false, List.length_cons, decide_eq_decide]
      omega

lemma isWord_digit {c : Char} (h : c.isDigit = true) : isWord c = true := by
  simp [isWord, Char.isAlphanum, h]

/-- After a digit, digits are grouped; what comes after them is as it was. -/
lemma spaced_digits {rest : List Char} (hrest : ∀ q, spaced q rest = rest)
    (hhead : ∀ c ∈ rest.head?, c.isDigit = false) (ds : List Char) (p : Char)
    (hp : p.isDigit = true) (hds : ds.all Char.isDigit = true) :
    p :: spaced (some p) (ds ++ rest) = grouped ' ' (p :: ds) ++ rest := by
  induction ds generalizing p with
  | nil => simp [hrest, grouped]
  | cons d ds ih =>
    have hall := hds
    simp only [List.all_cons, Bool.and_eq_true] at hds
    have hahead := ahead_digits hall hhead
    rw [List.cons_append] at hahead ⊢
    simp only [spaced, Option.any_some, isWord_digit hp, isWord_digit hds.1, beq_self_eq_true,
      Bool.true_and, hahead, decide_eq_true_eq]
    rw [grouped]
    split_ifs with hgroup
    · rw [List.cons_append, List.cons_append, ← ih d hds.1 hds.2]
    · rw [List.cons_append, ← ih d hds.1 hds.2]

/-- Nothing is put among the decimals. -/
lemma spaced_decimals {r : ℕ} (hr : r < 100) (q : Option Char) :
    spaced q (',' :: pad 2 r) = ',' :: pad 2 r := by
  have hlen : (pad 2 r).length = 2 := pad_length (by decide) hr
  match hpad : pad 2 r with
  | [] => simp [hpad] at hlen
  | [a] => simp [hpad] at hlen
  | [a, b] => simp [spaced, ahead]
  | a :: b :: c :: cs => simp [hpad] at hlen

lemma pad_two {r : ℕ} (hr : r < 100) :
    pad 2 r = Nat.toDigits 10 (r / 10) ++ Nat.toDigits 10 (r % 10) := by
  have hall : ∀ k : Fin 100,
      pad 2 k = Nat.toDigits 10 (k / 10 : ℕ) ++ Nat.toDigits 10 (k % 10 : ℕ) := by decide
  exact hall ⟨r, hr⟩

lemma toDigits_split {n : ℕ} (h : 10 ≤ n) :
    Nat.toDigits 10 n = Nat.toDigits 10 (n / 10) ++ Nat.toDigits 10 (n % 10) := by
  rw [Nat.toDigits_append_toDigits (by decide) (by omega) (by omega), Nat.div_add_mod]

/-- The last two of the digits are the decimals. -/
lemma pad_three (n : ℕ) : pad 3 n = Nat.toDigits 10 (n / 100) ++ pad 2 (n % 100) := by
  have hsmall : ∀ k : Fin 100,
      pad 3 k = Nat.toDigits 10 (k / 100 : ℕ) ++ pad 2 (k % 100 : ℕ) := by decide
  rcases Nat.lt_or_ge n 100 with hn | hn
  · exact hsmall ⟨n, hn⟩
  · have hlen : ¬ (Nat.toDigits 10 n).length ≤ 2 := fun h =>
      absurd ((Nat.length_toDigits_le_iff (by decide) (by decide)).mp h) (by omega)
    have hpad : pad 3 n = Nat.toDigits 10 n := by
      rw [pad, show 3 - (Nat.toDigits 10 n).length = 0 by omega, List.replicate_zero,
        List.nil_append]
    have htens : n / 10 / 10 = n / 100 := by omega
    have hdigit : n / 10 % 10 = n % 100 / 10 := by omega
    have hlast : n % 10 = n % 100 % 10 := by omega
    calc pad 3 n = Nat.toDigits 10 (n / 10) ++ Nat.toDigits 10 (n % 10) := by
          rw [hpad, toDigits_split (by omega)]
      _ = Nat.toDigits 10 (n / 100) ++ Nat.toDigits 10 (n % 100 / 10) ++
          Nat.toDigits 10 (n % 100 % 10) := by
          rw [toDigits_split (n := n / 10) (by omega), htens, hdigit, hlast]
      _ = Nat.toDigits 10 (n / 100) ++ pad 2 (n % 100) := by
          rw [pad_two (Nat.mod_lt _ (by decide)), List.append_assoc]

/-- The number nearest to the amount, in öre. -/
lemma floor_ore {n : ℕ} {x : ℚ} (h : |x - n / 100| < 1 / 200) :
    ⌊100 * x + 1 / 2⌋ = (n : ℤ) := by
  rw [abs_lt] at h
  rw [Int.floor_eq_iff]
  constructor
  · push_cast
    linarith
  · push_cast
    linarith

lemma fixed_ore {n : ℕ} {x : ℚ} (h : |x - n / 100| < 1 / 200) (hx : x < 10 ^ 21) :
    fixed x = Nat.toDigits 10 (n / 100) ++ '.' :: pad 2 (n % 100) := by
  have hlen : (pad 2 (n % 100)).length = 2 := pad_length (by decide) (Nat.mod_lt _ (by decide))
  rw [fixed, if_neg (not_le.mpr hx)]
  simp only [floor_ore h, Int.toNat_natCast, pad_three, List.length_append, hlen,
    Nat.add_sub_cancel, List.take_left, List.drop_left]

lemma replacePoint_digits {ds rest : List Char} (h : ds.all Char.isDigit = true) :
    replacePoint (ds ++ '.' :: rest) = ds ++ ',' :: rest := by
  have hne : ∀ c ∈ ds, (decide (c ≠ '.')) = true := by
    intro c hc
    have hdigit := List.all_eq_true.mp h c hc
    refine decide_eq_true fun hpoint => ?_
    subst hpoint
    exact absurd hdigit (by decide)
  have hdrop : (ds ++ '.' :: rest).dropWhile (· ≠ '.') = '.' :: rest := by
    rw [List.dropWhile_append_of_pos hne]
    simp
  have htake : (ds ++ '.' :: rest).takeWhile (· ≠ '.') = ds := by
    rw [List.takeWhile_append_of_pos hne]
    simp
  unfold replacePoint
  rw [hdrop, htake]

/-- The amount as it is written: its digits before the comma in groups of three. -/
def written (sep : Char) (n : ℕ) (suffix : List Char) : String :=
  String.ofList (grouped sep (Nat.toDigits 10 (n / 100)) ++ ',' :: (pad 2 (n % 100) ++ suffix))

lemma formatKronor_eq {n : ℕ} {x : ℚ} (h : |x - n / 100| < 1 / 200) (h0 : 0 ≤ x)
    (hx : x < 10 ^ 21) : formatKronor x = written ' ' n " kr".toList := by
  have hr : n % 100 < 100 := Nat.mod_lt _ (by decide)
  have hdigits := digits_toDigits (n / 100)
  unfold formatKronor written
  rw [toFixed2, if_neg (not_lt.mpr h0), fixed_ore h hx, replacePoint_digits hdigits]
  cases hds : Nat.toDigits 10 (n / 100) with
  | nil => exact absurd hds Nat.toDigits_ne_nil
  | cons d ds =>
    rw [hds] at hdigits
    simp only [List.all_cons, Bool.and_eq_true] at hdigits
    have hfirst : spaced none (d :: ds ++ ',' :: pad 2 (n % 100)) =
        d :: spaced (some d) (ds ++ ',' :: pad 2 (n % 100)) := by
      simp [spaced, isWord_digit hdigits.1]
    rw [hfirst, spaced_digits (spaced_decimals hr) (by simp) ds d hdigits.1 hdigits.2]
    simp

lemma grouped_digits {sep : Char} (hsep : sep.isDigit = false ∧ sep ≠ ',') {ds : List Char}
    (h : ds.all Char.isDigit = true) :
    (grouped sep ds).filter Char.isDigit = ds ∧ ',' ∉ grouped sep ds := by
  induction ds with
  | nil => exact ⟨rfl, List.not_mem_nil⟩
  | cons d ds ih =>
    simp only [List.all_cons, Bool.and_eq_true] at h
    obtain ⟨hfilter, hcomma⟩ := ih h.2
    have hd : ',' ≠ d := by
      rintro rfl
      exact absurd h.1 (by decide)
    rw [grouped]
    split_ifs
    · exact ⟨by simp [h.1, hsep.1, hfilter], by simp [hd, hsep.2.symm, hcomma]⟩
    · exact ⟨by simp [h.1, hfilter], by simp [hd, hcomma]⟩

lemma swedish_written {sep : Char} (hsep : sep.isDigit = false ∧ sep ≠ ',') (n : ℕ)
    {suffix : List Char} (hsuffix : ∀ c ∈ suffix, c.isDigit = false ∧ c ≠ ',') :
    Swedish n (written sep n suffix) :=
  ⟨_, suffix, String.toList_ofList, (grouped_digits hsep (digits_toDigits _)).1,
    (grouped_digits hsep (digits_toDigits _)).2, hsuffix⟩

/-- **Amounts**: each rendering is read as the amount it is one of, and below `10 ^ 21` kronor the
page writes a rendering. -/
theorem parseKronor_rendering (n : ℕ) :
    (∀ s, Swedish n s → parseKronor s = n / 100) ∧
    (∀ sep ∈ ['.', ' ', '\u00a0'], ∀ suffix : List Char,
      (∀ c ∈ suffix, c.isDigit = false ∧ c ≠ ',') → Swedish n (written sep n suffix)) ∧
    ∀ x : ℚ, 0 ≤ x → x < 10 ^ 21 → |x - n / 100| < 1 / 200 →
      formatKronor x = written ' ' n " kr".toList ∧ parseKronor (formatKronor x) = n / 100 := by
  refine ⟨fun s => parseKronor_swedish, fun sep hsep suffix hsuffix => ?_, fun x h0 hx h => ?_⟩
  · refine swedish_written ?_ n hsuffix
    simp only [List.mem_cons, List.not_mem_nil, or_false] at hsep
    rcases hsep with rfl | rfl | rfl <;> decide
  · have hwritten := formatKronor_eq h h0 hx
    refine ⟨hwritten, ?_⟩
    rw [hwritten]
    refine parseKronor_swedish (swedish_written (by decide) n fun c hc => ?_)
    have hkr : " kr".toList = [' ', 'k', 'r'] := rfl
    simp only [hkr, List.mem_cons, List.not_mem_nil, or_false] at hc
    rcases hc with rfl | rfl | rfl <;> decide

/-- From `10 ^ 21` on a number is written with an exponent, whose digits are read as digits. -/
theorem not_parseKronor_formatKronor :
    ¬ ∀ n : ℕ, (∀ s, Swedish n s → parseKronor s = n / 100) ∧
      parseKronor (formatKronor (n / 100)) = n / 100 := by
  intro h
  have hamount : (((10 ^ 23 : ℕ) : ℚ) / 100) = 10 ^ 21 := by norm_num
  have hfloor : ⌊(10 ^ 21 : ℚ)⌋ = (10 ^ 21 : ℕ) := by
    rw [Int.floor_eq_iff]
    norm_num
  have htext : formatKronor (10 ^ 21) = "1e+21 kr" := by
    have hfixed : toFixed2 (10 ^ 21) = "1e+21".toList := by
      rw [toFixed2, if_neg (by norm_num), fixed, if_pos le_rfl, hfloor]
      decide
    rw [formatKronor, hfixed]
    decide
  have hread : parseKronor "1e+21 kr" = 121 := by
    have hclean : "1e+21 kr".toList.filter (fun c => c.isDigit || c = ',') = ['1', '2', '1'] := by
      decide
    have hmap : ['1', '2', '1'].map (fun c => if c = ',' then '.' else c) = ['1', '2', '1'] := by
      decide
    have hfloat : parseFloat ['1', '2', '1'] = some (value ['1', '2', '1'] []) := rfl
    have hdigits : Nat.ofDigitChars 10 ['1', '2', '1'] 0 = 121 := by decide
    unfold parseKronor
    simp only [filter_clean, hclean, hmap, hfloat]
    rw [if_neg (by simp), Option.getD_some, value, hdigits]
    norm_num [Nat.ofDigitChars]
  have hbad := (h (10 ^ 23)).2
  rw [hamount, htext, hread] at hbad
  norm_num at hbad

end Veckomenyn.Kronor
