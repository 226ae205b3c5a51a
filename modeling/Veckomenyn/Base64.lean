import Mathlib.Data.List.Basic
import Mathlib.Data.List.GetD
import Mathlib.Data.List.Nodup

/-!
Base64.

Three bytes are four digits of an alphabet, and a last group of one or two bytes is filled up with
`=`. Decoding passes over line breaks and does not look at the bits a short last group leaves
unused.
-/

namespace Veckomenyn.Base64

/-- Sixty-four digits, none of them the padding or a line break. -/
structure Alphabet where
  chars : List Char
  length : chars.length = 64
  nodup : chars.Nodup
  clean : ∀ c ∈ chars, c ≠ '=' ∧ c ≠ '\n' ∧ c ≠ '\r'

namespace Alphabet

def digit (A : Alphabet) (n : ℕ) : Char := A.chars.getD n '='

def value (A : Alphabet) (c : Char) : Option ℕ := A.chars.idxOf? c

variable (A : Alphabet)

lemma digit_mem {n : ℕ} (hn : n < 64) : A.digit n ∈ A.chars := by
  have h : n < A.chars.length := A.length ▸ hn
  rw [digit, List.getD_eq_getElem _ _ h]
  exact List.getElem_mem h

@[simp] lemma value_digit {n : ℕ} (hn : n < 64) : A.value (A.digit n) = some n := by
  have h : n < A.chars.length := A.length ▸ hn
  rw [value, digit, List.getD_eq_getElem _ _ h, List.idxOf?_eq_some_iff]
  refine ⟨h, rfl, fun j hj he => ?_⟩
  exact absurd (A.nodup.getElem_inj_iff.mp he) (Nat.ne_of_lt hj)

end Alphabet

variable (A : Alphabet)

def encode : List UInt8 → List Char
  | [] => []
  | [a] => [A.digit (a.toNat / 4), A.digit (a.toNat % 4 * 16), '=', '=']
  | [a, b] => [A.digit (a.toNat / 4), A.digit (a.toNat % 4 * 16 + b.toNat / 16),
      A.digit (b.toNat % 16 * 4), '=']
  | a :: b :: c :: rest => A.digit (a.toNat / 4) :: A.digit (a.toNat % 4 * 16 + b.toNat / 16) ::
      A.digit (b.toNat % 16 * 4 + c.toNat / 64) :: A.digit (c.toNat % 64) :: encode rest

/-! The bytes in four digits. -/

def first (u v : ℕ) : UInt8 := UInt8.ofNat (u * 4 + v / 16)
def second (v w : ℕ) : UInt8 := UInt8.ofNat (v % 16 * 16 + w / 4)
def third (w x : ℕ) : UInt8 := UInt8.ofNat (w % 4 * 64 + x)

/-- Only the last group may be padded. -/
def groups : List Char → Option (List UInt8)
  | [] => some []
  | a :: b :: c :: d :: rest => do
    let u ← A.value a
    let v ← A.value b
    if c = '=' ∧ d = '=' ∧ rest = [] then
      some [first u v]
    else
      let w ← A.value c
      if d = '=' ∧ rest = [] then
        some [first u v, second v w]
      else
        let x ← A.value d
        let bytes ← groups rest
        some (first u v :: second v w :: third w x :: bytes)
  | _ => none

def decode (text : List Char) : Option (List UInt8) :=
  groups A (text.filter fun c => c ≠ '\n' ∧ c ≠ '\r')

/-! ### The round trip -/

lemma digit_ne_pad {n : ℕ} (hn : n < 64) : A.digit n ≠ '=' := (A.clean _ (A.digit_mem hn)).1

lemma mem_encode {bytes : List UInt8} {x : Char} (hx : x ∈ encode A bytes) :
    x ∈ A.chars ∨ x = '=' := by
  have digit {n : ℕ} (hn : n < 64) : A.digit n ∈ A.chars ∨ A.digit n = '=' :=
    .inl (A.digit_mem hn)
  induction bytes using encode.induct with
  | case1 => exact absurd hx List.not_mem_nil
  | case2 a =>
    have ha := a.toNat_lt
    simp only [encode, List.mem_cons, List.not_mem_nil, or_false] at hx
    rcases hx with rfl | rfl | rfl | rfl
    · exact digit (by omega)
    · exact digit (by omega)
    · exact .inr rfl
    · exact .inr rfl
  | case3 a b =>
    have ha := a.toNat_lt
    have hb := b.toNat_lt
    simp only [encode, List.mem_cons, List.not_mem_nil, or_false] at hx
    rcases hx with rfl | rfl | rfl | rfl
    · exact digit (by omega)
    · exact digit (by omega)
    · exact digit (by omega)
    · exact .inr rfl
  | case4 a b c rest ih =>
    have ha := a.toNat_lt
    have hb := b.toNat_lt
    have hc := c.toNat_lt
    simp only [encode, List.mem_cons] at hx
    rcases hx with rfl | rfl | rfl | rfl | hx
    · exact digit (by omega)
    · exact digit (by omega)
    · exact digit (by omega)
    · exact digit (by omega)
    · exact ih hx

/-- Encoded text is one line. -/
lemma encode_filter (bytes : List UInt8) :
    (encode A bytes).filter (fun c => c ≠ '\n' ∧ c ≠ '\r') = encode A bytes := by
  refine List.filter_eq_self.mpr fun x hx => decide_eq_true ?_
  rcases mem_encode A hx with hx | rfl
  · exact (A.clean _ hx).2
  · exact by decide

lemma first_digits (a : UInt8) {n : ℕ} (hn : n < 16) :
    first (a.toNat / 4) (a.toNat % 4 * 16 + n) = a := by
  have h : a.toNat / 4 * 4 + (a.toNat % 4 * 16 + n) / 16 = a.toNat := by omega
  rw [first, h, UInt8.ofNat_toNat]

lemma second_digits (b : UInt8) (m : ℕ) {n : ℕ} (hn : n < 4) :
    second (m * 16 + b.toNat / 16) (b.toNat % 16 * 4 + n) = b := by
  have hb := b.toNat_lt
  have h : (m * 16 + b.toNat / 16) % 16 * 16 + (b.toNat % 16 * 4 + n) / 4 = b.toNat := by omega
  rw [second, h, UInt8.ofNat_toNat]

lemma third_digits (c : UInt8) (m : ℕ) : third (m * 4 + c.toNat / 64) (c.toNat % 64) = c := by
  have hc := c.toNat_lt
  have h : (m * 4 + c.toNat / 64) % 4 * 64 + c.toNat % 64 = c.toNat := by omega
  rw [third, h, UInt8.ofNat_toNat]

lemma groups_encode (bytes : List UInt8) : groups A (encode A bytes) = some bytes := by
  induction bytes using encode.induct with
  | case1 => rfl
  | case2 a =>
    have ha := a.toNat_lt
    have h : first (a.toNat / 4) (a.toNat % 4 * 16) = a := first_digits a (n := 0) (by omega)
    simp [encode, groups, A.value_digit (show a.toNat / 4 < 64 by omega),
      A.value_digit (show a.toNat % 4 * 16 < 64 by omega), h]
  | case3 a b =>
    have ha := a.toNat_lt
    have hb := b.toNat_lt
    have h := second_digits b (a.toNat % 4) (n := 0) (by omega)
    rw [Nat.add_zero] at h
    simp [encode, groups, A.value_digit (show a.toNat / 4 < 64 by omega),
      A.value_digit (show a.toNat % 4 * 16 + b.toNat / 16 < 64 by omega),
      A.value_digit (show b.toNat % 16 * 4 < 64 by omega),
      digit_ne_pad A (show b.toNat % 16 * 4 < 64 by omega),
      first_digits a (show b.toNat / 16 < 16 by omega), h]
  | case4 a b c rest ih =>
    have ha := a.toNat_lt
    have hb := b.toNat_lt
    have hc := c.toNat_lt
    simp [encode, groups, A.value_digit (show a.toNat / 4 < 64 by omega),
      A.value_digit (show a.toNat % 4 * 16 + b.toNat / 16 < 64 by omega),
      A.value_digit (show b.toNat % 16 * 4 + c.toNat / 64 < 64 by omega),
      A.value_digit (show c.toNat % 64 < 64 by omega),
      digit_ne_pad A (show b.toNat % 16 * 4 + c.toNat / 64 < 64 by omega),
      digit_ne_pad A (show c.toNat % 64 < 64 by omega),
      first_digits a (show b.toNat / 16 < 16 by omega),
      second_digits b (a.toNat % 4) (show c.toNat / 64 < 4 by omega),
      third_digits c (b.toNat % 16), ih]

/-- **Round trip**: what is encoded decodes to itself. -/
theorem decode_encode (bytes : List UInt8) : decode A (encode A bytes) = some bytes := by
  rw [decode, encode_filter, groups_encode]

/-! ### The two alphabets -/

def letters : List Char :=
  ['A', 'B', 'C', 'D', 'E', 'F', 'G', 'H', 'I', 'J', 'K', 'L', 'M', 'N', 'O', 'P', 'Q', 'R', 'S',
    'T', 'U', 'V', 'W', 'X', 'Y', 'Z', 'a', 'b', 'c', 'd', 'e', 'f', 'g', 'h', 'i', 'j', 'k', 'l',
    'm', 'n', 'o', 'p', 'q', 'r', 's', 't', 'u', 'v', 'w', 'x', 'y', 'z', '0', '1', '2', '3', '4',
    '5', '6', '7', '8', '9']

lemma letters_nodup : letters.Nodup := by decide

lemma letters_clean : ∀ c ∈ letters, c ≠ '=' ∧ c ≠ '\n' ∧ c ≠ '\r' := by
  have h : letters.all (fun c => c ≠ '=' ∧ c ≠ '\n' ∧ c ≠ '\r') = true := rfl
  simpa using List.all_eq_true.mp h

/-- Two digits make the letters an alphabet. -/
lemma letters_append_nodup {a b : Char} (ha : a ∉ letters) (hb : b ∉ letters) (hne : a ≠ b) :
    (letters ++ [a, b]).Nodup := by
  refine List.nodup_append.mpr ⟨letters_nodup, by simp [hne], fun c hc d hd => ?_⟩
  rintro rfl
  simp only [List.mem_cons, List.not_mem_nil, or_false] at hd
  rcases hd with rfl | rfl
  · exact ha hc
  · exact hb hc

lemma letters_append_clean {xs : List Char} (h : ∀ c ∈ xs, c ≠ '=' ∧ c ≠ '\n' ∧ c ≠ '\r') :
    ∀ c ∈ letters ++ xs, c ≠ '=' ∧ c ≠ '\n' ∧ c ≠ '\r' := fun c hc =>
  (List.mem_append.mp hc).elim (letters_clean c) (h c)

lemma std_length : (letters ++ ['+', '/']).length = 64 := rfl

lemma std_nodup : (letters ++ ['+', '/']).Nodup :=
  letters_append_nodup (by decide) (by decide) (by decide)

lemma std_clean : ∀ c ∈ letters ++ ['+', '/'], c ≠ '=' ∧ c ≠ '\n' ∧ c ≠ '\r' :=
  letters_append_clean (by simp)

def std : Alphabet := ⟨letters ++ ['+', '/'], std_length, std_nodup, std_clean⟩

lemma colon_notMem_encode (bytes : List UInt8) : ':' ∉ encode std bytes := by
  intro h
  rcases mem_encode std h with h | h
  · have hall : (letters ++ ['+', '/']).all (fun c => c ≠ ':') = true := rfl
    exact of_decide_eq_true (List.all_eq_true.mp hall _ h) rfl
  · exact absurd h (by decide)

lemma url_length : (letters ++ ['-', '_']).length = 64 := rfl

lemma url_nodup : (letters ++ ['-', '_']).Nodup :=
  letters_append_nodup (by decide) (by decide) (by decide)

lemma url_clean : ∀ c ∈ letters ++ ['-', '_'], c ≠ '=' ∧ c ≠ '\n' ∧ c ≠ '\r' :=
  letters_append_clean (by simp)

def url : Alphabet := ⟨letters ++ ['-', '_'], url_length, url_nodup, url_clean⟩

example : encode std [77, 97, 110, 255] = ['T', 'W', 'F', 'u', '/', 'w', '=', '='] := by decide

end Veckomenyn.Base64
