import Mathlib.Order.Lattice
import Mathlib.Tactic.Common

/-!
JSON texts, read and written.

A text is the list of its characters. Reading goes down one level with each unit of fuel, and the
length of the text is fuel enough. The writer puts escapes where a text stands in a page: for
quotes, control characters, the signs of markup and the two line separators.
-/

namespace Veckomenyn.JsonText

inductive Value where
  | null
  | bool (b : Bool)
  | num (text : List Char)
  | str (s : List Char)
  | arr (xs : List Value)
  | obj (members : List (List Char × Value))

/-! ### Strings -/

def hexDigit (n : ℕ) : Char :=
  ['0', '1', '2', '3', '4', '5', '6', '7', '8', '9', 'a', 'b', 'c', 'd', 'e', 'f'].getD n '0'

def hexValue (c : Char) : Option ℕ :=
  if '0' ≤ c ∧ c ≤ '9' then some (c.toNat - '0'.toNat)
  else if 'a' ≤ c ∧ c ≤ 'f' then some (c.toNat - 'a'.toNat + 10)
  else if 'A' ≤ c ∧ c ≤ 'F' then some (c.toNat - 'A'.toNat + 10)
  else none

def backspace : Char := Char.ofNat 8
def formFeed : Char := Char.ofNat 12

/-- The escapes of one letter. -/
def unescape (c : Char) : Option Char :=
  if c ∈ ['"', '\\', '/'] then some c
  else if c = 'b' then some backspace
  else if c = 'f' then some formFeed
  else if c = 'n' then some '\n'
  else if c = 'r' then some '\r'
  else if c = 't' then some '\t'
  else none

def isHigh (n : ℕ) : Bool := 0xD800 ≤ n ∧ n < 0xDC00
def isLow (n : ℕ) : Bool := 0xDC00 ≤ n ∧ n < 0xE000

/-- A character, or half of one. -/
def unit (n : ℕ) : Char ⊕ ℕ := if isHigh n ∨ isLow n then .inr n else .inl (Char.ofNat n)

/-- Halves that stand together are joined, and others replaced. -/
def join : List (Char ⊕ ℕ) → List Char
  | .inr hi :: .inr lo :: us =>
    if isHigh hi ∧ isLow lo then
      Char.ofNat (0x10000 + (hi - 0xD800) * 0x400 + (lo - 0xDC00)) :: join us
    else Char.ofNat 0xFFFD :: join (.inr lo :: us)
  | .inr _ :: us => Char.ofNat 0xFFFD :: join us
  | .inl c :: us => c :: join us
  | [] => []

/-- What follows an opening quote, up to the closing one. -/
def readUnits : List Char → Option (List (Char ⊕ ℕ) × List Char)
  | [] => none
  | '"' :: cs => some ([], cs)
  | '\\' :: 'u' :: a :: b :: c :: d :: cs => do
    let n := 0x1000 * (← hexValue a) + 0x100 * (← hexValue b) + 0x10 * (← hexValue c) +
      (← hexValue d)
    let (us, rest) ← readUnits cs
    some (unit n :: us, rest)
  | '\\' :: c :: cs => do
    let c ← unescape c
    let (us, rest) ← readUnits cs
    some (.inl c :: us, rest)
  | c :: cs =>
    if c.toNat < 0x20 then none
    else do
      let (us, rest) ← readUnits cs
      some (.inl c :: us, rest)

def readString (cs : List Char) : Option (List Char × List Char) :=
  (readUnits cs).map fun r => (join r.1, r.2)

/-! ### Values -/

def skip (cs : List Char) : List Char := cs.dropWhile fun c => c ∈ [' ', '\t', '\n', '\r']

/-- One digit or more. -/
def readDigits (cs : List Char) : Option (List Char × List Char) :=
  if cs.takeWhile Char.isDigit = [] then none
  else some (cs.takeWhile Char.isDigit, cs.dropWhile Char.isDigit)

def readInteger : List Char → Option (List Char × List Char)
  | '0' :: cs => some (['0'], cs)
  | cs => readDigits cs

def readFraction : List Char → Option (List Char × List Char)
  | '.' :: cs => (readDigits cs).map fun r => ('.' :: r.1, r.2)
  | cs => some ([], cs)

def readExponent : List Char → Option (List Char × List Char)
  | c :: s :: cs =>
    if c = 'e' ∨ c = 'E' then
      if s = '+' ∨ s = '-' then (readDigits cs).map fun r => (c :: s :: r.1, r.2)
      else (readDigits (s :: cs)).map fun r => (c :: r.1, r.2)
    else some ([], c :: s :: cs)
  | [c] => if c = 'e' ∨ c = 'E' then none else some ([], [c])
  | [] => some ([], [])

def readNumber (cs : List Char) : Option (Value × List Char) := do
  let (sign, cs) := match cs with
    | '-' :: cs => (['-'], cs)
    | cs => ([], cs)
  let (integer, cs) ← readInteger cs
  let (fraction, cs) ← readFraction cs
  let (exponent, cs) ← readExponent cs
  some (.num (sign ++ integer ++ fraction ++ exponent), cs)

mutual

def readValue : ℕ → List Char → Option (Value × List Char)
  | 0, _ => none
  | n + 1, cs =>
    match skip cs with
    | '{' :: cs =>
      match skip cs with
      | '}' :: cs => some (.obj [], cs)
      | cs => (readMembers n cs).map fun r => (.obj r.1, r.2)
    | '[' :: cs =>
      match skip cs with
      | ']' :: cs => some (.arr [], cs)
      | cs => (readElements n cs).map fun r => (.arr r.1, r.2)
    | '"' :: cs => (readString cs).map fun r => (.str r.1, r.2)
    | 'n' :: 'u' :: 'l' :: 'l' :: cs => some (.null, cs)
    | 't' :: 'r' :: 'u' :: 'e' :: cs => some (.bool true, cs)
    | 'f' :: 'a' :: 'l' :: 's' :: 'e' :: cs => some (.bool false, cs)
    | cs => readNumber cs

def readMembers : ℕ → List Char → Option (List (List Char × Value) × List Char)
  | 0, _ => none
  | n + 1, cs =>
    match skip cs with
    | '"' :: cs => do
      let (key, cs) ← readString cs
      match skip cs with
      | ':' :: cs => do
        let (v, cs) ← readValue n cs
        match skip cs with
        | ',' :: cs => (readMembers n cs).map fun r => ((key, v) :: r.1, r.2)
        | '}' :: cs => some ([(key, v)], cs)
        | _ => none
      | _ => none
    | _ => none

def readElements : ℕ → List Char → Option (List Value × List Char)
  | 0, _ => none
  | n + 1, cs => do
    let (v, cs) ← readValue n cs
    match skip cs with
    | ',' :: cs => (readElements n cs).map fun r => (v :: r.1, r.2)
    | ']' :: cs => some ([v], cs)
    | _ => none

end

/-- A text that is one value. -/
def read (cs : List Char) : Option Value :=
  match readValue (cs.length + 1) cs with
  | some (v, rest) => if skip rest = [] then some v else none
  | none => none

/-! ### Writing -/

def escape (c : Char) : List Char :=
  if c = '"' ∨ c = '\\' then ['\\', c]
  else if c = backspace then ['\\', 'b']
  else if c = formFeed then ['\\', 'f']
  else if c = '\n' then ['\\', 'n']
  else if c = '\r' then ['\\', 'r']
  else if c = '\t' then ['\\', 't']
  else if c.toNat < 0x20 ∨ c ∈ ['<', '>', '&'] then
    ['\\', 'u', '0', '0', hexDigit (c.toNat / 0x10), hexDigit (c.toNat % 0x10)]
  else if c.toNat = 0x2028 ∨ c.toNat = 0x2029 then
    ['\\', 'u', '2', '0', '2', hexDigit (c.toNat % 0x10)]
  else [c]

def quote (s : List Char) : List Char := '"' :: (s.flatMap escape ++ ['"'])

def null : List Char := ['n', 'u', 'l', 'l']

/-- A whole number. -/
def decimal (n : ℤ) : List Char :=
  if n < 0 then '-' :: Nat.toDigits 10 n.natAbs else Nat.toDigits 10 n.natAbs

def trueText : List Char := ['t', 'r', 'u', 'e']

/-- The members of an object, each given by its key and the text of its value. -/
def members : List (List Char × List Char) → List Char
  | [] => []
  | [m] => quote m.1 ++ ':' :: m.2
  | m :: m' :: ms => quote m.1 ++ ':' :: m.2 ++ ',' :: members (m' :: ms)

def object (ms : List (List Char × List Char)) : List Char := '{' :: (members ms ++ ['}'])

/-- The whole number that a text of digits stands for. -/
def number : List Char → ℤ
  | '-' :: digits => -(Nat.ofDigitChars 10 digits 0 : ℕ)
  | digits => (Nat.ofDigitChars 10 digits 0 : ℕ)

/-! ### A text that was written is read -/

lemma join_inl (cs : List Char) : join (cs.map .inl) = cs := by
  induction cs with
  | nil => rfl
  | cons c cs ih => rw [List.map_cons, join, ih]

lemma hexValue_hexDigit : ∀ {n : ℕ}, n < 0x10 → hexValue (hexDigit n) = some n := by
  decide

lemma unit_toNat {c : Char} (h : c.toNat < 0xD800) : unit c.toNat = .inl c := by
  have hhigh : isHigh c.toNat = false := by simp [isHigh, h]
  have hlow : isLow c.toNat = false := by
    simp only [isLow, Bool.decide_and, Bool.and_eq_false_iff, decide_eq_false_iff_not]
    omega
  rw [unit, hhigh, hlow]
  simp

/-- One more character, for each that is read. -/
def more (c : Char) (r : Option (List (Char ⊕ ℕ) × List Char)) :
    Option (List (Char ⊕ ℕ) × List Char) := r.map fun r => (.inl c :: r.1, r.2)

lemma readUnits_unicode {a b c d : Char} {w x y z : ℕ} (ha : hexValue a = some w)
    (hb : hexValue b = some x) (hc : hexValue c = some y) (hd : hexValue d = some z) {char : Char}
    (hchar : char.toNat = 0x1000 * w + 0x100 * x + 0x10 * y + z) (hsmall : char.toNat < 0xD800)
    (rest : List Char) :
    readUnits ('\\' :: 'u' :: a :: b :: c :: d :: rest) = more char (readUnits rest) := by
  rw [readUnits, ha, hb, hc, hd]
  simp only [Option.bind_eq_bind, Option.bind_some, ← hchar, unit_toNat hsmall]
  cases readUnits rest <;> rfl

lemma readUnits_letter {l c : Char} (hl : unescape l = some c) (hu : l ≠ 'u') (rest : List Char) :
    readUnits ('\\' :: l :: rest) = more c (readUnits rest) := by
  rw [readUnits, hl]
  · cases readUnits rest <;> rfl
  · exact fun _ _ _ _ _ h => absurd h hu

lemma readUnits_plain {c : Char} (hq : c ≠ '"') (hb : c ≠ '\\') (hc : ¬c.toNat < 0x20)
    (rest : List Char) : readUnits (c :: rest) = more c (readUnits rest) := by
  rw [readUnits, if_neg hc]
  · cases readUnits rest <;> rfl
  · exact hq
  · exact fun _ _ _ _ _ h => absurd h hb
  · exact fun _ _ h => absurd h hb

lemma readUnits_escape (c : Char) (rest : List Char) :
    readUnits (escape c ++ rest) = more c (readUnits rest) := by
  unfold escape
  split_ifs with hquote hbackspace hfeed hline hreturn htab hunicode hseparator
  · rcases hquote with rfl | rfl <;> exact readUnits_letter rfl (by decide) rest
  · exact hbackspace ▸ readUnits_letter rfl (by decide) rest
  · exact hfeed ▸ readUnits_letter rfl (by decide) rest
  · exact hline ▸ readUnits_letter rfl (by decide) rest
  · exact hreturn ▸ readUnits_letter rfl (by decide) rest
  · exact htab ▸ readUnits_letter rfl (by decide) rest
  · have hsmall : c.toNat < 0x40 := by
      rcases hunicode with h | h
      · omega
      · simp only [List.mem_cons, List.not_mem_nil, or_false] at h
        rcases h with rfl | rfl | rfl <;> decide
    exact readUnits_unicode (w := 0) (x := 0) rfl rfl (hexValue_hexDigit (by omega))
      (hexValue_hexDigit (by omega)) (by omega) (by omega) rest
  · exact readUnits_unicode (w := 2) (x := 0) (y := 2) rfl rfl rfl (hexValue_hexDigit (by omega))
      (by omega) (by omega) rest
  · exact readUnits_plain (fun h => hquote (.inl h)) (fun h => hquote (.inr h))
      (fun h => hunicode (.inl h)) rest

lemma readString_quote (s rest : List Char) :
    readString (s.flatMap escape ++ '"' :: rest) = some (s, rest) := by
  have hunits : readUnits (s.flatMap escape ++ '"' :: rest) = some (s.map .inl, rest) := by
    induction s with
    | nil => rfl
    | cons c s ih => rw [List.flatMap_cons, List.append_assoc, readUnits_escape, ih]; rfl
  rw [readString, hunits, Option.map_some, join_inl]

/-- A text is read as a value, whatever follows it. -/
def Reads (t : List Char) (v : Value) : Prop :=
  ∀ n rest, t.length ≤ n → readValue n (t ++ rest) = some (v, rest)

lemma reads_null : Reads null .null := by
  rintro (_ | n) rest h
  · cases h
  · rfl

lemma reads_trueText : Reads trueText (.bool true) := by
  rintro (_ | n) rest h
  · cases h
  · rfl

lemma reads_quote (s : List Char) : Reads (quote s) (.str s) := by
  rintro (_ | n) rest h
  · cases h
  · have htext : quote s ++ rest = '"' :: (s.flatMap escape ++ '"' :: rest) := by simp [quote]
    have hskip : skip ('"' :: (s.flatMap escape ++ '"' :: rest)) =
        '"' :: (s.flatMap escape ++ '"' :: rest) := rfl
    rw [htext, readValue, hskip]
    simp only [readString_quote, Option.map_some]

section Members

variable {k t : List Char} {v : Value} {n : ℕ}

lemma quote_append (k cs : List Char) :
    quote k ++ cs = '"' :: (k.flatMap escape ++ '"' :: cs) := by
  simp [quote]

lemma skip_quote (cs : List Char) : skip ('"' :: cs) = '"' :: cs := rfl
lemma skip_colon (cs : List Char) : skip (':' :: cs) = ':' :: cs := rfl
lemma skip_comma (cs : List Char) : skip (',' :: cs) = ',' :: cs := rfl
lemma skip_brace (cs : List Char) : skip ('}' :: cs) = '}' :: cs := rfl

lemma readMembers_comma (h : Reads t v) (hn : t.length ≤ n) (rest : List Char) :
    readMembers (n + 1) (quote k ++ ':' :: (t ++ ',' :: rest)) =
      (readMembers n rest).map fun r => ((k, v) :: r.1, r.2) := by
  rw [readMembers, quote_append, skip_quote]
  simp only [readString_quote, Option.bind_eq_bind, Option.bind_some, skip_colon,
    h n (',' :: rest) hn, skip_comma]

lemma readMembers_brace (h : Reads t v) (hn : t.length ≤ n) (rest : List Char) :
    readMembers (n + 1) (quote k ++ ':' :: (t ++ '}' :: rest)) = some ([(k, v)], rest) := by
  rw [readMembers, quote_append, skip_quote]
  simp only [readString_quote, Option.bind_eq_bind, Option.bind_some, skip_colon,
    h n ('}' :: rest) hn, skip_brace]

end Members

/-- Members with the values their texts are read as. -/
abbrev Read := List (List Char × List Char × Value)

def Read.texts (l : Read) : List (List Char × List Char) := l.map fun m => (m.1, m.2.1)

def Read.values (l : Read) : List (List Char × Value) := l.map fun m => (m.1, m.2.2)

lemma readMembers_members {l : Read} (hne : l ≠ []) (h : ∀ m ∈ l, Reads m.2.1 m.2.2) {n : ℕ}
    (hn : (members l.texts).length < n) (rest : List Char) :
    readMembers n (members l.texts ++ '}' :: rest) = some (l.values, rest) := by
  induction l generalizing n with
  | nil => exact absurd rfl hne
  | cons m l ih =>
    obtain ⟨hm, hl⟩ := List.forall_mem_cons.mp h
    rcases n with _ | n
    · omega
    rcases l with _ | ⟨m', l⟩
    · have htext : members (Read.texts [m]) ++ '}' :: rest =
          quote m.1 ++ ':' :: (m.2.1 ++ '}' :: rest) := by
        simp [Read.texts, members]
      have hlen : m.2.1.length ≤ n := by
        simp only [Read.texts, List.map_cons, List.map_nil, members, List.length_append,
          List.length_cons] at hn
        omega
      rw [htext, readMembers_brace hm hlen]
      rfl
    · have htext : members (Read.texts (m :: m' :: l)) ++ '}' :: rest =
          quote m.1 ++ ':' :: (m.2.1 ++ ',' :: (members (Read.texts (m' :: l)) ++ '}' :: rest)) := by
        simp [Read.texts, members]
      have hlen : m.2.1.length ≤ n ∧ (members (Read.texts (m' :: l))).length < n := by
        simp only [Read.texts, List.map_cons, members, List.length_append,
          List.length_cons] at hn ⊢
        omega
      rw [htext, readMembers_comma hm hlen.1, ih (by simp) hl hlen.2]
      rfl

lemma members_cons (m : List Char × List Char) (ms : List (List Char × List Char)) :
    ∃ cs, members (m :: ms) = '"' :: cs := by
  rcases ms with _ | ⟨m', ms⟩
  · exact ⟨_, rfl⟩
  · exact ⟨_, rfl⟩

lemma reads_object {l : Read} (h : ∀ m ∈ l, Reads m.2.1 m.2.2) :
    Reads (object l.texts) (.obj l.values) := by
  rintro (_ | n) rest hn
  · cases hn
  have htext : object l.texts ++ rest = '{' :: (members l.texts ++ '}' :: rest) := by
    simp [object]
  have hskip : skip ('{' :: (members l.texts ++ '}' :: rest)) =
      '{' :: (members l.texts ++ '}' :: rest) := rfl
  rw [htext, readValue, hskip]
  rcases l with _ | ⟨m, l⟩
  · rfl
  · obtain ⟨cs, hcs⟩ := members_cons (m.1, m.2.1) (l.map fun m => (m.1, m.2.1))
    have hquote : members (Read.texts (m :: l)) = '"' :: cs := hcs
    have hlen : (members (Read.texts (m :: l))).length < n := by
      simp only [object, List.length_cons, List.length_append] at hn
      omega
    have hmembers := readMembers_members (List.cons_ne_nil m l) h hlen rest
    rw [hquote, List.cons_append] at hmembers ⊢
    exact congrArg (Option.map fun r => (Value.obj r.1, r.2)) hmembers

/-- **Round trip**: the text of a value is read as the value. -/
theorem Reads.read {t : List Char} {v : Value} (h : Reads t v) : read t = some v := by
  have hread := h (t.length + 1) [] (Nat.le_succ _)
  rw [List.append_nil] at hread
  rw [JsonText.read, hread]
  rfl

/-! ### Whole numbers -/

lemma digit_toDigits {n : ℕ} {c : Char} (h : c ∈ Nat.toDigits 10 n) : c.isDigit = true :=
  Nat.isDigit_of_mem_toDigits (by decide) (by decide) h

/-- No digits begin with a zero but those of zero. -/
lemma head_toDigits {n : ℕ} (hn : n ≠ 0) : (Nat.toDigits 10 n).head? ≠ some '0' := by
  have hchar : ∀ m < 10, m ≠ 0 → m.digitChar ≠ '0' := by decide
  induction n using Nat.strong_induction_on with
  | _ n ih =>
    by_cases h : n < 10
    · rw [Nat.toDigits_of_lt_base h]
      exact fun heq => hchar n h hn (Option.some.inj heq)
    · rw [Nat.toDigits_of_base_le (by decide) (not_lt.mp h),
        List.head?_append]
      have hhead := ih (n / 10) (by omega) (by omega)
      rcases hds : Nat.toDigits 10 (n / 10) with _ | ⟨c, ds⟩
      · exact absurd hds Nat.toDigits_ne_nil
      · rw [hds] at hhead
        exact hhead

lemma readDigits_append {ds : List Char} (hne : ds ≠ []) (hd : ∀ c ∈ ds, c.isDigit = true)
    {c : Char} (hc : c.isDigit = false) (rest : List Char) :
    readDigits (ds ++ c :: rest) = some (ds, c :: rest) := by
  have htake : (ds ++ c :: rest).takeWhile Char.isDigit = ds := by
    rw [List.takeWhile_append_of_pos hd, List.takeWhile_cons_of_neg (by simp [hc]),
      List.append_nil]
  have hdrop : (ds ++ c :: rest).dropWhile Char.isDigit = c :: rest := by
    rw [List.dropWhile_append_of_pos hd, List.dropWhile_cons_of_neg (by simp [hc])]
  rw [readDigits, htake, hdrop, if_neg hne]

lemma readInteger_toDigits (n : ℕ) (rest : List Char) :
    readInteger (Nat.toDigits 10 n ++ '}' :: rest) = some (Nat.toDigits 10 n, '}' :: rest) := by
  by_cases hn : n = 0
  · rw [hn]
    rfl
  · have hread := readDigits_append Nat.toDigits_ne_nil (fun _ => digit_toDigits (n := n))
      (show '}'.isDigit = false by decide) rest
    have hhead := head_toDigits hn
    rcases hds : Nat.toDigits 10 n with _ | ⟨c, ds⟩
    · exact absurd hds Nat.toDigits_ne_nil
    · rw [hds] at hread hhead
      rw [List.cons_append] at hread ⊢
      rw [readInteger]
      · exact hread
      · rintro cs hc
        exact hhead (congrArg some (List.cons.inj hc).1)


lemma readExponent_brace (rest : List Char) :
    readExponent ('}' :: rest) = some ([], '}' :: rest) := by
  cases rest <;> rfl

lemma mem_digits {c : Char} (h : c.isDigit = true) :
    c ∈ ['0', '1', '2', '3', '4', '5', '6', '7', '8', '9'] := by
  have hrange : 48 ≤ c.toNat ∧ c.toNat ≤ 57 := by
    simpa [Char.isDigit, UInt32.le_iff_toNat_le] using h
  have hall : ∀ k < 58, 48 ≤ k →
      Char.ofNat k ∈ ['0', '1', '2', '3', '4', '5', '6', '7', '8', '9'] := by
    decide
  have hc := hall c.toNat (by omega) hrange.1
  rwa [Char.ofNat_toNat] at hc

/-- A digit begins a number. -/
lemma readValue_digit {c : Char} (h : c.isDigit = true) (n : ℕ) (cs : List Char) :
    readValue (n + 1) (c :: cs) = readNumber (c :: cs) ∧ readNumber (c :: cs) = (do
      let (integer, cs) ← readInteger (c :: cs)
      let (fraction, cs) ← readFraction cs
      let (exponent, cs) ← readExponent cs
      some (.num (integer ++ fraction ++ exponent), cs)) := by
  have hc := mem_digits h
  simp only [List.mem_cons, List.not_mem_nil, or_false] at hc
  rcases hc with rfl | rfl | rfl | rfl | rfl | rfl | rfl | rfl | rfl | rfl <;> exact ⟨rfl, rfl⟩

lemma readValue_decimal (n : ℤ) (m : ℕ) (rest : List Char) :
    readValue (m + 1) (decimal n ++ '}' :: rest) = some (.num (decimal n), '}' :: rest) := by
  have hinteger := readInteger_toDigits n.natAbs rest
  have hfraction : readFraction ('}' :: rest) = some ([], '}' :: rest) := rfl
  unfold decimal
  split_ifs
  · have hminus : readValue (m + 1) ('-' :: (Nat.toDigits 10 n.natAbs ++ '}' :: rest)) = (do
        let (integer, cs) ← readInteger (Nat.toDigits 10 n.natAbs ++ '}' :: rest)
        let (fraction, cs) ← readFraction cs
        let (exponent, cs) ← readExponent cs
        some (.num (['-'] ++ integer ++ fraction ++ exponent), cs)) := rfl
    simp only [List.cons_append, hminus, hinteger, hfraction, readExponent_brace,
      Option.bind_eq_bind, Option.bind_some, List.nil_append, List.append_nil]
  · rcases hds : Nat.toDigits 10 n.natAbs with _ | ⟨c, ds⟩
    · exact absurd hds Nat.toDigits_ne_nil
    · have hc : c.isDigit = true := digit_toDigits (n := n.natAbs) (hds ▸ List.mem_cons_self)
      obtain ⟨hvalue, hnumber⟩ := readValue_digit hc m (ds ++ '}' :: rest)
      rw [hds] at hinteger
      rw [List.cons_append] at hinteger ⊢
      rw [hvalue, hnumber]
      simp only [hinteger, hfraction, readExponent_brace, Option.bind_eq_bind, Option.bind_some,
        List.append_nil]

lemma readMembers_decimal (k : List Char) (n : ℤ) (m : ℕ) (rest : List Char) :
    readMembers (m + 2) (quote k ++ ':' :: (decimal n ++ '}' :: rest)) =
      some ([(k, .num (decimal n))], rest) := by
  rw [readMembers, quote_append, skip_quote]
  simp only [readString_quote, Option.bind_eq_bind, Option.bind_some, skip_colon,
    readValue_decimal, skip_brace]

/-- An object of one whole number. -/
lemma reads_decimal (k : List Char) (n : ℤ) :
    Reads (object [(k, decimal n)]) (.obj [(k, .num (decimal n))]) := by
  intro m rest hm
  have htext : object [(k, decimal n)] ++ rest =
      '{' :: (quote k ++ ':' :: (decimal n ++ '}' :: rest)) := by
    simp [object, members]
  obtain ⟨m, rfl⟩ : ∃ m', m = m' + 3 := by
    refine ⟨m - 3, ?_⟩
    simp only [object, members, quote, List.length_cons, List.length_append] at hm
    omega
  have hmembers := readMembers_decimal k n m rest
  rw [quote_append] at hmembers
  rw [htext, quote_append]
  exact congrArg (Option.map fun r => (Value.obj r.1, r.2)) hmembers

lemma number_decimal (n : ℤ) : number (decimal n) = n := by
  unfold decimal
  split_ifs
  · rw [number, Nat.ofDigitChars_ten_toDigits]
    omega
  · have hvalue : number (Nat.toDigits 10 n.natAbs) = n.natAbs := by
      rw [number.eq_def]
      split
      · next ds h => 
        cases digit_toDigits (n := n.natAbs) (c := '-') (h ▸ List.mem_cons_self)
      · rw [Nat.ofDigitChars_ten_toDigits]
    rw [hvalue]
    omega
/-! ### Lines -/

lemma hexDigit_ne (n : ℕ) : hexDigit n ≠ '\n' := by
  unfold hexDigit
  rcases Nat.lt_or_ge n 16 with h | h
  · have hall : ∀ k < 16, hexDigit k ≠ '\n' := by decide
    exact hall n h
  · rw [List.getD_eq_getElem?_getD, List.getElem?_eq_none h]
    decide

lemma newline_escape (c : Char) : '\n' ∉ escape c := by
  have hhex (n : ℕ) : '\n' ≠ hexDigit n := (hexDigit_ne n).symm
  unfold escape
  split_ifs with hquote
  · rcases hquote with rfl | rfl <;> decide
  all_goals simp_all [eq_comm]

/-- What is written of a text is one line. -/
lemma newline_quote (s : List Char) : '\n' ∉ quote s := by
  simp [quote, newline_escape]

lemma newline_object {ms : List (List Char × List Char)} (h : ∀ m ∈ ms, '\n' ∉ m.2) :
    '\n' ∉ object ms := by
  have hmembers : '\n' ∉ members ms := by
    induction ms with
    | nil => exact List.not_mem_nil
    | cons m ms ih =>
      obtain ⟨hm, hms⟩ := List.forall_mem_cons.mp h
      rcases ms with _ | ⟨m', ms⟩
      · simpa [members, newline_quote] using hm
      · simpa [members, newline_quote, hm] using ih hms
  simpa [object] using hmembers

lemma newline_decimal (n : ℤ) : '\n' ∉ decimal n := by
  have hdigits (k : ℕ) : '\n' ∉ Nat.toDigits 10 k := fun h => by cases digit_toDigits h
  unfold decimal
  split_ifs
  · exact List.not_mem_cons_of_ne_of_not_mem (by decide) (hdigits _)
  · exact hdigits _

end Veckomenyn.JsonText
