import Veckomenyn.Providers
import Veckomenyn.Splitting
import Veckomenyn.Utf8
import Veckomenyn.Willys

/-!
Credentials sealed the way the shop's own page seals them.

The key is sixteen random digits, stretched under a salt. What travels is the base64 of a text
of three parts: the IV and the salt in hexadecimal and the base64 of the ciphertext. A string
from outside is any bytes, a text that is put together here is characters.
-/

namespace Veckomenyn.Credential

open Crypto Framing Willys

abbrev blockSize : ℕ := 16

/-- PBKDF2 with SHA-1, and AES-128 in CBC mode under a key and an IV. -/
structure Suite where
  pbkdf2 : Bytes → Bytes → ℕ → Buf blockSize
  crypt : Buf blockSize → Buf blockSize → Bytes → Bytes
  decrypt : Buf blockSize → Buf blockSize → Bytes → Bytes
  length_crypt : ∀ key iv data, (crypt key iv data).length = data.length
  decrypt_crypt : ∀ key iv data, blockSize ∣ data.length →
    decrypt key iv (crypt key iv data) = data

variable (c : Suite)

/-- `[]byte(s)`. -/
def bytes (s : String) : Bytes := encode String.utf8EncodeChar s.toList

def pkcs7Pad (data : Bytes) (blockSize : ℕ) : Bytes :=
  let padding := blockSize - data.length % blockSize
  data ++ List.replicate padding (UInt8.ofNat padding)

/-- `draw` is what the random source answers for each place. -/
def randomNumericKey (length : ℕ) (draw : ℕ → Fin 10) : String :=
  String.ofList ((List.range length).map fun i => Char.ofNat ('0'.toNat + draw i))

/-- The text in the outer base64. -/
def combined (iv salt ciphertext : Bytes) : String :=
  Providers.hex iv ++ "::" ++ Providers.hex salt ++ "::" ++
    String.ofList (Base64.encode Base64.std ciphertext)

/-- The random source may fail for the IV and for the salt. -/
def encryptCredential (plaintext : Bytes) (iv salt : Except String (Buf blockSize))
    (draw : ℕ → Fin 10) : Except String EncryptedCredential :=
  match iv with
  | .error e => .error ("generating IV: " ++ e)
  | .ok iv =>
    match salt with
    | .error e => .error ("generating salt: " ++ e)
    | .ok salt =>
      let key := randomNumericKey 16 draw
      let derivedKey := c.pbkdf2 (bytes key) salt.1 1000
      let padded := pkcs7Pad plaintext blockSize
      let ciphertext := c.crypt derivedKey iv padded
      let encoded := Base64.encode Base64.std (bytes (combined iv.1 salt.1 ciphertext))
      .ok ⟨key, String.ofList encoded⟩

/-! ### What the shop does with it -/

/-- Digits of either case. -/
def hexValue (ch : Char) : Option ℕ :=
  if '0' ≤ ch ∧ ch ≤ '9' then some (ch.toNat - '0'.toNat)
  else if 'a' ≤ ch ∧ ch ≤ 'f' then some (ch.toNat - 'a'.toNat + 10)
  else if 'A' ≤ ch ∧ ch ≤ 'F' then some (ch.toNat - 'A'.toNat + 10)
  else none

def hexDecode : List Char → Option Bytes
  | [] => some []
  | [_] => none
  | a :: b :: rest => do
    let u ← hexValue a
    let v ← hexValue b
    let bytes ← hexDecode rest
    some (UInt8.ofNat (16 * u + v) :: bytes)

structure Sealed where
  iv : Bytes
  salt : Bytes
  ciphertext : Bytes
deriving DecidableEq

/-- Three parts and no fewer. Bytes that are not text are in none of the three alphabets. -/
def unpack (str : String) : Option Sealed := do
  let outer ← Base64.decode Base64.std str.toList
  let text ← Utf8.text? outer
  match Splitting.splitN [':', ':'] 3 text.toList with
  | [iv, salt, ciphertext] => do
    let iv ← hexDecode iv
    let salt ← hexDecode salt
    let ciphertext ← Base64.decode Base64.std ciphertext
    some ⟨iv, salt, ciphertext⟩
  | _ => none

/-- As many bytes go as the last one says. -/
def strip (data : Bytes) : Option Bytes := do
  let padLen ← data.getLast?
  if padLen.toNat ≤ data.length then some (data.take (data.length - padLen.toNat)) else none

def decryptCredential (e : EncryptedCredential) : Option Bytes := do
  let s ← unpack e.str
  if h : s.iv.length = blockSize then
    if blockSize ∣ s.ciphertext.length then
      strip (c.decrypt (c.pbkdf2 (bytes e.key) s.salt 1000) ⟨s.iv, h⟩ s.ciphertext)
    else none
  else none

/-! ### Padding -/

section Padding

variable (data : Bytes) {n : ℕ}

lemma padding_pos (hn : 0 < n) : 0 < n - data.length % n :=
  Nat.sub_pos_of_lt (Nat.mod_lt _ hn)

lemma length_pkcs7Pad : (pkcs7Pad data n).length = data.length + (n - data.length % n) := by
  rw [pkcs7Pad, List.length_append, List.length_replicate]

lemma dvd_length_pkcs7Pad (hn : 0 < n) : n ∣ (pkcs7Pad data n).length := by
  have hmod : data.length % n ≤ n := (Nat.mod_lt _ hn).le
  refine ⟨data.length / n + 1, ?_⟩
  calc (pkcs7Pad data n).length
      = n * (data.length / n) + data.length % n + (n - data.length % n) := by
        rw [length_pkcs7Pad, Nat.div_add_mod]
    _ = n * (data.length / n) + n := by omega
    _ = n * (data.length / n + 1) := (Nat.mul_succ n _).symm

lemma getLast?_pkcs7Pad (hn : 0 < n) :
    (pkcs7Pad data n).getLast? = some (UInt8.ofNat (n - data.length % n)) := by
  rw [pkcs7Pad, List.getLast?_append, List.getLast?_replicate, if_neg (padding_pos data hn).ne']
  rfl

lemma strip_pkcs7Pad (hn : 0 < n) (hbyte : n < 256) : strip (pkcs7Pad data n) = some data := by
  have hpad : (UInt8.ofNat (n - data.length % n)).toNat = n - data.length % n := by
    rw [UInt8.toNat_ofNat']
    omega
  rw [strip, getLast?_pkcs7Pad data hn, Option.bind_eq_bind, Option.bind_some, hpad,
    length_pkcs7Pad, if_pos (Nat.le_add_left _ _), Nat.add_sub_cancel, pkcs7Pad, List.take_left]

example : (pkcs7Pad (List.replicate 16 7) blockSize).length = 32 := by decide

end Padding

/-! ### The text of three parts -/

lemma hexDigit_spec {n : ℕ} (h : n < 16) :
    hexValue (Providers.hexDigit n) = some n ∧ Providers.hexDigit n ≠ ':' := by
  have hall : ∀ n < 16, hexValue (Providers.hexDigit n) = some n ∧
      Providers.hexDigit n ≠ ':' := by decide
  exact hall n h

lemma hexDecode_hex (b : Bytes) : hexDecode (Providers.hex b).toList = some b := by
  rw [Providers.hex, String.toList_ofList]
  induction b with
  | nil => rfl
  | cons x b ih =>
    have hx := x.toNat_lt
    have hbyte : 16 * (x.toNat / 16) + x.toNat % 16 = x.toNat := Nat.div_add_mod _ _
    rw [List.flatMap_cons, List.cons_append, List.cons_append, List.nil_append, hexDecode,
      (hexDigit_spec (show x.toNat / 16 < 16 by omega)).1,
      (hexDigit_spec (show x.toNat % 16 < 16 by omega)).1, ih]
    simp only [Option.bind_eq_bind, Option.bind_some, hbyte, UInt8.ofNat_toNat]

lemma colon_notMem_hex (b : Bytes) : ':' ∉ (Providers.hex b).toList := by
  rw [Providers.hex, String.toList_ofList]
  intro h
  obtain ⟨x, -, hx⟩ := List.mem_flatMap.mp h
  have hlt := x.toNat_lt
  simp only [List.mem_cons, List.not_mem_nil, or_false] at hx
  rcases hx with hx | hx
  · exact (hexDigit_spec (show x.toNat / 16 < 16 by omega)).2 hx.symm
  · exact (hexDigit_spec (show x.toNat % 16 < 16 by omega)).2 hx.symm

variable {iv salt ciphertext : Bytes}

lemma toList_combined : (combined iv salt ciphertext).toList =
    [(Providers.hex iv).toList, (Providers.hex salt).toList].foldr
      (fun p rest => p ++ ([':', ':'] ++ rest)) (Base64.encode Base64.std ciphertext) := by
  have hcolons : "::".toList = [':', ':'] := rfl
  simp only [combined, String.toList_append, String.toList_ofList, hcolons, List.foldr_cons,
    List.foldr_nil, List.append_assoc]

/-- The separator is in no part. -/
lemma splitN_combined {n : ℕ} (hn : 3 ≤ n) :
    Splitting.splitN [':', ':'] n (combined iv salt ciphertext).toList =
      [(Providers.hex iv).toList, (Providers.hex salt).toList,
        Base64.encode Base64.std ciphertext] := by
  rw [toList_combined]
  refine Splitting.splitN_intercalate hn (fun p hp => ?_) fun _ =>
    Base64.colon_notMem_encode ciphertext
  simp only [List.mem_cons, List.not_mem_nil, or_false] at hp
  rcases hp with rfl | rfl
  · exact colon_notMem_hex iv
  · exact colon_notMem_hex salt

lemma unpack_combined :
    unpack (String.ofList (Base64.encode Base64.std (bytes (combined iv salt ciphertext)))) =
      some ⟨iv, salt, ciphertext⟩ := by
  have htext : Utf8.text? (bytes (combined iv salt ciphertext)) =
      some (combined iv salt ciphertext) := Utf8.text?_eq_some.mpr rfl
  simp only [unpack, String.toList_ofList, Base64.decode_encode, htext, Option.bind_eq_bind,
    Option.bind_some, splitN_combined (le_refl 3), hexDecode_hex]

lemma randomNumericKey_digits (length : ℕ) (draw : ℕ → Fin 10) :
    (randomNumericKey length draw).length = length ∧
      ∀ ch ∈ (randomNumericKey length draw).toList, ch.isDigit = true := by
  have hdigit : ∀ i : Fin 10, (Char.ofNat ('0'.toNat + i)).isDigit = true := by decide
  refine ⟨by simp [randomNumericKey], fun ch hch => ?_⟩
  rw [randomNumericKey, String.toList_ofList] at hch
  obtain ⟨i, -, rfl⟩ := List.mem_map.mp hch
  exact hdigit (draw i)

/-- **Sealed credentials**: the key is of digits, the value is a text of exactly three parts, and
decoding it gives back what was sealed. -/
theorem decryptCredential_encryptCredential (plaintext : Bytes) (iv salt : Buf blockSize)
    (draw : ℕ → Fin 10) :
    ∃ e ciphertext, encryptCredential c plaintext (.ok iv) (.ok salt) draw = .ok e ∧
      (e.key.length = 16 ∧ ∀ ch ∈ e.key.toList, ch.isDigit = true) ∧
      Base64.decode Base64.std e.str.toList = some (bytes (combined iv.1 salt.1 ciphertext)) ∧
      (∀ n, 3 ≤ n → Splitting.splitN [':', ':'] n (combined iv.1 salt.1 ciphertext).toList =
        [(Providers.hex iv.1).toList, (Providers.hex salt.1).toList,
          Base64.encode Base64.std ciphertext]) ∧
      unpack e.str = some ⟨iv.1, salt.1, ciphertext⟩ ∧
      ciphertext ≠ [] ∧ blockSize ∣ ciphertext.length ∧
      decryptCredential c e = some plaintext := by
  let key := randomNumericKey 16 draw
  let derivedKey := c.pbkdf2 (bytes key) salt.1 1000
  let ciphertext := c.crypt derivedKey iv (pkcs7Pad plaintext blockSize)
  have hlen : ciphertext.length = (pkcs7Pad plaintext blockSize).length :=
    c.length_crypt derivedKey iv (pkcs7Pad plaintext blockSize)
  have haligned := dvd_length_pkcs7Pad plaintext (show 0 < blockSize by decide)
  have hdvd : blockSize ∣ ciphertext.length := hlen ▸ haligned
  have hpos : ciphertext ≠ [] := by
    rw [← List.length_pos_iff, hlen, length_pkcs7Pad]
    exact Nat.add_pos_right _ (padding_pos plaintext (by decide))
  have hplain : strip (c.decrypt derivedKey iv ciphertext) = some plaintext := by
    rw [c.decrypt_crypt _ _ _ haligned, strip_pkcs7Pad plaintext (by decide) (by decide)]
  refine ⟨_, ciphertext, rfl, randomNumericKey_digits 16 draw, ?_, fun n => splitN_combined,
    unpack_combined, hpos, hdvd, ?_⟩
  · rw [String.toList_ofList, Base64.decode_encode]
  · rw [decryptCredential, unpack_combined, Option.bind_eq_bind, Option.bind_some, dif_pos iv.2,
      if_pos hdvd]
    exact hplain

def zeros : Buf blockSize := ⟨List.replicate blockSize 0, List.length_replicate⟩

/-- A suite that only turns the bytes over. -/
def turned : Suite where
  pbkdf2 _ _ _ := zeros
  crypt _ _ data := data.map (~~~·)
  decrypt _ _ data := data.map (~~~·)
  length_crypt _ _ _ := List.length_map _
  decrypt_crypt _ _ data _ := by
    rw [List.map_map]
    exact (List.map_congr_left fun _ _ => UInt8.not_not).trans (List.map_id data)

theorem decryptCredential_encryptCredential_whole :
    ∃ e, encryptCredential turned (bytes "sixteen letters!") (.ok zeros) (.ok zeros)
        (fun _ => 7) = .ok e ∧
      decryptCredential turned e = some (bytes "sixteen letters!") := by
  obtain ⟨e, ciphertext, h⟩ :=
    decryptCredential_encryptCredential turned (bytes "sixteen letters!") zeros zeros fun _ => 7
  exact ⟨e, h.1, h.2.2.2.2.2.2.2⟩

end Veckomenyn.Credential
