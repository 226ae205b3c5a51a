import Veckomenyn.Base64
import Veckomenyn.ReadTools

/-!
Wrapped secrets.

A wrapped text is `enc:v1:` and the base64 of a nonce and what AES-256-GCM seals under it. The
cipher is a parameter: all the code relies on is that opening undoes sealing. Random bytes come
from outside.
-/

namespace Veckomenyn.Crypto

open ReadTools

abbrev Bytes := List UInt8

/-- A buffer of `n` bytes. -/
abbrev Buf (n : ℕ) := {b : Bytes // b.length = n}

abbrev nonceSize : ℕ := 12

/-- The cipher under one key. -/
structure Aead where
  seals : Buf nonceSize → String → Bytes
  opens : Buf nonceSize → Bytes → Option String
  opens_seals : ∀ nonce plain, opens nonce (seals nonce plain) = some plain

def cryptoPrefix : String := "enc:v1:"

/-- No key is no encryption. -/
def newCryptor (aes : Buf 32 → Aead) (key : Bytes) : Except String (Option Aead) :=
  if key.length = 0 then .ok none
  else if h : key.length = 32 then .ok (some (aes ⟨key, h⟩))
  else .error ("MASTER_KEY must decode to 32 bytes, got " ++ toString key.length)

/-- A blank key is no key; nothing for one that does not decode. -/
def parseMasterKey (s : String) : Option Bytes :=
  let s := trimSpace s
  if s = "" then some []
  else match Base64.decode Base64.std s.toList with
    | some b => some b
    | none => Base64.decode Base64.url s.toList

def isEncrypted (s : String) : Bool := cryptoPrefix.toList.isPrefixOf s.toList

inductive DecryptError where
  | notEncrypted
  | illegalBase64
  | tooShort
  | authentication
  deriving DecidableEq

lemma length_nonce {blob : Bytes} (h : ¬ blob.length < nonceSize) :
    (blob.take nonceSize).length = nonceSize := by
  rw [List.length_take]
  exact min_eq_left (not_lt.mp h)

namespace Aead

variable (c : Aead)

def encrypt (nonce : Buf nonceSize) (plain : String) : String :=
  cryptoPrefix ++ String.ofList (Base64.encode Base64.std (nonce.1 ++ c.seals nonce plain))

def decrypt (s : String) : Except DecryptError String :=
  if isEncrypted s then
    match Base64.decode Base64.std (s.toList.drop cryptoPrefix.toList.length) with
    | none => .error .illegalBase64
    | some blob =>
      if h : blob.length < nonceSize then .error .tooShort
      else match c.opens ⟨blob.take nonceSize, length_nonce h⟩ (blob.drop nonceSize) with
        | none => .error .authentication
        | some plain => .ok plain
  else .error .notEncrypted

lemma toList_encrypt (nonce : Buf nonceSize) (plain : String) :
    (c.encrypt nonce plain).toList =
      cryptoPrefix.toList ++ Base64.encode Base64.std (nonce.1 ++ c.seals nonce plain) := by
  rw [encrypt, String.toList_append, String.toList_ofList]

@[simp] lemma isEncrypted_encrypt (nonce : Buf nonceSize) (plain : String) :
    isEncrypted (c.encrypt nonce plain) = true := by
  rw [isEncrypted, toList_encrypt, List.isPrefixOf_iff_prefix]
  exact List.prefix_append _ _

/-- What one key has wrapped, unwrapped with another. -/
lemma decrypt_encrypt_by (c' : Aead) (nonce : Buf nonceSize) (plain : String) :
    c'.decrypt (c.encrypt nonce plain) =
      (c'.opens nonce (c.seals nonce plain)).elim (.error .authentication) .ok := by
  have hlen : ¬ (nonce.1 ++ c.seals nonce plain).length < nonceSize := by
    rw [List.length_append, nonce.2]
    omega
  have htake : (⟨(nonce.1 ++ c.seals nonce plain).take nonceSize, length_nonce hlen⟩ :
      Buf nonceSize) = nonce := Subtype.ext (List.take_left' nonce.2)
  have hdrop : (nonce.1 ++ c.seals nonce plain).drop nonceSize = c.seals nonce plain :=
    List.drop_left' nonce.2
  simp only [decrypt, isEncrypted_encrypt, if_true, toList_encrypt, List.drop_left,
    Base64.decode_encode, dif_neg hlen, htake, hdrop]
  cases c'.opens nonce (c.seals nonce plain) <;> rfl

/-- **Round trip**: a wrapped text unwraps to itself. -/
@[simp] theorem decrypt_encrypt (nonce : Buf nonceSize) (plain : String) :
    c.decrypt (c.encrypt nonce plain) = .ok plain := by
  rw [decrypt_encrypt_by, c.opens_seals]
  rfl

lemma encrypt_ne_empty (nonce : Buf nonceSize) (plain : String) : c.encrypt nonce plain ≠ "" := by
  intro h
  have he := c.isEncrypted_encrypt nonce plain
  rw [h] at he
  exact absurd he (by decide)

end Aead

/-! ### A cipher to run -/

def charBytes (c : Char) : Bytes :=
  [UInt8.ofNat (c.toNat / 65536), UInt8.ofNat (c.toNat / 256), UInt8.ofNat c.toNat]

def bytesChars : Bytes → List Char
  | a :: b :: c :: rest =>
    Char.ofNat (a.toNat * 65536 + b.toNat * 256 + c.toNat) :: bytesChars rest
  | _ => []

lemma bytesChars_charBytes (cs : List Char) : bytesChars (cs.flatMap charBytes) = cs := by
  induction cs with
  | nil => rfl
  | cons c cs ih =>
    have hc : c.toNat < 1114112 := c.valid.elim (fun h => Nat.lt_trans h (by decide)) And.right
    have h : c.toNat / 65536 % 256 * 65536 + c.toNat / 256 % 256 * 256 + c.toNat % 256 =
        c.toNat := by omega
    simp only [List.flatMap_cons, charBytes, List.cons_append, List.nil_append, bytesChars,
      UInt8.toNat_ofNat', ih]
    rw [show (2 : ℕ) ^ 8 = 256 from rfl, h, Char.ofNat_toNat]

/-- What `tagged` puts in front tells the keys apart. -/
def openTagged (tag : UInt8) : Bytes → Option String
  | [] => none
  | t :: rest => if t = tag then some (String.ofList (bytesChars rest)) else none

lemma openTagged_cons (tag : UInt8) (plain : String) :
    openTagged tag (tag :: plain.toList.flatMap charBytes) = some plain := by
  rw [openTagged, if_pos rfl, bytesChars_charBytes, String.ofList_toList]

/-- A cipher that hides nothing. -/
def tagged (tag : UInt8) : Aead where
  seals _ plain := tag :: plain.toList.flatMap charBytes
  opens _ := openTagged tag
  opens_seals _ plain := openTagged_cons tag plain

/-- The key's first byte is the tag. -/
def taggedBy (key : Buf 32) : Aead := tagged (key.1.headD 0)

end Veckomenyn.Crypto
