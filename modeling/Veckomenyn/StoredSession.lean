import Mathlib.Data.List.Induction
import Mathlib.Data.String.Basic
import Veckomenyn.Crypto
import Veckomenyn.JsonText

/-!
The session of the shop in its row.

A session is written as a JSON text, and the text is wrapped when there is a key. A process reads
what earlier ones wrote, with their key, with another one or with none at all; a wrapped text is
taken for JSON when there is no key to unwrap it with.
-/

namespace Veckomenyn.StoredSession

open Crypto JsonText

/-! ### Sessions -/

/-- A map of texts, its keys in order. -/
structure Cookies where
  entries : List (String × String)
  sorted : entries.Pairwise fun a b => a.1 < b.1

namespace Cookies

def empty : Cookies := ⟨[], .nil⟩

def set (m : Cookies) (k v : String) : Cookies where
  entries := m.entries.filter (fun e => e.1 < k) ++ (k, v) :: m.entries.filter fun e => k < e.1
  sorted := by
    have hbefore : ∀ e ∈ m.entries.filter fun e => e.1 < k, e.1 < k := fun e he => by
      simpa using (List.mem_filter.mp he).2
    have hafter : ∀ e ∈ m.entries.filter fun e => k < e.1, k < e.1 := fun e he => by
      simpa using (List.mem_filter.mp he).2
    refine List.pairwise_append.mpr ⟨m.sorted.filter _,
      List.pairwise_cons.mpr ⟨hafter, m.sorted.filter _⟩, fun a ha b hb => ?_⟩
    rcases List.mem_cons.mp hb with rfl | hb
    · exact hbefore a ha
    · exact (hbefore a ha).trans (hafter b hb)

end Cookies

/-- A session; a map that has not been made is none. -/
structure Session where
  cookies : Option Cookies
  csrfToken : String

def Session.hasCookie (s : Session) : Bool := s.cookies.any fun m => m.entries ≠ []

/-! ### The blob -/

def marshalCookies : Option Cookies → List Char
  | none => null
  | some m => object (m.entries.map fun e => (e.1.toList, quote e.2.toList))

def marshal (s : Session) : List Char :=
  object [("cookies".toList, marshalCookies s.cookies),
    ("csrf_token".toList, quote s.csrfToken.toList)]

/-- `null` leaves a text as it is. -/
def decodeText (old : String) : Value → Option String
  | .str s => some (String.ofList s)
  | .null => some old
  | _ => none

def decodeEntry (m : Cookies) (member : List Char × Value) : Option Cookies :=
  (decodeText "" member.2).map (m.set (String.ofList member.1))

/-- What is there already is added to. -/
def decodeCookies (old : Option Cookies) : Value → Option (Option Cookies)
  | .null => some none
  | .obj members => (members.foldlM decodeEntry (old.getD Cookies.empty)).map some
  | _ => none

/-- Names of fields are compared without regard to case, for which two more letters are a `k` and an
`s`. -/
def foldRune (c : Char) : Char :=
  if c = Char.ofNat 0x212A then 'k' else if c = Char.ofNat 0x17F then 's' else c.toLower

def decodeField (s : Session) (member : List Char × Value) : Option Session :=
  let name := member.1.map foldRune
  if name = "cookies".toList then
    (decodeCookies s.cookies member.2).map fun cookies => { s with cookies }
  else if name = "csrf_token".toList then
    (decodeText s.csrfToken member.2).map fun csrfToken => { s with csrfToken }
  else some s

def decodeBlob : Value → Option Session
  | .null => some ⟨none, ""⟩
  | .obj members => members.foldlM decodeField ⟨none, ""⟩
  | _ => none

def unmarshal (text : List Char) : Option Session := (read text).bind decodeBlob

/-! ### The store -/

/-- `EncryptString`. -/
def encryptString (crypt : Option Aead) (nonce : Buf nonceSize) (plain : String) : String :=
  match crypt with
  | none => plain
  | some c => if isEncrypted plain then plain else c.encrypt nonce plain

/-- `DecryptString`. -/
def decryptString (crypt : Option Aead) (v : String) : Except DecryptError String :=
  match crypt with
  | none => .ok v
  | some c => if isEncrypted v then c.decrypt v else .ok v

/-- The row of `willys_session`, with the columns that are read. -/
structure Row where
  cookiesBytea : Option String
  csrf : Option String

inductive LoadError where
  | noSession
  | json
deriving DecidableEq

def load (crypt : Option Aead) : Option Row → Except LoadError Session
  | none => .error .noSession
  | some row =>
    let raw := row.cookiesBytea.getD ""
    if raw = "" then .error .noSession
    else match decryptString crypt raw with
      | .error _ => .error .noSession
      | .ok text =>
        match unmarshal text.toList with
        | none => .error .json
        | some blob =>
          let csrfToken := if blob.csrfToken = "" then row.csrf.getD "" else blob.csrfToken
          match blob.cookies with
          | none => .error .noSession
          | some m =>
            if m.entries = [] then .error .noSession else .ok ⟨some m, csrfToken⟩

def save (crypt : Option Aead) (nonce : Buf nonceSize) (s : Session) : Row :=
  ⟨some (encryptString crypt nonce (String.ofList (marshal s))), some ""⟩

/-! ### Processes one after another -/

inductive Op where
  | save (nonce : Buf nonceSize) (s : Session)
  | clear
  | load

/-- A call, and the key of the process that makes it. -/
structure Step where
  key : Option (Buf 32)
  op : Op

variable (aes : Buf 32 → Aead)

def step (row : Option Row) (st : Step) : Option Row :=
  match st.op with
  | .save nonce s => some (save (st.key.map aes) nonce s)
  | .clear => none
  | .load => row

def after (steps : List Step) : Option Row := steps.foldl (step aes) none

/-- The session that was saved last and not cleared, and the key it was saved with. -/
def keep (saved : Option (Option (Buf 32) × Session)) (st : Step) :
    Option (Option (Buf 32) × Session) :=
  match st.op with
  | .save _ s => some (st.key, s)
  | .clear => none
  | .load => saved

def lastSaved (steps : List Step) : Option (Option (Buf 32) × Session) := steps.foldl keep none

/-- What a process with a key is to be given. -/
def promised (steps : List Step) (key : Option (Buf 32)) : Except LoadError Session :=
  match lastSaved steps with
  | none => .error .noSession
  | some (k, s) => if s.hasCookie ∧ (k = none ∨ k = key) then .ok s else .error .noSession

/-! ### The text of a session -/

lemma set_entries {m : Cookies} {k : String} (h : ∀ e ∈ m.entries, e.1 < k) (v : String) :
    (m.set k v).entries = m.entries ++ [(k, v)] := by
  have hbefore : m.entries.filter (fun e => e.1 < k) = m.entries :=
    List.filter_eq_self.mpr fun e he => decide_eq_true (h e he)
  have hafter : m.entries.filter (fun e => k < e.1) = [] :=
    List.filter_eq_nil_iff.mpr fun e he => by
      rw [decide_eq_true_iff]
      exact (h e he).asymm
  show m.entries.filter (fun e => e.1 < k) ++ (k, v) :: m.entries.filter (fun e => k < e.1) = _
  rw [hbefore, hafter]

/-- Entries that come in order are added at the end. -/
lemma decodeEntries (l : List (String × String)) (m : Cookies)
    (h : (m.entries ++ l).Pairwise fun a b => a.1 < b.1) :
    (l.map fun e => (e.1.toList, Value.str e.2.toList)).foldlM decodeEntry m =
      some ⟨m.entries ++ l, h⟩ := by
  induction l generalizing m with
  | nil => simp
  | cons e l ih =>
    have hlt : ∀ a ∈ m.entries, a.1 < e.1 := fun a ha =>
      (List.pairwise_append.mp h).2.2 a ha e List.mem_cons_self
    have hset := set_entries hlt e.2
    have hentry : decodeEntry m (e.1.toList, .str e.2.toList) = some (m.set e.1 e.2) := by
      simp [decodeEntry, decodeText]
    rw [List.map_cons, List.foldlM_cons, hentry]
    simp only [Option.bind_eq_bind, Option.bind_some]
    rw [ih (m.set e.1 e.2) (by rw [hset]; simpa using h)]
    simp [hset]

/-- A map of texts as its text and as what is read of it. -/
def members (m : Cookies) : Read := m.entries.map fun e =>
  (e.1.toList, quote e.2.toList, .str e.2.toList)

def cookiesValue : Option Cookies → Value
  | none => .null
  | some m => .obj (members m).values

lemma reads_cookies (cookies : Option Cookies) :
    Reads (marshalCookies cookies) (cookiesValue cookies) := by
  rcases cookies with _ | m
  · exact reads_null
  · have h : Reads (object (members m).texts) (.obj (members m).values) := by
      refine reads_object fun e he => ?_
      obtain ⟨e, -, rfl⟩ := List.mem_map.mp he
      exact reads_quote e.2.toList
    rwa [members, Read.texts, List.map_map] at h

lemma decodeCookies_value (cookies : Option Cookies) :
    decodeCookies none (cookiesValue cookies) = some cookies := by
  rcases cookies with _ | m
  · rfl
  · have h := decodeEntries m.entries Cookies.empty m.sorted
    rw [cookiesValue, members, Read.values, List.map_map, decodeCookies]
    exact congrArg (Option.map some) h

/-- **Round trip**: the text of a session is read as the session. -/
theorem unmarshal_marshal (s : Session) : unmarshal (marshal s) = some s := by
  let l : Read := [("cookies".toList, marshalCookies s.cookies, cookiesValue s.cookies),
    ("csrf_token".toList, quote s.csrfToken.toList, .str s.csrfToken.toList)]
  have hreads : Reads (marshal s) (.obj l.values) := by
    refine reads_object (l := l) fun e he => ?_
    rcases List.mem_cons.mp he with rfl | he
    · exact reads_cookies s.cookies
    · rw [List.mem_singleton.mp he]
      exact reads_quote s.csrfToken.toList
  have hcookies : decodeField ⟨none, ""⟩ ("cookies".toList, cookiesValue s.cookies) =
      some ⟨s.cookies, ""⟩ := by
    have hname : "cookies".toList.map foldRune = "cookies".toList := by decide
    simp only [decodeField, hname, if_true, decodeCookies_value, Option.map_some]
  have htoken : decodeField ⟨s.cookies, ""⟩ ("csrf_token".toList, .str s.csrfToken.toList) =
      some s := by
    have hname : "csrf_token".toList.map foldRune = "csrf_token".toList := by decide
    have hne : "csrf_token".toList ≠ "cookies".toList := by decide
    simp only [decodeField, hname, hne, if_false, if_true, decodeText, Option.map_some,
      String.ofList_toList]
  rw [unmarshal, hreads.read, Option.bind_some, decodeBlob]
  show List.foldlM decodeField _ [_, _] = _
  rw [List.foldlM_cons, hcookies]
  simp only [Option.bind_eq_bind, Option.bind_some, List.foldlM_cons, List.foldlM_nil, htoken]
  rfl

lemma isEncrypted_marshal (s : Session) : isEncrypted (String.ofList (marshal s)) = false := by
  have hhead : ∃ cs, marshal s = '{' :: cs := ⟨_, rfl⟩
  obtain ⟨cs, hcs⟩ := hhead
  rw [isEncrypted, String.toList_ofList, hcs]
  simp [cryptoPrefix, List.isPrefixOf]

/-- A wrapped text is not JSON. -/
lemma unmarshal_encrypted {text : String} (h : isEncrypted text = true) :
    unmarshal text.toList = none := by
  rw [isEncrypted, List.isPrefixOf_iff_prefix] at h
  obtain ⟨cs, hcs⟩ := h
  have hvalue (n : ℕ) (rest : List Char) : readValue (n + 1) ('e' :: rest) = none := rfl
  have hread (rest : List Char) : JsonText.read ('e' :: rest) = none := by
    rw [JsonText.read, hvalue]
  have htext : text.toList = 'e' :: (cryptoPrefix.toList.tail ++ cs) := hcs.symm
  rw [htext, unmarshal, hread, Option.bind_none]

/-! ### What a process is given -/

variable {aes} {steps : List Step} {key : Option (Buf 32)}

/-- The row is the last session's, when there is one. -/
lemma after_eq (aes : Buf 32 → Aead) (steps : List Step) :
    lastSaved steps = none ∧ after aes steps = none ∨ ∃ k nonce s,
      lastSaved steps = some (k, s) ∧ after aes steps = some (save (k.map aes) nonce s) := by
  induction steps using List.reverseRecOn with
  | nil => exact .inl ⟨rfl, rfl⟩
  | append_singleton steps st ih =>
    rw [lastSaved, after, List.foldl_concat, List.foldl_concat]
    obtain ⟨key, ⟨nonce, s⟩ | _ | _⟩ := st
    · exact .inr ⟨key, nonce, s, rfl, rfl⟩
    · exact .inl ⟨rfl, rfl⟩
    · exact ih

section Load

variable {crypt : Option Aead} {raw : String} {s : Session}

lemma load_text (hraw : raw ≠ "")
    (h : decryptString crypt raw = .ok (String.ofList (marshal s))) :
    load crypt (some ⟨some raw, some ""⟩) =
      if s.hasCookie then .ok s else .error .noSession := by
  have htoken : (if s.csrfToken = "" then "" else s.csrfToken) = s.csrfToken := by
    split_ifs with ht
    · exact ht.symm
    · rfl
  simp only [load, Option.getD_some, hraw, if_false, h, String.toList_ofList, unmarshal_marshal,
    htoken]
  obtain ⟨_ | m, token⟩ := s
  · rfl
  · by_cases hm : m.entries = [] <;> simp [Session.hasCookie, hm]

lemma load_error (hraw : raw ≠ "") {e : DecryptError} (h : decryptString crypt raw = .error e) :
    load crypt (some ⟨some raw, some ""⟩) = .error .noSession := by
  simp only [load, Option.getD_some, hraw, if_false, h]

/-- Without a key a wrapped text is read as JSON. -/
lemma load_wrapped (hraw : isEncrypted raw = true) :
    load none (some ⟨some raw, some ""⟩) = .error .json := by
  have hne : raw ≠ "" := by
    rintro rfl
    exact absurd hraw (by decide)
  simp only [load, Option.getD_some, hne, if_false, decryptString, unmarshal_encrypted hraw]

variable (c : Aead) (nonce : Buf nonceSize) (s)

lemma encryptString_some : encryptString (some c) nonce (String.ofList (marshal s)) =
    c.encrypt nonce (String.ofList (marshal s)) := by
  simp only [encryptString, isEncrypted_marshal, Bool.false_eq_true, if_false]

/-- What was saved without a key is read with any or none. -/
lemma load_plain (crypt : Option Aead) : load crypt (some (save none nonce s)) =
    if s.hasCookie then .ok s else .error .noSession := by
  have hne : String.ofList (marshal s) ≠ "" := fun h => by
    have := congrArg String.toList h
    rw [String.toList_ofList] at this
    cases this
  refine load_text hne ?_
  rcases crypt with _ | c
  · rfl
  · simp only [decryptString, encryptString, isEncrypted_marshal, Bool.false_eq_true, if_false]

lemma load_same : load (some c) (some (save (some c) nonce s)) =
    if s.hasCookie then .ok s else .error .noSession := by
  rw [save, encryptString_some]
  refine load_text (c.encrypt_ne_empty nonce _) ?_
  simp only [decryptString, Aead.isEncrypted_encrypt, if_true, Aead.decrypt_encrypt]

lemma load_other (c' : Aead) (h : ∀ plain, c'.opens nonce (c.seals nonce plain) = none) :
    load (some c') (some (save (some c) nonce s)) = .error .noSession := by
  rw [save, encryptString_some]
  refine load_error (e := .authentication) (c.encrypt_ne_empty nonce _) ?_
  simp only [decryptString, Aead.isEncrypted_encrypt, if_true, Aead.decrypt_encrypt_by, h,
    Option.elim_none]

lemma load_none : load none (some (save (some c) nonce s)) = .error .json := by
  rw [save, encryptString_some]
  exact load_wrapped (c.isEncrypted_encrypt nonce _)

end Load

/-- What one key has sealed no other opens. -/
def KeysDiffer (aes : Buf 32 → Aead) : Prop := ∀ k k', k ≠ k' → ∀ nonce plain,
  (aes k').opens nonce ((aes k).seals nonce plain) = none

lemma load_promised (haes : KeysDiffer aes)
    (h : ∀ k s, lastSaved steps = some (some k, s) → key ≠ none) :
    load (key.map aes) (after aes steps) = promised steps key := by
  rcases after_eq aes steps with ⟨hlast, hrow⟩ | ⟨k, nonce, s, hlast, hrow⟩
  · rw [promised, hlast, hrow]
    rfl
  rw [promised, hlast, hrow]
  rcases k with _ | k
  · simp [load_plain]
  obtain ⟨key, rfl⟩ := Option.ne_none_iff_exists'.mp (h k s hlast)
  rw [Option.map_some, Option.map_some]
  by_cases hkey : k = key
  · subst hkey
    simp [load_same]
  · rw [load_other s _ nonce _ (haes k key hkey nonce)]
    simp [hkey]

/-- **The saved session**: a process is given what it should be if and only if it has a key when the
last session was saved with one. -/
theorem load_promised_iff (aes : Buf 32 → Aead) (haes : KeysDiffer aes) (steps : List Step)
    (key : Option (Buf 32)) :
    load (key.map aes) (after aes steps) = promised steps key ↔
      ∀ k s, lastSaved steps = some (some k, s) → key ≠ none := by
  refine ⟨fun h k s hlast hkey => ?_, load_promised haes⟩
  -- the wrapped text is taken for JSON, whatever should have been given
  subst hkey
  rcases after_eq aes steps with ⟨hnone, -⟩ | ⟨k', nonce, s', hlast', hrow⟩
  · rw [hnone] at hlast
    cases hlast
  · rw [hlast'] at hlast
    cases hlast
    rw [promised, hlast', hrow, Option.map_none, Option.map_some, load_none] at h
    simp only at h
    split_ifs at h <;> cases h

/-- The key stays what it is once there is one. -/
def Rollout (steps : List Step) (key : Option (Buf 32)) : Prop :=
  ∀ st ∈ steps, st.key = none ∨ st.key = key

lemma key_lastSaved (h : Rollout steps key) {k : Option (Buf 32)} {s : Session}
    (hlast : lastSaved steps = some (k, s)) : k = none ∨ k = key := by
  induction steps using List.reverseRecOn with
  | nil => cases hlast
  | append_singleton steps st ih =>
    rw [lastSaved, List.foldl_concat] at hlast
    have hst := h st (by simp)
    obtain ⟨k', ⟨nonce, s'⟩ | _ | _⟩ := st
    · cases hlast
      exact hst
    · cases hlast
    · exact ih (fun st hst => h st (List.mem_append_left _ hst)) hlast

/-- While a key is rolled out the last session is read back, if it has a cookie. -/
theorem load_rollout (haes : KeysDiffer aes) (h : Rollout steps key) {k : Option (Buf 32)}
    {s : Session} (hlast : lastSaved steps = some (k, s)) (hcookie : s.hasCookie = true) :
    load (key.map aes) (after aes steps) = .ok s := by
  rw [load_promised haes, promised, hlast]
  · simp only [hcookie, key_lastSaved h hlast, and_self, if_true]
  · rintro k' s' hlast' rfl
    rcases key_lastSaved h hlast' with hk | hk <;> cases hk

/-! ### A cipher -/

/-- A cipher that hides nothing and puts the key in front. -/
def shown (key : Buf 32) : Aead where
  seals _ plain := key.1 ++ plain.toList.flatMap charBytes
  opens _ b := if b.take 32 = key.1 then some (String.ofList (bytesChars (b.drop 32))) else none
  opens_seals _ plain := by
    rw [List.take_left' key.2, List.drop_left' key.2, if_pos rfl, bytesChars_charBytes,
      String.ofList_toList]

lemma keysDiffer_shown : KeysDiffer shown := by
  intro k k' hne nonce plain
  have htake : (k.1 ++ plain.toList.flatMap charBytes).take 32 = k.1 := List.take_left' k.2
  simp only [shown, htake]
  exact if_neg fun h => hne (Subtype.ext h)

def someKey : Buf 32 := ⟨List.replicate 32 0, List.length_replicate⟩

def oneCookie : Session := ⟨some ⟨[("JSESSIONID", "abc")], List.pairwise_singleton _ _⟩, "xyz"⟩

/-- A session is saved with a key. -/
def saved : List Step :=
  [⟨some someKey, .save ⟨List.replicate 12 0, List.length_replicate⟩ oneCookie⟩]

lemma promised_saved : promised saved (some someKey) = .ok oneCookie := by
  have hlast : lastSaved saved = some (some someKey, oneCookie) := rfl
  have hcookie : oneCookie.hasCookie = true := rfl
  rw [promised, hlast]
  simp [hcookie]

theorem load_promised_iff_saved :
    load (some (shown someKey)) (after shown saved) = .ok oneCookie := by
  rw [← promised_saved]
  exact (load_promised_iff shown keysDiffer_shown saved (some someKey)).mpr (by simp)

/-- A process that has no key reads the wrapped session as JSON. -/
theorem not_load_promised : ¬ ∀ (aes : Buf 32 → Aead), KeysDiffer aes →
    ∀ (steps : List Step) (key : Option (Buf 32)),
      load (key.map aes) (after aes steps) = promised steps key := by
  intro h
  have hnone := h shown keysDiffer_shown saved none
  have hload : load none (after shown saved) = .error .json := load_none oneCookie _ _
  rw [Option.map_none, hload] at hnone
  cases hnone

end Veckomenyn.StoredSession
