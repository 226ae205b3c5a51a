import Veckomenyn.Framing

/-!
Decoding UTF-8 a chunk at a time.

The decoder keeps what has come of a character that is not whole yet. A byte that does not fit
gives a replacement character and is looked at anew.
-/

namespace Veckomenyn.Utf8

open Framing

/-- The bits so far, the bytes needed and seen, and the bounds of the next one. -/
structure Decoder where
  codePoint : ℕ
  needed : ℕ
  seen : ℕ
  lower : ℕ
  upper : ℕ
deriving DecidableEq

def idle : Decoder := ⟨0, 0, 0, 0x80, 0xBF⟩

def replacement : Char := Char.ofNat 0xFFFD

/-- A first byte. -/
def lead (b : ℕ) : Decoder × List Char :=
  if b ≤ 0x7F then (idle, [Char.ofNat b])
  else if 0xC2 ≤ b ∧ b ≤ 0xDF then (⟨b % 0x20, 1, 0, 0x80, 0xBF⟩, [])
  else if 0xE0 ≤ b ∧ b ≤ 0xEF then
    (⟨b % 0x10, 2, 0, if b = 0xE0 then 0xA0 else 0x80, if b = 0xED then 0x9F else 0xBF⟩, [])
  else if 0xF0 ≤ b ∧ b ≤ 0xF4 then
    (⟨b % 0x08, 3, 0, if b = 0xF0 then 0x90 else 0x80, if b = 0xF4 then 0x8F else 0xBF⟩, [])
  else (idle, [replacement])

def push (d : Decoder) (b : ℕ) : Decoder × List Char :=
  if d.needed = 0 then lead b
  else if b < d.lower ∨ d.upper < b then ((lead b).1, replacement :: (lead b).2)
  else if d.seen + 1 = d.needed then (idle, [Char.ofNat (d.codePoint * 0x40 + b % 0x40)])
  else (⟨d.codePoint * 0x40 + b % 0x40, d.needed, d.seen + 1, 0x80, 0xBF⟩, [])

def feed : Decoder → List UInt8 → Decoder × List Char
  | d, [] => (d, [])
  | d, b :: bs =>
    let s := push d b.toNat
    let u := feed s.1 bs
    (u.1, s.2 ++ u.2)

@[simp] lemma feed_nil (d : Decoder) : feed d [] = (d, []) := rfl

lemma feed_cons (d : Decoder) (b : UInt8) (bs : List UInt8) :
    feed d (b :: bs) = ((feed (push d b.toNat).1 bs).1,
      (push d b.toNat).2 ++ (feed (push d b.toNat).1 bs).2) := rfl

lemma feed_append (d : Decoder) (xs ys : List UInt8) :
    feed d (xs ++ ys) = ((feed (feed d xs).1 ys).1,
      (feed d xs).2 ++ (feed (feed d xs).1 ys).2) := by
  induction xs generalizing d with
  | nil => rfl
  | cons b xs ih => rw [List.cons_append, feed_cons, ih, feed_cons, List.append_assoc]

/-! ### One character -/

/-- The bytes are those of `c`, and none but the last gives a character. -/
structure Reads (d : Decoder) (bs : List UInt8) (c : Char) : Prop where
  whole : feed d bs = (idle, [c])
  part : ∀ k < bs.length, (feed d (bs.take k)).2 = []

lemma reads_last {d : Decoder} {b : UInt8} {c : Char} (h : push d b.toNat = (idle, [c])) :
    Reads d [b] c := by
  refine ⟨by rw [feed_cons, h, feed_nil, List.append_nil], fun k hk => ?_⟩
  obtain rfl : k = 0 := by simpa using hk
  rfl

lemma Reads.cons {d d' : Decoder} {b : UInt8} {bs : List UInt8} {c : Char}
    (h : push d b.toNat = (d', [])) (hbs : Reads d' bs c) : Reads d (b :: bs) c := by
  refine ⟨by rw [feed_cons, h, hbs.whole, List.nil_append], fun k hk => ?_⟩
  cases k with
  | zero => rfl
  | succ k =>
    rw [List.take_succ_cons, feed_cons, h, List.nil_append]
    exact hbs.part k (Nat.lt_of_succ_lt_succ hk)

lemma toNat_byte {x : ℕ} (hx : x < 0x100) : (UInt8.ofNat x).toNat = x := by
  rw [UInt8.toNat_ofNat']
  omega

lemma push_idle {x : ℕ} (hx : x < 0x100) : push idle (UInt8.ofNat x).toNat = lead x := by
  unfold push
  rw [toNat_byte hx]
  exact if_pos rfl

lemma push_two {x : ℕ} (hlow : 2 ≤ x) (hx : x < 0x20) :
    push idle (UInt8.ofNat (x + 0xC0)).toNat = (⟨x, 1, 0, 0x80, 0xBF⟩, []) := by
  have hmod : (x + 0xC0) % 0x20 = x := by omega
  rw [push_idle (by omega), lead, if_neg (by omega), if_pos (by omega), hmod]

lemma push_three {x : ℕ} (hx : x < 0x10) :
    push idle (UInt8.ofNat (x + 0xE0)).toNat =
      (⟨x, 2, 0, if x = 0 then 0xA0 else 0x80, if x = 0xD then 0x9F else 0xBF⟩, []) := by
  have hmod : (x + 0xE0) % 0x10 = x := by omega
  have hlow : x + 0xE0 = 0xE0 ↔ x = 0 := by omega
  have hhigh : x + 0xE0 = 0xED ↔ x = 0xD := by omega
  rw [push_idle (by omega), lead, if_neg (by omega), if_neg (by omega), if_pos (by omega), hmod]
  simp only [hlow, hhigh]

lemma push_four {x : ℕ} (hx : x < 5) :
    push idle (UInt8.ofNat (x + 0xF0)).toNat =
      (⟨x, 3, 0, if x = 0 then 0x90 else 0x80, if x = 4 then 0x8F else 0xBF⟩, []) := by
  have hmod : (x + 0xF0) % 0x08 = x := by omega
  have hlow : x + 0xF0 = 0xF0 ↔ x = 0 := by omega
  have hhigh : x + 0xF0 = 0xF4 ↔ x = 4 := by omega
  rw [push_idle (by omega), lead, if_neg (by omega), if_neg (by omega), if_neg (by omega),
    if_pos (by omega), hmod]
  simp only [hlow, hhigh]

section

variable {cp n k lo hi x : ℕ}

/-- A byte that goes on with a character. -/
lemma push_more (hx : x < 0x40) (hlo : lo ≤ x + 0x80) (hhi : x + 0x80 ≤ hi) (hn : k + 1 < n) :
    push ⟨cp, n, k, lo, hi⟩ (UInt8.ofNat (x + 0x80)).toNat =
      (⟨cp * 0x40 + x, n, k + 1, 0x80, 0xBF⟩, []) := by
  have hmod : (x + 0x80) % 0x40 = x := by omega
  unfold push
  rw [toNat_byte (by omega)]
  simp only [hmod]
  rw [if_neg (by omega), if_neg (by omega), if_neg (by omega)]

/-- A byte that ends a character. -/
lemma push_last {c : Char} (hx : x < 0x40) (hlo : lo ≤ x + 0x80) (hhi : x + 0x80 ≤ hi)
    (hn : k + 1 = n) (hc : cp * 0x40 + x = c.val.toNat) :
    push ⟨cp, n, k, lo, hi⟩ (UInt8.ofNat (x + 0x80)).toNat = (idle, [c]) := by
  have hmod : (x + 0x80) % 0x40 = x := by omega
  unfold push
  rw [toNat_byte (by omega)]
  simp only [hmod]
  rw [if_neg (by omega), if_neg (by omega), if_pos hn, hc]
  exact congrArg (fun c => (idle, [c])) (Char.ofNat_toNat c)

end

/-- **A character is read from its bytes.** -/
theorem reads_char (c : Char) : Reads idle (String.utf8EncodeChar c) c := by
  have hvalid : c.val.toNat < 0xD800 ∨ 0xDFFF < c.val.toNat ∧ c.val.toNat < 0x110000 := c.valid
  unfold String.utf8EncodeChar
  simp only
  split
  · -- one byte
    rename_i hv
    refine reads_last ?_
    rw [push_idle (by omega), lead, if_pos hv]
    exact congrArg (fun c => (idle, [c])) (Char.ofNat_toNat c)
  · split
    · -- two bytes
      have hfirst : c.val.toNat / 64 % 0x20 = c.val.toNat / 64 := by omega
      rw [hfirst]
      exact .cons (push_two (by omega) (by omega))
        (reads_last (push_last (by omega) (by omega) (by omega) rfl (by omega)))
    · split
      · -- three bytes
        have hfirst : c.val.toNat / 4096 % 0x10 = c.val.toNat / 4096 := by omega
        rw [hfirst]
        exact .cons (push_three (by omega))
          (.cons (push_more (by omega) (by split <;> omega) (by split <;> omega) (by omega))
            (reads_last (push_last (by omega) (by omega) (by omega) rfl (by omega))))
      · -- four bytes
        have hfirst : c.val.toNat / 262144 % 0x08 = c.val.toNat / 262144 := by omega
        rw [hfirst]
        exact .cons (push_four (by omega))
          (.cons (push_more (by omega) (by split <;> omega) (by split <;> omega) (by omega))
            (.cons (push_more (by omega) (by omega) (by omega) (by omega))
              (reads_last (push_last (by omega) (by omega) (by omega) rfl (by omega)))))

/-! ### A text -/

lemma feed_encode (cs : List Char) :
    feed idle (encode String.utf8EncodeChar cs) = (idle, cs) := by
  induction cs with
  | nil => rfl
  | cons c cs ih =>
    rw [encode_cons, feed_append, (reads_char c).whole]
    simp only [ih, List.singleton_append]

/-- **What has come is read as the characters that have come whole.** -/
theorem feed_cut {cs : List Char} {r t : List UInt8} {m : ℕ}
    (h : Cut String.utf8EncodeChar cs r m t) : (feed idle r).2 = cs.take m := by
  have hpart : (feed idle t).2 = [] := by
    rcases hc : cs[m]? with _ | c
    · rw [h.ended hc, feed_nil]
    · obtain ⟨hpre, hne⟩ := h.part c hc
      rw [List.prefix_iff_eq_take.mp hpre]
      refine (reads_char c).part _ (lt_of_le_of_ne hpre.length_le fun hlen => ?_)
      exact hne (hpre.eq_of_length hlen)
  rw [h.eq, feed_append, feed_encode, hpart, List.append_nil]

/-- The text with these bytes. -/
def text? (bs : List UInt8) : Option String :=
  if encode String.utf8EncodeChar (feed idle bs).2 = bs then some (String.ofList (feed idle bs).2)
  else none

lemma text?_eq_some {bs : List UInt8} {s : String} :
    text? bs = some s ↔ bs = encode String.utf8EncodeChar s.toList := by
  unfold text?
  constructor
  · intro h
    split at h
    · rename_i hbs
      cases h
      rw [String.toList_ofList, hbs]
    · cases h
  · rintro rfl
    rw [feed_encode, if_pos rfl, String.ofList_toList]

/-! ### A character that stops short -/

/-- More bytes of a character are to come. -/
def Decoder.Pending (d : Decoder) : Prop := d.needed ≠ 0 ∧ d.upper ≤ 0xBF

lemma pending_lead {b : ℕ} (h : (lead b).2 = []) : (lead b).1.Pending := by
  unfold lead at h ⊢
  unfold Decoder.Pending
  split_ifs at h ⊢ <;> simp_all

lemma pending_push {d : Decoder} {b : ℕ} (h : (push d b).2 = []) : (push d b).1.Pending := by
  unfold push at h ⊢
  split_ifs at h ⊢ with h0 hout hlast
  · exact pending_lead h
  · exact ⟨h0, le_rfl⟩

lemma pending_feed {d : Decoder} {t : List UInt8} (ht : t ≠ []) (h : (feed d t).2 = []) :
    (feed d t).1.Pending := by
  induction t generalizing d with
  | nil => exact absurd rfl ht
  | cons b t ih =>
    rw [feed_cons] at h ⊢
    obtain ⟨hb, hrest⟩ := List.append_eq_nil_iff.mp h
    cases t with
    | nil => exact pending_push hb
    | cons b' t => exact ih (List.cons_ne_nil _ _) hrest

/-- A first byte does not go on with a character. -/
lemma feed_pending {d : Decoder} (hd : d.Pending) {b : UInt8} (hb : 0xBF < b.toNat)
    (bs : List UInt8) :
    feed d (b :: bs) = ((feed idle (b :: bs)).1, replacement :: (feed idle (b :: bs)).2) := by
  have hpush : push d b.toNat = ((lead b.toNat).1, replacement :: (lead b.toNat).2) := by
    rw [push, if_neg hd.1, if_pos (Or.inr (lt_of_le_of_lt hd.2 hb))]
  have hidle : push idle b.toNat = lead b.toNat := if_pos rfl
  rw [feed_cons, feed_cons, hpush, hidle, List.cons_append]

/-- **A part of a character** makes a text invalid where another character follows. -/
theorem text?_part {cs : List Char} {t : List UInt8} {c c' : Char} (ht : t ≠ [])
    (hpre : t <+: String.utf8EncodeChar c) (hne : t ≠ String.utf8EncodeChar c)
    (hc' : ∀ b ∈ (String.utf8EncodeChar c').head?, 0xBF < b.toNat) :
    text? (encode String.utf8EncodeChar cs ++ t ++ String.utf8EncodeChar c') = none := by
  have hpart : (feed idle t).2 = [] := by
    rw [List.prefix_iff_eq_take.mp hpre]
    refine (reads_char c).part _ (lt_of_le_of_ne hpre.length_le fun hlen => ?_)
    exact hne (hpre.eq_of_length hlen)
  have hfeed : feed (feed idle t).1 (String.utf8EncodeChar c') = (idle, [replacement, c']) := by
    have hread := (reads_char c').whole
    rcases hbs : String.utf8EncodeChar c' with _ | ⟨b, bs⟩
    · rw [hbs] at hread
      cases hread
    · rw [hbs] at hread hc'
      rw [feed_pending (pending_feed ht hpart) (hc' b rfl), hread]
  rcases hs : text? (encode String.utf8EncodeChar cs ++ t ++ String.utf8EncodeChar c') with _ | s
  · rfl
  · -- it would have the bytes of a replacement character there
    exfalso
    have hbytes := text?_eq_some.mp hs
    have hchars : cs ++ [replacement, c'] = s.toList := by
      have hall := congrArg (feed idle) hbytes
      rw [feed_encode, List.append_assoc, feed_append, feed_encode, feed_append, hpart,
        hfeed] at hall
      exact (Prod.mk.inj hall).2
    have hcut : t = String.utf8EncodeChar replacement := by
      rw [← hchars, encode_append, encode_cons, encode_cons, encode_nil, List.append_nil,
        List.append_assoc, List.append_right_inj, List.append_left_inj] at hbytes
      exact hbytes
    rw [hcut, (reads_char replacement).whole] at hpart
    cases hpart

/-! ### The decoder of a stream -/

def byteOrderMark : Char := Char.ofNat 0xFEFF

/-- A byte order mark at the start is left out. -/
structure TextDecoder where
  decoder : Decoder
  bomSeen : Bool
deriving DecidableEq

def newTextDecoder : TextDecoder := ⟨idle, false⟩

/-- Whether a first character has been seen, and the characters without the mark. -/
def strip : Bool → List Char → Bool × List Char
  | true, cs => (true, cs)
  | false, [] => (false, [])
  | false, c :: cs => (true, if c = byteOrderMark then cs else c :: cs)

def decode (d : TextDecoder) (bs : List UInt8) : TextDecoder × List Char :=
  (⟨(feed d.decoder bs).1, (strip d.bomSeen (feed d.decoder bs).2).1⟩,
    (strip d.bomSeen (feed d.decoder bs).2).2)

lemma strip_append (seen : Bool) (xs ys : List Char) :
    strip seen (xs ++ ys) = ((strip (strip seen xs).1 ys).1,
      (strip seen xs).2 ++ (strip (strip seen xs).1 ys).2) := by
  cases seen with
  | true => rfl
  | false =>
    cases xs with
    | nil => rfl
    | cons c xs =>
      simp only [List.cons_append, strip]
      split <;> rfl

/-- It does not matter where a stream is cut into chunks. -/
lemma decode_append (d : TextDecoder) (xs ys : List UInt8) :
    decode d (xs ++ ys) = ((decode (decode d xs).1 ys).1,
      (decode d xs).2 ++ (decode (decode d xs).1 ys).2) := by
  unfold decode
  rw [feed_append, strip_append]

/-- Nothing is left out of a text that does not begin with the mark. -/
lemma decode_new {bs : List UInt8} (h : (feed idle bs).2.head? ≠ some byteOrderMark) :
    (decode newTextDecoder bs).2 = (feed idle bs).2 := by
  unfold decode newTextDecoder
  cases hcs : (feed idle bs).2 with
  | nil => rfl
  | cons c cs =>
    rw [hcs, List.head?_cons] at h
    exact if_neg fun heq => h (congrArg some heq)

end Veckomenyn.Utf8
