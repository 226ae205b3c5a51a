import Veckomenyn.Conversations

/-!
The title of a conversation.

It is the first line of the first message, or the first 80 bytes of that and an ellipsis. The cut
takes no heed of characters.
-/

namespace Veckomenyn.Titles

open Rows Conversations Utf8 Framing ReadTools

/-- What stands before the first newline of the trimmed message. -/
def firstLine (msg : String) : List Char := (trimSpace msg).toList.takeWhile fun c => c ≠ '\n'

/-- The title is a text: the first line, or what it begins with and an ellipsis. -/
def Titled (msg : String) : Prop :=
  ∃ title, text? (conversationTitle msg) = some title ∧
    (title.toList = firstLine msg ∨ ∃ k, title.toList = (firstLine msg).take k ++ ['…'])

/-- No conversation is refused for the title. -/
def Stored (msg : String) : Prop :=
  ∀ d now id weekID, (ensureConversation d now id weekID msg).1 ≠ .error .titleEncoding

/-- The first line has 80 bytes at most, or some of its characters fill 80 bytes. -/
def Whole (msg : String) : Prop :=
  (encode String.utf8EncodeChar (firstLine msg)).length ≤ 80 ∨
    ∃ k, (encode String.utf8EncodeChar ((firstLine msg).take k)).length = 80

/-- No zero byte comes into the title. -/
def ZeroFree (msg : String) : Prop := 0 ∉ (encode String.utf8EncodeChar (firstLine msg)).take 80

variable {msg : String}

lemma title_short (h : (encode String.utf8EncodeChar (firstLine msg)).length ≤ 80) :
    conversationTitle msg = encode String.utf8EncodeChar (firstLine msg) := by
  unfold conversationTitle
  exact if_neg (not_lt.mpr h)

lemma title_long (h : 80 < (encode String.utf8EncodeChar (firstLine msg)).length) :
    conversationTitle msg = (encode String.utf8EncodeChar (firstLine msg)).take 80 ++
      encode String.utf8EncodeChar ['…'] := by
  unfold conversationTitle
  exact if_pos h

/-- The 80 bytes of the first `k` characters. -/
lemma take_whole {k : ℕ}
    (hk : (encode String.utf8EncodeChar ((firstLine msg).take k)).length = 80) :
    (encode String.utf8EncodeChar (firstLine msg)).take 80 =
      encode String.utf8EncodeChar ((firstLine msg).take k) := by
  have hsplit : encode String.utf8EncodeChar (firstLine msg) =
      encode String.utf8EncodeChar ((firstLine msg).take k) ++
        encode String.utf8EncodeChar ((firstLine msg).drop k) := by
    rw [← encode_append, List.take_append_drop]
  rw [hsplit, List.take_left' hk]

lemma titled_of_whole (h : Whole msg) : Titled msg := by
  by_cases hlen : (encode String.utf8EncodeChar (firstLine msg)).length ≤ 80
  · refine ⟨String.ofList (firstLine msg), ?_, Or.inl (String.toList_ofList)⟩
    rw [text?_eq_some, title_short hlen, String.toList_ofList]
  · obtain ⟨k, hk⟩ := h.resolve_left hlen
    refine ⟨String.ofList ((firstLine msg).take k ++ ['…']), ?_,
      Or.inr ⟨k, String.toList_ofList⟩⟩
    rw [text?_eq_some, title_long (not_le.mp hlen), take_whole hk, String.toList_ofList,
      encode_append]

/-- A cut through a character leaves no text. -/
lemma text?_of_not_whole (h : ¬Whole msg) : text? (conversationTitle msg) = none := by
  have hlen : ¬(encode String.utf8EncodeChar (firstLine msg)).length ≤ 80 :=
    fun hle => h (Or.inl hle)
  obtain ⟨m, t, hcut⟩ := exists_cut
    (List.take_prefix 80 (encode String.utf8EncodeChar (firstLine msg)))
  have ht : t ≠ [] := by
    rintro rfl
    refine h (Or.inr ⟨m, ?_⟩)
    rw [← List.append_nil (encode _ _), ← hcut.eq, List.length_take]
    omega
  rcases hc : (firstLine msg)[m]? with _ | c
  · exact absurd (hcut.ended hc) ht
  · obtain ⟨hpre, hne⟩ := hcut.part c hc
    have hdots : String.utf8EncodeChar '…' = [0xE2, 0x80, 0xA6] := by decide
    rw [title_long (not_le.mp hlen), hcut.eq, encode_cons, encode_nil, List.append_nil]
    refine text?_part ht hpre hne fun b hb => ?_
    rw [hdots] at hb
    cases hb
    decide

/-! ### The insert -/

lemma zero_mem_title : 0 ∈ conversationTitle msg ↔ ¬ZeroFree msg := by
  unfold ZeroFree
  rw [not_not]
  by_cases hlen : (encode String.utf8EncodeChar (firstLine msg)).length ≤ 80
  · rw [title_short hlen, List.take_of_length_le hlen]
  · have hdots : 0 ∉ encode String.utf8EncodeChar ['…'] := by decide
    rw [title_long (not_le.mp hlen), List.mem_append, or_iff_left hdots]

/-- A new conversation is refused for its title just when that is no text to Postgres. -/
lemma newConversation_title (d : ChatDb) (now : ℤ) (weekId : Option ℤ) (title : List UInt8) :
    (newConversation d now weekId title).1 = .error .titleEncoding ↔ pgText? title = none := by
  unfold newConversation
  rcases pgText? title with _ | t
  · simp
  · simp only
    split <;> simp

lemma stored_iff : Stored msg ↔ pgText? (conversationTitle msg) ≠ none := by
  constructor
  · intro h hnone
    refine h ⟨[], Table.empty, Table.empty⟩ 0 none none ?_
    simp only [ensureConversation, Option.filter_none]
    exact (newConversation_title _ 0 none _).mpr hnone
  · intro h d now id weekID
    have hnew (w : Option ℤ) := mt (newConversation_title d now w (conversationTitle msg)).mp h
    unfold ensureConversation
    split
    · split <;> simp
    · split
      · split
        · simp
        · exact hnew _
      · exact hnew _

/-- **The title** is a text exactly when the cut is not inside a character, and is stored exactly
when it has no zero byte besides. -/
theorem title_iff (msg : String) :
    (Titled msg ↔ Whole msg) ∧ (Stored msg ↔ Whole msg ∧ ZeroFree msg) := by
  constructor
  · refine ⟨fun ⟨s, hs, _⟩ => ?_, titled_of_whole⟩
    by_contra hw
    rw [text?_of_not_whole hw] at hs
    cases hs
  · rw [stored_iff, pgText?]
    by_cases hz : ZeroFree msg
    · rw [if_neg (mt zero_mem_title.mp (not_not.mpr hz)), and_iff_left hz]
      refine ⟨fun h => ?_, fun hw => ?_⟩
      · by_contra hw
        exact h (text?_of_not_whole hw)
      · obtain ⟨s, hs, -⟩ := titled_of_whole hw
        simp [hs]
    · rw [if_pos (zero_mem_title.mpr hz)]
      simp [hz]

/-! ### A letter of two bytes -/

/-- One `a` and forty `ö`. -/
def swedish : String := String.ofList ('a' :: List.replicate 40 'ö')

lemma firstLine_swedish : firstLine swedish = 'a' :: List.replicate 40 'ö' := by
  decide

lemma not_whole_swedish : ¬Whole swedish := by
  have hbytes (n : ℕ) : (encode String.utf8EncodeChar (List.replicate n 'ö')).length = 2 * n := by
    induction n with
    | zero => rfl
    | succ n ih =>
      have hone : (String.utf8EncodeChar 'ö').length = 2 := by decide
      rw [List.replicate_succ, encode_cons, List.length_append, ih, hone]
      omega
  have ha : (String.utf8EncodeChar 'a').length = 1 := by decide
  rw [Whole, firstLine_swedish]
  rintro (h | ⟨k, hk⟩)
  · rw [encode_cons, List.length_append, hbytes, ha] at h
    omega
  · cases k with
    | zero => cases hk
    | succ k =>
      rw [List.take_succ_cons, List.take_replicate, encode_cons, List.length_append, hbytes,
        ha] at hk
      omega

/-- The 80th byte is the first of an `ö`. -/
theorem not_titled : ¬∀ msg, Titled msg ∧ Stored msg := by
  intro h
  obtain ⟨⟨s, hs, -⟩, -⟩ := h swedish
  rw [text?_of_not_whole not_whole_swedish] at hs
  cases hs

end Veckomenyn.Titles
