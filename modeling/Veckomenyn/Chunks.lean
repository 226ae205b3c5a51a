import Veckomenyn.Sse

/-!
The reader of a chat's stream gives back the frames that were written, wherever the stream is cut.

First the chunks do not matter, then what has come is a number of whole frames and a part of the
next one, in which no blank line is found.
-/

namespace Veckomenyn.Chunks

open Framing Utf8 Sse

/-! ### Blank lines -/

lemma cut_cons {c : Char} {cs : List Char}
    (h : ∀ tail, c = '\n' → cs = '\n' :: tail → False) :
    cut (c :: cs) = (cut cs).map fun p => (c :: p.1, p.2) := by
  rw [cut]
  exact h

lemma cut_append {xs frame rest : List Char} (h : cut xs = some (frame, rest)) (ys : List Char) :
    cut (xs ++ ys) = some (frame, rest ++ ys) := by
  induction xs using cut.induct generalizing frame rest with
  | case1 => cases h
  | case2 rest' =>
    cases h
    rfl
  | case3 c xs hne ih =>
    rw [cut_cons hne] at h
    obtain ⟨p, hp, hpair⟩ := Option.map_eq_some_iff.mp h
    cases hpair
    rw [List.cons_append, cut_cons, ih hp]
    · rfl
    · intro tail hc htail
      cases xs with
      | nil => cases hp
      | cons d xs =>
        rw [List.cons_append, List.cons.injEq] at htail
        exact hne xs hc (by rw [htail.1])

lemma cut_none_of_prefix {xs ys : List Char} (h : cut ys = none) (hpre : xs <+: ys) :
    cut xs = none := by
  obtain ⟨zs, rfl⟩ := hpre
  rcases hxs : cut xs with _ | ⟨frame, rest⟩
  · rfl
  · rw [cut_append hxs] at h
    cases h

/-- A line is passed over. -/
lemma cut_line {l : List Char} (hl : '\n' ∉ l) (cs : List Char) :
    cut (l ++ cs) = (cut cs).map fun p => (l ++ p.1, p.2) := by
  induction l with
  | nil => simp
  | cons c l ih =>
    rw [List.mem_cons, not_or] at hl
    rw [List.cons_append, cut_cons (fun _ hc _ => hl.1 hc.symm), ih hl.2, Option.map_map]
    rfl

/-- A line end that does not end a blank line is passed over. -/
lemma cut_lineEnd {l cs : List Char} (hl : '\n' ∉ l) (hne : l ≠ []) :
    cut ('\n' :: (l ++ cs)) = (cut cs).map fun p => ('\n' :: (l ++ p.1), p.2) := by
  rw [cut_cons, cut_line hl, Option.map_map]
  · rfl
  · intro tail _ htail
    cases l with
    | nil => exact hne rfl
    | cons c l =>
      rw [List.cons_append, List.cons.injEq] at htail
      exact hl (by simp [htail.1])

/-! ### The buffer -/

lemma drain_none {buffer : List Char} (h : cut buffer = none) : drain buffer = ([], buffer) := by
  rw [drain]
  split
  · rfl
  · next hsome => rw [h] at hsome; cases hsome

lemma drain_some {buffer frame rest : List Char} (h : cut buffer = some (frame, rest)) :
    drain buffer = (frame :: (drain rest).1, (drain rest).2) := by
  rw [drain]
  split
  · next hnone => rw [h] at hnone; cases hnone
  · next hsome =>
    rw [h] at hsome
    cases hsome
    rfl

/-- It does not matter when the frames are taken out. -/
lemma drain_append (xs ys : List Char) :
    drain (xs ++ ys) = ((drain xs).1 ++ (drain ((drain xs).2 ++ ys)).1,
      (drain ((drain xs).2 ++ ys)).2) := by
  induction xs using drain.induct with
  | case1 xs h => rw [drain_none h]; rfl
  | case2 xs frame rest h ih =>
    rw [drain_some h, drain_some (cut_append h ys), ih]
    rfl

lemma drain_rest (xs : List Char) : (drain (drain xs).2).1 = [] := by
  induction xs using drain.induct with
  | case1 xs h => rw [drain_none h, drain_none h]
  | case2 xs frame rest h ih => rw [drain_some h, ih]

/-! ### The chunks do not matter -/

section

variable {J : Type} (parse : String → Option J) (throws : Handler → J → Option String)

lemma readAll_eq (r : Reader) (hbuffer : (drain r.buffer).1 = []) (values : List (List UInt8)) :
    readAll parse throws r values =
      (drain (r.buffer ++ (decode r.decoder values.flatten).2)).1.flatMap
        (deliver parse throws) := by
  induction values generalizing r with
  | nil =>
    have hnothing : (decode r.decoder []).2 = [] := by
      unfold decode
      rw [feed_nil]
      cases r.decoder.bomSeen <;> rfl
    rw [List.flatten_nil, hnothing, List.append_nil, hbuffer]
    rfl
  | cons value values ih =>
    rw [readAll, ih _ (drain_rest _), List.flatten_cons, decode_append, ← List.append_assoc,
      drain_append (r.buffer ++ (decode r.decoder value).2), List.flatMap_append]
    rfl

/-- **The chunks do not matter**: what is called is a function of the bytes. -/
theorem streamChat_eq (values : List (List UInt8)) :
    streamChat parse throws values =
      (drain (decode newTextDecoder values.flatten).2).1.flatMap (deliver parse throws) := by
  have hempty : (drain []).1 = [] := by rw [drain_none rfl]
  exact readAll_eq parse throws ⟨newTextDecoder, []⟩ hempty values

end

/-! ### One frame -/

variable {J : Type} (marshal : J → String)

/-- The text of a frame for a handler. -/
def chars (f : Handler × J) : List Char := frameBody marshal f.1.event f.2 ++ ['\n', '\n']

def sent (f : Handler × J) : List UInt8 := sendSSE marshal f.1.event f.2

/-- The calls of handlers, without the reports of those that throw. -/
def handled (calls : List (Call J)) : List (Handler × J) :=
  calls.filterMap fun
    | .handle h data => some (h, data)
    | .onError _ => none

variable {marshal} (hline : ∀ data, '\n' ∉ (marshal data).toList)

lemma eventLine_clean (h : Handler) : '\n' ∉ "event: ".toList ++ h.event.toList := by
  cases h <;> decide

include hline in
lemma dataLine_clean (data : J) : '\n' ∉ "data: ".toList ++ (marshal data).toList := by
  rw [List.mem_append, not_or]
  exact ⟨by decide, hline data⟩

lemma dataLine_ne_nil (data : J) : "data: ".toList ++ (marshal data).toList ≠ [] :=
  List.append_ne_nil_of_left_ne_nil (by decide) _

include hline in
lemma cut_body (f : Handler × J) (cs : List Char) :
    cut (frameBody marshal f.1.event f.2 ++ cs) =
      (cut cs).map fun p => (frameBody marshal f.1.event f.2 ++ p.1, p.2) := by
  unfold frameBody
  rw [List.append_assoc, cut_line (eventLine_clean f.1), List.cons_append,
    cut_lineEnd (dataLine_clean hline f.2) (dataLine_ne_nil f.2), Option.map_map]
  simp [Function.comp_def]

include hline in
lemma cut_chars (f : Handler × J) (cs : List Char) :
    cut (chars marshal f ++ cs) = some (frameBody marshal f.1.event f.2, cs) := by
  unfold chars
  rw [List.append_assoc, cut_body hline]
  simp [cut]

include hline in
lemma cut_part {f : Handler × J} {t : List Char} (hpre : t <+: chars marshal f)
    (hne : t ≠ chars marshal f) : cut t = none := by
  have hconcat : chars marshal f = frameBody marshal f.1.event f.2 ++ ['\n'] ++ ['\n'] := by
    unfold chars
    rw [List.append_assoc, List.singleton_append]
  rw [hconcat, List.prefix_concat_iff, ← hconcat] at hpre
  refine cut_none_of_prefix ?_ (hpre.resolve_left hne)
  rw [cut_body hline]
  rfl

include hline in
/-- The lines of a frame. -/
lemma split_body (f : Handler × J) :
    (frameBody marshal f.1.event f.2).splitOn '\n' =
      ["event: ".toList ++ f.1.event.toList, "data: ".toList ++ (marshal f.2).toList] := by
  unfold frameBody
  rw [List.splitOn_append_cons_self_of_not_mem (eventLine_clean f.1),
    List.splitOn_eq_singleton (dataLine_clean hline f.2)]

variable {parse : String → Option J} (hparse : ∀ data, parse (marshal data) = some data)

lemma readLine_event (p : Parsed) (h : Handler) :
    readLine p ("event: ".toList ++ h.event.toList) = { p with event := h.event.toList } := by
  cases h <;> rfl

lemma readLine_data (p : Parsed) (data : J) :
    readLine p ("data: ".toList ++ (marshal data).toList) =
      { p with dataLines := p.dataLines ++ [(marshal data).toList] } := by
  rfl

include hline hparse in
lemma parse_body (f : Handler × J) :
    parseFrame parse (frameBody marshal f.1.event f.2) = some (f.1.event.toList, f.2) := by
  unfold parseFrame
  rw [split_body hline]
  simp only [List.foldl_cons, List.foldl_nil, readLine_event, readLine_data]
  simp [hparse]

lemma handlerOf_event (h : Handler) : handlerOf h.event.toList = some h := by
  cases h <;> rfl

include hline hparse in
lemma handled_deliver (throws : Handler → J → Option String) (f : Handler × J) :
    handled (deliver parse throws (frameBody marshal f.1.event f.2)) = [f] := by
  unfold deliver
  rw [parse_body hline hparse]
  simp only [handlerOf_event]
  cases throws f.1 f.2 <;> rfl

/-! ### The frames that are whole -/

lemma encode_sent (frames : List (Handler × J)) :
    encode (sent marshal) frames = encode String.utf8EncodeChar (encode (chars marshal) frames) := by
  induction frames with
  | nil => rfl
  | cons f frames ih => rw [encode_cons, encode_cons, encode_append, ih]; rfl

include hline in
lemma drain_chars (frames : List (Handler × J)) {t : List Char} (ht : cut t = none) :
    (drain (encode (chars marshal) frames ++ t)).1 =
      frames.map fun f => frameBody marshal f.1.event f.2 := by
  induction frames with
  | nil => rw [encode_nil, List.nil_append, drain_none ht]; rfl
  | cons f frames ih =>
    rw [encode_cons, List.append_assoc, drain_some (cut_chars hline f _), ih]
    rfl

include hline hparse in
lemma handled_frames (throws : Handler → J → Option String) (frames : List (Handler × J)) :
    handled ((frames.map fun f => frameBody marshal f.1.event f.2).flatMap
      (deliver parse throws)) = frames := by
  induction frames with
  | nil => rfl
  | cons f frames ih =>
    unfold handled at ih ⊢
    rw [List.map_cons, List.flatMap_cons, List.filterMap_append, ih]
    exact congrArg (· ++ frames) (handled_deliver hline hparse throws f)

/-- No stream begins with a byte order mark. -/
lemma head_chars (frames : List (Handler × J)) (m : ℕ) :
    ((encode (chars marshal) frames).take m).head? ≠ some byteOrderMark := by
  cases frames with
  | nil => simp
  | cons f frames =>
    cases m with
    | zero => simp
    | succ m =>
      intro h
      have he : some 'e' = some byteOrderMark := h
      exact absurd (Option.some.inj he) (by decide)

include hline hparse in
/-- **The handlers are called for the frames that have come whole**, in order, with their data. -/
theorem streamChat_frames (throws : Handler → J → Option String) (frames : List (Handler × J))
    (values : List (List UInt8)) (hcut : values.flatten <+: encode (sent marshal) frames) :
    ∃ k ≤ frames.length, handled (streamChat parse throws values) = frames.take k ∧
      ∀ j ≤ frames.length, encode (sent marshal) (frames.take j) <+: values.flatten ↔ j ≤ k := by
  rw [encode_sent] at hcut
  -- the characters that have come whole, then the frames
  obtain ⟨m, t, hm⟩ := exists_cut hcut
  obtain ⟨k, t', hk⟩ := exists_cut (List.take_prefix m (encode (chars marshal) frames))
  refine ⟨k, hk.le, ?_, fun j hj => ?_⟩
  · have hclean : cut t' = none := by
      rcases hf : frames[k]? with _ | f
      · rw [hk.ended hf]
        rfl
      · obtain ⟨hpre, hne⟩ := hk.part f hf
        exact cut_part hline hpre hne
    have hread : (decode newTextDecoder values.flatten).2 =
        encode (chars marshal) (frames.take k) ++ t' := by
      rw [decode_new, feed_cut hm, hk.eq]
      rw [feed_cut hm]
      exact head_chars frames m
    rw [streamChat_eq, hread, drain_chars hline _ hclean, handled_frames hline hparse]
  · have htext : encode (chars marshal) (frames.take j) =
        (encode (chars marshal) frames).take (encode (chars marshal) (frames.take j)).length := by
      refine List.prefix_iff_eq_take.mp ?_
      simpa using @encode_take_mono _ _ (chars marshal) frames _ _ hj
    have hlen : (encode (chars marshal) (frames.take j)).length ≤
        (encode (chars marshal) frames).length := by
      rw [htext]
      exact List.length_take_le' _ _
    calc encode (sent marshal) (frames.take j) <+: values.flatten
        ↔ (encode (chars marshal) (frames.take j)).length ≤ m := by
          rw [encode_sent, htext, hm.prefix_iff hlen, ← htext]
      _ ↔ encode (chars marshal) (frames.take j) <+: (encode (chars marshal) frames).take m := by
          rw [List.prefix_take_iff]
          exact (and_iff_right (htext ▸ List.take_prefix _ _)).symm
      _ ↔ j ≤ k := hk.prefix_iff hj

include hline hparse in
/-- What has come of a stream, by its characters. -/
lemma handled_cut (throws : Handler → J → Option String) (frames : List (Handler × J))
    {values : List (List UInt8)} {m : ℕ} {t : List UInt8}
    (hm : Cut String.utf8EncodeChar (encode (chars marshal) frames) values.flatten m t) :
    ∃ k t', Cut (chars marshal) frames ((encode (chars marshal) frames).take m) k t' ∧
      handled (streamChat parse throws values) = frames.take k := by
  obtain ⟨k, t', hk⟩ := exists_cut (List.take_prefix m (encode (chars marshal) frames))
  refine ⟨k, t', hk, ?_⟩
  have hclean : cut t' = none := by
    rcases hf : frames[k]? with _ | f
    · rw [hk.ended hf]
      rfl
    · obtain ⟨hpre, hne⟩ := hk.part f hf
      exact cut_part hline hpre hne
  have hread : (decode newTextDecoder values.flatten).2 =
      encode (chars marshal) (frames.take k) ++ t' := by
    rw [decode_new, feed_cut hm, hk.eq]
    rw [feed_cut hm]
    exact head_chars frames m
  rw [streamChat_eq, hread, drain_chars hline _ hclean, handled_frames hline hparse]

include hline hparse in
/-- A stream that is cut off calls the handlers for its first frames, and one that comes whole for
all of them. -/
lemma handled_prefix (throws : Handler → J → Option String) (frames : List (Handler × J))
    {values : List (List UInt8)} (hpre : values.flatten <+: encode (sent marshal) frames) :
    ∃ k, handled (streamChat parse throws values) = frames.take k ∧
      (values.flatten = encode (sent marshal) frames → k = frames.length) := by
  rw [encode_sent] at hpre ⊢
  obtain ⟨m, t, hm⟩ := exists_cut hpre
  obtain ⟨k, t', hk, hhandled⟩ := handled_cut hline hparse throws frames hm
  refine ⟨k, hhandled, fun hall => ?_⟩
  have hchars : (encode (chars marshal) frames).length ≤ m := by
    rw [← hm.prefix_iff le_rfl, List.take_length, hall]
  have hframes : frames.length ≤ k := by
    rw [← hk.prefix_iff le_rfl, List.take_length, List.take_of_length_le hchars]
  exact le_antisymm hk.le hframes

/-! ### A stream of two truth values -/

def marshalBool (b : Bool) : String := if b then "true" else "false"

def parseBool (text : String) : Option Bool :=
  if text = "true" then some true else if text = "false" then some false else none

lemma marshalBool_line (b : Bool) : '\n' ∉ (marshalBool b).toList := by
  cases b <;> decide

lemma parseBool_marshalBool (b : Bool) : parseBool (marshalBool b) = some b := by
  cases b <;> decide

def answers : List (Handler × Bool) := [(.onMeta, true), (.onEnd, false)]

def stream : List UInt8 := encode (sent marshalBool) answers

/-- The stream in two chunks, cut off in the blank line at its end. -/
def received : List (List UInt8) := [stream.take 10, (stream.drop 10).take 37]

lemma received_prefix : received.flatten <+: stream := by
  refine ⟨stream.drop 47, ?_⟩
  rfl

theorem streamChat_received :
    ∃ k ≤ answers.length,
      handled (streamChat parseBool (fun _ _ => none) received) = answers.take k ∧
        ∀ j ≤ answers.length, encode (sent marshalBool) (answers.take j) <+: received.flatten ↔
          j ≤ k :=
  streamChat_frames marshalBool_line parseBool_marshalBool (fun _ _ => none) answers received
    received_prefix

end Veckomenyn.Chunks
