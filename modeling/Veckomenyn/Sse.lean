import Veckomenyn.Utf8

/-!
The stream of a chat: the frames the server writes and the reader in the browser.

A text is the list of its characters, a data value whatever a JSON text stands for; reading and
writing JSON are parameters. The reader keeps the part of a frame that has come and calls a handler
for each frame that is whole.
-/

namespace Veckomenyn.Sse

open Framing Utf8

/-! ### Writing -/

section

variable {J : Type} (marshal : J → String)

/-- The text of a frame before the blank line. -/
def frameBody (event : String) (data : J) : List Char :=
  "event: ".toList ++ event.toList ++ '\n' :: ("data: ".toList ++ (marshal data).toList)

def sendSSE (event : String) (data : J) : List UInt8 :=
  encode String.utf8EncodeChar (frameBody marshal event data ++ ['\n', '\n'])

end

/-! ### Frames -/

/-- The first blank line, as the text before it and the text after it. -/
def cut : List Char → Option (List Char × List Char)
  | [] => none
  | '\n' :: '\n' :: rest => some ([], rest)
  | c :: rest => (cut rest).map fun p => (c :: p.1, p.2)

lemma cut_length {cs frame rest : List Char} (h : cut cs = some (frame, rest)) :
    rest.length < cs.length := by
  induction cs using cut.induct generalizing frame rest with
  | case1 => cases h
  | case2 rest' =>
    cases h
    simp only [List.length_cons]
    omega
  | case3 c rest' hne ih =>
    rw [cut] at h
    · obtain ⟨p, hp, hpair⟩ := Option.map_eq_some_iff.mp h
      cases hpair
      exact Nat.lt_succ_of_lt (ih hp)
    · exact hne

/-- The whole frames of the buffer, and what is left. -/
def drain (buffer : List Char) : List (List Char) × List Char :=
  match _hcut : cut buffer with
  | none => ([], buffer)
  | some (frame, rest) => (frame :: (drain rest).1, (drain rest).2)
termination_by buffer.length
decreasing_by all_goals exact cut_length _hcut

/-- White space and line ends, as `trim` takes them off. -/
def isSpace (c : Char) : Bool :=
  c.toNat ∈ [0x09, 0x0A, 0x0B, 0x0C, 0x0D, 0x20, 0xA0, 0x1680, 0x2028, 0x2029, 0x202F, 0x205F,
    0x3000, 0xFEFF] || 0x2000 ≤ c.toNat && c.toNat ≤ 0x200A

def trim (cs : List Char) : List Char :=
  ((cs.dropWhile isSpace).reverse.dropWhile isSpace).reverse

structure Parsed where
  event : List Char
  dataLines : List (List Char)

def readLine (p : Parsed) (rawLine : List Char) : Parsed :=
  if "event: ".toList.isPrefixOf rawLine then { p with event := trim (rawLine.drop 7) }
  else if "data: ".toList.isPrefixOf rawLine then
    { p with dataLines := p.dataLines ++ [rawLine.drop 6] }
  else p

section

variable {J : Type} (parse : String → Option J)

def parseFrame (frame : List Char) : Option (List Char × J) :=
  let p := (frame.splitOn '\n').foldl readLine ⟨"message".toList, []⟩
  if p.dataLines.length = 0 then none
  else (parse (String.ofList (['\n'].intercalate p.dataLines))).map fun data => (p.event, data)

/-! ### Reading -/

inductive Handler where
  | onMeta
  | onEvent
  | onEnd
deriving DecidableEq

def Handler.event : Handler → String
  | onMeta => "meta"
  | onEvent => "event"
  | onEnd => "end"

inductive Call (J : Type) where
  | handle (h : Handler) (data : J)
  | onError (err : String)

def handlerOf (event : List Char) : Option Handler :=
  if event = "meta".toList then some .onMeta
  else if event = "event".toList then some .onEvent
  else if event = "end".toList then some .onEnd
  else none

/-- A handler that throws is reported, and the reader goes on. -/
def deliver (throws : Handler → J → Option String) (frame : List Char) : List (Call J) :=
  match parseFrame parse frame with
  | none => []
  | some (event, data) => match handlerOf event with
    | none => []
    | some h => .handle h data :: (throws h data).toList.map .onError

structure Reader where
  decoder : TextDecoder
  buffer : List Char

variable (throws : Handler → J → Option String)

/-- One chunk. -/
def receive (r : Reader) (value : List UInt8) : Reader × List (Call J) :=
  let d := decode r.decoder value
  let p := drain (r.buffer ++ d.2)
  (⟨d.1, p.2⟩, p.1.flatMap (deliver parse throws))

def readAll : Reader → List (List UInt8) → List (Call J)
  | _, [] => []
  | r, value :: values => (receive parse throws r value).2 ++
    readAll (receive parse throws r value).1 values

/-- The calls of a stream that ends after the chunks. -/
def streamChat (values : List (List UInt8)) : List (Call J) :=
  readAll parse throws ⟨newTextDecoder, []⟩ values

end

end Veckomenyn.Sse
