import Mathlib.Data.List.Forall2
import Veckomenyn.Llm

/-!
The marks that tell the service which prefix of a request to keep.

It takes only a few marks in one request. A request has one on its first system block and one on
the last block of its last message, and the marks of earlier requests are taken away.
-/

namespace Veckomenyn.Breakpoints

open Llm

/-! ### The client's types -/

structure CacheControl where
  type : String := ""
  ttl : String := ""
deriving DecidableEq

def zero : CacheControl := {}

def newCacheControlEphemeral : CacheControl := { type := "ephemeral" }

structure TextBlockParam where
  text : String
  cacheControl : CacheControl := {}
deriving DecidableEq

structure ToolResultBlockParam where
  toolUseID : String
  content : String
  isError : Bool
  cacheControl : CacheControl := {}
deriving DecidableEq

structure ToolUseBlockParam where
  id : String
  name : String
  input : String
  cacheControl : CacheControl := {}
deriving DecidableEq

/-- A union: the members that are there, each of them this block's own. -/
structure ContentBlockParam where
  ofText : Option TextBlockParam := none
  ofToolResult : Option ToolResultBlockParam := none
  ofToolUse : Option ToolUseBlockParam := none
deriving DecidableEq

structure MessageParam where
  role : Role
  content : List ContentBlockParam
deriving DecidableEq

/-! ### The code -/

def toSDKSystemBlocks (blocks : List SystemBlock) : List TextBlockParam :=
  blocks.map fun b => { text := b.text }

def toSDKBlock (b : ContentBlock) : ContentBlockParam :=
  match b.type with
  | .text => { ofText := some { text := b.text } }
  | .toolResult =>
    { ofToolResult := some { toolUseID := b.toolID, content := b.text, isError := b.isError } }
  | .toolUse => { ofToolUse := some { id := b.toolID, name := b.toolName, input := b.toolInput } }

def toSDKMessages (msgs : List Message) : List MessageParam :=
  msgs.map fun m => ⟨m.role, m.content.map toSDKBlock⟩

def TextBlockParam.mark (c : CacheControl) (p : TextBlockParam) : TextBlockParam :=
  { p with cacheControl := c }

def ToolResultBlockParam.mark (c : CacheControl) (p : ToolResultBlockParam) :
    ToolResultBlockParam :=
  { p with cacheControl := c }

def clearBlock (b : ContentBlockParam) : ContentBlockParam :=
  { b with
    ofToolResult := b.ofToolResult.map (ToolResultBlockParam.mark zero)
    ofText := b.ofText.map (TextBlockParam.mark zero) }

def clearMessageCacheBreakpoints (msgs : List MessageParam) : List MessageParam :=
  msgs.map fun m => { m with content := m.content.map clearBlock }

def markBlock (b : ContentBlockParam) : ContentBlockParam :=
  match b.ofToolResult, b.ofText with
  | some p, _ => { b with ofToolResult := some (p.mark newCacheControlEphemeral) }
  | none, some p => { b with ofText := some (p.mark newCacheControlEphemeral) }
  | none, none => b

def markMessage (m : MessageParam) : MessageParam :=
  if m.content.length = 0 then m
  else { m with content := m.content.modify (m.content.length - 1) markBlock }

def markLast (msgs : List MessageParam) : List MessageParam :=
  if msgs.length = 0 then msgs else msgs.modify (msgs.length - 1) markMessage

def markSystem : List TextBlockParam → List TextBlockParam
  | [] => []
  | s :: system => s.mark newCacheControlEphemeral :: system

def setCacheBreakpoints (req : List TextBlockParam × List MessageParam) :
    List TextBlockParam × List MessageParam :=
  (markSystem req.1, markLast (clearMessageCacheBreakpoints req.2))

/-- The blocks a request is made of. -/
def request (params : RunParams) : List TextBlockParam × List MessageParam :=
  setCacheBreakpoints (toSDKSystemBlocks params.system, toSDKMessages params.messages)

/-! ### Marks -/

/-- The cache controls of a block's text and of its result. -/
def controls (b : ContentBlockParam) : List CacheControl :=
  b.ofText.toList.map TextBlockParam.cacheControl ++
    b.ofToolResult.toList.map ToolResultBlockParam.cacheControl

/-- The marks of a block. -/
def ownMarks (b : ContentBlockParam) : List CacheControl := (controls b).filter (· ≠ zero)

/-- The marks of a list of messages. -/
def marks (msgs : List MessageParam) : List CacheControl :=
  (msgs.flatMap MessageParam.content).flatMap ownMarks

/-- The same but for the cache controls of its text and its result. -/
structure SameBlock (b b' : ContentBlockParam) : Prop where
  text : b.ofText.map (TextBlockParam.mark zero) = b'.ofText.map (TextBlockParam.mark zero)
  result : b.ofToolResult.map (ToolResultBlockParam.mark zero) =
    b'.ofToolResult.map (ToolResultBlockParam.mark zero)
  use : b.ofToolUse = b'.ofToolUse

structure SameMessage (m m' : MessageParam) : Prop where
  role : m.role = m'.role
  content : List.Forall₂ SameBlock m.content m'.content

inductive Step where
  | append (m : MessageParam)
  | call

def apply (req : List TextBlockParam × List MessageParam) :
    Step → List TextBlockParam × List MessageParam
  | .append m => (req.1, req.2 ++ [m])
  | .call => setCacheBreakpoints req

def run (req : List TextBlockParam × List MessageParam) (steps : List Step) :
    List TextBlockParam × List MessageParam :=
  steps.foldl apply req

/-! ### One block -/

lemma ownMarks_clearBlock (b : ContentBlockParam) : ownMarks (clearBlock b) = [] := by
  obtain ⟨text, result, use⟩ := b
  cases text <;> cases result <;> rfl

lemma clearBlock_clearBlock (b : ContentBlockParam) : clearBlock (clearBlock b) = clearBlock b := by
  obtain ⟨text, result, use⟩ := b
  cases text <;> cases result <;> rfl

lemma clearBlock_markBlock (b : ContentBlockParam) : clearBlock (markBlock b) = clearBlock b := by
  obtain ⟨text, result, use⟩ := b
  cases text <;> cases result <;> rfl

/-- A text and a result can be marked, a tool call cannot. -/
def Markable (b : ContentBlockParam) : Prop := b.ofText ≠ none ∨ b.ofToolResult ≠ none

instance (b : ContentBlockParam) : Decidable (Markable b) :=
  inferInstanceAs (Decidable (_ ∨ _))

lemma ownMarks_markBlock (b : ContentBlockParam) :
    ownMarks (markBlock (clearBlock b)) =
      if Markable (markBlock (clearBlock b)) then [newCacheControlEphemeral] else [] := by
  obtain ⟨text, result, use⟩ := b
  cases text <;> cases result <;> rfl

lemma sameBlock_clearBlock (b : ContentBlockParam) : SameBlock b (clearBlock b) := by
  obtain ⟨text, result, use⟩ := b
  cases text <;> cases result <;> exact ⟨rfl, rfl, rfl⟩

lemma SameBlock.markBlock {b b' : ContentBlockParam} (h : SameBlock b b') :
    SameBlock b (markBlock b') := by
  obtain ⟨text, result, use⟩ := b'
  cases text <;> cases result <;> exact ⟨h.text, h.result, h.use⟩

/-! ### The last of a list -/

section

variable {α β : Type} {f : α → α}

lemma modify_concat (xs : List α) (x : α) : (xs ++ [x]).modify xs.length f = xs ++ [f x] := by
  induction xs with
  | nil => rfl
  | cons y xs ih => rw [List.cons_append, List.length_cons, List.modify_succ_cons, ih]; rfl

lemma getElem?_modify_last {xs : List α} {i : ℕ} {y : α}
    (h : (xs.modify (xs.length - 1) f)[i]? = some y) :
    ∃ x, xs[i]? = some x ∧ y = if i + 1 = xs.length then f x else x := by
  rw [List.getElem?_modify] at h
  cases hx : xs[i]? with
  | none => simp [hx] at h
  | some x =>
    have hi : i < xs.length := (List.getElem?_eq_some_iff.mp hx).1
    have hiff : xs.length - 1 = i ↔ i + 1 = xs.length := by omega
    simp only [hx, hiff] at h
    exact ⟨x, rfl, (Option.some.inj h).symm⟩

lemma map_modify_of_eq {g : α → β} (h : ∀ x, g (f x) = g x) (xs : List α) (i : ℕ) :
    (xs.modify i f).map g = xs.map g := by
  ext j
  rw [List.getElem?_map, List.getElem?_modify, List.getElem?_map]
  cases xs[j]? with
  | none => rfl
  | some x => by_cases hij : i = j <;> simp [hij, h]

lemma forall₂_modify {R : α → α → Prop} {xs ys : List α} (h : List.Forall₂ R xs ys) {i : ℕ}
    (hf : ∀ x y, R x y → R x (f y)) : List.Forall₂ R xs (ys.modify i f) := by
  induction h generalizing i with
  | nil => simp
  | cons hxy hrest ih =>
    cases i with
    | zero => exact .cons (hf _ _ hxy) hrest
    | succ i => exact .cons hxy ih

end

/-! ### A call -/

lemma markMessage_concat (r : Role) (bs : List ContentBlockParam) (b : ContentBlockParam) :
    markMessage ⟨r, bs ++ [b]⟩ = ⟨r, bs ++ [markBlock b]⟩ := by
  simp [markMessage, modify_concat]

lemma markLast_concat (ms : List MessageParam) (m : MessageParam) :
    markLast (ms ++ [m]) = ms ++ [markMessage m] := by
  simp [markLast, modify_concat]

lemma clear_markMessage (m : MessageParam) :
    (markMessage m).role = m.role ∧ (markMessage m).content.map clearBlock =
      m.content.map clearBlock := by
  unfold markMessage
  split
  · exact ⟨rfl, rfl⟩
  · exact ⟨rfl, map_modify_of_eq clearBlock_markBlock _ _⟩

lemma clear_markLast (msgs : List MessageParam) :
    clearMessageCacheBreakpoints (markLast msgs) = clearMessageCacheBreakpoints msgs := by
  unfold markLast clearMessageCacheBreakpoints
  split
  · rfl
  · refine map_modify_of_eq (fun m => ?_) _ _
    rw [(clear_markMessage m).1, (clear_markMessage m).2]

lemma clear_clear (msgs : List MessageParam) :
    clearMessageCacheBreakpoints (clearMessageCacheBreakpoints msgs) =
      clearMessageCacheBreakpoints msgs := by
  unfold clearMessageCacheBreakpoints
  simp [clearBlock_clearBlock]

lemma marks_append (xs ys : List MessageParam) : marks (xs ++ ys) = marks xs ++ marks ys := by
  simp only [marks, List.flatMap_append]

lemma flatMap_ownMarks_clear (bs : List ContentBlockParam) :
    (bs.map clearBlock).flatMap ownMarks = [] := by
  rw [List.flatMap_map]
  exact List.flatMap_eq_nil_iff.mpr fun b _ => ownMarks_clearBlock b

lemma marks_clear (msgs : List MessageParam) : marks (clearMessageCacheBreakpoints msgs) = [] := by
  unfold marks clearMessageCacheBreakpoints
  rw [List.flatMap_map, List.flatMap_assoc]
  exact List.flatMap_eq_nil_iff.mpr fun m _ => flatMap_ownMarks_clear m.content

lemma marks_markMessage (m : MessageParam) :
    (marks [markMessage { m with content := m.content.map clearBlock }]).length ≤ 1 := by
  obtain ⟨r, bs⟩ := m
  rcases List.eq_nil_or_concat bs with rfl | ⟨bs, b, rfl⟩
  · simp [marks, markMessage]
  · have hb : (ownMarks (markBlock (clearBlock b))).length ≤ 1 := by
      rw [ownMarks_markBlock]
      split <;> simp
    simpa [marks, markMessage_concat, flatMap_ownMarks_clear] using hb

/-- Whatever the marks before a call, there is at most one after it. -/
lemma marks_call (req : List TextBlockParam × List MessageParam) :
    (marks (setCacheBreakpoints req).2).length ≤ 1 := by
  obtain ⟨system, msgs⟩ := req
  rcases List.eq_nil_or_concat msgs with rfl | ⟨ms, m, rfl⟩
  · exact Nat.zero_le 1
  · have hclear : clearMessageCacheBreakpoints (ms ++ [m]) =
        clearMessageCacheBreakpoints ms ++ [{ m with content := m.content.map clearBlock }] := by
      simp [clearMessageCacheBreakpoints]
    simp only [setCacheBreakpoints, List.concat_eq_append, hclear]
    rw [markLast_concat, marks_append, marks_clear]
    exact marks_markMessage m

lemma sameMessage_markMessage {m m' : MessageParam} (h : SameMessage m m') :
    SameMessage m (markMessage m') := by
  unfold markMessage
  split
  · exact h
  · exact ⟨h.role, forall₂_modify h.content fun _ _ => SameBlock.markBlock⟩

lemma sameMessage_call (req : List TextBlockParam × List MessageParam) :
    List.Forall₂ SameMessage req.2 (setCacheBreakpoints req).2 := by
  have hclear : List.Forall₂ SameMessage req.2 (clearMessageCacheBreakpoints req.2) := by
    refine List.forall₂_map_right_iff.mpr (List.forall₂_same.mpr fun m _ => ⟨rfl, ?_⟩)
    exact List.forall₂_map_right_iff.mpr
      (List.forall₂_same.mpr fun b _ => sameBlock_clearBlock b)
  change List.Forall₂ SameMessage req.2 (markLast _)
  unfold markLast
  split
  · exact hclear
  · exact forall₂_modify hclear fun _ _ => sameMessage_markMessage

lemma markLast_eq (msgs : List MessageParam) :
    markLast msgs = msgs.modify (msgs.length - 1) markMessage := by
  unfold markLast
  split
  · rename_i h
    rw [List.length_eq_zero_iff.mp h]
    rfl
  · rfl

lemma markMessage_content (m : MessageParam) :
    (markMessage m).content = m.content.modify (m.content.length - 1) markBlock := by
  unfold markMessage
  split
  · rename_i h
    rw [List.length_eq_zero_iff.mp h]
    rfl
  · rfl

/-- A block is marked if it is the last of the last message, and can be. -/
lemma ownMarks_call {req : List TextBlockParam × List MessageParam} {i j : ℕ} {m : MessageParam}
    {b : ContentBlockParam} (hm : (setCacheBreakpoints req).2[i]? = some m)
    (hb : m.content[j]? = some b) :
    ownMarks b = if i + 1 = req.2.length ∧ j + 1 = m.content.length ∧ Markable b
      then [newCacheControlEphemeral] else [] := by
  change (markLast (clearMessageCacheBreakpoints req.2))[i]? = some m at hm
  rw [markLast_eq] at hm
  obtain ⟨m', hm', rfl⟩ := getElem?_modify_last hm
  simp only [clearMessageCacheBreakpoints, List.getElem?_map, Option.map_eq_some_iff] at hm'
  obtain ⟨m₀, -, rfl⟩ := hm'
  rw [clearMessageCacheBreakpoints, List.length_map] at hb ⊢
  by_cases hlast : i + 1 = req.2.length
  · rw [if_pos hlast] at hb ⊢
    rw [markMessage_content] at hb ⊢
    obtain ⟨b', hb', rfl⟩ := getElem?_modify_last hb
    simp only [List.getElem?_map, Option.map_eq_some_iff] at hb'
    obtain ⟨b₀, -, rfl⟩ := hb'
    rw [List.length_modify]
    by_cases hend : j + 1 = (m₀.content.map clearBlock).length
    · simp only [hlast, hend, true_and, if_true]
      exact ownMarks_markBlock b₀
    · simp only [hend, false_and, and_false, if_false]
      exact ownMarks_clearBlock b₀
  · rw [if_neg hlast] at hb
    simp only [List.getElem?_map, Option.map_eq_some_iff] at hb
    obtain ⟨b₀, -, rfl⟩ := hb
    simp only [hlast, false_and, if_false]
    exact ownMarks_clearBlock b₀

/-! ### A run -/

lemma marks_run {steps : List Step} {req : List TextBlockParam × List MessageParam}
    (happ : ∀ m, .append m ∈ steps → marks [m] = [])
    (hreq : (marks req.2).length ≤ 1 ∨ .call ∈ steps) :
    (marks (run req steps).2).length ≤ 1 := by
  induction steps generalizing req with
  | nil =>
    rcases hreq with h | h
    · exact h
    · cases h
  | cons step steps ih =>
    have hrest : ∀ m, .append m ∈ steps → marks [m] = [] :=
      fun m hm => happ m (List.mem_cons_of_mem _ hm)
    refine ih hrest ?_
    cases step with
    | call => exact .inl (marks_call req)
    | append m =>
      rcases hreq with h | h
      · left
        change (marks (req.2 ++ [m])).length ≤ 1
        rw [marks_append, happ m (by simp), List.append_nil]
        exact h
      · right
        simpa using h

lemma marks_toSDKMessages (msgs : List Message) : marks (toSDKMessages msgs) = [] := by
  unfold marks toSDKMessages
  rw [List.flatMap_map, List.flatMap_assoc]
  refine List.flatMap_eq_nil_iff.mpr fun m _ => ?_
  rw [List.flatMap_map]
  refine List.flatMap_eq_nil_iff.mpr fun b _ => ?_
  unfold toSDKBlock
  cases b.type <;> rfl

lemma systemMarks_le (blocks : List SystemBlock) :
    ((markSystem (toSDKSystemBlocks blocks)).filter (·.cacheControl ≠ zero)).length ≤ 1 := by
  cases blocks with
  | nil => exact Nat.zero_le 1
  | cons b blocks =>
    have hrest : (toSDKSystemBlocks blocks).filter (·.cacheControl ≠ zero) = [] := by
      simp [toSDKSystemBlocks, zero]
    have hmark : markSystem (toSDKSystemBlocks (b :: blocks)) =
        ⟨b.text, newCacheControlEphemeral⟩ :: toSDKSystemBlocks blocks := rfl
    rw [hmark, List.filter_cons, hrest]
    split <;> simp

/-- A request has at most two marks. -/
theorem request_marks (params : RunParams) :
    ((request params).1.filter (·.cacheControl ≠ zero)).length +
      (marks (request params).2).length ≤ 2 :=
  Nat.add_le_add (systemMarks_le params.system) (marks_call _)

/-- **Cache breakpoints**: the first system block and the last block of all, whatever was marked
before, and never more than one mark on the messages. -/
theorem setCacheBreakpoints_marks (req : List TextBlockParam × List MessageParam) :
    (req.1 = [] → (setCacheBreakpoints req).1 = []) ∧
    (∀ s system, req.1 = s :: system →
      (setCacheBreakpoints req).1 = s.mark newCacheControlEphemeral :: system) ∧
    (∀ i j m b, (setCacheBreakpoints req).2[i]? = some m → m.content[j]? = some b →
      ownMarks b = if i + 1 = req.2.length ∧ j + 1 = m.content.length ∧ Markable b
        then [newCacheControlEphemeral] else []) ∧
    List.Forall₂ SameMessage req.2 (setCacheBreakpoints req).2 ∧
    setCacheBreakpoints (setCacheBreakpoints req) = setCacheBreakpoints req ∧
    (∀ steps, (marks (run req (steps ++ [.call])).2).length ≤ 1) ∧
    (∀ steps, (∀ m, .append m ∈ steps → marks [m] = []) →
      (marks req.2).length ≤ 1 ∨ .call ∈ steps → (marks (run req steps).2).length ≤ 1) ∧
    ∀ msgs, marks (toSDKMessages msgs) = [] := by
  refine ⟨?_, ?_, fun _ _ _ _ => ownMarks_call, sameMessage_call req, ?_, ?_,
    fun _ => marks_run, marks_toSDKMessages⟩
  · intro hsys
    simp only [setCacheBreakpoints, hsys, markSystem]
  · intro s system hsys
    simp only [setCacheBreakpoints, hsys, markSystem]
  · have hsystem : markSystem (markSystem req.1) = markSystem req.1 := by
      cases req.1 <;> rfl
    simp only [setCacheBreakpoints, hsystem, clear_markLast, clear_clear]
  · intro steps
    rw [run, List.foldl_append]
    exact marks_call _

end Veckomenyn.Breakpoints
