import Veckomenyn.Atomic
import Veckomenyn.Frames

/-!
The tools of the agent when statements fail.

A call that is answered with an error has changed no row, whichever of its statements fail, BEGIN
and COMMIT included; a call over the menu that is answered with success has done all it does. So
what a series of such calls does to the plans are the calls that were reported as successes: an
agent that repeats a call until it succeeds has made it once. The session of the shop is kept in a
table of its own, which is the shop's here.
-/

namespace Veckomenyn.AllOrNothing

open Rows Schema Sql Store Txn WkCtx Tools CartTools ReadTools Agent

variable {α β : Type}

/-! ### Checks and writes -/

/-- What only reads in the database, and stops at a failure. -/
structure Guard (x : ShopProg α) : Prop where
  quiet : x.Quiet
  fragile : x.Fragile
  alone : x.Alone

/-- What leaves nothing behind in the database when it fails, and does all of it when it
succeeds. -/
structure Whole (x : ShopProg α) : Prop where
  strict : x.Strict
  fragile : x.Fragile
  alone : x.Alone

lemma guard_pure (a : α) : Guard (pure a) := ⟨trivial, trivial, trivial⟩

lemma guard_fail (e : ToolError) : Guard (Prog.fail e : ShopProg α) := ⟨trivial, trivial, trivial⟩

lemma Guard.bind {x : ShopProg α} {f : α → ShopProg β} (hx : Guard x) (hf : ∀ a, Guard (f a)) :
    Guard (x >>= f) :=
  ⟨hx.quiet.bind fun a => (hf a).quiet, hx.fragile.bind fun a => (hf a).fragile,
    hx.alone.bind fun a => (hf a).alone⟩

lemma Guard.whole {x : ShopProg α} (hx : Guard x) : Whole x :=
  ⟨hx.quiet.strict, hx.fragile, hx.alone⟩

lemma Guard.bind_whole {x : ShopProg α} {f : α → ShopProg β} (hx : Guard x)
    (hf : ∀ a, Whole (f a)) : Whole (x >>= f) :=
  ⟨hx.quiet.bind_strict fun a => (hf a).strict, hx.fragile.bind fun a => (hf a).fragile,
    hx.alone.bind fun a => (hf a).alone⟩

/-- What is answered after a write. -/
lemma Whole.bind_answer {x : ShopProg α} {f : α → ShopProg β} (hx : Whole x)
    (hf : ∀ a, ∃ b, f a = pure b) : Whole (x >>= f) := by
  refine ⟨hx.strict.bind_sure fun a => ?_, hx.fragile.bind fun a => ?_, hx.alone.bind fun a => ?_⟩
  all_goals obtain ⟨b, hb⟩ := hf a
  all_goals rw [hb]
  · exact Prog.sure_pure b
  · trivial
  · trivial

lemma Whole.bind_pure {x : ShopProg α} (hx : Whole x) (g : α → β) :
    Whole (x >>= fun a => pure (g a)) := hx.bind_answer fun a => ⟨g a, rfl⟩

lemma whole_query (s : Stmt α) : Whole (Prog.query s ToolError.db : ShopProg α) :=
  ⟨Prog.strict_query s _, Prog.fragile_query s _, Prog.alone_query s _⟩

lemma whole_transaction (body : Tx ToolError α) : Whole (Prog.transaction body : ShopProg α) :=
  ⟨Prog.strict_transaction body, Prog.fragile_transaction body, Prog.alone_transaction body⟩

lemma guard_read {s : Stmt α} (h : Prog.ReadOnly s) :
    Guard (Prog.query s ToolError.db : ShopProg α) :=
  ⟨⟨h, fun r => by cases r <;> trivial⟩, Prog.fragile_query _ _, Prog.alone_query _ _⟩

lemma guard_select (l : Label) (f : Db → β) :
    Guard (Prog.query (select l f) ToolError.db : ShopProg β) :=
  guard_read fun _ _ _ h => by
    cases h
    rfl

lemma guard_queryRow (l : Label) (f : Db → Option β) :
    Guard (queryRow (select l f) : ShopProg β) := by
  refine (guard_select l f).bind fun o => ?_
  cases o with
  | none => exact guard_fail _
  | some b => exact guard_pure b

lemma guard_unmarshal (input : Option α) : Guard (unmarshal input : ShopProg α) := by
  cases input with
  | none => exact guard_fail _
  | some i => exact guard_pure i

lemma guard_orFail (r : Except ToolError α) : Guard (orFail r : ShopProg α) := by
  cases r with
  | error e => exact guard_fail e
  | ok a => exact guard_pure a

variable {ctx : Ctx}

lemma guard_ensureEditable (id : ℤ) : Guard (ensureEditable id : ShopProg Unit) := by
  refine (guard_queryRow .weekStatus _).bind fun status => ?_
  split_ifs
  · exact guard_fail _
  · exact guard_pure _

lemma guard_ensureDinnerEditable (id : ℤ) :
    Guard (ensureDinnerEditable ctx id : ShopProg Unit) := by
  refine Guard.bind ?_ fun _ => (guard_queryRow .dinnerWeek _).bind guard_ensureEditable
  rw [checkDinnerInScope]
  split_ifs
  · exact guard_pure _
  · refine (guard_queryRow .dinnerWeek _).bind fun weekId => ?_
    split_ifs
    · exact guard_fail _
    · exact guard_pure _

lemma guard_ensureExceptionEditable (id : ℤ) :
    Guard (ensureExceptionEditable ctx id : ShopProg Unit) := by
  refine (guard_queryRow .exceptionWeek _).bind fun weekId => ?_
  split_ifs
  · exact guard_fail _
  · exact guard_ensureEditable weekId

/-! ### The tools over the menu -/

section

variable (pg : Pg) (now : ℤ)

lemma whole_updatePreferenceTool (input : Option PreferenceInput) :
    Whole (updatePreferenceTool input) :=
  (guard_unmarshal input).bind_whole fun _ => (whole_transaction _).bind_pure _

lemma whole_updateHouseholdSettingsTool (input : Option SettingsInput) :
    Whole (updateHouseholdSettingsTool input) := by
  refine (guard_unmarshal input).bind_whole fun i => Whole.bind_pure ?_ _
  rw [updateHouseholdSettings]
  split_ifs
  · exact (guard_pure _).whole
  · exact whole_query _

lemma whole_createWeekTool (input : Option CreateWeekInput) :
    Whole (createWeekTool pg now input) :=
  (guard_unmarshal input).bind_whole fun _ => (whole_query _).bind_pure _

lemma whole_updateWeekTool (input : Option UpdateWeekInput) :
    Whole (updateWeekTool pg now ctx input) := by
  refine (guard_unmarshal input).bind_whole fun i => Guard.bind_whole ?_ fun o => ?_
  · rw [lookUpWeek]
    split_ifs
    · exact guard_select .weekByIso _
    · exact guard_pure _
  · cases o with
    | none => exact (guard_pure _).whole
    | some k =>
      refine (guard_orFail _).bind_whole fun id => Whole.bind_answer ?_ fun n => ?_
      · rw [updateWeek]
        split_ifs
        · exact (guard_pure _).whole
        · exact whole_query _
      · split_ifs <;> exact ⟨_, rfl⟩

lemma whole_addDinnerTool (quote : String → String) (input : Option AddDinnerInput) :
    Whole (addDinnerTool pg quote ctx input) :=
  (guard_unmarshal input).bind_whole fun _ => (guard_orFail _).bind_whole fun weekId =>
    (guard_ensureEditable weekId).bind_whole fun _ => (whole_transaction _).bind_pure _

lemma whole_updateDinnerTool (input : Option UpdateDinnerInput) :
    Whole (updateDinnerTool pg ctx input) :=
  (guard_unmarshal input).bind_whole fun i => (guard_ensureDinnerEditable i.dinnerId).bind_whole
    fun _ => (whole_transaction _).bind_pure _

lemma whole_deleteDinnerTool (input : Option ℤ) : Whole (deleteDinnerTool ctx input) := by
  refine (guard_unmarshal input).bind_whole fun id => ?_
  refine (guard_ensureDinnerEditable id).bind_whole fun _ => (whole_query _).bind_answer fun n => ?_
  split_ifs <;> exact ⟨_, rfl⟩

lemma whole_addExceptionTool (input : Option AddExceptionInput) :
    Whole (addExceptionTool ctx input) :=
  (guard_unmarshal input).bind_whole fun _ => (guard_orFail _).bind_whole fun weekId =>
    (guard_ensureEditable weekId).bind_whole fun _ => (whole_query _).bind_pure _

lemma whole_updateExceptionTool (input : Option UpdateExceptionInput) :
    Whole (updateExceptionTool ctx input) := by
  refine (guard_unmarshal input).bind_whole fun i => ?_
  split_ifs
  · exact (guard_fail _).whole
  · exact (guard_ensureExceptionEditable i.exceptionId).bind_whole fun _ =>
      (whole_query _).bind_pure _

lemma whole_deleteExceptionTool (input : Option ℤ) : Whole (deleteExceptionTool ctx input) :=
  (guard_unmarshal input).bind_whole fun id => (guard_ensureExceptionEditable id).bind_whole
    fun _ => (whole_query _).bind_pure _

lemma whole_recordRetrospectiveTool (input : Option RetrospectiveInput) :
    Whole (recordRetrospectiveTool now ctx input) :=
  (guard_unmarshal input).bind_whole fun _ => (guard_orFail _).bind_whole fun _ =>
    (whole_transaction _).bind_pure _

end

/-! ### The tools over the shop -/

lemma quiet_ask {r : ShopProg (Except String α)} (h : r.Quiet) : (ask r).Quiet := by
  refine h.bind fun a => ?_
  cases a with
  | error e => trivial
  | ok a => trivial

lemma quiet_request (q : Call) : (Prog.request q : ShopProg (Answer q)).Quiet := fun _ => trivial

lemma sure_mirror (s : Stmt Unit) (what : String) : (mirror s what).Sure := by
  refine (Prog.sure_tried s).bind fun r => ?_
  cases r with
  | ok _ => exact Prog.sure_pure _
  | error _ => exact Prog.sure_request _

lemma sure_inPlan {x : ShopProg Unit} (h : x.Sure) : (inPlan ctx x).Sure := by
  rw [inPlan]
  split_ifs
  · exact h
  · exact Prog.sure_pure _

lemma quiet_addAll (items : List CartAddInput) : (addAll items).Quiet := by
  induction items with
  | nil => trivial
  | cons i is ih =>
    refine Prog.Quiet.bind (fun _ => trivial) fun r => ih.bind fun rest => ?_
    cases r with
    | ok _ => trivial
    | error e => trivial

lemma sure_recordAll (now weekId : ℤ) (cart : Cart) (items : List CartAddInput) :
    (recordAll now weekId cart items).Sure := by
  induction items with
  | nil => exact Prog.sure_pure _
  | cons i is ih => exact (sure_mirror _ _).bind fun _ => ih

lemma strict_shopCartAddTool (now : ℤ) (input : Option CartAddInput) :
    (shopCartAddTool now ctx input).Strict :=
  (guard_unmarshal input).quiet.bind_strict fun _ =>
    (quiet_ask (quiet_request (.cartAdd _ _))).bind_strict fun _ =>
      ((sure_inPlan (sure_mirror _ _)).bind fun _ => Prog.sure_pure _).strict

lemma strict_shopCartAddManyTool (now : ℤ) (input : Option (List CartAddInput)) :
    (shopCartAddManyTool now ctx input).Strict :=
  (guard_unmarshal input).quiet.bind_strict fun items => (quiet_addAll items).bind_strict fun _ =>
    (quiet_ask (quiet_request .cartGet)).bind_strict fun _ =>
      ((sure_inPlan (sure_recordAll _ _ _ _)).bind fun _ => Prog.sure_pure _).strict

lemma strict_shopCartRemoveTool (input : Option String) :
    (shopCartRemoveTool ctx input).Strict :=
  (guard_unmarshal input).quiet.bind_strict fun _ =>
    (quiet_ask (quiet_request (.cartRemove _))).bind_strict fun _ =>
      ((sure_inPlan (sure_mirror _ _)).bind fun _ => Prog.sure_pure _).strict

lemma strict_shopCartClearTool : (shopCartClearTool ctx).Strict :=
  (quiet_ask (quiet_request .cartClear)).bind_strict fun _ =>
    ((sure_inPlan (sure_mirror _ _)).bind fun _ => Prog.sure_pure _).strict

/-! ### The tools that read -/

section

variable (L : TextRules)

lemma readOnly_dishesRecent (today n weekId : ℤ) : Prog.ReadOnly (dishesRecent today n weekId) := by
  intro d ws b h
  obtain ⟨_, -, h⟩ := exists_of_bind h
  obtain ⟨_, -, h⟩ := exists_of_bind h
  split_ifs at h
  cases h
  rfl

lemma guard_answer (c : Prop) [Decidable c] (a b : String) :
    Guard (if c then pure a else pure b : ShopProg String) := by
  split_ifs
  · exact guard_pure a
  · exact guard_pure b

lemma guard_readPreferencesTool : Guard (readPreferencesTool L : ShopProg String) :=
  (guard_select .read _).bind fun _ => guard_answer _ _ _

lemma guard_listDishesRecentTool (today weeks : ℤ) :
    Guard (listDishesRecentTool today ctx weeks : ShopProg String) :=
  (guard_read (readOnly_dishesRecent _ _ _)).bind fun _ => guard_answer _ _ _

lemma guard_readIf (c : Prop) [Decidable c] (l : Label) (f : Db → List String) :
    Guard (readIf c (select l f) : ShopProg (List String)) := by
  rw [readIf]
  split_ifs
  · exact guard_select l f
  · exact guard_pure _

lemma guard_searchHistoryTool (input : Option SearchHistoryInput) :
    Guard (searchHistoryTool L ctx input : ShopProg String) := by
  refine (guard_unmarshal input).bind fun i => ?_
  split_ifs
  · exact guard_fail _
  · exact (guard_readIf _ .read _).bind fun _ => (guard_readIf _ .read _).bind fun _ =>
      guard_answer _ _ _

lemma guard_listWeeksTool (limit : ℤ) : Guard (listWeeksTool limit : ShopProg String) :=
  (guard_select .read _).bind fun _ => guard_answer _ _ _

lemma guard_getWeekTool (i : GetWeekInput) : Guard (getWeekTool L ctx i : ShopProg String) := by
  refine Guard.bind ?_ fun o => ?_
  · rw [getWeekRow]
    split_ifs
    · exact guard_select .read _
    · exact guard_select .read _
    · exact guard_select .read _
    · exact guard_fail _
  · cases o with
    | none => exact guard_pure _
    | some w =>
      exact (guard_select .read _).bind fun _ => (guard_select .read _).bind fun _ =>
        (guard_select .read _).bind fun _ => (guard_select .read _).bind fun _ => guard_pure _

lemma quiet_answer (c : Prop) [Decidable c] (a b : String) :
    (if c then pure a else pure b : ShopProg String).Quiet := (guard_answer c a b).quiet

lemma strict_shopping (S : Setup) (name : String) {tool : ShopProg String} (h : tool.Strict) :
    (S.shopping name tool).Strict := by
  rw [Setup.shopping]
  split_ifs
  · exact h
  · trivial

end

/-! ### Every call -/

/-- The call is of a tool that writes to the plans, the preferences or the settings. -/
def OverMenu : ToolCall → Prop
  | .updatePreference _ | .updateHouseholdSettings _ | .createWeek _ | .updateWeek _ => True
  | .addDinner _ | .updateDinner _ | .deleteDinner _ => True
  | .addException _ | .updateException _ | .deleteException _ => True
  | .recordRetrospective _ => True
  | _ => False

variable (S : Setup) (t : Turn)

lemma whole_callTool (h : OverMenu t.call) : Whole (callTool S t) := by
  unfold callTool
  cases hcall : t.call with
  | updatePreference i => exact whole_updatePreferenceTool i
  | updateHouseholdSettings i => exact whole_updateHouseholdSettingsTool i
  | createWeek i => exact whole_createWeekTool S.pg t.now i
  | updateWeek i => exact whole_updateWeekTool S.pg t.now i
  | addDinner i => exact whole_addDinnerTool S.pg S.rules.json i
  | updateDinner i => exact whole_updateDinnerTool S.pg i
  | deleteDinner i => exact whole_deleteDinnerTool i
  | addException i => exact whole_addExceptionTool i
  | updateException i => exact whole_updateExceptionTool i
  | deleteException i => exact whole_deleteExceptionTool i
  | recordRetrospective i => exact whole_recordRetrospectiveTool t.now i
  | _ =>
    rw [hcall] at h
    exact h.elim

lemma strict_callTool : (callTool S t).Strict := by
  by_cases h : OverMenu t.call
  · exact (whole_callTool S t h).strict
  · unfold callTool
    cases hcall : t.call with
    | readPreferences => exact (guard_readPreferencesTool S.rules).quiet.strict
    | readHouseholdSettings =>
      exact ((guard_select .read _).bind fun _ => guard_pure _).quiet.strict
    | listDishesRecent weeks => exact (guard_listDishesRecentTool t.today weeks).quiet.strict
    | searchHistory i => exact (guard_searchHistoryTool S.rules i).quiet.strict
    | listWeeks limit => exact (guard_listWeeksTool limit).quiet.strict
    | getWeek i => exact (guard_getWeekTool S.rules i).quiet.strict
    | shopSearch i =>
      exact strict_shopping S _ ((guard_unmarshal i).quiet.bind fun _ =>
        (quiet_ask (quiet_request (.search _ _))).bind fun _ => quiet_answer _ _ _).strict
    | shopCartGet =>
      exact strict_shopping S _ ((quiet_ask (quiet_request .cartGet)).bind fun _ =>
        (guard_pure _).quiet).strict
    | shopCartAdd i => exact strict_shopping S _ (strict_shopCartAddTool t.now i)
    | shopCartAddMany i => exact strict_shopping S _ (strict_shopCartAddManyTool t.now i)
    | shopCartRemove i => exact strict_shopping S _ (strict_shopCartRemoveTool i)
    | shopCartClear => exact strict_shopping S _ strict_shopCartClearTool
    | shopOrdersRecent limit =>
      exact strict_shopping S _ ((quiet_ask (quiet_request (.ordersRecent _))).bind fun _ =>
        quiet_answer _ _ _).strict
    | shopOrderDetail i =>
      exact strict_shopping S _ ((guard_unmarshal i).quiet.bind fun _ =>
        (quiet_ask (quiet_request (.orderDetail _))).bind fun _ => (guard_pure _).quiet).strict
    | unknown name => trivial
    | _ =>
      rw [hcall] at h
      exact absurd trivial h

/-! ### Series of calls -/

variable {σ : Type} (lost : DbError → ToolError) (ans : (q : Call) → σ → Answer q × σ)

/-- What a call answers and leaves when the statements `f` numbers fail. -/
def attempt (c : Db × σ) (t : Turn) (f : ℕ → Option DbError) :
    Except ToolError String × Db × σ :=
  let r := (callTool S t).runWith f lost ans 0 c
  (r.1.1, r.2)

def attempts (c : Db × σ) (ts : List (Turn × (ℕ → Option DbError))) : Db × σ :=
  ts.foldl (fun c x => (attempt S lost ans c x.1 x.2).2) c

/-- The calls that are answered with success. -/
def reported (c : Db × σ) : List (Turn × (ℕ → Option DbError)) → List Turn
  | [] => []
  | (t, f) :: ts =>
    let rest := reported (attempt S lost ans c t f).2 ts
    if (attempt S lost ans c t f).1.isOk then t :: rest else rest

/-- The calls are made one after the other, each as it is alone; in between identities may be
drawn. -/
inductive Did : List Turn → Db × σ → Db × σ → Prop
  | refl (c : Db × σ) : Did [] c c
  | drawn {ts : List Turn} {c v c' : Db × σ} : SameRows c.1 v.1 → v.2 = c.2 → Did ts v c' →
      Did ts c c'
  | call {t : Turn} {ts : List Turn} {c c' : Db × σ} : Did ts (turn S ans c t) c' →
      Did (t :: ts) c c'

/-- **An error means nothing has happened**, whichever tool is called and whichever of its
statements fail; over the menu, success means that all of it has. -/
theorem all_or_nothing (c : Db × σ) (t : Turn) (f : ℕ → Option DbError) :
    (∀ e, (attempt S lost ans c t f).1 = .error e → SameRows c.1 (attempt S lost ans c t f).2.1) ∧
      (OverMenu t.call → ∀ a, (attempt S lost ans c t f).1 = .ok a →
        (attempt S lost ans c t f).2 = turn S ans c t) := by
  constructor
  · intro e he
    exact (strict_callTool S t).runWith_error SameRows.refl SameRows.trans sameRows_reserveAll he
  · intro h a ha
    rcases hrun : (callTool S t).runWith f lost ans 0 c with ⟨⟨r, m⟩, c'⟩
    have hr : r = .ok a := by
      rw [attempt, hrun] at ha
      exact ha
    rw [hr] at hrun
    have halone := (whole_callTool S t h).fragile.runWith_ok hrun
    rw [attempt, hrun, turn, halone]

/-- **A series of calls is its successes**: whichever statements fail, the database goes through the
calls that are reported as successes, each as it is alone, and through nothing else. -/
theorem did_reported (ts : List (Turn × (ℕ → Option DbError)))
    (hmenu : ∀ x ∈ ts, OverMenu x.1.call) (c : Db × σ) :
    Did S ans (reported S lost ans c ts) c (attempts S lost ans c ts) := by
  induction ts generalizing c with
  | nil => exact Did.refl c
  | cons x ts ih =>
    obtain ⟨t, f⟩ := x
    have hmenu' := ih (fun x hx => hmenu x (List.mem_cons_of_mem _ hx)) (attempt S lost ans c t f).2
    obtain ⟨herror, hok⟩ := all_or_nothing S lost ans c t f
    unfold reported
    rcases hr : (attempt S lost ans c t f).1 with e | a
    · -- the call is answered with an error
      have halone : (attempt S lost ans c t f).2.2 = c.2 :=
        (whole_callTool S t (hmenu _ List.mem_cons_self)).alone.runWith 0 c
      exact Did.drawn (herror e hr) halone hmenu'
    · have hturn := hok (hmenu _ List.mem_cons_self) a hr
      refine Did.call ?_
      rw [← hturn]
      exact hmenu'

/-- A dinner is added; the COMMIT of the first try fails. -/
def retried : List (Turn × (ℕ → Option DbError)) :=
  let t : Turn := ⟨⟨2⟩, 1, 0, .addDinner (some ⟨0, "2026-04-27", "Stew", "", "", 0, none, "", []⟩)⟩
  [(t, fun n => if n = 4 then some (.badDate "") else none), (t, fun _ => none)]

theorem did_reported_retried :
    (reported Frames.noShop ToolError.db Frames.noAnswers (Frames.twoPlans, ()) retried).length =
      1 ∧
      Did Frames.noShop Frames.noAnswers
        (reported Frames.noShop ToolError.db Frames.noAnswers (Frames.twoPlans, ()) retried)
        (Frames.twoPlans, ())
        (attempts Frames.noShop ToolError.db Frames.noAnswers (Frames.twoPlans, ()) retried) :=
  ⟨by decide, did_reported Frames.noShop ToolError.db Frames.noAnswers retried
    (by simp [retried, OverMenu]) (Frames.twoPlans, ())⟩

end Veckomenyn.AllOrNothing
