import Veckomenyn.Agent
import Veckomenyn.Frames
import Veckomenyn.Wp

/-!
A chat of one plan and the rows of another.

The tools that write go by a guard before they touch a row: a call whose input designates a
row of another plan fails with a text about ids alone. `get_week` has no guard, and shows
the plan it is asked for.
-/

namespace Veckomenyn.Refusals

open Rows Schema Sql Store Txn WkCtx Tools CartTools ReadTools Agent

/-! ### The rows an input designates -/

def dinnerPlan (d : Db) (k : ℤ) : Option ℤ := (d.dinners.find? k).map Dinner.weekId

def exceptionPlan (d : Db) (k : ℤ) : Option ℤ := (d.exceptions.find? k).map WeekException.weekId

/-- The call is one of the tools the prompt calls week-scoped, and its input designates a row of the
plan `V`, by the field the tool looks the row up by. -/
def Designates (d : Db) (V : ℤ) : ToolCall → Prop
  | .addDinner (some i) => i.weekId = V ∧ d.weeks.Has V
  | .updateWeek (some i) =>
    if i.weekId = 0 ∧ i.isoWeek ≠ "" then latestWith i.isoWeek d = some V
    else i.weekId = V ∧ d.weeks.Has V
  | .updateDinner (some i) => dinnerPlan d i.dinnerId = some V
  | .deleteDinner (some k) => dinnerPlan d k = some V
  | .addException (some i) => i.weekId = V ∧ d.weeks.Has V
  | .updateException (some i) => exceptionPlan d i.exceptionId = some V
  | .deleteException (some k) => exceptionPlan d k = some V
  | .recordRetrospective (some i) =>
    i.weekId = V ∧ d.weeks.Has V ∨ ∃ r ∈ i.ratings, dinnerPlan d r.dinnerId = some V
  | .getWeek i =>
    if 0 < i.id then i.id = V ∧ d.weeks.Has V
    else i.isoWeek ≠ "" ∧ latestWith i.isoWeek d = some V
  | _ => False

/-- The ids of dinners in an input. -/
def namedDinners : ToolCall → List ℤ
  | .updateDinner (some i) => [i.dinnerId]
  | .deleteDinner (some k) => [k]
  | .recordRetrospective (some i) => i.ratings.map RatingInput.dinnerId
  | _ => []

def namedExceptions : ToolCall → List ℤ
  | .updateException (some i) => [i.exceptionId]
  | .deleteException (some k) => [k]
  | _ => []

/-! ### What may differ -/

def withoutNotes (V : ℤ) (w : Week) : Week := if w.id = V then { w with notesMd := "" } else w

/-- The databases differ at most in the dinners, notes, exceptions, retrospectives and cart of the
plan `V`, and in dishes; the ids in the input are rows of `V` in both or in neither. -/
structure Alike (V : ℤ) (c : ToolCall) (d d' : Db) : Prop where
  weeks : d'.weeks.rows.map (withoutNotes V) = d.weeks.rows.map (withoutNotes V)
  dinners : d'.dinners.rows.filter (fun r => r.weekId ≠ V) =
    d.dinners.rows.filter fun r => r.weekId ≠ V
  exceptions : d'.exceptions.rows.filter (fun r => r.weekId ≠ V) =
    d.exceptions.rows.filter fun r => r.weekId ≠ V
  retrospectives : d'.retrospectives.rows.filter (fun r => r.weekId ≠ V) =
    d.retrospectives.rows.filter fun r => r.weekId ≠ V
  cartItems : d'.cartItems.rows.filter (fun r => r.weekId ≠ some V) =
    d.cartItems.rows.filter fun r => r.weekId ≠ some V
  ratings : ∀ r, dinnerPlan d r.weekDinnerId ≠ some V → dinnerPlan d' r.weekDinnerId ≠ some V →
    (r ∈ d'.ratings.rows ↔ r ∈ d.ratings.rows)
  principles : d'.principles.rows = d.principles.rows
  settings : d'.settings = d.settings
  namedDinners : ∀ k ∈ namedDinners c, dinnerPlan d' k = some V ↔ dinnerPlan d k = some V
  namedExceptions : ∀ k ∈ namedExceptions c, exceptionPlan d' k = some V ↔ exceptionPlan d k = some V

lemma Alike.refl (V : ℤ) (c : ToolCall) (d : Db) : Alike V c d d :=
  ⟨rfl, rfl, rfl, rfl, rfl, fun _ _ _ => Iff.rfl, rfl, rfl, fun _ _ => Iff.rfl, fun _ _ => Iff.rfl⟩

/-- The program ends with the error `e`, whatever the outside world answers, and leaves every row as
it was. -/
def Fails (x : ShopProg String) (d : Db) (e : ToolError) : Prop :=
  ∀ (σ : Type) (ans : (q : Call) → σ → Answer q × σ) (s : σ), ∃ v s',
    x.run ans (d, s) = (.error e, v, s') ∧ SameRows d v

/-- The call fails, with a text and a database in which nothing of the plan `V` shows. -/
def Refused (S : Setup) (t : Turn) (V : ℤ) (d : Db) : Prop :=
  ∀ d', Alike V t.call d d' → ∃ e, Fails (callTool S t) d e ∧ Fails (callTool S t) d' e

def ToolCall.isGetWeek : ToolCall → Bool
  | .getWeek _ => true
  | _ => false

variable {V : ℤ} {c : ToolCall} {d d' : Db} {e : ToolError}

/-! ### Rows of the two databases -/

lemma dinnerPlan_eq_some {k U : ℤ} :
    dinnerPlan d k = some U ↔ ∃ r ∈ d.dinners.rows, r.id = k ∧ r.weekId = U := by
  rw [dinnerPlan, Option.map_eq_some_iff]
  refine exists_congr fun r => ?_
  rw [Table.find?_eq_some, and_assoc]
  rfl

/-- A dinner the input names belongs to the same plan. -/
lemma Alike.dinnerPlan (h : Alike V c d d') {k : ℤ} (hk : k ∈ Refusals.namedDinners c) :
    Refusals.dinnerPlan d' k = Refusals.dinnerPlan d k := by
  have hmem {U : ℤ} (hU : U ≠ V) (r : Dinner) (hr : r.weekId = U) :
      r ∈ d'.dinners.rows ↔ r ∈ d.dinners.rows := by
    have := Iff.of_eq (congrArg (r ∈ ·) h.dinners)
    simpa [hr, hU] using this
  refine Option.ext fun U => ?_
  by_cases hU : U = V
  · subst hU
    exact h.namedDinners k hk
  · rw [dinnerPlan_eq_some, dinnerPlan_eq_some]
    refine exists_congr fun r => ?_
    constructor
    · rintro ⟨hr, hid, hw⟩
      exact ⟨(hmem hU r hw).mp hr, hid, hw⟩
    · rintro ⟨hr, hid, hw⟩
      exact ⟨(hmem hU r hw).mpr hr, hid, hw⟩

lemma withoutNotes_id (w : Week) : (withoutNotes V w).id = w.id := by
  unfold withoutNotes
  split_ifs <;> rfl

lemma withoutNotes_isoWeek (w : Week) : (withoutNotes V w).isoWeek = w.isoWeek := by
  unfold withoutNotes
  split_ifs <;> rfl

lemma withoutNotes_updatedAt (w : Week) : (withoutNotes V w).updatedAt = w.updatedAt := by
  unfold withoutNotes
  split_ifs <;> rfl

/-- Which plan a label names does not depend on notes. -/
lemma latestWith_eq (isoWeek : String) (d : Db) : latestWith isoWeek d =
    ((((d.weeks.rows.map (withoutNotes V)).filter fun w => w.isoWeek = isoWeek).insertionSort
      fun a b => b.updatedAt ≤ a.updatedAt).head?).map Week.id := by
  rw [latestWith, List.filter_map]
  have hf : (fun w : Week => decide (w.isoWeek = isoWeek)) ∘ withoutNotes V =
      fun w => decide (w.isoWeek = isoWeek) := by
    funext w
    rw [Function.comp_apply, withoutNotes_isoWeek]
  rw [hf, ← List.map_insertionSort (r := fun a b => b.updatedAt ≤ a.updatedAt)
    (s := fun a b => b.updatedAt ≤ a.updatedAt) (withoutNotes V) _ fun a _ b _ => by
      rw [withoutNotes_updatedAt, withoutNotes_updatedAt], List.head?_map, Option.map_map]
  congr 1
  funext w
  exact (withoutNotes_id w).symm

lemma Alike.latestWith (h : Alike V c d d') (isoWeek : String) :
    Tools.latestWith isoWeek d' = Tools.latestWith isoWeek d := by
  rw [latestWith_eq (V := V), h.weeks, ← latestWith_eq]

/-! ### Programs that stop -/

/-- The program ends with the error `e` and changes no row. -/
def Stops {α : Type} (x : ShopProg α) (d : Db) (e : ToolError) : Prop :=
  x.wp (fun _ _ => False) (fun e' v => e' = e ∧ SameRows d v) d

lemma Stops.fails {x : ShopProg String} (h : Stops x d e) : Fails x d e := by
  intro σ ans s
  have hrun := Prog.wp_run h ans s
  rcases hx : x.run ans (d, s) with ⟨e' | a, v, s'⟩ <;> rw [hx] at hrun
  · obtain ⟨rfl, hv⟩ := hrun
    exact ⟨v, s', rfl, hv⟩
  · exact hrun.elim

lemma stops_fail {α : Type} (d : Db) (e : ToolError) : Stops (Prog.fail e : ShopProg α) d e :=
  ⟨rfl, SameRows.refl d⟩

lemma Stops.bind {α β : Type} {x : ShopProg α} (h : Stops x d e) (f : α → ShopProg β) :
    Stops (x >>= f) d e :=
  Prog.wp_bind_of h (fun _ _ hf => hf.elim) fun _ _ he => he

/-- A query that finds what it looks for stands for its result. -/
lemma stops_queryRow {α β : Type} {l : Label} {f : Db → Option α} {a : α} (h : f d = some a)
    {k : α → ShopProg β} (hk : Stops (k a) d e) :
    Stops ((queryRow (select l f) : ShopProg α) >>= k) d e := by
  rw [Stops, queryRow, Prog.wp_bind, Prog.wp_bind, Prog.wp_query]
  refine ⟨fun e he => (by cases he), fun ws b hb => ?_⟩
  obtain ⟨rfl, rfl⟩ := Prod.mk.inj (Except.ok.inj hb)
  rw [h]
  exact hk

variable {ctx : Ctx} {W : ℤ}

/-- What `resolvePlan` says to another plan. -/
def tied (ctx : Ctx) (V : ℤ) : ToolError :=
  .text ("this chat is tied to plan id=" ++ toString ctx.weekId ++ "; refuse to edit plan id=" ++
    toString V ++ ". Ask the user to open that plan first")

lemma resolvePlan_other (hW : 0 < ctx.weekId) (hV : 0 < V) (hne : V ≠ ctx.weekId) :
    resolvePlan ctx V = .error (tied ctx V) := by
  rw [resolvePlan, if_pos hW, if_pos ⟨hV, hne⟩]
  rfl

lemma stops_resolve (hW : 0 < ctx.weekId) (hV : 0 < V) (hne : V ≠ ctx.weekId) (d : Db) :
    Stops (orFail (resolvePlan ctx V)) d (tied ctx V) := by
  rw [resolvePlan_other hW hV hne]
  exact stops_fail d _

/-! ### The guards -/

lemma stops_ensureDinnerEditable {k : ℤ} (hW : 0 < ctx.weekId) (hne : V ≠ ctx.weekId)
    (h : dinnerPlan d k = some V) :
    Stops (ensureDinnerEditable ctx k) d (otherPlan "dinner" k V ctx) := by
  refine Stops.bind ?_ _
  rw [checkDinnerInScope, if_neg (by omega)]
  refine stops_queryRow h ?_
  rw [if_pos hne]
  exact stops_fail d _

lemma stops_ensureExceptionEditable {k : ℤ} (hW : 0 < ctx.weekId) (hne : V ≠ ctx.weekId)
    (h : exceptionPlan d k = some V) :
    Stops (ensureExceptionEditable ctx k) d (otherPlan "exception" k V ctx) := by
  refine stops_queryRow h ?_
  rw [if_pos ⟨by omega, hne⟩]
  exact stops_fail d _

/-- The lookup of `update_week` finds the plan the input designates. -/
lemma lookUpWeek_wp {i : UpdateWeekInput} (h : Designates d V (.updateWeek (some i))) :
    (lookUpWeek i : ShopProg (Option ℤ)).wp (fun o v => o = some V ∧ v = d) (fun _ _ => False) d := by
  rw [Designates] at h
  rw [lookUpWeek]
  split_ifs at h ⊢
  · rw [Prog.wp_query]
    refine ⟨fun e he => (by cases he), fun ws o ho => ?_⟩
    obtain ⟨rfl, rfl⟩ := Prod.mk.inj (Except.ok.inj ho)
    exact ⟨h, rfl⟩
  · exact ⟨congrArg some h.1, rfl⟩

lemma stops_updateWeekTool {pg : Pg} {now : ℤ} {i : UpdateWeekInput} (hW : 0 < ctx.weekId)
    (hV : 0 < V) (hne : V ≠ ctx.weekId) (h : Designates d V (.updateWeek (some i))) :
    Stops (updateWeekTool pg now ctx (some i)) d (tied ctx V) := by
  rw [Stops, updateWeekTool, Prog.wp_bind, unmarshal, Prog.wp_pure]
  refine Prog.wp_bind_of (lookUpWeek_wp h) (fun o v ho => ?_) fun _ _ hf => False.elim hf
  obtain ⟨rfl, rfl⟩ := ho
  exact (stops_resolve hW hV hne v).bind _

lemma stops_updateExceptionTool {i : UpdateExceptionInput} (hW : 0 < ctx.weekId)
    (hne : V ≠ ctx.weekId) (h : exceptionPlan d i.exceptionId = some V) :
    Stops (updateExceptionTool ctx (some i)) d
      (if i.kind = none ∧ i.description = none then
        .text "nothing to update: pass kind and/or description"
      else otherPlan "exception" i.exceptionId V ctx) := by
  rw [Stops, updateExceptionTool, Prog.wp_bind, unmarshal, Prog.wp_pure]
  split_ifs
  · exact stops_fail d _
  · exact (stops_ensureExceptionEditable hW hne h).bind _

/-! ### Ratings -/

lemma references_dinner (k : ℤ) : references d.dinners "week_dinner_id" k =
    if (dinnerPlan d k).isSome then .ok () else .error (.foreignKey "week_dinner_id") := by
  rw [references, dinnerPlan, Option.isSome_map]

/-- A rating leaves the dinners alone. -/
lemma upsertRating_dinners {k : ℤ} {rating notes : String} {ws : List Write}
    (h : (upsertRating k rating notes).run d = .ok (ws, ())) (j : ℤ) :
    dinnerPlan (applyAll d ws) j = dinnerPlan d j := by
  simp only [upsertRating] at h
  split at h
  · cases h
  · obtain ⟨-, -, h⟩ := exists_of_bind h
    split at h <;> cases h <;> rfl

lemma upsertRating_ok {k : ℤ} {rating notes : String} {x : Verdict}
    (hx : Verdict.ofText rating = some x) (hd : (dinnerPlan d k).isSome = true) :
    ∃ ws, (upsertRating k rating notes).run d = .ok (ws, ()) := by
  simp only [upsertRating, hx, references_dinner, hd, if_true, bind, Except.bind]
  split <;> exact ⟨_, rfl⟩

/-- A transaction that fails with `e`. -/
def TxFails {α : Type} (x : Tx ToolError α) (d : Db) (e : ToolError) : Prop :=
  x.wp (fun _ _ => False) (fun e' _ => e' = e) d

lemma stops_transaction {α : Type} {x : Tx ToolError α} (h : TxFails x d e) :
    Stops (Prog.transaction x) d e := by
  refine Prog.wp_transaction (Tx.wp_mono (fun _ _ hf => hf) (fun e' _ he ws => ?_) h)
  exact ⟨he, sameRows_reserveAll d ws⟩

lemma select_bind {α β : Type} {l : Label} {f : Db → α} {fail : DbError → ToolError}
    {k : α → Tx ToolError β} {T : β → Db → Prop} {F : ToolError → Db → Prop}
    (h : (k (f d)).wp T F d) : (Tx.query (select l f) fail >>= k).wp T F d := by
  rw [Tx.wp_bind, Tx.wp_query]
  refine ⟨fun e he => (by cases he), fun ws b hb => ?_⟩
  obtain ⟨rfl, rfl⟩ := Prod.mk.inj (Except.ok.inj hb)
  exact h

/-- What stops a rating of a dinner of the plan `plan`. -/
def rateError (W : ℤ) (r : RatingInput) : Option ℤ → Option ToolError
  | none => some .noRows
  | some U =>
    if U ≠ W then some (.text ("rating dinner_id=" ++ toString r.dinnerId ++ " belongs to plan " ++
      toString U ++ ", not " ++ toString W))
    else if (Verdict.ofText r.rating).isNone then some (.db (.check "dish_ratings_rating_check"))
    else none

lemma rateDinner_fails {W : ℤ} {r : RatingInput} (h : rateError W r (dinnerPlan d r.dinnerId) = some e) :
    TxFails (rateDinner W r) d e := by
  refine select_bind ?_
  change rateError W r ((d.dinners.find? r.dinnerId).map Dinner.weekId) = some e at h
  rcases hU : (d.dinners.find? r.dinnerId).map Dinner.weekId with _ | U <;> rw [hU] at h
  · exact Option.some.inj h
  · simp only
    rw [rateError] at h
    split_ifs at h ⊢ with hUW hv
    · exact Option.some.inj h
    · refine (Tx.wp_query _ _ _).mpr ⟨fun e' he => ?_, fun ws u hs => ?_⟩
      · simp only [upsertRating, Option.isNone_iff_eq_none.mp hv, Except.error.injEq] at he
        rw [← he]
        exact Option.some.inj h
      · simp only [upsertRating, Option.isNone_iff_eq_none.mp hv, reduceCtorEq] at hs

/-- A rating that is stored leaves the dinners alone. -/
lemma rateDinner_wp {W : ℤ} {r : RatingInput} (h : rateError W r (dinnerPlan d r.dinnerId) = none) :
    (rateDinner W r).wp (fun _ v => ∀ j, dinnerPlan v j = dinnerPlan d j) (fun _ _ => False) d := by
  refine select_bind ?_
  have hd : (dinnerPlan d r.dinnerId).isSome = true := by
    by_contra hn
    rw [Option.not_isSome_iff_eq_none.mp hn] at h
    cases h
  change rateError W r ((d.dinners.find? r.dinnerId).map Dinner.weekId) = none at h
  rcases hU : (d.dinners.find? r.dinnerId).map Dinner.weekId with _ | U <;> rw [hU] at h
  · cases h
  · simp only
    rw [rateError] at h
    split_ifs at h ⊢ with hUW hv
    obtain ⟨x, hx⟩ := Option.ne_none_iff_exists'.mp (mt Option.isNone_iff_eq_none.mpr hv)
    obtain ⟨us, hus⟩ : ∃ us, (upsertRating r.dinnerId r.rating r.notes).run d = .ok (us, ()) :=
      upsertRating_ok hx hd
    refine (Tx.wp_query _ _ _).mpr ⟨fun e' he => ?_, fun ws u hs => upsertRating_dinners hs⟩
    rw [hus] at he
    cases he

/-- What stops the ratings, by the plans of their dinners. -/
def ratingsError (W : ℤ) (plan : ℤ → Option ℤ) : List RatingInput → Option ToolError
  | [] => none
  | r :: rs => (rateError W r (plan r.dinnerId)).or (ratingsError W plan rs)

lemma ratingsError_congr {W : ℤ} {plan plan' : ℤ → Option ℤ} {rs : List RatingInput}
    (h : ∀ r ∈ rs, plan' r.dinnerId = plan r.dinnerId) :
    ratingsError W plan' rs = ratingsError W plan rs := by
  induction rs with
  | nil => rfl
  | cons r rs ih =>
    rw [ratingsError, ratingsError, h r List.mem_cons_self,
      ih fun x hx => h x (List.mem_cons_of_mem _ hx)]

/-- A rating of a dinner of another plan is refused, if nothing stops the ratings before. -/
lemma ratingsError_isSome {W : ℤ} (hne : V ≠ W) {plan : ℤ → Option ℤ} {rs : List RatingInput}
    (h : ∃ r ∈ rs, plan r.dinnerId = some V) : ∃ e, ratingsError W plan rs = some e := by
  induction rs with
  | nil =>
    obtain ⟨r, hr, -⟩ := h
    exact absurd hr List.not_mem_nil
  | cons r rs ih =>
    rw [ratingsError]
    rcases he : rateError W r (plan r.dinnerId) with _ | e
    · obtain ⟨x, hx, hV⟩ := h
      rcases List.mem_cons.mp hx with rfl | hx
      · rw [hV, rateError, if_pos hne] at he
        cases he
      · exact ih ⟨x, hx, hV⟩
    · exact ⟨e, rfl⟩

lemma rateDinners_fails {W : ℤ} {rs : List RatingInput}
    (h : ratingsError W (dinnerPlan d) rs = some e) : TxFails (rateDinners W rs) d e := by
  induction rs generalizing d with
  | nil => cases h
  | cons r rs ih =>
    rw [TxFails, rateDinners, Tx.wp_bind]
    rw [ratingsError] at h
    rcases he : rateError W r (dinnerPlan d r.dinnerId) with _ | e' <;> rw [he] at h
    · refine Tx.wp_mono (fun _ v hv => ?_) (fun _ _ hf => hf.elim) (rateDinner_wp he)
      refine ih ?_
      rw [← h, Option.none_or]
      exact ratingsError_congr fun x _ => hv x.dinnerId
    · obtain rfl : e' = e := Option.some.inj h
      exact Tx.wp_mono (fun _ _ hf => hf.elim) (fun _ _ h => h) (rateDinner_fails he)

/-- A retrospective with a rating that is refused; the plan of the chat may be gone. -/
lemma recordTx_fails {now W : ℤ} {notes : String} {rs : List RatingInput}
    (h : ratingsError W (dinnerPlan d) rs = some e) :
    TxFails (do
      Tx.query (insertRetrospective now W notes) ToolError.db
      rateDinners W rs) d
      (if (d.weeks.find? W).isSome then e else .db (.foreignKey "week_id")) := by
  refine (Tx.wp_bind _ _ _).mpr ((Tx.wp_query _ _ _).mpr ⟨fun e' he => ?_, fun ws u hs => ?_⟩)
  · simp only [insertRetrospective, references, bind, Except.bind] at he
    split_ifs at he ⊢ with hw
    cases he
    rfl
  · simp only [insertRetrospective, references, bind, Except.bind] at hs
    split_ifs at hs ⊢ with hw
    cases hs
    exact rateDinners_fails h

/-! ### Tools -/

lemma Alike.has (h : Alike V c d d') {k : ℤ} : d'.weeks.Has k ↔ d.weeks.Has k := by
  have ids (D : Db) : D.weeks.Has k ↔ k ∈ (D.weeks.rows.map (withoutNotes V)).map Week.id := by
    rw [List.map_map, show Week.id ∘ withoutNotes V = Week.id from funext withoutNotes_id,
      List.mem_map]
    rfl
  rw [ids, ids, h.weeks]

lemma Alike.isSome_find (h : Alike V c d d') (k : ℤ) :
    (d'.weeks.find? k).isSome = (d.weeks.find? k).isSome := by
  rw [Bool.eq_iff_iff, Option.isSome_iff_ne_none, Option.isSome_iff_ne_none, ne_eq, ne_eq,
    Table.find?_eq_none_iff, Table.find?_eq_none_iff, not_not, not_not]
  exact h.has

/-- A retrospective is refused for its plan, or for the dinner of a rating. -/
lemma stops_recordRetrospectiveTool {now : ℤ} {i : RetrospectiveInput} (hW : 0 < ctx.weekId)
    (hV : 0 < V) (hne : V ≠ ctx.weekId)
    (h : Alike V (.recordRetrospective (some i)) d d')
    (hd : Designates d V (.recordRetrospective (some i))) :
    ∃ e, Stops (recordRetrospectiveTool now ctx (some i)) d e ∧
      Stops (recordRetrospectiveTool now ctx (some i)) d' e := by
  rcases hr : resolvePlan ctx i.weekId with e | k
  · have stops (v : Db) : Stops (recordRetrospectiveTool now ctx (some i)) v e := by
      rw [Stops, recordRetrospectiveTool, Prog.wp_bind, unmarshal, Prog.wp_pure, hr]
      exact stops_fail v e
    exact ⟨e, stops d, stops d'⟩
  · obtain ⟨hbad, rfl⟩ : (∃ r ∈ i.ratings, dinnerPlan d r.dinnerId = some V) ∧
        k = ctx.weekId := by
      rw [resolvePlan, if_pos hW] at hr
      split_ifs at hr with hk
      refine ⟨hd.resolve_left ?_, (Except.ok.inj hr).symm⟩
      rintro ⟨hVk, -⟩
      exact hk (hVk ▸ ⟨hV, hne⟩)
    obtain ⟨e, he⟩ := ratingsError_isSome hne hbad
    have he' : ratingsError ctx.weekId (dinnerPlan d') i.ratings = some e := by
      rw [← he]
      exact ratingsError_congr fun r hr => h.dinnerPlan (List.mem_map_of_mem hr)
    have stops {v : Db} (hv : ratingsError ctx.weekId (dinnerPlan v) i.ratings = some e) :
        Stops (recordRetrospectiveTool now ctx (some i)) v
          (if (v.weeks.find? ctx.weekId).isSome then e else .db (.foreignKey "week_id")) := by
      rw [Stops, recordRetrospectiveTool, Prog.wp_bind, unmarshal, Prog.wp_pure, hr]
      exact (stops_transaction (recordTx_fails hv)).bind _
    refine ⟨_, stops he, ?_⟩
    rw [← h.isSome_find]
    exact stops he'

lemma getWeekRow_wp {i : GetWeekInput} (h : Designates d V (.getWeek i)) :
    (getWeekRow ctx i : ShopProg (Option Week)).wp (fun _ _ => True) (fun _ _ => False) d := by
  rw [Designates] at h
  have answers {β : Type} (f : Db → β) :
      (Prog.query (select .read f) ToolError.db : ShopProg β).wp (fun _ _ => True)
        (fun _ _ => False) d := by
    rw [Prog.wp_query]
    exact ⟨fun e he => (by cases he), fun _ _ _ => trivial⟩
  rw [getWeekRow]
  split_ifs at h ⊢ with hid hiso
  · exact answers _
  · exact answers _
  · exact absurd h.1 hiso
  · exact absurd h.1 hiso

/-- Whatever plan it finds, `get_week` answers. -/
lemma getWeekTool_answers {i : GetWeekInput} {L : TextRules} (h : Designates d V (.getWeek i)) :
    (getWeekTool L ctx i : ShopProg String).wp (fun _ _ => True) (fun _ _ => False) d := by
  have reads {β γ : Type} {f : Db → β} {k : β → ShopProg γ} {v : Db}
      (hk : ∀ b v, (k b).wp (fun _ _ => True) (fun _ _ => False) v) :
      (Prog.query (select .read f) ToolError.db >>= k : ShopProg γ).wp (fun _ _ => True)
        (fun _ _ => False) v := by
    rw [Prog.wp_bind, Prog.wp_query]
    exact ⟨fun e he => (by cases he), fun _ _ _ => hk _ _⟩
  rw [getWeekTool]
  refine Prog.wp_bind_of (getWeekRow_wp h) (fun o v _ => ?_) fun _ _ hf => hf
  rcases o with _ | w
  · trivial
  · exact reads fun _ _ => reads fun _ _ => reads fun _ _ => reads fun _ _ => trivial

/-- Every guarded tool refuses a row of another plan. -/
lemma refused_of_guarded (S : Setup) (t : Turn) (hW : 0 < t.ctx.weekId) (hV : 0 < V)
    (hne : V ≠ t.ctx.weekId) (hd : Designates d V t.call) (hg : ToolCall.isGetWeek t.call = false) :
    Refused S t V d := by
  obtain ⟨ctx, now, today, call⟩ := t
  intro d' h
  have refuse {x : ShopProg String} {e : ToolError} (hx : Stops x d e) (hx' : Stops x d' e) :
      ∃ e, Fails x d e ∧ Fails x d' e := ⟨e, hx.fails, hx'.fails⟩
  cases call with
  | addDinner i =>
    rcases i with _ | i
    · exact hd.elim
    · obtain ⟨rfl, -⟩ := hd
      exact refuse ((stops_resolve hW hV hne d).bind _) ((stops_resolve hW hV hne d').bind _)
  | addException i =>
    rcases i with _ | i
    · exact hd.elim
    · obtain ⟨rfl, -⟩ := hd
      exact refuse ((stops_resolve hW hV hne d).bind _) ((stops_resolve hW hV hne d').bind _)
  | updateWeek i =>
    rcases i with _ | i
    · exact hd.elim
    · have hd' : Designates d' V (.updateWeek (some i)) := by
        rw [Designates] at hd ⊢
        rwa [h.latestWith, h.has]
      exact refuse (stops_updateWeekTool hW hV hne hd) (stops_updateWeekTool hW hV hne hd')
  | updateDinner i =>
    rcases i with _ | i
    · exact hd.elim
    · have hd' := (h.namedDinners _ (List.mem_singleton_self _)).mpr hd
      exact refuse ((stops_ensureDinnerEditable hW hne hd).bind _)
        ((stops_ensureDinnerEditable hW hne hd').bind _)
  | deleteDinner k =>
    rcases k with _ | k
    · exact hd.elim
    · have hd' := (h.namedDinners _ (List.mem_singleton_self _)).mpr hd
      exact refuse ((stops_ensureDinnerEditable hW hne hd).bind _)
        ((stops_ensureDinnerEditable hW hne hd').bind _)
  | updateException i =>
    rcases i with _ | i
    · exact hd.elim
    · have hd' := (h.namedExceptions _ (List.mem_singleton_self _)).mpr hd
      exact refuse (stops_updateExceptionTool hW hne hd) (stops_updateExceptionTool hW hne hd')
  | deleteException k =>
    rcases k with _ | k
    · exact hd.elim
    · have hd' := (h.namedExceptions _ (List.mem_singleton_self _)).mpr hd
      exact refuse ((stops_ensureExceptionEditable hW hne hd).bind _)
        ((stops_ensureExceptionEditable hW hne hd').bind _)
  | recordRetrospective i =>
    rcases i with _ | i
    · exact hd.elim
    · obtain ⟨e, hx, hx'⟩ := @stops_recordRetrospectiveTool V d d' ctx now i hW hV hne h hd
      exact refuse hx hx'
  | getWeek i => cases hg
  | _ => exact hd.elim

/-- **What a chat is told of another plan**: for every call of a week-scoped tool whose input
designates a row of a plan other than the chat's, the call fails with a text and a database in
which nothing of that plan shows, exactly when the tool is not `get_week`. -/
theorem refused_iff (S : Setup) (t : Turn) (V : ℤ) (d : Db) (hW : 0 < t.ctx.weekId) (hV : 0 < V)
    (hne : V ≠ t.ctx.weekId) (h : Designates d V t.call) :
    Refused S t V d ↔ ToolCall.isGetWeek t.call = false := by
  refine ⟨fun hr => ?_, refused_of_guarded S t hW hV hne h⟩
  obtain ⟨ctx, now, today, call⟩ := t
  cases call with
  | getWeek i =>
    obtain ⟨e, hfails, -⟩ := hr d (Alike.refl V _ d)
    obtain ⟨v, s', hrun, -⟩ := hfails Unit Frames.noAnswers ()
    have hok := Prog.wp_run (@getWeekTool_answers V d ctx i S.rules h) Frames.noAnswers ()
    have hcall : callTool S ⟨ctx, now, today, .getWeek i⟩ = getWeekTool S.rules ctx i := rfl
    rw [hcall] at hrun
    rw [hrun] at hok
    exact hok.elim
  | _ => rfl

/-- In the chat of the second plan a dinner of the first is to be deleted. -/
def deletion : Turn := ⟨⟨2⟩, 1, 0, .deleteDinner (some 1)⟩

theorem refused_iff_deletion :
    Refused Frames.noShop deletion 1 Frames.twoPlans ↔
      ToolCall.isGetWeek deletion.call = false :=
  refused_iff Frames.noShop deletion 1 Frames.twoPlans (by decide) (by decide) (by decide)
    (by show dinnerPlan Frames.twoPlans 1 = some 1; decide)

/-- In the chat of the second plan the first is asked for. -/
def peek : Turn := ⟨⟨2⟩, 1, 0, .getWeek ⟨1, ""⟩⟩

/-- The chat gets to read the other plan. -/
theorem not_refused : ¬∀ (S : Setup) (t : Turn) (V : ℤ) (d : Db), 0 < t.ctx.weekId → 0 < V →
    V ≠ t.ctx.weekId → Designates d V t.call → Refused S t V d := by
  intro h
  have hd : Designates Frames.twoPlans 1 peek.call :=
    ⟨rfl, Dinners.threeDaysWeek .ordered, by decide, rfl⟩
  obtain ⟨e, hfails, -⟩ := h Frames.noShop peek 1 Frames.twoPlans (by decide) (by decide)
    (by decide) hd Frames.twoPlans (Alike.refl _ _ _)
  obtain ⟨v, s', hrun, -⟩ := hfails Unit Frames.noAnswers ()
  have hok : ((callTool Frames.noShop peek).run Frames.noAnswers
      (Frames.twoPlans, ())).1.toOption.isSome = true := by decide
  rw [hrun] at hok
  cases hok

end Veckomenyn.Refusals
