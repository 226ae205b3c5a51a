import Veckomenyn.AllOrNothing
import Veckomenyn.PatchSteps
import Veckomenyn.Service

/-!
The statements the requests of the service are made of.

A property of statements that holds of each of these is a property of all that a request can come
to. Invariants of the database are proved statement by statement, and `visit_keeps` carries them
over the requests, whichever of their statements fail.
-/

namespace Veckomenyn.Writers

open Rows Schema Sql Store Txn WkCtx Tools CartTools Agent Weeks Service AllOrNothing

variable {C : ∀ β : Type, Stmt β → Prop} {Q : Type} {A : Q → Type} {ε α β : Type}

/-- The statements are in `C`, but for those that delete a plan or write a retrospective. -/
structure Covers (C : ∀ β : Type, Stmt β → Prop) : Prop where
  read : ∀ (β : Type) (s : Stmt β), Prog.ReadOnly s → C β s
  createWeek : ∀ pg now c, C _ (createWeek pg now c)
  insertWeek : ∀ pg now iso s e delivery order notes,
    C _ (insertWeek pg now iso s e delivery order notes)
  updateWeek : ∀ pg now id u, C _ (updateWeekStmt pg now id u)
  shiftDinners : ∀ pg s id, C _ (shiftDinners pg s id)
  truncateDinners : ∀ pg id e, C _ (truncateDinners pg id e)
  addEmptySlots : ∀ pg id e e', C _ (addEmptySlots pg id e e')
  cloneTarget : ∀ pg now s id, C _ (cloneTarget pg now s id)
  cloneDinners : ∀ t id, C _ (cloneDinners t id)
  padDays : ∀ t, C _ (padDays t)
  insertDish : ∀ pg name cuisine recipe n tags day,
    C _ (insertDish pg name cuisine recipe n tags day)
  insertDinner : ∀ pg id day dish n sourcing notes,
    C _ (insertDinner pg id day dish n sourcing notes)
  repointDinner : ∀ pg id dish n sourcing notes, C _ (repointDinner pg id dish n sourcing notes)
  deleteDinner : ∀ id, C _ (deleteDinner id)
  insertException : ∀ id kind text, C _ (insertException id kind text)
  updateException : ∀ id kind text, C _ (updateException id kind text)
  deleteException : ∀ id, C _ (deleteException id)
  upsertRating : ∀ id rating notes, C _ (upsertRating id rating notes)
  setRating : ∀ id rating notes, C _ (setRating id rating notes)
  clearRating : ∀ id, C _ (clearRating id)
  insertCartItem : ∀ now id code qty reason snapshot,
    C _ (insertCartItem now id code qty reason snapshot)
  deleteCartItems : ∀ p, C _ (deleteCartItems p)
  deletePrinciples : ∀ category, C _ (deletePrinciples category)
  deletePreference : ∀ category, C _ (Preferences.deletePreference category)
  insertPrinciple : ∀ category body, C _ (insertPrinciple category body)
  updateSettings : ∀ i, C _ (Tools.updateSettings i)
  patchSettings : ∀ u, C _ (Setup.updateSettings u)

/-- So are those that do. -/
structure CoversNotes (C : ∀ β : Type, Stmt β → Prop) : Prop where
  deleteWeek : ∀ id, C _ (deleteWeek id)
  insertRetrospective : ∀ now id notes, C _ (insertRetrospective now id notes)
  updateNewest : ∀ id notes, C _ (updateNewest id notes)

/-! ### Parts of requests -/

lemma forall_query {s : Stmt β} (h : C β s) (fail : DbError → ε) :
    (Prog.query s fail : Prog Q A ε β).Forall C := by
  refine ⟨h, fun r => ?_⟩
  cases r <;> trivial

lemma forall_transaction {body : Tx ε α} {R : α → Prop} (h : body.Forall C R) :
    (Prog.transaction body : Prog Q A ε α).Forall C := by
  have hweak : body.Forall C fun _ => True := by
    induction body with
    | ret r => cases r <;> trivial
    | stmt s fail k ih => exact ⟨h.1, fun b => ih b (h.2 b)⟩
  exact ⟨hweak, fun _ => trivial⟩

lemma txForall_query {s : Stmt β} (h : C β s) (fail : DbError → ε) :
    (Tx.query s fail).Forall C fun _ => True := ⟨h, fun _ => trivial⟩

lemma forall_mirror {s : Stmt Unit} (h : C Unit s) (what : String) : (mirror s what).Forall C := by
  refine ⟨h, fun r => ?_⟩
  cases r with
  | ok _ => trivial
  | error _ => exact fun _ => trivial

lemma forall_inPlan {ctx : Ctx} {x : ShopProg Unit} (h : x.Forall C) : (inPlan ctx x).Forall C := by
  rw [inPlan]
  split_ifs
  · exact h
  · trivial

lemma forall_shopping (S : Agent.Setup) (name : String) {tool : ShopProg String}
    (h : tool.Forall C) : (S.shopping name tool).Forall C := by
  rw [Agent.Setup.shopping]
  split_ifs
  · exact h
  · trivial

variable (hC : Covers C)

include hC

lemma Covers.select (l : Label) (f : Db → β) : C β (select l f) :=
  hC.read _ _ fun _ _ _ h => by
    cases h
    rfl

lemma Covers.quiet {x : Prog Q A ε α} (hx : x.Quiet) : x.Forall C := hx.forall hC.read

lemma Covers.guard {x : ShopProg α} (hx : Guard x) : x.Forall C := hC.quiet hx.quiet

/-! ### Plans -/

lemma forall_readOne (f : Db → Option β) : (readOne (select .read f) : Prog Q A _ β).Forall C := by
  refine (forall_query (hC.select _ _) _).bind fun o => ?_
  cases o <;> trivial

lemma forall_readRows (f : Db → List β) :
    (readRows (select .read f) : Prog Q A _ (List β)).Forall C :=
  (forall_query (hC.select _ _) _).bind fun _ =>
    Prog.Forall.bind ⟨hC.select _ _, fun _ => trivial⟩ fun _ => trivial

lemma forall_loadWeekDetail (pg : Pg) (ws : WeekSummary) :
    (loadWeekDetail pg ws : Prog Q A _ WeekDetail).Forall C :=
  (forall_readOne hC _).bind fun _ => (forall_readRows hC _).bind fun _ =>
    (forall_readRows hC _).bind fun _ => (forall_readRows hC _).bind fun _ =>
      (forall_readRows hC _).bind fun _ => trivial

lemma forall_reload (pg : Pg) (id : ℤ) : (reload pg id : Prog Q A _ _).Forall C :=
  (forall_readOne hC _).bind fun ws => (forall_loadWeekDetail hC pg ws).bind fun _ => trivial

lemma forall_createWeek (pg : Pg) (now : ℤ) (body : Except String WeekCreate) :
    (handleCreateWeek pg now body : Prog Q A _ _).Forall C := by
  unfold handleCreateWeek
  rcases body with e | c
  · trivial
  · simp only
    split_ifs
    · trivial
    · exact (forall_query (hC.createWeek _ _ _) _).bind fun _ =>
        (forall_readOne hC _).bind fun ws =>
        forall_loadWeekDetail hC pg ws

lemma forall_patchTx (pg : Pg) (now id : ℤ) (p : WeekPatch) :
    (patchTx pg now id p).Forall C fun _ => True := by
  have hend (e s' s : String) : C _ (computeEnd pg e s' s) := hC.read _ _ fun d ws b h => by
    obtain ⟨_, -, h⟩ := exists_of_bind h
    obtain ⟨_, -, h⟩ := exists_of_bind h
    obtain ⟨_, -, h⟩ := exists_of_bind h
    cases h
    rfl
  have hiso (s : String) : C _ (computeIsoWeek pg s) := hC.read _ _ fun d ws b h => by
    obtain ⟨_, -, h⟩ := exists_of_bind h
    cases h
    rfl
  rw [PatchSteps.patchTx_eq]
  refine ⟨hC.select _ _, fun o => ?_⟩
  rcases o with _ | ⟨cs, ce⟩
  · trivial
  · refine (PatchSteps.prepare_forall (fun t => hC.shiftDinners pg t id) hend hiso
      (hC.truncateDinners pg id) (hC.addEmptySlots pg id) p cs ce).bind fun u _ => ?_
    rw [PatchSpec.saveWeek, Store.updateWeek]
    split_ifs
    · trivial
    · refine (txForall_query (hC.updateWeek _ _ _ _) _).bind fun n _ => ?_
      split_ifs <;> trivial

lemma forall_patchWeek (pg : Pg) (now id : ℤ) (body : Except String WeekPatch) :
    (handlePatchWeek pg now id body : Prog Q A _ _).Forall C := by
  unfold handlePatchWeek
  split_ifs
  · trivial
  · rcases body with e | p
    · trivial
    · simp only
      split_ifs
      · trivial
      · trivial
      · exact (forall_transaction (forall_patchTx hC pg now id p)).bind fun _ =>
          forall_reload hC pg id

lemma forall_cloneWeek (pg : Pg) (now id : ℤ) (body : Except String String) :
    (handleCloneWeek pg now id body : Prog Q A _ _).Forall C := by
  unfold handleCloneWeek
  split_ifs
  · trivial
  · rcases body with e | s
    · trivial
    · simp only
      split_ifs
      · trivial
      · refine (forall_transaction (R := fun _ => True) ?_).bind fun t => forall_reload hC pg t
        refine (txForall_query (hC.cloneTarget _ _ _ _) _).bind fun o _ => ?_
        rcases o with _ | t
        · trivial
        · exact (txForall_query (hC.cloneDinners _ _) _).bind fun _ _ =>
            (txForall_query (hC.padDays _) _).bind fun _ _ => trivial

/-! ### Ratings, preferences, settings -/

lemma forall_putDinnerRating (id : ℤ) (body : Except String DinnerRatingPut) :
    (handlePutDinnerRating id body : Prog Q A _ _).Forall C := by
  unfold handlePutDinnerRating
  split_ifs
  · trivial
  · rcases body with e | b
    · trivial
    · simp only
      split_ifs
      · trivial
      · refine Prog.Forall.bind ?_ fun _ => trivial
        refine (forall_query (hC.setRating _ _ _) _).bind fun n => ?_
        split_ifs <;> trivial

lemma forall_deleteDinnerRating (id : ℤ) :
    (handleDeleteDinnerRating id : Prog Q A _ _).Forall C := by
  unfold handleDeleteDinnerRating
  split_ifs
  · trivial
  · exact (forall_query (hC.clearRating _) _).bind fun _ => trivial

lemma forall_putPreference (category : String)
    (body : Except String Preferences.PreferencePatch) :
    (Preferences.handlePutPreference category body : Prog Q A _ _).Forall C := by
  unfold Preferences.handlePutPreference
  split_ifs
  · trivial
  · rcases body with e | p
    · trivial
    · simp only
      rcases p.bodyMd with _ | bodyMd
      · trivial
      · refine (forall_transaction (R := fun _ => True) ?_).bind fun _ => ?_
        · exact (txForall_query (hC.deletePrinciples _) _).bind fun _ _ =>
            txForall_query (hC.insertPrinciple _ _) _
        · refine (forall_query (hC.select _ _) _).bind fun o => ?_
          cases o <;> trivial

lemma forall_deletePreference (category : String) :
    (Preferences.handleDeletePreference category : Prog Q A _ _).Forall C := by
  unfold Preferences.handleDeletePreference
  split_ifs
  · trivial
  · refine (forall_query (hC.deletePreference _) _).bind fun n => ?_
    split_ifs <;> trivial

lemma forall_seedFrom (n : ℕ) (entries : List Preferences.Entry) :
    (Preferences.seedFrom n entries : Prog Q A _ _).Forall C := by
  induction entries generalizing n with
  | nil => trivial
  | cons e es ih =>
    unfold Preferences.seedFrom
    split_ifs
    · exact ih n
    · rcases Preferences.stem? e.name with _ | category
      · exact ih n
      · refine (forall_transaction (R := fun _ => True) ?_).bind fun _ => ih (n + 1)
        exact (txForall_query (hC.deletePrinciples _) _).bind fun _ _ =>
          txForall_query (hC.insertPrinciple _ _) _

lemma forall_patchSettings (body : Except String Setup.SettingsPatch) :
    (Setup.handlePatchSettings body : Prog Q A _ _).Forall C := by
  unfold Setup.handlePatchSettings
  rcases body with e | p
  · trivial
  · refine Prog.Forall.bind ?_ fun _ => (forall_query (hC.select _ _) _).bind fun _ => trivial
    unfold Setup.updateHouseholdSettings
    split_ifs
    · trivial
    · exact forall_query (hC.patchSettings p) _

/-! ### The shopping list -/

lemma forall_recordAll (now weekId : ℤ) (cart : Cart) (items : List CartAddInput) :
    (recordAll now weekId cart items).Forall C := by
  induction items with
  | nil => trivial
  | cons i is ih => exact (forall_mirror (hC.insertCartItem _ _ _ _ _ _) _).bind fun _ => ih

/-! ### The tools -/

section

variable {ctx : Ctx} {pg : Pg} {now : ℤ}

lemma forall_addDinnerTool (quote : String → String) (input : Option AddDinnerInput) :
    (addDinnerTool pg quote ctx input : ShopProg String).Forall C := by
  refine (hC.guard (guard_unmarshal input)).bind fun i => ?_
  refine (hC.guard (guard_orFail _)).bind fun weekId => ?_
  refine (hC.guard (guard_ensureEditable weekId)).bind fun _ => ?_
  refine (forall_transaction (R := fun _ => True) ?_).bind fun _ => trivial
  exact (txForall_query (hC.insertDish _ _ _ _ _ _ _) _).bind fun _ _ =>
    (txForall_query (hC.insertDinner _ _ _ _ _ _ _) _).bind fun _ _ => trivial

lemma forall_updateDinnerTool (input : Option UpdateDinnerInput) :
    (updateDinnerTool pg ctx input : ShopProg String).Forall C := by
  refine (hC.guard (guard_unmarshal input)).bind fun i => ?_
  refine (hC.guard (guard_ensureDinnerEditable i.dinnerId)).bind fun _ => ?_
  refine (forall_transaction (R := fun _ => True) ?_).bind fun _ => trivial
  refine (txForall_query (hC.select _ _) _).bind fun o _ => ?_
  rcases o with _ | day
  · trivial
  · exact (txForall_query (hC.insertDish _ _ _ _ _ _ _) _).bind fun _ _ =>
      (txForall_query (hC.repointDinner _ _ _ _ _ _) _).bind fun _ _ => trivial

lemma forall_updateWeekTool (input : Option UpdateWeekInput) :
    (updateWeekTool pg now ctx input : ShopProg String).Forall C := by
  refine (hC.guard (guard_unmarshal input)).bind fun i => Prog.Forall.bind ?_ fun o => ?_
  · rw [lookUpWeek]
    split_ifs
    · exact forall_query (hC.select _ _) _
    · trivial
  · rcases o with _ | id
    · trivial
    · refine (hC.guard (guard_orFail _)).bind fun k => Prog.Forall.bind ?_ fun n => ?_
      · rw [Store.updateWeek]
        split_ifs
        · trivial
        · exact forall_query (hC.updateWeek _ _ _ _) _
      · split_ifs <;> trivial

lemma forall_rateDinners (weekId : ℤ) (ratings : List RatingInput) :
    (rateDinners weekId ratings).Forall C fun _ => True := by
  induction ratings with
  | nil => trivial
  | cons r rs ih =>
    refine Tx.Forall.bind (R := fun _ => True) ?_ fun _ _ => ih
    refine (txForall_query (hC.select _ _) _).bind fun o _ => ?_
    rcases o with _ | k
    · trivial
    · simp only
      split_ifs
      · trivial
      · exact txForall_query (hC.upsertRating _ _ _) _

lemma forall_recordRetrospectiveTool (hN : CoversNotes C) (input : Option RetrospectiveInput) :
    (recordRetrospectiveTool now ctx input : ShopProg String).Forall C := by
  refine (hC.guard (guard_unmarshal input)).bind fun i => ?_
  refine (hC.guard (guard_orFail _)).bind fun weekId => ?_
  refine (forall_transaction (R := fun _ => True) ?_).bind fun _ => trivial
  exact (txForall_query (hN.insertRetrospective _ _ _) _).bind fun _ _ =>
    forall_rateDinners hC weekId i.ratings

end

/-- The call writes no retrospective. -/
def Plain : ToolCall → Prop
  | .recordRetrospective _ => False
  | _ => True

lemma forall_callTool (S : Agent.Setup) (t : Turn) (h : Plain t.call ∨ CoversNotes C) :
    (callTool S t).Forall C := by
  by_cases hm : OverMenu t.call
  · unfold callTool
    cases hcall : t.call with
    | updatePreference i =>
      refine (hC.guard (guard_unmarshal i)).bind fun i => ?_
      refine (forall_transaction (R := fun _ => True) ?_).bind fun _ => trivial
      exact (txForall_query (hC.deletePrinciples _) _).bind fun _ _ =>
        txForall_query (hC.insertPrinciple _ _) _
    | updateHouseholdSettings i =>
      refine (hC.guard (guard_unmarshal i)).bind fun i => Prog.Forall.bind ?_ fun _ => trivial
      rw [updateHouseholdSettings]
      split_ifs
      · trivial
      · exact forall_query (hC.updateSettings i) _
    | createWeek i =>
      exact (hC.guard (guard_unmarshal i)).bind fun i =>
        (forall_query (hC.insertWeek _ _ _ _ _ _ _ _) _).bind fun _ => trivial
    | updateWeek i => exact forall_updateWeekTool hC i
    | addDinner i => exact forall_addDinnerTool hC _ i
    | updateDinner i => exact forall_updateDinnerTool hC i
    | deleteDinner i =>
      refine (hC.guard (guard_unmarshal i)).bind fun id => ?_
      refine (hC.guard (guard_ensureDinnerEditable id)).bind fun _ => ?_
      refine (forall_query (hC.deleteDinner id) _).bind fun n => ?_
      split_ifs <;> trivial
    | addException i =>
      exact (hC.guard (guard_unmarshal i)).bind fun i => (hC.guard (guard_orFail _)).bind fun k =>
        (hC.guard (guard_ensureEditable k)).bind fun _ =>
          (forall_query (hC.insertException _ _ _) _).bind fun _ => trivial
    | updateException i =>
      refine (hC.guard (guard_unmarshal i)).bind fun i => ?_
      split_ifs
      · trivial
      · exact (hC.guard (guard_ensureExceptionEditable i.exceptionId)).bind fun _ =>
          (forall_query (hC.updateException _ _ _) _).bind fun _ => trivial
    | deleteException i =>
      exact (hC.guard (guard_unmarshal i)).bind fun id =>
        (hC.guard (guard_ensureExceptionEditable id)).bind fun _ =>
          (forall_query (hC.deleteException id) _).bind fun _ => trivial
    | recordRetrospective i =>
      rw [hcall] at h
      exact forall_recordRetrospectiveTool hC (h.resolve_left fun h => h) i
    | _ =>
      rw [hcall] at hm
      exact hm.elim
  · unfold callTool
    cases hcall : t.call with
    | shopCartAdd i =>
      exact forall_shopping S _ ((hC.guard (guard_unmarshal i)).bind fun _ =>
        (hC.quiet (quiet_ask (quiet_request (.cartAdd _ _)))).bind fun _ =>
          (forall_inPlan (forall_mirror (hC.insertCartItem _ _ _ _ _ _) _)).bind fun _ =>
            trivial)
    | shopCartAddMany i =>
      exact forall_shopping S _ ((hC.guard (guard_unmarshal i)).bind fun items =>
        (hC.quiet (quiet_addAll items)).bind fun _ =>
          (hC.quiet (quiet_ask (quiet_request .cartGet))).bind fun _ =>
            (forall_inPlan (forall_recordAll hC _ _ _ _)).bind fun _ => trivial)
    | shopCartRemove i =>
      exact forall_shopping S _ ((hC.guard (guard_unmarshal i)).bind fun _ =>
        (hC.quiet (quiet_ask (quiet_request (.cartRemove _)))).bind fun _ =>
          (forall_inPlan (forall_mirror (hC.deleteCartItems _) _)).bind fun _ => trivial)
    | shopCartClear =>
      exact forall_shopping S _ ((hC.quiet (quiet_ask (quiet_request .cartClear))).bind fun _ =>
        (forall_inPlan (forall_mirror (hC.deleteCartItems _) _)).bind fun _ => trivial)
    | readPreferences => exact hC.guard (guard_readPreferencesTool S.rules)
    | readHouseholdSettings =>
      exact hC.guard ((guard_select .read _).bind fun _ => guard_pure _)
    | listDishesRecent weeks => exact hC.guard (guard_listDishesRecentTool t.today weeks)
    | searchHistory i => exact hC.guard (guard_searchHistoryTool S.rules i)
    | listWeeks limit => exact hC.guard (guard_listWeeksTool limit)
    | getWeek i => exact hC.guard (guard_getWeekTool S.rules i)
    | shopSearch i =>
      exact forall_shopping S _ (hC.quiet ((guard_unmarshal i).quiet.bind fun _ =>
        (quiet_ask (quiet_request (.search _ _))).bind fun _ => quiet_answer _ _ _))
    | shopCartGet =>
      exact forall_shopping S _ (hC.quiet ((quiet_ask (quiet_request .cartGet)).bind fun _ =>
        (guard_pure _).quiet))
    | shopOrdersRecent limit =>
      exact forall_shopping S _ (hC.quiet ((quiet_ask (quiet_request (.ordersRecent _))).bind
        fun _ => quiet_answer _ _ _))
    | shopOrderDetail i =>
      exact forall_shopping S _ (hC.quiet ((guard_unmarshal i).quiet.bind fun _ =>
        (quiet_ask (quiet_request (.orderDetail _))).bind fun _ => (guard_pure _).quiet))
    | unknown name => trivial
    | _ =>
      rw [hcall] at hm
      exact absurd trivial hm

/-! ### The requests -/

omit hC

section

variable {σ : Type} (S : Agent.Setup) (ans : (q : Call) → σ → Answer q × σ)

/-- The request deletes no plan and writes no retrospective. -/
def Request.Plain : Request → Prop
  | .deleteWeek _ | .putWeekRetrospective _ _ => False
  | .call _ _ call => Writers.Plain call
  | _ => True

/-- **Invariants of the service**: what every statement keeps every request keeps. -/
theorem visit_keeps {I : Db → Prop} (hreserve : ∀ d w, I d → I (Db.reserve d w))
    (hC : Covers (Prog.Keeping I)) {v : Visit}
    (hv : Request.Plain v.request ∨ CoversNotes (Prog.Keeping I)) {c : Db × σ} (h : I c.1) :
    I (visit S ans c v).2.1 := by
  have run {ε α : Type} {lost : DbError → ε} {x : Prog Call Answer ε α}
      (hx : x.Forall (Prog.Keeping I)) : I (ends ans lost x v.faults c).2.1 :=
    Prog.runWith_keeping hreserve hx 0 h
  unfold visit
  cases hreq : v.request with
  | createWeek body => exact run (forall_createWeek hC S.pg v.now body)
  | patchWeek id body => exact run (forall_patchWeek hC S.pg v.now id body)
  | cloneWeek id body => exact run (forall_cloneWeek hC S.pg v.now id body)
  | deleteWeek id =>
    rw [hreq] at hv
    refine run ?_
    unfold handleDeleteWeek
    split_ifs
    · trivial
    · refine (forall_query ((hv.resolve_left fun h => h).deleteWeek id) _).bind fun n => ?_
      split_ifs <;> trivial
  | putDinnerRating id body => exact run (forall_putDinnerRating hC id body)
  | deleteDinnerRating id => exact run (forall_deleteDinnerRating hC id)
  | putWeekRetrospective id body =>
    rw [hreq] at hv
    have hN := hv.resolve_left fun h => h
    refine run ?_
    unfold handlePutWeekRetrospective
    split_ifs
    · trivial
    · rcases body with e | notes
      · trivial
      · refine Prog.Forall.bind ?_ fun _ => trivial
        refine (forall_query (hC.select _ _) _).bind fun found => ?_
        split_ifs
        · refine (forall_query (hN.updateNewest id notes) _).bind fun n => ?_
          split_ifs
          · trivial
          · exact forall_query (hN.insertRetrospective _ _ _) _
        · trivial
  | putPreference category body => exact run (forall_putPreference hC category body)
  | deletePreference category => exact run (forall_deletePreference hC category)
  | seedPreferences entries => exact run (forall_seedFrom hC 0 entries)
  | patchSettings body => exact run (forall_patchSettings hC body)
  | call ctx today call =>
    rw [hreq] at hv
    exact run (forall_callTool hC S _ hv)

/-- The same of a run. -/
theorem serve_keeps {I : Db → Prop} (hreserve : ∀ d w, I d → I (Db.reserve d w))
    (hC : Covers (Prog.Keeping I)) (hN : CoversNotes (Prog.Keeping I)) (vs : List Visit)
    {c : Db × σ} (h : I c.1) : I (serve S ans c vs).1 := by
  induction vs generalizing c with
  | nil => exact h
  | cons v vs ih => exact ih (visit_keeps S ans hreserve hC (Or.inr hN) h)

end

end Veckomenyn.Writers
