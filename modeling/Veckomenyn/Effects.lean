import Veckomenyn.Agent
import Veckomenyn.Wp

/-!
What the agent's tools write.

Each row a tool writes is one it may write in its chat: a row of the plan of the chat, a row
of a draft plan where the menu is concerned, or a row nobody had before. What a call does is
a run of statements that write such rows.
-/

namespace Veckomenyn.Effects

open Rows Schema Sql Store Txn WkCtx Tools CartTools ReadTools Agent

/-- The chat may touch the plan `k`. -/
def InScope (ctx : Ctx) (k : ℤ) : Prop := 0 < ctx.weekId → k = ctx.weekId

def MayEdit (ctx : Ctx) (d : Db) (k : ℤ) : Prop :=
  InScope ctx k ∧ ∃ w, d.weeks.find? k = some w ∧ w.status = .draft

def MayRate (ctx : Ctx) (d : Db) (dinnerId : ℤ) : Prop :=
  ∃ r, d.dinners.find? dinnerId = some r ∧ InScope ctx r.weekId

/-- The row `r` is new, or has the owner of the row it replaces. -/
def KeepsOwner {α β : Type} [Keyed α] (t : Table α) (owner : α → β) (r : α) : Prop :=
  t.next ≤ Keyed.key r ∨ ∃ r', t.find? (Keyed.key r) = some r' ∧ owner r' = owner r

/-- The rows a tool may write in a chat, during a call that sets the plan `reopened` to draft. -/
def Allowed (ctx : Ctx) (reopened : Option ℤ) (d : Db) : Write → Prop
  | .week (.put w) => d.weeks.next ≤ w.id ∨ InScope ctx w.id ∧ ∃ w', d.weeks.find? w.id = some w' ∧
      (w.status = .draft → w'.status = .draft ∨ reopened = some w.id)
  | .week (.del _) => False
  | .dinner (.put r) => MayEdit ctx d r.weekId ∧ KeepsOwner d.dinners Dinner.weekId r
  | .dinner (.del k) => ∃ r, d.dinners.find? k = some r ∧ MayEdit ctx d r.weekId
  | .exception (.put r) => MayEdit ctx d r.weekId ∧ KeepsOwner d.exceptions WeekException.weekId r
  | .exception (.del k) => ∃ r, d.exceptions.find? k = some r ∧ MayEdit ctx d r.weekId
  | .retrospective (.put r) => InScope ctx r.weekId ∧ d.retrospectives.next ≤ r.id
  | .retrospective (.del _) => False
  | .rating (.put r) => MayRate ctx d r.weekDinnerId ∧ KeepsOwner d.ratings Rating.weekDinnerId r
  | .rating (.del k) => ∃ r, d.ratings.find? k = some r ∧ MayRate ctx d r.weekDinnerId
  | .cartItem (.put r) => 0 < ctx.weekId ∧ r.weekId = some ctx.weekId ∧ d.cartItems.next ≤ r.id
  | .cartItem (.del k) => ∃ r, d.cartItems.find? k = some r ∧ r.weekId = some ctx.weekId
  | .dish (.put r) => d.dishes.next ≤ r.id
  | .dish (.del _) => False
  | .principle _ => True
  | .settings _ => True

/-- One database comes from the other by statements that write allowed rows, and by counters
a transaction raised before it was rolled back. -/
inductive Reach (ctx : Ctx) (reopened : Option ℤ) (d : Db) : Db → Prop
  | refl : Reach ctx reopened d d
  | stmt {v : Db} {ws : List Write} : Reach ctx reopened d v →
      (∀ w ∈ ws, Allowed ctx reopened v w) → Reach ctx reopened d (applyAll v ws)
  | rows {v v' : Db} : Reach ctx reopened d v → SameRows v v' → Reach ctx reopened d v'

variable {ctx : Ctx} {reopened : Option ℤ} {d v : Db} {α β : Type}

lemma Reach.trans {a b c : Db} (h : Reach ctx reopened a b) (h' : Reach ctx reopened b c) :
    Reach ctx reopened a c := by
  induction h' with
  | refl => exact h
  | stmt _ hw ih => exact ih.stmt hw
  | rows _ hs ih => exact ih.rows hs

/-! ### Programs that act, and programs that only check -/

def Acts (ctx : Ctx) (reopened : Option ℤ) (x : ShopProg α) (d : Db) : Prop :=
  x.wp (fun _ => Reach ctx reopened d) (fun _ => Reach ctx reopened d) d

/-- The database stays, and what comes out is in `T`. -/
def Checks (x : ShopProg α) (d : Db) (T : α → Prop) : Prop :=
  x.wp (fun a v => v = d ∧ T a) (fun _ v => v = d) d

lemma acts_pure (a : α) : Acts ctx reopened (pure a) d := Reach.refl
lemma acts_fail (e : ToolError) : Acts ctx reopened (Prog.fail e : ShopProg α) d := Reach.refl

lemma Acts.bind {x : ShopProg α} {f : α → ShopProg β} (hx : Acts ctx reopened x d)
    (hf : ∀ a v, Acts ctx reopened (f a) v) : Acts ctx reopened (x >>= f) d := by
  refine Prog.wp_bind_of hx (fun a v hv => ?_) fun _ _ hv => hv
  exact Prog.wp_mono (fun _ _ h => hv.trans h) (fun _ _ h => hv.trans h) (hf a v)

lemma Checks.bind_acts {x : ShopProg α} {f : α → ShopProg β} {T : α → Prop} (hx : Checks x d T)
    (hf : ∀ a, T a → Acts ctx reopened (f a) d) : Acts ctx reopened (x >>= f) d := by
  refine Prog.wp_bind_of hx ?_ ?_
  · rintro a _ ⟨rfl, ha⟩
    exact hf a ha
  · rintro e _ rfl
    exact Reach.refl

lemma Checks.bind {x : ShopProg α} {f : α → ShopProg β} {T : α → Prop} {U : β → Prop}
    (hx : Checks x d T) (hf : ∀ a, T a → Checks (f a) d U) : Checks (x >>= f) d U := by
  refine Prog.wp_bind_of hx ?_ fun _ _ h => h
  rintro a _ ⟨rfl, ha⟩
  exact hf a ha

lemma Checks.acts {x : ShopProg α} {T : α → Prop} (hx : Checks x d T) :
    Acts ctx reopened x d := by
  refine Prog.wp_mono ?_ ?_ hx
  · rintro a _ ⟨rfl, -⟩
    exact Reach.refl
  · rintro e _ rfl
    exact Reach.refl

lemma checks_pure {a : α} {T : α → Prop} (h : T a) : Checks (pure a) d T := ⟨rfl, h⟩
lemma checks_fail {e : ToolError} {T : α → Prop} : Checks (Prog.fail e : ShopProg α) d T := rfl

lemma checks_request (q : Call) : Checks (Prog.request q) d fun _ => True := fun _ => ⟨rfl, trivial⟩

lemma checks_select (l : Label) (f : Db → β) (fail : DbError → ToolError) :
    Checks (Prog.query (select l f) fail) d fun b => b = f d := by
  refine (Prog.wp_query _ _ _).mpr ⟨fun e h => ?_, fun ws b h => ?_⟩
  · cases h
  · cases h
    exact ⟨rfl, rfl⟩

lemma checks_queryRow (l : Label) (f : Db → Option β) :
    Checks (queryRow (select l f)) d fun b => f d = some b := by
  refine (checks_select l f _).bind fun o ho => ?_
  cases o with
  | none => exact checks_fail
  | some b => exact checks_pure ho.symm

lemma checks_unmarshal (input : Option α) : Checks (unmarshal input) d fun i => input = some i := by
  cases input with
  | none => exact checks_fail
  | some i => exact checks_pure rfl

lemma checks_orFail (r : Except ToolError α) : Checks (orFail r) d fun a => r = .ok a := by
  cases r with
  | error e => exact checks_fail
  | ok a => exact checks_pure rfl

lemma checks_ask {r : ShopProg (Except String α)} {T : Except String α → Prop}
    (h : Checks r d T) : Checks (ask r) d fun _ => True := by
  refine h.bind fun a _ => ?_
  cases a with
  | error e => exact checks_fail
  | ok a => exact checks_pure trivial

/-- A statement acts by the rows it writes. -/
lemma acts_query {s : Stmt β} {fail : DbError → ToolError}
    (h : ∀ ws b, s.run d = .ok (ws, b) → ∀ w ∈ ws, Allowed ctx reopened d w) :
    Acts ctx reopened (Prog.query s fail) d :=
  (Prog.wp_query _ _ _).mpr ⟨fun _ _ => Reach.refl, fun ws b hs => Reach.refl.stmt (h ws b hs)⟩

lemma acts_transaction {body : Tx ToolError α}
    (h : body.wp (fun _ => Reach ctx reopened d) (fun _ _ => True) d) :
    Acts ctx reopened (Prog.transaction body) d :=
  Prog.wp_transaction (Tx.wp_mono (fun _ _ hv => hv)
    (fun _ _ _ ws => Reach.refl.rows (sameRows_reserveAll d ws)) h)

/-! ### The guards -/

lemma inScope_of_resolvePlan {k id : ℤ} (h : resolvePlan ctx k = .ok id) : InScope ctx id := by
  intro hc
  rw [resolvePlan, if_pos hc] at h
  split_ifs at h
  exact (Except.ok.inj h).symm

lemma checks_ensureEditable (id : ℤ) : Checks (ensureEditable id) d fun _ =>
    ∃ w, d.weeks.find? id = some w ∧ w.status = .draft := by
  refine (checks_queryRow .weekStatus _).bind fun status hs => ?_
  obtain ⟨w, hw, rfl⟩ := Option.map_eq_some_iff.mp hs
  simp only [ne_eq, Status.text_eq_draft]
  split_ifs with hd
  · exact checks_pure ⟨w, hw, hd⟩
  · exact checks_fail

lemma checks_dinnerInScope (id : ℤ) : Checks (checkDinnerInScope ctx id) d fun _ =>
    ∀ r, d.dinners.find? id = some r → InScope ctx r.weekId := by
  rw [checkDinnerInScope]
  split_ifs with hc
  · exact checks_pure fun r _ h => by omega
  · refine (checks_queryRow .dinnerWeek _).bind fun weekId hk => ?_
    split_ifs with hne
    · exact checks_fail
    · refine checks_pure fun r hr _ => ?_
      rw [hr, Option.map_some, Option.some.injEq] at hk
      omega

lemma checks_ensureDinnerEditable (id : ℤ) : Checks (ensureDinnerEditable ctx id) d fun _ =>
    ∃ r, d.dinners.find? id = some r ∧ MayEdit ctx d r.weekId := by
  refine (checks_dinnerInScope id).bind fun _ hs => ?_
  refine (checks_queryRow .dinnerWeek _).bind fun weekId hk => ?_
  obtain ⟨r, hr, rfl⟩ := Option.map_eq_some_iff.mp hk
  refine Prog.wp_mono ?_ (fun _ _ h => h) (checks_ensureEditable r.weekId)
  rintro _ _ ⟨rfl, hw⟩
  exact ⟨rfl, r, hr, hs r hr, hw⟩

lemma checks_ensureExceptionEditable (id : ℤ) : Checks (ensureExceptionEditable ctx id) d fun _ =>
    ∃ r, d.exceptions.find? id = some r ∧ MayEdit ctx d r.weekId := by
  refine (checks_queryRow .exceptionWeek _).bind fun weekId hk => ?_
  obtain ⟨r, hr, rfl⟩ := Option.map_eq_some_iff.mp hk
  split_ifs with hne
  · exact checks_fail
  · refine Prog.wp_mono ?_ (fun _ _ h => h) (checks_ensureEditable r.weekId)
    rintro _ _ ⟨rfl, hw⟩
    exact ⟨rfl, r, hr, fun hc => by omega, hw⟩

/-! ### The statements -/

section

variable {ws : List Write} {pg : Pg} {now : ℤ}

lemma KeepsOwner.of_find [Keyed α] {t : Table α} {owner : α → β} {r r' : α} {k : ℤ}
    (h : t.find? k = some r') (hk : Keyed.key r = k) (ho : owner r' = owner r) :
    KeepsOwner t owner r := Or.inr ⟨r', hk ▸ h, ho⟩

lemma insertDish_writes {name cuisine recipeMd : String} {servings : ℤ} {tags day : String} {id : ℤ}
    (h : (insertDish pg name cuisine recipeMd servings tags day).run d = .ok (ws, id)) :
    ∃ r : Dish, ws = [.dish (.put r)] ∧ r.id = d.dishes.next := by
  obtain ⟨_, -, h⟩ := exists_of_bind h
  obtain ⟨_, -, h⟩ := exists_of_bind h
  obtain ⟨_, -, h⟩ := exists_of_bind h
  cases h
  exact ⟨_, rfl, rfl⟩

lemma insertDinner_writes {weekId : ℤ} {day : String} {dishId servings : ℤ}
    {sourcing notes : String} {id : ℤ}
    (h : (insertDinner pg weekId day dishId servings sourcing notes).run d = .ok (ws, id)) :
    ∃ r : Dinner, ws = [.dinner (.put r)] ∧ r.id = d.dinners.next ∧ r.weekId = weekId := by
  obtain ⟨_, -, h⟩ := exists_of_bind h
  obtain ⟨_, -, h⟩ := exists_of_bind h
  obtain ⟨_, -, h⟩ := exists_of_bind h
  obtain ⟨_, -, h⟩ := exists_of_bind h
  obtain ⟨_, -, h⟩ := exists_of_bind h
  cases h
  exact ⟨_, rfl, rfl, rfl⟩

lemma repointDinner_writes {dinnerId dishId servings : ℤ} {sourcing notes : String}
    (h : (repointDinner pg dinnerId dishId servings sourcing notes).run d = .ok (ws, ())) :
    ws = [] ∨ ∃ r r' : Dinner, d.dinners.find? dinnerId = some r ∧ ws = [.dinner (.put r')] ∧
      r'.id = r.id ∧ r'.weekId = r.weekId := by
  obtain ⟨_, -, h⟩ := exists_of_bind h
  obtain ⟨_, -, h⟩ := exists_of_bind h
  rcases hr : d.dinners.find? dinnerId with _ | r <;> rw [hr] at h
  · cases h
    exact Or.inl rfl
  · obtain ⟨_, -, h⟩ := exists_of_bind h
    cases h
    exact Or.inr ⟨r, _, rfl, rfl, rfl, rfl⟩

lemma insertWeek_writes {isoWeek start finish delivery order notes : String} {id : ℤ}
    (h : (insertWeek pg now isoWeek start finish delivery order notes).run d = .ok (ws, id)) :
    ∃ w : Week, ws = [.week (.put w)] ∧ w.id = d.weeks.next := by
  obtain ⟨_, -, h⟩ := exists_of_bind h
  obtain ⟨_, -, h⟩ := exists_of_bind h
  obtain ⟨_, -, h⟩ := exists_of_bind h
  obtain ⟨_, -, h⟩ := exists_of_bind h
  cases h
  exact ⟨_, rfl, rfl⟩

/-- A dinner is deleted with its ratings. -/
lemma deleteDinner_allowed {dinnerId : ℤ} {r : Dinner} {n : ℕ}
    (hr : d.dinners.find? dinnerId = some r) (hm : MayEdit ctx d r.weekId)
    (h : (deleteDinner dinnerId).run d = .ok (ws, n)) : ∀ w ∈ ws, Allowed ctx reopened d w := by
  simp only [deleteDinner, hr, Except.ok.injEq, Prod.mk.injEq] at h
  rw [← h.1]
  intro w hw
  simp only [deleteDinners, ratingsOf, List.map_cons, List.map_nil, List.mem_append,
    List.mem_cons, List.not_mem_nil, or_false, List.mem_map, List.mem_filter,
    decide_eq_true_eq] at hw
  rcases hw with rfl | ⟨_, ⟨_, ⟨x, ⟨hx, hk⟩, rfl⟩, rfl⟩, rfl⟩
  · exact ⟨r, hr, hm⟩
  · exact ⟨x, Table.find?_eq_some.mpr ⟨hx, rfl⟩, r, hk ▸ hr, hm.1⟩

lemma upsertRating_allowed {dinnerId : ℤ} {rating notes : String} (hm : MayRate ctx d dinnerId)
    (h : (upsertRating dinnerId rating notes).run d = .ok (ws, ())) :
    ∀ w ∈ ws, Allowed ctx reopened d w := by
  simp only [upsertRating] at h
  rcases hv : Verdict.ofText rating with _ | verdict <;> rw [hv] at h
  · cases h
  · obtain ⟨_, -, h⟩ := exists_of_bind h
    rcases hr : d.ratings.rows.find? (fun r => r.weekDinnerId = dinnerId) with _ | r <;>
      rw [hr] at h <;> cases h <;> intro w hw <;> cases List.mem_singleton.mp hw
    · exact ⟨hm, Or.inl le_rfl⟩
    · have hmem := List.mem_of_find?_eq_some hr
      have hd : r.weekDinnerId = dinnerId := by simpa using List.find?_some hr
      exact ⟨by simpa only [hd] using hm,
        KeepsOwner.of_find (Table.find?_eq_some.mpr ⟨hmem, rfl⟩) rfl rfl⟩

lemma updateWeekStmt_allowed {id : ℤ} {u : WeekUpdate} {n : ℕ} (hid : InScope ctx id)
    (ho : u.status = some "draft" → reopened = some id)
    (h : (updateWeekStmt pg now id u).run d = .ok (ws, n)) :
    ∀ w ∈ ws, Allowed ctx reopened d w := by
  rcases updateWeekStmt_ok h with ⟨-, rfl, -⟩ | ⟨w, w', s, hw, hs, hw', rfl, -⟩
  · simp
  · have hu := updated_of_assign hs hw'
    have hwid : w.id = id := (Table.find?_eq_some.mp hw).2
    have hst := hu.status
    intro x hx
    cases List.mem_singleton.mp hx
    refine Or.inr ⟨by rwa [hu.id, hwid], w, by rw [hu.id, hwid, hw], fun hd => ?_⟩
    rw [hd] at hst
    unfold StatusSet at hst
    split at hst
    · exact Or.inl hst.symm
    · rename_i t ht
      refine Or.inr ?_
      rw [ho (ht.trans (congrArg some (Status.text_of_ofText hst).symm)), hu.id, hwid]

end

/-! ### The tools -/

section

variable (pg : Pg) (now : ℤ)

lemma acts_updateWeekTool (input : Option UpdateWeekInput) (today : ℤ) (d : Db) :
    Acts ctx ((⟨ctx, now, today, .updateWeek input⟩ : Turn).reopened d)
      (updateWeekTool pg now ctx input) d := by
  refine (checks_unmarshal input).bind_acts fun i hi => ?_
  subst hi
  have hlook : Checks (lookUpWeek i) d fun o =>
      o = if i.weekId = 0 ∧ i.isoWeek ≠ "" then latestWith i.isoWeek d else some i.weekId := by
    rw [lookUpWeek]
    split_ifs
    · exact checks_select .weekByIso _ _
    · exact checks_pure rfl
  refine hlook.bind_acts fun o ho => ?_
  rcases o with _ | k
  · exact acts_pure _
  · refine (checks_orFail _).bind_acts fun id hid => ?_
    have htarget : target ctx i d = some id := by
      rw [target, ← ho, Option.bind_some, hid]
      rfl
    refine Acts.bind ?_ fun n v => ?_
    · rw [updateWeek]
      split_ifs
      · exact acts_pure _
      · refine acts_query fun ws n hs => updateWeekStmt_allowed (inScope_of_resolvePlan hid) ?_ hs
        intro hd
        show (if i.status = some "draft" then target ctx i d else none) = some id
        rw [if_pos (show i.status = some "draft" from hd), htarget]
    · split_ifs <;> exact acts_pure _

lemma acts_updatePreferenceTool (input : Option PreferenceInput) :
    Acts ctx reopened (updatePreferenceTool input) d := by
  refine (checks_unmarshal input).bind_acts fun i _ => ?_
  refine Acts.bind (acts_transaction ?_) fun _ _ => acts_pure _
  refine (Tx.wp_bind _ _ _).mpr ((Tx.wp_query _ _ _).mpr ⟨fun _ _ => trivial, fun ws _ h => ?_⟩)
  have hdel : ∀ w ∈ ws, Allowed ctx reopened d w := by
    cases h
    intro w hw
    obtain ⟨x, -, rfl⟩ := List.mem_map.mp hw
    trivial
  refine (Tx.wp_query _ _ _).mpr ⟨fun _ _ => trivial, fun ws' _ h' => (Reach.refl.stmt hdel).stmt ?_⟩
  cases h'
  intro w hw
  cases List.mem_singleton.mp hw
  trivial

lemma acts_updateHouseholdSettingsTool (input : Option SettingsInput) :
    Acts ctx reopened (updateHouseholdSettingsTool input) d := by
  refine (checks_unmarshal input).bind_acts fun i _ => ?_
  refine Acts.bind ?_ fun _ _ => acts_pure _
  rw [updateHouseholdSettings]
  split_ifs
  · exact acts_pure _
  · refine acts_query fun ws _ h => ?_
    obtain ⟨_, -, h⟩ := exists_of_bind h
    obtain ⟨_, -, h⟩ := exists_of_bind h
    obtain ⟨_, -, h⟩ := exists_of_bind h
    obtain ⟨_, -, h⟩ := exists_of_bind h
    split_ifs at h
    cases h
    intro w hw
    cases List.mem_singleton.mp hw
    trivial

lemma acts_createWeekTool (input : Option CreateWeekInput) :
    Acts ctx reopened (createWeekTool pg now input) d := by
  refine (checks_unmarshal input).bind_acts fun i _ => ?_
  refine Acts.bind (acts_query fun ws _ h => ?_) fun _ _ => acts_pure _
  obtain ⟨w, rfl, hid⟩ := insertWeek_writes h
  intro x hx
  cases List.mem_singleton.mp hx
  exact Or.inl hid.ge

lemma acts_addDinnerTool (quote : String → String) (input : Option AddDinnerInput) :
    Acts ctx reopened (addDinnerTool pg quote ctx input) d := by
  refine (checks_unmarshal input).bind_acts fun i _ => ?_
  refine (checks_orFail _).bind_acts fun weekId hk => ?_
  refine (checks_ensureEditable weekId).bind_acts fun _ hw => ?_
  refine Acts.bind (acts_transaction ?_) fun _ _ => acts_pure _
  refine (Tx.wp_bind _ _ _).mpr ((Tx.wp_query _ _ _).mpr ⟨fun _ _ => trivial, fun ws _ h => ?_⟩)
  refine (Tx.wp_bind _ _ _).mpr ((Tx.wp_query _ _ _).mpr ⟨fun _ _ => trivial, fun ws' _ h' => ?_⟩)
  obtain ⟨dish, rfl, hdish⟩ := insertDish_writes h
  obtain ⟨r, rfl, hr, hrw⟩ := insertDinner_writes h'
  refine (Reach.refl.stmt fun w hw => ?_).stmt fun w hw => ?_
  · cases List.mem_singleton.mp hw
    exact hdish.ge
  · cases List.mem_singleton.mp hw
    -- the dish has changed no plan
    exact ⟨hrw ▸ ⟨inScope_of_resolvePlan hk, ‹_›⟩, Or.inl hr.ge⟩

lemma acts_updateDinnerTool (input : Option UpdateDinnerInput) :
    Acts ctx reopened (updateDinnerTool pg ctx input) d := by
  refine (checks_unmarshal input).bind_acts fun i _ => ?_
  refine (checks_ensureDinnerEditable i.dinnerId).bind_acts ?_
  rintro _ ⟨r, hr, hm⟩
  refine Acts.bind (acts_transaction ?_) fun _ _ => acts_pure _
  refine (Tx.wp_bind _ _ _).mpr ((Tx.wp_query _ _ _).mpr ⟨fun _ _ => trivial, fun ws o h => ?_⟩)
  cases h
  simp only [applyAll_nil, hr, Option.map_some]
  refine (Tx.wp_bind _ _ _).mpr ((Tx.wp_query _ _ _).mpr ⟨fun _ _ => trivial, fun ws _ h => ?_⟩)
  refine (Tx.wp_bind _ _ _).mpr ((Tx.wp_query _ _ _).mpr ⟨fun _ _ => trivial, fun ws' _ h' => ?_⟩)
  obtain ⟨dish, rfl, hdish⟩ := insertDish_writes h
  refine (Reach.refl.stmt fun w hw => ?_).stmt fun w hw => ?_
  · cases List.mem_singleton.mp hw
    exact hdish.ge
  · rcases repointDinner_writes h' with rfl | ⟨r₀, r', hr₀, rfl, hid, hk⟩
    · cases hw
    · cases List.mem_singleton.mp hw
      have hr' : d.dinners.find? i.dinnerId = some r₀ := hr₀
      cases hr.symm.trans hr'
      exact ⟨hk ▸ hm, KeepsOwner.of_find hr (hid.trans (Table.find?_eq_some.mp hr).2) hk.symm⟩

lemma acts_deleteDinnerTool (input : Option ℤ) :
    Acts ctx reopened (deleteDinnerTool ctx input) d := by
  refine (checks_unmarshal input).bind_acts fun id _ => ?_
  refine (checks_ensureDinnerEditable id).bind_acts ?_
  rintro _ ⟨r, hr, hm⟩
  refine Acts.bind (acts_query fun ws n h => deleteDinner_allowed hr hm h) fun n v => ?_
  split_ifs <;> exact acts_pure _

lemma acts_addExceptionTool (input : Option AddExceptionInput) :
    Acts ctx reopened (addExceptionTool ctx input) d := by
  refine (checks_unmarshal input).bind_acts fun i _ => ?_
  refine (checks_orFail _).bind_acts fun weekId hk => ?_
  refine (checks_ensureEditable weekId).bind_acts fun _ hw => ?_
  refine Acts.bind (acts_query fun ws _ h => ?_) fun _ _ => acts_pure _
  obtain ⟨_, -, h⟩ := exists_of_bind h
  cases h
  intro w hx
  cases List.mem_singleton.mp hx
  exact ⟨⟨inScope_of_resolvePlan hk, hw⟩, Or.inl le_rfl⟩

lemma acts_updateExceptionTool (input : Option UpdateExceptionInput) :
    Acts ctx reopened (updateExceptionTool ctx input) d := by
  refine (checks_unmarshal input).bind_acts fun i _ => ?_
  split_ifs
  · exact acts_fail _
  · refine (checks_ensureExceptionEditable i.exceptionId).bind_acts ?_
    rintro _ ⟨r, hr, hm⟩
    refine Acts.bind (acts_query fun ws _ h => ?_) fun _ _ => acts_pure _
    simp only [updateException, hr, Except.ok.injEq, Prod.mk.injEq] at h
    rw [← h.1]
    intro w hw
    cases List.mem_singleton.mp hw
    exact ⟨hm, KeepsOwner.of_find hr (Table.find?_eq_some.mp hr).2 rfl⟩

lemma acts_deleteExceptionTool (input : Option ℤ) :
    Acts ctx reopened (deleteExceptionTool ctx input) d := by
  refine (checks_unmarshal input).bind_acts fun id _ => ?_
  refine (checks_ensureExceptionEditable id).bind_acts ?_
  rintro _ ⟨r, hr, hm⟩
  refine Acts.bind (acts_query fun ws _ h => ?_) fun _ _ => acts_pure _
  simp only [deleteException, hr, Except.ok.injEq, Prod.mk.injEq] at h
  rw [← h.1]
  intro w hw
  cases List.mem_singleton.mp hw
  exact ⟨r, hr, hm⟩

/-- Each rating goes to a dinner of the plan, however many ratings come before it. -/
lemma rateDinners_wp {weekId : ℤ} (hk : InScope ctx weekId) (rs : List RatingInput)
    (h : Reach ctx reopened d v) :
    (rateDinners weekId rs).wp (fun _ => Reach ctx reopened d) (fun _ _ => True) v := by
  induction rs generalizing v with
  | nil => exact h
  | cons r rs ih =>
    refine (Tx.wp_bind _ _ _).mpr ((Tx.wp_bind _ _ _).mpr ((Tx.wp_query _ _ _).mpr
      ⟨fun _ _ => trivial, fun ws o ho => ?_⟩))
    cases ho
    rcases hr : v.dinners.find? r.dinnerId with _ | x <;>
      simp only [applyAll_nil, hr, Option.map_none, Option.map_some]
    · exact trivial
    · split_ifs with hne
      · exact trivial
      · refine (Tx.wp_query _ _ _).mpr ⟨fun _ _ => trivial, fun ws _ hs => ?_⟩
        have hm : MayRate ctx v r.dinnerId := ⟨x, hr, by rwa [not_not.mp hne]⟩
        exact ih (h.stmt (upsertRating_allowed hm hs))

lemma acts_recordRetrospectiveTool (input : Option RetrospectiveInput) :
    Acts ctx reopened (recordRetrospectiveTool now ctx input) d := by
  refine (checks_unmarshal input).bind_acts fun i _ => ?_
  refine (checks_orFail _).bind_acts fun weekId hk => ?_
  refine Acts.bind (acts_transaction ?_) fun _ _ => acts_pure _
  refine (Tx.wp_bind _ _ _).mpr ((Tx.wp_query _ _ _).mpr ⟨fun _ _ => trivial, fun ws _ h => ?_⟩)
  obtain ⟨_, -, h⟩ := exists_of_bind h
  cases h
  refine rateDinners_wp (inScope_of_resolvePlan hk) _ (Reach.refl.stmt fun w hw => ?_)
  cases List.mem_singleton.mp hw
  exact ⟨inScope_of_resolvePlan hk, le_rfl⟩

/-! ### The shopping list -/

lemma acts_mirror {s : Stmt Unit} (what : String)
    (h : ∀ ws, s.run d = .ok (ws, ()) → ∀ w ∈ ws, Allowed ctx reopened d w) :
    Acts ctx reopened (mirror s what) d := by
  refine (Prog.wp_bind _ _ _).mpr ((Prog.wp_tried _ _).mpr ⟨fun e _ => ?_, fun ws _ hs => ?_⟩)
  · exact fun _ => Reach.refl
  · exact Reach.refl.stmt (h ws hs)

lemma acts_inPlan {x : ShopProg Unit} (h : 0 < ctx.weekId → Acts ctx reopened x d) :
    Acts ctx reopened (inPlan ctx x) d := by
  rw [inPlan]
  split_ifs with hc
  · exact h hc
  · exact acts_pure _

lemma acts_insertCartItem (hc : 0 < ctx.weekId) (code : String) (qty : ℤ) (reason : String)
    (snapshot : Option Snapshot) (what : String) :
    Acts ctx reopened (mirror (insertCartItem now ctx.weekId code qty reason snapshot) what) d := by
  refine acts_mirror what fun ws h => ?_
  obtain ⟨_, -, h⟩ := exists_of_bind h
  obtain ⟨_, -, h⟩ := exists_of_bind h
  cases h
  intro w hw
  cases List.mem_singleton.mp hw
  exact ⟨hc, rfl, le_rfl⟩

lemma acts_deleteCartItems {p : CartItem → Bool} (hp : ∀ r, p r = true → r.weekId = some ctx.weekId)
    (what : String) : Acts ctx reopened (mirror (deleteCartItems p) what) d := by
  refine acts_mirror what fun ws h => ?_
  cases h
  intro w hw
  simp only [List.mem_map, List.mem_filter] at hw
  obtain ⟨_, ⟨_, ⟨r, ⟨hr, hpr⟩, rfl⟩, rfl⟩, rfl⟩ := hw
  exact ⟨r, Table.find?_eq_some.mpr ⟨hr, rfl⟩, hp r hpr⟩

lemma acts_recordAll (hc : 0 < ctx.weekId) (cart : Cart) (items : List CartAddInput) :
    Acts ctx reopened (recordAll now ctx.weekId cart items) d := by
  induction items generalizing d with
  | nil => exact acts_pure _
  | cons i is ih => exact Acts.bind (acts_insertCartItem now hc _ _ _ _ _) fun _ _ => ih

lemma checks_addAll (items : List CartAddInput) : Checks (addAll items) d fun _ => True := by
  induction items with
  | nil => exact checks_pure trivial
  | cons i is ih =>
    refine (checks_request _).bind fun r _ => ih.bind fun rest _ => ?_
    cases r <;> exact checks_pure trivial

lemma acts_shopCartAddTool (input : Option CartAddInput) :
    Acts ctx reopened (shopCartAddTool now ctx input) d := by
  refine (checks_unmarshal input).bind_acts fun i _ => ?_
  refine (checks_ask (checks_request _)).bind_acts fun cart _ => ?_
  exact Acts.bind (acts_inPlan fun hc => acts_insertCartItem now hc _ _ _ _ _) fun _ _ => acts_pure _

lemma acts_shopCartAddManyTool (input : Option (List CartAddInput)) :
    Acts ctx reopened (shopCartAddManyTool now ctx input) d := by
  refine (checks_unmarshal input).bind_acts fun items _ => ?_
  refine (checks_addAll items).bind_acts fun r _ => ?_
  refine (checks_ask (checks_request _)).bind_acts fun cart _ => ?_
  exact Acts.bind (acts_inPlan fun hc => acts_recordAll now hc cart _) fun _ _ => acts_pure _

lemma acts_shopCartRemoveTool (input : Option String) :
    Acts ctx reopened (shopCartRemoveTool ctx input) d := by
  refine (checks_unmarshal input).bind_acts fun code _ => ?_
  refine (checks_ask (checks_request _)).bind_acts fun cart _ => ?_
  exact Acts.bind (acts_inPlan fun _ => acts_deleteCartItems
    (fun r hr => (of_decide_eq_true hr).1) _) fun _ _ => acts_pure _

lemma acts_shopCartClearTool : Acts ctx reopened (shopCartClearTool ctx) d := by
  refine (checks_ask (checks_request _)).bind_acts fun cart _ => ?_
  exact Acts.bind (acts_inPlan fun _ => acts_deleteCartItems
    (fun r hr => of_decide_eq_true hr) _) fun _ _ => acts_pure _

/-! ### The tools that only read -/

lemma checks_dishesRecent (today n weekId : ℤ) :
    Checks (Prog.query (dishesRecent today n weekId) ToolError.db) d fun _ => True := by
  refine (Prog.wp_query _ _ _).mpr ⟨fun _ _ => rfl, fun ws lines h => ?_⟩
  obtain ⟨_, -, h⟩ := exists_of_bind h
  obtain ⟨_, -, h⟩ := exists_of_bind h
  split_ifs at h
  cases h
  exact ⟨rfl, trivial⟩

lemma checks_listDishesRecentTool (today : ℤ) (weeks : ℤ) :
    Checks (listDishesRecentTool today ctx weeks) d fun _ => True := by
  refine (checks_dishesRecent _ _ _).bind fun lines _ => ?_
  split_ifs <;> exact checks_pure trivial

lemma checks_readPreferencesTool (L : TextRules) :
    Checks (readPreferencesTool L) d fun _ => True := by
  refine (checks_select .read _ _).bind fun rows _ => ?_
  split_ifs <;> exact checks_pure trivial

lemma checks_readHouseholdSettingsTool (L : TextRules) :
    Checks (readHouseholdSettingsTool L) d fun _ => True :=
  (checks_select .read _ _).bind fun _ _ => checks_pure trivial

lemma checks_readIf (c : Prop) [Decidable c] (f : Db → List String) :
    Checks (readIf c (select .read f)) d fun _ => True := by
  rw [readIf]
  split_ifs
  · exact Prog.wp_mono (fun _ _ h => ⟨h.1, trivial⟩) (fun _ _ h => h) (checks_select .read f _)
  · exact checks_pure trivial

lemma checks_searchHistoryTool (L : TextRules) (input : Option SearchHistoryInput) :
    Checks (searchHistoryTool L ctx input) d fun _ => True := by
  refine (checks_unmarshal input).bind fun i _ => ?_
  split
  · exact checks_fail
  · refine (checks_readIf _ _).bind fun dinners _ => (checks_readIf _ _).bind fun items _ => ?_
    split <;> exact checks_pure trivial

lemma checks_listWeeksTool (limit : ℤ) : Checks (listWeeksTool limit) d fun _ => True := by
  refine (checks_select .read _ _).bind fun lines _ => ?_
  split_ifs <;> exact checks_pure trivial

lemma checks_getWeekTool (L : TextRules) (i : GetWeekInput) :
    Checks (getWeekTool L ctx i) d fun _ => True := by
  have hrow : Checks (getWeekRow ctx i) d fun _ => True := by
    rw [getWeekRow]
    split_ifs <;> first
      | exact checks_fail
      | exact Prog.wp_mono (fun _ _ h => ⟨h.1, trivial⟩) (fun _ _ h => h) (checks_select .read _ _)
  refine hrow.bind fun o _ => ?_
  rcases o with _ | w
  · exact checks_pure trivial
  · exact (checks_select .read _ _).bind fun _ _ => (checks_select .read _ _).bind fun _ _ =>
      (checks_select .read _ _).bind fun _ _ => (checks_select .read _ _).bind fun _ _ =>
        checks_pure trivial

lemma checks_shopSearchTool (quote : String → String) (input : Option SearchInput) :
    Checks (shopSearchTool quote input) d fun _ => True := by
  refine (checks_unmarshal input).bind fun i _ => ?_
  refine (checks_ask (checks_request _)).bind fun products _ => ?_
  split_ifs <;> exact checks_pure trivial

lemma checks_shopCartGetTool : Checks shopCartGetTool d fun _ => True :=
  (checks_ask (checks_request _)).bind fun _ _ => checks_pure trivial

lemma checks_shopOrdersRecentTool (limit : ℤ) :
    Checks (shopOrdersRecentTool limit) d fun _ => True := by
  refine (checks_ask (checks_request _)).bind fun orders _ => ?_
  split_ifs <;> exact checks_pure trivial

lemma checks_shopOrderDetailTool (input : Option String) :
    Checks (shopOrderDetailTool input) d fun _ => True :=
  (checks_unmarshal input).bind fun _ _ =>
    (checks_ask (checks_request _)).bind fun _ _ => checks_pure trivial

end

/-! ### Any call -/

lemma acts_shopping {S : Setup} {tool : ShopProg String} (name : String)
    (h : Acts ctx reopened tool d) : Acts ctx reopened (S.shopping name tool) d := by
  rw [Setup.shopping]
  split_ifs
  · exact h
  · exact acts_fail _

/-- **What a call does**: it runs statements that write rows its chat may write. -/
theorem acts_callTool (S : Setup) (t : Turn) (d : Db) :
    Acts t.ctx (t.reopened d) (callTool S t) d := by
  obtain ⟨ctx, now, today, call⟩ := t
  cases call with
  | readPreferences => exact (checks_readPreferencesTool _).acts
  | updatePreference i => exact acts_updatePreferenceTool i
  | readHouseholdSettings => exact (checks_readHouseholdSettingsTool _).acts
  | updateHouseholdSettings i => exact acts_updateHouseholdSettingsTool i
  | listDishesRecent weeks => exact (checks_listDishesRecentTool _ _).acts
  | searchHistory i => exact (checks_searchHistoryTool _ i).acts
  | listWeeks limit => exact (checks_listWeeksTool _).acts
  | getWeek i => exact (checks_getWeekTool _ i).acts
  | createWeek i => exact acts_createWeekTool _ _ i
  | updateWeek i => exact acts_updateWeekTool _ _ i _ d
  | addDinner i => exact acts_addDinnerTool _ _ i
  | updateDinner i => exact acts_updateDinnerTool _ i
  | deleteDinner i => exact acts_deleteDinnerTool i
  | addException i => exact acts_addExceptionTool i
  | updateException i => exact acts_updateExceptionTool i
  | deleteException i => exact acts_deleteExceptionTool i
  | recordRetrospective i => exact acts_recordRetrospectiveTool _ i
  | shopSearch i => exact acts_shopping _ (checks_shopSearchTool _ i).acts
  | shopCartGet => exact acts_shopping _ checks_shopCartGetTool.acts
  | shopCartAdd i => exact acts_shopping _ (acts_shopCartAddTool _ i)
  | shopCartAddMany i => exact acts_shopping _ (acts_shopCartAddManyTool _ i)
  | shopCartRemove i => exact acts_shopping _ (acts_shopCartRemoveTool i)
  | shopCartClear => exact acts_shopping _ acts_shopCartClearTool
  | shopOrdersRecent limit => exact acts_shopping _ (checks_shopOrdersRecentTool _).acts
  | shopOrderDetail i => exact acts_shopping _ (checks_shopOrderDetailTool i).acts
  | unknown name => exact acts_fail _

/-- What a call leaves behind comes from what was there. -/
theorem reach_turn {σ : Type} (S : Setup) (ans : (q : Call) → σ → Answer q × σ) (c : Db × σ)
    (t : Turn) : Reach t.ctx (t.reopened c.1) c.1 (turn S ans c t).1 := by
  have h := Prog.wp_run (acts_callTool S t c.1) ans c.2
  rw [turn]
  rcases hr : (callTool S t).run ans (c.1, c.2) with ⟨e | a, c'⟩ <;> rw [hr] at h <;> exact h

end Veckomenyn.Effects
