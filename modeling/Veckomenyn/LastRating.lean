import Veckomenyn.Conflict
import Veckomenyn.Dinners
import Veckomenyn.Refusals

/-!
What recording a retrospective leaves behind.

The row of the retrospective and the ratings are stored together or not at all. A dinner that is
listed more than once keeps the last of its ratings.
-/

namespace Veckomenyn.LastRating

open Rows Schema Sql Txn WkCtx Tools CartTools Refusals Conflict Dinners

/-- The unique index on `week_dinner_id`. -/
def OneRatingEach (d : Db) : Prop := Unique Rating.weekDinnerId d.ratings

/-- The ratings of a dinner. -/
def ratingsFor (d : Db) (k : ℤ) : List Rating := having Rating.weekDinnerId d.ratings k

/-- The last entry of the list that is for the dinner. -/
def lastFor (rs : List RatingInput) (k : ℤ) : Option RatingInput :=
  (rs.filter fun r => r.dinnerId = k).getLast?

/-- The row holds what the entry says. -/
def Holds (x : Rating) (r : RatingInput) : Prop :=
  x.rating = Verdict.ofText r.rating ∧ (Verdict.ofText r.rating).isSome = true ∧ x.notes = r.notes

/-- Ratings alone have changed. A dinner of the list has one, of its last entry, and any other has
those it had. -/
structure Rated (rs : List RatingInput) (d d' : Db) : Prop where
  rest : d' = { d with ratings := d'.ratings }
  unique : OneRatingEach d'
  listed : ∀ k r, lastFor rs k = some r → ∃ x, ratingsFor d' k = [x] ∧ Holds x r
  others : ∀ k, lastFor rs k = none → ratingsFor d' k = ratingsFor d k

/-- The plan is there, and each entry is a rating there is of a dinner of the plan. -/
structure Ratable (ctx : Ctx) (i : RetrospectiveInput) (d : Db) (W : ℤ) : Prop where
  plan : resolvePlan ctx i.weekId = .ok W
  there : d.weeks.Has W
  dinners : ∀ r ∈ i.ratings, dinnerPlan d r.dinnerId = some W
  ratings : ∀ r ∈ i.ratings, (Verdict.ofText r.rating).isSome = true

/-- One retrospective more, and the ratings of the list. -/
structure Recorded (now W : ℤ) (i : RetrospectiveInput) (d d' : Db) : Prop where
  rest : d' = { d with retrospectives := d'.retrospectives, ratings := d'.ratings }
  retrospective : d'.retrospectives.rows =
    d.retrospectives.rows ++ [⟨d.retrospectives.next, W, i.notes, now⟩]
  unique : OneRatingEach d'
  listed : ∀ k r, lastFor i.ratings k = some r → ∃ x, ratingsFor d' k = [x] ∧ Holds x r
  others : ∀ k, lastFor i.ratings k = none → ratingsFor d' k = ratingsFor d k

variable {d d' v : Db} {W now : ℤ} {r : RatingInput} {rs : List RatingInput} {e : ToolError}

/-! ### One entry after the other -/

lemma lastFor_one (r : RatingInput) (k : ℤ) :
    lastFor [r] k = if r.dinnerId = k then some r else none := by
  by_cases hk : r.dinnerId = k <;> simp [lastFor, hk]

lemma lastFor_cons (r : RatingInput) (rs : List RatingInput) (k : ℤ) :
    lastFor (r :: rs) k = (lastFor rs k).or (lastFor [r] k) := by
  rw [lastFor_one, lastFor, lastFor, List.filter_cons]
  by_cases hk : r.dinnerId = k
  · rw [if_pos (decide_eq_true hk), if_pos hk, List.getLast?_cons, Option.or_some]
  · rw [if_neg (by simpa using hk), if_neg hk, Option.or_none]

/-- A later entry takes the place of an earlier one. -/
lemma Rated.cons (h : Rated [r] d v) (h' : Rated rs v d') : Rated (r :: rs) d d' where
  rest := by
    calc d' = { v with ratings := d'.ratings } := h'.rest
      _ = { d with ratings := d'.ratings } := by rw [h.rest]
  unique := h'.unique
  listed k x hx := by
    rw [lastFor_cons] at hx
    rcases hl : lastFor rs k with _ | y
    · rw [hl, Option.none_or] at hx
      rw [h'.others k hl]
      exact h.listed k x hx
    · rw [hl, Option.some_or] at hx
      cases hx
      exact h'.listed k x hl
  others k hk := by
    rw [lastFor_cons, Option.or_eq_none_iff] at hk
    rw [h'.others k hk.1, h.others k hk.2]

/-- The ratings with this one in them. -/
def rate (t : Table Rating) (k : ℤ) (v : Verdict) (notes : String) : Table Rating :=
  upsert Rating.weekDinnerId t k (fun n => ⟨n, k, some v, notes⟩)
    fun x => { x with rating := some v, notes := notes }

lemma writes_rating (k : ℤ) (v : Verdict) (notes : String) :
    Writes Rating.weekDinnerId k (fun n => ⟨n, k, some v, notes⟩)
      fun x => { x with rating := some v, notes := notes } :=
  ⟨fun _ => rfl, fun _ => rfl, fun _ => rfl, fun _ => rfl⟩

lemma upsertRating_stores {k : ℤ} {rating : String} {v : Verdict} (notes : String)
    (hv : Verdict.ofText rating = some v) (hd : (dinnerPlan d k).isSome = true) :
    ∃ ws, (upsertRating k rating notes).run d = .ok (ws, ()) ∧
      applyAll d ws = { d with ratings := rate d.ratings k v notes } := by
  unfold rate upsert
  rcases hf : d.ratings.rows.find? fun x => x.weekDinnerId = k with _ | x
  · refine ⟨[.rating (.put ⟨d.ratings.next, k, some v, notes⟩)], ?_, ?_⟩
    · simp only [upsertRating, hv, references_dinner, hd, if_true, bind, Except.bind, hf]
    · simp only [hf]
      rfl
  · refine ⟨[.rating (.put { x with rating := some v, notes := notes })], ?_, ?_⟩
    · simp only [upsertRating, hv, references_dinner, hd, if_true, bind, Except.bind, hf]
    · simp only [hf]
      rfl

lemma rateError_eq_none {o : Option ℤ} : rateError W r o = none ↔
    o = some W ∧ (Verdict.ofText r.rating).isSome = true := by
  rcases o with _ | U
  · simp [rateError]
  · rw [rateError]
    split_ifs with hU hv
    · simp [hU]
    · simpa [not_not.mp hU] using hv
    · simpa [not_not.mp hU, Option.isSome_iff_ne_none] using hv

lemma rated_one {v : Verdict} (hv : Verdict.ofText r.rating = some v) (hu : OneRatingEach d) :
    Rated [r] d { d with ratings := rate d.ratings r.dinnerId v r.notes } := by
  have hw := writes_rating r.dinnerId v r.notes
  have hr : (Verdict.ofText r.rating).isSome = true := Option.isSome_iff_exists.mpr ⟨v, hv⟩
  refine ⟨rfl, hu.upsert hw, fun k x hx => ?_, fun k hk => ?_⟩
  · rw [lastFor_one] at hx
    split_ifs at hx with hk
    cases hx
    obtain ⟨x, hx, hnew⟩ := having_upsert hu hw
    refine ⟨x, hk ▸ hx, ?_⟩
    rcases hnew with rfl | ⟨y, rfl⟩
    · exact ⟨hv.symm, hr, rfl⟩
    · exact ⟨hv.symm, hr, rfl⟩
  · rw [lastFor_one] at hk
    split_ifs at hk with hne
    exact having_upsert_ne hw (Ne.symm hne)

/-- A rating that goes through is stored. -/
lemma rateDinner_rates (hd : dinnerPlan d r.dinnerId = some W)
    (hr : (Verdict.ofText r.rating).isSome = true) (hu : OneRatingEach d) :
    (rateDinner W r).wp (fun _ => Rated [r] d) (fun _ _ => False) d := by
  obtain ⟨v, hv⟩ := Option.isSome_iff_exists.mp hr
  obtain ⟨us, hus, hstate⟩ := upsertRating_stores r.notes hv (by rw [hd]; rfl)
  refine select_bind ?_
  change (d.dinners.find? r.dinnerId).map Dinner.weekId = some W at hd
  rw [hd]
  simp only [ne_eq, not_true_eq_false, if_false]
  refine (Tx.wp_query _ _ _).mpr ⟨fun e he => ?_, fun ws u hs => ?_⟩
  · rw [hus] at he
    cases he
  · rw [hus] at hs
    cases hs
    rw [hstate]
    exact rated_one hv hu

lemma Rated.dinnerPlan (h : Rated rs d d') (k : ℤ) : dinnerPlan d' k = dinnerPlan d k := by
  rw [h.rest]
  rfl

/-- The list is taken from the front; what is stored stands unless it is listed again. -/
lemma rateDinners_rates (hd : ∀ r ∈ rs, Refusals.dinnerPlan d r.dinnerId = some W)
    (hr : ∀ r ∈ rs, (Verdict.ofText r.rating).isSome = true) (hu : OneRatingEach d) :
    (rateDinners W rs).wp (fun _ => Rated rs d) (fun _ _ => False) d := by
  induction rs generalizing d with
  | nil => exact ⟨rfl, hu, fun _ _ h => (by cases h), fun _ _ => rfl⟩
  | cons r rs ih =>
    rw [rateDinners, Tx.wp_bind]
    have hfirst := rateDinner_rates (hd r List.mem_cons_self) (hr r List.mem_cons_self) hu
    refine Tx.wp_mono (fun _ v hv => ?_) (fun _ _ hf => hf) hfirst
    have hrest := ih (fun x hx => by rw [hv.dinnerPlan, hd x (List.mem_cons_of_mem _ hx)])
      (fun x hx => hr x (List.mem_cons_of_mem _ hx)) hv.unique
    exact Tx.wp_mono (fun _ _ h => hv.cons h) (fun _ _ hf => hf) hrest

/-! ### The transaction -/

/-- The transaction of the tool. -/
def recordTx (now W : ℤ) (i : RetrospectiveInput) : Tx ToolError Unit := do
  Tx.query (insertRetrospective now W i.notes) ToolError.db
  rateDinners W i.ratings

lemma recordTx_records {i : RetrospectiveInput} {ctx : Ctx} (h : Ratable ctx i d W)
    (hu : OneRatingEach d) :
    (recordTx now W i).wp (fun _ => Recorded now W i d) (fun _ _ => False) d := by
  have href : (d.weeks.find? W).isSome = true := by
    rw [Option.isSome_iff_ne_none, ne_eq, Table.find?_eq_none_iff, not_not]
    exact h.there
  refine (Tx.wp_bind _ _ _).mpr ((Tx.wp_query _ _ _).mpr ⟨fun e he => ?_, fun ws u hs => ?_⟩)
  · simp only [insertRetrospective, references, href, if_true, bind, Except.bind,
      reduceCtorEq] at he
  · simp only [insertRetrospective, references, href, if_true, bind, Except.bind] at hs
    cases hs
    refine Tx.wp_mono (fun _ v hv => ?_) (fun _ _ hf => hf)
      (rateDinners_rates h.dinners h.ratings hu)
    refine ⟨?_, ?_, hv.unique, hv.listed, hv.others⟩
    · rw [hv.rest]
      rfl
    · rw [hv.rest]
      exact Table.rows_put_new le_rfl

lemma ratingsError_eq_none {plan : ℤ → Option ℤ} : ratingsError W plan rs = none ↔
    ∀ r ∈ rs, plan r.dinnerId = some W ∧ (Verdict.ofText r.rating).isSome = true := by
  induction rs with
  | nil => simp [ratingsError]
  | cons r rs ih =>
    rw [ratingsError, Option.or_eq_none_iff, rateError_eq_none, ih, List.forall_mem_cons]

lemma recordTx_refuses (now : ℤ) {i : RetrospectiveInput} {ctx : Ctx}
    (hp : resolvePlan ctx i.weekId = .ok W) (h : ¬Ratable ctx i d W) : ∃ e, TxFails (recordTx now W i) d e := by
  rcases he : ratingsError W (dinnerPlan d) i.ratings with _ | e
  · have hall := ratingsError_eq_none.mp he
    have hno : ¬(d.weeks.find? W).isSome = true := by
      rw [Option.isSome_iff_ne_none, ne_eq, Table.find?_eq_none_iff, not_not]
      exact fun hw => h ⟨hp, hw, fun r hr => (hall r hr).1, fun r hr => (hall r hr).2⟩
    refine ⟨.db (.foreignKey "week_id"), (Tx.wp_bind _ _ _).mpr ((Tx.wp_query _ _ _).mpr
      ⟨fun e he => ?_, fun ws u hs => ?_⟩)⟩
    · simp only [insertRetrospective, references, hno, bind, Except.bind] at he
      cases he
      rfl
    · simp only [insertRetrospective, references, hno, if_false, bind, Except.bind,
        reduceCtorEq] at hs
  · exact ⟨_, recordTx_fails he⟩

/-! ### The tool -/

lemma stops_record (now : ℤ) {ctx : Ctx} {i : RetrospectiveInput} (h : ∀ W, ¬Ratable ctx i d W) :
    ∃ e, Stops (recordRetrospectiveTool now ctx (some i)) d e := by
  rcases hr : resolvePlan ctx i.weekId with e | W
  · refine ⟨e, ?_⟩
    rw [Stops, recordRetrospectiveTool, Prog.wp_bind, unmarshal, Prog.wp_pure, hr]
    exact stops_fail d e
  · obtain ⟨e, he⟩ := recordTx_refuses now hr (h W)
    refine ⟨e, ?_⟩
    rw [Stops, recordRetrospectiveTool, Prog.wp_bind, unmarshal, Prog.wp_pure, hr]
    exact (stops_transaction he).bind _

lemma wp_record (now : ℤ) {ctx : Ctx} {i : RetrospectiveInput} (h : Ratable ctx i d W)
    (hu : OneRatingEach d) :
    (recordRetrospectiveTool now ctx (some i) : ShopProg String).wp
      (fun _ => Recorded now W i d) (fun _ _ => False) d := by
  rw [recordRetrospectiveTool, Prog.wp_bind, unmarshal, Prog.wp_pure, h.plan]
  have htx : (Prog.transaction (recordTx now W i) : ShopProg Unit).wp
      (fun _ => Recorded now W i d) (fun _ _ => False) d :=
    Prog.wp_transaction (Tx.wp_mono (fun _ _ hv => hv) (fun _ _ hf => hf.elim)
      (recordTx_records h hu))
  change (Prog.transaction (recordTx now W i) >>= fun _ => pure _ : ShopProg String).wp _ _ d
  exact Prog.wp_bind_of htx (fun _ _ hv => hv) fun _ _ hf => hf

/-- The program answers, whatever the outside world does, and leaves a database in `P`. -/
def Succeeds (x : ShopProg String) (d : Db) (P : Db → Prop) : Prop :=
  ∀ (σ : Type) (ans : (q : Call) → σ → Answer q × σ) (s : σ), ∃ m v s',
    x.run ans (d, s) = (.ok m, v, s') ∧ P v

lemma succeeds_record {ctx : Ctx} {i : RetrospectiveInput} (h : Ratable ctx i d W)
    (hu : OneRatingEach d) :
    Succeeds (recordRetrospectiveTool now ctx (some i)) d (Recorded now W i d) := by
  intro σ ans s
  have hrun := Prog.wp_run (wp_record now h hu) ans s
  rcases hx : (recordRetrospectiveTool now ctx (some i)).run ans (d, s) with ⟨e | m, v, s'⟩ <;>
    rw [hx] at hrun
  · exact hrun.elim
  · exact ⟨m, v, s', rfl, hrun⟩

/-- **A retrospective** is recorded with the last rating listed for each dinner, or nothing is; and
nothing is when a dinner of the list is not one of the plan. -/
theorem record_or_refuse (now : ℤ) (ctx : Ctx) (i : RetrospectiveInput) (d : Db)
    (hu : OneRatingEach d) :
    ((∃ e, Fails (recordRetrospectiveTool now ctx (some i)) d e) ∨
      ∃ W, resolvePlan ctx i.weekId = .ok W ∧
        Succeeds (recordRetrospectiveTool now ctx (some i)) d (Recorded now W i d)) ∧
    (∀ W, resolvePlan ctx i.weekId = .ok W →
      (∃ r ∈ i.ratings, dinnerPlan d r.dinnerId ≠ some W) →
        ∃ e, Fails (recordRetrospectiveTool now ctx (some i)) d e) ∧
    ∀ W, Ratable ctx i d W →
      Succeeds (recordRetrospectiveTool now ctx (some i)) d (Recorded now W i d) := by
  have hfails (h : ∀ W, ¬Ratable ctx i d W) :
      ∃ e, Fails (recordRetrospectiveTool now ctx (some i)) d e := by
    obtain ⟨e, he⟩ := stops_record now h
    exact ⟨e, he.fails⟩
  refine ⟨?_, ?_, fun W h => succeeds_record h hu⟩
  · by_cases h : ∃ W, Ratable ctx i d W
    · obtain ⟨W, hW⟩ := h
      exact Or.inr ⟨W, hW.plan, succeeds_record hW hu⟩
    · exact Or.inl (hfails fun W hW => h ⟨W, hW⟩)
  · rintro W hp ⟨r, hr, hne⟩
    refine hfails fun U hU => ?_
    obtain rfl : U = W := Except.ok.inj (hU.plan.symm.trans hp)
    exact hne (hU.dinners r hr)

/-! ### A dinner listed twice -/

/-- The first dinner has a rating already. -/
def ratedOnce : Db :=
  { threeDays .draft with
    ratings := ⟨[⟨1, 1, some .meh, "too long"⟩], 2, List.nodup_singleton _, by decide⟩ }

theorem record_or_refuse_ratedOnce :
    Succeeds (recordRetrospectiveTool 5 background
        (some ⟨1, "good", [⟨1, "liked", ""⟩, ⟨2, "meh", "dry"⟩, ⟨1, "loved", "again"⟩]⟩)) ratedOnce
      (Recorded 5 1 ⟨1, "good", [⟨1, "liked", ""⟩, ⟨2, "meh", "dry"⟩, ⟨1, "loved", "again"⟩]⟩
        ratedOnce) ∧
    ∃ e, Fails (recordRetrospectiveTool 5 background
      (some ⟨1, "good", [⟨1, "liked", ""⟩, ⟨9, "liked", ""⟩]⟩)) ratedOnce e := by
  have hu : OneRatingEach ratedOnce := List.nodup_singleton _
  refine ⟨(record_or_refuse 5 background _ ratedOnce hu).2.2 1 ⟨by decide, ?_, ?_, ?_⟩,
    (record_or_refuse 5 background _ ratedOnce hu).2.1 1 (by decide) ?_⟩
  · exact ⟨threeDaysWeek .draft, List.mem_singleton_self _, rfl⟩
  · decide
  · decide
  · exact ⟨⟨9, "liked", ""⟩, by simp, by decide⟩

end Veckomenyn.LastRating
