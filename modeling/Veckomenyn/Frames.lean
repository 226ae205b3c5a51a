import Veckomenyn.Dinners
import Veckomenyn.Effects

/-!
What a chat leaves alone.

A plan out of the chat's scope keeps its rows, and a plan past its draft keeps its menu. The
rows allowed to a chat spare those rows one by one; statements, calls and whole chats follow
by induction.
-/

namespace Veckomenyn.Frames

open Rows Table Schema Sql Txn WkCtx CartTools Agent Effects

/-- The menu of the plan `V` is the same: its dinners, its exceptions, and any dish there was. -/
structure SameMenu (V : ℤ) (d d' : Db) : Prop where
  dinners : Agree (fun r : Dinner => r.weekId = V) d.dinners d'.dinners
  exceptions : Agree (fun r : WeekException => r.weekId = V) d.exceptions d'.exceptions
  dishes : ∀ r ∈ d.dishes.rows, r ∈ d'.dishes.rows

/-- A dinner of the plan has the rating. -/
def RatingOf (V : ℤ) (d : Db) (x : Rating) : Prop :=
  ∃ r ∈ d.dinners.rows, r.id = x.weekDinnerId ∧ r.weekId = V

/-- The rows that belong to the plan `V` are the same. -/
structure SamePlan (V : ℤ) (d d' : Db) : Prop extends SameMenu V d d' where
  week : Agree (fun w : Week => w.id = V) d.weeks d'.weeks
  retrospectives : Agree (fun r : Retrospective => r.weekId = V) d.retrospectives d'.retrospectives
  ratings : Agree (RatingOf V d) d.ratings d'.ratings
  cartItems : Agree (fun r : CartItem => r.weekId = some V) d.cartItems d'.cartItems

/-- The plan is past its draft. -/
def Locked (V : ℤ) (d : Db) : Prop := ∃ w, d.weeks.find? V = some w ∧ w.status ≠ .draft

variable {V : ℤ} {d d' d'' : Db}

lemma SameMenu.refl (V : ℤ) (d : Db) : SameMenu V d d :=
  ⟨Agree.refl _ _, Agree.refl _ _, fun _ h => h⟩

lemma SameMenu.trans (h : SameMenu V d d') (h' : SameMenu V d' d'') : SameMenu V d d'' :=
  ⟨h.dinners.trans h'.dinners, h.exceptions.trans h'.exceptions,
    fun r hr => h'.dishes r (h.dishes r hr)⟩

lemma SameMenu.of_sameRows (h : SameRows d d') : SameMenu V d d' :=
  ⟨Agree.of_rows_eq h.dinners, Agree.of_rows_eq h.exceptions, fun _ hr => h.dishes ▸ hr⟩

/-- The plan has the same ratings to have when its dinners are the same. -/
lemma SameMenu.ratingOf (h : SameMenu V d d') : RatingOf V d' = RatingOf V d := by
  ext x
  constructor
  · rintro ⟨r, hr, hx, hk⟩
    exact ⟨r, (h.dinners r hk).mp hr, hx, hk⟩
  · rintro ⟨r, hr, hx, hk⟩
    exact ⟨r, (h.dinners r hk).mpr hr, hx, hk⟩

lemma SamePlan.refl (V : ℤ) (d : Db) : SamePlan V d d :=
  ⟨SameMenu.refl V d, Agree.refl _ _, Agree.refl _ _, Agree.refl _ _, Agree.refl _ _⟩

lemma SamePlan.trans (h : SamePlan V d d') (h' : SamePlan V d' d'') : SamePlan V d d'' :=
  ⟨h.toSameMenu.trans h'.toSameMenu, h.week.trans h'.week,
    h.retrospectives.trans h'.retrospectives,
    h.ratings.trans (h.toSameMenu.ratingOf ▸ h'.ratings), h.cartItems.trans h'.cartItems⟩

lemma SamePlan.of_sameRows (h : SameRows d d') : SamePlan V d d' :=
  ⟨SameMenu.of_sameRows h, Agree.of_rows_eq h.weeks, Agree.of_rows_eq h.retrospectives,
    Agree.of_rows_eq h.ratings, Agree.of_rows_eq h.cartItems⟩

lemma SamePlan.has (h : SamePlan V d d') (hV : d.weeks.Has V) : d'.weeks.Has V := by
  obtain ⟨w, hw, hk⟩ := hV
  exact ⟨w, (h.week w hk).mpr hw, hk⟩

/-! ### One write -/

variable {ctx : Ctx} {reopened : Option ℤ}

lemma KeepsOwner.spares {α β : Type} [Keyed α] {t : Table α} {owner : α → β} {r : α} {o : β}
    (h : KeepsOwner t owner r) (ho : owner r ≠ o) : Spares (fun x => owner x = o) t (.put r) := by
  rcases h with hn | ⟨r', hr', he⟩
  · exact spares_put_new ho hn
  · exact spares_put hr' (he ▸ ho) ho

/-- Rows of another plan's dinners and exceptions spare those of a plan that may not be edited. -/
lemma SameMenu.apply {w : Write} (hV : ¬MayEdit ctx d V) (h : SameMenu V d d')
    (hw : Allowed ctx reopened d w) : SameMenu V d (Database.apply d' w) := by
  have other {k : ℤ} (hk : MayEdit ctx d k) : k ≠ V := fun e => hV (e ▸ hk)
  rcases w with (w | k) | (r | k) | (r | k) | (r | k) | (r | k) | (r | k) | (r | k) | w | w
  case dinner.put => exact { h with dinners := h.dinners.apply (KeepsOwner.spares hw.2 (other hw.1)) }
  case dinner.del =>
    obtain ⟨r, hr, hm⟩ := hw
    exact { h with dinners := h.dinners.apply (spares_del hr (other hm)) }
  case exception.put =>
    exact { h with exceptions := h.exceptions.apply (KeepsOwner.spares hw.2 (other hw.1)) }
  case exception.del =>
    obtain ⟨r, hr, hm⟩ := hw
    exact { h with exceptions := h.exceptions.apply (spares_del hr (other hm)) }
  case dish.put =>
    refine { h with dishes := fun x hx => mem_put.mpr (Or.inr ⟨h.dishes x hx, fun hk => ?_⟩) }
    have := d.dishes.fresh x hx
    have hn : d.dishes.next ≤ r.id := hw
    simp only [key_dish] at hk this
    omega
  case dish.del => exact hw.elim
  all_goals exact ⟨h.dinners, h.exceptions, h.dishes⟩

/-- Rows of the chat's plan spare those of a plan out of its scope. -/
lemma SamePlan.apply {w : Write} (hs : ¬InScope ctx V) (hV : d.weeks.Has V) (h : SamePlan V d d')
    (hw : Allowed ctx reopened d w) : SamePlan V d (Database.apply d' w) := by
  have hmenu := h.toSameMenu.apply (fun hm => hs hm.1) hw
  have other {k : ℤ} (hk : InScope ctx k) : k ≠ V := fun e => hs (e ▸ hk)
  -- a dinner that may be rated is not one of the plan
  have unrated {x : Rating} (hx : MayRate ctx d x.weekDinnerId) : ¬RatingOf V d x := by
    rintro ⟨r, hr, hid, hk⟩
    obtain ⟨r', hr', hsc⟩ := hx
    have hfind : d.dinners.find? x.weekDinnerId = some r := find?_eq_some.mpr ⟨hr, hid⟩
    cases hfind.symm.trans hr'
    exact other hsc hk
  rcases w with (w | k) | (r | k) | (r | k) | (r | k) | (r | k) | (r | k) | (r | k) | w | w
  case week.put =>
    refine { h with toSameMenu := hmenu, week := h.week.apply ?_ }
    rcases hw with hn | ⟨hsc, w', hw', -⟩
    · have := hV.lt_next
      exact spares_put_new (fun (e : w.id = V) => by omega) hn
    · have hid : w'.id = w.id := (find?_eq_some.mp hw').2
      exact spares_put hw' (fun e => other hsc (hid.symm.trans e)) (other hsc)
  case retrospective.put =>
    exact { h with
      toSameMenu := hmenu
      retrospectives := h.retrospectives.apply (spares_put_new (other hw.1) hw.2) }
  case rating.put =>
    refine { h with toSameMenu := hmenu, ratings := h.ratings.apply ?_ }
    rcases hw.2 with hn | ⟨x, hx, he⟩
    · exact spares_put_new (unrated hw.1) hn
    · exact spares_put hx (unrated (he ▸ hw.1)) (unrated hw.1)
  case rating.del =>
    obtain ⟨x, hx, hm⟩ := hw
    exact { h with toSameMenu := hmenu, ratings := h.ratings.apply (spares_del hx (unrated hm)) }
  case cartItem.put =>
    obtain ⟨hc, hk, hn⟩ := hw
    refine { h with toSameMenu := hmenu, cartItems := h.cartItems.apply (spares_put_new ?_ hn) }
    rw [hk, Option.some.injEq]
    exact other fun _ => rfl
  case cartItem.del =>
    obtain ⟨x, hx, hk⟩ := hw
    refine { h with toSameMenu := hmenu, cartItems := h.cartItems.apply (spares_del hx ?_) }
    rw [hk, Option.some.injEq]
    exact other fun _ => rfl
  case week.del => exact hw.elim
  case retrospective.del => exact hw.elim
  all_goals exact ⟨hmenu, h.week, h.retrospectives, h.ratings, h.cartItems⟩

/-- A locked plan stays locked while no call reopens it. -/
lemma Locked.apply {w : Write} (hl : Locked V d) (h : Locked V d') (hr : reopened ≠ some V)
    (hw : Allowed ctx reopened d w) : Locked V (Database.apply d' w) := by
  rcases w with (w | k) | (r | k) | (r | k) | (r | k) | (r | k) | (r | k) | (r | k) | w | w
  case week.put =>
    obtain ⟨x, hx, hst⟩ := hl
    rw [Locked, show (Database.apply d' (Write.week (.put w))).weeks = d'.weeks.put w from rfl,
      find?_put]
    split_ifs with hk
    · refine ⟨w, rfl, fun hd => ?_⟩
      have hlt := (has_of_find? hx).lt_next
      rcases hw with hn | ⟨-, w', hw', hopen⟩
      · simp only [key_week] at hk
        omega
      · rw [show w.id = V from hk.symm] at hw' hopen
        cases hx.symm.trans hw'
        exact (hopen hd).elim hst hr
    · exact h
  case week.del => exact hw.elim
  all_goals exact h

/-! ### Runs -/

lemma sameMenu_stmt {ws : List Write} (hV : ¬MayEdit ctx d V)
    (hw : ∀ w ∈ ws, Allowed ctx reopened d w) : SameMenu V d (applyAll d ws) :=
  applyAll_induction (SameMenu.refl V d) fun w hmem _ h => h.apply hV (hw w hmem)

lemma samePlan_stmt {ws : List Write} (hs : ¬InScope ctx V) (hV : d.weeks.Has V)
    (hw : ∀ w ∈ ws, Allowed ctx reopened d w) : SamePlan V d (applyAll d ws) :=
  applyAll_induction (SamePlan.refl V d) fun w hmem _ h => h.apply hs hV (hw w hmem)

lemma locked_stmt {ws : List Write} (hl : Locked V d) (hr : reopened ≠ some V)
    (hw : ∀ w ∈ ws, Allowed ctx reopened d w) : Locked V (applyAll d ws) :=
  applyAll_induction hl fun w hmem _ h => hl.apply h hr (hw w hmem)

/-- No dish is ever edited: the menu of a plan that does not exist yet is always the same. -/
theorem reach_dishes (h : Reach ctx reopened d d') : ∀ r ∈ d.dishes.rows, r ∈ d'.dishes.rows := by
  induction h with
  | refl => exact fun _ hr => hr
  | @stmt v ws _ hw ih =>
    have hnew : ¬MayEdit ctx v v.weeks.next := by
      rintro ⟨-, w, hw, -⟩
      exact lt_irrefl _ (has_of_find? hw).lt_next
    exact fun r hr => (sameMenu_stmt hnew hw).dishes r (ih r hr)
  | rows _ hrows ih => exact fun r hr => hrows.dishes ▸ ih r hr

theorem reach_samePlan (hs : ¬InScope ctx V) (hV : d.weeks.Has V) (h : Reach ctx reopened d d') :
    SamePlan V d d' := by
  induction h with
  | refl => exact SamePlan.refl V d
  | stmt _ hw ih => exact ih.trans (samePlan_stmt hs (ih.has hV) hw)
  | rows _ hrows ih => exact ih.trans (SamePlan.of_sameRows hrows)

theorem reach_sameMenu (hl : Locked V d) (hr : reopened ≠ some V) (h : Reach ctx reopened d d') :
    Locked V d' ∧ SameMenu V d d' := by
  induction h with
  | refl => exact ⟨hl, SameMenu.refl V d⟩
  | stmt _ hw ih =>
    obtain ⟨hlv, hv⟩ := ih
    refine ⟨locked_stmt hlv hr hw, hv.trans (sameMenu_stmt ?_ hw)⟩
    rintro ⟨-, w, hw, hd⟩
    obtain ⟨w', hw', hst⟩ := hlv
    cases hw.symm.trans hw'
    exact hst hd
  | rows _ hrows ih =>
    obtain ⟨⟨w, hw, hst⟩, hv⟩ := ih
    exact ⟨⟨w, by rw [hrows.findWeek, hw], hst⟩, hv.trans (SameMenu.of_sameRows hrows)⟩

/-! ### Two plans and two chats -/

/-- The ordered plan of three days and a draft of one day. -/
def twoPlans : Db := applyAll (Dinners.threeDays .ordered)
  [Write.week (.put ⟨2, "2026-W18", 739732, 739732, none, none, .draft, "", 0⟩),
    Write.dish (.put ⟨1, "Soup", none, "", 4, "[]", none⟩),
    Write.dinner (.put ⟨4, 2, 739732, some 1, 4, "\x7b\x7d", "", 0⟩)]

/-- A server without a shopping provider. -/
def noShop : Setup := ⟨Pg.plain, ⟨fun _ _ => true, fun _ _ => true, id, fun _ => "", id⟩, false⟩

def noAnswers : (q : Call) → Unit → Answer q × Unit
  | .search _ _, c => (.error "", c)
  | .cartGet, c => (.error "", c)
  | .cartAdd _ _, c => (.error "", c)
  | .cartRemove _, c => (.error "", c)
  | .cartClear, c => (.error "", c)
  | .ordersRecent _, c => (.error "", c)
  | .orderDetail _, c => (.error "", c)
  | .warn _, c => ((), c)

/-- A dinner is added to the plan of the chat, then the other plan is to be moved. -/
def boundTurns : List Turn :=
  [⟨⟨2⟩, 1, 0, .addDinner (some ⟨0, "2026-04-27", "Stew", "", "", 0, none, "", []⟩)⟩,
    ⟨⟨2⟩, 2, 0, .updateWeek (some ⟨1, "", none, some "2026-04-21", none, none, none, none, none⟩)⟩]

/-- A dinner of the ordered plan is to be deleted, then a retrospective of it is recorded. -/
def lockedTurns : List Turn :=
  [⟨background, 1, 0, .deleteDinner (some 1)⟩,
    ⟨⟨1⟩, 2, 0, .recordRetrospective (some ⟨0, "good", [⟨1, "liked", ""⟩]⟩)⟩]

/-! ### Chats -/

variable {σ : Type} (S : Setup) (ans : (q : Call) → σ → Answer q × σ)

/-- Every dish there was is there, and the rows of every other plan there was are the same. -/
structure OnlyPlan (W : ℤ) (d d' : Db) : Prop where
  dishes : ∀ r ∈ d.dishes.rows, r ∈ d'.dishes.rows
  plans : ∀ V, V ≠ W → d.weeks.Has V → SamePlan V d d'

/-- **A chat bound to a plan** leaves the rows of every other plan and every dish alone, whatever
tools it calls. -/
theorem bound_chat_only_plan (ctx : Ctx) {W : ℤ} (hW : 0 < W) (ts : List Turn)
    (hts : ∀ t ∈ ts, t.ctx = withWeekId ctx W) (c : Db × σ) :
    OnlyPlan W c.1 (converse S ans ts c).1 := by
  induction ts generalizing c with
  | nil => exact ⟨fun _ hr => hr, fun V _ _ => SamePlan.refl V _⟩
  | cons t ts ih =>
    obtain ⟨hdishes, hplans⟩ := ih (fun x hx => hts x (by simp [hx])) (turn S ans c t)
    have hreach := reach_turn S ans c t
    have hctx : t.ctx.weekId = W := by
      rw [hts t (by simp), withWeekId, if_neg (by omega)]
    refine ⟨fun r hr => hdishes r (reach_dishes hreach r hr), fun V hne hV => ?_⟩
    have hs : ¬InScope t.ctx V := fun hsc => hne ((hsc (by omega)).trans hctx)
    have h := reach_samePlan hs hV hreach
    exact h.trans (hplans V hne (h.has hV))

theorem bound_chat_only_plan_twoPlans :
    OnlyPlan 2 twoPlans (converse noShop noAnswers boundTurns (twoPlans, ())).1 ∧
      (converse noShop noAnswers boundTurns (twoPlans, ())).1.dinners.rows.length = 5 :=
  ⟨bound_chat_only_plan noShop noAnswers background (by decide) boundTurns
    (by simp [boundTurns, withWeekId]) (twoPlans, ()), by decide⟩

/-- No call of the chat is an `update_week` that sets the plan to draft. -/
def NeverReopened (P : ℤ) : List Turn → Db × σ → Prop
  | [], _ => True
  | t :: ts, c => t.reopened c.1 ≠ some P ∧ NeverReopened P ts (turn S ans c t)

/-- **A locked menu**: no calls, in whatever chats, change the menu of a plan past its draft unless
one of them sets it back to draft. -/
theorem locked_menu_kept (P : ℤ) (ts : List Turn) (c : Db × σ) (hP : Locked P c.1)
    (h : NeverReopened S ans P ts c) : SameMenu P c.1 (converse S ans ts c).1 := by
  induction ts generalizing c with
  | nil => exact SameMenu.refl P _
  | cons t ts ih =>
    obtain ⟨hlocked, hmenu⟩ := reach_sameMenu hP h.1 (reach_turn S ans c t)
    exact hmenu.trans (ih (turn S ans c t) hlocked h.2)

theorem locked_menu_kept_twoPlans :
    SameMenu 1 twoPlans (converse noShop noAnswers lockedTurns (twoPlans, ())).1 ∧
      (converse noShop noAnswers lockedTurns (twoPlans, ())).1.ratings.rows.length = 1 :=
  ⟨locked_menu_kept noShop noAnswers 1 lockedTurns (twoPlans, ())
    ⟨Dinners.threeDaysWeek .ordered, by decide, by decide⟩ ⟨by decide, by decide, trivial⟩, by decide⟩

end Veckomenyn.Frames
