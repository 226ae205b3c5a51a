import Veckomenyn.EveryStep
import Veckomenyn.Usage

/-!
The summary of the usage against the calls it sums up.

Days and models share out the calls of the window. The conversations have a row for each plan their
calls were made under, so a conversation with calls under two plans comes in parts.
-/

namespace Veckomenyn.Rollup

open Rows Grouping EveryStep Usage

/-! ### What a summary should say -/

def callsOf (rows : List UsageRow) (c : ℤ) : List UsageRow :=
  rows.filter fun u => u.conversationId = some c

/-- The days and the models share out the calls, and each conversation is listed once at most, with
all of its calls. -/
structure SumsUp (day : ℤ → String) (rows : List UsageRow) (s : UsageSummary) : Prop where
  total : s.total = totalsOf rows
  daysOnce : (s.byDay.map DailyUsage.date).Nodup
  daysCalls : (s.byDay.map DailyUsage.calls).sum = s.total.calls
  daysCost : (s.byDay.map DailyUsage.costUsd).sum = s.total.costUsd
  dayRows : ∀ r ∈ s.byDay, r.calls = (rows.filter fun u => day u.createdAt = r.date).length ∧
    r.costUsd = costOf (rows.filter fun u => day u.createdAt = r.date)
  modelsOnce : (s.byModel.map ModelUsage.model).Nodup
  modelsCalls : (s.byModel.map fun r => r.calls).sum = s.total.calls
  modelsCost : (s.byModel.map fun r => r.costUsd).sum = s.total.costUsd
  modelRows : ∀ r ∈ s.byModel, r.toTotals = totalsOf (rows.filter fun u => u.model = r.model)
  conversationsOnce : (s.recentConv.map ConversationUsage.conversationID).Nodup
  conversationRows : ∀ r ∈ s.recentConv, r.calls = (callsOf rows r.conversationID).length ∧
    r.costUsd = costOf (callsOf rows r.conversationID)

/-- The conversation has calls under different plans. -/
def Split (rows : List UsageRow) (c : ℤ) : Prop :=
  ∃ u ∈ callsOf rows c, ∃ v ∈ callsOf rows c, u.weekId ≠ v.weekId

/-- The conversations with the plans their calls are under. -/
def parts (rows : List UsageRow) : List (ℤ × Option ℤ) :=
  ((inConversation rows).map fun u => (u.conversationId.getD 0, u.weekId)).dedup

/-- The calls of a conversation under a plan. -/
def callsUnder (rows : List UsageRow) (part : ℤ × Option ℤ) : List UsageRow :=
  (callsOf rows part.1).filter fun u => u.weekId = part.2

/-- Each part of a conversation with calls under different plans costs less than twenty others. -/
def SplitCheap (rows : List UsageRow) : Prop :=
  ∀ part ∈ parts rows, Split rows part.1 →
    20 ≤ (parts rows).countP fun other =>
      costOf (callsUnder rows part) < costOf (callsUnder rows other)

/-! ### Rows for conversations -/

variable {o : Orders} {day : ℤ → String} {d : UsageDb} {rows : List UsageRow} {since : ℤ}

lemma mem_callsOf {c : ℤ} {u : UsageRow} :
    u ∈ callsOf rows c ↔ u ∈ rows ∧ u.conversationId = some c := by
  rw [callsOf, List.mem_filter, decide_eq_true_iff]

lemma mem_parts {part : ℤ × Option ℤ} :
    part ∈ parts rows ↔ ∃ u ∈ callsOf rows part.1, u.weekId = part.2 := by
  rw [parts, List.mem_dedup, List.mem_map]
  constructor
  · rintro ⟨u, hu, rfl⟩
    obtain ⟨hu, hsome⟩ := List.mem_filter.mp hu
    obtain ⟨c, hc⟩ := Option.isSome_iff_exists.mp hsome
    exact ⟨u, mem_callsOf.mpr ⟨hu, by rw [hc, Option.getD_some]⟩, rfl⟩
  · rintro ⟨u, hu, hw⟩
    obtain ⟨hu, hc⟩ := mem_callsOf.mp hu
    refine ⟨u, List.mem_filter.mpr ⟨hu, by rw [hc]; rfl⟩, ?_⟩
    rw [hc, hw, Option.getD_some]

/-- The title comes with the conversation and the label with the plan. -/
def keyOf (d : UsageDb) (part : ℤ × Option ℤ) : ℤ × String × Option ℤ × String :=
  (part.1, d.title (some part.1), part.2, d.label part.2)

lemma keyOf_injective (d : UsageDb) : Function.Injective (keyOf d) := by
  rintro ⟨c, w⟩ ⟨c', w'⟩ h
  obtain ⟨hc, -, hw, -⟩ : c = c' ∧ d.title (some c) = d.title (some c') ∧ w = w' ∧
    d.label w = d.label w' := by simpa only [keyOf, Prod.mk.injEq] using h
  rw [hc, hw]

lemma conversationKey_eq {u : UsageRow} (hu : u.conversationId.isSome) :
    conversationKey d u = keyOf d (u.conversationId.getD 0, u.weekId) := by
  obtain ⟨c, hc⟩ := Option.isSome_iff_exists.mp hu
  rw [conversationKey, keyOf, hc, Option.getD_some]

/-- The row for a conversation and a plan. -/
def usageOf (d : UsageDb) (rows : List UsageRow) (part : ℤ × Option ℤ) : ConversationUsage :=
  conversationUsage (keyOf d part, callsUnder rows part)

lemma group_eq (part : ℤ × Option ℤ) :
    ((inConversation rows).filter fun u => conversationKey d u = keyOf d part) =
      callsUnder rows part := by
  rw [inConversation, callsUnder, callsOf, List.filter_filter, List.filter_filter]
  refine List.filter_congr fun u _ => ?_
  cases hc : u.conversationId with
  | none => simp
  | some c =>
    have hkey : conversationKey d u = keyOf d part ↔ some c = some part.1 ∧ u.weekId = part.2 := by
      rw [conversationKey_eq (by rw [hc]; rfl), (keyOf_injective d).eq_iff, hc, Option.getD_some,
        Prod.ext_iff, Option.some.injEq]
    rw [Option.isSome_some, Bool.and_true, ← Bool.decide_and]
    exact decide_eq_decide.mpr (hkey.trans and_comm)

/-- There is a row for each conversation and plan. -/
lemma groups_eq : (groupBy (conversationKey d) (inConversation rows)).map conversationUsage =
    (parts rows).map (usageOf d rows) := by
  have hkeys : (inConversation rows).map (conversationKey d) =
      ((inConversation rows).map fun u => (u.conversationId.getD 0, u.weekId)).map (keyOf d) := by
    rw [List.map_map]
    exact List.map_congr_left fun u hu => conversationKey_eq (List.mem_filter.mp hu).2
  rw [groupBy, hkeys, List.dedup_map_of_injective (keyOf_injective d), List.map_map, List.map_map]
  refine List.map_congr_left fun part _ => ?_
  show conversationUsage (_, _) = _
  rw [group_eq, usageOf]

/-- A row has all the calls of its conversation when they are under one plan, and only then. -/
lemma calls_eq_iff {part : ℤ × Option ℤ} (hpart : part ∈ parts rows) :
    (callsUnder rows part).length = (callsOf rows part.1).length ↔ ¬Split rows part.1 := by
  obtain ⟨u, hu, hw⟩ := mem_parts.mp hpart
  rw [callsUnder, List.length_filter_eq_length_iff]
  constructor
  · rintro hall ⟨v, hv, v', hv', hne⟩
    have hv := of_decide_eq_true (hall v hv)
    have hv' := of_decide_eq_true (hall v' hv')
    exact hne (hv.trans hv'.symm)
  · intro hsplit v hv
    by_contra hne
    exact hsplit ⟨v, hv, u, hu, fun heq => hne (decide_eq_true (heq.trans hw))⟩

/-! ### The summary -/

lemma mem_recentConv {r : ConversationUsage} :
    r ∈ (handleGetUsageSummary o day since d).recentConv ↔
      ∃ part ∈ parts (window since d), usageOf d (window since d) part = r ∧
        rank o.byConversation ((parts (window since d)).map (usageOf d (window since d))) r <
          20 := by
  have hlist : (handleGetUsageSummary o day since d).recentConv = (o.byConversation.sort
      ((parts (window since d)).map (usageOf d (window since d)))).take 20 := by
    rw [← groups_eq]
    rfl
  rw [hlist]
  constructor
  · intro hr
    have hmem := (o.byConversation.perm _).mem_iff.mp (List.mem_of_mem_take hr)
    obtain ⟨part, hpart, hr'⟩ := List.mem_map.mp hmem
    exact ⟨part, hpart, hr', (mem_take_iff o.byConversation hmem 20).mp hr⟩
  · rintro ⟨part, hpart, rfl, hrank⟩
    exact (mem_take_iff o.byConversation (List.mem_map_of_mem hpart) 20).mpr hrank

/-- The costs of the parts are the costs of their rows. -/
lemma countP_usageOf (part : ℤ × Option ℤ) :
    (((parts rows).map (usageOf d rows)).countP fun r =>
      -r.costUsd < -(usageOf d rows part).costUsd) =
      (parts rows).countP fun other =>
        costOf (callsUnder rows part) < costOf (callsUnder rows other) := by
  rw [List.countP_map]
  refine List.countP_congr fun other _ => ?_
  rw [Function.comp_apply, decide_eq_true_iff, decide_eq_true_iff]
  exact Int.neg_lt_neg_iff

lemma length_eq_sum (rows : List UsageRow) : rows.length = (rows.map fun _ => 1).sum := by
  simp

/-- The days and the models share out the calls, whatever the calls are. -/
lemma sumsUp_of_conversations
    (honce : ((handleGetUsageSummary o day since d).recentConv.map
      ConversationUsage.conversationID).Nodup)
    (hrows : ∀ r ∈ (handleGetUsageSummary o day since d).recentConv,
      r.calls = (callsOf (window since d) r.conversationID).length ∧
        r.costUsd = costOf (callsOf (window since d) r.conversationID)) :
    SumsUp day (window since d) (handleGetUsageSummary o day since d) where
  total := rfl
  daysOnce := nodup_report o.byDay fun _ => rfl
  daysCalls := by
    show _ = (window since d).length
    rw [length_eq_sum]
    exact sum_report o.byDay fun g => length_eq_sum g.2
  daysCost := sum_report o.byDay fun _ => rfl
  dayRows r hr := by
    obtain ⟨g, hg, rfl⟩ := (mem_report o.byDay).mp hr
    rw [(mem_groupBy.mp hg).2]
    exact ⟨rfl, rfl⟩
  modelsOnce := nodup_report o.byModel fun _ => rfl
  modelsCalls := by
    show _ = (window since d).length
    rw [length_eq_sum]
    exact sum_report o.byModel fun g => length_eq_sum g.2
  modelsCost := sum_report o.byModel fun _ => rfl
  modelRows r hr := by
    obtain ⟨g, hg, rfl⟩ := (mem_report o.byModel).mp hr
    rw [(mem_groupBy.mp hg).2]
  conversationsOnce := honce
  conversationRows := hrows

/-- What is listed of a split conversation costs less than twenty others. -/
lemma conversations_of_cheap (h : SplitCheap (window since d)) :
    ((handleGetUsageSummary o day since d).recentConv.map
      ConversationUsage.conversationID).Nodup ∧
    ∀ r ∈ (handleGetUsageSummary o day since d).recentConv,
      r.calls = (callsOf (window since d) r.conversationID).length ∧
        r.costUsd = costOf (callsOf (window since d) r.conversationID) := by
  have hwhole : ∀ r ∈ (handleGetUsageSummary o day since d).recentConv,
      ∃ part ∈ parts (window since d), usageOf d (window since d) part = r ∧
        ¬Split (window since d) part.1 := by
    intro r hr
    obtain ⟨part, hpart, rfl, hrank⟩ := mem_recentConv.mp hr
    refine ⟨part, hpart, rfl, fun hsplit => ?_⟩
    have hahead := countP_le_rank o.byConversation
      (List.mem_map_of_mem (f := usageOf d (window since d)) hpart)
    rw [countP_usageOf] at hahead
    exact absurd ((h part hpart hsplit).trans hahead) (not_le.mpr hrank)
  constructor
  · have hkeys : ((report o.byConversation (conversationKey d) conversationUsage
        (inConversation (window since d))).map fun r =>
          (r.conversationID, r.title, r.weekID, r.isoWeek)).Nodup :=
      nodup_report o.byConversation fun _ => rfl
    refine List.Nodup.map_on (fun r hr r' hr' hc => ?_)
      (hkeys.of_map.sublist (List.take_sublist _ _))
    obtain ⟨⟨c, w⟩, hpart, rfl, hsplit⟩ := hwhole r hr
    obtain ⟨⟨c', w'⟩, hpart', rfl, -⟩ := hwhole r' hr'
    obtain rfl : c = c' := hc
    obtain ⟨u, hu, rfl⟩ := mem_parts.mp hpart
    obtain ⟨u', hu', rfl⟩ := mem_parts.mp hpart'
    have hw : u.weekId = u'.weekId := by
      by_contra hne
      exact hsplit ⟨u, hu, u', hu', hne⟩
    rw [hw]
  · intro r hr
    obtain ⟨part, hpart, rfl, hsplit⟩ := hwhole r hr
    have hcalls := (calls_eq_iff hpart).mpr hsplit
    have hall : callsUnder (window since d) part = callsOf (window since d) part.1 :=
      List.filter_eq_self.mpr (List.length_filter_eq_length_iff.mp hcalls)
    refine ⟨hcalls, ?_⟩
    show costOf (callsUnder (window since d) part) = _
    rw [hall]
    rfl

/-- The orders that put `r` first among the conversations of its cost. -/
def favouringRow (r : ConversationUsage) : Orders :=
  ⟨stable _, stable _, stable _, favouring _ r⟩

/-- **A summary sums up the calls**, whichever rows of one cost come first, exactly when what
belongs to a split conversation is too cheap to be listed. -/
lemma sumsUp_iff :
    (∀ o, SumsUp day (window since d) (handleGetUsageSummary o day since d)) ↔
      SplitCheap (window since d) := by
  constructor
  · intro h part hpart hsplit
    by_contra hfew
    -- an order that puts the part ahead of all that cost as much lists it
    have hrank := rank_favouring_le (w := fun c : ConversationUsage => -c.costUsd)
      (List.mem_map_of_mem (f := usageOf d (window since d)) hpart)
    rw [countP_usageOf] at hrank
    have hlisted : usageOf d (window since d) part ∈ (handleGetUsageSummary
        (favouringRow (usageOf d (window since d) part)) day since d).recentConv :=
      mem_recentConv.mpr ⟨part, hpart, rfl, hrank.trans_lt (not_le.mp hfew)⟩
    have hcalls := ((h _).conversationRows _ hlisted).1
    exact (calls_eq_iff hpart).mp hcalls hsplit
  · intro h o
    exact sumsUp_of_conversations (conversations_of_cheap h).1 (conversations_of_cheap h).2

/-! ### Runs -/

/-- Each conversation has its calls under one plan. -/
def OnePlanEach (s : State) : Prop :=
  ∀ u ∈ s.db.usage.rows, ∀ v ∈ s.db.usage.rows, u.conversationId ≠ none →
    u.conversationId = v.conversationId → u.weekId = v.weekId

/-- A call is recorded under the plan that the calls of its conversation are under. -/
def SamePlan (s : State) : Step → Prop
  | .record turn _ _ _ => ∀ ctx ∈ s.turns[turn]?, ∀ u ∈ s.db.usage.rows,
      u.conversationId ≠ none → u.conversationId = nullInt64 ctx.conversationID →
        u.weekId = nullInt64 ctx.weekID
  | _ => True

lemma mem_setNull {t : Table UsageRow} (refers : UsageRow → Bool) (cleared : UsageRow → UsageRow)
    (hid : ∀ u, (cleared u).id = u.id) {v : UsageRow} (hv : v ∈ (setNull t refers cleared).rows) :
    ∃ u ∈ t.rows, v = if refers u then cleared u else u := by
  have hkeys : ((t.rows.filter refers).map cleared).map Keyed.key =
      (t.rows.filter refers).map Keyed.key := by
    rw [List.map_map]
    exact List.map_congr_left fun u _ => hid u
  have hnodup : (((t.rows.filter refers).map cleared).map Keyed.key).Nodup := by
    rw [hkeys]
    exact t.nodup.sublist ((List.filter_sublist).map _)
  rcases (Table.mem_applyAll_put hnodup).mp hv with hv | ⟨hv, hkey⟩
  · obtain ⟨u, hu, rfl⟩ := List.mem_map.mp hv
    obtain ⟨hu, hrefers⟩ := List.mem_filter.mp hu
    exact ⟨u, hu, by rw [if_pos hrefers]⟩
  · refine ⟨v, hv, ?_⟩
    rw [if_neg]
    intro hrefers
    rw [hkeys] at hkey
    exact hkey (List.mem_map_of_mem (List.mem_filter.mpr ⟨hv, hrefers⟩))

lemma mem_record {now convID weekID : ℤ} {model : String} {u : Llm.Usage} {v : UsageRow}
    (hv : v ∈ (Usage.record d now convID weekID model u).usage.rows) : v ∈ d.usage.rows ∨
      v.conversationId = nullInt64 convID ∧ v.weekId = nullInt64 weekID := by
  simp only [Usage.record] at hv
  split_ifs at hv
  · rcases Table.mem_put.mp hv with rfl | ⟨hv, -⟩
    · exact Or.inr ⟨rfl, rfl⟩
    · exact Or.inl hv
  · exact Or.inl hv
  · exact Or.inl hv

lemma onePlanEach_step {s : State} {x : Step} (h : OnePlanEach s) (hx : SamePlan s x) :
    OnePlanEach (s.step x) := by
  cases x with
  | chat now req =>
    have husage : (s.step (.chat now req)).db.usage = s.db.usage := by
      simp only [State.step]
      split_ifs
      · rfl
      · split <;> rfl
    unfold OnePlanEach
    rw [husage]
    exact h
  | record turn now model u =>
    cases hturn : s.turns[turn]? with
    | none =>
      have hstep : s.step (.record turn now model u) = s := by simp only [State.step, hturn]
      rw [hstep]
      exact h
    | some ctx =>
      have hdb : (s.step (.record turn now model u)).db =
          Usage.record s.db now ctx.conversationID ctx.weekID model u := by
        simp only [State.step, hturn]
      have hplan := hx ctx hturn
      unfold OnePlanEach
      rw [hdb]
      intro v hv v' hv' hsome hc
      rcases mem_record hv with hv | ⟨hcv, hwv⟩ <;> rcases mem_record hv' with hv' | ⟨hcv', hwv'⟩
      · exact h v hv v' hv' hsome hc
      · exact (hplan v hv hsome (hc.trans hcv')).trans hwv'.symm
      · exact hwv.trans (hplan v' hv' (hc ▸ hsome) (hc.symm.trans hcv)).symm
      · exact hwv.trans hwv'.symm
  | addWeek w label => exact h
  | deleteWeek now w =>
    intro v hv v' hv' hsome hc
    obtain ⟨u, hu, rfl⟩ := mem_setNull (fun u => u.weekId = some w)
      (fun u => { u with weekId := none }) (fun _ => rfl) hv
    obtain ⟨u', hu', rfl⟩ := mem_setNull (fun u => u.weekId = some w)
      (fun u => { u with weekId := none }) (fun _ => rfl) hv'
    have hconv (u : UsageRow) : (if u.weekId = some w then { u with weekId := none }
        else u).conversationId = u.conversationId := by split_ifs <;> rfl
    have hweek (u : UsageRow) : (if u.weekId = some w then { u with weekId := none }
        else u).weekId = if u.weekId = some w then none else u.weekId := by split_ifs <;> rfl
    simp only [decide_eq_true_iff, hconv, hweek] at hsome hc ⊢
    rw [h u hu u' hu' hsome hc]
  | deleteWeekConversations w =>
    intro v hv v' hv' hsome hc
    obtain ⟨u, hu, rfl⟩ := mem_setNull _ (fun u => { u with conversationId := none })
      (fun _ => rfl) hv
    obtain ⟨u', hu', rfl⟩ := mem_setNull _ (fun u => { u with conversationId := none })
      (fun _ => rfl) hv'
    have hkept {u : UsageRow} {gone : Prop} [Decidable gone] (hsome : (if gone then
        { u with conversationId := none } else u).conversationId ≠ none) : ¬gone :=
      fun hgone => hsome (by rw [if_pos hgone])
    have hu₀ := hkept hsome
    have hu₁ := hkept (hc ▸ hsome)
    rw [if_neg hu₀] at hsome hc ⊢
    rw [if_neg hu₁] at hc ⊢
    exact h u hu u' hu' hsome hc

lemma splitCheap_of_onePlanEach {s : State} (h : OnePlanEach s) :
    SplitCheap (window since s.db) := by
  rintro part - ⟨u, hu, v, hv, hne⟩
  obtain ⟨hu, hcu⟩ := mem_callsOf.mp hu
  obtain ⟨hv, hcv⟩ := mem_callsOf.mp hv
  refine absurd (h u (List.mem_of_mem_filter hu) v (List.mem_of_mem_filter hv) ?_ ?_) hne
  · rw [hcu]
    exact nofun
  · rw [hcu, hcv]

/-- **The summary of every state of a run** sums up the calls of its window, whichever rows of one
cost come first, exactly when each part of a split conversation costs less than twenty others; in a
run whose calls are recorded under the plan of their conversation it always does. -/
theorem sumsUp_run (day : ℤ → String) (steps : List Step) :
    Always State.step (fun s => ∀ since,
        (∀ o, SumsUp day (window since s.db) (handleGetUsageSummary o day since s.db)) ↔
          SplitCheap (window since s.db)) start steps ∧
    (EachAllowed State.step SamePlan start steps →
      Always State.step (fun s => ∀ since o, SumsUp day (window since s.db)
        (handleGetUsageSummary o day since s.db)) start steps) := by
  refine ⟨fun _ _ _ => sumsUp_iff, fun hplan before hbefore since => ?_⟩
  have hstart : OnePlanEach start := fun u hu => absurd hu List.not_mem_nil
  have honePlan : Always State.step OnePlanEach start steps :=
    always_of_allowed hstart (fun s x => onePlanEach_step) hplan
  exact sumsUp_iff.mpr (splitCheap_of_onePlanEach (honePlan before hbefore))

def byCost : Orders := ⟨stable _, stable _, stable _, stable _⟩

/-- Two calls of one turn. -/
def oneTurn : List Step :=
  [.chat 100 ⟨none, none, "Hej"⟩, .record 0 101 "claude-haiku-4-5" ⟨1000, 100, 0, 0⟩,
    .record 0 102 "claude-haiku-4-5" ⟨3000, 50, 0, 0⟩]

theorem sumsUp_run_oneTurn : Always State.step (fun s => ∀ since o,
    SumsUp (fun _ => "2026-05-04") (window since s.db)
      (handleGetUsageSummary o (fun _ => "2026-05-04") since s.db)) start oneTurn := by
  refine (sumsUp_run (fun _ => "2026-05-04") oneTurn).2 ?_
  refine eachAllowed_cons.mpr ⟨trivial, eachAllowed_cons.mpr ⟨?_, eachAllowed_cons.mpr ⟨?_,
    eachAllowed_nil⟩⟩⟩
  · exact fun _ _ u hu => absurd hu List.not_mem_nil
  · rintro _ ⟨⟩ u hu - -
    obtain rfl := List.mem_singleton.mp hu
    rfl

/-- A chat about no plan goes on about a plan that has been made meanwhile. -/
def laterPlan : List Step :=
  [.chat 100 ⟨none, none, "Hej"⟩, .record 0 101 "claude-haiku-4-5" ⟨1000, 100, 0, 0⟩,
    .addWeek 7 "2026-W19", .chat 200 ⟨some 1, some 7, "Fler middagar"⟩,
    .record 1 201 "claude-haiku-4-5" ⟨2000, 200, 0, 0⟩]

theorem not_sumsUp : ¬ ∀ (o : Orders) (day : ℤ → String) (steps : List Step) (since : ℤ),
    SumsUp day (window since (steps.foldl State.step start).db)
      (handleGetUsageSummary o day since (steps.foldl State.step start).db) := by
  intro h
  have honce := (h byCost (fun _ => "2026-05-04") laterPlan 0).conversationsOnce
  have htwice : (handleGetUsageSummary byCost (fun _ => "2026-05-04") 0
      (laterPlan.foldl State.step start).db).recentConv.map ConversationUsage.conversationID =
        [1, 1] := by decide
  rw [htwice] at honce
  exact absurd honce (by decide)

end Veckomenyn.Rollup
