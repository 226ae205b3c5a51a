import Veckomenyn.ReadTools
import Veckomenyn.Escaping
import Veckomenyn.Dinners

/-!
When something was last eaten, by a search of the history.

Of each dish that matches the search takes the latest dinner, in the order of the dishes' ids, and
leaves off at its limit.
-/

namespace Veckomenyn.LastTime

open Rows DateText Schema Sql Txn WkCtx Tools ReadTools Dinners

def pattern (i : SearchHistoryInput) : String := "%" ++ escapeILIKE (trimSpace i.query) ++ "%"

/-- By its name, cuisine, recipe or tags. -/
def matching (L : TextRules) (pat : String) (dish : Dish) : Bool :=
  L.ilike dish.name pat || L.ilike (dish.cuisine.getD "") pat || L.ilike dish.recipeMd pat ||
    L.ilike dish.tags pat

/-- A dinner of the dish, outside the plan of the chat. -/
def Served (weekId : ℤ) (dish : Dish) (r : Dinner) : Prop :=
  r.dishId = some dish.id ∧ (weekId = 0 ∨ r.weekId ≠ weekId)

instance (weekId : ℤ) (dish : Dish) : DecidablePred (Served weekId dish) := fun r =>
  inferInstanceAs (Decidable (r.dishId = some dish.id ∧ (weekId = 0 ∨ r.weekId ≠ weekId)))

/-- A dinner that answers the query, with its dish. -/
structure Found (L : TextRules) (ctx : Ctx) (i : SearchHistoryInput) (d : Db) (x : Dish × Dinner) :
    Prop where
  dish : x.1 ∈ d.dishes.rows
  dinner : x.2 ∈ d.dinners.rows
  served : Served ctx.weekId x.1 x.2
  matching : matching L (pattern i) x.1 = true

/-! ### What the query selects -/

/-- The dinners of the dish, the latest first. -/
def servings (d : Db) (weekId : ℤ) (dish : Dish) : List Dinner :=
  (d.dinners.rows.filter fun r => Served weekId dish r).insertionSort fun a b =>
    b.dayDate ≤ a.dayDate

/-- A dish that matches and its latest dinner. -/
def hit (L : TextRules) (pat : String) (weekId : ℤ) (d : Db) (dish : Dish) :
    Option (Dish × Dinner) :=
  if matching L pat dish then (servings d weekId dish).head?.map fun r => (dish, r) else none

def hits (L : TextRules) (pat : String) (weekId : ℤ) (d : Db) : List (Dish × Dinner) :=
  (d.dishes.rows.insertionSort fun a b => a.id ≤ b.id).filterMap (hit L pat weekId d)

/-- The dinners of the answer. -/
def shown (L : TextRules) (ctx : Ctx) (i : SearchHistoryInput) (d : Db) : List (Dish × Dinner) :=
  (hits L (pattern i) ctx.weekId d).take (positiveOr 10 i.limit).toNat

def line (d : Db) (x : Dish × Dinner) : String :=
  "- " ++ x.1.name ++ " (" ++ text x.2.dayDate ++
    (if x.1.cuisine.getD "" = "" then "" else " · " ++ x.1.cuisine.getD "") ++ "): " ++
    ((d.weeks.find? x.2.weekId).map Week.isoWeek).getD "" ++ "\n"

/-- The text of an answer with these dinners and cart items. -/
def answer (L : TextRules) (q : String) (dinners items : List String) : String :=
  if dinners.isEmpty ∧ items.isEmpty then "(no history match for " ++ L.quote q ++ ")"
  else block ("## Dinners (" ++ toString dinners.length ++ ")\n") dinners ++
    (if dinners.isEmpty ∨ items.isEmpty then "" else "\n") ++
    block ("## Cart items (" ++ toString items.length ++ ")\n") items

variable {L : TextRules} {ctx : Ctx} {i : SearchHistoryInput} {d : Db} {weekId : ℤ} {pat : String}
  {dish : Dish} {r : Dinner} {x : Dish × Dinner}

lemma mem_servings : r ∈ servings d weekId dish ↔ r ∈ d.dinners.rows ∧ Served weekId dish r := by
  rw [servings, List.mem_insertionSort, List.mem_filter, decide_eq_true_iff]

/-- The line of a dish, as the query has it. -/
lemma hit_line (hf : ForeignKeys d) (dish : Dish) :
    (if matching L pat dish then
        (servings d weekId dish).head?.bind fun r => (d.weeks.find? r.weekId).map fun w =>
          "- " ++ dish.name ++ " (" ++ text r.dayDate ++
            (if dish.cuisine.getD "" = "" then "" else " · " ++ dish.cuisine.getD "") ++ "): " ++
            w.isoWeek ++ "\n"
      else none) = (hit L pat weekId d dish).map (line d) := by
  unfold hit
  split
  · rcases hr : (servings d weekId dish).head? with _ | r
    · rfl
    · have hmem : r ∈ d.dinners.rows := (mem_servings.mp (List.mem_of_mem_head? hr)).1
      obtain ⟨w, hw⟩ : ∃ w, d.weeks.find? r.weekId = some w := by
        by_contra hnone
        rw [← Option.ne_none_iff_exists', not_not, Table.find?_eq_none_iff] at hnone
        exact hnone (hf.dinnerWeek r hmem)
      simp only [Option.bind_some, Option.map_some, line, hw, Option.getD_some]
  · rfl

lemma historyDishes_run (L : TextRules) (pat : String) (limit weekId : ℤ) (hf : ForeignKeys d) :
    (historyDishes L pat limit weekId).run d =
      .ok ([], ((hits L pat weekId d).take limit.toNat).map (line d)) := by
  rw [historyDishes, select_run, hits, List.map_take, List.map_filterMap]
  have hfun : (fun dish => (hit L pat weekId d dish).map (line d)) = fun dish => _ :=
    funext fun dish => (hit_line hf dish).symm
  rw [hfun]
  rfl

lemma readIf_run {Q : Type} {A : Q → Type} {σ : Type} (ans : (q : Q) → σ → A q × σ) (s : σ)
    (c : Prop) [Decidable c] {rows : List String} {st : Stmt (List String)}
    (h : st.run d = .ok ([], rows)) :
    (readIf c st : Prog Q A ToolError (List String)).run ans (d, s) =
      (.ok (if c then rows else []), d, s) := by
  unfold readIf
  split
  · rw [Prog.run_query, h]
    rfl
  · rfl

/-- The answer of a search that asks for dishes lists the dinners shown. -/
lemma searchHistoryTool_run {Q : Type} {A : Q → Type} {σ : Type} (ans : (q : Q) → σ → A q × σ)
    (s : σ) (hf : ForeignKeys d) (hq : trimSpace i.query ≠ "")
    (hk : historyKind i.kind = "dishes" ∨ historyKind i.kind = "both") :
    ∃ items, (searchHistoryTool L ctx (some i)).run ans (d, s) =
      (.ok (answer L (trimSpace i.query) ((shown L ctx i d).map (line d)) items), d, s) := by
  have hdishes := historyDishes_run L (pattern i) (positiveOr 10 i.limit) ctx.weekId hf
  obtain ⟨rows, hcart⟩ : ∃ rows, (historyCart L (pattern i) (positiveOr 10 i.limit)).run d =
      .ok ([], rows) := ⟨_, rfl⟩
  refine ⟨if historyKind i.kind = "cart" ∨ historyKind i.kind = "both" then rows else [], ?_⟩
  have hstart : (searchHistoryTool L ctx (some i) : Prog Q A ToolError String) =
      searchHistory L ctx (trimSpace i.query) (historyKind i.kind) (positiveOr 10 i.limit) :=
    if_neg hq
  unfold pattern at hdishes hcart
  rw [hstart, searchHistory, Prog.run_bind_of_ok _ (readIf_run ans s _ hdishes),
    Prog.run_bind_of_ok _ (readIf_run ans s _ hcart)]
  generalize
    (if historyKind i.kind = "cart" ∨ historyKind i.kind = "both" then rows else []) = items
  rw [if_pos hk, answer, shown, pattern]
  split <;> rfl

/-! ### The latest dinner of a dish -/

lemma servings_head (h : (servings d weekId dish).head? = some r) :
    r ∈ d.dinners.rows ∧ Served weekId dish r ∧
      ∀ x ∈ d.dinners.rows, Served weekId dish x → x.dayDate ≤ r.dayDate := by
  obtain ⟨hr, hserved⟩ := mem_servings.mp (List.mem_of_mem_head? h)
  refine ⟨hr, hserved, fun x hx hs => ?_⟩
  have : Std.Total fun a b : Dinner => b.dayDate ≤ a.dayDate := ⟨fun a b => le_total _ _⟩
  have : IsTrans Dinner fun a b => b.dayDate ≤ a.dayDate := ⟨fun a b c h h' => le_trans h' h⟩
  have hsorted : (servings d weekId dish).Pairwise fun a b => b.dayDate ≤ a.dayDate :=
    List.pairwise_insertionSort _ _
  have hmem : x ∈ servings d weekId dish := mem_servings.mpr ⟨hx, hs⟩
  obtain ⟨l, hl⟩ := List.head?_eq_some_iff.mp h
  rw [hl] at hsorted hmem
  rcases List.mem_cons.mp hmem with rfl | hmem
  · exact le_rfl
  · exact (List.pairwise_cons.mp hsorted).1 x hmem

lemma mem_hits : x ∈ hits L pat weekId d ↔ x.1 ∈ d.dishes.rows ∧ matching L pat x.1 = true ∧
    (servings d weekId x.1).head? = some x.2 := by
  obtain ⟨dish, r⟩ := x
  simp only [hits, List.mem_filterMap, List.mem_insertionSort, hit, Option.ite_none_right_eq_some,
    Option.map_eq_some_iff, Prod.mk.injEq]
  constructor
  · rintro ⟨dish', hmem, hmatch, r', hr, rfl, rfl⟩
    exact ⟨hmem, hmatch, hr⟩
  · rintro ⟨hmem, hmatch, hr⟩
    exact ⟨dish, hmem, hmatch, r, hr, rfl, rfl⟩

lemma found_of_mem_hits (h : x ∈ hits L (pattern i) ctx.weekId d) : Found L ctx i d x := by
  obtain ⟨hdish, hmatch, hr⟩ := mem_hits.mp h
  obtain ⟨hdinner, hserved, -⟩ := servings_head hr
  exact ⟨hdish, hdinner, hserved, hmatch⟩

/-- The query keeps no earlier dinner of the dish. -/
lemma exists_hit (h : Found L ctx i d x) :
    ∃ r, (x.1, r) ∈ hits L (pattern i) ctx.weekId d ∧ x.2.dayDate ≤ r.dayDate := by
  have hmem : x.2 ∈ servings d ctx.weekId x.1 := mem_servings.mpr ⟨h.dinner, h.served⟩
  obtain ⟨r, hr⟩ : ∃ r, (servings d ctx.weekId x.1).head? = some r := by
    rw [← Option.isSome_iff_exists, List.isSome_head?]
    exact List.ne_nil_of_mem hmem
  exact ⟨r, mem_hits.mpr ⟨h.dish, h.matching, hr⟩, (servings_head hr).2.2 x.2 h.dinner h.served⟩

/-! ### The limit -/

/-- In a list that ascends, an entry is among the first `n` when fewer come before it. -/
lemma mem_take_iff {α : Type} {f : α → ℤ} {l : List α} (h : l.Pairwise fun a b => f a < f b) {n : ℕ}
    {a : α} : a ∈ l.take n ↔ a ∈ l ∧ (l.filter fun b => f b < f a).length < n := by
  induction l generalizing n with
  | nil => simp
  | cons b l ih =>
    obtain ⟨hb, hl⟩ := List.pairwise_cons.mp h
    cases n with
    | zero => simp
    | succ n =>
      rw [List.take_succ_cons, List.mem_cons, List.mem_cons, ih hl]
      by_cases ha : a = b
      · subst ha
        have hnone : (a :: l).filter (fun c => f c < f a) = [] := by
          simp only [List.filter_eq_nil_iff, List.mem_cons, decide_eq_true_eq, not_lt]
          rintro c (rfl | hc)
          · exact le_rfl
          · exact (hb c hc).le
        simp [hnone]
      · simp only [ha, false_or]
        refine and_congr_right fun hmem => ?_
        rw [List.filter_cons_of_pos (by simpa using hb a hmem), List.length_cons]
        omega

/-- The dishes with a smaller id that the query selects. -/
def earlier (L : TextRules) (ctx : Ctx) (i : SearchHistoryInput) (d : Db) (k : ℤ) : List Dish :=
  d.dishes.rows.filter fun a => a.id < k ∧ matching L (pattern i) a = true ∧
    ∃ r ∈ d.dinners.rows, Served ctx.weekId a r

lemma isSome_hit : (hit L pat weekId d dish).isSome = true ↔
    matching L pat dish = true ∧ ∃ r ∈ d.dinners.rows, Served weekId dish r := by
  unfold hit
  split
  · rename_i hm
    have hne : servings d weekId dish ≠ [] ↔ ∃ r, r ∈ servings d weekId dish :=
      ⟨List.exists_mem_of_ne_nil _, fun ⟨_, h⟩ => List.ne_nil_of_mem h⟩
    rw [Option.isSome_map, List.isSome_head?, hne]
    simp only [mem_servings, hm, true_and]
  · rename_i hm
    simp [hm]

lemma fst_of_hit {x : Dish × Dinner} (h : hit L pat weekId d dish = some x) : x.1 = dish := by
  unfold hit at h
  split at h
  · obtain ⟨r, -, rfl⟩ := Option.map_eq_some_iff.mp h
    rfl
  · cases h

lemma ascending_dishes (d : Db) :
    (d.dishes.rows.insertionSort fun a b => a.id ≤ b.id).Pairwise fun a b => a.id < b.id := by
  have : Std.Total fun a b : Dish => a.id ≤ b.id := ⟨fun a b => le_total _ _⟩
  have : IsTrans Dish fun a b => a.id ≤ b.id := ⟨fun a b c h h' => le_trans h h'⟩
  have hle := List.pairwise_insertionSort (fun a b : Dish => a.id ≤ b.id) d.dishes.rows
  have hne : (d.dishes.rows.insertionSort fun a b => a.id ≤ b.id).Pairwise fun a b =>
      a.id ≠ b.id :=
    List.pairwise_map.mp (((List.perm_insertionSort _ _).map Dish.id).nodup_iff.mpr d.dishes.nodup)
  exact hle.imp₂ (fun a b h h' => lt_of_le_of_ne h h') hne

lemma ascending_hits : (hits L pat weekId d).Pairwise fun a b => a.1.id < b.1.id := by
  rw [hits, List.pairwise_filterMap]
  refine (ascending_dishes d).imp fun {a b} hlt x hx y hy => ?_
  rw [fst_of_hit hx, fst_of_hit hy]
  exact hlt

lemma length_earlier (k : ℤ) :
    ((hits L (pattern i) ctx.weekId d).filter fun x => x.1.id < k).length =
      (earlier L ctx i d k).length := by
  have hlist (l : List Dish) :
      ((l.filterMap (hit L (pattern i) ctx.weekId d)).filter fun x => x.1.id < k).length =
        (l.filter fun a => a.id < k ∧ matching L (pattern i) a = true ∧
          ∃ r ∈ d.dinners.rows, Served ctx.weekId a r).length := by
    induction l with
    | nil => rfl
    | cons a l ih =>
      rcases ha : hit L (pattern i) ctx.weekId d a with _ | x
      · have hno : ¬(matching L (pattern i) a = true ∧
            ∃ r ∈ d.dinners.rows, Served ctx.weekId a r) := by
          rw [← isSome_hit, ha]
          simp
        rw [List.filterMap_cons_none ha, ih, List.filter_cons_of_neg]
        simp [hno]
      · have hyes : matching L (pattern i) a = true ∧
            ∃ r ∈ d.dinners.rows, Served ctx.weekId a r := by
          rw [← isSome_hit, ha]
          rfl
        rw [List.filterMap_cons_some ha, List.filter_cons, List.filter_cons, fst_of_hit ha]
        simp only [hyes, and_true]
        split
        · rw [List.length_cons, List.length_cons, ih]
        · exact ih
  rw [hits, hlist, earlier]
  exact ((List.perm_insertionSort _ _).filter _).length_eq

/-! ### What is shown -/

/-- Where some dinner answers the query, one that no other is later than is shown. -/
def ShowsLatest (L : TextRules) (ctx : Ctx) (i : SearchHistoryInput) (d : Db) : Prop :=
  (∃ x, Found L ctx i d x) →
    ∃ x ∈ shown L ctx i d, Found L ctx i d x ∧ ∀ y, Found L ctx i d y → y.2.dayDate ≤ x.2.dayDate

/-- A dish of the latest day has few enough dishes before it. -/
def InReach (L : TextRules) (ctx : Ctx) (i : SearchHistoryInput) (d : Db) : Prop :=
  ∃ x, Found L ctx i d x ∧ (∀ y, Found L ctx i d y → y.2.dayDate ≤ x.2.dayDate) ∧
    ((earlier L ctx i d x.1.id).length : ℤ) < positiveOr 10 i.limit

lemma mem_shown : x ∈ shown L ctx i d ↔ x ∈ hits L (pattern i) ctx.weekId d ∧
    ((earlier L ctx i d x.1.id).length : ℤ) < positiveOr 10 i.limit := by
  rw [shown, mem_take_iff ascending_hits, length_earlier, Int.lt_toNat]

lemma showsLatest_iff_inReach :
    ShowsLatest L ctx i d ↔ (∀ x, ¬Found L ctx i d x) ∨ InReach L ctx i d := by
  constructor
  · intro h
    by_cases hfound : ∃ x, Found L ctx i d x
    · obtain ⟨x, hx, hfx, hmax⟩ := h hfound
      exact Or.inr ⟨x, hfx, hmax, (mem_shown.mp hx).2⟩
    · exact Or.inl fun x hx => hfound ⟨x, hx⟩
  · rintro (hnone | ⟨x, hx, hmax, hreach⟩) hfound
    · obtain ⟨x, hx⟩ := hfound
      exact absurd hx (hnone x)
    · obtain ⟨r, hhit, hle⟩ := exists_hit hx
      refine ⟨(x.1, r), mem_shown.mpr ⟨hhit, hreach⟩, found_of_mem_hits hhit, fun y hy => ?_⟩
      exact (hmax y hy).trans hle

/-- **When it was last**: a search shows the latest dinner that answers it exactly when none does,
or a dish of the latest day has fewer dishes before it, by their ids, than the limit. -/
theorem showsLatest_iff {Q : Type} {A : Q → Type} {σ : Type} (ans : (q : Q) → σ → A q × σ) (s : σ)
    (L : TextRules) (ctx : Ctx) (i : SearchHistoryInput) (d : Db) (hf : ForeignKeys d)
    (hq : trimSpace i.query ≠ "")
    (hk : historyKind i.kind = "dishes" ∨ historyKind i.kind = "both") :
    (∃ items, (searchHistoryTool L ctx (some i)).run ans (d, s) =
      (.ok (answer L (trimSpace i.query) ((shown L ctx i d).map (line d)) items), d, s)) ∧
    (ShowsLatest L ctx i d ↔ (∀ x, ¬Found L ctx i d x) ∨ InReach L ctx i d) :=
  ⟨searchHistoryTool_run ans s hf hq hk, showsLatest_iff_inReach⟩

/-! ### Two soups -/

/-- Rules that go by letters from `a` to `z`. -/
def latin : TextRules where
  collate a b := a ≤ b
  ilike t pat := (Escaping.ilike Char.toLower t pat).getD false
  quote s := "\"" ++ s ++ "\""
  general q := toString q
  json s := "\"" ++ s ++ "\""

def peaSoup : Dish := ⟨1, "Pea soup", none, "", 4, "[]", none⟩

def fishSoup : Dish := ⟨2, "Fish soup", none, "", 4, "[]", none⟩

/-- One soup on the first day of a plan and the other on the day after. -/
def twoSoups : Db :=
  { threeDays .draft with
    dinners := ⟨[⟨1, 1, 739725, some 1, 4, "\x7b\x7d", "", 0⟩,
      ⟨2, 1, 739726, some 2, 4, "\x7b\x7d", "", 0⟩], 3, by decide, by decide⟩
    dishes := ⟨[peaSoup, fishSoup], 3, by decide, by decide⟩ }

lemma foreignKeys_twoSoups : ForeignKeys twoSoups := by
  constructor <;>
    simp [twoSoups, peaSoup, fishSoup, threeDays, threeDaysWeek, Table.empty, Table.Has]

/-- What is asked, with a limit. -/
def soup (limit : ℤ) : SearchHistoryInput := ⟨"soup", "dishes", limit⟩

lemma matching_soup (limit : ℤ) {dish : Dish}
    (h : "soup".toList.map Char.toLower <:+: dish.name.toList.map Char.toLower) :
    matching latin (pattern (soup limit)) dish = true := by
  have htrim : trimSpace "soup" = "soup" := by decide
  have hname : latin.ilike dish.name (pattern (soup limit)) = true := by
    rw [pattern, soup, htrim, ← Escaping.escapeILIKE_eq]
    simp only [latin, Escaping.ilike, Escaping.toList_pattern, Like.like_between, h, decide_true,
      Option.getD_some]
  rw [matching, hname]
  rfl

lemma found_fish (limit : ℤ) : Found latin background (soup limit) twoSoups
    (fishSoup, ⟨2, 1, 739726, some 2, 4, "\x7b\x7d", "", 0⟩) where
  dish := by simp [twoSoups]
  dinner := by simp [twoSoups]
  served := ⟨rfl, Or.inl rfl⟩
  matching := matching_soup limit (by decide)

lemma day_le_of_found {limit : ℤ} {y : Dish × Dinner}
    (hy : Found latin background (soup limit) twoSoups y) : y.2.dayDate ≤ 739726 := by
  have hmem := hy.dinner
  simp only [twoSoups, List.mem_cons, List.not_mem_nil, or_false] at hmem
  rcases hmem with h | h <;> simp [h]

theorem showsLatest_iff_twoSoups :
    ((∃ items, (searchHistoryTool latin background (some (soup 10)) :
          Prog Unit (fun _ => Unit) ToolError String).run (fun _ s => ((), s)) (twoSoups, ()) =
        (.ok (answer latin (trimSpace (soup 10).query)
          ((shown latin background (soup 10) twoSoups).map (line twoSoups)) items), twoSoups, ())) ∧
      (ShowsLatest latin background (soup 10) twoSoups ↔
        (∀ x, ¬Found latin background (soup 10) twoSoups x) ∨
          InReach latin background (soup 10) twoSoups)) ∧
    ShowsLatest latin background (soup 10) twoSoups := by
  have h := showsLatest_iff (fun (_ : Unit) (s : Unit) => ((), s)) () latin background (soup 10)
    twoSoups foreignKeys_twoSoups (by decide) (by decide)
  refine ⟨h, h.2.mpr (Or.inr ⟨_, found_fish 10, fun y hy => day_le_of_found hy, ?_⟩)⟩
  have hlen : (earlier latin background (soup 10) twoSoups fishSoup.id).length ≤ 2 :=
    List.length_filter_le _ _
  have hten : positiveOr 10 (soup 10).limit = 10 := by decide
  rw [hten]
  calc ((earlier latin background (soup 10) twoSoups fishSoup.id).length : ℤ)
    _ ≤ 2 := by exact_mod_cast hlen
    _ < 10 := by decide

/-- With a limit of one the pea soup is shown, and the fish soup of the day after is not. -/
theorem not_showsLatest : ¬∀ (i : SearchHistoryInput) (d : Db), ForeignKeys d →
    trimSpace i.query ≠ "" → 1 ≤ i.limit → ShowsLatest latin background i d := by
  intro h
  have hshows := h (soup 1) twoSoups foreignKeys_twoSoups (by decide) le_rfl
  rcases showsLatest_iff_inReach.mp hshows with hnone | ⟨x, hx, hmax, hreach⟩
  · exact hnone _ (found_fish 1)
  · have hday := hmax _ (found_fish 1)
    have hid : x.1.id = 2 := by
      have hmem := hx.dinner
      have hserved := hx.served.1
      simp only [twoSoups, List.mem_cons, List.not_mem_nil, or_false] at hmem
      rcases hmem with hr | hr
      · rw [hr] at hday
        exact absurd hday (by decide)
      · rw [hr] at hserved
        exact (Option.some.inj hserved).symm
    have hpea : peaSoup ∈ earlier latin background (soup 1) twoSoups x.1.id := by
      rw [hid, earlier, List.mem_filter, decide_eq_true_iff]
      exact ⟨by simp [twoSoups], by decide, matching_soup 1 (by decide), _,
        List.mem_cons_self, rfl, Or.inl rfl⟩
    have hpos := List.length_pos_of_mem hpea
    have hone : positiveOr 10 (soup 1).limit = 1 := by decide
    rw [hone] at hreach
    omega

end Veckomenyn.LastTime
