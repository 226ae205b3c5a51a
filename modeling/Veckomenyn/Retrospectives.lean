import Veckomenyn.Conflict
import Veckomenyn.Deleted
import Veckomenyn.LastRating
import Veckomenyn.RetroEditor

/-!
The notes of a plan as a log.

The editor rewrites the newest retrospective of its plan, the agent's tool adds one. What a plan
shows is what came of that: the table, read newest first, is the list the editor's own model keeps
for its server.
-/

namespace Veckomenyn.Retrospectives

open Rows Schema Sql Store Txn WkCtx Tools CartTools Weeks Service Writers Deleted

variable {d d' : Db} {β : Type}

/-! ### The table -/

/-- The retrospectives of a plan, as they are read: the newest first. -/
def retrosOf (rows : List Retrospective) (k : ℤ) : List Retrospective :=
  (rows.filter fun r => r.weekId = k).insertionSort fun a b => b.createdAt ≤ a.createdAt

def notesOf (rows : List Retrospective) (k : ℤ) : List String :=
  (retrosOf rows k).map Retrospective.notesMd

section

variable {α : Type} {R : α → α → Prop} [DecidableRel R]

/-- What comes before all others is taken to the front. -/
lemma insertionSort_snoc {l : List α} {x : α} (h : ∀ y ∈ l, R x y ∧ ¬R y x) :
    (l ++ [x]).insertionSort R = x :: l.insertionSort R := by
  induction l with
  | nil => rfl
  | cons y l ih =>
    obtain ⟨hy, hl⟩ := List.forall_mem_cons.mp h
    rw [List.cons_append, List.insertionSort_cons, ih hl, List.orderedInsert_of_not_le R _ hy.2,
      List.insertionSort_cons]

end

/-- A new one is shown first. -/
lemma notesOf_added {rows : List Retrospective} {r : Retrospective}
    (hnew : ∀ x ∈ rows, x.createdAt < r.createdAt) (k : ℤ) :
    notesOf (rows ++ [r]) k = if r.weekId = k then r.notesMd :: notesOf rows k
      else notesOf rows k := by
  rw [notesOf, retrosOf, List.filter_append, List.filter_singleton]
  split_ifs with hk
  · rw [decide_eq_true hk, cond_true, insertionSort_snoc fun y hy => ?_]
    · rfl
    · have := hnew y (List.mem_of_mem_filter hy)
      omega
  · rw [decide_eq_false hk, cond_false, List.append_nil]
    rfl

lemma mem_retrosOf {rows : List Retrospective} {k : ℤ} {x : Retrospective} :
    x ∈ retrosOf rows k ↔ x ∈ rows ∧ x.weekId = k := by
  rw [retrosOf, List.mem_insertionSort, List.mem_filter, decide_eq_true_iff]

/-- A change that keeps plan and time of each row keeps their order. -/
lemma retrosOf_map {rows : List Retrospective} {g : Retrospective → Retrospective}
    (hweek : ∀ x ∈ rows, (g x).weekId = x.weekId)
    (htime : ∀ x ∈ rows, (g x).createdAt = x.createdAt) (k : ℤ) :
    retrosOf (rows.map g) k = (retrosOf rows k).map g := by
  have hfilter : (rows.map g).filter (fun r => r.weekId = k) =
      (rows.filter fun r => r.weekId = k).map g := by
    rw [List.filter_map]
    exact congrArg _ (List.filter_congr fun x hx => by rw [Function.comp_apply, hweek x hx])
  rw [retrosOf, hfilter, retrosOf]
  refine (List.map_insertionSort (fun a b : Retrospective => b.createdAt ≤ a.createdAt)
    (fun a b => b.createdAt ≤ a.createdAt) g _ fun a ha b hb => ?_).symm
  rw [htime a (List.mem_of_mem_filter ha), htime b (List.mem_of_mem_filter hb)]

/-- One rewritten stays in its place. -/
lemma notesOf_renewed {t : Table Retrospective} {r : Retrospective} {k : ℤ} (notes : String)
    (hr : (retrosOf t.rows k).head? = some r) (j : ℤ) :
    notesOf (t.put { r with notesMd := notes }).rows j =
      if j = k then RetroEditor.upsertWeekRetrospective (notesOf t.rows k) notes
      else notesOf t.rows j := by
  obtain ⟨hmem, hrk⟩ := mem_retrosOf.mp (List.mem_of_head? hr)
  set r' : Retrospective := { r with notesMd := notes }
  have hkey : Keyed.key r' = Keyed.key r := rfl
  have hweek : ∀ x ∈ t.rows, (if Keyed.key x = Keyed.key r' then r' else x).weekId = x.weekId :=
    fun x hx => Conflict.col_renewed hmem hkey rfl hx
  have htime : ∀ x ∈ t.rows, (if Keyed.key x = Keyed.key r' then r' else x).createdAt =
      x.createdAt := fun x hx => Conflict.col_renewed hmem hkey rfl hx
  rw [notesOf, Conflict.rows_renewed hmem hkey, retrosOf_map hweek htime]
  have hother {l : List Retrospective} (hl : ∀ x ∈ l, x.id ≠ r.id) :
      l.map (fun x => if Keyed.key x = Keyed.key r' then r' else x) = l :=
    (List.map_congr_left fun x hx => if_neg (hl x hx)).trans (List.map_id _)
  split_ifs with hj
  · subst hj
    obtain ⟨rest, hrest⟩ : ∃ rest, retrosOf t.rows j = r :: rest := by
      rcases hl : retrosOf t.rows j with _ | ⟨x, rest⟩ <;> rw [hl] at hr <;> cases hr
      exact ⟨rest, rfl⟩
    -- no other row has the identity of the newest one
    have hnodup : (retrosOf t.rows j).Nodup :=
      (List.perm_insertionSort _ _).nodup_iff.mpr ((List.Nodup.of_map _ t.nodup).filter _)
    rw [hrest, List.nodup_cons] at hnodup
    have hids : ∀ x ∈ rest, x.id ≠ r.id := fun x hx hid => by
      have hx' : x ∈ t.rows := (mem_retrosOf.mp (hrest ▸ List.mem_cons_of_mem r hx)).1
      exact hnodup.1 (t.key_inj hx' hmem hid ▸ hx)
    rw [hrest, List.map_cons, hother hids, if_pos hkey.symm, notesOf, hrest]
    rfl
  · rw [hother fun x hx hid => ?_]
    · rfl
    · obtain ⟨hx, hxj⟩ := mem_retrosOf.mp hx
      exact hj (hxj ▸ hrk ▸ congrArg Retrospective.weekId (t.key_inj hx hmem hid))

/-- Without those of one plan. -/
lemma notesOf_without (rows : List Retrospective) (k j : ℤ) :
    notesOf (rows.filter fun r => r.weekId ≠ k) j = if j = k then [] else notesOf rows j := by
  rw [notesOf, retrosOf, List.filter_filter]
  split_ifs with hj
  · have hnone : rows.filter (fun r => decide (r.weekId = j) && decide (r.weekId ≠ k)) = [] := by
      refine List.filter_eq_nil_iff.mpr fun x _ => ?_
      simp [hj]
    rw [hnone]
    rfl
  · have hsame : rows.filter (fun r => decide (r.weekId = j) && decide (r.weekId ≠ k)) =
        rows.filter fun r => r.weekId = j := by
      refine List.filter_congr fun x _ => ?_
      by_cases hx : x.weekId = j <;> simp [hx, hj]
    rw [hsame]
    rfl

/-! ### Requests that leave the notes alone -/

/-- The references hold, and the retrospectives are these. -/
def Still (rows : List Retrospective) (d : Db) : Prop :=
  ForeignKeys d ∧ d.retrospectives.rows = rows

variable {rows : List Retrospective}

lemma retrospectives_applyAll {ws : List Write} (h : ∀ w ∈ ws, w.row.1 ≠ .retrospectives) (d : Db) :
    (applyAll d ws).retrospectives = d.retrospectives := by
  induction ws generalizing d with
  | nil => rfl
  | cons w ws ih =>
    obtain ⟨hw, hws⟩ := List.forall_mem_cons.mp h
    rw [applyAll_cons, ih hws]
    cases w with
    | retrospective w => exact absurd rfl hw
    | _ => rfl

lemma still_of_adds {s : Stmt β} (h : Adds s) (hl : s.label ≠ .insertRetrospective) :
    Prog.Keeping (Still rows) β s := by
  intro d ws b hs hd
  have hw := h d ws b hs hd.1
  refine ⟨foreignKeys_applyAll hd.1 fun w hm => (hw w hm).1, ?_⟩
  rw [retrospectives_applyAll fun w hm hr => hl ((hw w hm).2.2 hr)]
  exact hd.2

lemma still_dinners {s : Stmt β} (h : ∀ d ws b, s.run d = .ok (ws, b) →
    ws = [] ∨ ∃ ks, ws = deleteDinners d ks) : Prog.Keeping (Still rows) β s := by
  intro d ws b hs hd
  rcases h d ws b hs with rfl | ⟨ks, rfl⟩
  · exact hd
  · refine ⟨foreignKeys_deleteDinners hd.1 ks, ?_⟩
    rw [Dinners.deleteDinners_apply]
    exact hd.2

lemma covers_still (rows : List Retrospective) : Covers (Prog.Keeping (Still rows)) where
  read _ s h d ws b hs hd := by
    rw [h d ws b hs]
    exact hd
  createWeek _ _ c := still_of_adds (adds_createWeek c) nofun
  insertWeek _ _ iso s e delivery order notes :=
    still_of_adds (adds_insertWeek iso s e delivery order notes) nofun
  updateWeek _ _ id u := still_of_adds (adds_updateWeek id u) nofun
  shiftDinners _ s id := still_of_adds (adds_shiftDinners s id) nofun
  truncateDinners _ id e := still_dinners (writes_truncateDinners id e)
  addEmptySlots _ id e e' := still_of_adds (adds_addEmptySlots id e e') nofun
  cloneTarget _ _ s id := still_of_adds (adds_cloneTarget s id) nofun
  cloneDinners t id := still_of_adds (adds_cloneDinners t id) nofun
  padDays t := still_of_adds (adds_padDays t) nofun
  insertDish _ name cuisine recipe n tags day :=
    still_of_adds (adds_insertDish name cuisine recipe n tags day) nofun
  insertDinner _ id day dish n sourcing notes :=
    still_of_adds (adds_insertDinner id day dish n sourcing notes) nofun
  repointDinner _ id dish n sourcing notes :=
    still_of_adds (adds_repointDinner id dish n sourcing notes) nofun
  deleteDinner id := still_dinners (writes_deleteDinner id)
  insertException id kind text := still_of_adds (adds_insertException id kind text) nofun
  updateException id kind text := still_of_adds (adds_updateException id kind text) nofun
  deleteException id := still_of_adds (adds_deleteException id) nofun
  upsertRating id rating notes := still_of_adds (adds_upsertRating id rating notes) nofun
  setRating id rating notes := still_of_adds (adds_setRating id rating notes) nofun
  clearRating id := still_of_adds (adds_clearRating id) nofun
  insertCartItem _ id code qty reason snapshot :=
    still_of_adds (adds_insertCartItem id code qty reason snapshot) nofun
  deleteCartItems p := still_of_adds (adds_deleteCartItems p) nofun
  deletePrinciples category := still_of_adds (adds_deletePrinciples category) nofun
  deletePreference category := still_of_adds (adds_deletePreference category) nofun
  insertPrinciple category body := still_of_adds (adds_insertPrinciple category body) nofun
  updateSettings i := still_of_adds (adds_updateSettings i) nofun
  patchSettings u := still_of_adds (adds_patchSettings u) nofun

lemma still_reserve (d : Db) (w : Write) (h : Still rows d) : Still rows (Db.reserve d w) :=
  have hsame : SameRows d (Db.reserve d w) := sameRows_reserveAll d [w]
  ⟨hsame.foreignKeys h.1, hsame.retrospectives.trans h.2⟩

/-! ### The log -/

/-- What a request that succeeds does to the notes of the plans. -/
def noted (r : Service.Request) (log : ℤ → List String) : ℤ → List String :=
  match r with
  | .deleteWeek k => Function.update log k []
  | .putWeekRetrospective k (.ok notes) =>
    Function.update log k (RetroEditor.upsertWeekRetrospective (log k) notes)
  | .call ctx _ (.recordRetrospective (some i)) =>
    match resolvePlan ctx i.weekId with
    | .ok k => Function.update log k (i.notes :: log k)
    | .error _ => log
  | _ => log

lemma noted_plain {r : Service.Request} (h : Request.Plain r) (log : ℤ → List String) :
    noted r log = log := by
  cases r with
  | deleteWeek k => exact h.elim
  | putWeekRetrospective k body => exact h.elim
  | call ctx today call =>
    cases call with
    | recordRetrospective i => exact h.elim
    | _ => rfl
  | _ => rfl

section

variable {σ : Type} (S : Agent.Setup) (ans : (q : Call) → σ → Answer q × σ)

/-- The notes are those of the log after the request, if it has succeeded, and none of them is of
later than `now`. -/
structure Notes (now : ℤ) (r : Service.Request) (ok : Bool) (before after : List Retrospective) :
    Prop where
  log : ∀ k, notesOf after k =
    if ok then noted r (notesOf before) k else notesOf before k
  past : ∀ x ∈ after, x.createdAt ≤ now

lemma Notes.unchanged {now : ℤ} {r : Service.Request} {ok : Bool}
    (hpast : ∀ x ∈ rows, x.createdAt < now) (h : ok = true → noted r = id) :
    Notes now r ok rows rows := by
  refine ⟨fun k => ?_, fun x hx => (hpast x hx).le⟩
  split_ifs with hok
  · rw [h hok]
    rfl
  · rfl

lemma Notes.added {now : ℤ} {r : Service.Request} {x : Retrospective}
    (hpast : ∀ x ∈ rows, x.createdAt < now) (hx : x.createdAt = now)
    (h : noted r (notesOf rows) = Function.update (notesOf rows) x.weekId
      (x.notesMd :: notesOf rows x.weekId)) : Notes now r true rows (rows ++ [x]) := by
  refine ⟨fun k => ?_, fun y hy => ?_⟩
  · rw [notesOf_added (fun y hy => hx ▸ hpast y hy), if_pos rfl, h, Function.update_apply]
    by_cases hk : k = x.weekId
    · rw [if_pos hk.symm, if_pos hk, hk]
    · rw [if_neg (Ne.symm hk), if_neg hk]
  · rcases List.mem_append.mp hy with hy | hy
    · exact (hpast y hy).le
    · rw [List.mem_singleton.mp hy, hx]

/-! ### The editor's request -/

/-- The upsert fails and leaves the database alone, rewrites the newest one, or adds the first. -/
lemma upsert_ends {lost : DbError → Service.Resp} {f : ℕ → Option DbError} (now k : ℤ)
    (notes : String) (c : Db × σ) :
    (∃ e m, (upsertWeekRetrospective now k notes).runWith f lost ans 0 c = ((.error e, m), c)) ∨
    (∃ x m, (retrosOf c.1.retrospectives.rows k).head? = some x ∧
      (upsertWeekRetrospective now k notes).runWith f lost ans 0 c = ((.ok (), m),
        c.1.apply (.retrospective (.put { x with notesMd := notes })), c.2)) ∨
    ∃ m, (retrosOf c.1.retrospectives.rows k).head? = none ∧
      (upsertWeekRetrospective now k notes).runWith f lost ans 0 c = ((.ok (), m),
        c.1.apply (.retrospective (.put ⟨c.1.retrospectives.next, k, notes, now⟩)), c.2) := by
  rw [upsertWeekRetrospective, Prog.runWith_query]
  rcases f 0 with _ | e
  swap
  · exact Or.inl ⟨_, _, rfl⟩
  simp only [select_run, applyAll_nil]
  rcases hw : (c.1.weeks.find? k).isSome with _ | _
  · exact Or.inl ⟨_, _, rfl⟩
  rw [if_pos rfl, Prog.runWith_query]
  rcases f (0 + 1) with _ | e
  swap
  · exact Or.inl ⟨_, _, rfl⟩
  rcases hr : newestRetrospective k c.1 with _ | x
  · have hnone : (updateNewest k notes).run c.1 = .ok ([], 0) := by
      simp only [updateNewest, hr]
    simp only [hnone, applyAll_nil, lt_irrefl, if_false, Prog.query, Prog.runWith]
    rcases f (0 + 1 + 1) with _ | e
    · refine Or.inr (Or.inr ⟨0 + 1 + 1 + 1, hr, ?_⟩)
      simp only [insertRetrospective, references, hw, if_true, bind, Except.bind]
      rfl
    · exact Or.inl ⟨_, _, rfl⟩
  · have hsome : (updateNewest k notes).run c.1 =
        .ok ([.retrospective (.put { x with notesMd := notes })], 1) := by
      simp only [updateNewest, hr]
    simp only [hsome, Nat.zero_lt_one, if_true]
    exact Or.inr (Or.inl ⟨x, _, hr, rfl⟩)

lemma notes_put {lost : DbError → Service.Resp} {f : ℕ → Option DbError} {now k : ℤ}
    {body : Except String String} {c : Db × σ}
    (hpast : ∀ x ∈ c.1.retrospectives.rows, x.createdAt < now) :
    Notes now (.putWeekRetrospective k body)
      (ends ans lost (handlePutWeekRetrospective now k body) f c).1
      c.1.retrospectives.rows
      (ends ans lost (handlePutWeekRetrospective now k body) f c).2.1.retrospectives.rows := by
  unfold ends handlePutWeekRetrospective
  split_ifs with hk
  · exact Notes.unchanged hpast nofun
  · rcases body with e | notes
    · exact Notes.unchanged hpast nofun
    · simp only [Prog.runWith_bind]
      rcases @upsert_ends _ ans lost f now k notes c with
        ⟨e, m, h⟩ | ⟨x, m, hx, h⟩ | ⟨m, hx, h⟩
      · rw [h]
        exact Notes.unchanged hpast nofun
      · rw [h]
        obtain ⟨hmem, -⟩ := mem_retrosOf.mp (List.mem_of_head? hx)
        refine ⟨fun j => ?_, fun y hy => ?_⟩
        · exact (notesOf_renewed notes hx j).trans (Function.update_apply _ _ _ _).symm
        · rcases Table.mem_put.mp hy with rfl | ⟨hy, -⟩
          · exact (hpast x hmem).le
          · exact (hpast y hy).le
      · rw [h]
        have hnone : notesOf c.1.retrospectives.rows k = [] := by
          rw [notesOf, List.head?_eq_none_iff.mp hx]
          rfl
        show Notes now _ true _ (c.1.retrospectives.put _).rows
        rw [Table.rows_put_new le_rfl]
        refine Notes.added hpast rfl ?_
        rw [noted, hnone]
        rfl

/-! ### The agent's tool -/

/-- The transaction adds the one it was given; the ratings are of another table. -/
lemma recordTx_adds {f : ℕ → Option DbError} {now k : ℤ} {i : RetrospectiveInput}
    (hf : ForeignKeys d) {n m : ℕ} {ws : List Write} {u : Unit}
    (h : (LastRating.recordTx now k i).execWith f n d = ((ws, .ok u), m)) :
    (applyAll d ws).retrospectives.rows =
      d.retrospectives.rows ++ [⟨d.retrospectives.next, k, i.notes, now⟩] := by
  change (Tx.stmt (insertRetrospective now k i.notes) ToolError.db fun _ =>
    rateDinners k i.ratings).execWith f n d = _ at h
  rw [Tx.execWith] at h
  rcases hn : f n with _ | e <;> rw [hn] at h
  swap
  · cases h
  rcases hs : (insertRetrospective now k i.notes).run d with e | ⟨vs, u'⟩ <;> rw [hs] at h
  · cases h
  have hadd := adds_insertRetrospective k i.notes d vs u' hs hf
  obtain ⟨_, -, hs⟩ := exists_of_bind hs
  cases hs
  have hstill := Prog.keeping_execWith (f := f)
    (forall_rateDinners (covers_still _) k i.ratings) (n + 1)
    (d := applyAll d [.retrospective (.put ⟨d.retrospectives.next, k, i.notes, now⟩)])
    ⟨foreignKeys_applyAll hf fun w hw => (hadd w hw).1, rfl⟩
  simp only [Prod.mk.injEq] at h
  rw [← h.1.1, applyAll_append]
  exact hstill.2.trans (Table.rows_put_new le_rfl)

lemma notes_record {f : ℕ → Option DbError} {now today : ℤ} {ctx : Ctx}
    {input : Option RetrospectiveInput} {c : Db × σ} (hf : ForeignKeys c.1)
    (hpast : ∀ x ∈ c.1.retrospectives.rows, x.createdAt < now) :
    Notes now (.call ctx today (.recordRetrospective input))
      (ends ans ToolError.db (recordRetrospectiveTool now ctx input) f c).1
      c.1.retrospectives.rows
      (ends ans ToolError.db (recordRetrospectiveTool now ctx input) f
        c).2.1.retrospectives.rows := by
  rcases input with _ | i
  · exact Notes.unchanged hpast nofun
  have htool : (recordRetrospectiveTool now ctx (some i) : ShopProg String) =
      (orFail (resolvePlan ctx i.weekId) >>= fun k =>
        Prog.transaction (LastRating.recordTx now k i) >>= fun _ => pure _) := rfl
  rw [htool]
  rcases hk : resolvePlan ctx i.weekId with e | k
  · exact Notes.unchanged hpast nofun
  have hnoted : noted (.call ctx today (.recordRetrospective (some i)))
      (notesOf c.1.retrospectives.rows) = Function.update (notesOf c.1.retrospectives.rows) k
        (i.notes :: notesOf c.1.retrospectives.rows k) := by
    simp only [noted, hk]
  change Notes now _ (ends ans ToolError.db (Prog.transaction (LastRating.recordTx now k i) >>=
    fun _ => pure _) f c).1 _ (ends ans ToolError.db (Prog.transaction (LastRating.recordTx now k i)
      >>= fun _ => pure _) f c).2.1.retrospectives.rows
  unfold ends
  simp only [Prog.runWith_bind, Prog.runWith_transaction]
  rcases f 0 with _ | e
  swap
  · exact Notes.unchanged hpast nofun
  rcases hexec : (LastRating.recordTx now k i).execWith f (0 + 1) c.1 with ⟨⟨ws, e | u⟩, m⟩
  · simp only
    rw [(sameRows_reserveAll c.1 ws).retrospectives]
    exact Notes.unchanged hpast nofun
  · rcases hm : f m with _ | e <;> simp only [hm]
    · show Notes now _ true _ (applyAll c.1 ws).retrospectives.rows
      rw [recordTx_adds hf hexec]
      exact Notes.added hpast rfl hnoted
    · rw [(sameRows_reserveAll c.1 ws).retrospectives]
      exact Notes.unchanged hpast nofun

/-! ### Any requests -/

lemma notes_visit {c : Db × σ} {v : Visit} (hf : ForeignKeys c.1)
    (hpast : ∀ x ∈ c.1.retrospectives.rows, x.createdAt < v.now) :
    Notes v.now v.request (visit S ans c v).1 c.1.retrospectives.rows
      (visit S ans c v).2.1.retrospectives.rows := by
  by_cases hp : Request.Plain v.request
  · have hstill := visit_keeps S ans still_reserve (covers_still _) (Or.inl hp) (c := c) ⟨hf, rfl⟩
    rw [hstill.2]
    exact Notes.unchanged hpast fun _ => funext (noted_plain hp)
  · unfold visit
    cases hreq : v.request with
    | deleteWeek k =>
      simp only
      rcases hok : (ends ans (fun _ => Service.internalError) (handleDeleteWeek k) v.faults c).1
      · rw [kept_of_not_ok ans hok]
        exact Notes.unchanged hpast nofun
      · obtain ⟨-, hdel⟩ := deleted_of_ok ans hok
        rw [hdel, (without_cascade c.1 k).retrospectives]
        refine ⟨fun j => ?_, fun x hx => (hpast x (List.mem_of_mem_filter hx)).le⟩
        exact (notesOf_without _ k j).trans (Function.update_apply _ _ _ _).symm
    | putWeekRetrospective k body => exact notes_put ans hpast
    | call ctx today call =>
      cases call with
      | recordRetrospective input => exact notes_record ans hf hpast
      | _ =>
        rw [hreq] at hp
        exact absurd trivial hp
    | _ =>
      rw [hreq] at hp
      exact absurd trivial hp

/-- The log after the requests, from the answers they got. -/
def logged (c : Db × σ) : List Visit → (ℤ → List String) → ℤ → List String
  | [], log => log
  | v :: vs, log => logged (visit S ans c v).2 vs
      (if (visit S ans c v).1 then noted v.request log else log)

lemma notes_serve {c : Db × σ} (vs : List Visit) (hf : ForeignKeys c.1)
    (hclock : vs.Pairwise fun v w => v.now < w.now)
    (hpast : ∀ v ∈ vs, ∀ x ∈ c.1.retrospectives.rows, x.createdAt < v.now) :
    notesOf (serve S ans c vs).1.retrospectives.rows =
      logged S ans c vs (notesOf c.1.retrospectives.rows) := by
  induction vs generalizing c with
  | nil => rfl
  | cons v vs ih =>
    obtain ⟨hlater, hclock⟩ := List.pairwise_cons.mp hclock
    have hstep := notes_visit S ans hf (hpast v List.mem_cons_self)
    have hlog : notesOf (visit S ans c v).2.1.retrospectives.rows =
        if (visit S ans c v).1 then noted v.request (notesOf c.1.retrospectives.rows)
          else notesOf c.1.retrospectives.rows := by
      refine funext fun k => (hstep.log k).trans ?_
      split_ifs <;> rfl
    rw [logged, ← hlog]
    refine ih (sound_serve S ans [v] ⟨hf, Later.refl c.1⟩).foreignKeys hclock fun w hw x hx => ?_
    exact (hstep.past x hx).trans_lt (hlater w hw)

/-- **What a plan shows of its retrospectives** is the log of what was written to them, newest
first: one request after the other and later than it, whatever else is asked for in between, and
whichever statements fail, the tool has added one each time it succeeded, the editor has rewritten
the newest each time it did, and no other request, and none that failed, has left a trace. -/
theorem shown_log (c : Db × σ) (vs : List Visit) (hf : ForeignKeys c.1)
    (hclock : vs.Pairwise fun v w => v.now < w.now)
    (hpast : ∀ v ∈ vs, ∀ x ∈ c.1.retrospectives.rows, x.createdAt < v.now) (k : ℤ) :
    ∃ outs, (loadRetrospectives S.pg k).run (serve S ans c vs).1 = .ok ([], outs) ∧
      outs.map RetrospectiveOut.notesMd =
        logged S ans c vs (notesOf c.1.retrospectives.rows) k := by
  refine ⟨_, rfl, ?_⟩
  rw [← notes_serve S ans vs hf hclock hpast, List.map_map]
  rfl

end

/-- The editor writes, the agent records one, and the editor writes again; the last write fails. -/
def written : List Visit := [
  ⟨1, .putWeekRetrospective 1 (.ok "good"), fun _ => none⟩,
  ⟨2, .call ⟨1⟩ 0 (.recordRetrospective (some ⟨0, "too much", []⟩)), fun _ => none⟩,
  ⟨3, .putWeekRetrospective 1 (.ok "enough"), fun _ => none⟩,
  ⟨4, .putWeekRetrospective 1 (.ok "lost"), fun n => if n = 1 then some (.badDate "") else none⟩]

theorem shown_log_written : ∃ outs,
    (loadRetrospectives Frames.noShop.pg 1).run
      (serve Frames.noShop Frames.noAnswers (Dinners.threeDays .ordered, ()) written).1 =
        .ok ([], outs) ∧ outs.map RetrospectiveOut.notesMd = ["enough", "good"] := by
  obtain ⟨outs, hrun, hlog⟩ := shown_log Frames.noShop Frames.noAnswers
    (Dinners.threeDays .ordered, ()) written (Dinners.foreignKeys_threeDays .ordered)
    (by simp [written]) (by simp [Dinners.threeDays, Table.empty]) 1
  exact ⟨outs, hrun, hlog.trans (by rfl)⟩

end Veckomenyn.Retrospectives
