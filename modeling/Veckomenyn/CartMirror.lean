import Veckomenyn.CartLog
import Veckomenyn.Dinners

/-!
The shopping list of a plan beside the upstream cart.

The cart tools run over the Willys provider, which runs over upstream. The list follows the
effects of the calls as long as every accepted POST is followed by the cart.
-/

namespace Veckomenyn.CartMirror

open Rows Schema Sql Txn WkCtx Tools CartTools Store Remote Willys WillysProvider Requests
open CartLog

/-! ### The tools over the provider -/

/-- What is outside the database: upstream with the client, and the lines of the log. -/
structure Outside where
  world : World Memory Query Reply
  warnings : List String

variable (ans : Upstream)

/-- A call of a method, its error as a text. -/
def perform {α : Type} (x : WillysProc α) (o : Outside) : Except String α × Outside :=
  ((x.run ans o.world).1.mapError Failure.text, { o with world := (x.run ans o.world).2 })

def provide : (c : Call) → Outside → Answer c × Outside
  | .search query limit, o => perform ans (WillysProvider.search query limit) o
  | .cartGet, o => perform ans cartGet o
  | .cartAdd code qty, o => perform ans (cartAdd code qty) o
  | .cartRemove code, o => perform ans (cartRemove code) o
  | .cartClear, o => perform ans cartClear o
  | .ordersRecent limit, o => perform ans (WillysProvider.ordersRecent limit) o
  | .orderDetail id, o => perform ans (WillysProvider.orderDetail id) o
  | .warn what, o => ((), { o with warnings := o.warnings ++ [what] })

abbrev State := Db × Outside

/-- A tool call on the cart; `none` is input that does not decode. -/
inductive CartCall where
  | add (input : Option CartAddInput)
  | addMany (input : Option (List CartAddInput))
  | remove (input : Option String)
  | clear

/-- The state after a call at the time `now`. -/
def CartCall.step (ctx : Ctx) (now : ℤ) : CartCall → State → State
  | .add input, c => ((shopCartAddTool now ctx input).run (provide ans) c).2
  | .addMany input, c => ((shopCartAddManyTool now ctx input).run (provide ans) c).2
  | .remove input, c => ((shopCartRemoveTool ctx input).run (provide ans) c).2
  | .clear, c => ((shopCartClearTool ctx).run (provide ans) c).2

/-- The calls one after the other, whether they succeed or fail. -/
def steps (ctx : Ctx) : List (ℤ × CartCall) → State → State
  | [], c => c
  | k :: ks, c => steps ctx ks (k.2.step ans ctx k.1 c)

/-! ### The list and the effects -/

/-- The lines of the shopping list of a plan. -/
def listOf (id : ℤ) (d : Db) : List (String × ℚ) :=
  (d.cartItems.rows.filter fun r => r.weekId = some id).map fun r => (r.productCode, r.qty)

def applyEffect (rows : List (String × ℚ)) : CartEffect → List (String × ℚ)
  | .add code qty => rows ++ [(code, (qty : ℚ))]
  | .remove code => rows.filter fun r => r.1 ≠ code
  | .clear => []

def applyEffects (rows : List (String × ℚ)) (es : List CartEffect) : List (String × ℚ) :=
  es.foldl applyEffect rows

/-- What has been asked between two states. -/
def between (c c' : State) : Log := c'.2.world.log.drop c.2.world.log.length

/-- What upstream has to answer a call: the cart after every accepted POST, at the end of a batch,
and at the end of a removal that has lines to drop. -/
def Shown (id : ℤ) (d : Db) (l : Log) : CartCall → Prop
  | .add _ => Tidy l
  | .addMany _ => Tidy l ∧ (effects l ≠ [] → EndsShown l)
  | .remove input => effects l ≠ [] → EndsShown l ∨ ∀ r ∈ listOf id d, some r.1 ≠ input
  | .clear => True

/-- Upstream answers every call so. -/
def AllShown (ctx : Ctx) : List (ℤ × CartCall) → State → Prop
  | [], _ => True
  | k :: ks, c =>
    Shown ctx.weekId c.1 (between c (k.2.step ans ctx k.1 c)) k.2 ∧
      AllShown ctx ks (k.2.step ans ctx k.1 c)

variable {ans}

/-! ### Statements on the list -/

/-- An insert adds its row and no other. -/
lemma rows_insertCartItem {now id : ℤ} {code : String} {qty : ℤ} {reason : String}
    {snapshot : Option Snapshot} {d : Db} {ws : List Write}
    (h : (insertCartItem now id code qty reason snapshot).run d = .ok (ws, ())) :
    (applyAll d ws).cartItems.rows = d.cartItems.rows ++ [⟨d.cartItems.next, some id, code,
      (qty : ℚ), reason, now, false, snapshot⟩] := by
  obtain ⟨q, hq, h⟩ := exists_of_bind h
  obtain ⟨-, -, h⟩ := exists_of_bind h
  obtain rfl : q = (qty : ℚ) := by
    rw [numeric] at hq
    split_ifs at hq
    exact (Except.ok.inj hq).symm
  obtain rfl := (Prod.mk.inj (Except.ok.inj h)).1
  exact Table.rows_put_new le_rfl

lemma listOf_insert {now id : ℤ} {code : String} {qty : ℤ} {reason : String}
    {snapshot : Option Snapshot} {d : Db} {ws : List Write}
    (h : (insertCartItem now id code qty reason snapshot).run d = .ok (ws, ())) :
    listOf id (applyAll d ws) = applyEffect (listOf id d) (.add code qty) := by
  rw [listOf, rows_insertCartItem h, List.filter_append, List.map_append]
  simp [listOf, applyEffect]

lemma listOf_delete {id : ℤ} {p : CartItem → Bool} {d : Db} {ws : List Write}
    (h : (deleteCartItems p).run d = .ok (ws, ())) : listOf id (applyAll d ws) =
      ((d.cartItems.rows.filter fun r => !p r).filter fun r => r.weekId = some id).map
        fun r => (r.productCode, r.qty) := by
  obtain rfl := (Prod.mk.inj (Except.ok.inj h)).1
  rw [applyAll_cartItems, listOf]
  exact congrArg (fun rows => (List.filter _ rows).map _) (Table.rows_del_filter d.cartItems p)

lemma listOf_remove {id : ℤ} {code : String} {d : Db} {ws : List Write}
    (h : (deleteCartItems fun r => r.weekId = some id ∧ r.productCode = code).run d = .ok (ws, ())) :
    listOf id (applyAll d ws) = applyEffect (listOf id d) (.remove code) := by
  rw [listOf_delete h, applyEffect, listOf, List.filter_map, List.filter_filter, List.filter_filter]
  refine congrArg _ (List.filter_congr fun r _ => ?_)
  by_cases hw : r.weekId = some id <;> simp [hw]

lemma listOf_clear {id : ℤ} {d : Db} {ws : List Write}
    (h : (deleteCartItems fun r => r.weekId = some id).run d = .ok (ws, ())) :
    listOf id (applyAll d ws) = [] := by
  rw [listOf_delete h, List.filter_filter, List.map_eq_nil_iff, List.filter_eq_nil_iff]
  intro r _
  by_cases hw : r.weekId = some id <;> simp [hw]

/-! ### Runs of the parts -/

lemma run_ask {α : Type} {r : ShopProg (Except String α)} {x : Except String α} {c c' : State}
    (h : r.run (provide ans) c = (.ok x, c')) :
    (ask r).run (provide ans) c = (x.mapError ToolError.text, c') := by
  rw [ask, Prog.run_bind, h]
  cases x <;> rfl

/-- A statement on the list runs, or the log is told, whatever answers the requests. -/
lemma mirror_cases {σ : Type} (reply : (q : Call) → σ → Answer q × σ) (s : Stmt Unit)
    (what : String) (d : Db) (o : σ) :
    (∃ ws, s.run d = .ok (ws, ()) ∧
      (mirror s what).run reply (d, o) = (.ok (), (applyAll d ws, o))) ∨
      (mirror s what).run reply (d, o) = (.ok (), (d, (reply (.warn what) o).2)) := by
  rw [mirror, Prog.run_bind, Prog.run_tried]
  rcases hs : s.run d with e | ⟨ws, u⟩
  · exact .inr rfl
  · exact .inl ⟨ws, rfl, rfl⟩

variable (ans) in
/-- The statement has run, or the log tells that it has failed. -/
lemma run_mirror (s : Stmt Unit) (what : String) (c : State) :
    ∃ c', (mirror s what).run (provide ans) c = (.ok (), c') ∧ c'.2.world = c.2.world ∧
      c.2.warnings <+: c'.2.warnings ∧ (c'.2.warnings = c.2.warnings →
        ∃ ws, s.run c.1 = .ok (ws, ()) ∧ c'.1 = applyAll c.1 ws) := by
  rcases mirror_cases (provide ans) s what c.1 c.2 with ⟨ws, hs, hrun⟩ | hrun
  · exact ⟨_, hrun, rfl, List.prefix_rfl, fun _ => ⟨ws, hs, rfl⟩⟩
  · refine ⟨_, hrun, rfl, List.prefix_append _ _, fun hw => ?_⟩
    exact absurd hw (by simp [provide])

variable (ans) in
lemma perform_logs {α : Type} {S : Bool → Log → Prop} {x : WillysProc α} (h : Logs S x)
    (o : Outside) : ∃ l, (perform ans x o).2.world.log = o.world.log ++ l ∧
      S (perform ans x o).1.toBool l := by
  obtain ⟨l, hl, hS⟩ := h.run ans o.world
  refine ⟨l, hl, ?_⟩
  rw [perform]
  rcases hr : (x.run ans o.world).1 with e | a <;> rw [hr] at hS <;> exact hS

/-- What a step does to the outside: it adds `l` to the log of upstream. -/
structure Adds (c c' : State) (l : Log) : Prop where
  log : c'.2.world.log = c.2.world.log ++ l
  warnings : c.2.warnings <+: c'.2.warnings

lemma Adds.refl (c : State) : Adds c c [] := ⟨(List.append_nil _).symm, List.prefix_rfl⟩

lemma Adds.trans {a b c : State} {l l' : Log} (h : Adds a b l) (h' : Adds b c l') :
    Adds a c (l ++ l') :=
  ⟨by rw [h'.log, h.log, List.append_assoc], h.warnings.trans h'.warnings⟩

/-- Without a new warning at the end there was none on the way. -/
lemma Adds.silent {a b c : State} {l l' : Log} (h : Adds a b l) (h' : Adds b c l')
    (hw : c.2.warnings = a.2.warnings) :
    b.2.warnings = a.2.warnings ∧ c.2.warnings = b.2.warnings := by
  have hb : b.2.warnings = a.2.warnings :=
    (h.warnings.eq_of_length_le (by rw [← hw]; exact h'.warnings.length_le)).symm
  exact ⟨hb, hw.trans hb.symm⟩

/-! ### One call -/

/-- The list has followed the effects of `l`, if no statement has failed and `ok` holds. -/
def Follows (id : ℤ) (c c' : State) (l : Log) (ok : Prop) : Prop :=
  Adds c c' l ∧ (c'.2.warnings = c.2.warnings → ok →
    listOf id c'.1 = applyEffects (listOf id c.1) (effects l))

variable {ctx : Ctx}

lemma follows_refl (id : ℤ) (c : State) (ok : Prop) : Follows id c c [] ok :=
  ⟨Adds.refl c, fun _ _ => rfl⟩

lemma adds_perform {α : Type} {x : WillysProc α} {c : State} {l : Log}
    (hl : (perform ans x c.2).2.world.log = c.2.world.log ++ l) :
    Adds c (c.1, (perform ans x c.2).2) l := ⟨hl, List.prefix_rfl⟩

variable (ans) in
/-- A statement on the list that does what `es` does to the list. -/
lemma follows_mirror (s : Stmt Unit) (what : String) (c : State) (id : ℤ) (es : List CartEffect)
    (h : ∀ ws, s.run c.1 = .ok (ws, ()) →
      listOf id (applyAll c.1 ws) = applyEffects (listOf id c.1) es) :
    ∃ c', (mirror s what).run (provide ans) c = (.ok (), c') ∧ Adds c c' [] ∧
      (c'.2.warnings = c.2.warnings → listOf id c'.1 = applyEffects (listOf id c.1) es) := by
  obtain ⟨c', hrun, hworld, hpre, hok⟩ := run_mirror ans s what c
  refine ⟨c', hrun, ⟨by rw [hworld, List.append_nil], hpre⟩, fun hw => ?_⟩
  obtain ⟨ws, hs, hd⟩ := hok hw
  rw [hd, h ws hs]

lemma qtyOr1_qtyOr1 (n : ℤ) : qtyOr1 (qtyOr1 n) = qtyOr1 n := by
  unfold qtyOr1
  split_ifs <;> omega

variable (ans) in
/-- A call of a method whose failure the tool passes on. -/
lemma run_perform {α : Type} {q : ShopProg (Except String α)} {x : WillysProc α} {c : State}
    (hq : q.run (provide ans) c = (.ok (perform ans x c.2).1, (c.1, (perform ans x c.2).2))) :
    (∃ e, (perform ans x c.2).1 = .error e ∧
      (ask q).run (provide ans) c = (.error (.text e), (c.1, (perform ans x c.2).2))) ∨
    ∃ a, (perform ans x c.2).1 = .ok a ∧
      (ask q).run (provide ans) c = (.ok a, (c.1, (perform ans x c.2).2)) := by
  have hask := run_ask hq
  rcases hr : (perform ans x c.2).1 with e | a <;> rw [hr] at hask
  · exact Or.inl ⟨e, rfl, hask⟩
  · exact Or.inr ⟨a, rfl, hask⟩

lemma step_add (hc : 0 < ctx.weekId) (now : ℤ) (input : Option CartAddInput) (c : State) :
    ∃ l, Follows ctx.weekId c ((CartCall.add input).step ans ctx now c) l (Tidy l) := by
  cases input with
  | none => exact ⟨[], follows_refl _ c _⟩
  | some i =>
    obtain ⟨l, hl, hP, -⟩ := perform_logs ans (logs_cartAdd i.code (qtyOr1 i.qty)) c.2
    rw [qtyOr1_qtyOr1] at hP
    refine ⟨l, ?_⟩
    rcases run_perform ans (q := Provider.cartAdd i.code (qtyOr1 i.qty)) (c := c) rfl with
      ⟨e, hr, hask⟩ | ⟨cart, hr, hask⟩ <;> rw [hr] at hP
    · have hrun : (shopCartAddTool now ctx (some i)).run (provide ans) c = _ :=
        (Prog.run_bind_of_ok _ rfl).trans (Prog.run_bind_of_error _ hask)
      rw [CartCall.step, hrun]
      exact ⟨adds_perform hl, fun _ ht => by rw [hP.tidy ht]; rfl⟩
    · have hrun : (shopCartAddTool now ctx (some i)).run (provide ans) c = _ :=
        (Prog.run_bind_of_ok _ rfl).trans (Prog.run_bind_of_ok _ hask)
      obtain ⟨c', hmirror, hadds, hlist⟩ := follows_mirror ans
        (insertCartItem now ctx.weekId i.code (qtyOr1 i.qty) i.reason (snapshotLine cart i.code))
        "cart_items insert failed" (c.1, (perform ans (cartAdd i.code (qtyOr1 i.qty)) c.2).2)
        ctx.weekId [.add i.code (qtyOr1 i.qty)] fun ws hs => listOf_insert hs
      rw [CartCall.step, hrun, inPlan, if_pos hc, Prog.run_bind_of_ok _ hmirror]
      refine ⟨by simpa using (adds_perform hl).trans hadds, fun hw ht => ?_⟩
      rw [hP.tidy ht]
      exact hlist hw

lemma step_remove (hc : 0 < ctx.weekId) (now : ℤ) (input : Option String) (c : State) :
    ∃ l, Follows ctx.weekId c ((CartCall.remove input).step ans ctx now c) l
      (effects l ≠ [] → EndsShown l ∨ ∀ r ∈ listOf ctx.weekId c.1, some r.1 ≠ input) := by
  cases input with
  | none => exact ⟨[], follows_refl _ c _⟩
  | some code =>
    obtain ⟨l, hl, hP, -⟩ := perform_logs ans (logs_cartRemove code) c.2
    refine ⟨l, ?_⟩
    have hmany (rows : List (String × ℚ)) : ∀ es : List CartEffect, (∀ f ∈ es, f = .remove code) →
        es ≠ [] → applyEffects rows es = applyEffect rows (.remove code) := by
      intro es hes hne
      induction es generalizing rows with
      | nil => exact absurd rfl hne
      | cons f es ih =>
        obtain rfl := hes f List.mem_cons_self
        rcases es with - | ⟨g, es⟩
        · rfl
        · rw [applyEffects, List.foldl_cons]
          refine (ih _ (fun h hh => hes h (List.mem_cons_of_mem _ hh)) (by simp)).trans ?_
          simp [applyEffect, List.filter_filter]
    rcases run_perform ans (q := Provider.cartRemove code) (c := c) rfl with
      ⟨e, hr, hask⟩ | ⟨cart, hr, hask⟩ <;> rw [hr] at hP
    · have hrun : (shopCartRemoveTool ctx (some code)).run (provide ans) c = _ :=
        (Prog.run_bind_of_ok _ rfl).trans (Prog.run_bind_of_error _ hask)
      rw [CartCall.step, hrun]
      refine ⟨adds_perform hl, fun _ hshown => ?_⟩
      by_cases hne : effects l = []
      · rw [hne]
        rfl
      · -- nothing was left to drop
        have hno := (hshown hne).resolve_left fun hlast => Bool.false_ne_true (hP.last.mp hlast)
        rw [hmany _ _ hP.same hne]
        refine (List.filter_eq_self.mpr fun r hrow => ?_).symm
        exact decide_eq_true fun he => hno r hrow (congrArg some he)
    · have hrun : (shopCartRemoveTool ctx (some code)).run (provide ans) c = _ :=
        (Prog.run_bind_of_ok _ rfl).trans (Prog.run_bind_of_ok _ hask)
      obtain ⟨c', hmirror, hadds, hlist⟩ := follows_mirror ans
        (deleteCartItems fun r => r.weekId = some ctx.weekId ∧ r.productCode = code)
        "cart_items delete failed" (c.1, (perform ans (cartRemove code) c.2).2) ctx.weekId
        [.remove code] fun ws hs => listOf_remove hs
      rw [CartCall.step, hrun, inPlan, if_pos hc, Prog.run_bind_of_ok _ hmirror]
      refine ⟨by simpa using (adds_perform hl).trans hadds, fun hw _ => ?_⟩
      rw [hmany _ _ hP.same (hP.some rfl)]
      exact hlist hw

lemma step_clear (hc : 0 < ctx.weekId) (now : ℤ) (c : State) :
    ∃ l, Follows ctx.weekId c (CartCall.clear.step ans ctx now c) l True := by
  obtain ⟨l, hl, hP, -⟩ := perform_logs ans logs_cartClear c.2
  refine ⟨l, ?_⟩
  rcases run_perform ans (q := Provider.cartClear) (c := c) rfl with
    ⟨e, hr, hask⟩ | ⟨u, hr, hask⟩ <;> rw [hr] at hP
  · have hrun : (shopCartClearTool ctx).run (provide ans) c = _ := Prog.run_bind_of_error _ hask
    rw [CartCall.step, hrun]
    refine ⟨adds_perform hl, fun _ _ => ?_⟩
    rw [show effects l = [] from hP]
    rfl
  · have hrun : (shopCartClearTool ctx).run (provide ans) c = _ := Prog.run_bind_of_ok _ hask
    obtain ⟨c', hmirror, hadds, hlist⟩ := follows_mirror ans
      (deleteCartItems fun r => r.weekId = some ctx.weekId) "cart_items clear failed"
      (c.1, (perform ans cartClear c.2).2) ctx.weekId [.clear] fun ws hs => listOf_clear hs
    rw [CartCall.step, hrun, inPlan, if_pos hc, Prog.run_bind_of_ok _ hmirror]
    refine ⟨by simpa using (adds_perform hl).trans hadds, fun hw _ => ?_⟩
    rw [show effects l = [.clear] from hP]
    exact hlist hw

/-! ### A batch -/

def added (i : CartAddInput) : CartEffect := .add i.code (qtyOr1 i.qty)

variable (ans) in
lemma run_addAll (items : List CartAddInput) (c : State) : ∃ taken errors o l,
    (addAll items).run (provide ans) c = (.ok (taken, errors), (c.1, o)) ∧ Adds c (c.1, o) l ∧
      o.warnings = c.2.warnings ∧ (Tidy l → effects l = taken.map added) := by
  induction items generalizing c with
  | nil => exact ⟨[], [], c.2, [], rfl, Adds.refl c, rfl, fun _ => rfl⟩
  | cons i is ih =>
    obtain ⟨l, hl, hP, -⟩ := perform_logs ans (logs_cartAdd i.code (qtyOr1 i.qty)) c.2
    rw [qtyOr1_qtyOr1] at hP
    obtain ⟨taken, errors, o, l', hrun, hadds, hw, heff⟩ :=
      ih (c.1, (perform ans (cartAdd i.code (qtyOr1 i.qty)) c.2).2)
    have htidy (ht : Tidy (l ++ l')) : effects (l ++ l') =
        (if (perform ans (cartAdd i.code (qtyOr1 i.qty)) c.2).1.toBool then [added i] else []) ++
          taken.map added := by
      rw [effects_append, hP.tidy ht.left, heff ht.right]
      rfl
    rcases hr : (perform ans (cartAdd i.code (qtyOr1 i.qty)) c.2).1 with e | cart <;>
      rw [hr] at htidy
    · have hreq : (Provider.cartAdd i.code (qtyOr1 i.qty)).run (provide ans) c =
          (.ok (.error e), (c.1, (perform ans (cartAdd i.code (qtyOr1 i.qty)) c.2).2)) := by
        rw [← hr]
        rfl
      exact ⟨taken, (i.code ++ ": " ++ e) :: errors, o, l ++ l',
        (Prog.run_bind_of_ok _ hreq).trans (Prog.run_bind_of_ok _ hrun),
        (adds_perform hl).trans hadds, hw, htidy⟩
    · have hreq : (Provider.cartAdd i.code (qtyOr1 i.qty)).run (provide ans) c =
          (.ok (.ok cart), (c.1, (perform ans (cartAdd i.code (qtyOr1 i.qty)) c.2).2)) := by
        rw [← hr]
        rfl
      exact ⟨i :: taken, errors, o, l ++ l',
        (Prog.run_bind_of_ok _ hreq).trans (Prog.run_bind_of_ok _ hrun),
        (adds_perform hl).trans hadds, hw, htidy⟩

variable (ans) in
lemma run_recordAll (now id : ℤ) (cart : Cart) (items : List CartAddInput) (c : State) :
    ∃ c', (recordAll now id cart items).run (provide ans) c = (.ok (), c') ∧ Adds c c' [] ∧
      (c'.2.warnings = c.2.warnings →
        listOf id c'.1 = applyEffects (listOf id c.1) (items.map added)) := by
  induction items generalizing c with
  | nil => exact ⟨c, rfl, Adds.refl c, fun _ => rfl⟩
  | cons i is ih =>
    obtain ⟨c₁, hmirror, hadds, hlist⟩ := follows_mirror ans
      (insertCartItem now id i.code (qtyOr1 i.qty) i.reason (snapshotLine cart i.code))
      "cart_items insert failed" c id [added i] fun ws hs => listOf_insert hs
    obtain ⟨c₂, hrun, hadds', hlist'⟩ := ih c₁
    refine ⟨c₂, (Prog.run_bind_of_ok _ hmirror).trans hrun, hadds.trans hadds', fun hw => ?_⟩
    obtain ⟨hw₁, hw₂⟩ := hadds.silent hadds' hw
    rw [hlist' hw₂, hlist hw₁]
    rfl

lemma step_addMany (hc : 0 < ctx.weekId) (now : ℤ) (input : Option (List CartAddInput)) (c : State) :
    ∃ l, Follows ctx.weekId c ((CartCall.addMany input).step ans ctx now c) l
      (Tidy l ∧ (effects l ≠ [] → EndsShown l)) := by
  cases input with
  | none => exact ⟨[], follows_refl _ c _⟩
  | some items =>
    obtain ⟨taken, errors, o, l, hall, hadds, hw, heff⟩ := run_addAll ans items c
    obtain ⟨l', hl', hP, hne⟩ := perform_logs ans logs_cartGet o
    refine ⟨l ++ l', ?_⟩
    have heff' : effects (l ++ l') = effects l := by
      rw [effects_append, hP.effects, List.append_nil]
    have hadds' : Adds c (c.1, (perform ans cartGet o).2) (l ++ l') :=
      hadds.trans (adds_perform (c := (c.1, o)) hl')
    rcases run_perform ans (q := Provider.cartGet) (c := (c.1, o)) rfl with
      ⟨e, hr, hask⟩ | ⟨cart, hr, hask⟩ <;> rw [hr] at hP
    · have hrun : (shopCartAddManyTool now ctx (some items)).run (provide ans) c = _ :=
        (Prog.run_bind_of_ok _ rfl).trans ((Prog.run_bind_of_ok _ hall).trans
          (Prog.run_bind_of_error _ hask))
      rw [CartCall.step, hrun]
      refine ⟨hadds', fun _ ⟨_, hshown⟩ => ?_⟩
      by_cases hnil : effects (l ++ l') = []
      · rw [hnil]
        rfl
      · -- the cart at the end has failed, but something has been taken
        rcases endsShown_append.mp (hshown hnil) with hlast | ⟨hnil', -⟩
        · exact absurd (hP.last.mp hlast) Bool.false_ne_true
        · exact absurd hnil' hne
    · have hrun : (shopCartAddManyTool now ctx (some items)).run (provide ans) c = _ :=
        (Prog.run_bind_of_ok _ rfl).trans ((Prog.run_bind_of_ok _ hall).trans
          (Prog.run_bind_of_ok _ hask))
      obtain ⟨c', hrecord, hadds'', hlist⟩ := run_recordAll ans now ctx.weekId cart taken
        (c.1, (perform ans cartGet o).2)
      rw [CartCall.step, hrun, inPlan, if_pos hc, Prog.run_bind_of_ok _ hrecord]
      refine ⟨by simpa using hadds'.trans hadds'', fun hw' ⟨ht, _⟩ => ?_⟩
      rw [heff', heff ht.left]
      exact hlist (hw'.trans hw.symm)

/-! ### Every call, and their sequences -/

variable (ans) in
lemma step_follows (hc : 0 < ctx.weekId) (now : ℤ) (k : CartCall) (c : State) :
    ∃ l, Follows ctx.weekId c (k.step ans ctx now c) l (Shown ctx.weekId c.1 l k) := by
  cases k with
  | add input => exact step_add hc now input c
  | addMany input => exact step_addMany hc now input c
  | remove input => exact step_remove hc now input c
  | clear => exact step_clear hc now c

variable (ans) in
lemma steps_follow (hc : 0 < ctx.weekId) (calls : List (ℤ × CartCall)) (c : State) :
    ∃ l, Follows ctx.weekId c (steps ans ctx calls c) l (AllShown ans ctx calls c) := by
  induction calls generalizing c with
  | nil => exact ⟨[], follows_refl _ c _⟩
  | cons k ks ih =>
    obtain ⟨l, hadds, hlist⟩ := step_follows ans hc k.1 k.2 c
    obtain ⟨l', hadds', hlist'⟩ := ih (k.2.step ans ctx k.1 c)
    have hbetween : between c (k.2.step ans ctx k.1 c) = l := by
      rw [between, hadds.log, List.drop_left]
    refine ⟨l ++ l', hadds.trans hadds', fun hw ⟨hshown, hall⟩ => ?_⟩
    rw [hbetween] at hshown
    obtain ⟨hw₁, hw₂⟩ := hadds.silent hadds' hw
    rw [steps, hlist' hw₂ hall, hlist hw₁ hshown, effects_append, applyEffects, applyEffects,
      applyEffects, List.foldl_append]

/-- **The list follows the cart**: if no statement on the list fails, and upstream shows the cart
after every POST it accepts and at the end of a batch, the list of the plan is its old content
under the effects upstream has accepted. -/
theorem list_follows_cart (ans : Upstream) (ctx : Ctx) (hc : 0 < ctx.weekId)
    (calls : List (ℤ × CartCall)) (d : Db) (m : Memory)
    (hw : (steps ans ctx calls (d, ⟨⟨m, []⟩, []⟩)).2.warnings = [])
    (h : AllShown ans ctx calls (d, ⟨⟨m, []⟩, []⟩)) :
    listOf ctx.weekId (steps ans ctx calls (d, ⟨⟨m, []⟩, []⟩)).1 =
      applyEffects (listOf ctx.weekId d)
        (effects (steps ans ctx calls (d, ⟨⟨m, []⟩, []⟩)).2.world.log) := by
  obtain ⟨l, hadds, hlist⟩ := steps_follow ans hc calls (d, ⟨⟨m, []⟩, []⟩)
  rw [hadds.log]
  exact hlist hw h

instance (id : ℤ) (d : Db) (l : Log) (k : CartCall) : Decidable (Shown id d l k) :=
  match k with
  | .add _ => inferInstanceAs (Decidable (Tidy l))
  | .addMany _ => inferInstanceAs (Decidable (Tidy l ∧ (effects l ≠ [] → EndsShown l)))
  | .remove input => inferInstanceAs (Decidable
      (effects l ≠ [] → EndsShown l ∨ ∀ r ∈ listOf id d, some r.1 ≠ input))
  | .clear => instDecidableTrue

instance decidableAllShown (ans : Upstream) (ctx : Ctx) :
    (calls : List (ℤ × CartCall)) → (c : State) → Decidable (AllShown ans ctx calls c)
  | [], _ => instDecidableTrue
  | k :: ks, c =>
    have := decidableAllShown ans ctx ks (k.2.step ans ctx k.1 c)
    inferInstanceAs (Decidable (_ ∧ _))

theorem list_follows_cart_week :
    listOf 1 (steps (replying fun _ => .ok 200) ⟨1⟩ [(0, .add (some ⟨"milk", 2, ""⟩)),
      (0, .addMany (some [⟨"egg", 1, ""⟩, ⟨"milk", 0, ""⟩])), (0, .remove (some "milk"))]
      (Dinners.threeDays .draft, ⟨⟨loggedIn, []⟩, []⟩)).1 = [("egg", 1)] :=
  (list_follows_cart (replying fun _ => .ok 200) ⟨1⟩ (by decide) [(0, .add (some ⟨"milk", 2, ""⟩)),
    (0, .addMany (some [⟨"egg", 1, ""⟩, ⟨"milk", 0, ""⟩])), (0, .remove (some "milk"))]
    (Dinners.threeDays .draft) loggedIn (by decide) (by decide +kernel)).trans
      (by decide)

/-- The POST of an add is accepted and the cart after it fails: upstream has it, the list has not. -/
theorem list_misses_cart :
    ¬∀ (ans : Upstream) (ctx : Ctx), 0 < ctx.weekId →
      ∀ (calls : List (ℤ × CartCall)) (d : Db) (m : Memory),
        (steps ans ctx calls (d, ⟨⟨m, []⟩, []⟩)).2.warnings = [] →
          listOf ctx.weekId (steps ans ctx calls (d, ⟨⟨m, []⟩, []⟩)).1 =
            applyEffects (listOf ctx.weekId d)
              (effects (steps ans ctx calls (d, ⟨⟨m, []⟩, []⟩)).2.world.log) := by
  intro h
  exact absurd (h (replying fun n => .ok (if n = 2 then 500 else 200)) ⟨1⟩ (by decide)
    [(0, .add (some ⟨"milk", 2, ""⟩))] (Dinners.threeDays .draft) loggedIn (by decide))
    (by decide)

end Veckomenyn.CartMirror
