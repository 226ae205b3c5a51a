import Veckomenyn.CloneRows
import Veckomenyn.Faults

/-!
What the answer of a patch or a clone says about the plans, when statements fail.

Until its COMMIT a request that fails has changed nothing. After it the plan is read once more,
for the answer, and when one of those reads fails the answer is an error about a change that is
there; only an error that comes while the rows of a list are read is not noticed.
-/

namespace Veckomenyn.Retries

open Rows DateText Schema Sql Store Weeks Txn Dinners PatchSpec CloneSpec Completeness CloneRows

/-! ### Requests -/

/-- A request to one of the two handlers. -/
inductive Request where
  | patch (now id : ℤ) (body : Except String WeekPatch)
  | clone (now sourceId : ℤ) (body : Except String String)

namespace Request

def handler (pg : Pg) : Request → Prog Empty Empty.elim Resp Resp
  | patch now id body => handlePatchWeek pg now id body
  | clone now sourceId body => handleCloneWeek pg now sourceId body

end Request

/-- The handlers ask nothing of the outside world. -/
def noAsk : (q : Empty) → Unit → Empty.elim q × Unit := fun q => q.elim

/-- What a handler answers when those of its statements fail that `f` tells, and the database it
leaves. -/
def serve (f : ℕ → Option DbError) (x : Prog Empty Empty.elim Resp Resp) (d : Db) :
    Except Resp Resp × Db :=
  let out := x.runWith f (fun _ => internalError) noAsk 0 (d, ())
  (out.1.1, out.2.1)

/-- The same rows of `weeks` and `week_dinners`. -/
def SamePlans (d d' : Db) : Prop := d'.weeks.rows = d.weeks.rows ∧ d'.dinners.rows = d.dinners.rows

instance (d d' : Db) : Decidable (SamePlans d d') := by unfold SamePlans; infer_instance

def IsDetail (r : Resp) : Prop := ∃ detail, r = .json detail

/-- An error answers for unchanged plans, and changed plans for a success. -/
def Honest (d : Db) (out : Except Resp Resp × Db) : Prop :=
  ((∃ e, out.1 = .error e) → SamePlans d out.2) ∧
    (¬SamePlans d out.2 → ∃ detail, out.1 = .ok (.json detail))

/-- The reads after the COMMIT whose failure is an error: the plan, its notes, and the queries of its
four lists. The query of a list is followed by the reading of its rows. -/
def needed : List ℕ := [0, 1, 2, 4, 6, 8]

/-- The transaction commits other plans, every statement of it goes through, and one of the needed
reads after it fails. -/
def LateFault {α : Type} (body : Tx Resp α) (d : Db) (f : ℕ → Option DbError) : Prop :=
  (∃ a d', body.run d = (.ok a, d') ∧ ¬SamePlans d d') ∧
    (∀ i < body.sent d + 2, f i = none) ∧ ∃ i ∈ needed, f (body.sent d + 2 + i) ≠ none

/-- The request gets to a transaction, and that one has a late fault. -/
def Request.Late (pg : Pg) (f : ℕ → Option DbError) (d : Db) : Request → Prop
  | patch now id body => ∃ p, body = .ok p ∧ 1 ≤ id ∧ dateOk p.startDate = true ∧
      dateOk p.endDate = true ∧ LateFault (patchTx pg now id p) d f
  | clone now sourceId body => ∃ s, body = .ok s ∧ 1 ≤ sourceId ∧
      (s = "" ∨ isoShape s.toList = true) ∧ LateFault (cloneTx pg now s sourceId) d f

variable {pg : Pg} {d d' : Db} {id : ℤ} {w : Week} {f : ℕ → Option DbError}

/-! ### The reads of the answer -/

lemma reads_readOne {α β : Type} {s : Stmt (Option β)} {g : β → Prog Empty Empty.elim Resp α}
    {P : α → Prop} {b : β} (needs : List ℕ) (hs : s.run d = .ok ([], some b))
    (hg : Prog.Reads noAsk (g b) (d, ()) needs P) :
    Prog.Reads noAsk (readOne s >>= g) (d, ()) (0 :: needs.map (· + 1)) P := by
  rw [readOne, Prog.bind_assoc]
  exact Prog.reads_query hs hg

/-- The first of the two statements of a list is needed. -/
lemma reads_readRows {α β : Type} (rows : Db → List β)
    {g : List β → Prog Empty Empty.elim Resp α} {P : α → Prop} (needs : List ℕ)
    (hg : ∀ l, Prog.Reads noAsk (g l) (d, ()) needs P) :
    Prog.Reads noAsk (readRows (select .read rows) >>= g) (d, ())
      (0 :: needs.map (· + 1 + 1)) P := by
  have hneeds : needs.map (· + 1 + 1) = (needs.map (· + 1)).map (· + 1) := by
    rw [List.map_map]
    rfl
  rw [readRows, Prog.bind_assoc, hneeds]
  refine Prog.reads_query (select_run _ _ d) ?_
  rw [Prog.bind_assoc]
  exact Prog.reads_tried (select_run _ _ d) fun come => hg (rowsSoFar (rows d) come)

lemma reads_reload (pg : Pg) (hw : d.weeks.find? id = some w) :
    Prog.Reads noAsk (reload pg id : Prog Empty Empty.elim Resp Resp) (d, ()) needed IsDetail := by
  have hsummary : (select .read fun d => (d.weeks.find? id).map (weekSelect pg d)).run d =
      .ok ([], some (weekSelect pg d w)) := by rw [select_run, hw, Option.map_some]
  have hnotes : (select .read fun d =>
      (d.weeks.find? (weekSelect pg d w).id).map Week.notesMd).run d = .ok ([], some w.notesMd) := by
    have hid : (weekSelect pg d w).id = id := (Table.find?_eq_some.mp hw).2
    rw [select_run, hid, hw, Option.map_some]
  rw [reload]
  refine reads_readOne [0, 1, 3, 5, 7] hsummary ?_
  rw [loadWeekDetail, Prog.bind_assoc]
  refine reads_readOne [0, 2, 4, 6] hnotes ?_
  rw [Prog.bind_assoc]
  refine reads_readRows _ [0, 2, 4] fun dinners => ?_
  rw [Prog.bind_assoc]
  refine reads_readRows _ [0, 2] fun exceptions => ?_
  rw [Prog.bind_assoc]
  refine reads_readRows _ [0] fun retros => ?_
  rw [Prog.bind_assoc]
  refine reads_readRows _ [] fun cart => ?_
  exact Prog.reads_pure _ ⟨_, rfl⟩

/-! ### The answer -/

lemma SamePlans.refl (d : Db) : SamePlans d d := ⟨rfl, rfl⟩

lemma samePlans_reserveAll (d : Db) (ws : List Write) : SamePlans d (reserveAll d ws) :=
  ⟨(sameRows_reserveAll d ws).weeks, (sameRows_reserveAll d ws).dinners⟩

lemma honest_of_same (out : Except Resp Resp × Db) (h : SamePlans d out.2) : Honest d out :=
  ⟨fun _ => h, fun hn => absurd h hn⟩

lemma samePlans_of_error {α : Type} {body : Tx Resp α} {e : Resp} (h : body.run d = (.error e, d')) :
    SamePlans d d' := by
  rw [Tx.run] at h
  rcases hx : body.exec d with ⟨ws, g | a⟩
  · rw [hx] at h
    cases h
    exact samePlans_reserveAll d ws
  · rw [hx] at h
    cases h

lemma serve_bind_error {α : Type} {x : Prog Empty Empty.elim Resp α}
    (g : α → Prog Empty Empty.elim Resp Resp) {e : Resp} {m : ℕ} {v : Db}
    (h : x.runWith f (fun _ => internalError) noAsk 0 (d, ()) = ((.error e, m), v, ())) :
    serve f (x >>= g) d = (.error e, v) := by
  rw [serve, Prog.runWith_bind, h]

lemma serve_bind_ok {α : Type} {x : Prog Empty Empty.elim Resp α}
    (g : α → Prog Empty Empty.elim Resp Resp) {a : α} {m : ℕ} {v : Db}
    (h : x.runWith f (fun _ => internalError) noAsk 0 (d, ()) = ((.ok a, m), v, ())) :
    serve f (x >>= g) d =
      (((g a).runWith f (fun _ => internalError) noAsk m (v, ())).1.1,
        ((g a).runWith f (fun _ => internalError) noAsk m (v, ())).2.1) := by
  rw [serve, Prog.runWith_bind, h]

variable {α : Type} {body : Tx Resp α} {g : α → Prog Empty Empty.elim Resp Resp}

/-- Up to its COMMIT a failure leaves the plans as they were. -/
lemma honest_of_fault {i : ℕ} (hi : i < body.sent d + 2) (h : f i ≠ none) :
    Honest d (serve f (Prog.transaction body >>= g) d) := by
  obtain ⟨e, m, ws, hrun⟩ := Prog.runWith_transaction_some (fun _ => internalError)
    noAsk body (d, ()) hi h
  refine honest_of_same _ ?_
  rw [serve_bind_error _ hrun]
  exact samePlans_reserveAll d ws

/-- So does a request that is refused. -/
lemma honest_of_refused {e : Resp} (hclean : ∀ i < body.sent d + 2, f i = none)
    (hb : body.run d = (.error e, d')) : Honest d (serve f (Prog.transaction body >>= g) d) := by
  obtain ⟨m, hrun, -⟩ := Prog.runWith_transaction_none (fun _ => internalError)
    noAsk body (d, ()) hclean
  simp only [hb] at hrun
  refine honest_of_same _ ?_
  rw [serve_bind_error _ hrun]
  exact samePlans_of_error hb

/-- After the COMMIT the answer hangs on the reads. -/
lemma honest_committed_iff {a : α} (hclean : ∀ i < body.sent d + 2, f i = none)
    (hb : body.run d = (.ok a, d')) (hg : Prog.Reads noAsk (g a) (d', ()) needed IsDetail) :
    Honest d (serve f (Prog.transaction body >>= g) d) ↔
      ((∃ i ∈ needed, f (body.sent d + 2 + i) ≠ none) → SamePlans d d') := by
  obtain ⟨m, hrun, hm⟩ := Prog.runWith_transaction_none (fun _ => internalError)
    noAsk body (d, ()) hclean
  obtain rfl : m = body.sent d + 2 := hm a (by rw [hb])
  simp only [hb] at hrun
  obtain ⟨hstate, hok, herr⟩ := hg f (fun _ => internalError) (body.sent d + 2)
  rw [serve_bind_ok _ hrun]
  simp only [hstate, Honest]
  by_cases hread : ∃ i ∈ needed, f (body.sent d + 2 + i) ≠ none
  · refine ⟨fun h _ => h.1 (herr hread), fun h => ?_⟩
    exact honest_of_same (_, d') (h hread)
  · obtain ⟨r, hr, detail, hdetail⟩ := hok fun i hi => by
      by_contra hf
      exact hread ⟨i, hi, hf⟩
    refine iff_of_true ⟨?_, fun _ => ⟨detail, by rw [hr, hdetail]⟩⟩ fun h => absurd h hread
    rintro ⟨e, he⟩
    rw [hr] at he
    cases he

lemma serve_honest_iff (hg : ∀ a d', body.run d = (.ok a, d') →
      Prog.Reads noAsk (g a) (d', ()) needed IsDetail) :
    Honest d (serve f (Prog.transaction body >>= g) d) ↔ ¬LateFault body d f := by
  by_cases hclean : ∀ i < body.sent d + 2, f i = none
  · rcases hb : body.run d with ⟨e | a, d'⟩
    · refine iff_of_true (honest_of_refused hclean hb) ?_
      rintro ⟨⟨a, v, ha, -⟩, -⟩
      rw [hb] at ha
      cases ha
    · rw [honest_committed_iff hclean hb (hg a d' hb)]
      constructor
      · rintro h ⟨⟨b, v, hv, hne⟩, -, hread⟩
        rw [hb] at hv
        cases hv
        exact hne (h hread)
      · intro h hread
        by_contra hne
        exact h ⟨⟨a, d', hb, hne⟩, hclean, hread⟩
  · push Not at hclean
    obtain ⟨i, hi, hf⟩ := hclean
    exact iff_of_true (honest_of_fault hi hf) fun h => hf (h.2.1 i hi)

/-! ### The two handlers -/

lemma patchTx_reads {now : ℤ} {p : WeekPatch} (hs : dateOk p.startDate = true)
    (he : dateOk p.endDate = true) {u : Unit} (h : (patchTx pg now id p).run d = (.ok u, d')) :
    Prog.Reads noAsk (reload pg id : Prog Empty Empty.elim Resp Resp) (d', ()) needed
      IsDetail := by
  obtain ⟨m, w, w', hp⟩ := patched_of_ok hs he (Tx.inside_of_run_ok h)
  exact reads_reload pg ((findWeek_patched hp id).trans (if_pos rfl))

lemma cloneTx_reads {now sourceId k : ℤ} {s : String}
    (h : (cloneTx pg now s sourceId).run d = (.ok k, d')) :
    Prog.Reads noAsk (reload pg k : Prog Empty Empty.elim Resp Resp) (d', ()) needed
      IsDetail := by
  obtain ⟨src, w, rfl, hc⟩ := cloned_of_ok (Tx.inside_of_run_ok h)
  exact reads_reload pg ((findWeek_cloned hc w.id).trans (if_pos rfl))

/-- A request that is refused before its transaction. -/
lemma honest_fail_iff {e : Resp} {late : Prop} (h : ¬late) :
    Honest d (serve f (Prog.fail e) d) ↔ ¬late :=
  iff_of_true (honest_of_same _ (SamePlans.refl d)) h

lemma patch_honest_iff (now id : ℤ) (body : Except String WeekPatch) :
    Honest d (serve f (handlePatchWeek pg now id body) d) ↔
      ¬(Request.patch now id body).Late pg f d := by
  simp only [Request.Late]
  unfold handlePatchWeek
  split_ifs with hid
  · refine honest_fail_iff ?_
    rintro ⟨p, -, h, -⟩
    omega
  · rcases body with e | p
    · refine honest_fail_iff ?_
      rintro ⟨p, hp, -⟩
      cases hp
    · simp only
      split_ifs with hs he
      · refine honest_fail_iff ?_
        rintro ⟨q, hq, -, h, -⟩
        cases hq
        simp [h] at hs
      · refine honest_fail_iff ?_
        rintro ⟨q, hq, -, -, h, -⟩
        cases hq
        simp [h] at he
      · have hs' : dateOk p.startDate = true := by simpa using hs
        have he' : dateOk p.endDate = true := by simpa using he
        rw [serve_honest_iff fun _ _ h => patchTx_reads hs' he' h, not_iff_not]
        constructor
        · exact fun h => ⟨p, rfl, by omega, hs', he', h⟩
        · rintro ⟨q, hq, -, -, -, h⟩
          cases hq
          exact h

lemma clone_honest_iff (now sourceId : ℤ) (body : Except String String) :
    Honest d (serve f (handleCloneWeek pg now sourceId body) d) ↔
      ¬(Request.clone now sourceId body).Late pg f d := by
  simp only [Request.Late]
  unfold handleCloneWeek
  split_ifs with hid
  · refine honest_fail_iff ?_
    rintro ⟨p, -, h, -⟩
    omega
  · rcases body with e | s
    · refine honest_fail_iff ?_
      rintro ⟨s, hs, -⟩
      cases hs
    · simp only
      split_ifs with hs
      · refine honest_fail_iff ?_
        rintro ⟨q, hq, -, h, -⟩
        cases hq
        rcases h with h | h
        · exact hs.1 h
        · simp [h] at hs
      · have hs' : s = "" ∨ isoShape s.toList = true := by
          by_contra hn
          push Not at hn
          exact hs ⟨hn.1, by simpa using hn.2⟩
        rw [serve_honest_iff fun _ _ h => cloneTx_reads h, not_iff_not]
        constructor
        · exact fun h => ⟨s, rfl, by omega, hs', h⟩
        · rintro ⟨q, hq, -, -, h⟩
          cases hq
          exact h

/-- **Errors and changes**: an error answers for unchanged plans and changed plans for a success,
exactly when the request does not change the plans with all its statements up to the COMMIT and then
has one of the needed reads after it fail. -/
theorem honest_iff (pg : Pg) (r : Request) (f : ℕ → Option DbError) (d : Db) :
    Honest d (serve f (r.handler pg) d) ↔ ¬r.Late pg f d := by
  cases r with
  | patch now id body => exact patch_honest_iff now id body
  | clone now sourceId body => exact clone_honest_iff now sourceId body

/-- Reading the dinners breaks off after the first of them: the answer is a success. -/
example : (serve (fun i => if i = 8 then some (.brokenOff 1) else none)
    (Request.handler Pg.plain (.patch 5 1 (.ok (Move.patch ⟨none, some 739729⟩))))
    (threeDays .draft)).1.toBool = true := by decide

/-- The end of a plan moved by two days, and the first of the reads after the COMMIT fails. -/
theorem not_honest : ¬∀ (r : Request) (f : ℕ → Option DbError) (d : Db),
    Honest d (serve f (r.handler Pg.plain) d) := by
  intro h
  have hone := (h (.patch 5 1 (.ok (Move.patch ⟨none, some 739729⟩)))
    (fun i => if i = 5 then some (.badDate "") else none) (threeDays .draft)).1
  have hsame := hone ⟨internalError, rfl⟩
  exact absurd hsame (by decide)

end Veckomenyn.Retries
