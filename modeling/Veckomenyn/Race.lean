import Veckomenyn.BothDates
import Veckomenyn.PatchSteps

/-!
Two patches of one plan at the same time.

A patch reads the dates of the plan, decides by them what becomes of the dinners, and only
then updates the row of the plan, which is where it first waits for the other. If the dates
are still the ones it read when it gets there, the two patches end as they would one after
the other, in the order in which they commit.
-/

namespace Veckomenyn.Race

open Rows DateText Schema Sql Store Weeks Txn Dinners PatchSpec PatchSteps

/-- A request to patch a plan, with the time its transaction begins at. -/
structure Request where
  now : ℤ
  body : Except String WeekPatch

abbrev Server := Sys Db Write DbError Label Empty Empty.elim Bool (fun _ => Resp) (fun _ => Resp)

def handler (pg : Pg) (id : ℤ) (r : Request) : Prog Empty Empty.elim Resp Resp :=
  handlePatchWeek pg r.now id r.body

/-- Two requests for the plan `id` that reach the server together. -/
def race (pg : Pg) (id : ℤ) (req : Bool → Request) (d : Db) : Server :=
  Sys.start d fun i => handler pg id (req i)

/-- A request served alone. -/
def served (pg : Pg) (id : ℤ) (r : Request) (d : Db) : Db := (perform (handler pg id r) d).2

def carriesDate (p : WeekPatch) : Bool := p.startDate.isSome || p.endDate.isSome

def Request.carriesDate (r : Request) : Bool :=
  match r.body with
  | .ok p => Race.carriesDate p
  | .error _ => false

/-- What each request has read of the dates so far. -/
abbrev Seen := Bool → Option (Option (String × String))

def look (id : ℤ) (s : Server) (i : Bool) (seen : Seen) : Seen :=
  if (s.cl i).next? = some .weekDates then Function.update seen i (some (storedDates id s.db))
  else seen

/-- The client is not about to update the plan by dates that are no longer the stored ones. -/
def upToDate (id : ℤ) (req : Bool → Request) (s : Server) (i : Bool) (seen : Seen) : Bool :=
  !(decide ((s.cl i).next? = some .updateWeek) && (req i).carriesDate) ||
    decide (seen i = some (storedDates id s.db))

/-- Along the run, a request that carries a date gets to its update only while the stored dates
are those it read. -/
def current (id : ℤ) (req : Bool → Request) : Seen → Server → List Bool → Bool
  | _, _, [] => true
  | seen, s, i :: is => upToDate id req s i seen &&
    match s.step i with
    | none => true
    | some s' => current id req (look id s i seen) s' is

/-! ### Where a patch stands -/

abbrev Place := Client Db Write DbError Label Empty Empty.elim Resp Resp

/-- What a handler does when its transaction has ended. -/
def afterTx (pg : Pg) (id : ℤ) (res : Except Resp Unit) : Prog Empty Empty.elim Resp Resp :=
  (Prog.ret res).bind fun _ => reload pg id

/-- The patch `p` has read the dates `cs` and `ce` and not yet updated the plan; `x` is what it has
still to do before it does. -/
structure Prepares (pg : Pg) (now id : ℤ) (p : WeekPatch) (cs : String) (pend : List Write)
    (x : Tx Resp WeekUpdate) (c : Place) : Prop where
  place : c = .inTx pend (x >>= saveWeek pg now id) (afterTx pg id)
  menu : ∀ w ∈ pend, MenuWrite w
  calm : x.Forall (Calm id) (Sends p cs)

/-- The patch has updated the plan to `w'` and is about to commit. -/
structure HasUpdated (pg : Pg) (id : ℤ) (pend : List Write) (w' : Week) (c : Place) : Prop where
  place : c = .inTx (pend ++ [.week (.put w')]) (.ret (.ok ())) (afterTx pg id)
  row : w'.id = id
  menu : ∀ w ∈ pend, MenuWrite w

/-- The patch has failed. -/
def Lost (s : Server) (i : Bool) : Prop := i ∉ s.commits ∧
  ((∃ (pend : List Write) (e : Resp) (k : Except Resp Unit → Prog Empty Empty.elim Resp Resp),
      (∀ e, k (.error e) = .ret (.error e)) ∧
        s.cl i = .inTx pend (.ret (.error e) : Tx Resp Unit) k) ∨
    ∃ e, s.cl i = .idle (.ret (.error e)))

variable {pg : Pg} {id : ℤ} {s s' : Server} {i j : Bool}

lemma quiet_select {ε β : Type} (l : Label) (f : Db → β) (fail : DbError → ε) :
    (Prog.query (select l f) fail : Prog Empty Empty.elim ε β).Quiet := by
  refine ⟨fun d ws b h => ?_, fun r => ?_⟩
  · cases h
    rfl
  · cases r <;> trivial

lemma quiet_readOne {β : Type} (f : Db → Option β) :
    (readOne (select .read f) : Prog Empty Empty.elim Resp β).Quiet :=
  (quiet_select _ _ _).bind fun b => by cases b <;> trivial

lemma quiet_readRows {β : Type} (f : Db → List β) :
    (readRows (select .read f) : Prog Empty Empty.elim Resp (List β)).Quiet := by
  refine (quiet_select _ _ _).bind fun rows => Prog.Quiet.bind ⟨fun d ws b h => ?_, fun _ => trivial⟩
    fun _ => trivial
  cases h
  rfl

lemma quiet_reload (pg : Pg) (id : ℤ) :
    (reload pg id : Prog Empty Empty.elim Resp Resp).Quiet := by
  have done {α : Type} (a : α) : (pure a : Prog Empty Empty.elim Resp α).Quiet := trivial
  refine (quiet_readOne _).bind fun ws => Prog.Quiet.bind ?_ fun _ => done _
  refine (quiet_readOne _).bind fun _ => (quiet_readRows _).bind fun _ => ?_
  exact (quiet_readRows _).bind fun _ => (quiet_readRows _).bind fun _ =>
    (quiet_readRows _).bind fun _ => done _

lemma sameRows_view (s : Server) (i : Bool) :
    SameRows (applyAll s.db (s.cl i).pend) (s.view i) := sameRows_reserveAll _ _

/-- A failed patch never commits. -/
lemma lost_step (h : Lost s i) (hs : s.step j = some s') : Lost s' i := by
  obtain ⟨hn, h⟩ := h
  by_cases hij : i = j
  · subst hij
    rcases h with ⟨pend, e, k, hk, hc⟩ | ⟨e, hc⟩
    · rw [Sys.step_rollback hc, Option.some.injEq] at hs
      subst hs
      exact ⟨hn, Or.inr ⟨e, by rw [Sys.set_cl_self, hk]⟩⟩
    · rw [Sys.step_ret hc] at hs
      cases hs
  · refine ⟨fun hmem => ?_, ?_⟩
    · rcases Sys.step_commits hs with hc | hc <;> rw [hc] at hmem
      · exact hn hmem
      · rcases List.mem_append.mp hmem with hmem | hmem
        · exact hn hmem
        · exact hij (List.mem_singleton.mp hmem)
    · rwa [Sys.step_cl_of_ne hs hij]

/-- What a patch does next while it prepares its update: it fails, or sends a calm statement, or
updates the plan. -/
lemma prepares_step {now : ℤ} {p : WeekPatch} {cs : String} {pend : List Write}
    {x : Tx Resp WeekUpdate} (hc : Prepares pg now id p cs pend x (s.cl i)) (hn : i ∉ s.commits)
    (hs : s.step i = some s') : Lost s' i ∨
      (∃ (β : Type) (t : Stmt β) (f : DbError → Resp) (k : β → Tx Resp WeekUpdate)
          (ws : List Write) (b : β), x = .stmt t f k ∧ Calm id β t ∧
        t.run (s.view i) = .ok (ws, b) ∧ (s.cl i).next? = some t.label ∧
        s' = { s.set i (.inTx (pend ++ ws) (k b >>= saveWeek pg now id) (afterTx pg id)) with
          drawn := s.drawn ++ ws } ∧
        Prepares pg now id p cs (pend ++ ws) (k b) (s'.cl i)) ∨
      ∃ u w w', x = pure u ∧ Sends p cs u ∧ (s.cl i).next? = some .updateWeek ∧
        s.db.weeks.find? id = some w ∧ Saves pg now u w w' ∧
        s' = { s.set i (.inTx (pend ++ [.week (.put w')]) (.ret (.ok ())) (afterTx pg id)) with
          drawn := s.drawn ++ [.week (.put w')] } ∧
        HasUpdated pg id pend w' (s'.cl i) := by
  obtain ⟨hplace, hmenu, hcalm⟩ := hc
  have failed (e : Resp) : Lost (s.set i (.inTx pend (.ret (.error e)) (afterTx pg id))) i :=
    ⟨hn, Or.inl ⟨pend, e, afterTx pg id, fun _ => rfl, Sys.set_cl_self _⟩⟩
  have rolled (e : Resp) (h : s.cl i = .inTx pend (.ret (.error e)) (afterTx pg id)) :
      Lost s' i := lost_step ⟨hn, Or.inl ⟨pend, e, afterTx pg id, fun _ => rfl, h⟩⟩ hs
  match x, hplace, hcalm with
  | .ret (.error e), hplace, _ => exact Or.inl (rolled e hplace)
  | .stmt t f k, hplace, hcalm =>
    rcases Sys.step_stmt hplace hs with ⟨e, -, rfl⟩ | ⟨ws, b, ht, -, rfl⟩
    · exact Or.inl (failed _)
    · refine Or.inr (Or.inl ⟨_, t, f, k, ws, b, rfl, hcalm.1, ht, by rw [hplace]; rfl, rfl, ?_⟩)
      refine ⟨Sys.set_cl_self _, fun w hw => ?_, hcalm.2 b⟩
      rcases List.mem_append.mp hw with hw | hw
      · exact hmenu w hw
      · exact hcalm.1.writes _ _ _ ht w hw
  | .ret (.ok u), hplace, hcalm =>
    change s.cl i = .inTx pend (saveWeek pg now id u) (afterTx pg id) at hplace
    rw [saveWeek, updateWeek] at hplace
    split_ifs at hplace with hu
    · exact Or.inl (rolled notFound hplace)
    · rcases Sys.step_stmt hplace hs with ⟨e, -, rfl⟩ | ⟨ws, n, ht, -, rfl⟩
      · exact Or.inl (failed _)
      · rcases updateWeekStmt_ok ht with ⟨-, rfl, rfl⟩ | ⟨w, w', sets, hw, hsets, hw', rfl, rfl⟩
        · refine Or.inl ⟨hn, Or.inl ⟨pend ++ [], notFound, afterTx pg id, fun _ => rfl, ?_⟩⟩
          exact Sys.set_cl_self _
        · have hsaves : Saves pg now u w w' := ⟨by simpa using hu, sets, hsets, hw'⟩
          have hfind : s.db.weeks.find? id = some w := by
            rw [← hw, (sameRows_view s i).findWeek, hplace, Client.pend_inTx,
              Table.find?, Table.find?, weeks_menu hmenu]
          refine Or.inr (Or.inr ⟨u, w, w', rfl, hcalm, by rw [hplace]; rfl, hfind, hsaves, rfl, ?_⟩)
          exact ⟨Sys.set_cl_self _, hsaves.updated.id.trans (Table.find?_eq_some.mp hw).2, hmenu⟩

/-! ### On the way to a serial end -/

/-- The transaction of the patch does the same in `v` as in `d`, up to its update. -/
def SameFor (id : ℤ) (p : WeekPatch) (d v : Db) : Prop :=
  storedDates id v ≠ none ∧ (carriesDate p = true → Alike id d v)

lemma SameFor.trans {p : WeekPatch} {a b c : Db} (h : SameFor id p a b) (h' : SameFor id p b c) :
    SameFor id p a c := ⟨h'.1, fun hp => (h.2 hp).trans (h'.2 hp)⟩

/-- Where a patch stands whose transaction has so far done what it would do alone on `db`. -/
inductive OnTrack (pg : Pg) (now id : ℤ) (p : WeekPatch) (db : Db) (committed : Prop)
    (seen : Option (Option (String × String))) (c : Place) : Prop
  | waiting (hc : c = .idle (.tx (patchTx pg now id p) (afterTx pg id))) (hn : ¬committed)
      (hseen : seen = none)
  | begun (hc : c = .inTx [] (patchTx pg now id p) (afterTx pg id)) (hn : ¬committed)
      (hseen : seen = none)
  | preparing {cs ce : String} {pend : List Write} {x : Tx Resp WeekUpdate}
      (hc : Prepares pg now id p cs pend x c) (hn : ¬committed) (hseen : seen = some (some (cs, ce)))
      (hstill : Still p cs ce → pend = [] ∧ ∃ u, x = pure u)
      (hdates : carriesDate p = true → storedDates id db = some (cs, ce))
      (hstored : storedDates id db ≠ none)
      (halone : ∀ v, SameFor id p db v → (patchTx pg now id p).exec v =
        (pend ++ ((x >>= saveWeek pg now id).exec (applyAll v pend)).1,
          ((x >>= saveWeek pg now id).exec (applyAll v pend)).2))
  | updated {cs ce : String} {pend : List Write} {w' : Week} (hc : HasUpdated pg id pend w' c)
      (hn : ¬committed) (hseen : seen = some (some (cs, ce)))
      (hstill : Still p cs ce →
        pend = [] ∧ storedDates id db = some (text w'.startDate, text w'.endDate))
      (hmoves : ¬Still p cs ce → storedDates id db = some (cs, ce) ∧
        (text w'.startDate, text w'.endDate) ≠ (cs, ce))
      (hstored : storedDates id db ≠ none)
      (halone : (patchTx pg now id p).exec db = (pend ++ [.week (.put w')], .ok ()))
  | done {y : Prog Empty Empty.elim Resp Resp} (hc : c = .idle y) (hy : y.Quiet) (hcom : committed)

/-- An uncommitted patch that has read dates other than those it carries. -/
def Moves (p : Bool → WeekPatch) (commits : List Bool) (seen : Seen) (i : Bool) : Prop :=
  i ∉ commits ∧ ∃ cs ce, seen i = some (some (cs, ce)) ∧ ¬Still (p i) cs ce

/-- So far the run is the committed patches one after the other, on which the others can follow. At
most one of those moves dates, so that it draws its identities alone. -/
structure Sound (pg : Pg) (id : ℤ) (now : Bool → ℤ) (p : Bool → WeekPatch) (d : Db) (s : Server)
    (seen : Seen) : Prop where
  track : ∀ i, OnTrack pg (now i) id (p i) s.db (i ∈ s.commits) (seen i) (s.cl i)
  serial : s.db = s.commits.foldl (fun v i => ((patchTx pg (now i) id (p i)).run v).2) d
  nodup : s.commits.Nodup
  drawn : ∀ w ∈ s.drawn, Database.reserve s.db w = s.db ∨ ∃ i, w ∈ (s.cl i).pend
  one : ∀ i j, Moves p s.commits seen i → Moves p s.commits seen j → i = j

/-- The other patch has committed, and the dates this one goes by are no longer the stored ones. -/
def Doomed (pg : Pg) (id : ℤ) (now : Bool → ℤ) (p : Bool → WeekPatch) (s : Server) (seen : Seen)
    (i : Bool) : Prop :=
  i ∉ s.commits ∧ carriesDate (p i) = true ∧
    (∃ cs ce pend x, Prepares pg (now i) id (p i) cs pend x (s.cl i) ∧
      seen i = some (some (cs, ce)) ∧ storedDates id s.db ≠ some (cs, ce)) ∧
    ∃ y : Prog Empty Empty.elim Resp Resp, y.Quiet ∧ s.cl (!i) = .idle y

/-- Both patches go by the stored dates and move them: the first to commit stops the other. -/
def Clash (pg : Pg) (id : ℤ) (now : Bool → ℤ) (p : Bool → WeekPatch) (s : Server) (seen : Seen) :
    Prop :=
  s.commits = [] ∧ ∃ cs ce, storedDates id s.db = some (cs, ce) ∧
    ∀ i, seen i = some (some (cs, ce)) ∧ ¬Still (p i) cs ce ∧
      ((∃ pend x, Prepares pg (now i) id (p i) cs pend x (s.cl i)) ∨
        ∃ pend w', HasUpdated pg id pend w' (s.cl i) ∧
          (text w'.startDate, text w'.endDate) ≠ (cs, ce))

/-- The run may end as the patches one after the other, or cannot end with both committed. -/
def Fate (pg : Pg) (id : ℤ) (now : Bool → ℤ) (p : Bool → WeekPatch) (d : Db) (s : Server)
    (seen : Seen) : Prop :=
  Sound pg id now p d s seen ∨ (∃ i, Lost s i) ∨ (∃ i, Doomed pg id now p s seen i) ∨
    Clash pg id now p s seen

variable {now : Bool → ℤ} {p : Bool → WeekPatch} {d : Db} {seen seen' : Seen}

lemma reserve_week {d : Db} {w : Week} (h : d.weeks.Has w.id) :
    Database.reserve d (Write.week (.put w)) = d := by
  have := h.lt_next
  have hn : d.weeks.reserveFor (.put w) = d.weeks := by
    ext1
    · rfl
    · simp only [Table.reserveFor, Table.reserve, key_week]
      omega
  show ({ d with weeks := d.weeks.reserveFor (.put w) } : Db) = d
  rw [hn]

lemma has_of_stored {d : Db} (h : storedDates id d ≠ none) : d.weeks.Has id := by
  by_contra hn
  exact h (by rw [storedDates, Table.find?_eq_none_iff.mpr hn]; rfl)

/-- The one patch that moves dates sees its own writes and nothing drawn by others. -/
lemma Sound.view_eq (h : Sound pg id now p d s seen) (hm : Moves p s.commits seen i) :
    s.view i = applyAll s.db (s.cl i).pend := by
  refine reserveAll_of_forall fun w hw => ?_
  rcases h.drawn w hw with hr | ⟨j, hj⟩
  · exact reserve_applyAll _ hr
  · by_cases hij : j = i
    · exact hij ▸ reserve_of_mem hj
    · have still {cs ce : String} (hs : seen j = some (some (cs, ce))) (hn : j ∉ s.commits) :
          Still (p j) cs ce := by
        by_contra hst
        exact hij (h.one j i ⟨hn, cs, ce, hs, hst⟩ hm)
      rcases h.track j with ⟨hc, -, -⟩ | ⟨hc, -, -⟩ | ⟨hc, hn, hs, hstill, -, -, -⟩ |
        ⟨hc, hn, hs, hstill, -, hstored, -⟩ | ⟨hc, -, -⟩
      · simp [hc] at hj
      · simp [hc] at hj
      · rw [hc.place, Client.pend_inTx, (hstill (still hs hn)).1] at hj
        simp at hj
      · rw [hc.place, Client.pend_inTx, (hstill (still hs hn)).1] at hj
        obtain rfl := List.mem_singleton.mp hj
        exact reserve_applyAll _ (reserve_week (hc.row ▸ has_of_stored hstored))
      · simp [hc] at hj

/-- A step of one client that does not commit. -/
lemma Sound.of_move (h : Sound pg id now p d s seen) {ws : List Write} (hdb : s'.db = s.db)
    (hcom : s'.commits = s.commits) (hcl : ∀ j, j ≠ i → s'.cl j = s.cl j)
    (hseen : ∀ j, j ≠ i → seen' j = seen j) (hdrawn : s'.drawn = s.drawn ++ ws)
    (hpend : (s'.cl i).pend = (s.cl i).pend ++ ws)
    (ht : OnTrack pg (now i) id (p i) s.db (i ∈ s.commits) (seen' i) (s'.cl i))
    (hone : Moves p s.commits seen' i → ∀ j, Moves p s.commits seen j → j = i) :
    Sound pg id now p d s' seen' := by
  have moved (j : Bool) (hj : j ≠ i) (hm : Moves p s.commits seen' j) :
      Moves p s.commits seen j := by
    rwa [Moves, ← hseen j hj]
  refine ⟨fun j => ?_, ?_, hcom ▸ h.nodup, fun w hw => ?_, fun a b ha hb => ?_⟩
  · rw [hdb, hcom]
    by_cases hj : j = i
    · exact hj ▸ ht
    · rw [hcl j hj, hseen j hj]
      exact h.track j
  · rw [hdb, hcom, h.serial]
  · rw [hdb]
    rw [hdrawn] at hw
    rcases List.mem_append.mp hw with hw | hw
    · refine (h.drawn w hw).imp_right ?_
      rintro ⟨j, hj⟩
      refine ⟨j, ?_⟩
      by_cases hji : j = i
      · subst hji
        rw [hpend]
        exact List.mem_append_left _ hj
      · rwa [hcl j hji]
    · exact Or.inr ⟨i, hpend ▸ List.mem_append_right _ hw⟩
  · rw [hcom] at ha hb
    by_cases hai : a = i <;> by_cases hbi : b = i
    · rw [hai, hbi]
    · subst hai
      exact (hone ha b (moved b hbi hb)).symm
    · subst hbi
      exact hone hb a (moved a hai ha)
    · exact h.one a b (moved a hai ha) (moved b hbi hb)

/-! ### One step -/

lemma look_of_ne (hj : j ≠ i) : look id s i seen j = seen j := by
  rw [look]
  split_ifs
  · exact Function.update_of_ne hj ..
  · rfl

lemma look_eq (h : (s.cl i).next? ≠ some .weekDates) : look id s i seen = seen := if_neg h

lemma storedDates_view (h : (s.cl i).pend = []) :
    storedDates id (s.view i) = storedDates id s.db := by
  have hrows := sameRows_view s i
  rw [h, applyAll_nil] at hrows
  rw [storedDates, hrows.findWeek, storedDates]

lemma eq_nil_of_notMem {l : List Bool} (hi : i ∉ l) (hj : (!i) ∉ l) : l = [] := by
  refine List.eq_nil_iff_forall_not_mem.mpr fun x hx => ?_
  rcases Bool.eq_or_eq_not x i with rfl | rfl
  · exact hi hx
  · exact hj hx

/-- A patch that moves dates on track goes by the stored ones. -/
lemma OnTrack.of_moves {n : ℤ} {q : WeekPatch} {db : Db} {com : Prop} {c : Place}
    {cs ce : String} (h : OnTrack pg n id q db com (some (some (cs, ce))) c) (hn : ¬com)
    (hq : ¬Still q cs ce) : storedDates id db = some (cs, ce) ∧
      ((∃ pend x, Prepares pg n id q cs pend x c) ∨
        ∃ pend w', HasUpdated pg id pend w' c ∧
          (text w'.startDate, text w'.endDate) ≠ (cs, ce)) := by
  rcases h with ⟨-, -, hs⟩ | ⟨-, -, hs⟩ | ⟨hc, -, hs, -, hdates, -, -⟩ |
    ⟨hc, -, hs, -, hmoves, -, -⟩ | ⟨-, -, hcom⟩
  · cases hs
  · cases hs
  · obtain ⟨rfl, rfl⟩ : cs = _ ∧ ce = _ := by simpa using hs
    exact ⟨hdates (carries_of_moving hq), Or.inl ⟨_, _, hc⟩⟩
  · obtain ⟨rfl, rfl⟩ : cs = _ ∧ ce = _ := by simpa using hs
    obtain ⟨hd, hne⟩ := hmoves hq
    exact ⟨hd, Or.inr ⟨_, _, hc, hne⟩⟩
  · exact absurd hcom hn

/-- The read of the dates. -/
lemma sound_begun (h : Sound pg id now p d s seen)
    (hc : s.cl i = .inTx [] (patchTx pg (now i) id (p i)) (afterTx pg id)) (hn : i ∉ s.commits)
    (hs : s.step i = some s') : Fate pg id now p d s' (look id s i seen) := by
  rw [patchTx_eq] at hc
  have hrun (v : Db) : (weekDates id).run v = .ok ([], storedDates id v) := rfl
  have hlook : look id s i seen = Function.update seen i (some (storedDates id s.db)) :=
    if_pos (by rw [hc]; rfl)
  rcases Sys.step_stmt hc hs with ⟨e, he, -⟩ | ⟨ws, o, ho, -, rfl⟩
  · cases he
  rw [hrun, storedDates_view (by rw [hc]; rfl), Except.ok.injEq, Prod.mk.injEq] at ho
  obtain ⟨rfl, rfl⟩ := ho
  rcases hstored : storedDates id s.db with _ | ⟨cs, ce⟩
  · refine Or.inr (Or.inl ⟨i, hn, Or.inl ⟨[], notFound, afterTx pg id, fun _ => rfl, ?_⟩⟩)
    exact Sys.set_cl_self _
  have hself : look id s i seen i = some (some (cs, ce)) := by
    rw [hlook, Function.update_self, hstored]
  have hprep : Prepares pg (now i) id (p i) cs [] (prepare pg id (p i) cs ce)
      (.inTx [] (prepare pg id (p i) cs ce >>= saveWeek pg (now i) id) (afterTx pg id)) :=
    ⟨rfl, by simp, prepare_calm pg id (p i) cs ce⟩
  by_cases hclash : ¬Still (p i) cs ce ∧ ∃ j, j ≠ i ∧ Moves p s.commits seen j
  · -- the other patch goes by the same dates and moves them too
    obtain ⟨hst, j, hj, hnj, cs', ce', hseenj, hstj⟩ := hclash
    have hji : j = !i := by
      cases i <;> cases j <;> simp at hj ⊢
    have htrack := h.track j
    rw [hseenj] at htrack
    obtain ⟨hd, hwhere⟩ := htrack.of_moves hnj hstj
    obtain ⟨rfl, rfl⟩ : cs = cs' ∧ ce = ce' := by
      simpa using hstored.symm.trans hd
    refine Or.inr (Or.inr (Or.inr ⟨eq_nil_of_notMem hn (hji ▸ hnj), cs, ce, hstored, fun l => ?_⟩))
    by_cases hl : l = i
    · subst hl
      exact ⟨hself, hst, Or.inl ⟨[], _, by rw [Sys.set_cl_self]; exact hprep⟩⟩
    · have hlj : l = j := by
        cases i <;> cases j <;> cases l <;> simp at hj hl ⊢
      subst hlj
      rw [look_of_ne hl, Sys.set_cl_of_ne _ hl]
      exact ⟨hseenj, hstj, hwhere⟩
  · refine Or.inl (h.of_move rfl rfl (fun j hj => Sys.set_cl_of_ne _ hj)
      (fun j hj => look_of_ne hj) rfl ?_ (.preparing (by rw [Sys.set_cl_self]; exact hprep) hn hself
        (fun hst => ⟨rfl, _, prepare_still hst⟩) (fun _ => hstored) (by simp [hstored]) ?_) ?_)
    · rw [Sys.set_cl_self, hc]
      rfl
    · rintro v ⟨hex, hv⟩
      rw [patchTx_eq, Tx.exec_stmt_ok (hrun v)]
      obtain ⟨⟨cs', ce'⟩, hv'⟩ := Option.ne_none_iff_exists'.mp hex
      have hsame : prepare pg id (p i) cs' ce' = prepare pg id (p i) cs ce := by
        by_cases hcar : carriesDate (p i) = true
        · obtain ⟨rfl, rfl⟩ : cs' = cs ∧ ce' = ce := by
            simpa using hv'.symm.trans ((hv hcar).dates.trans hstored)
          rfl
        · have hnone : (p i).startDate = none ∧ (p i).endDate = none := by
            simpa [carriesDate] using hcar
          rw [prepare_still ⟨Or.inl hnone.1, Or.inl hnone.2⟩,
            prepare_still ⟨Or.inl hnone.1, Or.inl hnone.2⟩]
      simp only [hv', hsame, applyAll_nil]
    · rintro ⟨-, cs', ce', hse, hst⟩ j hmj
      rw [hself] at hse
      obtain ⟨rfl, rfl⟩ : cs = cs' ∧ ce = ce' := by simpa using hse
      by_contra hj
      exact hclash ⟨hst, j, hj, hmj⟩

/-- The statements before the update, and the update. -/
lemma sound_preparing (h : Sound pg id now p d s seen) {cs ce : String} {pend : List Write}
    {x : Tx Resp WeekUpdate} (hvalid : dateOk (p i).startDate = true ∧ dateOk (p i).endDate = true)
    (hc : Prepares pg (now i) id (p i) cs pend x (s.cl i)) (hn : i ∉ s.commits)
    (hseen : seen i = some (some (cs, ce)))
    (hstill : Still (p i) cs ce → pend = [] ∧ ∃ u, x = pure u)
    (hdates : carriesDate (p i) = true → storedDates id s.db = some (cs, ce))
    (hstored : storedDates id s.db ≠ none)
    (halone : ∀ v, SameFor id (p i) s.db v → (patchTx pg (now i) id (p i)).exec v =
      (pend ++ ((x >>= saveWeek pg (now i) id).exec (applyAll v pend)).1,
        ((x >>= saveWeek pg (now i) id).exec (applyAll v pend)).2))
    (hs : s.step i = some s') : Fate pg id now p d s' (look id s i seen) := by
  rcases prepares_step hc hn hs with hl | ⟨β, t, f, k, ws, b, rfl, ht, hrun, hnext, rfl, hc'⟩ |
    ⟨u, w, w', rfl, hu, hnext, hw, hsaves, rfl, hc'⟩
  · exact Or.inr (Or.inl ⟨i, hl⟩)
  · -- a calm statement: nothing has been sent before by a patch that moves no date
    have hmoves : ¬Still (p i) cs ce := by
      intro hst
      obtain ⟨-, u, hu⟩ := hstill hst
      cases hu
    have hlook : look id s i seen = seen := look_eq (by
      rw [hnext]
      exact fun e => ht.reads (Option.some.inj e))
    have hview := h.view_eq ⟨hn, cs, ce, hseen, hmoves⟩
    rw [hc.place, Client.pend_inTx] at hview
    rw [hview] at hrun
    rw [hlook]
    refine Or.inl (h.of_move rfl rfl (fun j hj => Sys.set_cl_of_ne _ hj) (fun _ _ => rfl) rfl
      ?_ (.preparing hc' hn hseen (fun hst => absurd hst hmoves) hdates hstored ?_)
      fun hm j hj => h.one j i hj hm)
    · rw [hc'.place, hc.place, Client.pend_inTx, Client.pend_inTx]
    · intro v hv
      have hsame : Alike id (applyAll s.db pend) (applyAll v pend) :=
        (hv.2 (carries_of_moving hmoves)).applyAll hc.menu
      have hrun' := (ht.alike _ _ hsame).symm.trans hrun
      rw [halone v hv]
      show (pend ++ ((Tx.stmt t f fun b => k b >>= saveWeek pg (now i) id).exec _).1, _) = _
      rw [show (Tx.stmt t f k >>= saveWeek pg (now i) id) =
        Tx.stmt t f fun b => k b >>= saveWeek pg (now i) id from rfl, Tx.exec_stmt_ok hrun',
        applyAll_append, List.append_assoc]
  · -- the update
    have hlook : look id s i seen = seen := look_eq (by rw [hnext]; nofun)
    have hd : storedDates id s.db = some (text w.startDate, text w.endDate) := by
      rw [storedDates, hw]
      rfl
    have hw' : (applyAll s.db pend).weeks.find? id = some w := by rw [weeks_menu hc.menu, hw]
    have hexec := halone s.db ⟨hstored, fun _ => Alike.refl _ _⟩
    rw [show (pure u >>= saveWeek pg (now i) id) = saveWeek pg (now i) id u from rfl,
      saveWeek_exec hw' hsaves] at hexec
    rw [hlook]
    refine Or.inl (h.of_move rfl rfl (fun j hj => Sys.set_cl_of_ne _ hj) (fun _ _ => rfl) rfl
      ?_ (.updated hc' hn hseen (fun hst => ⟨(hstill hst).1, ?_⟩) (fun hm => ⟨?_, ?_⟩) hstored hexec)
      fun hm j hj => h.one j i hj hm)
    · rw [hc'.place, hc.place, Client.pend_inTx, Client.pend_inTx]
    · -- sent as they are stored, or not sent at all
      rw [hd]
      by_cases hcar : carriesDate (p i) = true
      · have hcs := hd.symm.trans (hdates hcar)
        rw [hcs, ← dates_of_still hsaves.updated hu hst (Option.some.inj hcs)]
      · have hnone : (p i).startDate = none ∧ (p i).endDate = none := by
          simpa [carriesDate] using hcar
        have hu' : Sends (p i) (text w.startDate) u := ⟨hu.1, fun _ => hu.2 (Or.inl hnone.1)⟩
        rw [← dates_of_still hsaves.updated hu' ⟨Or.inl hnone.1, Or.inl hnone.2⟩ rfl]
    · exact hdates (carries_of_moving hm)
    · exact dates_of_moving hvalid.1 hvalid.2 hsaves.updated hu hm

/-- The other patch, after a commit that leaves the dates it goes by. -/
lemma track_committed (h : Sound pg id now p d s seen) (hex : s.Exclusive) {cs ce : String}
    {pend : List Write} {w' : Week} (hc : HasUpdated pg id pend w' (s.cl i))
    (hstill : Still (p i) cs ce →
      pend = [] ∧ storedDates id s.db = some (text w'.startDate, text w'.endDate))
    (hmoves : ¬Still (p i) cs ce → storedDates id s.db = some (cs, ce) ∧
      (text w'.startDate, text w'.endDate) ≠ (cs, ce)) (hj : j ≠ i)
    (hkeep : ∀ {cs ce : String} {pend : List Write} {x : Tx Resp WeekUpdate}, j ∉ s.commits →
      carriesDate (p j) = true → Prepares pg (now j) id (p j) cs pend x (s.cl j) →
      seen j = some (some (cs, ce)) →
        some (text w'.startDate, text w'.endDate) = some (cs, ce)) :
    OnTrack pg (now j) id (p j) (applyAll s.db (pend ++ [.week (.put w')]))
      (j ∈ s.commits ++ [i]) (seen j) (s.cl j) := by
  have hdates : storedDates id (applyAll s.db (pend ++ [.week (.put w')])) =
      some (text w'.startDate, text w'.endDate) := storedDates_put pend hc.row
  have hnot (hn : j ∉ s.commits) : j ∉ s.commits ++ [i] := by simpa using ⟨hn, hj⟩
  rcases h.track j with ⟨hcj, hnj, hs⟩ | ⟨hcj, hnj, hs⟩ | ⟨hcj, hnj, hs, hst, hd, -, hal⟩ |
    ⟨hcj, hnj, -, -, -, -, -⟩ | ⟨hcj, hy, hcom⟩
  · exact .waiting hcj (hnot hnj) hs
  · exact .begun hcj (hnot hnj) hs
  · -- the commit has left the dates, and so the dinners, as they were
    rename_i cs' ce' pend' x
    have hsame : SameFor id (p j) s.db (applyAll s.db (pend ++ [.week (.put w')])) := by
      refine ⟨by rw [hdates]; nofun, fun hcar => ?_⟩
      have hst : Still (p i) cs ce := by
        by_contra hm
        obtain ⟨hd', hne⟩ := hmoves hm
        exact hne (Option.some.inj ((hkeep hnj hcar hcj hs).trans ((hd hcar).symm.trans hd')))
      rw [(hstill hst).1]
      exact ⟨by rw [storedDates_put [] hc.row, (hstill hst).2], rfl, rfl⟩
    refine .preparing hcj (hnot hnj) hs hst (fun hcar => ?_) hsame.1 fun v hv =>
      hal v (hsame.trans hv)
    rw [(hsame.2 hcar).dates, hd hcar]
  · -- both have updated the plan
    rename_i pend' v
    have hw : Write.week (.put w') ∈ (s.cl i).pend := by
      rw [hc.place, Client.pend_inTx]
      exact List.mem_append_right _ (List.mem_singleton_self _)
    have hv : Write.week (.put v) ∈ (s.cl j).pend := by
      rw [hcj.place, Client.pend_inTx]
      exact List.mem_append_right _ (List.mem_singleton_self _)
    refine absurd ?_ (hex i j hj.symm _ hw _ hv)
    show (Relation.weeks, w'.id) = (Relation.weeks, v.id)
    rw [hc.row, hcj.row]
  · exact .done hcj hy (List.mem_append_left _ hcom)

/-- The commit. -/
lemma sound_updated (h : Sound pg id now p d s seen) (hex : s.Exclusive) {cs ce : String}
    {pend : List Write} {w' : Week} (hc : HasUpdated pg id pend w' (s.cl i)) (hn : i ∉ s.commits)
    (hstill : Still (p i) cs ce →
      pend = [] ∧ storedDates id s.db = some (text w'.startDate, text w'.endDate))
    (hmoves : ¬Still (p i) cs ce → storedDates id s.db = some (cs, ce) ∧
      (text w'.startDate, text w'.endDate) ≠ (cs, ce))
    (halone : (patchTx pg (now i) id (p i)).exec s.db = (pend ++ [.week (.put w')], .ok ()))
    (hs : s.step i = some s') : Fate pg id now p d s' (look id s i seen) := by
  rw [look_eq (by rw [hc.place]; nofun)]
  have hpend : (s.cl i).pend = pend ++ [.week (.put w')] := by rw [hc.place, Client.pend_inTx]
  rw [Sys.step_commit hc.place, Option.some.injEq] at hs
  subst hs
  have hself : (s.set i (.idle (afterTx pg id (.ok ())))).cl i =
      .idle (afterTx pg id (.ok ())) := Sys.set_cl_self _
  have hquiet : (afterTx pg id (.ok ())).Quiet := quiet_reload pg id
  have hdates : storedDates id (applyAll s.db (pend ++ [.week (.put w')])) =
      some (text w'.startDate, text w'.endDate) := storedDates_put pend hc.row
  by_cases hdoom : ∃ j, j ≠ i ∧ j ∉ s.commits ∧ carriesDate (p j) = true ∧
      (∃ cs ce pend x, Prepares pg (now j) id (p j) cs pend x (s.cl j) ∧
        seen j = some (some (cs, ce)) ∧ some (text w'.startDate, text w'.endDate) ≠ some (cs, ce))
  · obtain ⟨j, hj, hnj, hcar, cs', ce', pend', x, hprep, hseen, hne⟩ := hdoom
    have hji : i = !j := by
      cases i <;> cases j <;> simp at hj ⊢
    refine Or.inr (Or.inr (Or.inl ⟨j, ?_, hcar, ⟨cs', ce', pend', x, ?_, hseen, ?_⟩,
      afterTx pg id (.ok ()), hquiet, hji ▸ hself⟩))
    · simpa using ⟨hnj, hj⟩
    · show Prepares pg (now j) id (p j) cs' pend' x ((s.set i _).cl j)
      rwa [Sys.set_cl_of_ne _ hj]
    · rw [hdates]
      exact hne
  refine Or.inl ⟨fun j => ?_, ?_, ?_, fun w hw => ?_, fun a b ha hb => ?_⟩
  · by_cases hj : j = i
    · subst hj
      exact .done hself hquiet (by simp)
    · have htrack := track_committed h hex hc hstill hmoves hj
        fun {cs' ce' pend' x} hnj hcar hprep hseen => by
          by_contra hne
          exact hdoom ⟨j, hj, hnj, hcar, cs', ce', pend', x, hprep, hseen, hne⟩
      have hcl : (s.set i (.idle (afterTx pg id (.ok ())))).cl j = s.cl j := Sys.set_cl_of_ne _ hj
      exact hcl ▸ htrack
  · show applyAll s.db _ = List.foldl _ d (s.commits ++ [i])
    rw [List.foldl_append, ← h.serial, List.foldl_cons, List.foldl_nil, Tx.run, halone]
  · exact List.nodup_append.mpr ⟨h.nodup, List.nodup_singleton i, by
      rintro a ha b hb rfl
      exact hn (List.mem_singleton.mp hb ▸ ha)⟩
  · rcases h.drawn w hw with hr | ⟨j, hj⟩
    · exact Or.inl (reserve_applyAll _ hr)
    · by_cases hji : j = i
      · subst hji
        rw [hpend] at hj
        exact Or.inl (reserve_of_mem hj)
      · refine Or.inr ⟨j, ?_⟩
        show w ∈ ((s.set i _).cl j).pend
        rwa [Sys.set_cl_of_ne _ hji]
  · have uncommitted {a : Bool} (ha : Moves p (s.commits ++ [i]) seen a) :
        Moves p s.commits seen a := ⟨fun hm => ha.1 (List.mem_append_left _ hm), ha.2⟩
    exact h.one a b (uncommitted ha) (uncommitted hb)

lemma sound_step (h : Sound pg id now p d s seen) (hex : s.Exclusive)
    (hvalid : ∀ i, dateOk (p i).startDate = true ∧ dateOk (p i).endDate = true)
    (hs : s.step i = some s') : Fate pg id now p d s' (look id s i seen) := by
  rcases h.track i with ⟨hc, hn, hseen⟩ | ⟨hc, hn, -⟩ | ⟨hc, hn, hseen, hst, hd, hstored, hal⟩ |
    ⟨hc, hn, hseen, hst, hm, -, hal⟩ | ⟨hc, hy, hcom⟩
  · -- the transaction begins
    rw [look_eq (by rw [hc]; nofun)]
    rw [Sys.step_begin hc, Option.some.injEq] at hs
    subst hs
    refine Or.inl (h.of_move rfl rfl (fun j hj => Sys.set_cl_of_ne _ hj) (fun _ _ => rfl)
      (List.append_nil _).symm ?_ (.begun (Sys.set_cl_self _) hn hseen)
      fun hm j hj => h.one j i hj hm)
    rw [Sys.set_cl_self, hc]
    rfl
  · exact sound_begun h hc hn hs
  · exact sound_preparing h (hvalid i) hc hn hseen hst hd hstored hal hs
  · exact sound_updated h hex hc hn hst hm hal hs
  · -- only reads are left
    obtain ⟨z, hz, rfl⟩ := Sys.step_quiet hy hc hs
    have hseen (j : Bool) (hm : Moves p s.commits (look id s i seen) j) : j ≠ i := by
      rintro rfl
      exact hm.1 hcom
    refine Or.inl (h.of_move rfl rfl (fun j hj => Sys.set_cl_of_ne _ hj)
      (fun j hj => look_of_ne hj) (List.append_nil _).symm ?_ (.done (Sys.set_cl_self _) hz hcom)
      fun hm => absurd rfl (hseen i hm))
    rw [Sys.set_cl_self, hc]
    rfl

/-- A doomed patch is lost, or waits for the update it must not make. -/
lemma doomed_step {req : Bool → Request} (hreq : ∀ i, (req i).body = .ok (p i))
    (h : Doomed pg id now p s seen i) (hcur : upToDate id req s j seen = true)
    (hs : s.step j = some s') :
    Lost s' i ∨ Doomed pg id now p s' (look id s j seen) i := by
  obtain ⟨hn, hcar, ⟨cs, ce, pend, x, hc, hseen, hd⟩, y, hy, hcy⟩ := h
  by_cases hji : j = i
  · subst hji
    rcases prepares_step hc hn hs with hl | ⟨β, t, f, k, ws, b, -, ht, -, hnext, rfl, hc'⟩ |
      ⟨u, w, w', -, -, hnext, -, -, -, -⟩
    · exact Or.inl hl
    · have hlook : look id s j seen = seen := look_eq (by
        rw [hnext]
        exact fun e => ht.reads (Option.some.inj e))
      rw [hlook]
      refine Or.inr ⟨hn, hcar, ⟨cs, ce, _, _, hc', hseen, hd⟩, y, hy, ?_⟩
      exact (Sys.set_cl_of_ne _ (by cases j <;> simp)).trans hcy
    · have hreqcar : (req j).carriesDate = true := by rw [Request.carriesDate, hreq j]; exact hcar
      rw [upToDate, hnext, hreqcar, hseen] at hcur
      exact absurd (by simpa using hcur) (Ne.symm hd)
  · have hj : j = !i := by
      cases i <;> cases j <;> simp at hji ⊢
    subst hj
    obtain ⟨z, hz, rfl⟩ := Sys.step_quiet hy hcy hs
    refine Or.inr ⟨hn, hcar, ⟨cs, ce, pend, x, ?_, ?_, hd⟩, z, hz, Sys.set_cl_self _⟩
    · rwa [Sys.set_cl_of_ne _ (by cases i <;> simp)]
    · rwa [look_of_ne (by cases i <;> simp)]

/-- In a clash the first commit dooms the other patch, which still has its update to make. -/
lemma clash_step (h : Clash pg id now p s seen) (hex : s.Exclusive)
    (hvalid : ∀ i, dateOk (p i).startDate = true ∧ dateOk (p i).endDate = true)
    (hs : s.step i = some s') : Fate pg id now p d s' (look id s i seen) := by
  obtain ⟨hcom, cs, ce, hd, hall⟩ := h
  obtain ⟨hseen, hst, hc⟩ := hall i
  have hn : i ∉ s.commits := by simp [hcom]
  have clash (hcom' : s'.commits = s.commits) (hdb : s'.db = s.db)
      (hlook : look id s i seen = seen)
      (hc' : (∃ pend x, Prepares pg (now i) id (p i) cs pend x (s'.cl i)) ∨
        ∃ pend w', HasUpdated pg id pend w' (s'.cl i) ∧
          (text w'.startDate, text w'.endDate) ≠ (cs, ce)) :
      Fate pg id now p d s' (look id s i seen) := by
    refine Or.inr (Or.inr (Or.inr ⟨hcom'.trans hcom, cs, ce, hdb ▸ hd, fun j => ?_⟩))
    rw [hlook]
    by_cases hj : j = i
    · subst hj
      exact ⟨hseen, hst, hc'⟩
    · rw [Sys.step_cl_of_ne hs hj]
      exact hall j
  rcases hc with ⟨pend, x, hc⟩ | ⟨pend, w', hc, hne⟩
  · rcases prepares_step hc hn hs with hl | ⟨β, t, f, k, ws, b, -, ht, -, hnext, rfl, hc'⟩ |
      ⟨u, w, w', -, hu, hnext, -, hsaves, rfl, hc'⟩
    · exact Or.inr (Or.inl ⟨i, hl⟩)
    · refine clash rfl rfl (look_eq ?_) (Or.inl ⟨_, _, hc'⟩)
      rw [hnext]
      exact fun e => ht.reads (Option.some.inj e)
    · refine clash rfl rfl (look_eq (by rw [hnext]; nofun)) (Or.inr ⟨_, _, hc', ?_⟩)
      exact dates_of_moving (hvalid i).1 (hvalid i).2 hsaves.updated hu hst
  · rw [look_eq (by rw [hc.place]; nofun)]
    rw [Sys.step_commit hc.place, Option.some.injEq] at hs
    subst hs
    obtain ⟨hseenj, hstj, hcj⟩ := hall (!i)
    have hji : (!i) ≠ i := by cases i <;> simp
    obtain ⟨pend', x, hcj⟩ : ∃ pend x, Prepares pg (now !i) id (p !i) cs pend x (s.cl !i) := by
      rcases hcj with hcj | ⟨pend', v, hcj, -⟩
      · exact hcj
      · refine absurd ?_ (hex i (!i) hji.symm (.week (.put w')) ?_ (.week (.put v)) ?_)
        · show (Relation.weeks, w'.id) = (Relation.weeks, v.id)
          rw [hc.row, hcj.row]
        · simp [hc.place]
        · simp [hcj.place]
    refine Or.inr (Or.inr (Or.inl ⟨!i, ?_, carries_of_moving hstj, ⟨cs, ce, pend', x, ?_, hseenj, ?_⟩,
      afterTx pg id (.ok ()), quiet_reload pg id, ?_⟩))
    · show (!i) ∉ s.commits ++ [i]
      simp [hcom]
    · show Prepares _ _ _ _ _ _ _ ((s.set i _).cl !i)
      rwa [Sys.set_cl_of_ne _ hji]
    · show storedDates id (applyAll s.db (pend ++ [.week (.put w')])) ≠ _
      rw [storedDates_put pend hc.row]
      exact fun e => hne (Option.some.inj e)
    · show (s.set i _).cl (!!i) = _
      rw [Bool.not_not]
      exact Sys.set_cl_self _

lemma fate_step {req : Bool → Request} (hreq : ∀ i, (req i).body = .ok (p i))
    (hvalid : ∀ i, dateOk (p i).startDate = true ∧ dateOk (p i).endDate = true)
    (h : Fate pg id now p d s seen) (hex : s.Exclusive) (hcur : upToDate id req s i seen = true)
    (hs : s.step i = some s') : Fate pg id now p d s' (look id s i seen) := by
  rcases h with h | ⟨j, h⟩ | ⟨j, h⟩ | h
  · exact sound_step h hex hvalid hs
  · exact Or.inr (Or.inl ⟨j, lost_step h hs⟩)
  · rcases doomed_step hreq h hcur hs with hl | hdoom
    · exact Or.inr (Or.inl ⟨j, hl⟩)
    · exact Or.inr (Or.inr (Or.inl ⟨j, hdoom⟩))
  · exact clash_step h hex hvalid hs

/-! ### Runs -/

lemma fate_run {req : Bool → Request} (hreq : ∀ i, (req i).body = .ok (p i))
    (hvalid : ∀ i, dateOk (p i).startDate = true ∧ dateOk (p i).endDate = true)
    {sched : List Bool} (h : Fate pg id now p d s seen) (hex : s.Exclusive)
    (hcur : current id req seen s sched = true) (hrun : s.run sched = some s') :
    ∃ seen', Fate pg id now p d s' seen' := by
  induction sched generalizing s seen with
  | nil =>
    cases hrun
    exact ⟨seen, h⟩
  | cons i is ih =>
    rw [Sys.run, Option.bind_eq_some_iff] at hrun
    obtain ⟨s₁, hs₁, hrun⟩ := hrun
    rw [current, hs₁, Bool.and_eq_true] at hcur
    exact ih (fate_step hreq hvalid h hex hcur.1 hs₁) (Sys.exclusive_step hex hs₁) hcur.2 hrun

lemma lost_run {sched : List Bool} (h : Lost s i) (hrun : s.run sched = some s') : Lost s' i := by
  induction sched generalizing s with
  | nil =>
    cases hrun
    exact h
  | cons j is ih =>
    rw [Sys.run, Option.bind_eq_some_iff] at hrun
    obtain ⟨s₁, hs₁, hrun⟩ := hrun
    exact ih (lost_step h hs₁) hrun

/-- A request is refused before it reaches the database, or begins its transaction. -/
lemma handler_cases (pg : Pg) (id : ℤ) (r : Request) :
    (∃ e, handler pg id r = .ret (.error e)) ∨ 1 ≤ id ∧
      ∃ q, r.body = .ok q ∧ (dateOk q.startDate = true ∧ dateOk q.endDate = true) ∧
        handler pg id r = .tx (patchTx pg r.now id q) (afterTx pg id) := by
  unfold handler handlePatchWeek
  split_ifs with hid
  · exact Or.inl ⟨_, rfl⟩
  · rcases r.body with e | q
    · exact Or.inl ⟨_, rfl⟩
    · simp only
      split_ifs with hs he
      · exact Or.inl ⟨_, rfl⟩
      · exact Or.inl ⟨_, rfl⟩
      · exact Or.inr ⟨by omega, q, rfl, ⟨by simpa using hs, by simpa using he⟩, rfl⟩

lemma sound_start (pg : Pg) (id : ℤ) {req : Bool → Request}
    (h : ∀ i, handler pg id (req i) = .tx (patchTx pg (req i).now id (p i)) (afterTx pg id))
    (d : Db) : Sound pg id (fun i => (req i).now) p d (race pg id req d) fun _ => none where
  track i := .waiting (congrArg Client.idle (h i)) (List.not_mem_nil) rfl
  serial := rfl
  nodup := List.nodup_nil
  drawn w hw := absurd hw (List.not_mem_nil)
  one i j hi := by
    obtain ⟨-, cs, ce, hs, -⟩ := hi
    cases hs

/-- **Two patches whose dates stay current** until they update the plan end as they would one
after the other. -/
theorem serial_when_current (pg : Pg) (id : ℤ) (req : Bool → Request) (d : Db)
    (sched : List Bool) (s : Server) (hrun : (race pg id req d).run sched = some s)
    (hcur : current id req (fun _ => none) (race pg id req d) sched = true)
    (hboth : ∀ i, i ∈ s.commits) :
    ∃ i, s.db = served pg id (req !i) (served pg id (req i) d) := by
  have hcases (i : Bool) : 1 ≤ id ∧
      ∃ q, (req i).body = .ok q ∧ (dateOk q.startDate = true ∧ dateOk q.endDate = true) ∧
        handler pg id (req i) = .tx (patchTx pg (req i).now id q) (afterTx pg id) := by
    refine (handler_cases pg id (req i)).resolve_left ?_
    rintro ⟨e, he⟩
    have hl : Lost (race pg id req d) i :=
      ⟨List.not_mem_nil, Or.inr ⟨e, congrArg Client.idle he⟩⟩
    exact (lost_run hl hrun).1 (hboth i)
  have hid := (hcases true).1
  choose p hreq hvalid hstart using fun i => (hcases i).2
  have hserved (i : Bool) (v : Db) :
      served pg id (req i) v = ((patchTx pg (req i).now id (p i)).run v).2 := by
    rw [served, handler, hreq i]
    exact perform_transaction hid (hvalid i).1 (hvalid i).2
  obtain ⟨seen, hfate⟩ := fate_run hreq hvalid (Or.inl (sound_start pg id hstart d))
    (Sys.exclusive_start _ _) hcur hrun
  rcases hfate with h | ⟨i, h⟩ | ⟨i, h⟩ | h
  · -- both have committed, each of them once
    rcases hl : s.commits with _ | ⟨i, _ | ⟨j, _ | ⟨k, l⟩⟩⟩
    · simpa [hl] using hboth true
    · simpa [hl] using hboth !i
    · have hji : j = !i := by
        have := hl ▸ h.nodup
        cases i <;> cases j <;> simp at this ⊢
      refine ⟨i, ?_⟩
      rw [hserved, hserved, h.serial, hl, ← hji]
      rfl
    · have := hl ▸ h.nodup
      cases i <;> cases j <;> cases k <;> simp at this
  · exact absurd (hboth i) h.1
  · exact absurd (hboth i) h.1
  · exact absurd (hboth true) (by simp [h.1])

/-- One request extends the plan by a day while the other approves it. -/
def extendAndApprove : Bool → Request
  | true => ⟨5, .ok ⟨none, none, some "2026-04-23", none, none, none, none⟩⟩
  | false => ⟨6, .ok ⟨none, none, none, none, none, some "cart_built", none⟩⟩

/-- The second request begins and reads while the first is under way, and waits for its commit. -/
def overlapping : List Bool := [true, true, false, true, false, true, true, false, false]

theorem serial_when_current_extendAndApprove : ∃ i,
    (((race Pg.plain 1 extendAndApprove (threeDays .draft)).run overlapping).get (by decide)).db =
      served Pg.plain 1 (extendAndApprove !i)
        (served Pg.plain 1 (extendAndApprove i) (threeDays .draft)) :=
  serial_when_current Pg.plain 1 extendAndApprove (threeDays .draft) overlapping _
    (Option.some_get _).symm (by decide) (by decide)

/-! ### Two extensions at once -/

/-- Both requests extend the plan by a day. -/
def twoExtensions : Bool → Request :=
  fun i => ⟨if i then 5 else 6, .ok ⟨none, none, some "2026-04-23", none, none, none, none⟩⟩

/-- Both read the dates, then both insert a dinner for the new day, then both update and commit. -/
def bothReadFirst : List Bool := [true, true, false, false, true, false, true, true, false, false]

/-- The new day of the plan gets a placeholder from both. -/
theorem not_serial : ¬∀ (sched : List Bool) (s : Server),
    (race Pg.plain 1 twoExtensions (threeDays .draft)).run sched = some s →
    (∀ i, i ∈ s.commits) → ∃ i, BothDates.SamePlan 1 s.db
      (served Pg.plain 1 (twoExtensions !i) (served Pg.plain 1 (twoExtensions i) (threeDays .draft))) := by
  intro h
  have := h bothReadFirst _ (Option.some_get (by decide :
    ((race Pg.plain 1 twoExtensions (threeDays .draft)).run bothReadFirst).isSome = true)).symm
  revert this
  decide

end Veckomenyn.Race
