import Veckomenyn.Dinners

/-!
What a patch of a plan does, dates read as days.

A `Move` is the pair of dates a patch carries. It says where the plan starts and ends
afterwards, which end the resize goes by, and what becomes of the dinners; the
transaction of the handler does exactly that, or is refused, or fails at its update.
-/

namespace Veckomenyn.PatchSpec

open Rows DateText Schema Sql Store Weeks Txn Dinners

lemma text_inj {a b : ℤ} : text a = text b ↔ a = b :=
  ⟨fun h => by simpa [parseDate_text] using congrArg parseDate h, congrArg text⟩

/-- The text of `e` sorts before that of `cur`. -/
def Cut (e cur : ℤ) : Prop := textLt (text e) (text cur) = true

instance (e cur : ℤ) : Decidable (Cut e cur) := by unfold Cut; infer_instance

lemma cut_irrefl (e : ℤ) : ¬Cut e e := by
  rw [Cut, textLt, ltChars_irrefl]
  simp

/-- Between years of four digits the texts sort like the days. -/
lemma cut_iff {e cur : ℤ} (he : FourDigit e) (hc : FourDigit cur) : Cut e cur ↔ e < cur :=
  text_lt_iff he hc

structure Move where
  start : Option ℤ
  finish : Option ℤ

namespace Move

variable (m : Move) (w : Week)

def newStart : ℤ := m.start.getD w.startDate

/-- The end the resize compares with: the slid one when only the start moves. -/
def curEnd : ℤ :=
  if m.newStart w ≠ w.startDate ∧ m.finish = none then w.endDate + (m.newStart w - w.startDate)
  else w.endDate

def newEnd : ℤ := m.finish.getD (m.curEnd w)

def Refused : Prop := m.newEnd w ≠ m.curEnd w ∧ Cut (m.newEnd w) (m.newStart w)

instance : Decidable (m.Refused w) := by unfold Refused; infer_instance

def shifted (d : Db) : Db :=
  if m.newStart w = w.startDate then d else pack d w.id (m.newStart w)

/-- The dinners resized to end at `e`, going by the end `cur`. -/
def resize (d : Db) (id e cur : ℤ) : Db :=
  if e = cur then d
  else if Cut e cur then cutDinners d id e
  else addSlots d id (span (cur + 1) e)

def resized (d : Db) : Db := resize (m.shifted w d) w.id (m.newEnd w) (m.curEnd w)

/-- The columns a patch sets, with the end and the label a shift adds. -/
def update (p : WeekPatch) : WeekUpdate :=
  if m.newStart w = w.startDate then p.toUpdate
  else { p.toUpdate with
    endDate := some (text (m.newEnd w))
    isoWeek := some (p.isoWeek.getD (isoWeek (m.newStart w))) }

end Move

/-- The patch carries these dates. -/
def Carries (p : WeekPatch) (m : Move) : Prop :=
  p.startDate = m.start.map text ∧ p.endDate = m.finish.map text

variable {pg : Pg} {d : Db} {w : Week} {m : Move}

/-! ### The statements -/

lemma inside_weekDates (id : ℤ) (d : Db) (f : DbError → Resp) :
    (Tx.query (weekDates id) f).inside d =
      (.ok ((d.weeks.find? id).map fun w => (text w.startDate, text w.endDate)), d) :=
  inside_select _ _ f d

lemma inside_shiftDinners {t : String} {s : ℤ} (h : pg.castDate t = some s) (id : ℤ) (d : Db)
    (f : DbError → Resp) :
    (Tx.query (shiftDinners pg t id) f).inside d = (.ok (), pack d id s) := by
  have hr : (shiftDinners pg t id).run d =
      .ok (((packed s (dinnersOf d id)).map .put).map Write.dinner, ()) := by
    show (date pg t >>= _) = _
    rw [date_of_cast h]
    rfl
  rw [Tx.inside_query_ok hr, applyAll_dinners]
  rfl

lemma inside_computeEnd (e s' s : ℤ) (d : Db) (f : DbError → Resp) :
    (Tx.query (computeEnd pg (text e) (text s') (text s)) f).inside d =
      (.ok (text (e + (s' - s))), d) := by
  have hr : (computeEnd pg (text e) (text s') (text s)).run d = .ok ([], text (e + (s' - s))) := by
    show (date pg (text e) >>= _) = _
    rw [date_text, date_text, date_text]
    rfl
  exact Tx.inside_query_ok hr

lemma inside_computeIsoWeek (s : ℤ) (d : Db) (f : DbError → Resp) :
    (Tx.query (computeIsoWeek pg (text s)) f).inside d = (.ok (isoWeek s), d) := by
  have hr : (computeIsoWeek pg (text s)).run d = .ok ([], isoWeek s) := by
    show (date pg (text s) >>= _) = _
    rw [date_text]
    rfl
  exact Tx.inside_query_ok hr

lemma inside_truncateDinners (e id : ℤ) (d : Db) (f : DbError → Resp) :
    (Tx.query (truncateDinners pg id (text e)) f).inside d = (.ok (), cutDinners d id e) := by
  have hr : (truncateDinners pg id (text e)).run d =
      .ok (deleteDinners d (dinnersAfter d id e), ()) := by
    show (date pg (text e) >>= _) = _
    rw [date_text]
    rfl
  exact Tx.inside_query_ok hr

lemma inside_addEmptySlots {id : ℤ} (hw : d.weeks.find? id = some w) (e e' : ℤ)
    (f : DbError → Resp) : (Tx.query (addEmptySlots pg id (text e) (text e')) f).inside d =
      (.ok (), addSlots d id (span (e + 1) e')) := by
  have hr : (addEmptySlots pg id (text e) (text e')).run d =
      .ok (((emptySlots d id (span (e + 1) e')).map .put).map Write.dinner, ()) := by
    show (date pg (text e) >>= _) = _
    rw [date_text, date_text]
    show (if emptySlots d id (span (e + 1) e') = [] then _ else references _ _ _ >>= _) = _
    rw [references_of_find hw]
    split_ifs with h
    · rw [h]
      rfl
    · rfl
  rw [Tx.inside_query_ok hr, applyAll_dinners]
  rfl

/-! ### The two side effects -/

lemma slideEnd_inside {p : WeekPatch} {s : ℤ} (hp : Carries p m) (hm : m.start = some s)
    (hs : s ≠ w.startDate) (d : Db) :
    (slideEnd pg p (text s) (text w.startDate) (text w.endDate)).inside d =
      (.ok (text (m.curEnd w), text (m.newEnd w)), d) := by
  have hn : m.newStart w = s := by rw [Move.newStart, hm]; rfl
  rw [slideEnd, hp.2]
  rcases hf : m.finish with _ | e
  · simp [Tx.inside_bind, inside_computeEnd, Move.newEnd, Move.curEnd, hf, hn, hs]
  · simp [Move.newEnd, Move.curEnd, hf]

lemma newIsoWeek_inside (p : WeekPatch) (s : ℤ) (d : Db) :
    (newIsoWeek pg p (text s)).inside d = (.ok (p.isoWeek.getD (isoWeek s)), d) := by
  rw [newIsoWeek]
  rcases p.isoWeek with _ | iso
  · exact inside_computeIsoWeek s d _
  · rfl

lemma startShift_inside {id : ℤ} {p : WeekPatch} (hp : Carries p m) (hid : w.id = id) (d : Db) :
    (startShift pg id p (text w.startDate) (text w.endDate)).inside d =
      (.ok (if m.newStart w = w.startDate then ⟨p, text w.startDate, text w.endDate⟩
        else ⟨{ p with
                endDate := some (text (m.newEnd w))
                isoWeek := some (p.isoWeek.getD (isoWeek (m.newStart w))) },
              text (m.newStart w), text (m.curEnd w)⟩), m.shifted w d) := by
  rw [startShift, hp.1, Move.shifted, hid]
  rcases hm : m.start with _ | s
  · have hn : m.newStart w = w.startDate := by rw [Move.newStart, hm]; rfl
    rw [if_pos hn, if_pos hn]
    rfl
  · have hn : m.newStart w = s := by rw [Move.newStart, hm]; rfl
    simp only [Option.map_some, text_inj]
    rw [hn]
    split_ifs with hs
    · rfl
    · rw [Tx.inside_bind_of_ok _ (inside_shiftDinners (pg.castDate_text s) id d _),
        Tx.inside_bind_of_ok _ (slideEnd_inside hp hm hs _),
        Tx.inside_bind_of_ok _ (newIsoWeek_inside p s _)]
      rfl

lemma endResize_inside {id : ℤ} {p : WeekPatch} {e cur start : ℤ} (hp : p.endDate = some (text e))
    (hw : d.weeks.find? id = some w) :
    (endResize pg id p (text start) (text cur)).inside d =
      if e ≠ cur ∧ Cut e start then
        (.error (.error 400 "end_date cannot be before start_date"), d)
      else (.ok (), Move.resize d id e cur) := by
  rw [endResize, hp, Move.resize]
  simp only [text_inj, Cut]
  by_cases h1 : e = cur
  · simp [h1]
  · by_cases h2 : textLt (text e) (text start) = true
    · simp [h1, h2]
    · by_cases h3 : textLt (text e) (text cur) = true
      · simp [h1, h2, h3, inside_truncateDinners]
      · have h4 : textLt (text cur) (text e) = true := by
          by_contra h4
          exact h1 (text_inj.mp (textLt_trichotomy (by simpa using h3) (by simpa using h4)))
        simp [h1, h2, h3, h4, inside_addEmptySlots hw]

/-! ### The transaction -/

/-- The end of the transaction: the update, and the check that it found its row. -/
def saveWeek (pg : Pg) (now id : ℤ) (u : WeekUpdate) : Tx Resp Unit := do
  let n ← updateWeek (Tx.query · fun _ => internalError) pg now id u
  if n = 0 then Tx.fail notFound else pure ()

lemma saveWeek_ok {now id : ℤ} {u : WeekUpdate} {d' : Db}
    (h : (saveWeek pg now id u).inside d = (.ok (), d')) :
    ∃ w w', d.weeks.find? id = some w ∧ Saves pg now u w w' ∧ d' = setWeek d w' := by
  obtain ⟨n, v, hn, h⟩ := Tx.inside_bind_ok h
  have h0 : n ≠ 0 := by
    rintro rfl
    simp at h
  rw [if_neg h0, Tx.inside_pure, Prod.mk.injEq] at h
  rw [updateWeek] at hn
  split_ifs at hn with hu
  · simp only [Tx.inside_pure, Prod.mk.injEq, Except.ok.injEq] at hn
    exact absurd hn.1.symm h0
  · rcases hr : (updateWeekStmt pg now id u).run d with e | ⟨ws, n'⟩
    · rw [Tx.inside_query_error hr] at hn
      simp at hn
    · rw [Tx.inside_query_ok hr, Prod.mk.injEq, Except.ok.injEq] at hn
      rcases updateWeekStmt_ok hr with ⟨-, -, rfl⟩ | ⟨w, w', s, hw, hs, hw', rfl, rfl⟩
      · exact absurd hn.1.symm h0
      · exact ⟨w, w', hw, ⟨by simpa using hu, s, hs, hw'⟩, h.2.symm.trans hn.2.symm⟩

lemma saveWeek_of_saves {now id : ℤ} {u : WeekUpdate} {w' : Week}
    (hw : d.weeks.find? id = some w) (h : Saves pg now u w w') :
    (saveWeek pg now id u).inside d = (.ok (), setWeek d w') := by
  obtain ⟨hu, s, hs, hw'⟩ := h
  rw [saveWeek, updateWeek, hu]
  simp only [Bool.false_eq_true, if_false]
  rw [Tx.inside_bind_of_ok _ (Tx.inside_query_ok (updateWeekStmt_of_assign hs hw hw'))]
  rfl

lemma saveWeek_exec {now id : ℤ} {u : WeekUpdate} {w' : Week}
    (hw : d.weeks.find? id = some w) (h : Saves pg now u w w') :
    (saveWeek pg now id u).exec d = ([.week (.put w')], .ok ()) := by
  obtain ⟨hu, s, hs, hw'⟩ := h
  rw [saveWeek, updateWeek, hu]
  exact Tx.exec_stmt_ok (updateWeekStmt_of_assign hs hw hw')

lemma Move.shifted_of_eq {m : Move} (h : m.newStart w = w.startDate) (d : Db) :
    m.shifted w d = d := if_pos h

lemma Move.shifted_of_ne {m : Move} (h : m.newStart w ≠ w.startDate) (d : Db) :
    m.shifted w d = pack d w.id (m.newStart w) := if_neg h

/-- A resize to the end it goes by changes nothing. -/
lemma Move.resize_self (d : Db) (id e : ℤ) : Move.resize d id e e = d := if_pos rfl

lemma Move.shifted_weeks (m : Move) (w : Week) (d : Db) : (m.shifted w d).weeks = d.weeks := by
  rw [Move.shifted]
  split_ifs <;> rfl

lemma Move.resize_weeks (d : Db) (id e cur : ℤ) : (Move.resize d id e cur).weeks = d.weeks := by
  rw [Move.resize]
  split_ifs <;> simp

lemma Move.resized_weeks (m : Move) (w : Week) (d : Db) : (m.resized w d).weeks = d.weeks := by
  rw [Move.resized, Move.resize_weeks, Move.shifted_weeks]

lemma resize_then_save {id : ℤ} {p p' : WeekPatch} (hw : d.weeks.find? id = some w) (now : ℤ)
    (he : p'.endDate = some (text (m.newEnd w))) (hu : p'.toUpdate = m.update w p) :
    (endResize pg id p' (text (m.newStart w)) (text (m.curEnd w)) >>=
        fun _ => saveWeek pg now id p'.toUpdate).inside (m.shifted w d) =
      if m.Refused w then
        (.error (.error 400 "end_date cannot be before start_date"), m.shifted w d)
      else (saveWeek pg now id (m.update w p)).inside (m.resized w d) := by
  have hid : w.id = id := (Table.find?_eq_some.mp hw).2
  have hw' : (m.shifted w d).weeks.find? id = some w := by rw [Move.shifted_weeks, hw]
  rw [Tx.inside_bind, endResize_inside he hw', hu, Move.resized, hid]
  have hiff : m.newEnd w ≠ m.curEnd w ∧ Cut (m.newEnd w) (m.newStart w) ↔ m.Refused w := Iff.rfl
  by_cases hr : m.Refused w
  · rw [if_pos hr, if_pos (hiff.mpr hr)]
  · rw [if_neg hr, if_neg (hiff.not.mpr hr)]

/-- **The patch transaction**: it is refused, or moves the dinners and saves the plan. -/
theorem patchTx_inside (pg : Pg) {id : ℤ} {p : WeekPatch} (hw : d.weeks.find? id = some w)
    (hp : Carries p m) (now : ℤ) : (patchTx pg now id p).inside d =
      if m.Refused w then
        (.error (.error 400 "end_date cannot be before start_date"), m.shifted w d)
      else (saveWeek pg now id (m.update w p)).inside (m.resized w d) := by
  have hid : w.id = id := (Table.find?_eq_some.mp hw).2
  rw [patchTx, Tx.inside_bind_of_ok _ (inside_weekDates id d _), hw]
  simp only [Option.map_some]
  rw [Tx.inside_bind_of_ok _ (startShift_inside hp hid d)]
  change (_ >>= fun _ => saveWeek pg now id _).inside _ = _
  by_cases hn : m.newStart w = w.startDate
  · rw [if_pos hn]
    have hu : p.toUpdate = m.update w p := by rw [Move.update, if_pos hn]
    have hcur : m.curEnd w = w.endDate := by simp [Move.curEnd, hn]
    rcases hf : m.finish with _ | e
    · -- no date to resize to: the end stays
      have he : m.newEnd w = m.curEnd w := by rw [Move.newEnd, hf]; rfl
      have hr : m.resized w d = m.shifted w d := by rw [Move.resized, he, Move.resize, if_pos rfl]
      rw [if_neg fun h => h.1 he, hr, endResize, hp.2, hf, hu]
      rfl
    · have he : p.endDate = some (text (m.newEnd w)) := by rw [hp.2, hf, Move.newEnd, hf]; rfl
      rw [← resize_then_save hw now he hu, hn, hcur]
  · rw [if_neg hn]
    exact resize_then_save hw now rfl (by rw [Move.update, if_neg hn]; rfl)

/-- A shift keeps the dates the caller set. -/
lemma startShift_patch {id : ℤ} {p : WeekPatch} {curStart curEnd : String} {s : Shifted} {v : Db}
    (h : (startShift pg id p curStart curEnd).inside d = (.ok s, v)) :
    s.patch.startDate = p.startDate ∧ ∀ e, p.endDate = some e → s.patch.endDate = some e := by
  have same (hs : (⟨p, curStart, curEnd⟩ : Shifted) = s) :
      s.patch.startDate = p.startDate ∧ ∀ e, p.endDate = some e → s.patch.endDate = some e := by
    rw [← hs]
    exact ⟨rfl, fun _ he => he⟩
  rw [startShift] at h
  split at h
  · exact same (by simpa using (Prod.mk.inj h).1)
  · rename_i t hp
    split_ifs at h with ht
    · exact same (by simpa using (Prod.mk.inj h).1)
    · obtain ⟨-, v1, -, h⟩ := Tx.inside_bind_ok h
      obtain ⟨ends, v2, hends, h⟩ := Tx.inside_bind_ok h
      obtain ⟨iso, v3, -, h⟩ := Tx.inside_bind_ok h
      simp only [Tx.inside_pure, Prod.mk.injEq, Except.ok.injEq] at h
      rw [← h.1]
      refine ⟨hp.symm ▸ rfl, fun e he => ?_⟩
      rw [slideEnd, he] at hends
      simp only [Tx.inside_pure, Prod.mk.injEq, Except.ok.injEq] at hends
      rw [← hends.1]

/-- A date that passed the shape check and was stored is a day of a four-digit year. -/
lemma exists_day {v : Option String} {cur new : ℤ} (hv : dateOk v = true)
    (h : DateSet pg v cur new) : ∃ o : Option ℤ, v = o.map text ∧ ∀ x ∈ o, FourDigit x := by
  cases v with
  | none => exact ⟨none, rfl, by simp⟩
  | some s =>
    obtain ⟨hs, hy⟩ := pg.castDate_shape (by simpa [dateOk] using hv) h.2
    exact ⟨some new, by rw [hs]; rfl, by simpa using hy⟩

/-- What a committed patch has done. -/
structure Patched (pg : Pg) (now id : ℤ) (p : WeekPatch) (m : Move) (w w' : Week) (d d' : Db) :
    Prop where
  found : d.weeks.find? id = some w
  carries : Carries p m
  startYear : ∀ x ∈ m.start, FourDigit x
  finishYear : ∀ x ∈ m.finish, FourDigit x
  accepted : ¬m.Refused w
  saves : Saves pg now (m.update w p) w w'
  result : d' = setWeek (m.resized w d) w'

/-- **A committed patch**: the dates it carries are days, it was not refused, the dinners moved
with the dates and the row of the plan was updated. -/
theorem patched_of_ok {now id : ℤ} {p : WeekPatch} {d' : Db} (hs : dateOk p.startDate = true)
    (he : dateOk p.endDate = true) (h : (patchTx pg now id p).inside d = (.ok (), d')) :
    ∃ m w w', Patched pg now id p m w w' d d' := by
  have ⟨m, w, hw, hp, hsy, hey⟩ : ∃ (m : Move) (w : Week), d.weeks.find? id = some w ∧
      Carries p m ∧ (∀ x ∈ m.start, FourDigit x) ∧ ∀ x ∈ m.finish, FourDigit x := by
    obtain ⟨r, v, hr, hrest⟩ := Tx.inside_bind_ok h
    rw [inside_weekDates] at hr
    simp only [Prod.mk.injEq, Except.ok.injEq] at hr
    rcases hw : d.weeks.find? id with _ | w
    · rw [← hr.1, hw] at hrest
      simp at hrest
    rw [← hr.1, hw] at hrest
    obtain ⟨s, v1, hshift, hrest⟩ := Tx.inside_bind_ok hrest
    obtain ⟨-, v2, -, hrest⟩ := Tx.inside_bind_ok hrest
    obtain ⟨w0, w', -, hsave, -⟩ := saveWeek_ok hrest
    have hup := hsave.updated
    obtain ⟨hps, hpe⟩ := startShift_patch hshift
    have hstart : DateSet pg p.startDate w0.startDate w'.startDate := hps ▸ hup.startDate
    obtain ⟨o, ho, hoy⟩ := exists_day hs hstart
    rcases hpf : p.endDate with _ | e
    · exact ⟨⟨o, none⟩, w, rfl, ⟨ho, hpf⟩, hoy, by simp⟩
    · have hend : DateSet pg p.endDate w0.endDate w'.endDate := by
        rw [hpf, ← hpe e hpf]
        exact hup.endDate
      obtain ⟨o', ho', hoy'⟩ := exists_day he hend
      exact ⟨⟨o, o'⟩, w, rfl, ⟨ho, ho'⟩, hoy, hoy'⟩
  rw [patchTx_inside pg hw hp] at h
  have href : ¬m.Refused w := by
    intro href
    rw [if_pos href] at h
    simp at h
  rw [if_neg href] at h
  obtain ⟨w1, w', hw1, hup, rfl⟩ := saveWeek_ok h
  rw [Move.resized_weeks, hw, Option.some.injEq] at hw1
  exact ⟨m, w, w', hw, hp, hsy, hey, href, hw1 ▸ hup, rfl⟩

namespace Patched

variable {now id : ℤ} {p : WeekPatch} {w' : Week} {d' : Db}

lemma updated (h : Patched pg now id p m w w' d d') : Updated pg now (m.update w p) w w' :=
  h.saves.updated

lemma week_id (h : Patched pg now id p m w w' d d') : w.id = id := (Table.find?_eq_some.mp h.found).2

lemma dateSet_text {cur new : ℤ} {o : Option ℤ} (h : DateSet pg (o.map text) cur new) :
    new = o.getD cur := by
  cases o with
  | none => exact h
  | some x => simpa using h.2.symm

lemma newStart (h : Patched pg now id p m w w' d d') : w'.startDate = m.newStart w := by
  have hu : (m.update w p).startDate = m.start.map text := by
    rw [← h.carries.1, Move.update]
    split_ifs <;> rfl
  exact dateSet_text (hu ▸ h.updated.startDate)

lemma newEnd (h : Patched pg now id p m w w' d d') : w'.endDate = m.newEnd w := by
  have hu := h.updated.endDate
  by_cases hn : m.newStart w = w.startDate
  · have hp : (m.update w p).endDate = m.finish.map text := by
      rw [Move.update, if_pos hn]
      exact h.carries.2
    have hcur : m.curEnd w = w.endDate := by simp [Move.curEnd, hn]
    rw [Move.newEnd, hcur]
    exact dateSet_text (o := m.finish) (hp ▸ hu)
  · have hp : (m.update w p).endDate = (some (m.newEnd w)).map text := by
      rw [Move.update, if_neg hn]
      rfl
    exact dateSet_text (o := some (m.newEnd w)) (hp ▸ hu)

end Patched

/-! ### The handler -/

section

variable {Q : Type} {A : Q → Type} {σ : Type} {ans : (q : Q) → σ → A q × σ}

/-- A program that only reads. -/
def ReadsOnly {ε α : Type} (x : Prog Q A ε α) : Prop :=
  ∀ (σ : Type) (ans : (q : Q) → σ → A q × σ) (c : Db × σ), (x.run ans c).2 = c

lemma readsOnly_bind {ε α β : Type} {x : Prog Q A ε α} {f : α → Prog Q A ε β} (hx : ReadsOnly x)
    (hf : ∀ a, ReadsOnly (f a)) : ReadsOnly (x >>= f) := by
  intro σ ans c
  have h := hx σ ans c
  rw [Prog.run_bind]
  rcases hr : x.run ans c with ⟨e | a, c'⟩
  · rw [hr] at h
    exact h
  · rw [hr] at h
    simp only at h
    rw [h]
    exact hf a σ ans c

lemma readsOnly_select {ε β : Type} (label : Label) (f : Db → β) (fail : DbError → ε) :
    ReadsOnly (Prog.query (select label f) fail : Prog Q A ε β) := by
  intro σ ans c
  rw [Prog.run_query, select_run]
  rfl

lemma readsOnly_readOne {β : Type} (label : Label) (f : Db → Option β) :
    ReadsOnly (readOne (select label f) : Prog Q A Resp β) :=
  readsOnly_bind (readsOnly_select _ _ _) fun a => by cases a <;> exact fun _ _ _ => rfl

lemma readsOnly_readRows {β : Type} (label : Label) (f : Db → List β) :
    ReadsOnly (readRows (select label f) : Prog Q A Resp (List β)) := by
  refine readsOnly_bind (readsOnly_select _ _ _) fun rows => readsOnly_bind ?_ fun _ _ _ _ => rfl
  intro σ ans c
  rw [Prog.run_tried, rowsCome, select_run]
  rfl

lemma readsOnly_reload (id : ℤ) : ReadsOnly (reload pg id : Prog Q A Resp Resp) := by
  refine readsOnly_bind (readsOnly_readOne _ _) fun ws => readsOnly_bind ?_ fun _ _ _ _ => rfl
  refine readsOnly_bind (readsOnly_readOne _ _) fun _ => ?_
  refine readsOnly_bind (readsOnly_readRows _ _) fun _ => ?_
  refine readsOnly_bind (readsOnly_readRows _ _) fun _ => ?_
  refine readsOnly_bind (readsOnly_readRows _ _) fun _ => ?_
  exact readsOnly_bind (readsOnly_readRows _ _) fun _ _ _ _ => rfl

/-- What a transaction followed by reads leaves behind. -/
lemma run_transaction_then {ε α β : Type} (body : Tx ε α) (f : α → Prog Q A ε β)
    (hf : ∀ a, ReadsOnly (f a)) (d : Db) (s : σ) :
    ((Prog.transaction body >>= f).run ans (d, s)).2 = ((body.run d).2, s) := by
  rw [Prog.run_bind, Prog.run_transaction]
  rcases hb : body.run d with ⟨e | a, d'⟩
  · rfl
  · exact hf a σ ans _

end

/-! ### Patches that carry nothing but dates -/

/-- The request that carries these dates and nothing else. -/
def Move.patch (m : Move) : WeekPatch :=
  ⟨none, m.start.map text, m.finish.map text, none, none, none, none⟩

lemma addDate_text (pg : Pg) (o : Option ℤ) : addDate pg (o.map text) = .ok (o.map some) := by
  cases o with
  | none => rfl
  | some d =>
    show (if text d = "" then _ else _) = _
    rw [if_neg (text_ne_empty d), date_text]
    rfl

/-- An update of the dates and the label alone is stored as it is. -/
lemma saves_dates {now : ℤ} {u : WeekUpdate} {a b : Option ℤ} (w : Week)
    (ha : u.startDate = a.map text) (hb : u.endDate = b.map text)
    (hab : a ≠ none ∨ b ≠ none) (h1 : u.deliveryDate = none) (h2 : u.orderDate = none)
    (h3 : u.status = none) : ∃ w', Saves pg now u w w' := by
  have hne : u.isEmpty = false := by
    rw [WeekUpdate.isEmpty, ha, hb]
    rcases hab with h | h <;> rcases a with _ | a <;> rcases b with _ | b <;> simp_all
  have hs : sets pg u = .ok ⟨u.isoWeek, a.map some, b.map some, none, none, none, u.notesMd⟩ := by
    rw [sets, ha, hb, h1, h2, h3, addDate_text, addDate_text]
    rfl
  have hn (column : String) (o : Option ℤ) (cur : ℤ) :
      notNull column (o.map some) cur = .ok (o.getD cur) := by cases o <;> rfl
  obtain ⟨w', hw'⟩ : ∃ w', (⟨u.isoWeek, a.map some, b.map some, none, none, none, u.notesMd⟩ :
      Sets).assign now w = .ok w' := by
    rw [Sets.assign, hn, hn]
    exact ⟨_, rfl⟩
  exact ⟨w', hne, _, hs, hw'⟩

lemma dateOk_map {o : Option ℤ} (ho : ∀ x ∈ o, FourDigit x) : dateOk (o.map text) = true := by
  cases o with
  | none => rfl
  | some x => exact isoShape_text (ho x rfl)

/-- A well-shaped request is its transaction and a reload. -/
lemma perform_transaction {now id : ℤ} {p : WeekPatch} (hid : 1 ≤ id)
    (hs : dateOk p.startDate = true) (he : dateOk p.endDate = true) :
    (perform (handlePatchWeek pg now id (.ok p)) d).2 = ((patchTx pg now id p).run d).2 := by
  have hid' : ¬id < 1 := by omega
  simp only [handlePatchWeek, hid', hs, he, if_false, Bool.not_true, Bool.false_eq_true]
  rw [perform, run_transaction_then _ _ fun _ => readsOnly_reload id]

/-- The request passes every check on its way to the commit. -/
structure Accepted (pg : Pg) (now id : ℤ) (p : WeekPatch) (m : Move) (w : Week) : Prop where
  id_pos : 1 ≤ id
  startOk : dateOk p.startDate = true
  endOk : dateOk p.endDate = true
  carries : Carries p m
  accepted : ¬m.Refused w
  saves : ∃ w', Saves pg now (m.update w p) w w'

lemma fourDigit_of_dateOk {o : Option ℤ} (h : dateOk (o.map text) = true) : ∀ x ∈ o, FourDigit x := by
  rintro x rfl
  exact (text_of_parseDate (by simpa [dateOk] using h) (parseDate_text x)).2

/-- The transaction of an accepted request ends well. -/
lemma Accepted.inside {now id : ℤ} {p : WeekPatch} (hw : d.weeks.find? id = some w)
    (h : Accepted pg now id p m w) : ∃ w', Saves pg now (m.update w p) w w' ∧
      (patchTx pg now id p).inside d = (.ok (), setWeek (m.resized w d) w') := by
  obtain ⟨-, -, -, hp, hr, w', hw'⟩ := h
  refine ⟨w', hw', ?_⟩
  rw [patchTx_inside pg hw hp, if_neg hr, saveWeek_of_saves (by rw [Move.resized_weeks, hw]) hw']

/-- An accepted request commits. -/
theorem perform_accepted {now id : ℤ} {p : WeekPatch} (hw : d.weeks.find? id = some w)
    (h : Accepted pg now id p m w) :
    ∃ w', Patched pg now id p m w w' d (perform (handlePatchWeek pg now id (.ok p)) d).2 := by
  obtain ⟨w', hw', hin⟩ := h.inside hw
  obtain ⟨hid, hs, he, hp, hr, -⟩ := h
  refine ⟨w', hw, hp, fourDigit_of_dateOk (hp.1 ▸ hs), fourDigit_of_dateOk (hp.2 ▸ he), hr, hw', ?_⟩
  rw [perform_transaction hid hs he, Tx.run_of_ok hin]

lemma accepted_dates (pg : Pg) (now : ℤ) {id : ℤ} (hid : 1 ≤ id)
    (hm : m.start ≠ none ∨ m.finish ≠ none) (hs : ∀ x ∈ m.start, FourDigit x)
    (he : ∀ x ∈ m.finish, FourDigit x) (hr : ¬m.Refused w) :
    Accepted pg now id m.patch m w := by
  have hu : (m.update w m.patch).startDate = m.start.map text ∧
      (m.update w m.patch).endDate =
        (if m.newStart w = w.startDate then m.finish else some (m.newEnd w)).map text ∧
      (m.update w m.patch).deliveryDate = none ∧ (m.update w m.patch).orderDate = none ∧
      (m.update w m.patch).status = none := by
    rw [Move.update]
    split_ifs <;> exact ⟨rfl, rfl, rfl, rfl, rfl⟩
  obtain ⟨h1, h2, h3, h4, h5⟩ := hu
  exact ⟨hid, dateOk_map hs, dateOk_map he, ⟨rfl, rfl⟩, hr,
    saves_dates w h1 h2 (by split_ifs <;> simp_all) h3 h4 h5⟩

/-- **A patch of the dates alone** commits unless it is refused. -/
theorem perform_dates (pg : Pg) (now : ℤ) {id : ℤ} (hid : 1 ≤ id) (hw : d.weeks.find? id = some w)
    (hm : m.start ≠ none ∨ m.finish ≠ none) (hs : ∀ x ∈ m.start, FourDigit x)
    (he : ∀ x ∈ m.finish, FourDigit x) (hr : ¬m.Refused w) :
    ∃ w', Patched pg now id m.patch m w w' d
      (perform (handlePatchWeek pg now id (.ok m.patch)) d).2 :=
  perform_accepted hw (accepted_dates pg now hid hm hs he hr)

/-- **A patch** leaves the rows alone, or was accepted and has committed. -/
theorem perform_patch (pg : Pg) (now id : ℤ) (body : Except String WeekPatch) (d : Db) :
    SameRows d (perform (handlePatchWeek pg now id body) d).2 ∨
      ∃ p m w w', body = .ok p ∧ Accepted pg now id p m w ∧
        Patched pg now id p m w w' d (perform (handlePatchWeek pg now id body) d).2 := by
  unfold handlePatchWeek
  split_ifs with hid
  · exact Or.inl (SameRows.refl d)
  · rcases body with e | p
    · exact Or.inl (SameRows.refl d)
    · simp only
      split_ifs with hs he
      · exact Or.inl (SameRows.refl d)
      · exact Or.inl (SameRows.refl d)
      · rw [perform, run_transaction_then _ _ fun _ => readsOnly_reload id]
        rcases hin : (patchTx pg now id p).inside d with ⟨e | ⟨⟩, v⟩
        · rw [Tx.run_of_error hin]
          exact Or.inl (sameRows_reserveAll d _)
        · rw [Tx.run_of_ok hin]
          have hs' : dateOk p.startDate = true := by simpa using hs
          have he' : dateOk p.endDate = true := by simpa using he
          obtain ⟨m, w, w', h⟩ := patched_of_ok hs' he' hin
          exact Or.inr ⟨p, m, w, w', rfl,
            ⟨by omega, hs', he', h.carries, h.accepted, w', h.saves⟩, h⟩

/-- What happens to a request that is refused. -/
theorem perform_refused (pg : Pg) (now : ℤ) {id : ℤ} (hid : 1 ≤ id) (hw : d.weeks.find? id = some w)
    (hs : ∀ x ∈ m.start, FourDigit x)
    (he : ∀ x ∈ m.finish, FourDigit x) (hr : m.Refused w) :
    SameRows d (perform (handlePatchWeek pg now id (.ok m.patch)) d).2 := by
  have hin := patchTx_inside pg hw ⟨rfl, rfl⟩ now (m := m) (p := m.patch)
  rw [if_pos hr] at hin
  rw [perform_transaction hid (dateOk_map hs) (dateOk_map he), Tx.run_of_error hin]
  exact sameRows_reserveAll d _

end Veckomenyn.PatchSpec
