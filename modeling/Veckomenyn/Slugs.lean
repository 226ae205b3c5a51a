import Veckomenyn.Duplicates
import Veckomenyn.EveryStep
import Veckomenyn.Faults

/-!
The categories of the preferences.

The API takes a category only when it is a slug, the shipped files have slugs for names, and the
agent's tool takes any text. A row whose category is no slug can be neither edited nor deleted
through the API.
-/

namespace Veckomenyn.Slugs

open Rows Schema Sql Txn Tools Preferences Duplicates EveryStep

/-! ### The calls -/

def shippedNames : List String :=
  ["cooking_inspiration.md", "cooking_style.md", "family.md", "shopping_rules.md", "sourcing.md"]

/-- The shipped files, with any texts. -/
def shipped (text : String → String) : List Entry :=
  shippedNames.map fun name => ⟨name, false, text name⟩

inductive Call where
  | updatePreference (input : Option PreferenceInput)
  | put (category : String) (body : Except String PreferencePatch)
  | delete (category : String)
  | seed (text : String → String)

def Call.job : Call → Job
  | updatePreference input => .updatePreference input
  | put category body => .put category body
  | delete category => .delete category
  | seed text => .seed (shipped text)

/-- A call, and the statements of it that fail. -/
structure Attempt where
  call : Call
  fails : ℕ → Option DbError

/-- The calls ask nothing of the outside world. -/
def noAsk : (q : Empty) → Unit → Empty.elim q × Unit := fun q => q.elim

variable (lost : (j : Job) → DbError → j.Err)

/-- What an attempt leaves, where `lost` is what a call ends with when its BEGIN or COMMIT fails. -/
def attempt (d : Db) (a : Attempt) : Db :=
  (a.call.job.prog.runWith a.fails (lost _) noAsk 0 (d, ())).2.1

/-- What a call answers when nothing fails. -/
def answer {ε α : Type} (x : Prog Empty Empty.elim ε α) (d : Db) : Except ε α :=
  (x.run noAsk (d, ())).1

/-- The category is a slug, and can be edited and deleted through the API. -/
structure Manageable (d : Db) (category : String) : Prop where
  slug : validCategory category = true
  edited : ∀ bodyMd, answer (handlePutPreference category (.ok ⟨some bodyMd⟩)) d =
    .ok (.json ⟨category, bodyMd⟩)
  deleted : answer (handleDeletePreference category) d = .ok .noContent

def AllSlugs (d : Db) : Prop := ∀ r ∈ d.principles.rows, validCategory r.category = true

/-! ### The API -/

/-- What an upsert leaves. -/
lemma run_upsert {γ δ : Type} {c b : String} {body : Tx γ δ} (h : IsUpsert c b body) (d : Db) :
    ∃ a d', body.run d = (.ok a, d') ∧ ∀ r, r ∈ d'.principles.rows ↔
      r = ⟨d.principles.next, c, b⟩ ∨ r ∈ d.principles.rows ∧ r.category ≠ c := by
  obtain ⟨f, g, a⟩ := h
  let ids := (d.principles.rows.filter fun r => r.category = c).map Principle.id
  have hnext : (applyAll d (dels ids)).principles.next = d.principles.next := by
    refine (rows_of_removes ?_).2
    intro w hw
    simp only [dels, List.map_map, List.mem_map, Function.comp_apply] at hw
    obtain ⟨k, -, rfl⟩ := hw
    exact ⟨k, rfl⟩
  refine ⟨a, applyAll d (dels ids ++ [.principle (.put ⟨d.principles.next, c, b⟩)]), ?_, ?_⟩
  · rw [← hnext]
    rfl
  intro r
  rw [rows_upserted]
  refine or_congr_right ⟨?_, ?_⟩
  · rintro ⟨⟨hr, hid⟩, -⟩
    refine ⟨hr, fun hc => hid ?_⟩
    exact List.mem_map_of_mem (List.mem_filter.mpr ⟨hr, decide_eq_true hc⟩)
  · rintro ⟨hr, hc⟩
    refine ⟨⟨hr, fun hid => ?_⟩, (d.principles.fresh r hr).ne⟩
    obtain ⟨r', hr', hid⟩ := List.mem_map.mp hid
    obtain ⟨hr', hc'⟩ := List.mem_filter.mp hr'
    obtain rfl : r' = r := d.principles.key_inj hr' hr hid
    exact hc (of_decide_eq_true hc')

lemma answer_put {c : String} (hc : validCategory c = true) (b : String) (d : Db) :
    answer (handlePutPreference c (.ok ⟨some b⟩)) d = .ok (.json ⟨c, b⟩) := by
  obtain ⟨a, d', hrun, hrows⟩ := run_upsert (c := c) (b := b) (.mk (fun _ => internalError)
    (fun _ => internalError) ()) d
  have hfind : (d'.principles.rows.find? fun r => r.category = c) =
      some ⟨d.principles.next, c, b⟩ := by
    cases hf : d'.principles.rows.find? fun r => r.category = c with
    | none =>
      have hnone := List.find?_eq_none.mp hf _ ((hrows _).mpr (Or.inl rfl))
      exact absurd rfl (of_decide_eq_false (Bool.not_eq_true _ ▸ hnone))
    | some r =>
      have hcat : r.category = c := by simpa using List.find?_some hf
      rcases (hrows r).mp (List.mem_of_find?_eq_some hf) with hr | ⟨-, hr⟩
      · rw [hr]
      · exact absurd hcat hr
  have hbody : (Prog.transaction (do
      Tx.query (deletePrinciples c) fun _ => internalError
      Tx.query (insertPrinciple c b) fun _ => internalError) : Prog Empty Empty.elim Resp Unit).run
        noAsk (d, ()) = (.ok a, d', ()) := by
    rw [Prog.run_transaction]
    exact congrArg (fun out => (out.1, out.2, ())) hrun
  unfold answer handlePutPreference
  rw [if_neg (by simp [hc])]
  simp only
  rw [Prog.run_bind_of_ok _ hbody, Prog.run_bind, Prog.run_query]
  simp only [selectPreference, select, hfind, Option.map_some]
  rfl

lemma answer_delete {c : String} (hc : validCategory c = true) {d : Db} {r : Principle}
    (hr : r ∈ d.principles.rows) (hcat : r.category = c) :
    answer (handleDeletePreference c) d = .ok .noContent := by
  have hpos : (d.principles.rows.filter fun r => r.category = c) ≠ [] :=
    List.ne_nil_of_mem (List.mem_filter.mpr ⟨hr, decide_eq_true hcat⟩)
  have hrun : (deletePreference c).run d = .ok
      (dels ((d.principles.rows.filter fun r => r.category = c).map Principle.id),
        (dels ((d.principles.rows.filter fun r => r.category = c).map Principle.id)).length) := rfl
  unfold answer handleDeletePreference
  rw [if_neg (by simp [hc]), Prog.run_bind, Prog.run_query, hrun]
  simp only
  rw [if_neg (by simpa [dels] using hpos)]
  rfl

/-- A row can be managed when its category is a slug, and only then. -/
lemma manageable_iff {d : Db} {r : Principle} (hr : r ∈ d.principles.rows) :
    Manageable d r.category ↔ validCategory r.category = true :=
  ⟨Manageable.slug, fun h => ⟨h, fun b => answer_put h b d, answer_delete h hr rfl⟩⟩

/-- **The API refuses what is no slug.** -/
theorem refused {c : String} (hc : validCategory c = false) (b : String) (d : Db) :
    answer (handlePutPreference c (.ok ⟨some b⟩)) d =
        .error (.error 400 "bad category (expected a-z0-9_- slug)") ∧
      answer (handleDeletePreference c) d =
        .error (.error 400 "bad category (expected a-z0-9_- slug)") := by
  unfold answer handlePutPreference handleDeletePreference
  rw [if_pos (by simp [hc]), if_pos (by simp [hc])]
  exact ⟨rfl, rfl⟩

/-! ### The writers -/

/-- A preference that is written has a slug for its category. -/
def Slug (w : Write) : Prop :=
  ∀ p, w = Write.principle (.put p) → validCategory p.category = true

lemma allSlugs_apply (d : Db) (w : Write) (hw : Slug w) (h : AllSlugs d) :
    AllSlugs (Database.apply d w) := by
  cases w with
  | principle w =>
    cases w with
    | put p =>
      intro r hr
      rcases Table.mem_put.mp hr with rfl | ⟨hr, -⟩
      · exact hw r rfl
      · exact h r hr
    | del k => exact fun r hr => h r (Table.mem_del.mp hr).1
  | _ => exact h

lemma allSlugs_of_same {d d' : Db} (hs : SameRows d d') (h : AllSlugs d) : AllSlugs d' :=
  fun r hr => h r (hs.principles ▸ hr)

lemma slug_dels {ids : List ℤ} : ∀ w ∈ dels ids, Slug w := by
  rintro w hw p rfl
  exact absurd hw put_notMem_dels

lemma forall_upsert {γ δ : Type} {c b : String} {body : Tx γ δ} (h : IsUpsert c b body)
    (hc : validCategory c = true) : body.Forall (Prog.Writing Slug) fun _ => True := by
  obtain ⟨f, g, a⟩ := h
  refine ⟨?_, fun _ => ⟨?_, fun _ => trivial⟩⟩
  · rintro d ws _ ⟨⟩
    exact slug_dels
  · rintro d ws _ ⟨⟩ w hw p hp
    rw [List.mem_singleton.mp hw] at hp
    cases hp
    exact hc

lemma forall_put (c : String) (body : Except String PreferencePatch) :
    (handlePutPreference c body : Prog Empty Empty.elim _ _).Forall (Prog.Writing Slug) := by
  unfold handlePutPreference
  split_ifs with hc
  · trivial
  have hc : validCategory c = true := by simpa using hc
  rcases body with e | ⟨_ | b⟩
  · trivial
  · trivial
  · refine Prog.Forall.bind ⟨forall_upsert (b := b) (.mk _ _ ()) hc, fun _ => trivial⟩ fun _ => ?_
    refine Prog.Forall.bind ⟨?_, fun out => by cases out <;> trivial⟩ fun out => ?_
    · rintro d ws _ ⟨⟩ w hw
      exact absurd hw List.not_mem_nil
    · cases out <;> trivial

lemma forall_delete (c : String) :
    (handleDeletePreference c : Prog Empty Empty.elim _ _).Forall (Prog.Writing Slug) := by
  unfold handleDeletePreference
  split_ifs
  · trivial
  · refine Prog.Forall.bind ⟨?_, fun out => by cases out <;> trivial⟩ fun n => ?_
    · rintro d ws _ ⟨⟩
      exact slug_dels
    · split_ifs <;> trivial

lemma forall_seed {entries : List Entry}
    (h : ∀ e ∈ entries, ∀ c, stem? e.name = some c → validCategory c = true) (n : ℕ) :
    (seedFrom n entries : Prog Empty Empty.elim _ _).Forall (Prog.Writing Slug) := by
  induction entries generalizing n with
  | nil => trivial
  | cons e es ih =>
    have hes (n : ℕ) := ih (fun e he => h e (List.mem_cons_of_mem _ he)) n
    unfold seedFrom
    split_ifs
    · exact hes n
    · rcases hstem : stem? e.name with _ | c
      · exact hes n
      · have hc : validCategory c = true := h e List.mem_cons_self c hstem
        exact Prog.Forall.bind
          ⟨forall_upsert (b := e.body) (.mk _ _ ()) hc, fun _ => trivial⟩ fun _ => hes (n + 1)

lemma shippedNames_slugs :
    ∀ name ∈ shippedNames, ∀ c, stem? name = some c → validCategory c = true := by
  decide

lemma forall_shipped (text : String → String) :
    (seedPreferences (shipped text) : Prog Empty Empty.elim _ _).Forall (Prog.Writing Slug) := by
  refine forall_seed (fun e he => ?_) 0
  obtain ⟨name, hname, rfl⟩ := List.mem_map.mp he
  exact shippedNames_slugs name hname

/-! ### The agent's tool -/

/-- None of the four statements of the call fails. -/
def Attempt.Commits (a : Attempt) : Prop := ∀ n < 4, a.fails n = none

instance (a : Attempt) : Decidable a.Commits := by unfold Attempt.Commits; infer_instance

/-- The call does not commit a category that is no slug. -/
def Attempt.Slugged (a : Attempt) : Prop :=
  ∀ i, a.call = .updatePreference (some i) → a.Commits → validCategory i.category = true

variable {d : Db}

/-- The call of the agent's tool, whatever its statements do. -/
lemma attempt_update (i : PreferenceInput) (fails : ℕ → Option DbError) :
    ((∀ n < 4, fails n = none) → ∀ r, r ∈ (attempt lost d ⟨.updatePreference (some i),
        fails⟩).principles.rows ↔ r = ⟨d.principles.next, i.category, i.bodyMd⟩ ∨
          r ∈ d.principles.rows ∧ r.category ≠ i.category) ∧
      (¬ (∀ n < 4, fails n = none) →
        SameRows d (attempt lost d ⟨.updatePreference (some i), fails⟩)) := by
  let body : Tx WkCtx.ToolError Unit := do
    Tx.query (deletePrinciples i.category) WkCtx.ToolError.db
    Tx.query (insertPrinciple i.category i.bodyMd) WkCtx.ToolError.db
  let fail : DbError → WkCtx.ToolError := lost (.updatePreference (some i))
  have hsent : body.sent d + 2 = 4 := rfl
  have hleft : attempt lost d ⟨.updatePreference (some i), fails⟩ =
      ((Prog.transaction body : Prog Empty Empty.elim _ _).runWith fails fail
        noAsk 0 (d, ())).2.1 := by
    show ((Prog.transaction body >>= fun _ => pure _).runWith fails fail
        noAsk 0 (d, ())).2.1 = _
    rw [Prog.runWith_bind]
    rcases (Prog.transaction body : Prog Empty Empty.elim _ _).runWith fails fail
      noAsk 0 (d, ()) with ⟨⟨e | a, m⟩, c⟩ <;> rfl
  constructor
  · intro hnone
    obtain ⟨m, hrun, -⟩ := Prog.runWith_transaction_none fail noAsk body (d, ())
      (hsent ▸ hnone)
    obtain ⟨a, d', hbody, hrows⟩ := run_upsert (c := i.category) (b := i.bodyMd)
      (.mk WkCtx.ToolError.db WkCtx.ToolError.db ()) d
    have hdb : (body.run d).2 = d' := congrArg Prod.snd hbody
    rw [hleft, hrun, hdb]
    exact hrows
  · intro hsome
    push Not at hsome
    obtain ⟨n, hn, hfail⟩ := hsome
    obtain ⟨e, m, ws, hrun⟩ := Prog.runWith_transaction_some fail noAsk body
      (d, ()) (hsent ▸ hn) hfail
    rw [hleft, hrun]
    exact sameRows_reserveAll d ws

/-- What a call of the API or of the seed leaves. -/
lemma allSlugs_of_forall (call : Call) (h : call.job.prog.Forall (Prog.Writing Slug))
    (fails : ℕ → Option DbError) (hd : AllSlugs d) : AllSlugs (attempt lost d ⟨call, fails⟩) :=
  Prog.runWith_keeps allSlugs_apply
    (fun d w => allSlugs_of_same (sameRows_reserveAll d [w])) h 0 (c := (d, ())) hd

/-- **One call** keeps the categories slugs unless it is one of the agent's that commits another. -/
theorem allSlugs_attempt (a : Attempt) (hd : AllSlugs d) :
    AllSlugs (attempt lost d a) ↔ a.Slugged := by
  obtain ⟨call, fails⟩ := a
  cases call with
  | updatePreference input =>
    cases input with
    | none => exact iff_of_true hd fun i hi => by cases hi
    | some i =>
      obtain ⟨hcommits, hlost⟩ := attempt_update lost (d := d) i fails
      by_cases hfails : ∀ n < 4, fails n = none
      · have hrows := hcommits hfails
        constructor
        · rintro hslugs _ ⟨⟩ -
          exact hslugs _ ((hrows _).mpr (Or.inl rfl))
        · intro hslug r hr
          rcases (hrows r).mp hr with rfl | ⟨hr, -⟩
          · exact hslug i rfl hfails
          · exact hd r hr
      · exact iff_of_true (allSlugs_of_same (hlost hfails) hd) fun _ _ h => absurd h hfails
  | put c body =>
    exact iff_of_true (allSlugs_of_forall lost (.put c body) (forall_put c body) fails hd) nofun
  | delete c =>
    exact iff_of_true (allSlugs_of_forall lost (.delete c) (forall_delete c) fails hd) nofun
  | seed text =>
    exact iff_of_true (allSlugs_of_forall lost (.seed text) (forall_shipped text) fails hd) nofun

lemma allSlugs_run (hd : AllSlugs d) (as : List Attempt) :
    Always (attempt lost) AllSlugs d as ↔ ∀ a ∈ as, a.Slugged := by
  rw [← eachAllowed_const]
  exact always_iff (I := fun _ => True) trivial hd (fun _ _ _ => trivial)
    fun _ a _ h => allSlugs_attempt lost a h

/-- Every stored preference is managed through the API. -/
def AllManageable (d : Db) : Prop := ∀ r ∈ d.principles.rows, Manageable d r.category

lemma allManageable_iff : AllManageable d ↔ AllSlugs d :=
  forall₂_congr fun _ hr => manageable_iff hr

/-- **Every preference can be edited and deleted through the API** in every state of a run, exactly
when the first categories are slugs and each category the agent's tool commits is one. -/
theorem allManageable_run (lost : (j : Job) → DbError → j.Err) (d : Db) (as : List Attempt) :
    Always (attempt lost) AllManageable d as ↔ AllSlugs d ∧ ∀ a ∈ as, a.Slugged := by
  have hsame : Always (attempt lost) AllManageable d as ↔ Always (attempt lost) AllSlugs d as :=
    forall₂_congr fun _ _ => allManageable_iff
  rw [hsame]
  constructor
  · intro h
    have hd : AllSlugs d := h [] (List.nil_prefix)
    exact ⟨hd, (allSlugs_run lost hd as).mp h⟩
  · rintro ⟨hd, h⟩
    exact (allSlugs_run lost hd as).mpr h

/-- The category is not in lower case. -/
def lesson : Attempt := ⟨.updatePreference (some ⟨"Family", "Noah doesn't like cilantro."⟩),
  fun _ => none⟩

/-- An error for each call. -/
def someError : (j : Job) → DbError → j.Err
  | .updatePreference _ => WkCtx.ToolError.db
  | .put _ _ => fun _ => internalError
  | .delete _ => fun _ => internalError
  | .seed _ => fun e => (0, .insert "" e)

theorem not_allManageable : ¬ ∀ (lost : (j : Job) → DbError → j.Err) (d : Db) (as : List Attempt),
    AllSlugs d → Always (attempt lost) AllManageable d as := by
  intro h
  have hslugs : AllSlugs (Dinners.threeDays .draft) := fun r hr => absurd hr List.not_mem_nil
  have hrun := (allSlugs_run someError hslugs [lesson]).mp fun before hbefore =>
    allManageable_iff.mp (h someError _ [lesson] hslugs before hbefore)
  have hslug := hrun lesson (List.mem_singleton_self _) ⟨"Family", "Noah doesn't like cilantro."⟩
    rfl fun _ _ => rfl
  exact absurd hslug (by decide)

end Veckomenyn.Slugs
