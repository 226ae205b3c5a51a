import Veckomenyn.Frames
import Veckomenyn.Race

/-!
A change of the menu while the plan is patched.

A menu tool reads the status of the plan on the pool and writes afterwards. Until it writes
nothing keeps a patch from committing another status. When no patch commits in between, the
plan is a draft at the moment of the write.
-/

namespace Veckomenyn.LateWrite

open Rows Schema Sql Store Weeks Txn WkCtx Tools Effects Frames Dinners PatchSpec PatchSteps Race

inductive Party where
  | tool
  | patch
deriving DecidableEq

instance : Fintype Party := ⟨{.tool, .patch}, fun
  | .tool => Finset.mem_insert_self _ _
  | .patch => Finset.mem_insert_of_mem (Finset.mem_singleton_self _)⟩

/-- A call of a tool that changes the menu. -/
inductive MenuCall where
  | addDinner (input : Option AddDinnerInput)
  | updateDinner (input : Option UpdateDinnerInput)
  | deleteDinner (input : Option ℤ)
  | addException (input : Option AddExceptionInput)
  | updateException (input : Option UpdateExceptionInput)
  | deleteException (input : Option ℤ)

abbrev ToolProg := Prog Empty Empty.elim ToolError String

def MenuCall.tool (pg : Pg) (quote : String → String) (ctx : Ctx) : MenuCall → ToolProg
  | addDinner i => addDinnerTool pg quote ctx i
  | updateDinner i => updateDinnerTool pg ctx i
  | deleteDinner i => deleteDinnerTool ctx i
  | addException i => addExceptionTool ctx i
  | updateException i => updateExceptionTool ctx i
  | deleteException i => deleteExceptionTool ctx i

abbrev Party.Error : Party → Type
  | tool => ToolError
  | patch => Resp

abbrev Party.Result : Party → Type
  | tool => String
  | patch => Resp

abbrev Server := Sys Db Write DbError Label Empty Empty.elim Party Party.Error Party.Result

/-- A tool call and a request to patch the plan `id` that reach the server together. -/
def together (pg : Pg) (quote : String → String) (ctx : Ctx) (c : MenuCall) (id : ℤ) (r : Request)
    (d : Db) : Server :=
  Sys.start d fun
    | .tool => c.tool pg quote ctx
    | .patch => handler pg id r

/-- The plan is a draft. -/
def Draft (k : ℤ) (d : Db) : Prop := ∃ w, d.weeks.find? k = some w ∧ w.status = .draft

/-- From the moment the tool reads the status of the plan until it returns, the patch does not
commit. -/
def undisturbed : Bool → Server → List Party → Bool
  | _, _, [] => true
  | checked, s, i :: is =>
    !(checked && !(s.cl .tool).done && decide (i = .patch) && (s.cl .patch).commits) &&
      match s.step i with
      | none => true
      | some s' => undisturbed
          (checked || decide (i = .tool) && decide ((s.cl .tool).next? = some .weekStatus)) s' is

/-- The rows the tool's step writes, and those it commits, are of no menu but that of a draft. -/
def Timely (s s' : Server) : Prop := ∀ k, ¬Draft k s.db → SameMenu k s.db s'.db ∧
  SameMenu k (s.view .tool) (applyAll (s.view .tool) (s'.drawn.drop s.drawn.length))

/-! ### Owners -/

section

variable {α β : Type} [Keyed α] {owner : α → β} {t t' t'' : Table α}

/-- Every row is new, or has the owner of the row it replaces. -/
structure KeepsOwners (owner : α → β) (t t' : Table α) : Prop where
  next : t.next ≤ t'.next
  rows : ∀ r ∈ t'.rows, KeepsOwner t owner r

/-- The row `id`, while it is there, has the owner `k`. -/
def OwnedBy (owner : α → β) (t : Table α) (id : ℤ) (k : β) : Prop :=
  id < t.next ∧ ∀ r ∈ t.rows, Keyed.key r = id → owner r = k

lemma KeepsOwners.of_rows (h : t'.rows = t.rows) (hn : t.next ≤ t'.next) :
    KeepsOwners owner t t' :=
  ⟨hn, fun r hr => Or.inr ⟨r, Table.find?_eq_some.mpr ⟨h ▸ hr, rfl⟩, rfl⟩⟩

lemma KeepsOwners.trans (h : KeepsOwners owner t t') (h' : KeepsOwners owner t' t'') :
    KeepsOwners owner t t'' := by
  refine ⟨h.next.trans h'.next, fun r hr => ?_⟩
  rcases h'.rows r hr with hn | ⟨r', hr', ho⟩
  · exact Or.inl (h.next.trans hn)
  · obtain ⟨hmem, hk⟩ := Table.find?_eq_some.mp hr'
    have := h.rows r' hmem
    rwa [KeepsOwner, hk, ho] at this

lemma KeepsOwners.apply {w : RowWrite α} (h : KeepsOwners owner t t')
    (hw : ∀ r, w = .put r → KeepsOwner t owner r) : KeepsOwners owner t (t'.apply w) := by
  refine ⟨h.next.trans (t'.next_le_apply w), fun r hr => ?_⟩
  cases w with
  | put x =>
    rcases Table.mem_put.mp hr with rfl | ⟨hr, -⟩
    · exact hw _ rfl
    · exact h.rows r hr
  | del k => exact h.rows r (Table.mem_del.mp hr).1

lemma OwnedBy.keeps {id : ℤ} {k : β} (h : OwnedBy owner t id k) (hk : KeepsOwners owner t t') :
    OwnedBy owner t' id k := by
  refine ⟨h.1.trans_le hk.next, fun r hr hid => ?_⟩
  rcases hk.rows r hr with hn | ⟨r', hr', ho⟩
  · have := h.1
    omega
  · obtain ⟨hmem, hkey⟩ := Table.find?_eq_some.mp hr'
    exact ho.symm.trans (h.2 r' hmem (hkey.trans hid))

lemma ownedBy_of_find {id : ℤ} {r : α} (h : t.find? id = some r) :
    OwnedBy owner t id (owner r) := by
  refine ⟨(Table.has_of_find? h).lt_next, fun x hx hid => ?_⟩
  obtain ⟨hr, hkey⟩ := Table.find?_eq_some.mp h
  rw [t.key_inj hx hr (hid.trans hkey.symm)]

end

/-- Dinners and exceptions stay with their plans. -/
structure Keeps (d d' : Db) : Prop where
  dinners : KeepsOwners Dinner.weekId d.dinners d'.dinners
  exceptions : KeepsOwners WeekException.weekId d.exceptions d'.exceptions

/-- The row is new, or stays with its plan. -/
def Owning (d : Db) : Write → Prop
  | .dinner (.put r) => KeepsOwner d.dinners Dinner.weekId r
  | .exception (.put r) => KeepsOwner d.exceptions WeekException.weekId r
  | _ => True

variable {d d' d'' : Db}

lemma Keeps.trans (h : Keeps d d') (h' : Keeps d' d'') : Keeps d d'' :=
  ⟨h.dinners.trans h'.dinners, h.exceptions.trans h'.exceptions⟩

lemma Keeps.refl (d : Db) : Keeps d d :=
  ⟨KeepsOwners.of_rows rfl le_rfl, KeepsOwners.of_rows rfl le_rfl⟩

lemma Keeps.apply {w : Write} (h : Keeps d d') (hw : Owning d w) :
    Keeps d (Database.apply d' w) := by
  cases w with
  | dinner w => exact ⟨h.dinners.apply (by rintro r rfl; exact hw), h.exceptions⟩
  | exception w => exact ⟨h.dinners, h.exceptions.apply (by rintro r rfl; exact hw)⟩
  | _ => exact ⟨h.dinners, h.exceptions⟩

lemma keeps_stmt {ws : List Write} (h : ∀ w ∈ ws, Owning d w) : Keeps d (applyAll d ws) :=
  applyAll_induction (Keeps.refl d) fun w hw _ hd => hd.apply (h w hw)

lemma keeps_reserveAll (d : Db) (ws : List Write) : Keeps d (reserveAll d ws) := by
  induction ws generalizing d with
  | nil => exact Keeps.refl d
  | cons w ws ih =>
    refine Keeps.trans ?_ (ih _)
    have hrows := sameRows_reserveAll d [w]
    refine ⟨KeepsOwners.of_rows hrows.dinners ?_, KeepsOwners.of_rows hrows.exceptions ?_⟩ <;>
      cases w <;> first | exact le_rfl | exact Table.next_le_reserveFor _ _

/-- Reserved identities aside, the rows a client sees are those it will have written. -/
lemma Keeps.unreserve {ws us : List Write} (h : Keeps d (reserveAll (applyAll d ws) us)) :
    Keeps d (applyAll d ws) := by
  have hrows := sameRows_reserveAll (applyAll d ws) us
  have hnext : d.dinners.next ≤ (applyAll d ws).dinners.next ∧
      d.exceptions.next ≤ (applyAll d ws).exceptions.next := by
    refine applyAll_induction (I := fun (v : Db) => d.dinners.next ≤ v.dinners.next ∧
      d.exceptions.next ≤ v.exceptions.next) ⟨le_rfl, le_rfl⟩ fun w _ v hv => ?_
    cases w with
    | dinner w => exact ⟨hv.1.trans (Table.next_le_apply _ w), hv.2⟩
    | exception w => exact ⟨hv.1, hv.2.trans (Table.next_le_apply _ w)⟩
    | _ => exact hv
  exact ⟨⟨hnext.1, fun r hr => h.dinners.rows r (hrows.dinners ▸ hr)⟩,
    ⟨hnext.2, fun r hr => h.exceptions.rows r (hrows.exceptions ▸ hr)⟩⟩

/-! ### Within the menus of drafts -/

lemma Draft.congr {k : ℤ} (h : d'.weeks.find? k = d.weeks.find? k) : Draft k d' ↔ Draft k d := by
  rw [Draft, h, Draft]

/-- A statement's write, of the menu of a draft and not of a plan itself. -/
def OfDraft (d : Db) (w : Write) : Prop :=
  Allowed background none d w ∧ ∀ r, w ≠ .week r

/-- One database comes from the other by changes to the menus of drafts. -/
structure Within (d d' : Db) : Prop where
  keeps : Keeps d d'
  weeks : ∀ k, d'.weeks.find? k = d.weeks.find? k
  menu : ∀ k, ¬Draft k d → SameMenu k d d'

lemma Within.draft (h : Within d d') (k : ℤ) : Draft k d' ↔ Draft k d := Draft.congr (h.weeks k)

lemma Within.trans (h : Within d d') (h' : Within d' d'') : Within d d'' :=
  ⟨h.keeps.trans h'.keeps, fun k => (h'.weeks k).trans (h.weeks k),
    fun k hk => (h.menu k hk).trans (h'.menu k (mt (h.draft k).mp hk))⟩

lemma within_reserveAll (d : Db) (ws : List Write) : Within d (reserveAll d ws) :=
  ⟨keeps_reserveAll d ws, fun k => (sameRows_reserveAll d ws).findWeek k,
    fun _ _ => SameMenu.of_sameRows (sameRows_reserveAll d ws)⟩

lemma Within.unreserve {ws us : List Write} (h : Within d (reserveAll (applyAll d ws) us)) :
    Within d (applyAll d ws) := by
  have hrows := (sameRows_reserveAll (applyAll d ws) us).symm
  exact ⟨h.keeps.unreserve, fun k => (hrows.findWeek k).trans (h.weeks k),
    fun k hk => (h.menu k hk).trans (SameMenu.of_sameRows hrows)⟩

lemma OfDraft.owning {w : Write} (h : OfDraft d w) : Owning d w := by
  obtain ⟨h, -⟩ := h
  rcases w with (w | k) | (r | k) | (r | k) | (r | k) | (r | k) | (r | k) | (r | k) | w | w <;>
    first | trivial | exact h.2

lemma within_stmt {ws : List Write} (h : ∀ w ∈ ws, OfDraft d w) : Within d (applyAll d ws) := by
  refine ⟨keeps_stmt fun w hw => (h w hw).owning, fun k => ?_, fun k hk => ?_⟩
  · refine applyAll_induction (I := fun (v : Db) => v.weeks.find? k = d.weeks.find? k) rfl
      fun w hw v hv => ?_
    cases w with
    | week r => exact absurd rfl ((h _ hw).2 r)
    | _ => exact hv
  · exact sameMenu_stmt (fun hm => hk hm.2) fun w hw => (h w hw).1

/-! ### The tools: a guard, then the write -/

/-- What a tool has learned before it reads the status of the plan. -/
inductive Known where
  | nothing
  | dinner (id plan : ℤ)
  | exception (id plan : ℤ)

def Known.Holds : Known → Db → Prop
  | nothing, _ => True
  | dinner id k, d => OwnedBy Dinner.weekId d.dinners id k
  | exception id k, d => OwnedBy WeekException.weekId d.exceptions id k

/-- A statement that writes to the menu of the draft `p` alone, given what is known. -/
def Edits (o : Known) (p : ℤ) (β : Type) (t : Stmt β) : Prop :=
  ∀ d ws b, o.Holds d → Draft p d → t.run d = .ok (ws, b) → ∀ w ∈ ws, OfDraft d w

/-- The program reads, then reads the status of a plan, and only for a draft goes on to write. -/
inductive Guarded : Known → ToolProg → Prop
  | ret (o : Known) (r : Except ToolError String) : Guarded o (.ret r)
  | read {β : Type} (o : Known) (l : Label) (f : Db → β) (k : Except DbError β → ToolProg)
      (o' : β → Known) (ho : ∀ d d', SameRows d d' → o.Holds d → (o' (f d')).Holds d)
      (hk : ∀ b, Guarded (o' b) (k (.ok b))) : Guarded o (.auto (select l f) k)
  | status (o : Known) (p : ℤ) (k : Except DbError (Option String) → ToolProg)
      (hdraft : (k (.ok (some "draft"))).Forall (Edits o p))
      (hother : ∀ b, b ≠ some "draft" → ∃ r, k (.ok b) = .ret r) :
      Guarded o (.auto (weekStatus p) k)

variable {o : Known} {p : ℤ}

lemma Known.Holds.keeps (h : o.Holds d) (hk : Keeps d d') : o.Holds d' := by
  cases o with
  | nothing => trivial
  | dinner id k => exact OwnedBy.keeps h hk.dinners
  | exception id k => exact OwnedBy.keeps h hk.exceptions

lemma guarded_queryRow {β : Type} {l : Label} {f : Db → Option β} {g : β → ToolProg}
    (o' : β → Known)
    (ho : ∀ d d' b, SameRows d d' → o.Holds d → f d' = some b → (o' b).Holds d)
    (hg : ∀ b, Guarded (o' b) (g b)) : Guarded o (queryRow (select l f) >>= g) := by
  refine .read o l f _ (fun b => b.elim .nothing o') (fun d d' hrows hd => ?_) fun b => ?_
  · rcases hb : f d' with _ | b
    · trivial
    · exact ho d d' b hrows hd hb
  · cases b with
    | none => exact .ret _ _
    | some b => exact hg b

lemma guarded_ensureEditable {g : Unit → ToolProg} (hg : (g ()).Forall (Edits o p)) :
    Guarded o (ensureEditable p >>= g) := by
  refine .status o p _ hg fun b hb => ?_
  cases b with
  | none => exact ⟨_, rfl⟩
  | some t =>
    have ht : t ≠ "draft" := fun h => hb (congrArg some h)
    refine ⟨.error (locked p t), ?_⟩
    show Prog.bind (if t ≠ "draft" then Prog.fail (locked p t) else pure ()) g = _
    rw [if_pos ht]
    rfl

lemma guarded_ensureDinnerEditable {ctx : Ctx} {id : ℤ} {g : Unit → ToolProg}
    (hg : ∀ p, (g ()).Forall (Edits (.dinner id p) p)) :
    Guarded o (ensureDinnerEditable ctx id >>= g) := by
  have hsecond (o : Known) : Guarded o ((queryRow (dinnerWeek id) >>= ensureEditable) >>= g) := by
    rw [Prog.bind_assoc]
    refine guarded_queryRow (fun p => .dinner id p) (fun d d' p hrows _ hp => ?_) fun p =>
      guarded_ensureEditable (hg p)
    obtain ⟨r, hr, rfl⟩ := Option.map_eq_some_iff.mp hp
    rw [Table.find?, hrows.dinners] at hr
    exact ownedBy_of_find hr
  rw [ensureDinnerEditable, Prog.bind_assoc, checkDinnerInScope]
  split_ifs with hc
  · exact hsecond o
  · rw [Prog.bind_assoc]
    refine guarded_queryRow (fun _ => .nothing) (fun _ _ _ _ _ _ => trivial) fun k => ?_
    split_ifs
    · exact .ret _ _
    · exact hsecond .nothing

lemma guarded_ensureExceptionEditable {ctx : Ctx} {id : ℤ} {g : Unit → ToolProg}
    (hg : ∀ p, (g ()).Forall (Edits (.exception id p) p)) :
    Guarded o (ensureExceptionEditable ctx id >>= g) := by
  rw [ensureExceptionEditable, Prog.bind_assoc]
  refine guarded_queryRow (fun p => .exception id p) (fun d d' p hrows _ hp => ?_) fun p => ?_
  · obtain ⟨r, hr, rfl⟩ := Option.map_eq_some_iff.mp hp
    rw [Table.find?, hrows.exceptions] at hr
    exact ownedBy_of_find hr
  · split_ifs
    · exact .ret _ _
    · exact guarded_ensureEditable (hg p)

lemma guarded_unmarshal {α : Type} {input : Option α} {g : α → ToolProg}
    (hg : ∀ i, Guarded o (g i)) : Guarded o (unmarshal input >>= g) := by
  cases input with
  | none => exact .ret _ _
  | some i => exact hg i

lemma guarded_orFail {α : Type} {r : Except ToolError α} {g : α → ToolProg}
    (hg : ∀ a, Guarded o (g a)) : Guarded o (orFail r >>= g) := by
  cases r with
  | error e => exact .ret _ _
  | ok a => exact hg a

lemma forall_query {α : Type} {C : ∀ β : Type, Stmt β → Prop} {t : Stmt α} (h : C α t) :
    (Prog.query t ToolError.db : Prog Empty Empty.elim ToolError α).Forall C := by
  refine ⟨h, fun r => ?_⟩
  cases r <;> trivial

lemma forall_transaction {α : Type} {C : ∀ β : Type, Stmt β → Prop} {body : Tx ToolError α}
    (h : body.Forall C fun _ => True) :
    (Prog.transaction body : Prog Empty Empty.elim ToolError α).Forall C := ⟨h, fun _ => trivial⟩

/-! ### The statements of the tools -/

lemma mayEdit_of_draft (h : Draft p d) : MayEdit background d p :=
  ⟨fun hc => absurd hc (lt_irrefl _), h⟩

lemma edits_select {β : Type} (l : Label) (f : Db → β) : Edits o p β (select l f) := by
  rintro d ws b - - h
  cases h
  simp

section

variable {pg : Pg}

lemma edits_insertDish {name cuisine recipeMd : String} {servings : ℤ} {tags day : String} :
    Edits o p ℤ (insertDish pg name cuisine recipeMd servings tags day) := by
  rintro d ws b - - h w hw
  obtain ⟨dish, rfl, hid⟩ := insertDish_writes h
  cases List.mem_singleton.mp hw
  exact ⟨hid.ge, by simp⟩

lemma edits_insertDinner {day : String} {dishId servings : ℤ} {sourcing notes : String} :
    Edits o p ℤ (insertDinner pg p day dishId servings sourcing notes) := by
  rintro d ws b - hd h w hw
  obtain ⟨r, rfl, hid, hk⟩ := insertDinner_writes h
  cases List.mem_singleton.mp hw
  exact ⟨⟨hk ▸ mayEdit_of_draft hd, Or.inl hid.ge⟩, by simp⟩

lemma edits_repointDinner {id dishId servings : ℤ} {sourcing notes : String} :
    Edits (.dinner id p) p Unit (repointDinner pg id dishId servings sourcing notes) := by
  rintro d ws b ho hd h w hw
  rcases repointDinner_writes h with rfl | ⟨r, r', hr, rfl, hid, hk⟩
  · cases hw
  · cases List.mem_singleton.mp hw
    obtain ⟨hmem, hkey⟩ := Table.find?_eq_some.mp hr
    have hp : r'.weekId = p := hk.trans (ho.2 r hmem hkey)
    exact ⟨⟨hp ▸ mayEdit_of_draft hd, KeepsOwner.of_find hr (hid.trans hkey) hk.symm⟩, by simp⟩

lemma edits_deleteDinner {id : ℤ} : Edits (.dinner id p) p ℕ (deleteDinner id) := by
  rintro d ws b ho hd h w hw
  rcases hr : d.dinners.find? id with _ | r
  · simp only [deleteDinner, hr, Except.ok.injEq, Prod.mk.injEq] at h
    rw [← h.1] at hw
    cases hw
  · obtain ⟨hmem, hkey⟩ := Table.find?_eq_some.mp hr
    have hp : r.weekId = p := ho.2 r hmem hkey
    refine ⟨deleteDinner_allowed hr (hp ▸ mayEdit_of_draft hd) h w hw, ?_⟩
    simp only [deleteDinner, hr, Except.ok.injEq, Prod.mk.injEq] at h
    rw [← h.1, deleteDinners] at hw
    rcases List.mem_append.mp hw with hw | hw <;> obtain ⟨_, -, rfl⟩ := List.mem_map.mp hw <;>
      simp

end

lemma edits_insertException {kind description : String} :
    Edits o p ℤ (insertException p kind description) := by
  rintro d ws b - hd h w hw
  obtain ⟨_, -, h⟩ := exists_of_bind h
  cases h
  cases List.mem_singleton.mp hw
  exact ⟨⟨mayEdit_of_draft hd, Or.inl le_rfl⟩, by simp⟩

lemma edits_updateException {id : ℤ} {kind description : Option String} :
    Edits (.exception id p) p Unit (updateException id kind description) := by
  rintro d ws b ho hd h w hw
  rcases hr : d.exceptions.find? id with _ | r <;>
    simp only [updateException, hr, Except.ok.injEq, Prod.mk.injEq] at h <;> rw [← h.1] at hw
  · cases hw
  · cases List.mem_singleton.mp hw
    obtain ⟨hmem, hkey⟩ := Table.find?_eq_some.mp hr
    have hp : r.weekId = p := ho.2 r hmem hkey
    exact ⟨⟨hp ▸ mayEdit_of_draft hd, KeepsOwner.of_find hr hkey rfl⟩, by simp⟩

lemma edits_deleteException {id : ℤ} :
    Edits (.exception id p) p Unit (deleteException id) := by
  rintro d ws b ho hd h w hw
  rcases hr : d.exceptions.find? id with _ | r <;>
    simp only [deleteException, hr, Except.ok.injEq, Prod.mk.injEq] at h <;> rw [← h.1] at hw
  · cases hw
  · cases List.mem_singleton.mp hw
    obtain ⟨hmem, hkey⟩ := Table.find?_eq_some.mp hr
    have hp : r.weekId = p := ho.2 r hmem hkey
    exact ⟨⟨r, hr, hp ▸ mayEdit_of_draft hd⟩, by simp⟩

/-- **Each of the six tools** guards its writes. -/
theorem guarded_tool (pg : Pg) (quote : String → String) (ctx : Ctx) (c : MenuCall) :
    Guarded .nothing (c.tool pg quote ctx) := by
  cases c with
  | addDinner input =>
    refine guarded_unmarshal fun i => guarded_orFail fun p => guarded_ensureEditable ?_
    refine Prog.Forall.bind (forall_transaction ?_) fun _ => trivial
    refine Tx.Forall.bind (R := fun _ => True) ⟨edits_insertDish, fun _ => trivial⟩ fun _ _ => ?_
    exact Tx.Forall.bind (R := fun _ => True) ⟨edits_insertDinner, fun _ => trivial⟩
      fun _ _ => trivial
  | updateDinner input =>
    refine guarded_unmarshal fun i => guarded_ensureDinnerEditable fun p => ?_
    refine Prog.Forall.bind (forall_transaction ?_) fun _ => trivial
    refine Tx.Forall.bind (R := fun _ => True) ⟨edits_select _ _, fun _ => trivial⟩ fun day _ => ?_
    cases day with
    | none => trivial
    | some day =>
      refine Tx.Forall.bind (R := fun _ => True) ⟨edits_insertDish, fun _ => trivial⟩ fun _ _ => ?_
      exact Tx.Forall.bind (R := fun _ => True) ⟨edits_repointDinner, fun _ => trivial⟩
        fun _ _ => trivial
  | deleteDinner input =>
    refine guarded_unmarshal fun id => guarded_ensureDinnerEditable fun p => ?_
    refine Prog.Forall.bind (forall_query edits_deleteDinner) fun n => ?_
    split_ifs <;> trivial
  | addException input =>
    refine guarded_unmarshal fun i => guarded_orFail fun p => guarded_ensureEditable ?_
    exact Prog.Forall.bind (forall_query edits_insertException) fun _ => trivial
  | updateException input =>
    refine guarded_unmarshal fun i => ?_
    split_ifs
    · exact .ret _ _
    · refine guarded_ensureExceptionEditable fun p => ?_
      exact Prog.Forall.bind (forall_query edits_updateException) fun _ => trivial
  | deleteException input =>
    refine guarded_unmarshal fun id => guarded_ensureExceptionEditable fun p => ?_
    exact Prog.Forall.bind (forall_query edits_deleteException) fun _ => trivial

/-! ### One step of the tool -/

variable {s s' : Server}

lemma set_cl (s : Server) (i : Party)
    (c : Client Db Write DbError Label Empty Empty.elim i.Error i.Result) : (s.set i c).cl i = c :=
  Sys.set_cl_self c

lemma view_idle {x : ToolProg} (hc : s.cl .tool = .idle x) :
    s.view .tool = reserveAll s.db s.drawn := by
  rw [Sys.view, hc]
  rfl

/-- What a statement's client sees once the statement has written `ws`. -/
lemma reserveAll_drawn (d : Db) (us ws : List Write) :
    reserveAll (applyAll d ws) (us ++ ws) = applyAll (reserveAll d us) ws := by
  rw [reserveAll_append, ← applyAll_reserveAll, reserveAll_applyAll]

lemma guarding_step {x : ToolProg} (hc : s.cl .tool = .idle x) (hx : Guarded o x)
    (ho : o.Holds s.db) (hs : s.step .tool = some s') :
    s'.db = s.db ∧ s'.drawn = s.drawn ∧
      ((∃ o' x', s'.cl .tool = .idle x' ∧ Guarded o' x' ∧ o'.Holds s.db) ∨
        (s.cl .tool).next? = some .weekStatus ∧
          ∃ p y, Draft p s.db ∧ s'.cl .tool = .idle y ∧ y.Forall (Edits o p)) := by
  have hrows : SameRows s.db (s.view .tool) := view_idle hc ▸ sameRows_reserveAll _ _
  cases hx with
  | ret _ r =>
    rw [Sys.step_ret hc] at hs
    cases hs
  | read _ l f k o' hf hk =>
    rcases Sys.step_auto hc hs with ⟨e, he, -⟩ | ⟨ws, b, hb, -, rfl⟩
    · cases he
    · rw [select_run, Except.ok.injEq, Prod.mk.injEq] at hb
      obtain ⟨rfl, rfl⟩ := hb
      refine ⟨rfl, List.append_nil _, Or.inl ⟨o' (f (s.view .tool)), k (.ok (f (s.view .tool))), ?_,
        hk _, hf _ _ hrows ho⟩⟩
      exact set_cl s .tool _
  | status _ p k hdraft hother =>
    rcases Sys.step_auto hc hs with ⟨e, he, -⟩ | ⟨ws, b, hb, -, rfl⟩
    · cases he
    · rw [weekStatus, select_run, Except.ok.injEq, Prod.mk.injEq] at hb
      obtain ⟨rfl, rfl⟩ := hb
      refine ⟨rfl, List.append_nil _, ?_⟩
      by_cases hd : ((s.view .tool).weeks.find? p).map (fun w => w.status.text) = some "draft"
      · obtain ⟨w, hw, hst⟩ := Option.map_eq_some_iff.mp hd
        rw [hrows.findWeek] at hw
        refine Or.inr ⟨by rw [hc]; rfl, p, k (.ok (some "draft")),
          ⟨w, hw, Status.text_eq_draft.mp hst⟩, ?_, hdraft⟩
        rw [← hd]
        exact set_cl s .tool _
      · obtain ⟨r, hr⟩ := hother _ hd
        refine Or.inl ⟨o, .ret r, ?_, .ret _ _, ho⟩
        rw [← hr]
        exact set_cl s .tool _

lemma Within.refl (d : Db) : Within d d := within_reserveAll d []

/-- Past its guard the tool writes to the menu of a draft only, and what it commits is that. -/
lemma editing_step (hc : (s.cl .tool).Forall (Edits o p)) (ho : o.Holds s.db) (hd : Draft p s.db)
    (hw : Within s.db (s.view .tool)) (hs : s.step .tool = some s') :
    ((s'.cl .tool).Forall (Edits o p) ∧ Within s'.db (s'.view .tool)) ∧ Within s.db s'.db ∧
      Within (s.view .tool) (applyAll (s.view .tool) (s'.drawn.drop s.drawn.length)) := by
  have unchanged : Within (s.view .tool)
      (applyAll (s.view .tool) (s.drawn.drop s.drawn.length)) := by
    rw [List.drop_length, applyAll_nil]
    exact Within.refl _
  -- the tool sees the database as it is when it has nothing pending
  have fresh {x : ToolProg} {v : Server} (hv : v.cl .tool = .idle x) :
      Within v.db (v.view .tool) := view_idle hv ▸ within_reserveAll _ _
  have written {β : Type} {t : Stmt β} {ws : List Write} {b : β} (ht : Edits o p β t)
      (hr : t.run (s.view .tool) = .ok (ws, b)) :
      Within (s.view .tool) (applyAll (s.view .tool) ws) :=
    within_stmt (ht _ ws b (ho.keeps hw.keeps) ((hw.draft p).mpr hd) hr)
  rcases hcl : s.cl .tool with
    ((r | ⟨t, k⟩ | ⟨body, k⟩ | ⟨q, k⟩) | ⟨pend, (e | a) | ⟨t, fail, body⟩, k⟩)
  all_goals rw [hcl] at hc
  · rw [Sys.step_ret hcl] at hs
    cases hs
  · rcases Sys.step_auto hcl hs with ⟨e, -, rfl⟩ | ⟨ws, b, ht, -, rfl⟩
    · exact ⟨⟨by rw [Sys.set_cl_self]; exact hc.2 _, fresh (set_cl s .tool _)⟩, Within.refl _,
        unchanged⟩
    · have hstmt := written hc.1 ht
      refine ⟨⟨?_, fresh (set_cl s .tool _)⟩, ?_, by simpa using hstmt⟩
      · show ((s.set .tool _).cl .tool).Forall _
        rw [Sys.set_cl_self]
        exact hc.2 _
      · have := hw.trans hstmt
        rw [view_idle hcl, applyAll_reserveAll] at this
        exact this.unreserve
  · rw [Sys.step_begin hcl, Option.some.injEq] at hs
    subst hs
    refine ⟨⟨by rw [Sys.set_cl_self]; exact hc, ?_⟩, Within.refl _, unchanged⟩
    rw [Sys.view, Sys.set_cl_self]
    exact within_reserveAll _ _
  · exact isEmptyElim q
  · rw [Sys.step_rollback hcl, Option.some.injEq] at hs
    subst hs
    exact ⟨⟨by rw [Sys.set_cl_self]; exact hc.2 _, fresh (set_cl s .tool _)⟩, Within.refl _,
      unchanged⟩
  · rw [Sys.step_commit hcl, Option.some.injEq] at hs
    subst hs
    refine ⟨⟨?_, fresh (set_cl s .tool _)⟩, ?_, unchanged⟩
    · show ((s.set .tool _).cl .tool).Forall _
      rw [Sys.set_cl_self]
      exact hc.2 _
    · rw [Sys.view, hcl, Client.pend_inTx] at hw
      exact hw.unreserve
  · rcases Sys.step_stmt hcl hs with ⟨e, -, rfl⟩ | ⟨ws, b, ht, -, rfl⟩
    · refine ⟨⟨by rw [Sys.set_cl_self]; exact ⟨trivial, hc.2⟩, ?_⟩, Within.refl _, unchanged⟩
      rw [Sys.view, Sys.set_cl_self]
      rwa [Sys.view, hcl] at hw
    · have hstmt := written hc.1.1 ht
      refine ⟨⟨?_, ?_⟩, Within.refl _, by simpa using hstmt⟩
      · show ((s.set .tool _).cl .tool).Forall _
        rw [Sys.set_cl_self]
        exact ⟨hc.1.2 b, hc.2⟩
      · have := hw.trans hstmt
        rw [Sys.view, hcl, Client.pend_inTx, ← reserveAll_drawn, ← applyAll_append] at this
        show Within s.db (reserveAll (applyAll s.db ((s.set .tool _).cl .tool).pend) _)
        rw [Sys.set_cl_self]
        exact this

/-! ### One step of the patch -/

def OwningStmt (β : Type) (t : Stmt β) : Prop :=
  ∀ d ws b, t.run d = .ok (ws, b) → ∀ w ∈ ws, Owning d w

lemma owning_select {β : Type} (l : Label) (f : Db → β) : OwningStmt β (select l f) := by
  rintro d ws b h
  cases h
  simp

lemma owning_dinners {l : List Dinner} (h : ∀ r ∈ l, KeepsOwner d.dinners Dinner.weekId r) :
    ∀ w ∈ (l.map .put).map Write.dinner, Owning d w := by
  intro w hw
  obtain ⟨x, hx, rfl⟩ := List.mem_map.mp hw
  obtain ⟨r, hr, rfl⟩ := List.mem_map.mp hx
  exact h r hr

lemma owning_shiftDinners (pg : Pg) (t : String) (id : ℤ) :
    OwningStmt Unit (shiftDinners pg t id) := by
  intro d ws b h
  obtain ⟨start, -, h⟩ := exists_of_bind h
  cases h
  refine owning_dinners fun r hr => ?_
  obtain ⟨x, hx, rfl⟩ := List.mem_map.mp hr
  have hmem : x.1 ∈ d.dinners.rows := (mem_dinnersOf.mp (mem_of_mem_ranked _ hx)).1
  exact KeepsOwner.of_find (Table.find?_eq_some.mpr ⟨hmem, rfl⟩) rfl rfl

lemma owning_truncateDinners (pg : Pg) (id : ℤ) (e : String) :
    OwningStmt Unit (truncateDinners pg id e) := by
  intro d ws b h w hw
  obtain ⟨_, -, h⟩ := exists_of_bind h
  cases h
  rcases List.mem_append.mp hw with hw | hw <;> obtain ⟨_, hr, rfl⟩ := List.mem_map.mp hw <;>
    obtain ⟨_, -, rfl⟩ := List.mem_map.mp hr <;> trivial

lemma owning_addEmptySlots (pg : Pg) (id : ℤ) (e e' : String) :
    OwningStmt Unit (addEmptySlots pg id e e') := by
  intro d ws b h
  obtain ⟨first, -, h⟩ := exists_of_bind h
  obtain ⟨last, -, h⟩ := exists_of_bind h
  simp only at h
  split_ifs at h
  · cases h
    simp
  · obtain ⟨_, -, h⟩ := exists_of_bind h
    cases h
    exact owning_dinners fun r hr => Or.inl (Table.key_numbered emptySlots_id r hr)

lemma owning_patchTx (pg : Pg) (now id : ℤ) (q : WeekPatch) :
    (patchTx pg now id q).Forall OwningStmt fun _ => True := by
  have pure_ends (pg : Pg) (e t u : String) : OwningStmt String (computeEnd pg e t u) := by
    intro d ws b h
    obtain ⟨_, -, h⟩ := exists_of_bind h
    obtain ⟨_, -, h⟩ := exists_of_bind h
    obtain ⟨_, -, h⟩ := exists_of_bind h
    cases h
    simp
  have pure_iso (pg : Pg) (t : String) : OwningStmt String (computeIsoWeek pg t) := by
    intro d ws b h
    obtain ⟨_, -, h⟩ := exists_of_bind h
    cases h
    simp
  rw [patchTx_eq]
  refine ⟨owning_select _ _, fun o => ?_⟩
  rcases o with _ | ⟨cs, ce⟩
  · trivial
  · refine (prepare_forall (fun t => owning_shiftDinners pg t id) (pure_ends pg) (pure_iso pg)
      (owning_truncateDinners pg id) (owning_addEmptySlots pg id) q cs ce).bind fun u _ => ?_
    rw [saveWeek, updateWeek]
    split_ifs with hu
    · trivial
    · refine ⟨fun d ws n h w hw => ?_, fun n => ?_⟩
      · rcases updateWeekStmt_ok h with ⟨-, rfl, -⟩ | ⟨_, _, _, -, -, -, rfl, -⟩
        · cases hw
        · cases List.mem_singleton.mp hw
          trivial
      · show Tx.Forall _ _ (if n = 0 then Tx.fail notFound else pure ())
        split_ifs <;> trivial

/-- Where the patch stands: before its transaction, inside it, or after it. -/
inductive Patching (c : Place) : Prop
  | begins {γ δ : Type} {body : Tx γ δ} {k : Except γ δ → Prog Empty Empty.elim Resp Resp}
      (hc : c = .idle (.tx body k)) (hb : body.Forall OwningStmt fun _ => True)
      (hk : ∀ r, (k r).Quiet)
  | sends {γ δ : Type} {pend : List Write} {body : Tx γ δ}
      {k : Except γ δ → Prog Empty Empty.elim Resp Resp} (hc : c = .inTx pend body k)
      (hb : body.Forall OwningStmt fun _ => True) (hk : ∀ r, (k r).Quiet)
  | rests {y : Prog Empty Empty.elim Resp Resp} (hc : c = .idle y) (hy : y.Quiet)

lemma patching_start (pg : Pg) (id : ℤ) (r : Request) :
    Patching (.idle (handler pg id r)) := by
  rcases handler_cases pg id r with ⟨e, h⟩ | ⟨-, q, -, -, h⟩ <;> rw [h]
  · exact .rests rfl trivial
  · refine .begins rfl (owning_patchTx pg r.now id q) fun res => ?_
    cases res with
    | error e => trivial
    | ok u => exact quiet_reload pg id

/-- The patch changes the database when it commits, and leaves rows with their plans. -/
lemma patch_step (h : Patching (s.cl .patch)) (hs : s.step .patch = some s') :
    Patching (s'.cl .patch) ∧
      (Keeps s.db (s.view .patch) → Keeps s.db s'.db ∧ Keeps s'.db (s'.view .patch)) ∧
      ((s.cl .patch).commits = false → s'.db = s.db ∧ ∃ ws, s'.drawn = s.drawn ++ ws) := by
  have fresh {v : Server} (hv : (v.cl .patch).pend = []) : Keeps v.db (v.view .patch) := by
    rw [Sys.view, hv]
    exact keeps_reserveAll _ _
  rcases h with ⟨hc, hb, hk⟩ | ⟨hc, hb, hk⟩ | ⟨hc, hy⟩
  · rw [Sys.step_begin hc, Option.some.injEq] at hs
    subst hs
    exact ⟨.sends (set_cl s .patch _) hb hk,
      fun _ => ⟨Keeps.refl _, fresh (by rw [Sys.set_cl_self]; rfl)⟩,
      fun _ => ⟨rfl, [], (List.append_nil _).symm⟩⟩
  · rename_i pend body k
    rcases body with (e | a) | ⟨t, fail, body⟩
    · rw [Sys.step_rollback hc, Option.some.injEq] at hs
      subst hs
      exact ⟨.rests (set_cl s .patch _) (hk _),
        fun _ => ⟨Keeps.refl _, fresh (by rw [Sys.set_cl_self]; rfl)⟩,
        fun _ => ⟨rfl, [], (List.append_nil _).symm⟩⟩
    · rw [Sys.step_commit hc, Option.some.injEq] at hs
      subst hs
      refine ⟨.rests (set_cl s .patch _) (hk _),
        fun hkeep => ⟨?_, fresh ?_⟩, fun hcom => ?_⟩
      · rw [Sys.view, hc, Client.pend_inTx] at hkeep
        exact hkeep.unreserve
      · show ((s.set .patch _).cl .patch).pend = []
        rw [Sys.set_cl_self]
        rfl
      · rw [hc] at hcom
        cases hcom
    · rcases Sys.step_stmt hc hs with ⟨e, -, rfl⟩ | ⟨ws, b, ht, -, rfl⟩
      · refine ⟨.sends (set_cl s .patch _) trivial hk, fun hkeep => ⟨Keeps.refl _, ?_⟩,
          fun _ => ⟨rfl, [], (List.append_nil _).symm⟩⟩
        rw [Sys.view, Sys.set_cl_self]
        rwa [Sys.view, hc] at hkeep
      · refine ⟨.sends (set_cl s .patch _) (hb.2 b) hk,
          fun hkeep => ⟨Keeps.refl _, ?_⟩,
          fun _ => ⟨rfl, ws, rfl⟩⟩
        have := hkeep.trans (keeps_stmt (hb.1 _ _ _ ht))
        rw [Sys.view, hc, Client.pend_inTx, ← reserveAll_drawn, ← applyAll_append] at this
        show Keeps s.db (reserveAll (applyAll s.db ((s.set .patch _).cl .patch).pend) _)
        rw [Sys.set_cl_self]
        exact this
  · obtain ⟨z, hz, rfl⟩ := Sys.step_quiet hy hc hs
    exact ⟨.rests (set_cl s .patch _) hz,
      fun _ => ⟨Keeps.refl _, fresh (by rw [Sys.set_cl_self]; rfl)⟩,
      fun _ => ⟨rfl, [], (List.append_nil _).symm⟩⟩

/-! ### Runs -/

/-- Where the tool stands while the patch has not disturbed it. -/
inductive Stands (s : Server) (checked : Bool) : Prop
  | done (h : (s.cl .tool).done = true)
  | guarding {o : Known} {x : ToolProg} (hc : s.cl .tool = .idle x) (hx : Guarded o x)
      (ho : o.Holds s.db) (hk : Keeps s.db (s.view .patch))
  | editing {o : Known} {p : ℤ} (hg : checked = true) (hc : (s.cl .tool).Forall (Edits o p))
      (ho : o.Holds s.db) (hd : Draft p s.db) (hw : Within s.db (s.view .tool))

lemma timely_of_within (h : Within s.db s'.db) (hw : Within s.db (s.view .tool))
    (hv : Within (s.view .tool) (applyAll (s.view .tool) (s'.drawn.drop s.drawn.length))) :
    Timely s s' := fun k hk => ⟨h.menu k hk, hv.menu k (mt (hw.draft k).mp hk)⟩

variable {checked : Bool}

lemma tool_step (h : Stands s checked) (hs : s.step .tool = some s') :
    Timely s s' ∧ Stands s' (checked || decide ((s.cl .tool).next? = some .weekStatus)) := by
  rcases h with hdone | ⟨hc, hx, ho, hk⟩ | ⟨hg, hc, ho, hd, hw⟩
  · rcases hcl : s.cl .tool with ((r | ⟨t, k⟩ | ⟨body, k⟩ | ⟨q, k⟩) | ⟨pend, body, k⟩) <;>
      rw [hcl] at hdone
    · rw [Sys.step_ret hcl] at hs
      cases hs
    all_goals cases hdone
  · have hview : Within s.db (s.view .tool) := view_idle hc ▸ within_reserveAll _ _
    obtain ⟨hdb, hdrawn, hnext⟩ := guarding_step hc hx ho hs
    have hpatch : s'.view .patch = s.view .patch := by
      rw [Sys.view, Sys.view, hdb, hdrawn, Sys.step_cl_of_ne hs (by decide)]
    refine ⟨timely_of_within (hdb ▸ Within.refl _) hview ?_, ?_⟩
    · rw [hdrawn, List.drop_length]
      exact Within.refl _
    · rcases hnext with ⟨o', x', hc', hx', ho'⟩ | ⟨hstatus, p, y, hd, hc', hy⟩
      · exact .guarding hc' hx' (hdb ▸ ho') (by rwa [hpatch, hdb])
      · refine .editing (by simp [hstatus]) (by rw [hc']; exact hy) (hdb ▸ ho) (hdb ▸ hd) ?_
        exact view_idle hc' ▸ within_reserveAll _ _
  · obtain ⟨⟨hc', hw'⟩, hdb, hv⟩ := editing_step hc ho hd hw hs
    exact ⟨timely_of_within hdb hw hv,
      .editing (by simp [hg]) hc' (ho.keeps hdb.keeps) ((hdb.draft _).mpr hd) hw'⟩

lemma stands_patch (h : Stands s checked) (hp : Patching (s.cl .patch))
    (hu : (checked && !(s.cl .tool).done && (s.cl .patch).commits) = false)
    (hs : s.step .patch = some s') : Stands s' checked := by
  obtain ⟨-, hkeeps, hdb⟩ := patch_step hp hs
  have hcl : s'.cl .tool = s.cl .tool := Sys.step_cl_of_ne hs (by decide)
  rcases h with hdone | ⟨hc, hx, ho, hk⟩ | ⟨hg, hc, ho, hd, hw⟩
  · exact .done (hcl ▸ hdone)
  · obtain ⟨hk', hv⟩ := hkeeps hk
    exact .guarding (hcl.trans hc) hx (ho.keeps hk') hv
  · by_cases hdone : (s.cl .tool).done = true
    · exact .done (hcl ▸ hdone)
    · obtain ⟨hdb, ws, hdrawn⟩ := hdb (by simpa [hg, hdone] using hu)
      refine .editing hg (hcl ▸ hc) (hdb ▸ ho) (hdb ▸ hd) ?_
      rw [hdb, Sys.view, hcl, hdb, hdrawn, reserveAll_append]
      exact hw.trans (within_reserveAll _ ws)

lemma stands_step {i : Party} (h : Stands s checked) (hp : Patching (s.cl .patch))
    (hu : (checked && !(s.cl .tool).done && decide (i = .patch) && (s.cl .patch).commits) = false)
    (hs : s.step i = some s') :
    Stands s' (checked || decide (i = .tool) && decide ((s.cl .tool).next? = some .weekStatus)) ∧
      Patching (s'.cl .patch) := by
  cases i with
  | tool =>
    rw [Sys.step_cl_of_ne hs (by decide)]
    exact ⟨by simpa using (tool_step h hs).2, hp⟩
  | patch =>
    exact ⟨by simpa using stands_patch h hp (by simpa using hu) hs, (patch_step hp hs).1⟩

lemma stands_run {sched : List Party} (h : Stands s checked) (hp : Patching (s.cl .patch))
    (hu : undisturbed checked s sched = true) (hrun : s.run sched = some s') :
    ∃ checked', Stands s' checked' := by
  induction sched generalizing s checked with
  | nil =>
    cases hrun
    exact ⟨checked, h⟩
  | cons i is ih =>
    rw [Sys.run, Option.bind_eq_some_iff] at hrun
    obtain ⟨s₁, hs₁, hrun⟩ := hrun
    rw [undisturbed, hs₁, Bool.and_eq_true, Bool.not_eq_true'] at hu
    obtain ⟨hst, hpatch⟩ := stands_step h hp hu.1 hs₁
    exact ih hst hpatch hu.2 hrun

/-- **A menu tool that is not disturbed** changes the menu of a plan only while the committed status
of the plan is draft. -/
theorem draft_when_written (pg : Pg) (quote : String → String) (ctx : Ctx) (c : MenuCall) (id : ℤ)
    (r : Request) (d : Db) (sched : List Party) (s s' : Server)
    (hrun : (together pg quote ctx c id r d).run sched = some s)
    (hu : undisturbed false (together pg quote ctx c id r d) sched = true)
    (hs : s.step .tool = some s') : Timely s s' := by
  have hstart : Stands (together pg quote ctx c id r d) false :=
    .guarding rfl (guarded_tool pg quote ctx c) trivial (keeps_reserveAll d [])
  obtain ⟨checked, h⟩ := stands_run hstart (patching_start pg id r) hu hrun
  exact (tool_step h hs).1

/-- A request that declares the cart of the plan built. -/
def cartBuilt : Request := ⟨5, .ok ⟨none, none, none, none, none, some "cart_built", none⟩⟩

/-- A dinner is to be deleted while the plan of three days is declared built. -/
def deleteAndBuild : Server :=
  together Pg.plain id background (.deleteDinner (some 1)) 1 cartBuilt (threeDays .draft)

/-- The patch has its update pending when the tool checks the plan. -/
def patchPending : List Party := [.patch, .tool, .patch, .patch, .tool]

theorem draft_when_written_deleteAndBuild :
    Timely ((deleteAndBuild.run patchPending).get (by decide))
      ((((deleteAndBuild.run patchPending).get (by decide)).step .tool).get (by decide)) :=
  draft_when_written Pg.plain id background (.deleteDinner (some 1)) 1 cartBuilt (threeDays .draft)
    patchPending _ _ (Option.some_get _).symm (by decide) (Option.some_get _).symm

/-- The tool checks the plan, then the patch begins, reads, updates and commits. -/
def builtAfterCheck : List Party := [.tool, .tool, .patch, .patch, .patch, .patch]

/-- The plan is built and the tool has its delete before it. -/
def checkedThenBuilt : Server := (deleteAndBuild.run builtAfterCheck).get (by decide)

/-- The dinner is deleted from a plan whose cart has been built. -/
theorem not_draft_when_written : ¬∀ (sched : List Party) (s s' : Server),
    deleteAndBuild.run sched = some s → s.step .tool = some s' → Timely s s' := by
  intro h
  have hmenu := (h builtAfterCheck checkedThenBuilt _ (Option.some_get _).symm
    (Option.some_get (by decide : (checkedThenBuilt.step .tool).isSome = true)).symm 1 ?_).1
  · have hrow := hmenu.dinners (emptySlot 1 739725 1) rfl
    revert hrow
    decide
  · rintro ⟨w, hw, hd⟩
    have hbuilt : (checkedThenBuilt.db.weeks.find? 1).map Week.status = some .cartBuilt := by decide
    rw [hw, Option.map_some, hd] at hbuilt
    cases hbuilt

end Veckomenyn.LateWrite
