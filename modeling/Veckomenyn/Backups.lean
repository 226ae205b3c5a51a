import Veckomenyn.BeforeMigration
import Veckomenyn.Nightly

/-!
The backup directory while the server is in use.

Dumps are asked for, listed, fetched and deleted over the API, the scheduler takes and prunes them
every night, and each start of the server takes and prunes one before it migrates the database. A
file that goes is accounted for by the one step that took it.
-/

namespace Veckomenyn.Backups

open Backup Retention BeforeMigration

variable (o : Newest)

/-! ### The server -/

/-- A tick of the scheduler has read the configuration, and then has a dump. -/
inductive Phase where
  | idle
  | due (cfg : Nightly.Config)
  | dumped (cfg : Nightly.Config)

/-- The snapshotter tells whether it can write, when there is a place for dumps. -/
structure State where
  snapshotter : Option Bool
  version : String
  config : Nightly.Config
  dir : Dir
  lastAt : Option ℤ
  phase : Phase

/-- `Snapshot`, which does nothing when dumps can only be read. -/
def take (canWrite : Bool) (dir : Dir) (reason : Reason) (label : String) (start : ℤ)
    (made : Option ℤ) : Dir × Option Snapshot :=
  if canWrite then snapshot dir reason label start made else (dir, none)

def noFiles : Dir := ⟨[], List.nodup_nil⟩

/-! ### The requests -/

inductive Response where
  | unavailable (text : String)
  | badRequest (text : String)
  | notFound
  | internalError
  | backups (list : List Snapshot)
  | saved (s : Snapshot)
  | file (s : Snapshot)
  | noContent
  | config (cfg : Nightly.Config) (canWrite : Bool)

def notConfigured : Response := .unavailable "backups not configured (BACKUP_DIR unset)"

/-- The listing fails when the directory is `unread`. -/
def handleListBackups (s : State) (unread : Bool) : Response :=
  match s.snapshotter with
  | none => notConfigured
  | some _ => if unread then .internalError else .backups (list o s.dir)

def handleCreateBackup (s : State) (start : ℤ) (made : Option ℤ) : Response × Dir :=
  match s.snapshotter with
  | none => (notConfigured, s.dir)
  | some canWrite =>
    let (dir, saved) := take canWrite s.dir manual s.version start made
    (saved.elim .internalError .saved, dir)

/-- Only what is listed is found. -/
def resolveBackup (s : State) (unread : Bool) (filename : String) : Except Response Snapshot :=
  match s.snapshotter with
  | none => .error notConfigured
  | some _ =>
    if unread then .error .internalError
    else match (list o s.dir).find? fun b => b.filename = filename with
      | some b => .ok b
      | none => .error .notFound

def handleDownloadBackup (s : State) (unread : Bool) (filename : String) (unopened : Bool) :
    Response :=
  match resolveBackup o s unread filename with
  | .error r => r
  | .ok b => if unopened then .internalError else .file b

def handleDeleteBackup (s : State) (unread : Bool) (filename : String) (stuck : List String) :
    Response × Dir :=
  match resolveBackup o s unread filename with
  | .error r => (r, s.dir)
  | .ok b =>
    if b.filename ∈ stuck then (.internalError, s.dir) else (.noContent, s.dir.remove b.filename)

def canWrite (s : State) : Bool := s.snapshotter.getD false

def handleGetBackupConfig (s : State) : Response := .config s.config (canWrite s)

structure ConfigPatch where
  nightlyEnabled : Option Bool
  nightlyKeep : Option ℤ

/-- The row's own check, and the range of its column. -/
def updateBackupConfig (cfg : Nightly.Config) (p : ConfigPatch) : Option Nightly.Config :=
  let keep := p.nightlyKeep.getD cfg.nightlyKeep
  if h : 0 < keep then
    if keep ≤ 2147483647 then some ⟨p.nightlyEnabled.getD cfg.nightlyEnabled, keep, h⟩ else none
  else none

def handlePatchBackupConfig (s : State) (body : Except String ConfigPatch) :
    Response × Nightly.Config :=
  match body with
  | .error e => (.badRequest ("bad json: " ++ e), s.config)
  | .ok p =>
    if p.nightlyEnabled = some true ∧ canWrite s = false then
      (.badRequest "nightly backups require pg_dump and BACKUP_DIR", s.config)
    else if ∃ keep ∈ p.nightlyKeep, keep ≤ 0 then
      (.badRequest "nightly_keep must be > 0", s.config)
    else match updateBackupConfig s.config p with
      | none => (.internalError, s.config)
      | some cfg => (.config cfg (canWrite s), cfg)

/-! ### What happens -/

/-- Requests; the parts of a tick, with what the clock says; and a start of the server. A
directory that is `unread` cannot be listed, and files that are `stuck` cannot be removed. -/
inductive Event where
  | listBackups (unread : Bool)
  | createBackup (start : ℤ) (made : Option ℤ)
  | downloadBackup (unread : Bool) (filename : String) (unopened : Bool)
  | deleteBackup (unread : Bool) (filename : String) (stuck : List String)
  | patchBackupConfig (body : Except String ConfigPatch)
  | check (readable unread : Bool) (since again : ℤ)
  | dump (start : ℤ) (made : Option ℤ)
  | prune (now : ℤ) (unread : Bool) (stuck : List String)
  | restart (snapshotter : Option Bool) (version : String) (env : Env)
      (pending : Except String ℕ) (start : ℤ) (made : Except String ℤ) (unread : Bool)
      (stuck : List String)

/-- A tick reads the configuration and the time of the last dump. The scheduler runs when dumps can
be taken; a part of a tick that does not come next does nothing. -/
def checkTick (s : State) (readable unread : Bool) (since again : ℤ) : State :=
  match s.phase, s.snapshotter with
  | .idle, some true =>
    let cfg := if readable then some s.config else none
    let (lastAt, due) := Nightly.check o cfg (if unread then noFiles else s.dir) since again
      s.lastAt
    { s with lastAt := lastAt, phase := if due then .due s.config else .idle }
  | _, _ => s

def dumpTick (s : State) (start : ℤ) (made : Option ℤ) : State :=
  match s.phase, s.snapshotter with
  | .due cfg, some true =>
    let (dir, taken) := snapshot s.dir nightly s.version start made
    { s with dir := dir, phase := if taken.isSome then .dumped cfg else .idle }
  | _, _ => s

def pruneTick (s : State) (now : ℤ) (unread : Bool) (stuck : List String) : State :=
  match s.phase with
  | .dumped cfg =>
    { s with
      dir := if unread then s.dir else (prune o stuck s.dir nightly cfg.nightlyKeep).2
      lastAt := some now
      phase := .idle }
  | _ => s

def step (s : State) : Event → State
  | .listBackups _ => s
  | .createBackup start made => { s with dir := (handleCreateBackup s start made).2 }
  | .downloadBackup _ _ _ => s
  | .deleteBackup unread filename stuck =>
    { s with dir := (handleDeleteBackup o s unread filename stuck).2 }
  | .patchBackupConfig body => { s with config := (handlePatchBackupConfig s body).2 }
  | .check readable unread since again => checkTick o s readable unread since again
  | .dump start made => dumpTick s start made
  | .prune now unread stuck => pruneTick o s now unread stuck
  | .restart snapshotter version env pending start made unread stuck =>
    { s with
      snapshotter := snapshotter
      version := version
      dir := (preMigrationBackup o env unread stuck pending snapshotter s.dir version start made).1
      lastAt := none
      phase := .idle }

def run (s : State) (es : List Event) : State := es.foldl (step o) s

/-! ### Accounts -/

/-- As many dumps of the reason as are to be kept are there, and none is older than the file. -/
def Superseded (dir : Dir) (reason : Reason) (keep : ℤ) (f : File) : Prop :=
  ∃ kept : List File, kept.Nodup ∧ (kept.length : ℤ) = keep ∧
    ∀ g ∈ kept, g ∈ dir.files ∧ isOf reason g = true ∧ f.mtime ≤ g.mtime

/-- A file goes when it is deleted by its name, when a dump of its name is taken or fails, or when
it is a dump that newer ones supersede. -/
def Took (s : State) (f : File) : Event → Prop
  | .createBackup start _ => s.snapshotter = some true ∧ f.name = filename start manual s.version
  | .deleteBackup _ name stuck => f.name = name ∧ (listed f).isSome ∧ name ∉ stuck
  | .dump start _ => s.snapshotter = some true ∧ f.name = filename start nightly s.version
  | .prune now unread stuck => isOf nightly f = true ∧ ∃ cfg, s.phase = .dumped cfg ∧
    Superseded (pruneTick o s now unread stuck).dir nightly cfg.nightlyKeep f
  | .restart snapshotter version env pending start made unread stuck =>
    snapshotter = some true ∧ (f.name = filename start preMigration version ∨
      isOf preMigration f = true ∧ Superseded (preMigrationBackup o env unread stuck pending
        snapshotter s.dir version start made).1 preMigration env.keep f)
  | _ => False

/-! ### One step -/

variable {o} {s : State} {e : Event} {dir : Dir} {f : File} {reason : Reason}

lemma name_of_gone {label : String} {start : ℤ} {made : Option ℤ} (hf : f ∈ dir.files)
    (hgone : f ∉ (snapshot dir reason label start made).1.files) :
    f.name = filename start reason label := by
  by_contra hne
  cases made with
  | none => exact hgone (Dir.mem_remove.mpr ⟨hf, hne⟩)
  | some mtime => exact hgone (Dir.mem_write.mpr (Or.inr ⟨hf, hne⟩))

/-- A file that is pruned is a dump of the reason, and newer ones are left. -/
lemma superseded_of_gone {stuck : List String} {keep : ℤ} (hk : 0 < keep) (hf : f ∈ dir.files)
    (hgone : f ∉ (prune o stuck dir reason keep).2.files) :
    isOf reason f = true ∧ Superseded (prune o stuck dir reason keep).2 reason keep f := by
  have hof : isOf reason f = true := by
    by_contra hnot
    exact hgone (mem_prune o stuck hf (Bool.eq_false_iff.mpr hnot) keep)
  obtain ⟨kept, hnodup, hlen, hkept⟩ := (newestKept o dir reason stuck hk).newest
  have hnotin : f ∉ kept := fun h => hgone (hkept f h).1
  refine ⟨hof, kept, hnodup, ?_, fun g hg => ⟨(hkept g hg).1, (hkept g hg).2.1,
    (hkept g hg).2.2 f hf hof hnotin⟩⟩
  -- with the file there are more dumps than are kept
  have hsub : f :: kept ⊆ dir.files.filter (isOf reason) := by
    intro g hg
    rcases List.mem_cons.mp hg with rfl | hg
    · exact List.mem_filter.mpr ⟨hf, hof⟩
    · have hstays := (hkept g hg).1
      rw [(pruned o dir reason stuck hk).untouched] at hstays
      exact List.mem_filter.mpr ⟨(List.mem_filter.mp hstays).1, (hkept g hg).2.1⟩
  have hcount := (List.nodup_cons.mpr ⟨hnotin, hnodup⟩).length_le_of_subset hsub
  rw [List.length_cons, ← count] at hcount
  omega

lemma took_create {start : ℤ} {made : Option ℤ} (hf : f ∈ s.dir.files)
    (hgone : f ∉ (handleCreateBackup s start made).2.files) :
    s.snapshotter = some true ∧ f.name = filename start manual s.version := by
  unfold handleCreateBackup take at hgone
  rcases hs : s.snapshotter with _ | _ | _ <;> simp only [hs] at hgone
  · exact absurd hf hgone
  · exact absurd hf hgone
  · exact ⟨rfl, name_of_gone hf hgone⟩

/-- What is found is a dump of the directory. -/
lemma resolveBackup_ok {unread : Bool} {name : String} {b : Snapshot}
    (h : resolveBackup o s unread name = .ok b) :
    b.filename = name ∧ ∃ g ∈ s.dir.files, listed g = some b := by
  unfold resolveBackup at h
  split at h
  · cases h
  split_ifs at h
  split at h
  · next hfind =>
    cases h
    exact ⟨by simpa using List.find?_some hfind, (mem_list o).mp (List.mem_of_find?_eq_some hfind)⟩
  · cases h

/-- **What is sent is a dump of the directory**, whatever name is asked for. -/
theorem handleDownloadBackup_file {unread unopened : Bool} {name : String} {b : Snapshot}
    (h : handleDownloadBackup o s unread name unopened = .file b) :
    b.filename = name ∧ ∃ g ∈ s.dir.files, listed g = some b := by
  unfold handleDownloadBackup at h
  rcases hr : resolveBackup o s unread name with r | b' <;> simp only [hr] at h
  · subst h
    unfold resolveBackup notConfigured at hr
    split at hr
    · cases hr
    split_ifs at hr
    · cases hr
    · split at hr <;> cases hr
  · split_ifs at h
    cases h
    exact resolveBackup_ok hr

lemma took_delete {unread : Bool} {name : String} {stuck : List String} (hf : f ∈ s.dir.files)
    (hgone : f ∉ (handleDeleteBackup o s unread name stuck).2.files) :
    f.name = name ∧ (listed f).isSome = true ∧ name ∉ stuck := by
  unfold handleDeleteBackup at hgone
  rcases hr : resolveBackup o s unread name with r | b <;> simp only [hr] at hgone
  · exact absurd hf hgone
  · obtain ⟨hname, g, hg, hlisted⟩ := resolveBackup_ok hr
    split_ifs at hgone with hstuck
    · exact absurd hf hgone
    · have hfname : f.name = b.filename := by
        by_contra hne
        exact hgone (Dir.mem_remove.mpr ⟨hf, hne⟩)
      obtain rfl := eq_of_name hf hg (hfname.trans (listed_some hlisted).1)
      exact ⟨hfname.trans hname, by rw [hlisted]; rfl, hname ▸ hstuck⟩

/-- Nothing is done, or a dump is taken or fails, and then it may be pruned. -/
lemma preMigrationBackup_dir (env : Env) (unread : Bool) (stuck : List String)
    (pending : Except String ℕ) (snapshotter : Option Bool) (dir : Dir) (version : String)
    (start : ℤ) (made : Except String ℤ) :
    (preMigrationBackup o env unread stuck pending snapshotter dir version start made).1 = dir ∨
      snapshotter = some true ∧ ∃ made',
        (preMigrationBackup o env unread stuck pending snapshotter dir version start made).1 =
            (snapshot dir preMigration version start made').1 ∨
          (preMigrationBackup o env unread stuck pending snapshotter dir version start made).1 =
            (prune o stuck (snapshot dir preMigration version start made').1 preMigration
              env.keep).2 := by
  unfold preMigrationBackup
  rcases pending with e | n
  · exact Or.inl rfl
  by_cases hn : n = 0
  · left
    simp only [hn, if_true]
  simp only [hn, if_false]
  rcases snapshotter with _ | _ | _
  · exact Or.inl rfl
  · simp only [BeforeMigration.take, Bool.not_false, if_true]
    split_ifs <;> exact Or.inl rfl
  refine Or.inr ⟨rfl, ?_⟩
  rcases made with e | mtime <;>
    simp only [BeforeMigration.take, Bool.not_true, Bool.false_eq_true, if_false]
  · refine ⟨none, Or.inl ?_⟩
    split_ifs <;> rfl
  · refine ⟨some mtime, ?_⟩
    split_ifs
    · exact Or.inl rfl
    · exact Or.inr rfl

lemma took_restart {snapshotter : Option Bool} {version : String} {env : Env}
    {pending : Except String ℕ} {start : ℤ} {made : Except String ℤ} {unread : Bool}
    {stuck : List String} (hf : f ∈ dir.files)
    (hgone : f ∉ (preMigrationBackup o env unread stuck pending snapshotter dir version start
      made).1.files) :
    snapshotter = some true ∧ (f.name = filename start preMigration version ∨
      isOf preMigration f = true ∧ Superseded (preMigrationBackup o env unread stuck pending
        snapshotter dir version start made).1 preMigration env.keep f) := by
  rcases preMigrationBackup_dir env unread stuck pending snapshotter dir version start made with
    hsame | ⟨hwrites, made', hdir⟩
  · rw [hsame] at hgone
    exact absurd hf hgone
  refine ⟨hwrites, ?_⟩
  by_cases hname : f.name = filename start preMigration version
  · exact Or.inl hname
  -- the dump that is taken leaves the file, so pruning has taken it
  have hstill : f ∈ (snapshot dir preMigration version start made').1.files := by
    by_contra hnot
    exact hname (name_of_gone hf hnot)
  rcases hdir with hdir | hdir <;> rw [hdir] at hgone ⊢
  · exact absurd hstill hgone
  · exact Or.inr (superseded_of_gone env.keep_pos hstill hgone)

lemma took_dump {start : ℤ} {made : Option ℤ} (hf : f ∈ s.dir.files)
    (hgone : f ∉ (dumpTick s start made).dir.files) :
    s.snapshotter = some true ∧ f.name = filename start nightly s.version := by
  unfold dumpTick at hgone
  split at hgone
  · next hs => exact ⟨hs, name_of_gone hf hgone⟩
  · exact absurd hf hgone

lemma took_prune {now : ℤ} {unread : Bool} {stuck : List String} (hf : f ∈ s.dir.files)
    (hgone : f ∉ (pruneTick o s now unread stuck).dir.files) :
    isOf nightly f = true ∧ ∃ cfg, s.phase = .dumped cfg ∧
      Superseded (pruneTick o s now unread stuck).dir nightly cfg.nightlyKeep f := by
  unfold pruneTick at hgone ⊢
  rcases hs : s.phase with _ | _ | cfg <;> simp only [hs] at hgone
  · exact absurd hf hgone
  · exact absurd hf hgone
  · simp only
    split_ifs at hgone ⊢
    · exact absurd hf hgone
    · obtain ⟨hof, hleft⟩ := superseded_of_gone cfg.positive hf hgone
      exact ⟨hof, cfg, rfl, hleft⟩

/-- **A step accounts for what it takes.** -/
lemma took_of_gone (hf : f ∈ s.dir.files) (hgone : f ∉ (step o s e).dir.files) : Took o s f e := by
  cases e with
  | listBackups unread => exact absurd hf hgone
  | createBackup start made => exact took_create hf hgone
  | downloadBackup unread name unopened => exact absurd hf hgone
  | deleteBackup unread name stuck => exact took_delete hf hgone
  | patchBackupConfig body => exact absurd hf hgone
  | check readable unread since again =>
    have hdir : (checkTick o s readable unread since again).dir = s.dir := by
      unfold checkTick
      split <;> rfl
    exact absurd (hdir ▸ hf) hgone
  | dump start made => exact took_dump hf hgone
  | prune now unread stuck => exact took_prune hf hgone
  | restart snapshotter version env pending start made unread stuck => exact took_restart hf hgone

/-! ### Runs -/

/-- What holds first and not in the end is lost by one step. -/
lemma exists_loss {σ ε : Type} (step : σ → ε → σ) (P : σ → Prop) {s : σ} {es : List ε} (h : P s)
    (hlost : ¬P (es.foldl step s)) :
    ∃ before e after, es = before ++ e :: after ∧ P (before.foldl step s) ∧
      ¬P (step (before.foldl step s) e) := by
  induction es generalizing s with
  | nil => exact absurd h hlost
  | cons e es ih =>
    by_cases he : P (step s e)
    · obtain ⟨before, x, after, rfl, hbefore, hafter⟩ := ih he hlost
      exact ⟨e :: before, x, after, rfl, hbefore, hafter⟩
    · exact ⟨[], e, es, rfl, h, he⟩

/-- **No dump is lost**: whatever is asked of the server, however its nights and its starts go, and
whichever dumps, listings and removals fail, each file that is gone was deleted by its name over
the API, was in the way of a dump of the same second, or was a dump of the nights or the migrations
that as many others as are to be kept had superseded. -/
theorem nothing_lost (s : State) (es : List Event) (f : File) (hf : f ∈ s.dir.files)
    (hgone : f ∉ (run o s es).dir.files) :
    ∃ before e after, es = before ++ e :: after ∧ f ∈ (run o s before).dir.files ∧
      Took o (run o s before) f e := by
  obtain ⟨before, e, after, hes, hbefore, hafter⟩ :=
    exists_loss (step o) (fun s => f ∈ s.dir.files) hf hgone
  exact ⟨before, e, after, hes, hbefore, took_of_gone hbefore hafter⟩

/-- Two dumps of earlier nights, and one that was asked for. -/
def threeFiles : Dir where
  files := [⟨"20260418T030000Z_nightly_0.4.0.dump", false, 1⟩,
    ⟨"20260419T030000Z_nightly_0.4.0.dump", false, 2⟩,
    ⟨"20260419T120000Z_manual_0.4.0.dump", false, 3⟩]
  nodup := by decide

def keepsOne : State := ⟨some true, "0.4.0", ⟨true, 1, Int.one_pos⟩, threeFiles, none, .idle⟩

/-- A night takes a dump and prunes the one before, and then a dump is deleted. -/
def oneNight : List Event := [.check true false (30 * 24 * hour) (30 * 24 * hour),
  .dump (30 * 24 * hour) (some (30 * 24 * hour + second)), .prune (30 * 24 * hour) false [],
  .deleteBackup false "20260419T120000Z_manual_0.4.0.dump" []]

theorem nothing_lost_oneNight :
    ∃ before e after, oneNight = before ++ e :: after ∧
      ⟨"20260418T030000Z_nightly_0.4.0.dump", false, 1⟩ ∈ (run stable keepsOne before).dir.files ∧
        Took stable (run stable keepsOne before)
          ⟨"20260418T030000Z_nightly_0.4.0.dump", false, 1⟩ e :=
  nothing_lost keepsOne oneNight _ (by decide) (by decide)

/-! ### Dumps that were asked for -/

lemma not_manual_of_name {start : ℤ} {label : String} {other : Reason} (ho : '_' ∉ other.toList)
    (hne : other ≠ manual) (hname : f.name = filename start other label) :
    isOf manual f = false := by
  rw [Bool.eq_false_iff]
  intro hof
  have hreason := (isOf_iff.mp hof).2.2
  rw [hname, parseFilename_filename start label ho] at hreason
  exact hne hreason

lemma not_manual_of_isOf {other : Reason} (hne : other ≠ manual) (h : isOf other f = true) :
    isOf manual f = false := by
  rw [Bool.eq_false_iff]
  intro hof
  exact hne ((isOf_iff.mp h).2.2.symm.trans (isOf_iff.mp hof).2.2)

/-- **A dump that was asked for goes by hand**: neither the nights nor the migrations ever take it;
it is deleted by its name, or another one is asked for in the same second. -/
theorem manual_by_hand (s : State) (es : List Event) (f : File) (hf : f ∈ s.dir.files)
    (hof : isOf manual f = true) (hgone : f ∉ (run o s es).dir.files) :
    ∃ before e after, es = before ++ e :: after ∧
      ((∃ unread stuck, e = .deleteBackup unread f.name stuck) ∨
        ∃ start made, e = .createBackup start made ∧
          f.name = filename start manual (run o s before).version) := by
  obtain ⟨before, e, after, hes, hbefore, hafter⟩ :=
    exists_loss (step o) (fun s => f ∈ s.dir.files) hf hgone
  refine ⟨before, e, after, hes, ?_⟩
  have htook : Took o (run o s before) f e := took_of_gone hbefore hafter
  have hcontra (h : isOf manual f = false) : False := Bool.false_ne_true (h.symm.trans hof)
  cases e with
  | createBackup start made => exact Or.inr ⟨start, made, rfl, htook.2⟩
  | deleteBackup unread name stuck => exact Or.inl ⟨unread, stuck, by rw [htook.1]⟩
  | dump start made =>
    exact (hcontra (not_manual_of_name (by decide) (by decide) htook.2)).elim
  | prune now unread stuck => exact (hcontra (not_manual_of_isOf (by decide) htook.1)).elim
  | restart snapshotter version env pending start made unread stuck =>
    rcases htook.2 with hname | ⟨hpre, -⟩
    · exact (hcontra (not_manual_of_name (by decide) (by decide) hname)).elim
    · exact (hcontra (not_manual_of_isOf (by decide) hpre)).elim
  | _ => exact htook.elim

theorem manual_by_hand_oneNight :
    ∃ before e after, oneNight = before ++ e :: after ∧
      ((∃ unread stuck, e = .deleteBackup unread "20260419T120000Z_manual_0.4.0.dump" stuck) ∨
        ∃ start made, e = .createBackup start made ∧ "20260419T120000Z_manual_0.4.0.dump" =
          filename start manual (run stable keepsOne before).version) :=
  manual_by_hand keepsOne oneNight ⟨"20260419T120000Z_manual_0.4.0.dump", false, 3⟩ (by decide)
    (by decide) (by decide)

end Veckomenyn.Backups
