import Mathlib.Logic.Function.Basic
import Veckomenyn.ReadTools
import Veckomenyn.Retention

/-!
Dumps that share a name.

A name tells the second a dump is taken in, so a second dump of that second, reason and label
goes to the file of the first. What `pg_dump` has done to the file by the time it ends comes from
outside.
-/

namespace Veckomenyn.SameSecond

open Backup ReadTools Retention

/-! ### The disk -/

inductive Node where
  | file (content : List UInt8) (mtime : ℤ)
  | folder (empty : Bool) (size : ℕ) (mtime : ℤ)
deriving DecidableEq

def Node.size : Node → ℕ
  | file content _ => content.length
  | folder _ size _ => size

def Node.mtime : Node → ℤ
  | file _ mtime => mtime
  | folder _ _ mtime => mtime

def Node.isDir : Node → Bool
  | file _ _ => false
  | folder _ _ _ => true

/-- The directory of the dumps. -/
abbrev Disk := String → Option Node

/-- `os.Remove`, which leaves a folder with something in it. -/
def remove (d : Disk) (name : String) : Disk :=
  match d name with
  | some (.folder false _ _) => d
  | _ => Function.update d name none

/-- A run of `pg_dump`: the error of `Run`, if any, what it has printed, and the file it has
written, whole or in part, if it came so far. -/
structure PgDump where
  err : Option String
  stderr : String
  wrote : Option (List UInt8 × ℤ)

/-- A folder cannot be written to. -/
def PgDump.run (out : PgDump) (d : Disk) (name : String) : Disk × Option String :=
  match d name with
  | some (.folder _ _ _) => (d, some (out.err.getD "exit status 1"))
  | _ =>
    match out.wrote with
    | none => (d, out.err)
    | some (content, mtime) => (Function.update d name (some (.file content mtime)), out.err)

/-! ### The call -/

/-- The directory's path is a clean one, and `pgDump` is empty when dumps can only be read. -/
structure Snapshotter where
  dir : String
  pgDump : String

structure Taken extends Backup.Snapshot where
  path : String
  size : ℕ

/-- A call at the time `now`. -/
def Snapshotter.snapshot (s : Snapshotter) (d : Disk) (reason : Reason) (label : String) (now : ℤ)
    (out : PgDump) : Disk × Except String Taken :=
  if s.pgDump = "" then (d, .error "snapshotter opened read-only; use New() to take backups")
  else
    let name := filename now reason label
    let path := s.dir ++ "/" ++ name
    let (d', err) := out.run d name
    match err with
    | some e =>
      (remove d' name, .error ("pg_dump: " ++ e ++ " (stderr: " ++ trimSpace out.stderr ++ ")"))
    | none =>
      match d' name with
      | none => (d', .error ("stat dump: stat " ++ path ++ ": no such file or directory"))
      | some info => (d', .ok ⟨⟨name, reason, label, info.mtime⟩, path, info.size⟩)

/-- The version is the label of what the page asks for. -/
def handleCreateBackup (snapshotter : Option Snapshotter) (version : String) (d : Disk) (now : ℤ)
    (out : PgDump) : Disk × ℕ × Option Taken :=
  match snapshotter with
  | none => (d, 503, none)
  | some s =>
    match s.snapshot d manual version now out with
    | (d', .error _) => (d', 500, none)
    | (d', .ok saved) => (d', 200, some saved)

/-! ### What a call does to the dumps -/

/-- Every dump is there with its content. -/
def Kept (d d' : Disk) : Prop := ∀ name, isDump name = true → ∀ content mtime,
  d name = some (.file content mtime) → ∃ mtime', d' name = some (.file content mtime')

/-- Every dump is as it was. -/
def Unchanged (d d' : Disk) : Prop := ∀ name, isDump name = true → ∀ content mtime,
  d name = some (.file content mtime) → d' name = some (.file content mtime)

/-- There is a file where nothing was. -/
def Added (d d' : Disk) (name : String) : Prop :=
  d name = none ∧ ∃ content mtime, d' name = some (.file content mtime)

/-- A failure loses nothing, and a success adds one file. -/
def Safe (d : Disk) : Disk × Except String Taken → Prop
  | (d', .error _) => Kept d d'
  | (d', .ok _) => (∃! name, Added d d' name) ∧ Unchanged d d'

/-- No file has the name. -/
def Free (d : Disk) (name : String) : Prop := ∀ content mtime, d name ≠ some (.file content mtime)

variable {d : Disk} {name other : String} {out : PgDump}

lemma remove_cases (d : Disk) (name : String) :
    remove d name = d ∨ remove d name = Function.update d name none := by
  unfold remove
  split
  · exact .inl rfl
  · exact .inr rfl

lemma remove_other (h : other ≠ name) : remove d name other = d other := by
  rcases remove_cases d name with hr | hr
  · rw [hr]
  · rw [hr, Function.update_of_ne h]

lemma isDir_of_file {content : List UInt8} {mtime : ℤ} (h : d name = some (.file content mtime)) :
    ∀ node ∈ d name, node.isDir = false := by
  rw [h]
  rintro node ⟨⟩
  rfl

lemma remove_eq (h : ∀ node ∈ d name, node.isDir = false) :
    remove d name = Function.update d name none := by
  unfold remove
  split
  · rename_i hd
    exact absurd (h _ hd) (by simp [Node.isDir])
  · rfl

lemma run_other (h : other ≠ name) : (out.run d name).1 other = d other := by
  unfold PgDump.run
  split
  · rfl
  · split
    · rfl
    · exact Function.update_of_ne h _ d

/-- Where there is no folder the run leaves what it has written, or else what was there. -/
lemma run_eq (h : ∀ node ∈ d name, node.isDir = false) : out.run d name =
    (out.wrote.elim d fun w => Function.update d name (some (.file w.1 w.2)), out.err) := by
  unfold PgDump.run
  split
  · rename_i hd
    exact absurd (h _ hd) (by simp [Node.isDir])
  · rcases out.wrote with _ | ⟨content, mtime⟩ <;> rfl

variable (out) in
lemma run_node (h : ∀ node ∈ d name, node.isDir = false) :
    (out.run d name).1 name = d name ∨
      ∃ content mtime, (out.run d name).1 name = some (.file content mtime) := by
  rw [run_eq h]
  rcases out.wrote with _ | ⟨content, mtime⟩
  · exact .inl rfl
  · exact .inr ⟨content, mtime, Function.update_self name _ d⟩

lemma remove_run (h : ∀ node ∈ d name, node.isDir = false) :
    remove (out.run d name).1 name = Function.update d name none := by
  have hafter : ∀ node ∈ (out.run d name).1 name, node.isDir = false := by
    rcases run_node out h with hnode | ⟨content, mtime, hnode⟩
    · rwa [hnode]
    · exact isDir_of_file hnode
  rw [remove_eq hafter, run_eq h]
  rcases out.wrote with _ | w
  · rfl
  · exact Function.update_idem _ _ d

lemma run_folder {empty : Bool} {size : ℕ} {mtime : ℤ}
    (h : d name = some (.folder empty size mtime)) : out.run d name = (d, some (out.err.getD "exit status 1")) := by
  unfold PgDump.run
  rw [h]

variable {s : Snapshotter} {reason : Reason} {label : String} {now : ℤ}

lemma snapshot_readOnly (hs : s.pgDump = "") : s.snapshot d reason label now out =
    (d, .error "snapshotter opened read-only; use New() to take backups") := by
  rw [Snapshotter.snapshot, if_pos hs]

lemma snapshot_failed (hs : s.pgDump ≠ "") {e : String}
    (herr : (out.run d (filename now reason label)).2 = some e) :
    s.snapshot d reason label now out =
      (remove (out.run d (filename now reason label)).1 (filename now reason label),
        .error ("pg_dump: " ++ e ++ " (stderr: " ++ trimSpace out.stderr ++ ")")) := by
  rw [Snapshotter.snapshot, if_neg hs]
  simp only [herr]

lemma snapshot_missing (hs : s.pgDump ≠ "")
    (herr : (out.run d (filename now reason label)).2 = none)
    (hnode : (out.run d (filename now reason label)).1 (filename now reason label) = none) :
    s.snapshot d reason label now out = ((out.run d (filename now reason label)).1,
      .error ("stat dump: stat " ++ (s.dir ++ "/" ++ filename now reason label) ++
        ": no such file or directory")) := by
  rw [Snapshotter.snapshot, if_neg hs]
  simp only [herr, hnode]

lemma snapshot_done (hs : s.pgDump ≠ "")
    (herr : (out.run d (filename now reason label)).2 = none) {info : Node}
    (hnode : (out.run d (filename now reason label)).1 (filename now reason label) = some info) :
    s.snapshot d reason label now out = ((out.run d (filename now reason label)).1,
      .ok ⟨⟨filename now reason label, reason, label, info.mtime⟩,
        s.dir ++ "/" ++ filename now reason label, info.size⟩) := by
  rw [Snapshotter.snapshot, if_neg hs]
  simp only [herr, hnode]

lemma snapshot_other (h : other ≠ filename now reason label) :
    (s.snapshot d reason label now out).1 other = d other := by
  unfold Snapshotter.snapshot
  split_ifs
  · rfl
  simp only
  split
  · exact (remove_other h).trans (run_other h)
  · split
    · exact run_other h
    · exact run_other h

lemma unchanged_of_free (hfree : Free d (filename now reason label)) :
    Unchanged d (s.snapshot d reason label now out).1 := by
  intro name _ content mtime hname
  rw [snapshot_other fun heq => hfree content mtime (heq ▸ hname), hname]

lemma Unchanged.kept {d d' : Disk} (h : Unchanged d d') : Kept d d' :=
  fun name hdump content mtime hname => ⟨mtime, h name hdump content mtime hname⟩

lemma safe_of_free (hfree : Free d (filename now reason label)) :
    Safe d (s.snapshot d reason label now out) := by
  have hunchanged : Unchanged d (s.snapshot d reason label now out).1 := unchanged_of_free hfree
  by_cases hs : s.pgDump = ""
  · rw [snapshot_readOnly hs] at hunchanged ⊢
    exact hunchanged.kept
  rcases herr : (out.run d (filename now reason label)).2 with _ | e
  · rcases hd : d (filename now reason label) with _ | ⟨content, mtime⟩ | ⟨empty, size, mtime⟩
    · have hfile : ∀ node ∈ d (filename now reason label), node.isDir = false := by simp [hd]
      rcases run_node out hfile with hnode | ⟨content, mtime, hnode⟩
      · rw [snapshot_missing hs herr (hnode.trans hd)] at hunchanged ⊢
        exact hunchanged.kept
      · rw [snapshot_done hs herr hnode] at hunchanged ⊢
        refine ⟨⟨_, ⟨hd, content, mtime, hnode⟩, ?_⟩, hunchanged⟩
        -- nothing is added at another name
        rintro other ⟨hnone, content', mtime', hadded⟩
        by_contra hne
        rw [run_other hne, hnone] at hadded
        cases hadded
    · exact absurd hd (hfree content mtime)
    · rw [run_folder hd] at herr
      cases herr
  · rw [snapshot_failed hs herr] at hunchanged ⊢
    exact hunchanged.kept

/-- A failure removes the file, and a success has not added one. -/
lemma not_safe_of_file (hs : s.pgDump ≠ "") {content : List UInt8} {mtime : ℤ}
    (hd : d (filename now reason label) = some (.file content mtime)) :
    ¬ Safe d (s.snapshot d reason label now out) := by
  have hfile := isDir_of_file hd
  have hrun : (out.run d (filename now reason label)).2 = out.err := by rw [run_eq hfile]
  rcases herr : out.err with _ | e
  · obtain ⟨info, hnode⟩ : ∃ info, (out.run d (filename now reason label)).1
        (filename now reason label) = some info := by
      rcases run_node out hfile with hnode | ⟨content', mtime', hnode⟩
      · exact ⟨_, hnode.trans hd⟩
      · exact ⟨_, hnode⟩
    rw [snapshot_done hs (hrun.trans herr) hnode]
    rintro ⟨⟨other, ⟨hnone, content', mtime', hadded⟩, -⟩, -⟩
    have hne : other ≠ filename now reason label := by
      rintro rfl
      rw [hd] at hnone
      cases hnone
    rw [run_other hne, hnone] at hadded
    cases hadded
  · rw [snapshot_failed hs (hrun.trans herr), remove_run hfile]
    intro hkept
    obtain ⟨mtime', hthere⟩ := hkept _ (isDump_filename now reason label) content mtime hd
    rw [Function.update_self] at hthere
    cases hthere

/-- **A call is safe exactly when no dump has its name**, or when no dump can be taken at all. -/
theorem safe_iff_free (s : Snapshotter) (d : Disk) (reason : Reason) (label : String) (now : ℤ)
    (out : PgDump) : Safe d (s.snapshot d reason label now out) ↔
      s.pgDump = "" ∨ Free d (filename now reason label) := by
  constructor
  · intro hsafe
    by_contra hcon
    rw [not_or, Free] at hcon
    push Not at hcon
    obtain ⟨hs, content, mtime, hd⟩ := hcon
    exact not_safe_of_file hs hd hsafe
  · rintro (hs | hfree)
    · rw [snapshot_readOnly hs]
      exact fun _ _ content mtime hname => ⟨mtime, hname⟩
    · exact safe_of_free hfree

def taking : Snapshotter := ⟨"/backups", "/usr/bin/pg_dump"⟩

def whole : PgDump := ⟨none, "", some ([80, 71], 0)⟩

def cancelled : PgDump := ⟨some "signal: killed", "", none⟩

/-- A dump, and in the same second another that is called off. -/
theorem not_safe : ¬ ∀ (s : Snapshotter) (d : Disk) (reason : Reason) (label : String) (now : ℤ)
    (out : PgDump), Safe d (s.snapshot d reason label now out) := by
  intro h
  have hfirst : (taking.snapshot (fun _ => none) manual "v1" 0 whole).1 (filename 0 manual "v1") =
      some (.file [80, 71] 0) := by
    have hnode : (whole.run (fun _ => none) (filename 0 manual "v1")).1 (filename 0 manual "v1") =
        some (.file [80, 71] 0) := by
      rw [run_eq (by simp)]
      simp only [whole, Option.elim_some, Function.update_self]
    rw [snapshot_done (by decide) rfl hnode]
    exact hnode
  exact not_safe_of_file (by decide) hfirst
    (h taking (taking.snapshot (fun _ => none) manual "v1" 0 whole).1 manual "v1" 0 cancelled)

/-- The request that fails takes the earlier dump with it. -/
theorem handleCreateBackup_failed (hs : s.pgDump ≠ "") {version : String}
    {content : List UInt8} {mtime : ℤ}
    (hd : d (filename now manual version) = some (.file content mtime)) {e : String}
    (herr : out.err = some e) : handleCreateBackup (some s) version d now out =
      (Function.update d (filename now manual version) none, 500, none) := by
  have hfile := isDir_of_file hd
  have hrun : (out.run d (filename now manual version)).2 = some e := by rw [run_eq hfile, herr]
  simp only [handleCreateBackup, snapshot_failed hs hrun, remove_run hfile]

/-! ### Calls one after another -/

structure Call where
  reason : Reason
  label : String
  now : ℤ
  out : PgDump

def Call.target (c : Call) : String := filename c.now c.reason c.label

def Snapshotter.calls (s : Snapshotter) (d : Disk) : List Call → Disk
  | [] => d
  | c :: cs => s.calls (s.snapshot d c.reason c.label c.now c.out).1 cs

/-- No call finds a dump of its name. -/
def AllFree (s : Snapshotter) (d : Disk) : List Call → Prop
  | [] => True
  | c :: cs => Free d c.target ∧ AllFree s (s.snapshot d c.reason c.label c.now c.out).1 cs

theorem calls_unchanged {cs : List Call} (h : AllFree s d cs) : Unchanged d (s.calls d cs) := by
  induction cs generalizing d with
  | nil => exact fun _ _ _ _ hname => hname
  | cons c cs ih =>
    intro name hdump content mtime hname
    exact ih h.2 name hdump content mtime (unchanged_of_free h.1 name hdump content mtime hname)

lemma calls_append (s : Snapshotter) (d : Disk) (before after : List Call) :
    s.calls d (before ++ after) = s.calls (s.calls d before) after := by
  induction before generalizing d with
  | nil => rfl
  | cons c before ih => exact ih _

lemma AllFree.append {before after : List Call} (h : AllFree s d (before ++ after)) :
    AllFree s (s.calls d before) after := by
  induction before generalizing d with
  | nil => exact h
  | cons c before ih => exact ih h.2

lemma allFree_of_nodup {cs : List Call} (hnames : (cs.map Call.target).Nodup)
    (hfree : ∀ c ∈ cs, Free d c.target) : AllFree s d cs := by
  induction cs generalizing d with
  | nil => trivial
  | cons c cs ih =>
    rw [List.map_cons, List.nodup_cons] at hnames
    refine ⟨hfree c List.mem_cons_self, ih hnames.2 fun e he content mtime => ?_⟩
    have hne : e.target ≠ c.target := fun heq => hnames.1 (heq ▸ List.mem_map_of_mem he)
    rw [snapshot_other hne]
    exact hfree e (List.mem_cons_of_mem _ he) content mtime

/-- **Calls that share no second, reason and label** lose no dump, neither one from before nor one
that a call among them has taken. -/
theorem calls_distinct {before after : List Call}
    (hreason : ∀ c ∈ before ++ after, '_' ∉ c.reason.toList)
    (hfree : ∀ c ∈ before ++ after, Free d c.target)
    (hdistinct : (before ++ after).Pairwise fun c e => ¬ (c.now / second = e.now / second ∧
      c.reason = e.reason ∧ sanitizeLabel c.label = sanitizeLabel e.label)) :
    Unchanged (s.calls d before) (s.calls d (before ++ after)) := by
  have hnames : ((before ++ after).map Call.target).Nodup := by
    rw [List.Nodup, List.pairwise_map]
    refine List.Pairwise.imp_of_mem (fun {c e} hc he hne heq => hne ?_) hdistinct
    exact (filename_eq_iff (hreason c hc) (hreason e he)).mp heq
  have hall : AllFree s d (before ++ after) := allFree_of_nodup hnames hfree
  rw [calls_append]
  exact calls_unchanged hall.append

/-! ### The files a listing goes through -/

/-- The directory's entries are those on the disk. -/
def Lists (d : Disk) (dir : Dir) : Prop := ∀ f : File, f ∈ dir.files ↔
  ∃ node, d f.name = some node ∧ node.isDir = f.isDir ∧ node.mtime = f.mtime

lemma lists_update {dir : Dir} (h : Lists d dir) (name : String) (content : List UInt8)
    (mtime : ℤ) : Lists (Function.update d name (some (.file content mtime)))
      (dir.write name mtime) := by
  intro f
  rw [Dir.mem_write, h f]
  by_cases hname : f.name = name
  · subst hname
    simp only [Function.update_self, Option.some.injEq, exists_eq_left', ne_eq, not_true_eq_false,
      and_false, or_false, Node.isDir, Node.mtime]
    constructor
    · intro hf
      exact ⟨(congrArg File.isDir hf).symm, (congrArg File.mtime hf).symm⟩
    · rintro ⟨hdir, hmtime⟩
      rw [hdir, hmtime]
  · have hne : f ≠ ⟨name, false, mtime⟩ := fun hf => hname (congrArg File.name hf)
    simp only [Function.update_of_ne hname, hne, hname, ne_eq, not_false_eq_true, and_true,
      false_or]

lemma lists_remove {dir : Dir} (h : Lists d dir) (name : String) :
    Lists (Function.update d name none) (dir.remove name) := by
  intro f
  rw [Dir.mem_remove, h f]
  by_cases hname : f.name = name
  · subst hname
    simp
  · simp only [Function.update_of_ne hname, hname, ne_eq, not_false_eq_true, and_true]

/-- Where no folder has the name, a call does to the entries what it does to the files. -/
theorem snapshot_lists {dir : Dir} (h : Lists d dir) (hs : s.pgDump ≠ "")
    (hfile : ∀ node ∈ d (filename now reason label), node.isDir = false) :
    (∀ e, out.err = some e → Lists (s.snapshot d reason label now out).1
      (Backup.snapshot dir reason label now none).1) ∧
    ∀ content mtime, out.err = none → out.wrote = some (content, mtime) →
      Lists (s.snapshot d reason label now out).1
        (Backup.snapshot dir reason label now (some mtime)).1 := by
  have hrun : (out.run d (filename now reason label)).2 = out.err := by rw [run_eq hfile]
  constructor
  · intro e herr
    rw [snapshot_failed hs (hrun.trans herr), remove_run hfile]
    simp only [Backup.snapshot]
    exact lists_remove h (filename now reason label)
  · intro content mtime herr hwrote
    have hafter : (out.run d (filename now reason label)).1 =
        Function.update d (filename now reason label) (some (.file content mtime)) := by
      rw [run_eq hfile, hwrote, Option.elim_some]
    have hnode : (out.run d (filename now reason label)).1 (filename now reason label) =
        some (.file content mtime) := by rw [hafter, Function.update_self]
    rw [snapshot_done hs (hrun.trans herr) hnode, hafter]
    simp only [Backup.snapshot]
    exact lists_update h (filename now reason label) content mtime

end Veckomenyn.SameSecond
