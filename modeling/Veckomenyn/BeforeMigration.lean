import Veckomenyn.Numerals
import Veckomenyn.Retention

/-!
The dump that is taken before the database is migrated.

The dumps of earlier migrations are pruned right after it. Pruning goes by the times of the files,
so a file with a later time counts as newer than the dump that has just been taken.
-/

namespace Veckomenyn.BeforeMigration

open Backup Numerals Retention

/-! ### The code -/

def envOrInt (v : String) (default : ℤ) : ℤ :=
  if v = "" then default
  else match atoi v.toList with
    | none => default
    | some n => if n ≤ 0 then default else n

/-- The variables that are read, empty when they are not set. -/
structure Env where
  skipPremigrationBackup : String
  premigrationBackupKeep : String

def Env.keep (env : Env) : ℤ := envOrInt env.premigrationBackupKeep 10

/-- `Snapshot`, which fails at once when dumps can only be read; `made` is the file's time or what
`pg_dump` fails with. -/
def take (canWrite : Bool) (dir : Dir) (version : String) (start : ℤ) (made : Except String ℤ) :
    Dir × Except String Snapshot :=
  if !canWrite then (dir, .error "snapshotter opened read-only; use New() to take backups")
  else match made with
    | .error e => ((snapshot dir preMigration version start none).1, .error e)
    | .ok mtime => ((snapshot dir preMigration version start (some mtime)).1,
        .ok ⟨filename start preMigration version, preMigration, version, mtime⟩)

variable (o : Newest) (env : Env) (unread : Bool) (stuck : List String)

/-- `snap` tells whether dumps can be taken, when there is a place for them. The answer has the dump
that was taken, if any. Pruning is given up when the directory is `unread`. -/
def preMigrationBackup (pending : Except String ℕ) (snap : Option Bool) (dir : Dir)
    (version : String) (start : ℤ) (made : Except String ℤ) :
    Dir × Except String (Option Snapshot) :=
  match pending with
  | .error e => (dir, .error e)
  | .ok n =>
    if n = 0 then (dir, .ok none)
    else match snap with
      | none => (dir, .ok none)
      | some canWrite =>
        match take canWrite dir version start made with
        | (dir', .error e) =>
          if env.skipPremigrationBackup = "1" then (dir', .ok none) else (dir', .error e)
        | (dir', .ok s) =>
          (if unread then dir' else (prune o stuck dir' preMigration env.keep).2, .ok (some s))

lemma envOrInt_pos (v : String) {default : ℤ} (h : 0 < default) : 0 < envOrInt v default := by
  unfold envOrInt
  split_ifs
  · exact h
  split
  · exact h
  · split_ifs <;> omega

lemma Env.keep_pos (env : Env) : 0 < env.keep := envOrInt_pos _ (by decide)

/-! ### Which dumps go -/

section List

variable {α : Type*} {l a b : List α} {x : α} {p : α → Bool}

lemma takeWhile_of_stop (ha : ¬ ∀ y ∈ a, p y = true) (b : List α) :
    (a ++ b).takeWhile p = a.takeWhile p := by
  induction a with
  | nil => exact absurd (by simp) ha
  | cons y a ih =>
    rw [List.cons_append, List.takeWhile_cons, List.takeWhile_cons]
    split_ifs with hy
    · rw [ih fun h => ha fun z hz => ?_]
      rcases List.mem_cons.mp hz with rfl | hz
      · exact hy
      · exact h z hz
    · rfl

/-- An element that is there once is taken when all before it are. -/
lemma mem_takeWhile_drop (hx : x ∉ a ++ b) (k : ℕ) :
    x ∈ ((a ++ x :: b).drop k).takeWhile p ↔
      k ≤ a.length ∧ p x = true ∧ ∀ y ∈ a.drop k, p y = true := by
  rw [List.mem_append, not_or] at hx
  rcases le_or_gt k a.length with hk | hk
  · rw [List.drop_append_of_le_length hk]
    by_cases hall : ∀ y ∈ a.drop k, p y = true
    · rw [List.takeWhile_append_of_pos hall, List.mem_append, List.takeWhile_cons]
      have hdrop : x ∉ a.drop k := fun h => hx.1 (List.mem_of_mem_drop h)
      split_ifs with hp
      · simpa [hk, hp] using hall
      · simp [hdrop, hp]
    · rw [takeWhile_of_stop hall]
      refine iff_of_false (fun h => hx.1 ?_) fun h => hall h.2.2
      exact List.mem_of_mem_drop ((List.takeWhile_prefix p).subset h)
  · refine iff_of_false (fun h => hx.2 ?_) fun h => by omega
    have hdrop : (a ++ x :: b).drop k = b.drop (k - a.length - 1) := by
      rw [List.drop_append, List.drop_eq_nil_of_le (by omega), List.nil_append,
        show k - a.length = k - a.length - 1 + 1 by omega, List.drop_succ_cons]
      simp
    rw [hdrop] at h
    exact List.mem_of_mem_drop ((List.takeWhile_prefix p).subset h)

end List

variable {o} {stuck}

lemma removeAll_names (removed : List String) (dir : Dir) (ss : List Snapshot) :
    (removeAll stuck removed dir ss).1.1 =
      removed ++ (ss.map Snapshot.filename).takeWhile fun name => name ∉ stuck := by
  induction ss generalizing removed dir with
  | nil => simp [removeAll]
  | cons s ss ih =>
    rw [removeAll, List.map_cons, List.takeWhile_cons]
    split_ifs with hstuck h h
    · simp [hstuck] at h
    · simp
    · rw [ih, List.append_assoc, List.singleton_append]
    · simp [hstuck] at h

variable (o) in
/-- The dumps that are listed ahead of one. -/
def ahead (dir : Dir) (reason : Reason) (name : String) : List String :=
  ((ofReason o dir reason).map Snapshot.filename).takeWhile (· ≠ name)

variable (o stuck) in
/-- The dump is among the first ones, or the loop comes to a stop before it is removed. -/
def Passed (dir : Dir) (reason : Reason) (keep : ℤ) (name : String) : Prop :=
  (ahead o dir reason name).length < keep ∨ name ∈ stuck ∨
    ∃ other ∈ (ahead o dir reason name).drop keep.toNat, other ∈ stuck

section Listed

variable {dir : Dir} {reason : Reason} {name : String}

lemma exists_behind (h : name ∈ (ofReason o dir reason).map Snapshot.filename) :
    ∃ behind, (ofReason o dir reason).map Snapshot.filename =
      ahead o dir reason name ++ name :: behind ∧ name ∉ ahead o dir reason name ++ behind := by
  have hnodup := ofReason_nodup o dir reason
  unfold ahead
  generalize (ofReason o dir reason).map Snapshot.filename = names at h hnodup ⊢
  obtain ⟨front, behind, rfl⟩ := List.append_of_mem h
  have honce := List.nodup_middle.mp hnodup
  have hfront : ∀ other ∈ front, (decide (other ≠ name)) = true := by
    intro other hother
    rw [decide_eq_true_iff]
    rintro rfl
    exact (List.nodup_cons.mp honce).1 (List.mem_append_left behind hother)
  refine ⟨behind, ?_, ?_⟩ <;> rw [List.takeWhile_append_of_pos hfront, List.takeWhile_cons]
  · simp
  · simpa using (List.nodup_cons.mp honce).1

/-- Pruning removes a dump that is there when it gets as far. -/
lemma mem_prune_iff {keep : ℤ} (hk : 0 < keep)
    (h : name ∈ (ofReason o dir reason).map Snapshot.filename) :
    name ∈ (prune o stuck dir reason keep).1.1 ↔ ¬ Passed o stuck dir reason keep name := by
  obtain ⟨behind, heq, honce⟩ := exists_behind h
  rw [prune_eq o stuck dir reason hk, removeAll_names, List.nil_append, List.map_drop, heq,
    mem_takeWhile_drop honce, Passed]
  simp only [decide_eq_true_iff, not_or, not_exists, not_and, not_lt]
  exact and_congr (by omega) Iff.rfl

/-- A file is there after pruning when its name is not among those that went. -/
lemma name_mem_prune {keep : ℤ} (hk : 0 < keep) {f : File} (hf : f ∈ dir.files) :
    f.name ∈ (prune o stuck dir reason keep).2.files.map File.name ↔
      f.name ∉ (prune o stuck dir reason keep).1.1 := by
  rw [(pruned o dir reason stuck hk).untouched, List.mem_map]
  constructor
  · rintro ⟨g, hg, hname⟩
    rw [List.mem_filter, decide_eq_true_iff] at hg
    exact hname ▸ hg.2
  · intro hname
    exact ⟨f, List.mem_filter.mpr ⟨hf, decide_eq_true hname⟩, rfl⟩

variable (o) in
/-- The other dumps of a later time are listed ahead of a dump, and those of an earlier one are
not. -/
lemma ahead_times {f : File} (hf : f ∈ dir.files) (hof : isOf reason f = true) :
    (∀ g ∈ dir.files, isOf reason g = true → f.mtime < g.mtime →
      g.name ∈ ahead o dir reason f.name) ∧
    ∀ g ∈ dir.files, g.name ∈ ahead o dir reason f.name → f.mtime ≤ g.mtime := by
  obtain ⟨s, hs, hname, hcreated⟩ := exists_snapshot (o := o) hf hof
  obtain ⟨behind, heq, honce⟩ := exists_behind (List.mem_map.mpr ⟨s, hs, hname⟩)
  rw [List.map_eq_append_iff] at heq
  obtain ⟨front, rest, heq, hfront, hrest⟩ := heq
  rw [List.map_eq_cons_iff] at hrest
  obtain ⟨t, rest, rfl, ht, rfl⟩ := hrest
  have hall : ∀ u ∈ front ++ t :: rest, u ∈ ofReason o dir reason := fun u hu => heq ▸ hu
  have hmem : t ∈ front ++ t :: rest := List.mem_append_right _ List.mem_cons_self
  have hlisted : f.name ∈ [t].map Snapshot.filename := by simp [ht]
  have hts : t.createdAt = f.mtime := by
    obtain ⟨-, u, hu, -, hucreated⟩ :=
      exists_of_name (fun u hu => hall u (List.mem_singleton.mp hu ▸ hmem)) hf hlisted
    rw [← hucreated, List.mem_singleton.mp hu]
  have hsorted := ofReason_sorted o dir reason
  rw [heq, List.pairwise_append, List.pairwise_cons] at hsorted
  obtain ⟨-, ⟨hrest, -⟩, hbefore⟩ := hsorted
  constructor
  · intro g hg hgof hlt
    obtain ⟨u, hu, huname, hucreated⟩ := exists_snapshot (o := o) hg hgof
    rw [heq, List.mem_append, List.mem_cons] at hu
    rcases hu with hu | rfl | hu
    · rw [← hfront, ← huname]
      exact List.mem_map_of_mem hu
    · omega
    · have := hrest u hu
      omega
  · intro g hg hgname
    rw [← hfront] at hgname
    obtain ⟨-, u, hu, -, hucreated⟩ :=
      exists_of_name (fun u hu => hall u (List.mem_append_left _ hu)) hg hgname
    have := hbefore u hu t List.mem_cons_self
    omega

end Listed

/-! ### The dump that has just been taken -/

section Taken

variable {env : Env} {unread : Bool} {pending : Except String ℕ} {snap : Option Bool} {dir : Dir}
  {version : String} {start mtime : ℤ} {made : Except String ℤ} {s : Snapshot}

variable (dir version start mtime) in
/-- The directory with the dump that has just been taken in it. -/
def withDump : Dir := (snapshot dir preMigration version start (some mtime)).1

lemma mem_withDump : ⟨filename start preMigration version, false, mtime⟩ ∈
    (withDump dir version start mtime).files := Dir.mem_write.mpr (.inl rfl)

lemma isOf_dump :
    isOf preMigration ⟨filename start preMigration version, false, mtime⟩ = true := by
  rw [isOf_filename (by decide), decide_eq_true_iff]

lemma filename_mem_ofReason : filename start preMigration version ∈
    (ofReason o (withDump dir version start mtime) preMigration).map Snapshot.filename :=
  mem_names.mp (List.mem_map.mpr ⟨_, List.mem_filter.mpr ⟨mem_withDump, isOf_dump⟩, rfl⟩)

lemma name_mem_pruned : filename start preMigration version ∈
    (prune o stuck (withDump dir version start mtime) preMigration env.keep).2.files.map
      File.name ↔ Passed o stuck (withDump dir version start mtime) preMigration env.keep
        (filename start preMigration version) := by
  have hkeep := env.keep_pos
  have hfile : ⟨filename start preMigration version, false, mtime⟩ ∈
      (withDump dir version start mtime).files := mem_withDump
  rw [name_mem_prune hkeep hfile, mem_prune_iff hkeep filename_mem_ofReason, not_not]

lemma preMigrationBackup_taken
    (h : (preMigrationBackup o env unread stuck pending snap dir version start made).2 =
      .ok (some s)) :
    ∃ mtime, made = .ok mtime ∧
      (preMigrationBackup o env unread stuck pending snap dir version start made).1 =
        if unread then withDump dir version start mtime
        else (prune o stuck (withDump dir version start mtime) preMigration env.keep).2 := by
  rcases pending with e | n
  · cases h
  by_cases hn : n = 0
  · simp [preMigrationBackup, hn] at h
  rcases snap with _ | _ | _
  · simp [preMigrationBackup, hn] at h
  · simp only [preMigrationBackup, hn, take, Bool.not_false, if_true, if_false] at h
    split_ifs at h
    cases h
  rcases made with e | mtime
  · simp only [preMigrationBackup, hn, take, Bool.not_true, Bool.false_eq_true, if_false] at h
    split_ifs at h
    cases h
  · refine ⟨mtime, rfl, ?_⟩
    simp only [preMigrationBackup, hn, take, Bool.not_true, Bool.false_eq_true, if_false]
    rfl

/-- **The dump before a migration**: a dump that was taken is there when the migrations begin if and
only if pruning has passed over it. -/
theorem taken_stays_iff
    (h : (preMigrationBackup o env unread stuck pending snap dir version start made).2 =
      .ok (some s)) :
    ∃ mtime, made = .ok mtime ∧
      (filename start preMigration version ∈ (preMigrationBackup o env unread stuck pending snap
          dir version start made).1.files.map File.name ↔
        unread = true ∨ Passed o stuck (withDump dir version start mtime) preMigration env.keep
          (filename start preMigration version)) := by
  obtain ⟨mtime, hmade, hdir⟩ := preMigrationBackup_taken h
  refine ⟨mtime, hmade, ?_⟩
  rw [hdir]
  split_ifs with hunread
  · simp only [hunread, true_or, iff_true]
    exact List.mem_map.mpr ⟨_, mem_withDump, rfl⟩
  · simp only [name_mem_pruned, hunread, Bool.false_eq_true, false_or]

end Taken

/-- A dump whose time is after the one that is to be taken. -/
def fromTomorrow : Dir where
  files := [⟨"20260425T100000Z_pre-migration_0.2.0.dump", false, 2000000000⟩]
  nodup := by decide

def keepOne : Env := ⟨"", "1"⟩

lemma keepOne_keep : keepOne.keep = 1 := by decide

lemma backup_fromTomorrow : (preMigrationBackup stable keepOne false [] (.ok 2) (some true)
    fromTomorrow "0.3.0" 1800000000 (.ok 1800000005)).2 = .ok (some
      ⟨filename 1800000000 preMigration "0.3.0", preMigration, "0.3.0", 1800000005⟩) := rfl

theorem taken_stays_iff_fromTomorrow :
    filename 1800000000 preMigration "0.3.0" ∈ (preMigrationBackup stable keepOne false [] (.ok 2)
        (some true) fromTomorrow "0.3.0" 1800000000 (.ok 1800000005)).1.files.map File.name ↔
      Passed stable [] (withDump fromTomorrow "0.3.0" 1800000000 1800000005) preMigration
        keepOne.keep (filename 1800000000 preMigration "0.3.0") := by
  obtain ⟨mtime, hmade, h⟩ := taken_stays_iff backup_fromTomorrow
  cases hmade
  simpa using h

/-- The dump that has just been taken goes, and the one from tomorrow stays. -/
theorem not_taken_stays : ¬ ∀ (o : Newest) (env : Env) (unread : Bool) (stuck : List String)
    (pending : Except String ℕ) (snap : Option Bool) (dir : Dir) (version : String) (start : ℤ)
    (made : Except String ℤ) (s : Snapshot),
    (preMigrationBackup o env unread stuck pending snap dir version start made).2 = .ok (some s) →
    s.filename ∈ (preMigrationBackup o env unread stuck pending snap dir version start
      made).1.files.map File.name := by
  intro h
  have hthere := h stable keepOne false [] (.ok 2) (some true) fromTomorrow "0.3.0" 1800000000
    (.ok 1800000005) _ backup_fromTomorrow
  obtain ⟨mtime, hmade, hdir⟩ := preMigrationBackup_taken backup_fromTomorrow
  cases hmade
  simp only [hdir, Bool.false_eq_true, if_false] at hthere
  have hpassed := name_mem_pruned.mp hthere
  have hother : ⟨"20260425T100000Z_pre-migration_0.2.0.dump", false, 2000000000⟩ ∈
      (withDump fromTomorrow "0.3.0" 1800000000 1800000005).files :=
    Dir.mem_write.mpr (.inr ⟨List.mem_singleton_self _, by decide⟩)
  have hahead := (ahead_times stable mem_withDump isOf_dump).1 _ hother (by decide) (by decide)
  have hlen : 0 < (ahead stable (withDump fromTomorrow "0.3.0" 1800000000 1800000005) preMigration
      (filename 1800000000 preMigration "0.3.0")).length := List.length_pos_of_mem hahead
  simp only [Passed, keepOne_keep, List.not_mem_nil, and_false, exists_false, or_false] at hpassed
  omega

end Veckomenyn.BeforeMigration
