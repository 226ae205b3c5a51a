import Mathlib.Data.List.Nodup
import Mathlib.Data.List.Sort
import Veckomenyn.DateText

/-!
The dumps in the backup directory.

The reason for a dump is a part of its file's name, between the time and the label. Times
are nanoseconds from 0001-01-01. `sort.Slice` may put dumps of one time in any order.
-/

namespace Veckomenyn.Backup

open Calendar DateText

abbrev Reason := String

def preMigration : Reason := "pre-migration"

def manual : Reason := "manual"

def nightly : Reason := "nightly"

/-! ### Names -/

def second : ℤ := 1000000000

def hour : ℤ := 3600 * second

/-- Four digits or more, after a minus for a year before year `0`. -/
def longYear (y : ℤ) : List Char := if y < 0 then '-' :: pad 4 y.natAbs else pad 4 y.toNat

/-- `Format("20060102T150405Z")`. -/
def stamp (t : ℤ) : List Char :=
  let day := t / (24 * hour)
  let s := t % (24 * hour) / second
  longYear (year day) ++ pad 2 (month day).toNat ++ pad 2 (monthDay day).toNat ++ ['T'] ++
    pad 2 (s / 3600).toNat ++ pad 2 (s / 60 % 60).toNat ++ pad 2 (s % 60).toNat ++ ['Z']

/-- `strings.ToLower`, as far as its results are kept: two characters outside of ASCII have a small
letter in it. -/
def lower (c : Char) : Char :=
  if c = '\u0130' then 'i' else if c = '\u212A' then 'k' else c.toLower

def sanitizeLabel (label : String) : String :=
  let out := label.toList.map fun c =>
    let r := lower c
    if 'a' ≤ r ∧ r ≤ 'z' ∨ '0' ≤ r ∧ r ≤ '9' ∨ r = '-' ∨ r = '.' then r else '-'
  if out = [] then "untagged" else String.ofList out

def dump : List Char := ".dump".toList

def filename (t : ℤ) (reason : Reason) (label : String) : String :=
  String.ofList (stamp t ++ '_' :: (reason.toList ++ '_' :: ((sanitizeLabel label).toList ++ dump)))

def isDump (name : String) : Bool := dump <:+ name.toList

/-- `strings.TrimSuffix(name, ".dump")`. -/
def trimDump (name : String) : List Char :=
  if isDump name then name.toList.take (name.toList.length - 5) else name.toList

/-- The text up to the first underscore, and what follows it. -/
def cut (cs : List Char) : List Char × List Char :=
  (cs.takeWhile (· ≠ '_'), (cs.dropWhile (· ≠ '_')).drop 1)

/-- The second and the third of up to three parts. -/
def parseFilename (name : String) : Reason × String :=
  let rest := (cut (trimDump name)).2
  (String.ofList (cut rest).1, String.ofList (cut rest).2)

/-! ### The directory -/

structure File where
  name : String
  isDir : Bool
  mtime : ℤ
deriving DecidableEq, Repr

structure Dir where
  files : List File
  nodup : (files.map File.name).Nodup

namespace Dir

def remove (d : Dir) (name : String) : Dir where
  files := d.files.filter fun f => f.name ≠ name
  nodup := d.nodup.sublist ((List.filter_sublist).map _)

def write (d : Dir) (name : String) (mtime : ℤ) : Dir where
  files := (d.remove name).files ++ [⟨name, false, mtime⟩]
  nodup := by
    rw [List.map_append, List.map_singleton]
    refine List.nodup_append.mpr ⟨(d.remove name).nodup, List.nodup_singleton _, ?_⟩
    intro a ha b hb hab
    obtain ⟨f, hf, rfl⟩ := List.mem_map.mp ha
    have hne : f.name ≠ name := by simpa using (List.mem_filter.mp hf).2
    exact hne (hab.trans (List.mem_singleton.mp hb))

lemma mem_remove {d : Dir} {name : String} {f : File} :
    f ∈ (d.remove name).files ↔ f ∈ d.files ∧ f.name ≠ name := by
  simp [remove]

lemma mem_write {d : Dir} {name : String} {mtime : ℤ} {f : File} :
    f ∈ (d.write name mtime).files ↔
      f = ⟨name, false, mtime⟩ ∨ f ∈ d.files ∧ f.name ≠ name := by
  rw [write, List.mem_append, List.mem_singleton, mem_remove, or_comm]

end Dir

/-! ### Snapshots -/

structure Snapshot where
  filename : String
  reason : Reason
  label : String
  createdAt : ℤ
deriving DecidableEq, Repr

/-- A `Snapshot` call that has begun at `start`; `made` is the time of the file `pg_dump` leaves,
if it succeeds. -/
def snapshot (dir : Dir) (reason : Reason) (label : String) (start : ℤ) (made : Option ℤ) :
    Dir × Option Snapshot :=
  let name := filename start reason label
  match made with
  | none => (dir.remove name, none)
  | some mtime => (dir.write name mtime, some ⟨name, reason, label, mtime⟩)

def listed (f : File) : Option Snapshot :=
  if f.isDir || !isDump f.name then none
  else
    let (reason, label) := parseFilename f.name
    some ⟨f.name, reason, label, f.mtime⟩

/-- `sort.Slice` with the newest first. -/
structure Newest where
  sort : List Snapshot → List Snapshot
  perm (l : List Snapshot) : (sort l).Perm l
  sorted (l : List Snapshot) : (sort l).Pairwise fun a b => b.createdAt ≤ a.createdAt

variable (o : Newest)

def list (dir : Dir) : List Snapshot := o.sort (dir.files.filterMap listed)

inductive PruneError where
  | keep (n : ℤ)
  | remove (filename : String)
deriving DecidableEq, Repr

/-- The loop that removes dumps; `os.Remove` fails on the files `stuck`. -/
def removeAll (stuck : List String) (removed : List String) (dir : Dir) :
    List Snapshot → (List String × Option PruneError) × Dir
  | [] => ((removed, none), dir)
  | s :: ss =>
    if s.filename ∈ stuck then ((removed, some (.remove s.filename)), dir)
    else removeAll stuck (removed ++ [s.filename]) (dir.remove s.filename) ss

def prune (stuck : List String) (dir : Dir) (reason : Reason) (keep : ℤ) :
    (List String × Option PruneError) × Dir :=
  if keep ≤ 0 then (([], some (.keep keep)), dir)
  else
    let ofReason := (list o dir).filter fun s => s.reason = reason
    if (ofReason.length : ℤ) ≤ keep then (([], none), dir)
    else removeAll stuck [] dir (ofReason.drop keep.toNat)

/-- A listing that leaves dumps of one time in the order of the directory. -/
def stable : Newest where
  sort := List.insertionSort fun a b => b.createdAt ≤ a.createdAt
  perm := List.perm_insertionSort _
  sorted l := by
    have : Std.Total fun a b : Snapshot => b.createdAt ≤ a.createdAt := ⟨fun a b => le_total _ _⟩
    have : IsTrans Snapshot fun a b => b.createdAt ≤ a.createdAt :=
      ⟨fun a b c h h' => le_trans h' h⟩
    exact List.pairwise_insertionSort _ l

/-! ### The reason a name tells -/

lemma notMem_pad {c : Char} (hc : c.isDigit = false) {k n : ℕ} : c ∉ pad k n := fun h => by
  have hdigit := List.all_eq_true.mp (pad_digits k n) _ h
  rw [hc] at hdigit
  cases hdigit

/-- A stamp is of digits, two letters and perhaps a minus. -/
lemma notMem_stamp {c : Char} (hc : c.isDigit = false) (hne : c ∉ ['-', 'T', 'Z']) (t : ℤ) :
    c ∉ stamp t := by
  simp only [List.mem_cons, List.not_mem_nil, or_false, not_or] at hne
  have hyear (y : ℤ) : c ∉ longYear y := by
    unfold longYear
    split_ifs
    · exact List.not_mem_cons_of_ne_of_not_mem hne.1 (notMem_pad hc)
    · exact notMem_pad hc
  simp only [stamp, List.mem_append, List.mem_singleton, hyear, notMem_pad hc, hne.2.1, hne.2.2,
    or_self, not_false_eq_true]

lemma cut_append {a b : List Char} (h : '_' ∉ a) : cut (a ++ '_' :: b) = (a, b) := by
  have hall : ∀ c ∈ a, (decide (c ≠ '_')) = true := fun c hc => by
    rw [decide_eq_true_iff]
    rintro rfl
    exact h hc
  rw [cut, List.takeWhile_append_of_pos hall, List.dropWhile_append_of_pos hall]
  simp

lemma isDump_filename (t : ℤ) (reason : Reason) (label : String) :
    isDump (filename t reason label) = true := by
  rw [isDump, filename, String.toList_ofList, decide_eq_true_iff]
  exact ⟨stamp t ++ '_' :: (reason.toList ++ '_' :: (sanitizeLabel label).toList), by simp⟩

lemma trimDump_filename (t : ℤ) (reason : Reason) (label : String) :
    trimDump (filename t reason label) =
      stamp t ++ '_' :: (reason.toList ++ '_' :: (sanitizeLabel label).toList) := by
  rw [trimDump, if_pos (isDump_filename t reason label), filename, String.toList_ofList]
  have hd : dump.length = 5 := by decide
  have : stamp t ++ '_' :: (reason.toList ++ '_' :: ((sanitizeLabel label).toList ++ dump)) =
      stamp t ++ '_' :: (reason.toList ++ '_' :: (sanitizeLabel label).toList) ++ dump := by simp
  rw [this, List.length_append, hd, Nat.add_sub_cancel, List.take_left]

/-- **Round trip**: a name tells the reason and the label it was made of. -/
theorem parseFilename_filename (t : ℤ) {reason : Reason} (label : String)
    (h : '_' ∉ reason.toList) :
    parseFilename (filename t reason label) = (reason, sanitizeLabel label) := by
  have hstamp : '_' ∉ stamp t := notMem_stamp (by decide) (by decide) t
  rw [parseFilename, trimDump_filename, cut_append hstamp, cut_append h]
  simp

example : parseFilename "20260420T031500Z_pre-migration_v1.2.dump" = ("pre-migration", "v1.2") := by
  decide

/-! ### Dumps of one name -/

lemma pad_injective (k : ℕ) : Function.Injective (pad k) := fun m n h => by
  simpa only [pad_value] using congrArg (Nat.ofDigitChars 10 · 0) h

lemma longYear_injective : Function.Injective longYear := by
  intro y y' h
  have hsign (n : ℕ) (cs : List Char) : pad 4 n ≠ '-' :: cs := fun hp =>
    notMem_pad (show '-'.isDigit = false by decide) (hp ▸ List.mem_cons_self)
  unfold longYear at h
  split_ifs at h
  · have := pad_injective 4 (List.cons.inj h).2
    omega
  · exact absurd h.symm (hsign _ _)
  · exact absurd h (hsign _ _)
  · have := pad_injective 4 h
    omega

lemma append_pad_inj {xs ys : List Char} {m n : ℕ} (hm : m < 10 ^ 2) (hn : n < 10 ^ 2)
    (h : xs ++ pad 2 m = ys ++ pad 2 n) : xs = ys ∧ m = n := by
  have hlen : (pad 2 m).length = (pad 2 n).length := by
    rw [pad_length (by decide) hm, pad_length (by decide) hn]
  obtain ⟨hxs, hpad⟩ := List.append_inj' h hlen
  exact ⟨hxs, pad_injective 2 hpad⟩

lemma ymd_injective {a b : ℤ} (hyear : year a = year b)
    (hmonth : (month a).toNat = (month b).toNat)
    (hday : (monthDay a).toNat = (monthDay b).toNat) : a = b := by
  obtain ⟨hma, -, hka, -⟩ := valid_ymd a
  obtain ⟨hmb, -, hkb, -⟩ := valid_ymd b
  have hm : month a = month b := by omega
  have hk : monthDay a = monthDay b := by omega
  rw [← ofYmd_ymd a, hyear, hm, hk, ofYmd_ymd]

lemma clock_injective {x y : ℤ} (hx : 0 ≤ x) (hy : 0 ≤ y)
    (hhour : (x / 3600).toNat = (y / 3600).toNat)
    (hmin : (x / 60 % 60).toNat = (y / 60 % 60).toNat)
    (hsec : (x % 60).toNat = (y % 60).toNat) : x = y := by
  have hhour' : x / 3600 = y / 3600 := by omega
  have hmin' : x / 60 % 60 = y / 60 % 60 := by omega
  omega

/-- A stamp tells the second. -/
lemma stamp_eq_iff {t u : ℤ} : stamp t = stamp u ↔ t / second = u / second := by
  have hparts (t : ℤ) : t / (24 * hour) = t / second / 86400 ∧
      t % (24 * hour) / second = t / second % 86400 := by
    unfold hour second
    omega
  constructor
  · intro h
    simp only [stamp, (hparts t).1, (hparts t).2, (hparts u).1, (hparts u).2] at h
    generalize t / second = q at h ⊢
    generalize u / second = r at h ⊢
    obtain ⟨h, -⟩ := List.append_inj' h rfl
    obtain ⟨h, hsec⟩ := append_pad_inj (by omega) (by omega) h
    obtain ⟨h, hmin⟩ := append_pad_inj (by omega) (by omega) h
    obtain ⟨h, hhour⟩ := append_pad_inj (by omega) (by omega) h
    obtain ⟨h, -⟩ := List.append_inj' h rfl
    obtain ⟨h, hday⟩ := append_pad_inj (month_lt _).2 (month_lt _).2 h
    obtain ⟨h, hmonth⟩ := append_pad_inj (month_lt _).1 (month_lt _).1 h
    have hdate : q / 86400 = r / 86400 :=
      ymd_injective (longYear_injective h) hmonth hday
    have htime : q % 86400 = r % 86400 := clock_injective (Int.emod_nonneg _ (by decide))
      (Int.emod_nonneg _ (by decide)) hhour hmin hsec
    rw [← Int.mul_ediv_add_emod q 86400, hdate, htime, Int.mul_ediv_add_emod]
  · intro h
    simp only [stamp, (hparts t).1, (hparts t).2, (hparts u).1, (hparts u).2, h]

/-- Two dumps have one name when their second, reason and label are the same. -/
theorem filename_eq_iff {t u : ℤ} {reason reason' : Reason} {label label' : String}
    (h : '_' ∉ reason.toList) (h' : '_' ∉ reason'.toList) :
    filename t reason label = filename u reason' label' ↔
      t / second = u / second ∧ reason = reason' ∧ sanitizeLabel label = sanitizeLabel label' := by
  have hstamp (t : ℤ) : '_' ∉ stamp t := notMem_stamp (by decide) (by decide) t
  constructor
  · intro heq
    have hcut := congrArg (fun name => cut (trimDump name)) heq
    simp only [trimDump_filename, cut_append (hstamp _), Prod.mk.injEq] at hcut
    have hrest := congrArg cut hcut.2
    simp only [cut_append h, cut_append h', Prod.mk.injEq, String.toList_inj] at hrest
    exact ⟨stamp_eq_iff.mp hcut.1, hrest⟩
  · rintro ⟨ht, rfl, hlabel⟩
    rw [filename, filename, stamp_eq_iff.mpr ht, hlabel]

end Veckomenyn.Backup
