import Veckomenyn.Backup

/-!
Which dumps are removed.

A dump belongs to the reason in its name. Pruning goes through the dumps of a reason from the
newest to the oldest, passes over the first few and removes the others, until one of them cannot
be removed.
-/

namespace Veckomenyn.Retention

open Backup

/-! ### Names -/

lemma sanitizeLabel_clean (label : String) {c : Char} (hc : c ∈ (sanitizeLabel label).toList) :
    'a' ≤ c ∧ c ≤ 'z' ∨ '0' ≤ c ∧ c ≤ '9' ∨ c = '-' ∨ c = '.' := by
  unfold sanitizeLabel at hc
  simp only at hc
  split_ifs at hc with hempty
  · have huntagged : "untagged".toList = ['u', 'n', 't', 'a', 'g', 'g', 'e', 'd'] := rfl
    simp only [huntagged, List.mem_cons, List.not_mem_nil, or_false] at hc
    left
    rcases hc with rfl | rfl | rfl | rfl | rfl | rfl | rfl | rfl <;> decide
  · rw [String.toList_ofList] at hc
    obtain ⟨r, -, rfl⟩ := List.mem_map.mp hc
    split_ifs with hr
    · exact hr
    · exact .inr (.inr (.inl rfl))

/-- A name has a separator in it only if its reason has. -/
lemma slash_notMem_filename (t : ℤ) {reason : Reason} (label : String)
    (h : '/' ∉ reason.toList) : '/' ∉ (filename t reason label).toList := by
  have hstamp : '/' ∉ stamp t := notMem_stamp (by decide) (by decide) t
  have hlabel : '/' ∉ (sanitizeLabel label).toList := fun hc =>
    absurd (sanitizeLabel_clean label hc) (by decide)
  have hdump : '/' ∉ dump := by decide
  rw [filename, String.toList_ofList]
  simp only [List.mem_append, List.mem_cons, hstamp, h, hlabel, hdump, or_false, false_or, not_or]
  decide

lemma listed_filename (t : ℤ) {reason : Reason} (label : String) (mtime : ℤ)
    (h : '_' ∉ reason.toList) : listed ⟨filename t reason label, false, mtime⟩ =
      some ⟨filename t reason label, reason, sanitizeLabel label, mtime⟩ := by
  rw [listed]
  simp only [isDump_filename, parseFilename_filename t label h, Bool.not_true, Bool.or_self,
    Bool.false_eq_true, if_false]

/-! ### The files of a listing -/

section Listing

variable (o : Newest)

lemma listed_some {f : File} {s : Snapshot} (h : listed f = some s) :
    s.filename = f.name ∧ s.createdAt = f.mtime ∧ s.reason = (parseFilename f.name).1 := by
  rw [listed] at h
  split_ifs at h
  cases h
  exact ⟨rfl, rfl, rfl⟩

lemma mem_list {dir : Dir} {s : Snapshot} :
    s ∈ list o dir ↔ ∃ f ∈ dir.files, listed f = some s := by
  rw [list, (o.perm _).mem_iff, List.mem_filterMap]

lemma nodup_list (dir : Dir) : ((list o dir).map Snapshot.filename).Nodup := by
  have hsub : ∀ fs : List File,
      ((fs.filterMap listed).map Snapshot.filename).Sublist (fs.map File.name) := by
    intro fs
    induction fs with
    | nil => exact List.Sublist.refl _
    | cons f fs ih =>
      rcases hf : listed f with _ | s
      · rw [List.filterMap_cons_none hf]
        exact ih.cons _
      · rw [List.filterMap_cons_some hf, List.map_cons, List.map_cons, (listed_some hf).1]
        exact ih.cons_cons _
  have hperm := (o.perm (dir.files.filterMap listed)).map Snapshot.filename
  exact hperm.nodup_iff.mpr (dir.nodup.sublist (hsub dir.files))

/-- A file is told by its name. -/
lemma eq_of_name {dir : Dir} {f g : File} (hf : f ∈ dir.files) (hg : g ∈ dir.files)
    (h : f.name = g.name) : f = g :=
  List.inj_on_of_nodup_map dir.nodup hf hg h

end Listing

/-! ### The dumps of a reason -/

/-- A `.dump` file whose name tells the reason. -/
def isOf (reason : Reason) (f : File) : Bool := (listed f).any fun s => s.reason = reason

lemma isOf_iff {reason : Reason} {f : File} : isOf reason f = true ↔
    f.isDir = false ∧ isDump f.name = true ∧ (parseFilename f.name).1 = reason := by
  unfold isOf listed
  split_ifs with h
  · rw [Bool.or_eq_true, Bool.not_eq_true'] at h
    refine iff_of_false (by simp) ?_
    rintro ⟨hdir, hdump, -⟩
    rcases h with h | h
    · rw [hdir] at h
      cases h
    · rw [hdump] at h
      cases h
  · rw [Bool.or_eq_true, not_or, Bool.not_eq_true, Bool.not_eq_true', Bool.not_eq_false] at h
    simp [h.1, h.2]

/-- The dumps `Prune` looks at, the newest first. -/
def ofReason (o : Newest) (dir : Dir) (reason : Reason) : List Snapshot :=
  (list o dir).filter fun s => s.reason = reason

section OfReason

variable {o : Newest} {dir : Dir} {reason : Reason}

lemma mem_ofReason {s : Snapshot} :
    s ∈ ofReason o dir reason ↔ ∃ f ∈ dir.files, listed f = some s ∧ s.reason = reason := by
  rw [ofReason, List.mem_filter, mem_list, decide_eq_true_iff]
  constructor
  · rintro ⟨⟨f, hf, hs⟩, hr⟩
    exact ⟨f, hf, hs, hr⟩
  · rintro ⟨f, hf, hs, hr⟩
    exact ⟨⟨f, hf, hs⟩, hr⟩

variable (o dir reason) in
lemma ofReason_sorted :
    (ofReason o dir reason).Pairwise fun a b => b.createdAt ≤ a.createdAt :=
  (o.sorted _).sublist List.filter_sublist

variable (o dir reason) in
lemma ofReason_nodup : ((ofReason o dir reason).map Snapshot.filename).Nodup :=
  (nodup_list o dir).sublist (List.filter_sublist.map _)

/-- The file a dump of the listing is about. -/
lemma exists_file {s : Snapshot} (hs : s ∈ ofReason o dir reason) :
    ∃ f ∈ dir.files, isOf reason f = true ∧ f.name = s.filename ∧ f.mtime = s.createdAt := by
  obtain ⟨f, hf, hlisted, hr⟩ := mem_ofReason.mp hs
  obtain ⟨hname, hcreated, -⟩ := listed_some hlisted
  exact ⟨f, hf, by rw [isOf, hlisted]; simpa using hr, hname.symm, hcreated.symm⟩

/-- The dump of the listing a file is. -/
lemma exists_snapshot {f : File} (hf : f ∈ dir.files) (hof : isOf reason f = true) :
    ∃ s ∈ ofReason o dir reason, s.filename = f.name ∧ s.createdAt = f.mtime := by
  obtain ⟨s, hs, hr⟩ : ∃ s, listed f = some s ∧ s.reason = reason := by
    simpa [isOf, Option.any_eq_true] using hof
  obtain ⟨hname, hcreated, -⟩ := listed_some hs
  exact ⟨s, mem_ofReason.mpr ⟨f, hf, hs, hr⟩, hname, hcreated⟩

lemma exists_of_name {ss : List Snapshot} (hss : ∀ s ∈ ss, s ∈ ofReason o dir reason) {f : File}
    (hf : f ∈ dir.files) (hn : f.name ∈ ss.map Snapshot.filename) :
    isOf reason f = true ∧ ∃ s ∈ ss, s.filename = f.name ∧ s.createdAt = f.mtime := by
  obtain ⟨s, hs, hname⟩ := List.mem_map.mp hn
  obtain ⟨g, hg, hof, hgname, hcreated⟩ := exists_file (hss s hs)
  obtain rfl := eq_of_name hg hf (hgname.trans hname)
  exact ⟨hof, s, hs, hname, hcreated.symm⟩

lemma length_eq_of_names {fs : List File} {ss : List Snapshot} (hfs : (fs.map File.name).Nodup)
    (hss : (ss.map Snapshot.filename).Nodup)
    (h : ∀ name, name ∈ fs.map File.name ↔ name ∈ ss.map Snapshot.filename) :
    fs.length = ss.length := by
  simpa using ((List.perm_ext_iff_of_nodup hfs hss).mpr h).length_eq

lemma mem_names {name : String} :
    name ∈ (dir.files.filter (isOf reason)).map File.name ↔
      name ∈ (ofReason o dir reason).map Snapshot.filename := by
  simp only [List.mem_map, List.mem_filter]
  constructor
  · rintro ⟨f, ⟨hf, hof⟩, rfl⟩
    obtain ⟨s, hs, hname, -⟩ := exists_snapshot hf hof
    exact ⟨s, hs, hname⟩
  · rintro ⟨s, hs, rfl⟩
    obtain ⟨f, hf, hof, hname, -⟩ := exists_file hs
    exact ⟨f, ⟨hf, hof⟩, hname⟩

end OfReason

/-! ### The loop -/

/-- What is `gone` is a first part of what is to go, and what is `left` begins with the dump that
cannot be removed. -/
structure Went (stuck removed : List String) (dir : Dir) (gone left : List Snapshot)
    (r : (List String × Option PruneError) × Dir) : Prop where
  removed : r.1.1 = removed ++ gone.map Snapshot.filename
  files : r.2.files = dir.files.filter fun f => f.name ∉ gone.map Snapshot.filename
  error : r.1.2 = left.head?.map fun s => .remove s.filename
  stuck : ∀ s ∈ left.head?, s.filename ∈ stuck

lemma Went.names {stuck : List String} {dir : Dir} {gone left : List Snapshot}
    {r : (List String × Option PruneError) × Dir} (h : Went stuck [] dir gone left r) :
    r.1.1 = gone.map Snapshot.filename := by
  rw [h.removed, List.nil_append]

lemma exists_went (stuck removed : List String) (dir : Dir) (ss : List Snapshot) :
    ∃ gone left, ss = gone ++ left ∧
      Went stuck removed dir gone left (removeAll stuck removed dir ss) := by
  have hnone (dir : Dir) : dir.files.filter (fun f => f.name ∉ ([] : List String)) = dir.files := by
    simp
  induction ss generalizing removed dir with
  | nil => exact ⟨[], [], rfl, by simp [removeAll], (hnone dir).symm, rfl, by simp⟩
  | cons s ss ih =>
    rw [removeAll]
    split_ifs with hstuck
    · exact ⟨[], s :: ss, rfl, by simp, (hnone dir).symm, rfl, by simpa using hstuck⟩
    · obtain ⟨gone, left, rfl, h⟩ := ih (removed ++ [s.filename]) (dir.remove s.filename)
      refine ⟨s :: gone, left, rfl, ?_, ?_, h.error, h.stuck⟩
      · rw [h.removed, List.append_assoc, List.map_cons, List.singleton_append]
      · rw [h.files, Dir.remove, List.filter_filter]
        refine List.filter_congr fun f _ => ?_
        simp only [List.map_cons, List.mem_cons, not_or, Bool.decide_and, Bool.and_comm]

/-- With a count that is allowed there is only the loop. -/
lemma prune_eq (o : Newest) (stuck : List String) (dir : Dir) (reason : Reason) {keep : ℤ}
    (hk : 0 < keep) : prune o stuck dir reason keep =
      removeAll stuck [] dir ((ofReason o dir reason).drop keep.toNat) := by
  rw [prune, if_neg (by omega)]
  simp only
  split_ifs with hlen
  · have hdrop : (ofReason o dir reason).drop keep.toNat = [] :=
      List.drop_eq_nil_iff.mpr (by rw [ofReason]; omega)
    rw [hdrop]
    rfl
  · rfl

/-! ### What pruning keeps -/

/-- The number of files of a reason. -/
def count (dir : Dir) (reason : Reason) : ℕ := (dir.files.filter (isOf reason)).length

/-- The names that are returned are those of the files that are gone, all of them dumps of the
reason, and enough of these are left. -/
structure Pruned (dir : Dir) (reason : Reason) (keep : ℤ)
    (r : (List String × Option PruneError) × Dir) : Prop where
  untouched : r.2.files = dir.files.filter fun f => f.name ∉ r.1.1
  dumps : ∀ name ∈ r.1.1, ∃ f ∈ dir.files, f.name = name ∧ isOf reason f = true
  once : r.1.1.Nodup
  least : min keep (count dir reason) ≤ count r.2 reason
  exact : r.1.2 = none → count r.2 reason = min keep (count dir reason)

/-- No file of the reason that stays is older than one that went. -/
def NoOlder (dir : Dir) (reason : Reason) (r : (List String × Option PruneError) × Dir) : Prop :=
  ∀ f ∈ dir.files, f.name ∈ r.1.1 → ∀ g ∈ r.2.files, isOf reason g = true → f.mtime ≤ g.mtime

/-- The newest files stay, and an older file than one that went stays only after a failure, and is
not newer than the file that could not be removed. -/
structure NewestKept (dir : Dir) (reason : Reason) (keep : ℤ) (stuck : List String)
    (r : (List String × Option PruneError) × Dir) : Prop where
  newest : ∃ kept : List File, kept.Nodup ∧ (kept.length : ℤ) = min keep (count dir reason) ∧
    ∀ g ∈ kept, g ∈ r.2.files ∧ isOf reason g = true ∧
      ∀ f ∈ dir.files, isOf reason f = true → f ∉ kept → f.mtime ≤ g.mtime
  left : ∀ f ∈ dir.files, f.name ∈ r.1.1 → ∀ g ∈ r.2.files, isOf reason g = true →
    f.mtime ≤ g.mtime ∨ ∃ x ∈ r.2.files, r.1.2 = some (.remove x.name) ∧ x.name ∈ stuck ∧
      g.mtime ≤ x.mtime

section Parts

variable {o : Newest} {dir : Dir} {reason : Reason} {top gone left : List Snapshot}
  {stuck : List String} {r : (List String × Option PruneError) × Dir}

/-- The dumps of a reason are those that are passed over, those that went and those that are
left. -/
structure Parts (o : Newest) (dir : Dir) (reason : Reason) (top gone left : List Snapshot) :
    Prop where
  eq : ofReason o dir reason = top ++ (gone ++ left)

namespace Parts

variable (h : Parts o dir reason top gone left)
include h

lemma disjoint : (∀ s ∈ top ++ left, s.filename ∉ gone.map Snapshot.filename) ∧
    ((top ++ left).map Snapshot.filename).Nodup ∧ (gone.map Snapshot.filename).Nodup := by
  have hnodup := ofReason_nodup o dir reason
  rw [h.eq] at hnodup
  have hperm : (top ++ (gone ++ left)).Perm (gone ++ (top ++ left)) := by
    rw [← List.append_assoc, ← List.append_assoc]
    exact List.perm_append_comm.append_right left
  rw [(hperm.map _).nodup_iff, List.map_append, List.nodup_append] at hnodup
  refine ⟨fun s hs hmem => ?_, hnodup.2.1, hnodup.1⟩
  exact hnodup.2.2 _ hmem _ (List.mem_map_of_mem hs) rfl

lemma top_newest {s t : Snapshot} (hs : s ∈ top) (ht : t ∈ gone ++ left) :
    t.createdAt ≤ s.createdAt := by
  have hsorted := ofReason_sorted o dir reason
  rw [h.eq, List.pairwise_append] at hsorted
  exact hsorted.2.2 s hs t ht

lemma left_sorted : left.Pairwise fun a b => b.createdAt ≤ a.createdAt := by
  have hsorted := ofReason_sorted o dir reason
  rw [h.eq] at hsorted
  exact (List.pairwise_append.mp (List.pairwise_append.mp hsorted).2.1).2.1

lemma mem_all {s : Snapshot} :
    s ∈ ofReason o dir reason ↔ s ∈ top ++ left ∨ s ∈ gone := by
  rw [h.eq]
  simp only [List.mem_append]
  tauto

lemma mem_left (hw : Went stuck [] dir gone left r) {f : File} :
    f ∈ r.2.files ∧ isOf reason f = true ↔
      f ∈ dir.files ∧ ∃ s ∈ top ++ left, s.filename = f.name ∧ s.createdAt = f.mtime := by
  rw [hw.files, List.mem_filter, decide_eq_true_iff]
  constructor
  · rintro ⟨⟨hf, hgone⟩, hof⟩
    obtain ⟨s, hs, hname, hcreated⟩ := exists_snapshot (o := o) hf hof
    have hs' : s ∉ gone := fun hg => hgone (hname ▸ List.mem_map_of_mem hg)
    exact ⟨hf, s, (h.mem_all.mp hs).resolve_right hs', hname, hcreated⟩
  · rintro ⟨hf, s, hs, hname, -⟩
    have hsub (t : Snapshot) (ht : t ∈ top ++ left) : t ∈ ofReason o dir reason :=
      h.mem_all.mpr (.inl ht)
    have hof := (exists_of_name hsub hf (hname ▸ List.mem_map_of_mem hs)).1
    exact ⟨⟨hf, hname ▸ h.disjoint.1 s hs⟩, hof⟩

lemma count_all : count dir reason = top.length + (gone.length + left.length) := by
  have hnames : (dir.files.filter (isOf reason)).length = (ofReason o dir reason).length :=
    length_eq_of_names (dir.nodup.sublist (List.filter_sublist.map _))
      (ofReason_nodup o dir reason) fun _ => mem_names
  rw [count, hnames, h.eq, List.length_append, List.length_append]

lemma count_left (hw : Went stuck [] dir gone left r) :
    count r.2 reason = top.length + left.length := by
  rw [count, ← List.length_append]
  refine length_eq_of_names (r.2.nodup.sublist (List.filter_sublist.map _)) h.disjoint.2.1
    fun name => ?_
  simp only [List.mem_map, List.mem_filter]
  constructor
  · rintro ⟨f, hf, rfl⟩
    obtain ⟨-, s, hs, hname, -⟩ := (h.mem_left hw).mp hf
    exact ⟨s, hs, hname⟩
  · rintro ⟨s, hs, rfl⟩
    obtain ⟨f, hf, -, hname, hcreated⟩ := exists_file (h.mem_all.mpr (.inl hs))
    exact ⟨f, (h.mem_left hw).mpr ⟨hf, s, hs, hname.symm, hcreated.symm⟩, hname⟩

/-- The files that are passed over stay, and they are the newest. -/
lemma exists_kept (hw : Went stuck [] dir gone left r) :
    ∃ kept : List File, kept.Nodup ∧ kept.length = top.length ∧
      ∀ g ∈ kept, g ∈ r.2.files ∧ isOf reason g = true ∧
        ∀ f ∈ dir.files, isOf reason f = true → f ∉ kept → f.mtime ≤ g.mtime := by
  have hsub (s : Snapshot) (hs : s ∈ top) : s ∈ ofReason o dir reason :=
    h.mem_all.mpr (.inl (List.mem_append_left left hs))
  let kept := dir.files.filter fun f => f.name ∈ top.map Snapshot.filename
  have hmem {f : File} : f ∈ kept ↔ f ∈ dir.files ∧ f.name ∈ top.map Snapshot.filename := by
    rw [List.mem_filter, decide_eq_true_iff]
  have hlen : kept.length = top.length := by
    refine length_eq_of_names (dir.nodup.sublist (List.filter_sublist.map _))
      (h.disjoint.2.1.sublist ((List.sublist_append_left top left).map _)) fun name => ?_
    rw [List.mem_map]
    constructor
    · rintro ⟨f, hf, rfl⟩
      exact (hmem.mp hf).2
    · intro hname
      obtain ⟨s, hs, rfl⟩ := List.mem_map.mp hname
      obtain ⟨f, hf, -, hfname, -⟩ := exists_file (hsub s hs)
      exact ⟨f, hmem.mpr ⟨hf, hfname ▸ hname⟩, hfname⟩
  refine ⟨kept, (dir.nodup.of_map).filter _, hlen, fun g hg => ?_⟩
  obtain ⟨hgdir, hgname⟩ := hmem.mp hg
  obtain ⟨-, s, hs, hsname, hsg⟩ := exists_of_name hsub hgdir hgname
  obtain ⟨hstays, hof⟩ :=
    (h.mem_left hw).mpr ⟨hgdir, s, List.mem_append_left left hs, hsname, hsg⟩
  refine ⟨hstays, hof, fun f hf hfof hfkept => ?_⟩
  obtain ⟨t, ht, htname, htf⟩ := exists_snapshot (o := o) hf hfof
  have htop : t ∉ top := fun h => hfkept (hmem.mpr ⟨hf, htname ▸ List.mem_map_of_mem h⟩)
  rw [h.eq] at ht
  have := h.top_newest hs ((List.mem_append.mp ht).resolve_left htop)
  omega

/-- What stays of the others is not before the dump that could not be removed. -/
lemma le_or_stuck (hw : Went stuck [] dir gone left r) {f g : File} (hf : f ∈ dir.files)
    (hname : f.name ∈ gone.map Snapshot.filename) (hg : g ∈ r.2.files)
    (hof : isOf reason g = true) : f.mtime ≤ g.mtime ∨
      ∃ x ∈ r.2.files, r.1.2 = some (.remove x.name) ∧ x.name ∈ stuck ∧ g.mtime ≤ x.mtime := by
  obtain ⟨-, s, hs, -, hsf⟩ := exists_of_name (fun s hs => h.mem_all.mpr (.inr hs)) hf hname
  obtain ⟨hgdir, t, ht, -, htg⟩ := (h.mem_left hw).mp ⟨hg, hof⟩
  rcases List.mem_append.mp ht with ht | ht
  · left
    have := h.top_newest ht (List.mem_append_left left hs)
    omega
  · right
    cases left with
    | nil => cases ht
    | cons x left =>
      have hx : x ∈ top ++ x :: left := List.mem_append_right _ List.mem_cons_self
      obtain ⟨e, he, -, hename, hecreated⟩ := exists_file (h.mem_all.mpr (.inl hx))
      have hestays := ((h.mem_left hw).mpr ⟨he, x, hx, hename.symm, hecreated.symm⟩).1
      refine ⟨e, hestays, hename ▸ hw.error, hename ▸ hw.stuck x rfl, ?_⟩
      rcases List.mem_cons.mp ht with rfl | ht
      · omega
      · have := (List.pairwise_cons.mp h.left_sorted).1 t ht
        omega

end Parts

end Parts

variable (o : Newest) (dir : Dir) (reason : Reason) (stuck : List String) {keep : ℤ}

lemma exists_parts (hk : 0 < keep) : ∃ top gone left, Parts o dir reason top gone left ∧
    (top.length : ℤ) = min keep (count dir reason) ∧
    Went stuck [] dir gone left (prune o stuck dir reason keep) := by
  obtain ⟨gone, left, hdrop, hw⟩ :=
    exists_went stuck [] dir ((ofReason o dir reason).drop keep.toNat)
  have hparts : Parts o dir reason ((ofReason o dir reason).take keep.toNat) gone left :=
    ⟨by rw [← hdrop, List.take_append_drop]⟩
  refine ⟨_, gone, left, hparts, ?_, prune_eq o stuck dir reason hk ▸ hw⟩
  have hlen : (ofReason o dir reason).length = count dir reason := by
    have hlen := congrArg List.length hparts.eq
    rwa [List.length_append, List.length_append, ← hparts.count_all] at hlen
  rw [List.length_take, hlen]
  omega

lemma pruned (hk : 0 < keep) :
    Pruned dir reason keep (prune o stuck dir reason keep) := by
  obtain ⟨top, gone, left, hparts, htop, hw⟩ := exists_parts o dir reason stuck hk
  have hall := hparts.count_all
  have hleft := hparts.count_left hw
  refine ⟨hw.names ▸ hw.files, fun name hname => ?_, hw.names ▸ hparts.disjoint.2.2, ?_, ?_⟩
  · rw [hw.names] at hname
    obtain ⟨s, hs, rfl⟩ := List.mem_map.mp hname
    obtain ⟨f, hf, hof, hfname, -⟩ := exists_file (hparts.mem_all.mpr (.inr hs))
    exact ⟨f, hf, hfname, hof⟩
  · omega
  · intro hnone
    rw [hw.error, Option.map_eq_none_iff, List.head?_eq_none_iff] at hnone
    rw [hnone, List.length_nil] at hleft
    omega

lemma newestKept (hk : 0 < keep) :
    NewestKept dir reason keep stuck (prune o stuck dir reason keep) := by
  obtain ⟨top, gone, left, hparts, htop, hw⟩ := exists_parts o dir reason stuck hk
  constructor
  · obtain ⟨kept, hnodup, hlen, hkept⟩ := hparts.exists_kept hw
    exact ⟨kept, hnodup, by omega, hkept⟩
  · intro f hf hname g hg hof
    rw [hw.names] at hname
    exact hparts.le_or_stuck hw hf hname hg hof

variable {dir} {reason} in
/-- Whatever the count, a file that is no dump of the reason stays. -/
lemma mem_prune {f : File} (hf : f ∈ dir.files) (hof : isOf reason f = false) (keep : ℤ) :
    f ∈ (prune o stuck dir reason keep).2.files := by
  by_cases hk : 0 < keep
  · have h := pruned o dir reason stuck hk
    rw [h.untouched, List.mem_filter, decide_eq_true_iff]
    refine ⟨hf, fun hname => ?_⟩
    obtain ⟨g, hg, hgname, hgof⟩ := h.dumps _ hname
    rw [eq_of_name hg hf hgname, hof] at hgof
    cases hgof
  · rw [prune, if_pos (by omega)]
    exact hf

/-- **Retention**: only dumps of the reason go, the newest of them stay, and a call without an error
leaves as many as it should and none that is older than one that went. -/
theorem prune_keeps_newest (hk : 0 < keep) :
    Pruned dir reason keep (prune o stuck dir reason keep) ∧
      NewestKept dir reason keep stuck (prune o stuck dir reason keep) ∧
      ((prune o stuck dir reason keep).1.2 = none →
        NoOlder dir reason (prune o stuck dir reason keep)) := by
  have hnewest := newestKept o dir reason stuck hk
  refine ⟨pruned o dir reason stuck hk, hnewest, fun hnone f hf hname g hg hof => ?_⟩
  refine (hnewest.left f hf hname g hg hof).resolve_right ?_
  rintro ⟨x, -, herror, -⟩
  rw [hnone] at herror
  cases herror

def threeDumps : Dir where
  files := [⟨"3_manual_a.dump", false, 3⟩, ⟨"2_manual_b.dump", false, 2⟩,
    ⟨"1_manual_c.dump", false, 1⟩]
  nodup := by decide

theorem prune_keeps_newest_threeDumps :
    NewestKept threeDumps manual 1 ["1_manual_c.dump"]
      (prune stable ["1_manual_c.dump"] threeDumps manual 1) :=
  (prune_keeps_newest stable threeDumps manual ["1_manual_c.dump"] (by decide)).2.1

/-- The oldest dump cannot be removed and stays, and one that is newer is gone by then. -/
theorem not_noOlder : ¬ ∀ (o : Newest) (dir : Dir) (reason : Reason) (keep : ℤ)
    (stuck : List String), 0 < keep → Pruned dir reason keep (prune o stuck dir reason keep) ∧
      NoOlder dir reason (prune o stuck dir reason keep) := by
  intro h
  have hold := (h stable threeDumps manual 1 ["1_manual_c.dump"] (by decide)).2
    ⟨"2_manual_b.dump", false, 2⟩ (by decide) (by decide) ⟨"1_manual_c.dump", false, 1⟩
    (by decide) (by decide)
  exact absurd hold (by decide)

/-! ### The reason a dump was taken for -/

section Classified

variable {reason} {t : ℤ} {label : String} {mtime : ℤ}

lemma isOf_filename (h : '_' ∉ reason.toList) (other : Reason) :
    isOf other ⟨filename t reason label, false, mtime⟩ = decide (reason = other) := by
  rw [isOf, listed_filename t label mtime h, Option.any_some]

/-- **Classification**: a dump is listed under its reason and label, and it is never pruned for
another reason. -/
theorem snapshot_classified (hr : reason ∈ [preMigration, manual, nightly]) (t : ℤ)
    (label : String) :
    ('/' ∉ (filename t reason label).toList ∧ isDump (filename t reason label) = true ∧
      parseFilename (filename t reason label) = (reason, sanitizeLabel label)) ∧
    ∀ (mtime : ℤ) (dir' : Dir), dir' = (snapshot dir reason label t (some mtime)).1 →
      ⟨filename t reason label, reason, sanitizeLabel label, mtime⟩ ∈ list o dir' ∧
      (∀ s ∈ list o dir', s.filename = filename t reason label →
        s.reason = reason ∧ s.label = sanitizeLabel label) ∧
      ∀ other ≠ reason, ∀ (stuck : List String) (keep : ℤ),
        ⟨filename t reason label, false, mtime⟩ ∈ (prune o stuck dir' other keep).2.files := by
  have hclean : '_' ∉ reason.toList ∧ '/' ∉ reason.toList := by
    simp only [List.mem_cons, List.not_mem_nil, or_false] at hr
    rcases hr with rfl | rfl | rfl <;> decide
  have hparse := parseFilename_filename t label hclean.1
  refine ⟨⟨slash_notMem_filename t label hclean.2, isDump_filename t reason label, hparse⟩, ?_⟩
  rintro mtime dir' rfl
  have hfile : ⟨filename t reason label, false, mtime⟩ ∈
      (snapshot dir reason label t (some mtime)).1.files := Dir.mem_write.mpr (.inl rfl)
  refine ⟨(mem_list o).mpr ⟨_, hfile, listed_filename t label mtime hclean.1⟩, ?_, ?_⟩
  · intro s hs hname
    obtain ⟨f, hf, hlisted⟩ := (mem_list o).mp hs
    obtain rfl := eq_of_name hf hfile ((listed_some hlisted).1.symm.trans hname)
    rw [listed_filename t label mtime hclean.1] at hlisted
    cases hlisted
    exact ⟨rfl, rfl⟩
  · intro other hne stuck keep
    refine mem_prune o stuck hfile ?_ keep
    rw [isOf_filename hclean.1, decide_eq_false_iff_not]
    exact fun heq => hne heq.symm

theorem snapshot_classified_nightly :
    ⟨filename 0 nightly "a_b.dump", nightly, sanitizeLabel "a_b.dump", 4⟩ ∈
      list stable (snapshot threeDumps nightly "a_b.dump" 0 (some 4)).1 :=
  ((snapshot_classified stable threeDumps (by decide) 0 "a_b.dump").2 4 _ rfl).1

end Classified

end Veckomenyn.Retention
