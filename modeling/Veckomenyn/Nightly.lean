import Veckomenyn.Retention

/-!
The nightly dumps.

The scheduler remembers when it last took a dump, and after a restart reads that time off
the newest nightly file. The remembered time is never before the dump's own, and pruning
keeps the newest file, so either way two nightly dumps are a day apart.
-/

namespace Veckomenyn.Nightly

open Backup Retention

/-! ### The scheduler -/

/-- The row of `backup_config`. -/
structure Config where
  nightlyEnabled : Bool
  nightlyKeep : ℤ
  positive : 0 < nightlyKeep

variable (o : Newest)

/-- What `tick` does up to the snapshot: the new `lastAt`, `none` for the zero time, and whether a
snapshot is due. `since` and `again` are what the clock says at the two comparisons. -/
def check (cfg : Option Config) (dir : Dir) (since again : ℤ) (lastAt : Option ℤ) :
    Option ℤ × Bool :=
  match cfg with
  | none => (lastAt, false)
  | some cfg =>
    if !cfg.nightlyEnabled then (lastAt, false)
    else match lastAt with
    | some a => (some a, !decide (since - a < 24 * hour))
    | none =>
      match (list o dir).find? fun b => b.reason = nightly with
      | none => (none, true)
      | some b => (some b.createdAt, !decide (again - b.createdAt < 24 * hour))

/-- Where a tick is. -/
inductive Phase where
  | idle
  | due (keep : ℤ)
  | dumping (keep : ℤ) (label : String) (start : ℤ)
  | dumped (keep : ℤ)
  | recorded (keep : ℤ)
deriving DecidableEq, Repr

/-- `taken` are the times of the nightly dumps taken so far. -/
structure State where
  dir : Dir
  config : Config
  lastAt : Option ℤ
  phase : Phase
  clock : ℤ
  taken : List ℤ

/-- A tick checks, calls `Snapshot` with a label, gets its file or an error, records the time and
prunes. Other dumps are taken and pruned at any time, and a restart may come at any time. -/
inductive Event where
  | configure (cfg : Config)
  | restart
  | check (readable : Bool) (since again : ℤ)
  | begin (label : String) (start : ℤ)
  | finish (made : Option ℤ) (stop : ℤ)
  | record (now : ℤ)
  | prune (stuck : List String)
  | otherSnapshot (reason : Reason) (label : String) (start : ℤ) (made : Option ℤ)
  | otherPrune (reason : Reason) (keep : ℤ) (stuck : List String)

def start (dir : Dir) (cfg : Config) (clock : ℤ) : State := ⟨dir, cfg, none, .idle, clock, []⟩

/-- A `Snapshot` call ends at `stop`. The file's own time lies within the call, and a failed call
finds no file of its name to remove. -/
def finish (s : State) (keep : ℤ) (label : String) (start : ℤ) (made : Option ℤ) (stop : ℤ) :
    Option State :=
  let dir := (snapshot s.dir nightly label start made).1
  match made with
  | none =>
    if s.dir.files.all fun f => f.name ≠ filename start nightly label then
      some { s with dir := dir, phase := .idle, clock := stop }
    else none
  | some mtime =>
    if start ≤ mtime ∧ mtime ≤ stop then
      some { s with dir := dir, phase := .dumped keep, clock := stop, taken := s.taken ++ [mtime] }
    else none

/-- The clock does not go back. -/
def step (s : State) : Event → Option State
  | .configure cfg => some { s with config := cfg }
  | .restart => some { s with lastAt := none, phase := .idle }
  | .check readable since again =>
    if s.phase = .idle ∧ s.clock ≤ since ∧ since ≤ again then
      let cfg := if readable then some s.config else none
      let (lastAt, due) := check o cfg s.dir since again s.lastAt
      some { s with
        lastAt := lastAt
        phase := if due then .due s.config.nightlyKeep else .idle
        clock := again }
    else none
  | .begin label start => match s.phase with
    | .due keep =>
      if s.clock ≤ start then some { s with phase := .dumping keep label start, clock := start }
      else none
    | _ => none
  | .finish made stop => match s.phase with
    | .dumping keep label start =>
      if s.clock ≤ stop then finish s keep label start made stop else none
    | _ => none
  | .record now => match s.phase with
    | .dumped keep =>
      if s.clock ≤ now then some { s with lastAt := some now, phase := .recorded keep, clock := now }
      else none
    | _ => none
  | .prune stuck => match s.phase with
    | .recorded keep =>
      some { s with dir := (Backup.prune o stuck s.dir nightly keep).2, phase := .idle }
    | _ => none
  | .otherSnapshot reason label start made =>
    if reason = manual ∨ reason = preMigration then
      some { s with dir := (snapshot s.dir reason label start made).1 }
    else none
  | .otherPrune reason keep stuck =>
    if reason = manual ∨ reason = preMigration then
      some { s with dir := (Backup.prune o stuck s.dir reason keep).2 }
    else none

def run (s : State) : List Event → Option State
  | [] => some s
  | e :: es => (step o s e).bind fun s' => run s' es

/-! ### The files of a listing -/

/-- A nightly dump no older than `t` is in the directory. -/
def Kept (dir : Dir) (t : ℤ) : Prop :=
  ∃ f ∈ dir.files, ∃ s, listed f = some s ∧ s.reason = nightly ∧ t ≤ f.mtime

/-- The first of a kind in a sorted list is the newest of it. -/
lemma le_of_find {l : List Snapshot} (hl : l.Pairwise fun a b => b.createdAt ≤ a.createdAt)
    {p : Snapshot → Bool} {b s : Snapshot} (hb : l.find? p = some b) (hs : s ∈ l)
    (hp : p s = true) : s.createdAt ≤ b.createdAt := by
  induction l with
  | nil => cases hb
  | cons x l ih =>
    rw [List.pairwise_cons] at hl
    rcases hx : p x with _ | _
    · rw [List.find?_cons_of_neg (by simp [hx])] at hb
      refine ih hl.2 hb ((List.mem_cons.mp hs).resolve_left ?_)
      rintro rfl
      rw [hx] at hp
      cases hp
    · rw [List.find?_cons_of_pos hx, Option.some.injEq] at hb
      subst hb
      rcases List.mem_cons.mp hs with rfl | hs
      · exact le_rfl
      · exact hl.1 s hs

/-! ### The newest nightly file stays -/

lemma Kept.mono {dir : Dir} {t u : ℤ} (h : Kept dir u) (htu : t ≤ u) : Kept dir t := by
  obtain ⟨f, hf, s, hs, hr, hu⟩ := h
  exact ⟨f, hf, s, hs, hr, htu.trans hu⟩

/-- A dump that has just been taken. -/
lemma kept_write (dir : Dir) (label : String) (start mtime : ℤ) :
    Kept (dir.write (filename start nightly label) mtime) mtime :=
  ⟨_, Dir.mem_write.mpr (Or.inl rfl), _, listed_filename start label mtime (by decide), rfl, le_rfl⟩

/-- A dump of another reason has another name. -/
lemma Kept.of_other {dir : Dir} {t : ℤ} (h : Kept dir t) {reason : Reason}
    (hr : reason = manual ∨ reason = preMigration) (label : String) (start : ℤ) (made : Option ℤ) :
    Kept (snapshot dir reason label start made).1 t := by
  obtain ⟨f, hf, s, hs, hn, ht⟩ := h
  have hne : f.name ≠ filename start reason label := by
    intro hname
    have hreason := (listed_some hs).2.2
    rw [hname, hn] at hreason
    rcases hr with rfl | rfl
    · rw [parseFilename_filename start label (by decide)] at hreason
      exact absurd hreason (show nightly ≠ manual by decide)
    · rw [parseFilename_filename start label (by decide)] at hreason
      exact absurd hreason (show nightly ≠ preMigration by decide)
  refine ⟨f, ?_, s, hs, hn, ht⟩
  cases made with
  | none => exact Dir.mem_remove.mpr ⟨hf, hne⟩
  | some m => exact Dir.mem_write.mpr (Or.inr ⟨hf, hne⟩)

lemma kept_iff {dir : Dir} {t : ℤ} :
    Kept dir t ↔ ∃ f ∈ dir.files, isOf nightly f = true ∧ t ≤ f.mtime := by
  simp only [Kept, isOf, Option.any_eq_true, decide_eq_true_iff]
  constructor
  · rintro ⟨f, hf, s, hs, hn, ht⟩
    exact ⟨f, hf, ⟨s, hs, hn⟩, ht⟩
  · rintro ⟨f, hf, ⟨s, hs, hn⟩, ht⟩
    exact ⟨f, hf, s, hs, hn, ht⟩

/-- Pruning keeps a nightly dump that is no older. -/
lemma Kept.pruned {dir : Dir} {t : ℤ} (h : Kept dir t) (stuck : List String) (reason : Reason)
    (keep : ℤ) : Kept (Backup.prune o stuck dir reason keep).2 t := by
  obtain ⟨f, hf, hof, ht⟩ := kept_iff.mp h
  by_cases hr : reason = nightly ∧ 0 < keep
  · obtain ⟨rfl, hk⟩ := hr
    obtain ⟨kept, -, hlen, hkept⟩ := (newestKept o dir nightly stuck hk).newest
    have hcount : 0 < count dir nightly :=
      List.length_pos_of_mem (List.mem_filter.mpr ⟨hf, hof⟩)
    obtain ⟨g, hg⟩ := List.exists_mem_of_length_pos (show 0 < kept.length by omega)
    by_cases hfk : f ∈ kept
    · exact kept_iff.mpr ⟨f, (hkept f hfk).1, hof, ht⟩
    · obtain ⟨hgdir, hgof, hnewest⟩ := hkept g hg
      exact kept_iff.mpr ⟨g, hgdir, hgof, ht.trans (hnewest f hf hof hfk)⟩
  · refine kept_iff.mpr ⟨f, ?_, hof, ht⟩
    by_cases hk : 0 < keep
    · refine mem_prune o stuck hf ?_ keep
      rw [Bool.eq_false_iff]
      exact fun hof' => hr ⟨(isOf_iff.mp hof').2.2.symm.trans (isOf_iff.mp hof).2.2, hk⟩
    · rw [Backup.prune, if_pos (by omega)]
      exact hf

/-! ### One step -/

/-- A day has passed since every nightly dump when the tick decides on the next. -/
def Spaced (taken : List ℤ) (t : ℤ) : Prop := ∀ m ∈ taken, m + 24 * hour ≤ t

/-- What the phase of a tick tells. -/
def Phase.Told (s : State) : Prop :=
  match s.phase with
  | .idle => ∀ a ∈ s.lastAt, ∀ m ∈ s.taken, m ≤ a
  | .due _ => Spaced s.taken s.clock ∧ ∀ a ∈ s.lastAt, ∀ m ∈ s.taken, m ≤ a
  | .dumping _ _ start => Spaced s.taken start ∧ ∀ a ∈ s.lastAt, ∀ m ∈ s.taken, m ≤ a
  | .dumped _ => True
  | .recorded _ => ∀ a ∈ s.lastAt, ∀ m ∈ s.taken, m ≤ a

structure Sound (s : State) : Prop where
  apart : s.taken.Pairwise fun a b => a + 24 * hour ≤ b
  past : ∀ m ∈ s.taken, m ≤ s.clock
  kept : ∀ m ∈ s.taken, Kept s.dir m
  told : Phase.Told s

/-- What a check finds: either way the remembered time is not before a dump, and a snapshot that is
due is a day after all of them. -/
lemma check_spec (cfg : Option Config) {dir : Dir} {since again : ℤ} {lastAt : Option ℤ}
    {taken : List ℤ} (hkept : ∀ m ∈ taken, Kept dir m)
    (hlast : ∀ a ∈ lastAt, ∀ m ∈ taken, m ≤ a) (hle : since ≤ again) :
    (∀ a ∈ (check o cfg dir since again lastAt).1, ∀ m ∈ taken, m ≤ a) ∧
      ((check o cfg dir since again lastAt).2 = true → Spaced taken again) := by
  unfold check
  rcases cfg with _ | cfg
  · exact ⟨hlast, fun hd => absurd hd (by simp)⟩
  simp only
  split_ifs
  · exact ⟨hlast, fun hd => absurd hd (by simp)⟩
  rcases lastAt with _ | a
  · simp only
    split
    · -- no nightly file, so none has been taken
      rename_i hb
      refine ⟨fun a ha => (by cases ha), fun _ m hm => ?_⟩
      obtain ⟨f, hf, s, hs, hn, -⟩ := hkept m hm
      have hnone := List.find?_eq_none.mp hb s ((mem_list o).mpr ⟨f, hf, hs⟩)
      exact absurd (decide_eq_true hn) hnone
    · rename_i b hb
      have hmax (m : ℤ) (hm : m ∈ taken) : m ≤ b.createdAt := by
        obtain ⟨f, hf, s, hs, hn, ht⟩ := hkept m hm
        have := le_of_find (o.sorted _) hb ((mem_list o).mpr ⟨f, hf, hs⟩) (decide_eq_true hn)
        have := (listed_some hs).2.1
        omega
      refine ⟨fun a ha => ?_, fun hdue m hm => ?_⟩
      · cases ha
        exact hmax
      · have := hmax m hm
        simp only [Bool.not_eq_true', decide_eq_false_iff_not] at hdue
        omega
  · refine ⟨hlast, fun hdue m hm => ?_⟩
    have := hlast a rfl m hm
    simp only [Bool.not_eq_true', decide_eq_false_iff_not] at hdue
    omega

/-- A call of `Snapshot` by a tick. -/
lemma sound_finish {s s' : State} (h : Sound s) {keep : ℤ} {label : String} {start : ℤ}
    (hphase : s.phase = .dumping keep label start) {made : Option ℤ} {stop : ℤ}
    (hstop : s.clock ≤ stop) (hs : finish s keep label start made stop = some s') : Sound s' := by
  obtain ⟨hapart, hpast, hkept, htold⟩ := h
  rw [Phase.Told, hphase] at htold
  obtain ⟨hspaced, hlast⟩ := htold
  cases made with
  | none =>
    simp only [finish, snapshot, Option.ite_none_right_eq_some, Option.some.injEq] at hs
    obtain ⟨hnone, rfl⟩ := hs
    refine ⟨hapart, fun m hm => (hpast m hm).trans hstop, fun m hm => ?_, hlast⟩
    obtain ⟨f, hf, s, hs, hn, ht⟩ := hkept m hm
    refine ⟨f, Dir.mem_remove.mpr ⟨hf, ?_⟩, s, hs, hn, ht⟩
    simpa using List.all_eq_true.mp hnone f hf
  | some mtime =>
    simp only [finish, snapshot, Option.ite_none_right_eq_some, Option.some.injEq] at hs
    obtain ⟨⟨hstart, hend⟩, rfl⟩ := hs
    have hnew := kept_write s.dir label start mtime
    have hday : 0 < 24 * hour := by decide
    refine ⟨List.pairwise_append.mpr ⟨hapart, List.pairwise_singleton _ _, ?_⟩, fun m hm => ?_,
      fun m hm => ?_, trivial⟩
    · rintro m hm x hx
      rw [List.mem_singleton.mp hx]
      exact (hspaced m hm).trans hstart
    · rcases List.mem_append.mp hm with hm | hm
      · exact (hpast m hm).trans hstop
      · rw [List.mem_singleton.mp hm]
        exact hend
    · rcases List.mem_append.mp hm with hm | hm
      · have := hspaced m hm
        exact hnew.mono (by omega)
      · rw [List.mem_singleton.mp hm]
        exact hnew

lemma sound_step {s s' : State} {e : Event} (h : Sound s) (hs : step o s e = some s') :
    Sound s' := by
  obtain ⟨hapart, hpast, hkept, htold⟩ := h
  cases e with
  | configure cfg =>
    cases hs
    exact ⟨hapart, hpast, hkept, htold⟩
  | restart =>
    cases hs
    exact ⟨hapart, hpast, hkept, fun a ha => by cases ha⟩
  | check readable since again =>
    simp only [step, Option.ite_none_right_eq_some, Option.some.injEq] at hs
    obtain ⟨⟨hphase, hle, hle'⟩, rfl⟩ := hs
    rw [Phase.Told, hphase] at htold
    obtain ⟨hlast, hdue⟩ := check_spec o (if readable then some s.config else none) hkept htold
      hle'
    refine ⟨hapart, fun m hm => (hpast m hm).trans (hle.trans hle'), hkept, ?_⟩
    rw [Phase.Told]
    split <;> rename_i hp <;> simp only at hp
    · exact hlast
    · refine ⟨hdue ?_, hlast⟩
      by_contra hn
      rw [if_neg hn] at hp
      cases hp
    all_goals
      split_ifs at hp
  | begin label start =>
    rcases hphase : s.phase with _ | keep | _ | _ | _ <;>
      simp only [step, hphase, Option.ite_none_right_eq_some, Option.some.injEq, reduceCtorEq] at hs
    obtain ⟨hle, rfl⟩ := hs
    rw [Phase.Told, hphase] at htold
    refine ⟨hapart, fun m hm => (hpast m hm).trans hle, hkept, fun m hm => ?_, htold.2⟩
    exact (htold.1 m hm).trans hle
  | finish made stop =>
    rcases hphase : s.phase with _ | _ | ⟨keep, label, start⟩ | _ | _ <;>
      simp only [step, hphase, Option.ite_none_right_eq_some, reduceCtorEq] at hs
    exact sound_finish ⟨hapart, hpast, hkept, htold⟩ hphase hs.1 hs.2
  | record now =>
    rcases hphase : s.phase with _ | _ | _ | keep | _ <;>
      simp only [step, hphase, Option.ite_none_right_eq_some, Option.some.injEq, reduceCtorEq] at hs
    obtain ⟨hle, rfl⟩ := hs
    have hnow (m : ℤ) (hm : m ∈ s.taken) : m ≤ now := (hpast m hm).trans hle
    refine ⟨hapart, hnow, hkept, fun a ha => ?_⟩
    cases ha
    exact hnow
  | prune stuck =>
    rcases hphase : s.phase with _ | _ | _ | _ | keep <;>
      simp only [step, hphase, Option.some.injEq, reduceCtorEq] at hs
    subst hs
    rw [Phase.Told, hphase] at htold
    exact ⟨hapart, hpast, fun m hm => (hkept m hm).pruned o stuck nightly keep, htold⟩
  | otherSnapshot reason label start made =>
    simp only [step, Option.ite_none_right_eq_some, Option.some.injEq] at hs
    obtain ⟨hr, rfl⟩ := hs
    exact ⟨hapart, hpast, fun m hm => (hkept m hm).of_other hr label start made, htold⟩
  | otherPrune reason keep stuck =>
    simp only [step, Option.ite_none_right_eq_some, Option.some.injEq] at hs
    obtain ⟨hr, rfl⟩ := hs
    exact ⟨hapart, hpast, fun m hm => (hkept m hm).pruned o stuck reason keep, htold⟩

/-! ### Runs -/

lemma sound_run {s s' : State} {es : List Event} (h : Sound s) (hs : run o s es = some s') :
    Sound s' := by
  induction es generalizing s with
  | nil =>
    cases hs
    exact h
  | cons e es ih =>
    rw [run, Option.bind_eq_some_iff] at hs
    obtain ⟨s₁, hs₁, hs⟩ := hs
    exact ih (sound_step o h hs₁) hs

lemma sound_start (dir : Dir) (cfg : Config) (clock : ℤ) : Sound (start dir cfg clock) :=
  ⟨List.Pairwise.nil, fun _ hm => absurd hm List.not_mem_nil,
    fun _ hm => absurd hm List.not_mem_nil, fun a ha => by cases ha⟩

/-- **Nightly dumps are a day apart**, whatever was in the directory and whatever restarts, changes of
the settings, failures and other dumps come between. -/
theorem nightly_a_day_apart (dir : Dir) (cfg : Config) (clock : ℤ) (es : List Event) (s : State)
    (hrun : run o (start dir cfg clock) es = some s) :
    s.taken.Pairwise fun a b => a + 24 * hour ≤ b :=
  (sound_run o (sound_start dir cfg clock) hrun).apart

def everyNight : Config := ⟨true, 1, by decide⟩

def emptyDir : Dir := ⟨[], List.nodup_nil⟩

/-- A dump, a restart, a check too early, and another dump a day later. -/
def twoNights : List Event :=
  [.check true 10 10, .begin "v1" 10, .finish (some 11) 12, .record 13, .prune [], .restart,
    .check true 20 20, .check true (11 + 24 * hour) (11 + 24 * hour), .begin "v1" (11 + 24 * hour),
    .finish (some (12 + 24 * hour)) (12 + 24 * hour)]

theorem nightly_a_day_apart_twoNights :
    ((run stable (start emptyDir everyNight 5) twoNights).get (by decide)).taken.Pairwise
      fun a b => a + 24 * hour ≤ b :=
  nightly_a_day_apart stable emptyDir everyNight 5 twoNights _ (Option.some_get _).symm

end Veckomenyn.Nightly
