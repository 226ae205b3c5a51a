import Mathlib.Data.List.Pairwise
import Veckomenyn.Updates

/-!
The updater that asks for newer releases on its own.

Once an hour it looks at the setting and at the release check, and asks the orchestrator to replace
the container. A time is remembered only of requests that were taken, and only until the process is
replaced; what keeps a release from being asked for again then is that the new process runs it.
-/

namespace Veckomenyn.AutoUpdate

open Updates

/-! ### The trigger -/

structure Trigger where
  url : String
  token : String
deriving DecidableEq

def Trigger.configured (t : Trigger) : Bool := t.url ≠ ""

/-- The error of a request, when the orchestrator answers `res`: a status and the first kilobyte of
the body. -/
def Trigger.fire (t : Trigger) (res : Except String (ℕ × String)) : Option String :=
  if !t.configured then some "update trigger not configured"
  else match res with
    | .error e => some ("call trigger: " ++ e)
    | .ok (code, body) =>
      if code < 200 ∨ 300 ≤ code then
        some ("trigger returned " ++ toString code ++ ": " ++ body)
      else none

/-! ### The setting -/

inductive ConfigAnswer where
  | badRequest (message : String)
  | ok (autoUpdateEnabled canApply : Bool)
deriving DecidableEq

/-- The answer and the row of `update_config`; `body` is the flag of a body that decodes. -/
def handlePatchUpdateConfig (trigger : Trigger) (row : Bool)
    (body : Except String (Option Bool)) : ConfigAnswer × Bool :=
  match body with
  | .error e => (.badRequest ("bad json: " ++ e), row)
  | .ok none => (.badRequest "auto_update_enabled required", row)
  | .ok (some enabled) =>
    if enabled && !trigger.configured then
      (.badRequest "cannot enable auto-update: trigger not configured", row)
    else (.ok enabled trigger.configured, enabled)

/-! ### The updater -/

/-- A request of the updater: the process that sent it and the version that one runs, the release it
is for, when it was sent, and when it was taken, if it was. -/
structure Fire where
  process : ℕ
  current : String
  latest : String
  start : ℤ
  taken : Option ℤ
deriving DecidableEq

/-- Where a tick is. -/
inductive Phase where
  | idle
  | asking
  | firing
deriving DecidableEq

structure State where
  process : ℕ
  version : String
  trigger : Trigger
  /-- `none` when the release check is switched off. -/
  checker : Option Checker
  lastAt : Option ℤ
  phase : Phase
  /-- The row of `update_config`. -/
  enabled : Bool
  now : ℤ
  /-- The requests of the updater, the last one first. -/
  fires : List Fire

/-- A tick reads the setting, asks the check, whose request may be answered later, and fires. The
routes use the same check at any time, and a process may be replaced at any time. -/
inductive Event where
  | wait (d : ℕ)
  | tick (readable : Bool)
  | answered (res : Except String Reply)
  | fired (res : Except String (ℕ × String))
  | routeAnswered (res : Except String Reply)
  | patch (body : Except String (Option Bool))
  | restart (version : String) (trigger : Trigger) (checks : Bool)

def checkerOf (version : String) (checks : Bool) : Option Checker :=
  if checks then some (new version) else none

def start (version : String) (trigger : Trigger) (checks enabled : Bool) : State :=
  ⟨0, version, trigger, checkerOf version checks, none, .idle, enabled, 0, []⟩

/-- The end of a tick: a request is sent for a newer release. -/
def decideOn (s : State) (status : Status) : State :=
  if status.hasUpdate then
    { s with
      phase := .firing
      fires := ⟨s.process, s.version, status.latest, s.now, none⟩ :: s.fires }
  else { s with phase := .idle }

/-- A request was taken less than 23 hours ago. -/
def recent (s : State) : Bool := s.lastAt.any fun a => s.now - a < 23 * hour

def tick (s : State) (readable : Bool) : State :=
  match s.checker with
  | none => s
  | some c =>
    if !s.trigger.configured || !readable || !s.enabled || recent s then s
    else match c.status s.now with
      | some status => decideOn s status
      | none => { s with phase := .asking }

/-- The last request has been taken. -/
def take (now : ℤ) : List Fire → List Fire
  | [] => []
  | f :: fs => { f with taken := some now } :: fs

def step (s : State) : Event → Option State
  | .wait d => some { s with now := s.now + d }
  | .tick readable => if s.phase = .idle then some (tick s readable) else none
  | .answered res => match s.phase, s.checker with
    | .asking, some c =>
      let r := c.fetchAndCache res s.now
      let s := { s with checker := some r.1 }
      match r.2.2 with
      | some _ => some { s with phase := .idle }
      | none => some (decideOn s r.2.1)
    | _, _ => none
  | .fired res =>
    if s.phase = .firing then
      match s.trigger.fire res with
      | some _ => some { s with phase := .idle }
      | none => some { s with
          phase := .idle, lastAt := some s.now, fires := take s.now s.fires }
    else none
  | .routeAnswered res =>
    some { s with checker := s.checker.map fun c => (c.fetchAndCache res s.now).1 }
  | .patch body => some { s with enabled := (handlePatchUpdateConfig s.trigger s.enabled body).2 }
  | .restart version trigger checks => some { s with
      process := s.process + 1
      version := version
      trigger := trigger
      checker := checkerOf version checks
      lastAt := none
      phase := .idle }

def run (s : State) : List Event → Option State
  | [] => some s
  | e :: es => (step s e).bind fun s' => run s' es

/-! ### Newer releases -/

lemma firstDifference_trans {a b c : List ℤ} (hab : 0 < firstDifference a b)
    (hbc : 0 < firstDifference b c) : 0 < firstDifference a c := by
  induction a generalizing b c with
  | nil => simp [firstDifference] at hab
  | cons x a ih =>
    rcases b with _ | ⟨y, b⟩
    · simp [firstDifference] at hab
    rcases c with _ | ⟨z, c⟩
    · simp [firstDifference] at hbc
    simp only [firstDifference] at hab hbc ⊢
    split_ifs at hab hbc ⊢ <;> first | omega | exact ih hab hbc

/-- The release is newer than the version. -/
def Newer (latest current : String) : Prop := 0 < Updates.cmp latest current

lemma Newer.trans {a b c : String} (hab : Newer a b) (hbc : Newer b c) : Newer a c := by
  unfold Newer Updates.cmp at *
  rcases ha : parseSemver a with _ | pa
  · simp [ha] at hab
  rcases hb : parseSemver b with _ | pb
  · simp [hb] at hbc
  rcases hc : parseSemver c with _ | pc
  · simp [hb, hc] at hbc
  simp only [ha, hb, hc] at hab hbc ⊢
  exact firstDifference_trans hab hbc

/-- The check speaks of the version that runs. -/
structure Tells (version : String) (c : Checker) : Prop where
  current : c.current = version
  cached : ∀ status, c.cached = some status → status.hasUpdate = true →
    Newer status.latest version

variable {version : String} {c : Checker}

lemma tells_new (version : String) : Tells version (new version) := ⟨rfl, by simp [new]⟩

lemma newer_statusOf {release : String × String}
    (h : (statusOf version release).hasUpdate = true) : Newer release.1 version := by
  simpa [statusOf, Newer] using h

lemma Tells.fetchAndCache (h : Tells version c) (res : Except String Reply) (now : ℤ) :
    Tells version (c.fetchAndCache res now).1 ∧
      ((c.fetchAndCache res now).2.1.hasUpdate = true →
        Newer (c.fetchAndCache res now).2.1.latest version) := by
  unfold Checker.fetchAndCache
  rcases fetchLatest res with e | release
  · rcases hc : c.cached with _ | status
    · exact ⟨h, by simp⟩
    · exact ⟨h, h.cached status hc⟩
  · simp only [h.current]
    refine ⟨⟨rfl, ?_⟩, newer_statusOf⟩
    rintro status hs
    obtain rfl : statusOf version release = status := by simpa using hs
    exact newer_statusOf

lemma Tells.status (h : Tells version c) {now : ℤ} {status : Status}
    (hs : c.status now = some status) (hu : status.hasUpdate = true) :
    Newer status.latest version := by
  unfold Checker.status at hs
  rcases hc : c.cached with _ | cached
  · simp [hc] at hs
  · rw [hc] at hs
    simp only at hs
    split_ifs at hs
    cases hs
    exact h.cached _ hc hu

/-! ### What one event does -/

section Step

variable {s s' : State} {e : Event} {es : List Event}

/-- `g` was sent after `f`: not for 23 hours, when the same process had `f` taken. -/
def Apart (g f : Fire) : Prop :=
  f.process = g.process → ∀ t, f.taken = some t → t + 23 * hour ≤ g.start

/-- No request of the process was taken in the last 23 hours. -/
def Due (s : State) : Prop := ∀ a, s.lastAt = some a → a + 23 * hour ≤ s.now

structure Inv (s : State) : Prop where
  tells : ∀ c, s.checker = some c → Tells s.version c
  newer : ∀ f ∈ s.fires, Newer f.latest f.current
  process : ∀ f ∈ s.fires, f.process ≤ s.process
  taken : ∀ f ∈ s.fires, ∀ t, f.taken = some t →
    t ≤ s.now ∧ (f.process = s.process → ∃ a, s.lastAt = some a ∧ t ≤ a)
  asking : s.phase = .asking → Due s
  apart : s.fires.Pairwise Apart

lemma tells_checkerOf (version : String) (checks : Bool) :
    ∀ c, checkerOf version checks = some c → Tells version c := by
  intro c hc
  cases checks
  · cases hc
  · cases hc
    exact tells_new version

lemma inv_start (version : String) (trigger : Trigger) (checks enabled : Bool) :
    Inv (start version trigger checks enabled) :=
  ⟨tells_checkerOf version checks, by simp [start], by simp [start], by simp [start],
    by simp [start], List.Pairwise.nil⟩

lemma due_of_not_recent (h : recent s = false) : Due s := by
  intro a ha
  have hfar : ¬s.now - a < 23 * hour := by simpa [recent, ha] using h
  omega

lemma Inv.decideOn (h : Inv s) (hdue : Due s) {status : Status}
    (hstatus : status.hasUpdate = true → Newer status.latest s.version) :
    Inv (decideOn s status) := by
  unfold AutoUpdate.decideOn
  split_ifs with hu
  · refine ⟨h.tells, ?_, ?_, ?_, by simp, ?_⟩
    · exact List.forall_mem_cons.mpr ⟨hstatus hu, h.newer⟩
    · exact List.forall_mem_cons.mpr ⟨le_rfl, h.process⟩
    · refine List.forall_mem_cons.mpr ⟨?_, h.taken⟩
      intro t ht
      cases ht
    · refine List.pairwise_cons.mpr ⟨fun f hf hprocess t ht => ?_, h.apart⟩
      obtain ⟨a, ha, hta⟩ := (h.taken f hf t ht).2 hprocess
      have := hdue a ha
      simp only
      omega
  · exact ⟨h.tells, h.newer, h.process, h.taken, by simp, h.apart⟩

lemma Inv.tick (h : Inv s) (readable : Bool) : Inv (tick s readable) := by
  unfold AutoUpdate.tick
  rcases hc : s.checker with _ | c
  · exact h
  simp only
  split_ifs with hoff
  · exact h
  have hdue : Due s := by
    simp only [Bool.or_eq_true, not_or] at hoff
    exact due_of_not_recent (by simpa using hoff.2)
  rcases hs : c.status s.now with _ | status
  · refine ⟨fun c' hc' => ?_, h.newer, h.process, h.taken, fun _ => hdue, h.apart⟩
    cases hc'
    exact h.tells c hc
  · exact h.decideOn hdue fun hu => (h.tells c hc).status hs hu

lemma mem_take {now : ℤ} {fs : List Fire} {f : Fire} (hf : f ∈ take now fs) :
    f ∈ fs ∨ ∃ g ∈ fs, f = { g with taken := some now } := by
  rcases fs with _ | ⟨g, fs⟩
  · exact Or.inl hf
  · rcases List.mem_cons.mp hf with rfl | hf
    · exact Or.inr ⟨g, List.mem_cons_self, rfl⟩
    · exact Or.inl (List.mem_cons_of_mem _ hf)

lemma apart_take {now : ℤ} {fs : List Fire} (h : fs.Pairwise Apart) :
    (take now fs).Pairwise Apart := by
  rcases fs with _ | ⟨g, fs⟩
  · exact h
  · obtain ⟨hg, hfs⟩ := List.pairwise_cons.mp h
    exact List.pairwise_cons.mpr ⟨hg, hfs⟩

/-- The time that is remembered is no earlier than any request that was taken. -/
lemma Inv.taken_now (h : Inv s) : Inv { s with
    phase := .idle, lastAt := some s.now, fires := take s.now s.fires } := by
  have hall {P : Fire → Prop} (hP : ∀ f ∈ s.fires, P f)
      (hnow : ∀ f ∈ s.fires, P { f with taken := some s.now }) :
      ∀ f ∈ take s.now s.fires, P f := by
    intro f hf
    rcases mem_take hf with hf | ⟨g, hg, rfl⟩
    · exact hP f hf
    · exact hnow g hg
  refine ⟨h.tells, hall h.newer h.newer, hall h.process h.process, ?_, by simp,
    apart_take h.apart⟩
  refine hall (fun f hf t ht => ?_) fun f hf t ht => ?_
  · have hle := (h.taken f hf t ht).1
    exact ⟨hle, fun _ => ⟨s.now, rfl, hle⟩⟩
  · cases ht
    exact ⟨le_rfl, fun _ => ⟨s.now, rfl, le_rfl⟩⟩

lemma Inv.step (h : Inv s) (hs : step s e = some s') : Inv s' := by
  cases e with
  | wait d =>
    cases hs
    refine ⟨h.tells, h.newer, h.process, fun f hf t ht => ?_, fun hp a ha => ?_, h.apart⟩
    · obtain ⟨hle, hlast⟩ := h.taken f hf t ht
      exact ⟨by simp only; omega, hlast⟩
    · have := h.asking hp a ha
      simp only
      omega
  | tick readable =>
    rw [AutoUpdate.step] at hs
    split_ifs at hs
    cases hs
    exact h.tick readable
  | answered res =>
    rw [AutoUpdate.step] at hs
    split at hs
    · next c hphase hc =>
      have htells := (h.tells c hc).fetchAndCache res s.now
      have hchecked : Inv { s with checker := some (c.fetchAndCache res s.now).1 } :=
        ⟨fun c' hc' => by cases hc'; exact htells.1, h.newer, h.process, h.taken, h.asking,
          h.apart⟩
      simp only at hs
      split at hs
      · cases hs
        exact ⟨hchecked.tells, h.newer, h.process, h.taken, by simp, h.apart⟩
      · cases hs
        exact hchecked.decideOn (h.asking hphase) htells.2
    · cases hs
  | fired res =>
    rw [AutoUpdate.step] at hs
    split_ifs at hs with hfiring
    split at hs
    · cases hs
      exact ⟨h.tells, h.newer, h.process, h.taken, by simp, h.apart⟩
    · cases hs
      exact h.taken_now
  | routeAnswered res =>
    cases hs
    refine ⟨fun c' hc' => ?_, h.newer, h.process, h.taken, h.asking, h.apart⟩
    obtain ⟨c, hc, rfl⟩ := Option.map_eq_some_iff.mp hc'
    exact ((h.tells c hc).fetchAndCache res s.now).1
  | patch body =>
    cases hs
    exact ⟨h.tells, h.newer, h.process, h.taken, h.asking, h.apart⟩
  | restart version trigger checks =>
    cases hs
    refine ⟨tells_checkerOf version checks, h.newer, fun f hf => ?_, fun f hf t ht => ?_, by simp,
      h.apart⟩
    · have := h.process f hf
      simp only
      omega
    · refine ⟨(h.taken f hf t ht).1, fun hp => ?_⟩
      have := h.process f hf
      simp only at hp
      omega

lemma inv_run (h : Inv s) (hs : run s es = some s') : Inv s' := by
  induction es generalizing s with
  | nil =>
    cases hs
    exact h
  | cons e es ih =>
    obtain ⟨s₁, h₁, hs⟩ := Option.bind_eq_some_iff.mp hs
    exact ih (h.step h₁) hs

end Step

/-- **The updater**: every request is for a release newer than the version that sent it, and the
requests one process has had taken are 23 hours apart. -/
theorem newer_and_apart (version : String) (trigger : Trigger) (checks enabled : Bool)
    (es : List Event) (s : State) (hs : run (start version trigger checks enabled) es = some s) :
    (∀ f ∈ s.fires, Newer f.latest f.current) ∧ s.fires.Pairwise Apart := by
  have h := inv_run (inv_start version trigger checks enabled) hs
  exact ⟨h.newer, h.apart⟩

/-- An update is out, and the orchestrator takes the request for it. -/
def updated : List Event :=
  [.tick true, .answered (.ok ⟨200, .ok ("v0.5.0", "releases/v0.5.0")⟩), .fired (.ok (200, ""))]

def watchtower : Trigger := ⟨"http://watchtower:8080/v1/update", "secret"⟩

def afterUpdate : State :=
  { start "0.4.0" watchtower true true with
    checker := some ⟨"0.4.0", hour, some (statusOf "0.4.0" ("0.5.0", "releases/v0.5.0")), 0⟩
    lastAt := some 0
    fires := [⟨0, "0.4.0", "0.5.0", 0, some 0⟩] }

lemma run_updated : run (start "0.4.0" watchtower true true) updated = some afterUpdate := by
  rfl

/-- The orchestrator does not act on the request, and takes another one a day later. -/
def ignored : List Event := updated ++ [.wait (24 * hour).toNat] ++ updated

def afterIgnored : State :=
  { afterUpdate with
    checker := some
      ⟨"0.4.0", hour, some (statusOf "0.4.0" ("0.5.0", "releases/v0.5.0")), 24 * hour⟩
    lastAt := some (24 * hour)
    now := 24 * hour
    fires := [⟨0, "0.4.0", "0.5.0", 24 * hour, some (24 * hour)⟩,
      ⟨0, "0.4.0", "0.5.0", 0, some 0⟩] }

lemma run_ignored : run (start "0.4.0" watchtower true true) ignored = some afterIgnored := by
  rfl

theorem newer_and_apart_ignored :
    (∀ f ∈ afterIgnored.fires, Newer f.latest f.current) ∧ afterIgnored.fires.Pairwise Apart :=
  newer_and_apart "0.4.0" watchtower true true ignored _ run_ignored

/-! ### What is never asked for again -/

/-- The version an event brings up. -/
def broughtUp : Event → Option String
  | .restart version .. => some version
  | _ => none

/-- The versions that have run. -/
def ran (version : String) (es : List Event) : List String := version :: es.filterMap broughtUp

/-- The check takes the version for the same as the other one or for a newer one. -/
def NotOlder (v version : String) : Prop := parseSemver v = parseSemver version ∨ Newer v version

/-- No restart brings up an older version than the one before. -/
def Upward (version : String) : List Event → Prop
  | [] => True
  | e :: es => (∀ v ∈ broughtUp e, NotOlder v version) ∧ Upward ((broughtUp e).getD version) es

lemma Newer.of_notOlder {latest v version : String} (h : Newer latest v)
    (hv : NotOlder v version) : Newer latest version := by
  rcases hv with hsame | hnewer
  · unfold Newer Updates.cmp at *
    rwa [← hsame]
  · exact h.trans hnewer

lemma NotOlder.trans {a b c : String} (hab : NotOlder a b) (hbc : NotOlder b c) :
    NotOlder a c := by
  rcases hab with hsame | hnewer
  · rcases hbc with hsame' | hnewer
    · exact Or.inl (hsame.trans hsame')
    · refine Or.inr ?_
      unfold Newer Updates.cmp at *
      rwa [hsame]
  · exact Or.inr (hnewer.of_notOlder hbc)

section Again

variable {s s' : State} {e : Event} {es : List Event}

lemma tick_fires (s : State) (readable : Bool) : (tick s readable).version = s.version ∧
    ((tick s readable).fires = s.fires ∨
      ∃ latest,
        (tick s readable).fires = ⟨s.process, s.version, latest, s.now, none⟩ :: s.fires) := by
  unfold tick decideOn
  split
  · exact ⟨rfl, Or.inl rfl⟩
  split_ifs
  · exact ⟨rfl, Or.inl rfl⟩
  split
  · split_ifs
    · exact ⟨rfl, Or.inr ⟨_, rfl⟩⟩
    · exact ⟨rfl, Or.inl rfl⟩
  · exact ⟨rfl, Or.inl rfl⟩

/-- What an event does to the version and to the requests. -/
lemma step_fires (hs : step s e = some s') : s'.version = (broughtUp e).getD s.version ∧
    (s'.fires = s.fires ∨ (∃ now, s'.fires = take now s.fires) ∨
      ∃ latest, s'.fires = ⟨s.process, s.version, latest, s.now, none⟩ :: s.fires) := by
  cases e with
  | tick readable =>
    rw [step] at hs
    split_ifs at hs
    cases hs
    obtain ⟨hversion, hfires⟩ := tick_fires s readable
    exact ⟨hversion, hfires.imp_right Or.inr⟩
  | answered res =>
    rw [step] at hs
    split at hs
    · simp only at hs
      split at hs
      · cases hs
        exact ⟨rfl, Or.inl rfl⟩
      · cases hs
        unfold decideOn
        split_ifs
        · exact ⟨rfl, Or.inr (Or.inr ⟨_, rfl⟩)⟩
        · exact ⟨rfl, Or.inl rfl⟩
    · cases hs
  | fired res =>
    rw [step] at hs
    split_ifs at hs
    split at hs
    · cases hs
      exact ⟨rfl, Or.inl rfl⟩
    · cases hs
      exact ⟨rfl, Or.inr (Or.inl ⟨_, rfl⟩)⟩
  | _ =>
    cases hs
    exact ⟨rfl, Or.inl rfl⟩

lemma length_take (now : ℤ) (fs : List Fire) : (take now fs).length = fs.length := by
  cases fs <;> rfl

/-- A request that is sent is sent by the version that runs. -/
lemma current_of_sent {f : Fire} (hs : step s e = some s') (hf : s'.fires = f :: s.fires) :
    f.current = s.version := by
  have hlength : s'.fires.length = s.fires.length + 1 := by rw [hf, List.length_cons]
  rcases (step_fires hs).2 with h | ⟨now, h⟩ | ⟨latest, h⟩
  · rw [h] at hlength
    omega
  · rw [h, length_take] at hlength
    omega
  · rw [h, List.cons.injEq] at hf
    rw [← hf.1]

/-- The version that runs is the newest that has run. -/
lemma newest_run {vs : List String} (hs : run s es = some s') (hup : Upward s.version es)
    (hvs : ∀ v ∈ vs, NotOlder s.version v) :
    ∀ v ∈ vs ++ es.filterMap broughtUp, NotOlder s'.version v := by
  induction es generalizing s vs with
  | nil =>
    cases hs
    simpa using hvs
  | cons e es ih =>
    obtain ⟨s₁, h₁, hs⟩ := Option.bind_eq_some_iff.mp hs
    obtain ⟨he, hup⟩ := hup
    have hversion := (step_fires h₁).1
    rw [← hversion] at hup
    rw [List.filterMap_cons]
    rcases hb : broughtUp e with _ | v
    · rw [hb] at hversion
      refine ih hs hup ?_
      simpa [hversion] using hvs
    · rw [hb] at hversion he
      have hfrom : ∀ u ∈ vs ++ [v], NotOlder s₁.version u := by
        intro u hu
        rw [hversion]
        rcases List.mem_append.mp hu with hu | hu
        · exact (he v rfl).trans (hvs u hu)
        · exact Or.inl (congrArg parseSemver (List.mem_singleton.mp hu).symm)
      have hall := ih hs hup hfrom
      rwa [List.append_assoc] at hall

end Again

/-- **Never again**: when no restart brings up an older version, the updater asks for no release
that runs or has run, nor for an older one. -/
theorem not_again (version : String) (trigger : Trigger) (checks enabled : Bool)
    (es : List Event) (s s' : State) (e : Event) (f : Fire)
    (hs : run (start version trigger checks enabled) es = some s) (hup : Upward version es)
    (he : step s e = some s') (hf : s'.fires = f :: s.fires) :
    ∀ v ∈ ran version es, Newer f.latest v := by
  have hinv := (inv_run (inv_start version trigger checks enabled) hs).step he
  have hnewer : Newer f.latest s.version := by
    rw [← current_of_sent he hf]
    exact hinv.newer f (hf ▸ List.mem_cons_self)
  intro v hv
  have hfirst : ∀ v ∈ [version], NotOlder version v :=
    fun _ hv => Or.inl (congrArg parseSemver (List.mem_singleton.mp hv).symm)
  exact hnewer.of_notOlder (newest_run hs hup hfirst v hv)

/-- The update of above is installed, and the check is asked again. -/
def installed : List Event := updated ++ [.restart "0.5.0" watchtower true, .tick true]

def afterInstall : State :=
  { start "0.5.0" watchtower true true with
    process := 1, phase := .asking, fires := afterUpdate.fires }

lemma run_installed : run (start "0.4.0" watchtower true true) installed = some afterInstall := by
  rfl

theorem not_again_installed : Newer "0.6.0" "0.4.0" ∧ Newer "0.6.0" "0.5.0" := by
  have hall := not_again "0.4.0" watchtower true true installed afterInstall
    (decideOn { afterInstall with
      checker := some ⟨"0.5.0", hour, some (statusOf "0.5.0" ("0.6.0", "releases/v0.6.0")), 0⟩ }
      (statusOf "0.5.0" ("0.6.0", "releases/v0.6.0")))
    (.answered (.ok ⟨200, .ok ("v0.6.0", "releases/v0.6.0")⟩))
    ⟨1, "0.5.0", "0.6.0", 0, none⟩ run_installed
    (by simp [installed, updated, Upward, broughtUp, NotOlder, Newer]; decide) rfl rfl
  exact ⟨hall "0.4.0" (by decide), hall "0.5.0" (by decide)⟩

/-! ### Switching it off -/

section Off

variable {s s' : State} {e : Event} {es : List Event}

/-- It is switched off, and no tick has got past the setting. -/
structure Off (s : State) : Prop where
  disabled : s.enabled = false
  phase : s.phase ≠ .asking

lemma Off.tick (h : Off s) (readable : Bool) : tick s readable = s := by
  unfold AutoUpdate.tick
  split
  · rfl
  · rw [if_pos (by simp [h.disabled])]

lemma disabled_patch (trigger : Trigger) {body : Except String (Option Bool)}
    (hbody : body ≠ .ok (some true)) : (handlePatchUpdateConfig trigger false body).2 = false := by
  rcases body with e | _ | _ | _
  · rfl
  · rfl
  · rfl
  · exact absurd rfl hbody

lemma Off.step (h : Off s) (he : e ≠ .patch (.ok (some true))) (hs : step s e = some s') :
    Off s' ∧ s'.fires.length = s.fires.length := by
  cases e with
  | tick readable =>
    rw [AutoUpdate.step, h.tick readable] at hs
    split_ifs at hs
    cases hs
    exact ⟨h, rfl⟩
  | answered res =>
    rw [AutoUpdate.step] at hs
    split at hs
    · next hphase _ => exact absurd hphase h.phase
    · cases hs
  | fired res =>
    rw [AutoUpdate.step] at hs
    split_ifs at hs
    split at hs
    · cases hs
      exact ⟨⟨h.disabled, by simp⟩, rfl⟩
    · cases hs
      exact ⟨⟨h.disabled, by simp⟩, length_take _ _⟩
  | patch body =>
    cases hs
    have hbody : body ≠ .ok (some true) := fun hb => he (by rw [hb])
    refine ⟨⟨?_, h.phase⟩, rfl⟩
    simp only [h.disabled]
    exact disabled_patch s.trigger hbody
  | restart version trigger checks =>
    cases hs
    exact ⟨⟨h.disabled, by simp⟩, rfl⟩
  | _ =>
    cases hs
    exact ⟨⟨h.disabled, h.phase⟩, rfl⟩

/-- **Off is off**: once it is switched off, and no tick has got past the setting, no request is
sent until it is switched on again. -/
theorem off_stays_off (hs : run s es = some s') (h : Off s)
    (hes : Event.patch (.ok (some true)) ∉ es) : s'.fires.length = s.fires.length := by
  induction es generalizing s with
  | nil =>
    cases hs
    rfl
  | cons e es ih =>
    obtain ⟨s₁, h₁, hs⟩ := Option.bind_eq_some_iff.mp hs
    obtain ⟨hne, hes⟩ := not_or.mp (mt List.mem_cons.mpr hes)
    obtain ⟨hoff, hlength⟩ := h.step (Ne.symm hne) h₁
    rw [ih hs hoff hes, hlength]

end Off

/-- A release is known, the updater is switched off, and a tick comes by. -/
theorem off_stays_off_tick :
    ({ afterUpdate with enabled := false, now := 24 * hour } : State).fires.length = 1 :=
  off_stays_off (s := { afterUpdate with enabled := false })
    rfl ⟨rfl, by decide⟩ (by simp : Event.patch (.ok (some true)) ∉
      [.wait (24 * hour).toNat, .tick true])

end Veckomenyn.AutoUpdate
