import Veckomenyn.Numerals
import Veckomenyn.ReadTools

/-!
The check for a newer release.

The latest release is kept for a while once it has been read. Nothing is kept of a request that
failed, and nothing is known of one that is still out, so the next call sends another one.
-/

namespace Veckomenyn.Updates

open Numerals ReadTools

/-! ### Versions -/

def trimPrefix (p s : List Char) : List Char := if p <+: s then s.drop p.length else s

def parseSemver (s : String) : Option (List ℤ) :=
  let s := (trimPrefix ['v'] (trimSpace s).toList).takeWhile fun c => c ≠ '-' ∧ c ≠ '+'
  let parts := s.splitOn '.'
  if parts.length ≠ 3 then none else parts.mapM atoi

/-- The sign of the first difference. -/
def firstDifference : List ℤ → List ℤ → ℤ
  | a :: as, b :: bs => if a > b then 1 else if a < b then -1 else firstDifference as bs
  | _, _ => 0

def cmp (a b : String) : ℤ :=
  match parseSemver a, parseSemver b with
  | some pa, some pb => firstDifference pa pb
  | _, _ => 0

/-! ### The code -/

structure Status where
  current : String
  latest : String
  hasUpdate : Bool
  url : String
deriving DecidableEq

structure Checker where
  current : String
  ttl : ℤ
  cached : Option Status
  fetchedAt : ℤ

/-- An hour, in nanoseconds. -/
def hour : ℤ := 3600 * 10 ^ 9

def new (current : String) : Checker := ⟨current, hour, none, 0⟩

/-- What GitHub answers; `body` is the tag and the page of the release. -/
structure Reply where
  statusCode : ℕ
  body : Except String (String × String)

def fetchLatest : Except String Reply → Except String (String × String)
  | .error e => .error e
  | .ok r =>
    if r.statusCode ≠ 200 then .error ("github releases: status " ++ toString r.statusCode)
    else match r.body with
      | .error e => .error ("decode: " ++ e)
      | .ok (tag, url) => .ok (String.ofList (trimPrefix ['v'] tag.toList), url)

/-- The cached status while it is fresh; nothing stands for a call of `fetchAndCache`. -/
def Checker.status (c : Checker) (now : ℤ) : Option Status :=
  match c.cached with
  | some s => if now - c.fetchedAt < c.ttl then some s else none
  | none => none

/-- The status of a release. -/
def statusOf (current : String) (release : String × String) : Status :=
  ⟨current, release.1, decide (0 < cmp release.1 current), release.2⟩

/-- The end of `fetchAndCache`, with what the request has led to. -/
def Checker.fetchAndCache (c : Checker) (res : Except String Reply) (now : ℤ) :
    Checker × Status × Option String :=
  match fetchLatest res with
  | .error e =>
    match c.cached with
    | some s => (c, s, none)
    | none => (c, ⟨c.current, "", false, ""⟩, some e)
  | .ok release =>
    let status := statusOf c.current release
    ({ c with cached := some status, fetchedAt := now }, status, none)

/-! ### Runs -/

/-- A request: when it was sent, and whether it succeeded once it has been answered. -/
structure Sent where
  time : ℤ
  succeeded : Option Bool

/-- The checker and the requests it has sent. -/
structure State where
  checker : Checker
  now : ℤ
  sent : List Sent

inductive Event where
  | wait (d : ℕ)
  | call
  | answered (i : ℕ) (res : Except String Reply)

/-- A call is answered from the cache or sends a request, and then it is answered when the request
is. -/
def step (s : State) : Event → Option (State × Option (Status × Option String))
  | .wait d => some ({ s with now := s.now + d }, none)
  | .call =>
    match s.checker.status s.now with
    | some status => some (s, some (status, none))
    | none => some ({ s with sent := s.sent ++ [⟨s.now, none⟩] }, none)
  | .answered i res =>
    match s.sent[i]? with
    | some ⟨time, none⟩ =>
      let r := s.checker.fetchAndCache res s.now
      some ({ s with
        checker := r.1
        sent := s.sent.set i ⟨time, some (fetchLatest res).toBool⟩ }, some r.2)
    | _ => none

def run (s : State) : List Event → Option State
  | [] => some s
  | e :: es => (step s e).bind fun r => run r.1 es

def start (current : String) (ttl : ℤ) : State := ⟨{ new current with ttl := ttl }, 0, []⟩

/-! ### What is promised -/

/-- The last release that was read, after one more event. -/
def fetched (last : Option (String × String)) : Event → Option (String × String)
  | .answered _ res => (fetchLatest res).toOption.or last
  | _ => last

def lastFetched (es : List Event) : Option (String × String) := es.foldl fetched none

/-- The answer of a call, when `last` is the last release that was read. -/
structure Right (current : String) (last : Option (String × String))
    (a : Status × Option String) : Prop where
  latest : a.1.latest = (last.map Prod.fst).getD ""
  error : a.2 = none ↔ last ≠ none
  hasUpdate : a.1.hasUpdate = true ↔ 0 < cmp a.1.latest current

/-- Any two requests are a time to live apart. -/
def Spaced (s : State) : Prop := (s.sent.map Sent.time).Pairwise fun t t' => t + s.checker.ttl ≤ t'

/-- A call that is not answered from the cache finds that every request of the last time to live has
succeeded. -/
def CalmStep (s : State) (e : Event) : Prop :=
  e = .call → s.checker.status s.now = none →
    ∀ r ∈ s.sent, s.now < r.time + s.checker.ttl → r.succeeded = some true

def Calm (s : State) : List Event → Prop
  | [] => True
  | e :: es => CalmStep s e ∧ ∀ r, step s e = some r → Calm r.1 es

/-! ### What one event does -/

section Step

variable {current : String} {ttl : ℤ} {s s' : State} {e : Event} {es : List Event}
  {last : Option (String × String)} {a : Option (Status × Option String)}

/-- The cache holds the last release that was read, and no request that succeeded was sent after it
was filled. -/
structure Inv (current : String) (ttl : ℤ) (last : Option (String × String)) (s : State) :
    Prop where
  version : s.checker.current = current
  life : s.checker.ttl = ttl
  cached : s.checker.cached = last.map (statusOf current)
  fetchedAt : s.checker.fetchedAt ≤ s.now
  sent : ∀ r ∈ s.sent, r.time ≤ s.now
  succeeded : ∀ r ∈ s.sent, r.succeeded = some true →
    last ≠ none ∧ r.time ≤ s.checker.fetchedAt

lemma inv_start (current : String) (ttl : ℤ) : Inv current ttl none (start current ttl) :=
  ⟨rfl, rfl, rfl, le_refl _, by simp [start], by simp [start]⟩

lemma right_statusOf (release : String × String) :
    Right current (some release) (statusOf current release, none) :=
  ⟨rfl, by simp, by rw [statusOf, decide_eq_true_iff]⟩

lemma cmp_empty (b : String) : cmp "" b = 0 := by
  have h : parseSemver "" = none := by decide
  rw [cmp, h]

/-- Whatever a request has led to, the call that waits for it is given the last release. -/
lemma right_fetchAndCache (h : Inv current ttl last s) (i : ℕ) (res : Except String Reply) :
    Right current (fetched last (.answered i res)) (s.checker.fetchAndCache res s.now).2 := by
  rw [fetched, Checker.fetchAndCache]
  rcases fetchLatest res with e | release
  · rw [h.cached]
    rcases last with _ | release
    · exact ⟨rfl, by simp [Except.toOption], by simp [cmp_empty]⟩
    · exact right_statusOf release
  · rw [h.version]
    exact right_statusOf release

lemma status_some (h : Inv current ttl last s) {status : Status}
    (hs : s.checker.status s.now = some status) : ∃ release, last = some release ∧
      status = statusOf current release := by
  rw [Checker.status, h.cached] at hs
  rcases last with _ | release
  · cases hs
  · simp only [Option.map_some] at hs
    split_ifs at hs
    cases hs
    exact ⟨release, rfl, rfl⟩

/-- Nothing is taken from the cache only when it is empty or has been filled long ago. -/
lemma status_none (h : Inv current ttl last s) (hs : s.checker.status s.now = none)
    (hlast : last ≠ none) : s.checker.fetchedAt + ttl ≤ s.now := by
  obtain ⟨release, rfl⟩ := Option.ne_none_iff_exists'.mp hlast
  rw [Checker.status, h.cached] at hs
  simp only [Option.map_some] at hs
  split_ifs at hs with hnow
  rw [h.life] at hnow
  omega

lemma inv_answered (h : Inv current ttl last s) {i : ℕ} {time : ℤ}
    (hi : s.sent[i]? = some ⟨time, none⟩) (res : Except String Reply) :
    Inv current ttl (fetched last (.answered i res)) ⟨(s.checker.fetchAndCache res s.now).1, s.now,
      s.sent.set i ⟨time, some (fetchLatest res).toBool⟩⟩ := by
  have htime : time ≤ s.now := h.sent _ (List.mem_of_getElem? hi)
  have hold : ∀ r ∈ s.sent.set i ⟨time, some (fetchLatest res).toBool⟩,
      r ∈ s.sent ∨ r = ⟨time, some (fetchLatest res).toBool⟩ := fun r hr =>
    List.mem_or_eq_of_mem_set hr
  have hsent : ∀ r ∈ s.sent.set i ⟨time, some (fetchLatest res).toBool⟩, r.time ≤ s.now := by
    intro r hr
    rcases hold r hr with hr | rfl
    · exact h.sent r hr
    · exact htime
  rcases hres : fetchLatest res with e | release
  · -- a failure changes nothing but the request
    have hchecker : (s.checker.fetchAndCache res s.now).1 = s.checker := by
      rw [Checker.fetchAndCache, hres]
      simp only
      split <;> rfl
    rw [hres] at hold hsent
    rw [hchecker, fetched, hres]
    refine ⟨h.version, h.life, h.cached, h.fetchedAt, hsent, fun r hr hok => ?_⟩
    rcases hold r hr with hr | rfl
    · exact h.succeeded r hr hok
    · cases hok
  · have hchecker : (s.checker.fetchAndCache res s.now).1 =
        { s.checker with cached := some (statusOf current release), fetchedAt := s.now } := by
      simp only [Checker.fetchAndCache, hres, h.version]
    rw [hres] at hsent
    rw [hchecker, fetched, hres]
    exact ⟨h.version, h.life, rfl, le_refl _, hsent, fun r hr _ =>
      ⟨by simp [Except.toOption], hsent r hr⟩⟩

lemma Inv.step (h : Inv current ttl last s) (hs : step s e = some (s', a)) :
    Inv current ttl (fetched last e) s' ∧
      ∀ ans, a = some ans → Right current (fetched last e) ans := by
  rcases e with d | _ | ⟨i, res⟩
  · cases hs
    have := h.fetchedAt
    refine ⟨⟨h.version, h.life, h.cached, ?_, fun r hr => ?_, h.succeeded⟩, by simp⟩
    · simp only
      omega
    · have := h.sent r hr
      simp only
      omega
  · rw [Updates.step] at hs
    rcases hstatus : s.checker.status s.now with _ | status
    · rw [hstatus] at hs
      cases hs
      refine ⟨⟨h.version, h.life, h.cached, h.fetchedAt, ?_, ?_⟩, by simp⟩
      · intro r hr
        rcases List.mem_append.mp hr with hr | hr
        · exact h.sent r hr
        · rw [List.mem_singleton.mp hr]
      · intro r hr hok
        rcases List.mem_append.mp hr with hr | hr
        · exact h.succeeded r hr hok
        · rw [List.mem_singleton.mp hr] at hok
          cases hok
    · rw [hstatus] at hs
      cases hs
      obtain ⟨release, rfl, rfl⟩ := status_some h hstatus
      refine ⟨h, fun ans hans => ?_⟩
      cases hans
      exact right_statusOf release
  · rw [Updates.step] at hs
    split at hs
    · rename_i time hi
      cases hs
      refine ⟨inv_answered h hi res, fun ans hans => ?_⟩
      cases hans
      exact right_fetchAndCache h i res
    · cases hs

/-- One more request is far enough from the others exactly when the call for it is calm. -/
lemma spaced_send (h : Inv current ttl last s) (hs : s.checker.status s.now = none) :
    Spaced { s with sent := s.sent ++ [⟨s.now, none⟩] } ↔ Spaced s ∧ CalmStep s .call := by
  have hold : (∀ r ∈ s.sent, r.time + s.checker.ttl ≤ s.now) ↔ CalmStep s .call := by
    constructor
    · intro hfar _ _ r hr hnear
      have := hfar r hr
      omega
    · intro hcalm r hr
      by_contra hnear
      obtain ⟨hlast, htime⟩ := h.succeeded r hr (hcalm rfl hs r hr (by omega))
      have := status_none h hs hlast
      have := h.life
      omega
  rw [← hold, Spaced, List.map_append, List.pairwise_append]
  simp [Spaced]

/-- A step keeps the requests apart exactly when it is calm. -/
lemma spaced_step (h : Inv current ttl last s) (hs : step s e = some (s', a)) :
    Spaced s' ↔ Spaced s ∧ CalmStep s e := by
  rcases e with d | _ | ⟨i, res⟩
  · cases hs
    simp [Spaced, CalmStep]
  · rw [Updates.step] at hs
    rcases hstatus : s.checker.status s.now with _ | status
    · rw [hstatus] at hs
      cases hs
      exact spaced_send h hstatus
    · rw [hstatus] at hs
      cases hs
      simp [CalmStep, hstatus]
  · rw [Updates.step] at hs
    split at hs
    · rename_i time hi
      have hlife : (s.checker.fetchAndCache res s.now).1.ttl = s.checker.ttl :=
        (inv_answered h hi res).life.trans h.life.symm
      have htimes : (s.sent.set i ⟨time, some (fetchLatest res).toBool⟩).map Sent.time =
          s.sent.map Sent.time := by
        obtain ⟨hlt, hget⟩ := List.getElem?_eq_some_iff.mp hi
        rw [List.map_set]
        refine List.ext_getElem (by simp) fun j hj _ => ?_
        rw [List.getElem_set]
        split_ifs with hij
        · subst hij
          simp [hget]
        · rfl
      cases hs
      simp only [Spaced, htimes, hlife, CalmStep, reduceCtorEq, false_implies, and_true]
    · cases hs

end Step

/-! ### Runs -/

variable {current : String} {ttl : ℤ} {s s' : State} {es : List Event}
  {last : Option (String × String)}

lemma inv_run (h : Inv current ttl last s) (hs : run s es = some s') :
    Inv current ttl (es.foldl fetched last) s' := by
  induction es generalizing s last with
  | nil =>
    cases hs
    exact h
  | cons e es ih =>
    obtain ⟨r, hr, hs⟩ := Option.bind_eq_some_iff.mp hs
    exact ih (h.step hr).1 hs

lemma spaced_run (h : Inv current ttl last s) (hs : run s es = some s') :
    Spaced s' ↔ Spaced s ∧ Calm s es := by
  induction es generalizing s last with
  | nil =>
    cases hs
    simp [Calm]
  | cons e es ih =>
    obtain ⟨r, hr, hs⟩ := Option.bind_eq_some_iff.mp hs
    rw [ih (h.step hr).1 hs, spaced_step h hr, and_assoc, Calm]
    refine and_congr_right fun _ => and_congr_right fun _ => ?_
    rw [hr]
    simp

/-- **The check for updates**: every call is answered with the last release that was read, and the
requests are a time to live apart if and only if the run is calm. -/
theorem answered_and_spaced_iff (current : String) (ttl : ℤ) (es : List Event) (s : State)
    (hs : run (start current ttl) es = some s) :
    (∀ e s' ans, step s e = some (s', some ans) → Right current (lastFetched (es ++ [e])) ans) ∧
      (Spaced s ↔ Calm (start current ttl) es) := by
  constructor
  · intro e s' ans he
    rw [lastFetched, List.foldl_concat]
    exact ((inv_run (inv_start current ttl) hs).step he).2 ans rfl
  · rw [spaced_run (inv_start current ttl) hs]
    simp [Spaced, start]

/-- A release is read, and called for again within the hour. -/
def readOnce : List Event :=
  [.call, .answered 0 (.ok ⟨200, .ok ("v0.5.0", "releases/v0.5.0")⟩), .call]

lemma fetchLatest_five : fetchLatest (.ok ⟨200, .ok ("v0.5.0", "releases/v0.5.0")⟩) =
    .ok ("0.5.0", "releases/v0.5.0") := by decide

lemma run_readOnce : run (start "0.4.0" hour) readOnce = some
    ⟨⟨"0.4.0", hour, some (statusOf "0.4.0" ("0.5.0", "releases/v0.5.0")), 0⟩, 0,
      [⟨0, some true⟩]⟩ := by
  simp [readOnce, run, step, start, new, Checker.status, Checker.fetchAndCache, fetchLatest_five,
    Except.toBool, hour]

theorem answered_and_spaced_iff_readOnce :
    Spaced ⟨⟨"0.4.0", hour, some (statusOf "0.4.0" ("0.5.0", "releases/v0.5.0")), 0⟩, 0,
      [⟨0, some true⟩]⟩ ↔ Calm (start "0.4.0" hour) readOnce :=
  (answered_and_spaced_iff "0.4.0" hour readOnce _ run_readOnce).2

lemma run_failed : run (start "0.4.0" hour) [.call, .answered 0 (.error "timeout"), .call] =
    some ⟨new "0.4.0", 0, [⟨0, some false⟩, ⟨0, none⟩]⟩ := rfl

/-- The first request fails, and the next call sends another one at once. -/
theorem not_answered_and_spaced : ¬ ∀ (current : String) (es : List Event) (s : State),
    run (start current hour) es = some s →
      (∀ e s' ans, step s e = some (s', some ans) → Right current (lastFetched (es ++ [e])) ans) ∧
        Spaced s := by
  intro h
  have hspaced := (h "0.4.0" _ _ run_failed).2
  have hfar : hour ≤ 0 := by simpa [Spaced, new] using hspaced
  exact absurd hfar (by decide)

end Veckomenyn.Updates
