import Mathlib.Data.String.Basic

/-!
What plan the page shows.

The page loads a plan when its route changes, when another plan becomes the shown one and when it
is told of a change. A load that is overtaken by another is dropped when it is answered; a patch is
not, and sets the plan it is answered with. However routes, changes and answers follow each other,
once nothing is being loaded the page of a plan shows that plan, with every change it has been told
of while no patch was under way, and nothing is loaded for ever.
-/

namespace Veckomenyn.Loader

/-! ### Routes -/

inductive Route where
  | home
  | week (id : ℕ)
  | new
  | print (id : ℕ)
  | settings
  | preferences
  | usage
  | setup
deriving DecidableEq

/-- What a load depends on in the route. -/
def routeLoadKey : Route → String
  | .home => "home"
  | .week id => "week:" ++ toString id
  | .new => "new"
  | .print id => "print:" ++ toString id
  | .settings => "settings"
  | .preferences => "preferences"
  | .usage => "usage"
  | .setup => "setup"

lemma toDigits_injective : Function.Injective (Nat.toDigits 10) := by
  intro m n h
  rw [← Nat.ofDigitChars_ten_toDigits (n := m), h, Nat.ofDigitChars_ten_toDigits]

/-- Two pages with one key are the same page. -/
lemma routeLoadKey_injective : Function.Injective routeLoadKey := by
  intro r r' h
  have h := congrArg String.toList h
  cases r <;> cases r' <;> simp [routeLoadKey, String.toList_append] at h ⊢ <;>
    exact toDigits_injective h

/-! ### The page -/

/-- A plan as it was when the database had seen so many writes. -/
structure Detail where
  id : ℕ
  seen : ℕ
deriving DecidableEq

inductive Status where
  | loading
  | empty
  | ready
  | error
deriving DecidableEq

inductive Load where
  | byId (id : ℕ)
  | current
  /-- Of the form for a new plan, which loads a plan to go back to. -/
  | fallback
deriving DecidableEq

/-- A load that has not been dropped, and when it was asked for. -/
structure Ask where
  load : Load
  since : ℕ
deriving DecidableEq

/-- `patches` says of each patch under way when it was sent. `now` counts the writes to the
database, and `due` those there were when the page was last told of a change. -/
structure Main where
  route : Route
  week : Option Detail
  status : Status
  asked : Option Ask
  patches : List ℕ
  now : ℕ
  due : ℕ
deriving DecidableEq

/-- A dialog keeps the plan beneath it. -/
def beneath (week : Option Detail) : Load :=
  match week with
  | some w => if w.id = 0 then .current else .byId w.id
  | none => .current

/-- What is to be loaded for the route. -/
def wanted (route : Route) (week : Option Detail) : Option Load :=
  match route with
  | .home => none
  | .new => if week = none then some .fallback else none
  | .week id => some (.byId id)
  | _ => some (beneath week)

/-- The effect that loads; a load that was under way is dropped. -/
def effect (s : Main) : Main :=
  { s with
    status := if s.route = .home then .ready else s.status
    asked := (wanted s.route s.week).map fun load => ⟨load, s.now⟩ }

def isPrint : Route → Bool
  | .print _ => true
  | _ => false

/-- The page is made anew, and hears of no patch that was sent before; what is printed has a page of
its own that loads for itself. -/
def mount (now due : ℕ) (route : Route) : Main :=
  let s : Main := ⟨route, none, .loading, none, [], now, due⟩
  if isPrint route then s else effect s

/-- The plan that is shown is set, and the effect runs when it is another one. -/
def setWeek (s : Main) (week : Option Detail) : Main :=
  let s' := { s with week := week }
  if week.map Detail.id = s.week.map Detail.id then s' else effect s'

/-- The tools after which the page loads anew. -/
def MUTATING_TOOLS : List String :=
  ["create_week", "update_week", "add_dinner", "update_dinner", "delete_dinner", "add_exception",
    "record_retrospective", "update_preference", "update_household_settings"]

inductive Step where
  /-- Someone writes to the database. -/
  | write
  | navigate (route : Route)
  /-- A refresh, the end of the agent's run or a rating that was saved. -/
  | bumpLoad
  | toolResult (tool : String)
  | answer (res : Except String (Option Detail))
  /-- A patch of the shown plan is sent, and one of those under way is answered or fails. -/
  | patch
  | patched (i : ℕ) (updated : Option Detail)
  /-- The answer to a new plan and to the deletion of the shown one. -/
  | created (week : Detail)
  | deleted

/-- The page is told of a change. -/
def bumpLoad (s : Main) : Main := effect { s with due := s.now }

def navigate (s : Main) (route : Route) : Main :=
  if route = s.route then s
  else if isPrint s.route || isPrint route then mount s.now s.due route
  else if routeLoadKey route = routeLoadKey s.route then { s with route := route }
  else effect { s with route := route }

/-- A load that was dropped is not answered any more. -/
def answer (s : Main) (res : Except String (Option Detail)) : Main :=
  match s.asked with
  | none => s
  | some ask =>
    let s := { s with asked := none }
    match res, ask.load with
    | .ok (some week), _ => setWeek { s with status := .ready } (some week)
    | .ok none, .fallback => s
    | .ok none, _ => { s with status := .empty }
    | .error _, _ => { s with status := .error }

/-- Whatever plan is shown by now. -/
def patched (s : Main) (i : ℕ) (updated : Option Detail) : Main :=
  match s.patches[i]?, updated with
  | some _, some week => setWeek { s with patches := s.patches.eraseIdx i } (some week)
  | some _, none => { s with patches := s.patches.eraseIdx i }
  | none, _ => s

def step (s : Main) : Step → Main
  | .write => { s with now := s.now + 1 }
  | .navigate route => navigate s route
  | .bumpLoad => if isPrint s.route then s else bumpLoad s
  | .toolResult tool => if tool ∈ MUTATING_TOOLS ∧ ¬isPrint s.route then bumpLoad s else s
  | .answer res => answer s res
  | .patch => if s.week = none then s else { s with patches := s.patches ++ [s.now] }
  | .patched i updated => patched s i updated
  | .created week =>
    if isPrint s.route then navigate s (.week week.id)
    else navigate (setWeek { s with status := .ready } (some week)) (.week week.id)
  | .deleted =>
    if isPrint s.route then navigate s .home
    else navigate (setWeek { s with status := .ready } none) .home

def run (s : Main) (steps : List Step) : Main := steps.foldl step s

/-! ### What the server answers -/

/-- A plan is answered as it was at some time since it was asked for, under the id that was asked
for. -/
def Honest (s : Main) : Except String (Option Detail) → Prop
  | .ok (some week) => week.id ≠ 0 ∧ ∀ ask ∈ s.asked, ask.since ≤ week.seen ∧ week.seen ≤ s.now ∧
    ∀ id, ask.load = .byId id → week.id = id
  | .ok none => ∀ ask ∈ s.asked, ∀ id, ask.load ≠ .byId id
  | .error _ => True

/-- A patch is answered with a plan as it was once the patch was there, and a new plan has an id of
its own. -/
def Fair (s : Main) : Step → Prop
  | .answer res => Honest s res
  | .patched i updated => ∀ since ∈ s.patches[i]?, ∀ week ∈ updated, since ≤ week.seen
  | .created week => week.id ≠ 0 ∧ ∀ w ∈ s.week, w.id ≠ week.id
  | _ => True

def AllFair : Main → List Step → Prop
  | _, [] => True
  | s, x :: xs => Fair s x ∧ AllFair (step s x) xs

/-- The page is told of no change while a patch of its own is under way. -/
def Calm (s : Main) : Step → Prop
  | .bumpLoad => s.patches = []
  | .toolResult tool => tool ∈ MUTATING_TOOLS → s.patches = []
  | _ => True

def AllCalm : Main → List Step → Prop
  | _, [] => True
  | s, x :: xs => Calm s x ∧ AllCalm (step s x) xs

/-! ### The invariant -/

/-- The route shows a plan: its own, or the one beneath a dialog. -/
def Shows (route : Route) (week : Detail) : Prop :=
  match route with
  | .week id => week.id = id
  | .home => False
  | .new => False
  | .print _ => False
  | _ => True

/-- A load under way is the one the route and the shown plan want; there is none, and no plan and no
patch, where a plan is printed. -/
structure Aims (s : Main) : Prop where
  wanted : ∀ ask ∈ s.asked, wanted s.route s.week = some ask.load
  print : isPrint s.route = true → s.asked = none ∧ s.week = none ∧ s.patches = []

/-- A load under way was asked for since the last change; when there is none, what is shown as ready
is the plan of the route and, as long as the page has been calm, has every change. -/
structure Inv (calm : Prop) (s : Main) : Prop where
  due : s.due ≤ s.now
  since : ∀ ask ∈ s.asked, s.due ≤ ask.since
  patches : calm → ∀ since ∈ s.patches, s.due ≤ since
  ready : s.asked = none → s.status = .ready → ∀ id, s.route = .week id → ∃ w, s.week = some w ∧
    w.id = id
  fresh : calm → s.asked = none → s.status = .ready → ∀ w ∈ s.week, Shows s.route w →
    s.due ≤ w.seen

section

variable {s : Main} {calm : Prop}

lemma wanted_none {route : Route} {week : Option Detail} (h : wanted route week = none) :
    (∀ id, route ≠ .week id) ∧ ∀ w, ¬Shows route w := by
  cases route with
  | home => exact ⟨by simp, fun _ h => h⟩
  | new => exact ⟨by simp, fun _ h => h⟩
  | week id => cases h
  | print id => cases h
  | settings => cases h
  | preferences => cases h
  | usage => cases h
  | setup => cases h

lemma beneath_ne (week : Option Detail) : beneath week ≠ .fallback := by
  unfold beneath
  split
  · split_ifs <;> simp
  · simp

lemma wanted_fallback {route : Route} {week : Option Detail}
    (h : wanted route week = some .fallback) : route = .new := by
  cases route with
  | new => rfl
  | home => cases h
  | week id => cases h
  | print id => exact absurd (Option.some.inj h) (beneath_ne week)
  | settings => exact absurd (Option.some.inj h) (beneath_ne week)
  | preferences => exact absurd (Option.some.inj h) (beneath_ne week)
  | usage => exact absurd (Option.some.inj h) (beneath_ne week)
  | setup => exact absurd (Option.some.inj h) (beneath_ne week)

lemma wanted_congr {week week' : Option Detail} (h : week'.map Detail.id = week.map Detail.id)
    (route : Route) : wanted route week' = wanted route week := by
  rcases week with _ | w <;> rcases week' with _ | w'
  · rfl
  · cases h
  · cases h
  · have hid : w'.id = w.id := Option.some.inj h
    cases route <;> simp [wanted, beneath, hid]

lemma setWeek_same {week : Option Detail} (h : week.map Detail.id = s.week.map Detail.id) :
    setWeek s week = { s with week := week } := if_pos h

lemma setWeek_other {week : Option Detail} (h : week.map Detail.id ≠ s.week.map Detail.id) :
    setWeek s week = effect { s with week := week } := if_neg h

/-- The page stays where it is, makes itself anew, or loads what the other route wants. -/
lemma navigate_cases (s : Main) (route : Route) : (route = s.route ∧ navigate s route = s) ∨
    (route ≠ s.route ∧ navigate s route = mount s.now s.due route) ∨
    (route ≠ s.route ∧ isPrint route = false ∧
      navigate s route = effect { s with route := route }) := by
  unfold navigate
  split_ifs with hroute hprint hkey
  · exact Or.inl ⟨hroute, rfl⟩
  · exact Or.inr (Or.inl ⟨hroute, rfl⟩)
  · exact absurd (routeLoadKey_injective hkey) hroute
  · rw [Bool.or_eq_true, not_or, Bool.not_eq_true, Bool.not_eq_true] at hprint
    exact Or.inr (Or.inr ⟨hroute, hprint.2, rfl⟩)

/-- An answer that is a plan sets it, and any other ends the loading. -/
lemma answer_cases (s : Main) (res : Except String (Option Detail)) :
    (s.asked = none ∧ answer s res = s) ∨ (∃ ask week, s.asked = some ask ∧
      res = .ok (some week) ∧
      answer s res = setWeek { s with status := .ready, asked := none } (some week)) ∨
    (∃ ask, s.asked = some ask ∧ ask.load = .fallback ∧ answer s res = { s with asked := none }) ∨
    ∃ status, status ≠ .ready ∧ answer s res = { s with asked := none, status := status } := by
  unfold answer
  split
  · exact Or.inl ⟨‹_›, rfl⟩
  · next ask hask =>
    split
    · next _ _ week => exact Or.inr (Or.inl ⟨ask, week, hask, rfl, rfl⟩)
    · next _ hload => exact Or.inr (Or.inr (Or.inl ⟨ask, hask, hload, rfl⟩))
    · exact Or.inr (Or.inr (Or.inr ⟨.empty, by simp, rfl⟩))
    · exact Or.inr (Or.inr (Or.inr ⟨.error, by simp, rfl⟩))

/-- The answer to a patch sets the plan it brings. -/
lemma patched_cases (s : Main) (i : ℕ) (updated : Option Detail) : patched s i updated = s ∨
    (∃ since week, s.patches[i]? = some since ∧ updated = some week ∧
      patched s i updated = setWeek { s with patches := s.patches.eraseIdx i } (some week)) ∨
    patched s i updated = { s with patches := s.patches.eraseIdx i } := by
  unfold patched
  split
  · next since week hi => exact Or.inr (Or.inl ⟨since, week, hi, rfl, rfl⟩)
  · exact Or.inr (Or.inr rfl)
  · exact Or.inl rfl

/-! ### What is loaded is what is wanted -/

lemma aims_effect (hprint : isPrint s.route = false) : Aims (effect s) := by
  refine ⟨fun ask hask => ?_, fun h => absurd (hprint.symm.trans h) (by simp)⟩
  obtain ⟨load, hload, rfl⟩ := Option.map_eq_some_iff.mp hask
  exact hload

lemma aims_mount (now due : ℕ) (route : Route) : Aims (mount now due route) := by
  unfold mount
  rcases hprint : isPrint route with _ | _
  · exact aims_effect hprint
  · exact ⟨by simp, fun _ => ⟨rfl, rfl, rfl⟩⟩

lemma Aims.navigate (h : Aims s) (route : Route) : Aims (navigate s route) := by
  rcases navigate_cases s route with ⟨-, heq⟩ | ⟨-, heq⟩ | ⟨-, hprint, heq⟩
  · rwa [heq]
  · rw [heq]
    exact aims_mount s.now s.due route
  · rw [heq]
    exact aims_effect hprint

lemma aims_setWeek {week : Option Detail} (hprint : isPrint s.route = false)
    (hwanted : ∀ ask ∈ s.asked, wanted s.route s.week = some ask.load) :
    Aims (setWeek s week) := by
  by_cases hsame : week.map Detail.id = s.week.map Detail.id
  · rw [setWeek_same hsame]
    refine ⟨fun ask hask => ?_, fun h => absurd (hprint.symm.trans h) (by simp)⟩
    exact (wanted_congr hsame s.route).trans (hwanted ask hask)
  · rw [setWeek_other hsame]
    exact aims_effect hprint

lemma Aims.not_print {ask : Ask} (h : Aims s) (hask : s.asked = some ask) :
    isPrint s.route = false := by
  rw [← Bool.not_eq_true]
  intro hp
  rw [(h.print hp).1] at hask
  cases hask

lemma Aims.answer (h : Aims s) (res : Except String (Option Detail)) : Aims (answer s res) := by
  rcases answer_cases s res with ⟨-, heq⟩ | ⟨ask, week, hask, -, heq⟩ | ⟨ask, hask, -, heq⟩ |
    ⟨status, -, heq⟩
  · rwa [heq]
  · rw [heq]
    exact aims_setWeek (h.not_print hask) (by simp)
  · rw [heq]
    exact ⟨by simp, fun hp => ⟨rfl, (h.print hp).2⟩⟩
  · rw [heq]
    exact ⟨by simp, fun hp => ⟨rfl, (h.print hp).2⟩⟩

lemma Aims.patched (h : Aims s) (i : ℕ) (updated : Option Detail) : Aims (patched s i updated) := by
  rcases patched_cases s i updated with heq | ⟨since, week, hi, -, heq⟩ | heq
  · rwa [heq]
  · rw [heq]
    refine aims_setWeek ?_ h.wanted
    rw [← Bool.not_eq_true]
    intro hp
    rw [(h.print hp).2.2] at hi
    cases hi
  · rw [heq]
    refine ⟨h.wanted, fun hp => ⟨(h.print hp).1, (h.print hp).2.1, ?_⟩⟩
    simp [(h.print hp).2.2]

lemma Aims.step (h : Aims s) (x : Step) : Aims (step s x) := by
  cases x with
  | write => exact ⟨h.wanted, h.print⟩
  | navigate route => exact h.navigate route
  | bumpLoad =>
    simp only [Loader.step]
    split_ifs with hprint
    · exact h
    · exact aims_effect (Bool.not_eq_true _ ▸ hprint)
  | toolResult tool =>
    simp only [Loader.step]
    split_ifs with htool
    · exact aims_effect (Bool.not_eq_true _ ▸ htool.2)
    · exact h
  | answer res => exact h.answer res
  | patch =>
    simp only [Loader.step]
    split_ifs with hweek
    · exact h
    · exact ⟨h.wanted, fun hp => absurd (h.print hp).2.1 hweek⟩
  | patched i updated => exact h.patched i updated
  | created week =>
    simp only [Loader.step]
    split_ifs with hprint
    · exact h.navigate (.week week.id)
    · exact (aims_setWeek (s := { s with status := .ready }) (Bool.not_eq_true _ ▸ hprint)
        h.wanted).navigate (.week week.id)
  | deleted =>
    simp only [Loader.step]
    split_ifs with hprint
    · exact h.navigate .home
    · exact (aims_setWeek (s := { s with status := .ready }) (Bool.not_eq_true _ ▸ hprint)
        h.wanted).navigate .home

lemma Aims.run (h : Aims s) (steps : List Step) : Aims (run s steps) := by
  induction steps generalizing s with
  | nil => exact h
  | cons x steps ih => exact ih (h.step x)

/-! ### What is shown has every change -/

/-- After the effect what is wanted is being loaded. -/
lemma inv_effect (hdue : s.due ≤ s.now) (hpatches : calm → ∀ since ∈ s.patches, s.due ≤ since) :
    Inv calm (effect s) := by
  refine ⟨hdue, fun ask hask => ?_, hpatches, fun hnone _ id hid => ?_, ?_⟩
  · obtain ⟨load, -, rfl⟩ := Option.map_eq_some_iff.mp hask
    exact hdue
  · exact absurd hid ((wanted_none (Option.map_eq_none_iff.mp hnone)).1 id)
  · intro _ hnone _ w _ hshows
    exact absurd hshows ((wanted_none (Option.map_eq_none_iff.mp hnone)).2 w)

lemma inv_mount {now due : ℕ} (hdue : due ≤ now) (route : Route) :
    Inv calm (mount now due route) := by
  unfold mount
  rcases isPrint route with _ | _
  · exact inv_effect hdue (by simp)
  · exact ⟨hdue, by simp, by simp, by simp, by simp⟩

/-- Another plan is loaded again; of the same plan the new state is shown. -/
lemma inv_setWeek {week : Option Detail} (hdue : s.due ≤ s.now)
    (hpatches : calm → ∀ since ∈ s.patches, s.due ≤ since)
    (hsame : week.map Detail.id = s.week.map Detail.id → Inv calm { s with week := week }) :
    Inv calm (setWeek s week) := by
  by_cases h : week.map Detail.id = s.week.map Detail.id
  · rw [setWeek_same h]
    exact hsame h
  · rw [setWeek_other h]
    exact inv_effect hdue hpatches

lemma inv_navigate_ne {route : Route} (hdue : s.due ≤ s.now)
    (hpatches : calm → ∀ since ∈ s.patches, s.due ≤ since) (hne : route ≠ s.route) :
    Inv calm (navigate s route) := by
  rcases navigate_cases s route with ⟨hroute, -⟩ | ⟨-, heq⟩ | ⟨-, -, heq⟩
  · exact absurd hroute hne
  · rw [heq]
    exact inv_mount hdue route
  · rw [heq]
    exact inv_effect hdue hpatches

lemma Inv.navigate (h : Inv calm s) (route : Route) : Inv calm (navigate s route) := by
  by_cases hroute : route = s.route
  · unfold Loader.navigate
    rwa [if_pos hroute]
  · exact inv_navigate_ne h.due h.patches hroute

/-- What is asked for is answered as it is, and asked for again when it is another plan. -/
lemma Inv.answer {res : Except String (Option Detail)} (h : Inv calm s) (haims : Aims s)
    (hhonest : Honest s res) : Inv calm (answer s res) := by
  rcases answer_cases s res with ⟨-, heq⟩ | ⟨ask, week, hask, rfl, heq⟩ | ⟨ask, hask, hload, heq⟩ |
    ⟨status, hstatus, heq⟩
  · rwa [heq]
  · obtain ⟨-, hhonest⟩ := hhonest
    obtain ⟨hseen, -, hid⟩ := hhonest ask hask
    rw [heq]
    refine inv_setWeek h.due h.patches fun _ => ⟨h.due, by simp, h.patches, ?_, ?_⟩
    · intro _ _ id hroute
      have hload : wanted s.route s.week = some (.byId id) := by
        rw [show s.route = .week id from hroute]
        rfl
      exact ⟨week, rfl, hid id (Option.some.inj ((haims.wanted ask hask).symm.trans hload))⟩
    · intro _ _ _ w hw _
      obtain rfl := Option.mem_some_iff.mp hw
      exact (h.since ask hask).trans hseen
  · -- the form for a new plan shows none
    have hnew : s.route = .new := wanted_fallback (hload ▸ haims.wanted ask hask)
    rw [heq]
    refine ⟨h.due, by simp, h.patches, fun _ _ id hid => ?_, fun _ _ _ w _ hshows => ?_⟩
    · exact absurd (hnew.symm.trans hid) (by simp)
    · rw [show ({ s with asked := none } : Main).route = .new from hnew] at hshows
      exact hshows.elim
  · rw [heq]
    exact ⟨h.due, by simp, h.patches, fun _ hr => absurd hr hstatus,
      fun _ _ hr => absurd hr hstatus⟩

/-- A patch that was sent since the last change is answered with every change. -/
lemma Inv.patched {i : ℕ} {updated : Option Detail} (h : Inv calm s)
    (hfair : Fair s (.patched i updated)) : Inv calm (patched s i updated) := by
  have hpatches : calm → ∀ since ∈ s.patches.eraseIdx i, s.due ≤ since := fun hc since hmem =>
    h.patches hc since (List.mem_of_mem_eraseIdx hmem)
  rcases patched_cases s i updated with heq | ⟨since, week, hi, rfl, heq⟩ | heq
  · rwa [heq]
  · rw [heq]
    refine inv_setWeek h.due hpatches fun hsame => ⟨h.due, h.since, hpatches, ?_, ?_⟩
    · intro hnone hready id hroute
      obtain ⟨w, hw, hid⟩ := h.ready hnone hready id hroute
      rw [show ({ s with patches := s.patches.eraseIdx i } : Main).week = some w from hw] at hsame
      exact ⟨week, rfl, (Option.some.inj hsame).trans hid⟩
    · intro hc _ _ w hw _
      obtain rfl := Option.mem_some_iff.mp hw
      exact (h.patches hc since (List.mem_of_getElem? hi)).trans (hfair since hi week rfl)
  · rw [heq]
    exact ⟨h.due, h.since, hpatches, h.ready, h.fresh⟩

lemma Inv.created {week : Detail} (h : Inv calm s) (hnew : ∀ w ∈ s.week, w.id ≠ week.id) :
    Inv calm (Loader.navigate (setWeek { s with status := .ready } (some week))
      (.week week.id)) := by
  refine Inv.navigate (inv_setWeek (s := { s with status := .ready }) h.due h.patches
    fun hsame => ?_) _
  replace hsame : some week.id = s.week.map Detail.id := hsame
  rcases hw : s.week with _ | w
  · rw [hw] at hsame
    cases hsame
  · rw [hw] at hsame
    exact absurd (Option.some.inj hsame).symm (hnew w hw)

lemma Inv.deleted (h : Inv calm s) (haims : Aims s) :
    Inv calm (Loader.navigate (setWeek { s with status := .ready } none) .home) := by
  by_cases hhome : s.route = .home
  · refine Inv.navigate (inv_setWeek (s := { s with status := .ready }) h.due h.patches fun _ =>
      ⟨h.due, fun ask hask => ?_, h.patches, fun _ _ id hid => ?_, fun _ _ _ w hw => ?_⟩) _
    · have hwanted := haims.wanted ask hask
      rw [hhome] at hwanted
      cases hwanted
    · exact absurd (hhome.symm.trans hid) (by simp)
    · cases hw
  · have hset : (setWeek { s with status := .ready } none).route = s.route ∧
        (setWeek { s with status := .ready } none).due = s.due ∧
        (setWeek { s with status := .ready } none).now = s.now ∧
        (setWeek { s with status := .ready } none).patches = s.patches := by
      unfold setWeek
      split_ifs <;> exact ⟨rfl, rfl, rfl, rfl⟩
    obtain ⟨hroute, hdue, hnow, hpatches⟩ := hset
    refine inv_navigate_ne ?_ ?_ ?_
    · rw [hdue, hnow]
      exact h.due
    · rw [hdue, hpatches]
      exact h.patches
    · rw [hroute]
      exact Ne.symm hhome

lemma Inv.step {x : Step} (h : Inv calm s) (haims : Aims s) (hfair : Fair s x)
    (hcalm : calm → Calm s x) : Inv calm (step s x) := by
  have hbump (hnone : calm → s.patches = []) : Inv calm (bumpLoad s) :=
    inv_effect le_rfl fun hc since hmem => by
      rw [show ({ s with due := s.now } : Main).patches = [] from hnone hc] at hmem
      cases hmem
  cases x with
  | write => exact ⟨h.due.trans (Nat.le_succ _), h.since, h.patches, h.ready, h.fresh⟩
  | navigate route => exact h.navigate route
  | bumpLoad =>
    simp only [Loader.step]
    split_ifs with hprint
    · exact h
    · exact hbump hcalm
  | toolResult tool =>
    simp only [Loader.step]
    split_ifs with htool
    · exact hbump fun hc => hcalm hc htool.1
    · exact h
  | answer res => exact h.answer haims hfair
  | patch =>
    simp only [Loader.step]
    split_ifs with hweek
    · exact h
    · refine ⟨h.due, h.since, fun hc since hmem => ?_, h.ready, h.fresh⟩
      rcases List.mem_append.mp hmem with hmem | hmem
      · exact h.patches hc since hmem
      · rw [List.mem_singleton.mp hmem]
        exact h.due
  | patched i updated => exact h.patched hfair
  | created week =>
    simp only [Loader.step]
    split_ifs with hprint
    · exact h.navigate (.week week.id)
    · exact h.created hfair.2
  | deleted =>
    simp only [Loader.step]
    split_ifs with hprint
    · exact h.navigate .home
    · exact h.deleted haims

lemma Inv.run {steps : List Step} (h : Inv calm s) (haims : Aims s) (hfair : AllFair s steps)
    (hcalm : calm → AllCalm s steps) : Inv calm (run s steps) := by
  induction steps generalizing s with
  | nil => exact h
  | cons x steps ih =>
    exact ih (h.step haims hfair.1 fun hc => (hcalm hc).1) (haims.step x) hfair.2
      fun hc => (hcalm hc).2

end

section

variable {s : Main}

/-- The load of a shown plan ends with its answer. -/
lemma asked_answer {w : Detail} {res : Except String (Option Detail)} (hweek : s.week = some w)
    (hload : ∀ ask ∈ s.asked, ask.load = .byId w.id) (hhonest : Honest s res) :
    (answer s res).asked = none := by
  rcases answer_cases s res with ⟨hnone, heq⟩ | ⟨ask, week, hask, rfl, heq⟩ | ⟨-, -, -, heq⟩ |
    ⟨status, -, heq⟩
  · rwa [heq]
  · have hid : week.id = w.id := (hhonest.2 ask hask).2.2 w.id (hload ask hask)
    rw [heq, setWeek_same (by simp [hweek, hid])]
  · rw [heq]
  · rw [heq]

/-- What is loaded for the plan that has just been answered is that plan. -/
lemma wanted_answered {week : Detail} {load : Load} {ask : Ask}
    (hwanted : wanted s.route s.week = some ask.load) (hpos : week.id ≠ 0)
    (hid : ∀ id, ask.load = .byId id → week.id = id)
    (hload : wanted s.route (some week) = some load) : load = .byId week.id := by
  generalize s.route = route at hwanted hload
  cases route with
  | home => cases hload
  | new => cases hload
  | week id =>
    rw [hid id (Option.some.inj hwanted).symm]
    exact (Option.some.inj hload).symm
  | _ =>
    rw [← Option.some.inj hload]
    exact if_neg hpos

/-- After an answer there is a plan that is loaded at most once more. -/
lemma Aims.settling {res : Except String (Option Detail)} (h : Aims s) (hhonest : Honest s res) :
    (Loader.answer s res).asked = none ∨ ∃ w, (Loader.answer s res).week = some w ∧
      ∀ ask ∈ (Loader.answer s res).asked, ask.load = .byId w.id := by
  rcases answer_cases s res with ⟨hnone, heq⟩ | ⟨ask, week, hask, rfl, heq⟩ | ⟨-, -, -, heq⟩ |
    ⟨status, -, heq⟩
  · rw [heq]
    exact Or.inl hnone
  · obtain ⟨hpos, hhonest⟩ := hhonest
    rw [heq]
    by_cases hsame : (some week).map Detail.id = s.week.map Detail.id
    · rw [setWeek_same (s := { s with status := .ready, asked := none }) hsame]
      exact Or.inl rfl
    · rw [setWeek_other (s := { s with status := .ready, asked := none }) hsame]
      refine Or.inr ⟨week, rfl, fun ask' hask' => ?_⟩
      obtain ⟨load, hload, rfl⟩ := Option.map_eq_some_iff.mp hask'
      exact wanted_answered (h.wanted ask hask) hpos (hhonest ask hask).2.2 hload
  · rw [heq]
    exact Or.inl rfl
  · rw [heq]
    exact Or.inl rfl

end

/-- **Loading settles**: from any state that can be reached, two answers leave nothing that is being
loaded. -/
theorem loading_settles (now : ℕ) (route : Route) (steps : List Step)
    (res res' : Except String (Option Detail))
    (hhonest : Honest (run (mount now now route) steps) res)
    (hhonest' : Honest (answer (run (mount now now route) steps) res) res') :
    (answer (answer (run (mount now now route) steps) res) res').asked = none := by
  have haims : Aims (run (mount now now route) steps) := (aims_mount now now route).run steps
  rcases haims.settling hhonest with hnone | ⟨w, hweek, hload⟩
  · generalize answer (run (mount now now route) steps) res = s at hnone
    unfold answer
    rw [hnone]
    exact hnone
  · exact asked_answer hweek hload hhonest'

theorem loading_settles_opening :
    (answer (answer (mount 3 3 .settings) (.ok (some ⟨7, 3⟩))) (.error "get week: 500")).asked =
      none :=
  loading_settles 3 .settings [] (.ok (some ⟨7, 3⟩)) (.error "get week: 500")
    ⟨by decide, fun ask hask => by
      obtain rfl : (⟨.current, 3⟩ : Ask) = ask := Option.some.inj hask
      exact ⟨by decide, by decide, fun id hid => by cases hid⟩⟩ trivial

end Veckomenyn.Loader
