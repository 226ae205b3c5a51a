import Veckomenyn.Requests
import Veckomenyn.Threads

/-!
An answer that arrives after the session it belongs to.

A request reads its cookies, waits without a lock, and stores the cookies of its answer whenever
that arrives. Beside it the client is cleared and logs in to another account. The late answer is
harmless if it is stored before the client is cleared, or if answers that the login stores later
set again what it sets.
-/

namespace Veckomenyn.LateAnswer

open Remote Willys

inductive Party where
  | request
  | login
deriving DecidableEq

def Party.Result : Party → Type
  | .request => Response
  | .login => Customer

/-- The request, and beside it the change of the account. -/
def programs (method : Method) (route : Route) (body : Option Payload)
    (username password : String) : (i : Party) → WillysProc i.Result
  | .request => doRequest method route body
  | .login => do
    Willys.modify Client.clearState
    Willys.login username password

abbrev Run := Threads Party Memory Query Reply Failure Party.Result

abbrev Section := Act Party Memory Query Reply

/-! ### Who has set a cookie -/

/-- The response a section deals with. -/
def answerOf : Option ((q : Query) × Reply q) → Option Response
  | some ⟨.http _, a⟩ => match (a : Except String Response) with
    | .ok resp => some resp
    | .error _ => none
  | _ => none

/-- The names of the cookies a response sets. -/
def names (resp : Response) : List String := (resp.setCookie.filterMap cookieOf).map Prod.fst

def sets (n : String) (a : Section) : Bool := (answerOf a.last).any fun resp => n ∈ names resp

/-- The section deals with no response and leaves no such cookie. -/
def drops (n : String) (a : Section) : Bool :=
  (answerOf a.last).isNone && (a.post.client.cookies n).isNone

/-- Whose request the value of a cookie was the answer to. -/
def origin (n : String) (acts : List Section) : Option Party :=
  acts.foldl (fun o a => if sets n a then some a.who else if drops n a then none else o) none

lemma origin_snoc (n : String) (acts : List Section) (a : Section) : origin n (acts ++ [a]) =
    if sets n a then some a.who else if drops n a then none else origin n acts := by
  rw [origin, List.foldl_append]
  rfl

/-! ### What a section does to the cookies -/

/-- A response is stored; without one the cookies stay. -/
def Stores (last : Option ((q : Query) × Reply q)) (m m' : Memory) : Prop :=
  match answerOf last with
  | some resp => m'.client.cookies = setCookies resp.setCookie m.client.cookies
  | none => m'.client.cookies = m.client.cookies

/-- The names of the cookies the next move of a thread stores. -/
def stored (t : Run) (i : Party) : List String :=
  match t.proc i with
  | .act _ _ => ((answerOf (t.last i)).map names).getD []
  | _ => []

lemma setCookies_isSome (headers : List String) (cs : Cookies) (n : String) :
    (setCookies headers cs n).isSome = true ↔
      n ∈ (headers.filterMap cookieOf).map Prod.fst ∨ (cs n).isSome = true := by
  rw [setCookies]
  induction headers.filterMap cookieOf generalizing cs with
  | nil => simp
  | cons nv l ih =>
    rw [List.foldl_cons, ih, List.map_cons, List.mem_cons]
    by_cases hn : n = nv.1
    · subst hn
      simp
    · simp [hn]

/-- A cookie is there exactly if somebody's answer has set it. -/
def Fits (t : Run) : Prop :=
  ∀ n, (origin n t.acts).isSome = true ↔ (t.mem.client.cookies n).isSome = true

lemma mem_stored {t : Run} {i : Party} {β : Type} {f : Memory → β × Memory}
    {k : β → WillysProc i.Result} (hp : t.proc i = .act f k) (n : String) (post : Memory) :
    n ∈ stored t i ↔ sets n ⟨i, t.last i, t.mem, post⟩ = true := by
  rw [stored, hp, sets]
  cases answerOf (t.last i) <;> simp

lemma origin_step {t : Run} {i : Party} (h : t.NextIn Stores i) (hfits : Fits t)
    (ans : (q : Query) → Reply q) (n : String) : origin n (t.step i ans).acts =
      if n ∈ stored t i then some i else origin n t.acts := by
  rw [Threads.NextIn] at h
  rw [Threads.step]
  cases hp : t.proc i with
  | ret r => simp [stored, hp]
  | send q k => simp [stored, hp]
  | act f k =>
    simp only [hp, Stores] at h
    simp only [origin_snoc, mem_stored hp n (f t.mem).2]
    refine if_congr Iff.rfl rfl (ite_eq_right_iff.mpr fun hd => ?_)
    -- without an answer a cookie that is gone was not there
    rw [drops, Bool.and_eq_true, Option.isNone_iff_eq_none, Option.isNone_iff_eq_none] at hd
    obtain ⟨hl, hgone⟩ := hd
    rw [hl] at h
    refine (Option.not_isSome_iff_eq_none.mp fun ho => ?_).symm
    have hsome := (hfits n).mp ho
    rw [← h, hgone] at hsome
    exact Bool.false_ne_true hsome

lemma cookies_step {t : Run} {i : Party} (h : t.NextIn Stores i) (ans : (q : Query) → Reply q)
    (n : String) : ((t.step i ans).mem.client.cookies n).isSome = true ↔
      n ∈ stored t i ∨ (t.mem.client.cookies n).isSome = true := by
  rw [Threads.NextIn] at h
  rw [Threads.step, stored]
  cases hp : t.proc i with
  | ret r => simp
  | send q k => simp
  | act f k =>
    simp only [hp, Stores] at h
    rcases hl : answerOf (t.last i) with - | resp <;> rw [hl] at h
    · simp [show (f t.mem).2.client.cookies = _ from h]
    · simp [show (f t.mem).2.client.cookies = _ from h, setCookies_isSome, names]

lemma fits_step {t : Run} {i : Party} (h : t.NextIn Stores i) (hfits : Fits t)
    (ans : (q : Query) → Reply q) : Fits (t.step i ans) := by
  intro n
  rw [origin_step h hfits ans n, cookies_step h ans n, ← hfits n]
  split_ifs with hn <;> simp [hn]

/-! ### The programs -/

section

variable {α β : Type}

lemma alongOk_pure (a : α) : (pure a : WillysProc α).AlongOk Stores none := fun _ _ => rfl
lemma fails_fail (e : Failure) : (Proc.fail e : WillysProc α).Fails := fun _ h => by cases h

lemma alongOk_fail (e : Failure) : (Proc.fail e : WillysProc α).AlongOk Stores none :=
  fun _ h => by cases h

lemma alongOk_read {γ : Type} (f : Client → γ) : (Willys.read f).AlongOk Stores none :=
  Or.inr ⟨fun _ => rfl, fun _ _ _ => rfl⟩

lemma alongOk_modify {f : Client → Client} (h : ∀ c, (f c).cookies = c.cookies) :
    (Willys.modify f).AlongOk Stores none :=
  Or.inr ⟨fun m => h m.client, fun _ _ _ => rfl⟩

/-- The client is cleared on the way to an error. -/
lemma alongOk_clear (e : Failure) :
    (do Willys.modify Client.clearState; Proc.fail e : WillysProc α).AlongOk Stores none :=
  Or.inl fun _ => fails_fail e

lemma along_doRequest (method : Method) (route : Route) (body : Option Payload) :
    (doRequest method route body).Along Stores none := by
  refine ⟨fun _ => rfl, fun s a => ?_⟩
  cases a with
  | error e => trivial
  | ok resp => exact ⟨fun _ => rfl, fun _ => trivial⟩

lemma alongOk_doRequest (method : Method) (route : Route) (body : Option Payload) :
    (doRequest method route body).AlongOk Stores none := by
  refine Or.inr ⟨fun _ => rfl, fun s a => ?_⟩
  cases a with
  | error e => exact fun _ h => by cases h
  | ok resp => exact Or.inr ⟨fun _ => rfl, fun _ _ _ => rfl⟩

lemma alongOk_fetch (route : Route) (what : String) (decode : Body → Except String α) :
    (fetch route what decode).AlongOk Stores none := by
  refine (alongOk_doRequest _ _ _).bind fun resp => ?_
  split_ifs
  · exact alongOk_fail _
  · cases decode resp.body with
    | error e => exact alongOk_fail _
    | ok a => exact alongOk_pure a

lemma alongOk_fetchCSRFToken : fetchCSRFToken.AlongOk Stores none := by
  refine (alongOk_doRequest _ _ _).mapError.bind fun resp => ?_
  split_ifs
  · exact alongOk_fail _
  · cases resp.body.token with
    | error e => exact alongOk_fail _
    | ok token => exact alongOk_modify fun _ => rfl

lemma alongOk_confirm (resp : Response) : (confirm resp).AlongOk Stores none := by
  have hfollow : (followLocation resp.location).AlongOk Stores none := by
    rw [followLocation]
    split_ifs
    · exact alongOk_pure _
    · refine Proc.AlongOk.bind (Proc.AlongOk.mapError (Proc.AlongOk.bind (fun _ _ _ => rfl)
        fun o => ?_)) fun _ => alongOk_pure _
      cases o with
      | none => exact alongOk_doRequest _ _ _
      | some e => exact alongOk_fail _
  rw [confirm]
  split_ifs
  · exact alongOk_clear _
  · exact alongOk_clear _
  · refine hfollow.bind fun _ => alongOk_fetchCSRFToken.bind fun _ => ?_
    refine (alongOk_fetch _ _ _).bind fun cust => ?_
    split_ifs
    · exact alongOk_clear _
    · refine (alongOk_modify fun _ => rfl).bind fun _ => ?_
      exact (alongOk_modify fun _ => rfl).bind fun _ => alongOk_pure _

lemma alongOk_login (username password : String) :
    (Willys.login username password).AlongOk Stores none := by
  have hencrypt (what plaintext : String) :
      (encryptCredential what plaintext).AlongOk Stores none := by
    refine Proc.AlongOk.bind (fun _ _ _ => rfl) fun r => ?_
    cases r with
    | ok c => exact alongOk_pure c
    | error e => exact alongOk_fail _
  have hsession : ensureSession.AlongOk Stores none := by
    refine (alongOk_read _).bind fun has => ?_
    cases has with
    | true => exact alongOk_pure _
    | false => exact (alongOk_doRequest _ _ _).mapError.bind fun _ => alongOk_pure _
  refine hsession.bind fun _ => alongOk_fetchCSRFToken.bind fun _ => ?_
  refine (hencrypt _ _).bind fun _ => (hencrypt _ _).bind fun _ => ?_
  exact (alongOk_doRequest _ _ _).mapError.bind alongOk_confirm

end

/-! ### Runs -/

/-- A later move of the login stores an answer that sets the cookie. -/
def SetsAgain (n : String) : Run → Threads.Schedule Party Query Reply → Prop
  | _, [] => False
  | t, (i, ans) :: sched => i = .login ∧ n ∈ stored t i ∨ SetsAgain n (t.step i ans) sched

/-- Each cookie that the request stores once the login has begun, with the clearing of the client,
is set again by an answer that the login stores later. -/
def Covered : (begun : Bool) → Run → Threads.Schedule Party Query Reply → Prop
  | _, _, [] => True
  | _, t, (.login, ans) :: sched => Covered true (t.step .login ans) sched
  | begun, t, (.request, ans) :: sched =>
    (begun = true → ∀ n ∈ stored t .request, SetsAgain n (t.step .request ans) sched) ∧
      Covered begun (t.step .request ans) sched

/-- Each cookie has come with an answer to the login. -/
def AllOfLogin (t : Run) : Prop :=
  ∀ n v, t.mem.client.cookies n = some v → origin n t.acts = some .login

def LoggedIn (t : Run) : Prop := (t.result .login).any Except.toBool = true

section

variable (method : Method) (route : Route) (body : Option Payload) (username password : String)

/-- The login has not begun. -/
structure Waiting (t : Run) : Prop where
  request : (t.proc .request).Along Stores (t.last .request)
  proc : t.proc .login = programs method route body username password .login
  last : t.last .login = none

/-- The login is on its way to a customer. -/
structure Going (t : Run) : Prop where
  request : (t.proc .request).Along Stores (t.last .request)
  login : (t.proc .login).AlongOk Stores (t.last .login)
  fits : Fits t

variable {method route body username password} {t : Run}

lemma Going.step_request (h : Going t) (ans : (q : Query) → Reply q) :
    Going (t.step .request ans) := by
  obtain ⟨hnext, halong⟩ := Threads.along_step h.request ans
  obtain ⟨hproc, hlast⟩ := Threads.step_other (t := t) (j := .login) (i := .request)
    (fun h => by cases h) ans
  exact ⟨halong, by rw [hproc, hlast]; exact h.login, fits_step hnext h.fits ans⟩

lemma Going.step_login (h : Going t) (hnext : t.NextIn Stores .login)
    {ans : (q : Query) → Reply q}
    (halong : ((t.step .login ans).proc .login).AlongOk Stores ((t.step .login ans).last .login)) :
    Going (t.step .login ans) := by
  obtain ⟨hproc, hlast⟩ := Threads.step_other (t := t) (j := .request) (i := .login)
    (fun h => by cases h) ans
  exact ⟨by rw [hproc, hlast]; exact h.request, halong, fits_step hnext h.fits ans⟩

lemma Waiting.step_request (h : Waiting method route body username password t)
    (ans : (q : Query) → Reply q) :
    Waiting method route body username password (t.step .request ans) := by
  obtain ⟨hproc, hlast⟩ := Threads.step_other (t := t) (j := .login) (i := .request)
    (fun h => by cases h) ans
  exact ⟨(Threads.along_step h.request ans).2, hproc.trans h.proc, hlast.trans h.last⟩

/-- The first move of the login clears the client: no cookie is left. -/
lemma Waiting.step_login (h : Waiting method route body username password t)
    (ans : (q : Query) → Reply q) : Going (t.step .login ans) ∧
      ∀ n, origin n (t.step .login ans).acts = none := by
  have hstep : t.step .login ans = ⟨{ t.mem with client := t.mem.client.clearState },
      Function.update t.last .login none,
      Function.update t.proc .login (Willys.login username password),
      t.acts ++ [⟨.login, none, t.mem, { t.mem with client := t.mem.client.clearState }⟩]⟩ := by
    rw [Threads.step, h.proc, h.last]
    rfl
  have ho (n : String) : origin n (t.step .login ans).acts = none := by
    rw [hstep, origin_snoc]
    exact if_neg Bool.false_ne_true
  refine ⟨⟨?_, ?_, fun n => ?_⟩, ho⟩
  · rw [hstep]
    exact h.request
  · rw [hstep]
    simp only [Function.update_self]
    exact alongOk_login username password
  · rw [ho n, hstep]
    exact Iff.rfl

/-- While the login is on its way: what the late answer has set has to be set again. -/
lemma Going.allOfLogin_iff (h : Going t) (sched : Threads.Schedule Party Query Reply)
    (hin : LoggedIn (t.run sched)) : AllOfLogin (t.run sched) ↔
      (∀ n, origin n t.acts = some .request → SetsAgain n t sched) ∧ Covered true t sched := by
  induction sched generalizing t with
  | nil =>
    refine ⟨fun hall => ⟨fun n hn => ?_, trivial⟩, fun hno n v hv => ?_⟩
    · obtain ⟨v, hv⟩ := Option.isSome_iff_exists.mp ((h.fits n).mp (by rw [hn]; rfl))
      exact nomatch hn.symm.trans (hall n v hv)
    · obtain ⟨i, hi⟩ := Option.isSome_iff_exists.mp ((h.fits n).mpr (Option.isSome_of_eq_some hv))
      cases i with
      | login => exact hi
      | request => exact (hno.1 n hi).elim
  | cons m sched ih =>
    obtain ⟨i, ans⟩ := m
    cases i with
    | request =>
      have hstep := origin_step (Threads.along_step h.request ans).1 h.fits ans
      refine (ih (h.step_request ans) hin).trans ?_
      simp only [hstep, Covered, SetsAgain]
      constructor
      · rintro ⟨hset, hcov⟩
        refine ⟨fun n hn => Or.inr (hset n ?_), fun _ n hn => hset n (if_pos hn), hcov⟩
        split_ifs with hs
        · rfl
        · exact hn
      · rintro ⟨hset, hnew, hcov⟩
        refine ⟨fun n hn => ?_, hcov⟩
        split_ifs at hn with hs
        · exact hnew trivial n hs
        · exact (hset n hn).resolve_left fun h => by cases h.1
    | login =>
      rcases Threads.alongOk_step h.login ans with hfails | ⟨hnext, halong⟩
      · exact absurd ((Threads.fails_run hfails sched).symm.trans hin) Bool.false_ne_true
      · have hstep := origin_step hnext h.fits ans
        refine (ih (h.step_login hnext halong) hin).trans ?_
        simp only [hstep, Covered, SetsAgain, true_and]
        refine and_congr_left' (forall_congr' fun n => ?_)
        by_cases hs : n ∈ stored t .login <;> simp [hs]

lemma Waiting.allOfLogin_iff (h : Waiting method route body username password t)
    (sched : Threads.Schedule Party Query Reply) (hin : LoggedIn (t.run sched)) :
    AllOfLogin (t.run sched) ↔ Covered false t sched := by
  induction sched generalizing t with
  | nil =>
    rw [LoggedIn, Threads.result, show (t.run []).proc .login = _ from h.proc] at hin
    exact absurd hin Bool.false_ne_true
  | cons m sched ih =>
    obtain ⟨i, ans⟩ := m
    cases i with
    | request =>
      rw [Covered]
      exact (ih (h.step_request ans) hin).trans (by simp)
    | login =>
      obtain ⟨hgoing, ho⟩ := h.step_login ans
      refine (hgoing.allOfLogin_iff sched hin).trans ?_
      simp [ho, Covered]

variable (method route body username password)

/-- The threads after a schedule that starts the request first. -/
def after (m : Memory) (ans : (q : Query) → Reply q) (sched : Threads.Schedule Party Query Reply) :
    Run :=
  (Threads.start m (programs method route body username password)).run ((.request, ans) :: sched)

/-- **Whose cookies are kept**: a request is started, then the client is cleared and logs in to
another account, with the answers in any order. Once it is logged in, each cookie has come with an
answer to the login exactly if the late answer is stored before the client is cleared, or each
cookie it sets is set again by an answer the login stores later. -/
theorem all_of_login_iff (m : Memory) (ans : (q : Query) → Reply q)
    (sched : Threads.Schedule Party Query Reply)
    (h : ((after method route body username password m ans sched).result .login).any
      Except.toBool = true) :
    (∀ n v, (after method route body username password m ans sched).mem.client.cookies n = some v →
      origin n (after method route body username password m ans sched).acts = some .login) ↔
    Covered false (Threads.start m (programs method route body username password))
      ((.request, ans) :: sched) := by
  have hwait : Waiting method route body username password
      (Threads.start m (programs method route body username password)) :=
    ⟨along_doRequest _ _ _, rfl, rfl⟩
  exact hwait.allOfLogin_iff _ h

end

/-- Upstream answers well, with the session cookie `session`. -/
def answering (session : String) : (q : Query) → Reply q
  | .http _ => .ok ⟨200, ["JSESSIONID=" ++ session], "", Requests.goodBody⟩
  | .parseUrl _ => none
  | .encrypt _ => .ok ⟨"", ""⟩
  | .credentials => none

/-- The moves of the login, all of them. -/
def allOfLogin : Threads.Schedule Party Query Reply := List.replicate 25 (.login, answering "new")

/-- The moves of the request once it has started. -/
def lateAnswer : Threads.Schedule Party Query Reply := List.replicate 2 (.request, answering "old")

theorem all_of_login_iff_early :
    (∀ n v, (after .get .orders none "anna" "secret" Requests.loggedIn (answering "old")
      (lateAnswer ++ allOfLogin)).mem.client.cookies n = some v →
      origin n (after .get .orders none "anna" "secret" Requests.loggedIn (answering "old")
        (lateAnswer ++ allOfLogin)).acts = some .login) ↔
    Covered false (Threads.start Requests.loggedIn (programs .get .orders none "anna" "secret"))
      ((.request, answering "old") :: (lateAnswer ++ allOfLogin)) :=
  all_of_login_iff .get .orders none "anna" "secret" Requests.loggedIn (answering "old")
    (lateAnswer ++ allOfLogin) (by decide)

/-- The late answer brings the session of the old account back. -/
theorem not_all_of_login :
    ¬∀ (method : Method) (route : Route) (body : Option Payload) (username password : String)
      (m : Memory) (ans : (q : Query) → Reply q) (sched : Threads.Schedule Party Query Reply),
      ((after method route body username password m ans sched).result .login).any
        Except.toBool = true →
      ((after method route body username password m ans sched).result .request).isSome = true →
      ∀ n v, (after method route body username password m ans sched).mem.client.cookies n = some v →
        origin n (after method route body username password m ans sched).acts = some .login := by
  intro h
  exact absurd (h .get .orders none "anna" "secret" Requests.loggedIn (answering "old")
    (allOfLogin ++ lateAnswer) (by decide) (by decide) "JSESSIONID" "old" (by decide)) (by decide)

end Veckomenyn.LateAnswer
