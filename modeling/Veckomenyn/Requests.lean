import Veckomenyn.WillysProvider

/-!
What the requests of the client do to its log and to its flag.

Only a login and a `ClearState` touch the flag. Everything else is calm: it keeps the flag, and
asks what its requests ask.
-/

namespace Veckomenyn.Requests

open CartTools Remote Willys WillysProvider

abbrev Upstream := ℕ → (q : Query) → Reply q

abbrev Log := List (Exchange Memory Query Reply)

variable {α β : Type} {T : α → World Memory Query Reply → Prop}
  {F : Failure → World Memory Query Reply → Prop} {w : World Memory Query Reply}

/-- The world after a request. -/
def sent (w : World Memory Query Reply) (r : Request) (a : Except String Response) :
    World Memory Query Reply :=
  ⟨match a with
    | .error _ => w.mem
    | .ok resp => { w.mem with client := w.mem.client.parseCookies resp },
    w.log ++ [⟨w.mem, .http r, a⟩]⟩

lemma wp_doRequest {T : Response → World Memory Query Reply → Prop} (m : Method) (r : Route)
    (b : Option Payload) : (doRequest m r b).wp T F w ↔
      (∀ e, F (failed e) (sent w (w.mem.client.request m r b) (.error e))) ∧
        ∀ resp, T resp (sent w (w.mem.client.request m r b) (.ok resp)) := by
  constructor
  · intro h
    exact ⟨fun e => h (.error e), fun resp => h (.ok resp)⟩
  · intro h a
    cases a with
    | error e => exact h.1 e
    | ok resp => exact h.2 resp

lemma wp_requireAuth {T : Unit → World Memory Query Reply → Prop} : requireAuth.wp T F w ↔
    if w.mem.client.authenticated then T () w else F ⟨true, "auth failed: not logged in"⟩ w := by
  show (if w.mem.client.authenticated then pure () else Proc.fail _ : WillysProc Unit).wp T F w ↔ _
  split_ifs <;> rfl

/-- What a `GET` makes of its answer. -/
def fetched (what : String) (decode : Body → Except String α) (resp : Response) :
    Except Failure α :=
  if resp.status ≠ 200 then .error (failed (what ++ " failed: " ++ toString resp.status))
  else (decode resp.body).mapError failed

lemma wp_fetch (route : Route) (what : String) (decode : Body → Except String α) :
    (fetch route what decode).wp T F w ↔
      (∀ e, F (failed e) (sent w (w.mem.client.request .get route none) (.error e))) ∧
        ∀ resp, match fetched what decode resp with
          | .error e => F e (sent w (w.mem.client.request .get route none) (.ok resp))
          | .ok a => T a (sent w (w.mem.client.request .get route none) (.ok resp)) := by
  rw [fetch, Proc.wp_bind, wp_doRequest]
  refine and_congr Iff.rfl (forall_congr' fun resp => ?_)
  rw [fetched]
  split_ifs
  · rfl
  · cases decode resp.body <;> rfl

/-- Upstream has answered a POST to `addProducts` with 200. -/
def accepted : Exchange Memory Query Reply → Bool
  | ⟨_, .http r, a⟩ => match (a : Except String Response) with
    | .ok resp => decide (r.route = .addProducts) && decide (resp.status = 200)
    | .error _ => false
  | _ => false

/-- A body with a real customer and an empty cart. -/
def goodBody : Body :=
  ⟨"", .ok "token", .ok ⟨"1", "Anna A", "Anna", "A", "", ""⟩, .ok ⟨[], 0⟩, .ok ⟨[], []⟩, .ok [],
    .error ""⟩

/-- Upstream with a status, or a failure, for each question, and credentials that are configured. -/
def replying (f : ℕ → Except String ℕ) : Upstream
  | n, .http _ => (f n).map fun status => ⟨status, [], "", goodBody⟩
  | _, .parseUrl _ => none
  | _, .encrypt _ => .ok ⟨"", ""⟩
  | _, .credentials => some ⟨"anna", "secret"⟩

def loggedIn : Memory :=
  ⟨⟨fun n => if n = "JSESSIONID" then some "1" else none, "token", true, none⟩, ⟨"anna", "secret"⟩⟩

/-! ### Calm programs -/

/-- The flag is as it was, and only questions in `P` have been asked. -/
def Stays (P : Query → Prop) (w w' : World Memory Query Reply) : Prop :=
  w'.mem.client.authenticated = w.mem.client.authenticated ∧
    ∃ l, w'.log = w.log ++ l ∧ ∀ x ∈ l, P x.query

variable {P : Query → Prop}

lemma Stays.refl (P : Query → Prop) (w : World Memory Query Reply) : Stays P w w :=
  ⟨rfl, [], (List.append_nil _).symm, by simp⟩

lemma Stays.trans {u v : World Memory Query Reply} (h : Stays P w u) (h' : Stays P u v) :
    Stays P w v := by
  obtain ⟨hf, l, hl, hP⟩ := h
  obtain ⟨hf', l', hl', hP'⟩ := h'
  refine ⟨hf'.trans hf, l ++ l', by rw [hl', hl, List.append_assoc], fun x hx => ?_⟩
  exact (List.mem_append.mp hx).elim (hP x) (hP' x)

lemma Stays.mono {P' : Query → Prop} {v : World Memory Query Reply} (h : ∀ q, P q → P' q)
    (hs : Stays P w v) : Stays P' w v := by
  obtain ⟨hflag, l, hl, hP⟩ := hs
  exact ⟨hflag, l, hl, fun x hx => h _ (hP x hx)⟩

/-- The program keeps the flag and asks only questions in `P`. -/
def Calm (P : Query → Prop) (x : WillysProc α) : Prop :=
  ∀ w, x.wp (fun _ => Stays P w) (fun _ => Stays P w) w

lemma calm_pure (a : α) : Calm P (pure a) := Stays.refl P

lemma calm_fail (e : Failure) : Calm P (Proc.fail e : WillysProc α) := Stays.refl P

lemma Calm.bind {x : WillysProc α} {f : α → WillysProc β} (hx : Calm P x)
    (hf : ∀ a, Calm P (f a)) : Calm P (x >>= f) := fun w =>
  Proc.wp_bind_of (hx w)
    (fun a v hv => Proc.wp_mono (fun _ _ h => hv.trans h) (fun _ _ h => hv.trans h) (hf a v))
    fun _ _ hv => hv

lemma Calm.mapError {x : WillysProc α} {g : Failure → Failure} (hx : Calm P x) :
    Calm P (x.mapError g) := fun w => (Proc.wp_mapError g x).mpr (hx w)

lemma calm_read {γ : Type} {f : Client → γ} : Calm P (Willys.read f) := Stays.refl P

lemma calm_request {q : Query} (h : P q) : Calm P (Proc.request q : WillysProc (Reply q)) :=
  fun w a => ⟨rfl, [⟨w.mem, q, a⟩], rfl, by simpa using h⟩

lemma calm_doRequest {m : Method} {r : Route} {b : Option Payload}
    (h : ∀ c : Client, P (.http (c.request m r b))) : Calm P (doRequest m r b) := by
  have hsent (w : World Memory Query Reply) (a : Except String Response) :
      Stays P w (sent w (w.mem.client.request m r b) a) := by
    refine ⟨?_, _, rfl, by simpa using h w.mem.client⟩
    cases a <;> rfl
  exact fun w => (wp_doRequest m r b).mpr ⟨fun _ => hsent w _, fun _ => hsent w _⟩

lemma calm_fetch {route : Route} {what : String} {decode : Body → Except String α}
    (h : ∀ c : Client, P (.http (c.request .get route none))) :
    Calm P (fetch route what decode) := by
  refine (calm_doRequest h).bind fun resp => ?_
  split_ifs
  · exact calm_fail _
  · cases decode resp.body with
    | error e => exact calm_fail _
    | ok a => exact calm_pure a

lemma calm_fetchCSRFToken (h : ∀ c : Client, P (.http (c.request .get .csrfToken none))) :
    Calm P fetchCSRFToken := by
  refine (calm_doRequest h).mapError.bind fun resp => ?_
  split_ifs
  · exact calm_fail _
  · cases resp.body.token with
    | error e => exact calm_fail _
    | ok token => exact Stays.refl P

lemma calm_requireAuth : Calm P requireAuth := by
  refine calm_read.bind fun ok => ?_
  cases ok with
  | true => exact calm_pure _
  | false => exact calm_fail _

lemma calm_ensureCSRF (h : ∀ c : Client, P (.http (c.request .get .csrfToken none))) :
    Calm P ensureCSRF := by
  refine calm_read.bind fun missing => ?_
  cases missing with
  | true => exact calm_fetchCSRFToken h
  | false => exact calm_pure _

/-! ### What a login asks -/

/-- A request a login may send. -/
def Route.ofLogin : Route → Prop
  | .config => True
  | .csrfToken => True
  | .login => True
  | .redirect _ => True
  | .customer => True
  | _ => False

def OfLogin : Query → Prop
  | .http r => Route.ofLogin r.route
  | _ => True

lemma asks_doRequest {m : Method} {r : Route} {b : Option Payload}
    (h : ∀ c : Client, P (.http (c.request m r b))) : (doRequest m r b).Asks P := by
  refine fun s => ⟨h s.client, fun a => ?_⟩
  cases a with
  | error e => trivial
  | ok resp => exact fun _ => trivial

lemma asks_fetch {route : Route} {what : String} {decode : Body → Except String α}
    (h : ∀ c : Client, P (.http (c.request .get route none))) :
    (fetch route what decode).Asks P := by
  refine (asks_doRequest h).bind fun resp => ?_
  split_ifs
  · trivial
  · cases decode resp.body <;> trivial

lemma asks_fetchCSRFToken : fetchCSRFToken.Asks OfLogin := by
  refine (asks_doRequest fun _ => trivial).mapError.bind fun resp => ?_
  split_ifs
  · trivial
  · cases resp.body.token with
    | error e => trivial
    | ok token => exact fun _ => trivial

lemma asks_modify (f : Client → Client) : (Willys.modify f).Asks P := fun _ => trivial

lemma asks_confirm (resp : Response) : (confirm resp).Asks OfLogin := by
  rw [confirm]
  split_ifs
  · exact (asks_modify _).bind fun _ => trivial
  · exact (asks_modify _).bind fun _ => trivial
  · have hfollow : (followLocation resp.location).Asks OfLogin := by
      rw [followLocation]
      split_ifs
      · trivial
      · refine Proc.Asks.bind (Proc.Asks.mapError ⟨trivial, fun o => ?_⟩) fun _ => trivial
        cases o with
        | none => exact asks_doRequest fun _ => trivial
        | some e => trivial
    refine hfollow.bind fun _ => asks_fetchCSRFToken.bind fun _ => ?_
    refine Proc.Asks.bind (asks_fetch fun _ => trivial) fun cust => ?_
    split_ifs
    · exact (asks_modify _).bind fun _ => trivial
    · exact (asks_modify _).bind fun _ => (asks_modify _).bind fun _ => trivial

lemma asks_login (username password : String) : (login username password).Asks OfLogin := by
  have hencrypt (what plaintext : String) : (encryptCredential what plaintext).Asks OfLogin :=
    Proc.Asks.bind ⟨trivial, fun _ => trivial⟩ fun r => by cases r <;> trivial
  have hsession : ensureSession.Asks OfLogin := by
    refine Proc.Asks.bind (fun _ => trivial) fun has => ?_
    cases has with
    | true => trivial
    | false => exact (asks_doRequest fun _ => trivial).mapError.bind fun _ => trivial
  refine hsession.bind fun _ => asks_fetchCSRFToken.bind fun _ => ?_
  refine (hencrypt _ _).bind fun _ => (hencrypt _ _).bind fun _ => ?_
  exact (asks_doRequest fun _ => trivial).mapError.bind asks_confirm

lemma asks_ensureLoggedIn (force : Bool) : (ensureLoggedIn force).Asks OfLogin := by
  refine Proc.Asks.bind ⟨trivial, fun _ => trivial⟩ fun o => ?_
  cases o with
  | none => trivial
  | some creds =>
    refine Proc.Asks.bind (fun _ => trivial) fun changed => ?_
    refine Proc.Asks.bind (fun _ => trivial) fun logged => ?_
    by_cases hskip : (!force && !changed && logged) = true
    · rw [if_pos hskip]
      trivial
    · rw [if_neg hskip]
      exact (asks_modify _).bind fun _ => (asks_login _ _).mapError.bind fun _ _ => trivial

lemma accepted_of_login {x : Exchange Memory Query Reply} (h : OfLogin x.query) :
    accepted x = false := by
  obtain ⟨mem, q, a⟩ := x
  cases q with
  | http r =>
    have hr : r.route ≠ .addProducts := by
      intro he
      rw [OfLogin, he] at h
      exact h
    simp only [accepted]
    split <;> simp [hr]
  | _ => rfl

end Veckomenyn.Requests
