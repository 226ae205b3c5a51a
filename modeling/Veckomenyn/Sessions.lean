import Mathlib.Data.List.DropRight
import Veckomenyn.Requests

/-!
When the flag of the client says the truth.

A client is driven by any calls, each directly or through the provider. A login that fails after
its POST, and not by being refused, leaves the flag as it was; if it was set, it now stands for a
session nobody has confirmed.
-/

namespace Veckomenyn.Sessions

open CartTools Remote Willys WillysProvider Requests

/-! ### Calls -/

inductive Op where
  | login (username password : String)
  | clearState
  | getCart
  | addToCart (code : String) (qty : ℤ)
  | removeFromCart (code : String)
  | clearCart
  | getOrderHistory
  | getOrderDetail (number : String)

/-- Whether it goes through `withAuth`. -/
structure Call where
  op : Op
  auth : Bool

def Op.proc : Op → WillysProc Unit
  | .login username password => do
    let _ ← Willys.login username password
    pure ()
  | .clearState => Willys.modify Client.clearState
  | .getCart => do
    let _ ← Willys.getCart
    pure ()
  | .addToCart code qty => do
    let _ ← Willys.addToCart code qty
    pure ()
  | .removeFromCart code => do
    let _ ← Willys.removeFromCart code
    pure ()
  | .clearCart => Willys.clearCart
  | .getOrderHistory => do
    let _ ← Willys.getOrderHistory
    pure ()
  | .getOrderDetail number => do
    let _ ← Willys.getOrderDetail number
    pure ()

def Call.proc (c : Call) : WillysProc Unit := if c.auth then withAuth c.op.proc else c.op.proc

/-- One call after the other, whether they succeed or fail. -/
def session : List Call → WillysProc Unit
  | [] => pure ()
  | c :: cs => do
    let _ ← (c.proc.attempt : WillysProc (Except Failure Unit))
    session cs

/-! ### What a log says -/

/-- The POST of a login. -/
def isLogin : Query → Bool
  | .http r => decide (r.method = .post ∧ r.route = .login)
  | _ => false

/-- A request of the cart or of the orders. -/
def isAccount : Query → Bool
  | .http r => match r.route with
    | .cart => true
    | .addProducts => true
    | .orders => true
    | .orderDetail _ => true
    | _ => false
  | _ => false

/-- The request is answered with an error status. -/
def refused : Exchange Memory Query Reply → Bool
  | ⟨_, .http _, a⟩ => match (a : Except String Response) with
    | .ok resp => decide (400 ≤ resp.status)
    | .error _ => false
  | _ => false

/-- The customer of an exchange that asks for one. -/
def customerOf : Exchange Memory Query Reply → Option Customer
  | ⟨_, .http r, a⟩ => match (a : Except String Response) with
    | .ok resp =>
      if r.route = .customer then (fetched "get customer" Body.customer resp).toOption else none
    | .error _ => none
  | _ => none

/-- What has been asked since the last login. -/
def since (log : Log) : Log := log.rtakeWhile fun x => !isLogin x.query

/-- There has been a login, and a real customer was an answer since the last one. -/
def Confirmed (log : Log) : Prop :=
  (∃ x ∈ log, isLogin x.query = true) ∧ ∃ y ∈ since log, (customerOf y).any isAuthenticated = true

/-- What is asked before the next login. -/
def upTo (log : Log) : Log := log.takeWhile fun x => !isLogin x.query

/-- A login under a set flag is refused, or shows some customer before the next one starts. -/
def settled : Log → Bool
  | [] => true
  | x :: after =>
    (!isLogin x.query || !x.mem.client.authenticated || refused x ||
      (upTo after).any fun y => (customerOf y).isSome) && settled after

/-- Every request of the cart or of the orders is sent on a confirmed session. -/
def Guarded (log : Log) : Prop :=
  ∀ before x after, log = before ++ x :: after → isAccount x.query = true → Confirmed before

/-- The flag stands for a confirmed session, and so have all requests. -/
def Good (w : World Memory Query Reply) : Prop :=
  (w.mem.client.authenticated = true → Confirmed w.log) ∧ Guarded w.log

variable {log l l' : Log}

lemma since_append (h : ∀ x ∈ l, isLogin x.query = false) : since (log ++ l) = since log ++ l := by
  have hrev : ∀ x ∈ l.reverse, (!isLogin x.query) = true := by
    intro x hx
    rw [h x (List.mem_reverse.mp hx)]
    rfl
  rw [since, List.rtakeWhile, List.reverse_append, List.takeWhile_append_of_pos hrev,
    List.reverse_append, List.reverse_reverse]
  rfl

lemma Confirmed.append (h : Confirmed log) (hl : ∀ x ∈ l, isLogin x.query = false) :
    Confirmed (log ++ l) := by
  obtain ⟨⟨x, hx, hlogin⟩, y, hy, hcust⟩ := h
  refine ⟨⟨x, List.mem_append_left l hx, hlogin⟩, y, ?_, hcust⟩
  rw [since_append hl]
  exact List.mem_append_left l hy

/-- A login that a real customer follows is confirmed. -/
lemma confirmed_of_login {x y : Exchange Memory Query Reply} (hx : isLogin x.query = true)
    (hl : ∀ z ∈ l, isLogin z.query = false) (hy : y ∈ l)
    (hcust : (customerOf y).any isAuthenticated = true) : Confirmed (log ++ x :: l) := by
  refine ⟨⟨x, by simp, hx⟩, y, ?_, hcust⟩
  rw [List.append_cons, since_append hl]
  exact List.mem_append_right _ hy

lemma guarded_snoc {x : Exchange Memory Query Reply} (h : Guarded log)
    (hx : isAccount x.query = true → Confirmed log) : Guarded (log ++ [x]) := by
  intro before y after he hy
  rcases List.eq_nil_or_concat after with rfl | ⟨after, z, rfl⟩
  · obtain ⟨rfl, heq⟩ := List.append_inj' he rfl
    obtain rfl : x = y := List.singleton_inj.mp heq
    exact hx hy
  · rw [List.concat_eq_append, ← List.cons_append, ← List.append_assoc] at he
    exact h before y after (List.append_inj' he rfl).1 hy

lemma Guarded.append (h : Guarded log) (hl : ∀ x ∈ l, isLogin x.query = false)
    (hc : Confirmed log ∨ ∀ x ∈ l, isAccount x.query = false) : Guarded (log ++ l) := by
  induction l generalizing log with
  | nil => rwa [List.append_nil]
  | cons x l ih =>
    rw [List.append_cons]
    have hsnoc : Guarded (log ++ [x]) := by
      refine guarded_snoc h fun hx => hc.resolve_right fun hno => ?_
      exact Bool.false_ne_true ((hno x List.mem_cons_self).symm.trans hx)
    refine ih hsnoc (fun y hy => hl y (List.mem_cons_of_mem x hy)) ?_
    refine hc.imp (fun hc => hc.append ?_) fun hno y hy => hno y (List.mem_cons_of_mem x hy)
    intro y hy
    rw [List.mem_singleton.mp hy]
    exact hl x List.mem_cons_self

/-! ### What a settled log is made of -/

/-- A customer comes after a login of its own. -/
def Fresh (l : Log) : Prop := ∀ y ∈ upTo l, customerOf y = none

lemma Fresh.append (h : Fresh l) (h' : Fresh l') : Fresh (l ++ l') := by
  intro y hy
  rw [upTo, List.takeWhile_append] at hy
  split_ifs at hy with hall
  · rcases List.mem_append.mp hy with hy | hy
    · refine h y ?_
      rwa [upTo, (List.takeWhile_prefix _).eq_of_length hall]
    · exact h' y hy
  · exact h y hy

lemma any_upTo_append (l : Log) {f : Exchange Memory Query Reply → Bool} (h : ∀ y ∈ upTo l', f y = false) :
    (upTo (l ++ l')).any f = (upTo l).any f := by
  rw [upTo, List.takeWhile_append]
  split_ifs with hall
  · have hnone : (upTo l').any f = false := List.any_eq_false.mpr fun y hy => by
      rw [h y hy]
      exact Bool.false_ne_true
    rw [List.any_append, upTo, (List.takeWhile_prefix _).eq_of_length hall]
    exact (congrArg _ hnone).trans (Bool.or_false _)
  · rfl

lemma settled_left (h : settled (l ++ l') = true) (hfresh : Fresh l') : settled l = true := by
  induction l with
  | nil => rfl
  | cons x l ih =>
    rw [List.cons_append, settled, Bool.and_eq_true] at h
    rw [settled, Bool.and_eq_true]
    refine ⟨?_, ih h.2⟩
    rw [← any_upTo_append l fun y hy => ?_]
    · exact h.1
    · rw [hfresh y hy]
      rfl

lemma settled_right (h : settled (l ++ l') = true) : settled l' = true := by
  induction l with
  | nil => exact h
  | cons x l ih =>
    rw [List.cons_append, settled, Bool.and_eq_true] at h
    exact ih h.2

/-- A login under a set flag that is not refused shows a customer. -/
lemma customer_of_settled {x : Exchange Memory Query Reply} (h : settled (log ++ x :: l) = true)
    (hx : isLogin x.query = true) (hflag : x.mem.client.authenticated = true)
    (hok : refused x = false) : ∃ y ∈ l, (customerOf y).isSome = true := by
  have h' := settled_right h
  rw [settled, Bool.and_eq_true, hx, hflag, hok] at h'
  obtain ⟨y, hy, hcust⟩ := List.any_eq_true.mp h'.1
  exact ⟨y, (List.takeWhile_prefix _).subset hy, hcust⟩

/-! ### Programs that keep the flag good -/

/-- If the log is settled, the world stays good. -/
def Keeps (w w' : World Memory Query Reply) : Prop :=
  ∃ l, w'.log = w.log ++ l ∧ Fresh l ∧ (settled w'.log = true → Good w → Good w')

variable {α β : Type} {u v w : World Memory Query Reply}

lemma Keeps.refl (w : World Memory Query Reply) : Keeps w w :=
  ⟨[], (List.append_nil _).symm, by simp [Fresh, upTo], fun _ hg => hg⟩

lemma Keeps.trans (h : Keeps u v) (h' : Keeps v w) : Keeps u w := by
  obtain ⟨l, hl, hfresh, hgood⟩ := h
  obtain ⟨l', hl', hfresh', hgood'⟩ := h'
  refine ⟨l ++ l', by rw [hl', hl, List.append_assoc], hfresh.append hfresh', fun hs hu => ?_⟩
  exact hgood' hs (hgood (settled_left (hl' ▸ hs) hfresh') hu)

/-- Whatever the answers, the program keeps the flag good. -/
def Steady (x : WillysProc α) : Prop := ∀ w, x.wp (fun _ => Keeps w) (fun _ => Keeps w) w

lemma steady_pure (a : α) : Steady (pure a) := Keeps.refl

lemma steady_fail (e : Failure) : Steady (Proc.fail e : WillysProc α) := Keeps.refl

lemma Steady.bind {x : WillysProc α} {f : α → WillysProc β} (hx : Steady x)
    (hf : ∀ a, Steady (f a)) : Steady (x >>= f) := fun w =>
  Proc.wp_bind_of (hx w)
    (fun a v hv => Proc.wp_mono (fun _ _ h => hv.trans h) (fun _ _ h => hv.trans h) (hf a v))
    fun _ _ hv => hv

lemma Steady.mapError {x : WillysProc α} {g : Failure → Failure} (hx : Steady x) :
    Steady (x.mapError g) := fun w => (Proc.wp_mapError g x).mpr (hx w)

lemma Steady.attempt {x : WillysProc α} (hx : Steady x) :
    Steady (x.attempt : WillysProc (Except Failure α)) := fun w => (Proc.wp_attempt x).mpr (hx w)

lemma steady_read {γ : Type} {f : Memory → γ} : Steady (Proc.read f : WillysProc γ) := Keeps.refl

/-- A request that is neither a login nor for a customer. -/
def Plain : Query → Prop
  | .http r => r.route ≠ .login ∧ r.route ≠ .customer
  | _ => True

/-- A request that has nothing to do with accounts. -/
def Idle (q : Query) : Prop := Plain q ∧ isAccount q = false

lemma not_login_of_plain {q : Query} (h : Plain q) : isLogin q = false := by
  cases q with
  | http r => exact decide_eq_false fun hr => h.1 hr.2
  | _ => rfl

lemma no_customer_of_plain {x : Exchange Memory Query Reply} (h : Plain x.query) :
    customerOf x = none := by
  obtain ⟨mem, q, a⟩ := x
  cases q with
  | http r =>
    rcases (a : Except String Response) with e | resp
    · rfl
    · exact if_neg h.2
  | _ => rfl

/-- Plain requests keep the flag good: under a set flag the session is confirmed. -/
lemma keeps_of_stays (h : Stays Plain w v)
    (hc : w.mem.client.authenticated = true ∨ Stays Idle w v) : Keeps w v := by
  obtain ⟨hflag, l, hl, hplain⟩ := h
  have hlogin : ∀ x ∈ l, isLogin x.query = false := fun x hx => not_login_of_plain (hplain x hx)
  refine ⟨l, hl, fun y hy => ?_, fun _ ⟨hconf, hguard⟩ => ⟨fun hv => ?_, ?_⟩⟩
  · exact no_customer_of_plain (hplain y ((List.takeWhile_prefix _).subset hy))
  · rw [hl]
    exact (hconf (hflag ▸ hv)).append hlogin
  · rw [hl]
    refine hguard.append hlogin (hc.imp hconf ?_)
    rintro ⟨-, l', hl', hidle⟩
    obtain rfl : l = l' := List.append_cancel_left (hl.symm.trans hl')
    exact fun x hx => (hidle x hx).2

lemma steady_of_calm {x : WillysProc α} (h : Calm Idle x) : Steady x := by
  have hkeeps (w v : World Memory Query Reply) (hs : Stays Idle w v) : Keeps w v :=
    keeps_of_stays (hs.mono fun _ hq => hq.1) (Or.inr hs)
  exact fun w => Proc.wp_mono (fun _ => hkeeps w) (fun _ => hkeeps w) (h w)

/-- Behind `requireAuth`, plain requests may be for the account. -/
lemma steady_requireAuth {x : WillysProc α} (h : Calm Plain x) :
    Steady (requireAuth >>= fun _ => x) := by
  intro w
  rw [Proc.wp_bind, wp_requireAuth]
  split_ifs with hflag
  · exact Proc.wp_mono (fun _ _ hs => keeps_of_stays hs (Or.inl hflag))
      (fun _ _ hs => keeps_of_stays hs (Or.inl hflag)) (h w)
  · exact Keeps.refl w

lemma steady_clearState : Steady (Willys.modify Client.clearState) := by
  intro w
  refine ⟨[], (List.append_nil _).symm, by simp [Fresh, upTo], fun _ ⟨_, hguard⟩ => ⟨?_, hguard⟩⟩
  intro hflag
  exact absurd hflag Bool.false_ne_true

/-! ### The login -/

/-- The log of an attempt to log in: its POST, and what its redirect and its token take. -/
structure Tried (w v : World Memory Query Reply) (x : Exchange Memory Query Reply) (l : Log) :
    Prop where
  log : v.log = w.log ++ x :: l
  mem : x.mem = w.mem
  login : isLogin x.query = true
  idle : ∀ y ∈ l, isLogin y.query = false ∧ isAccount y.query = false

variable {x : Exchange Memory Query Reply} {l : Log}

lemma Tried.keeps (h : Tried w v x l)
    (hv : settled v.log = true → v.mem.client.authenticated = true →
      ∃ y ∈ l, (customerOf y).any isAuthenticated = true) : Keeps w v := by
  have hlogin : ∀ y ∈ l, isLogin y.query = false := fun y hy => (h.idle y hy).1
  refine ⟨x :: l, h.log, fun y hy => ?_, fun hs ⟨_, hguard⟩ => ⟨fun hflag => ?_, ?_⟩⟩
  · rw [upTo, List.takeWhile_cons_of_neg (by simp [h.login])] at hy
    exact nomatch hy
  · obtain ⟨y, hy, hcust⟩ := hv hs hflag
    rw [h.log]
    exact confirmed_of_login h.login hlogin hy hcust
  · have hacc : isAccount x.query = false := by
      have hlog := h.login
      rcases x with ⟨mem, q, a⟩
      cases q with
      | http r => simp [isAccount, (of_decide_eq_true hlog).2]
      | _ => rfl
    rw [h.log, List.append_cons]
    refine (guarded_snoc hguard fun hx => ?_).append hlogin (Or.inr fun y hy => (h.idle y hy).2)
    exact absurd (hacc.symm.trans hx) Bool.false_ne_true

/-- An attempt that fails with its flag as it was: the log is not settled if it was set. -/
lemma Tried.lost (h : Tried w v x l) (hflag : v.mem.client.authenticated = w.mem.client.authenticated)
    (hok : refused x = false) (hno : ∀ y ∈ l, customerOf y = none) : Keeps w v := by
  refine h.keeps fun hs hv => ?_
  obtain ⟨y, hy, hcust⟩ := customer_of_settled (h.log ▸ hs) h.login
    (h.mem ▸ hflag.symm.trans hv) hok
  rw [hno y hy] at hcust
  exact absurd hcust Bool.false_ne_true

lemma Tried.of_log {v' : World Memory Query Reply} (h : Tried w v x l) (hlog : v'.log = v.log) :
    Tried w v' x l := ⟨hlog.trans h.log, h.mem, h.login, h.idle⟩

/-- One more question that is no login and not for the account. -/
lemma Tried.asked (h : Tried w v x l) {r : Request}
    (hr : isLogin (.http r) = false ∧ isAccount (.http r) = false) (a : Except String Response) :
    Tried w (sent v r a) x (l ++ [⟨v.mem, .http r, a⟩]) where
  log := by
    rw [← List.cons_append, ← List.append_assoc, ← h.log]
    rfl
  mem := h.mem
  login := h.login
  idle y hy := by
    rcases List.mem_append.mp hy with hy | hy
    · exact h.idle y hy
    · rw [List.mem_singleton.mp hy]
      exact hr

lemma calm_followLocation (location : String) : Calm Idle (followLocation location) := by
  rw [followLocation]
  split_ifs
  · exact calm_pure _
  · refine Calm.bind (Calm.mapError ((calm_request ⟨trivial, rfl⟩).bind fun o => ?_)) fun _ =>
      calm_pure _
    cases o with
    | none => exact calm_doRequest fun _ => ⟨by simp [Plain, Client.request], rfl⟩
    | some e => exact calm_fail _

lemma confirm_keeps {resp : Response} {r : Request}
    (hr : isLogin (.http r) = true) :
    (confirm resp).wp (fun _ => Keeps w) (fun _ => Keeps w) (sent w r (.ok resp)) := by
  have htried {l : Log} {v : World Memory Query Reply}
      (hlog : v.log = (sent w r (.ok resp)).log ++ l)
      (hl : ∀ y ∈ l, isLogin y.query = false ∧ isAccount y.query = false) :
      Tried w v ⟨w.mem, .http r, .ok resp⟩ l :=
    ⟨hlog.trans (List.append_assoc _ _ _), rfl, hr, hl⟩
  -- the state is cleared, whatever came before
  have hcleared {l : Log} {v : World Memory Query Reply} (h : Tried w v ⟨w.mem, .http r, .ok resp⟩ l)
      (hv : v.mem.client.authenticated = false) : Keeps w v :=
    h.keeps fun _ h => absurd (hv.symm.trans h) Bool.false_ne_true
  rw [confirm]
  split_ifs with h401 h400
  · exact hcleared (htried (List.append_nil _).symm (List.forall_mem_nil _)) rfl
  · exact hcleared (htried (List.append_nil _).symm (List.forall_mem_nil _)) rfl
  have hok : refused ⟨w.mem, .http r, .ok resp⟩ = false := decide_eq_false h400
  have hcalm : Calm Idle (followLocation resp.location >>= fun _ => fetchCSRFToken) :=
    (calm_followLocation _).bind fun _ =>
      calm_fetchCSRFToken fun _ => ⟨by simp [Plain, Client.request], rfl⟩
  rw [← Proc.bind_assoc]
  have hidle {v : World Memory Query Reply} (hs : Stays Idle (sent w r (.ok resp)) v) :
      v.mem.client.authenticated = w.mem.client.authenticated ∧
        ∃ l, Tried w v ⟨w.mem, .http r, .ok resp⟩ l ∧ ∀ y ∈ l, customerOf y = none := by
    obtain ⟨hflag, l, hlog, hP⟩ := hs
    exact ⟨hflag, l, htried hlog fun y hy => ⟨not_login_of_plain (hP y hy).1, (hP y hy).2⟩,
      fun y hy => no_customer_of_plain (hP y hy).1⟩
  refine Proc.wp_bind_of (hcalm _) ?_ ?_
  swap
  · intro e v hs
    obtain ⟨hflag, l, h, hno⟩ := hidle hs
    exact h.lost hflag hok hno
  intro _ v hs
  obtain ⟨hflag, l, h, hno⟩ := hidle hs
  have hasked (a : Except String Response) :
      Tried w (sent v (v.mem.client.request .get .customer none) a) ⟨w.mem, .http r, .ok resp⟩
        (l ++ [⟨v.mem, .http (v.mem.client.request .get .customer none), a⟩]) :=
    h.asked ⟨rfl, rfl⟩ a
  have hlost (a : Except String Response)
      (ha : customerOf ⟨v.mem, .http (v.mem.client.request .get .customer none), a⟩ = none) :
      Keeps w (sent v (v.mem.client.request .get .customer none) a) := by
    refine (hasked a).lost ?_ hok fun y hy => ?_
    · cases a <;> exact hflag
    · rcases List.mem_append.mp hy with hy | hy
      · exact hno y hy
      · rw [List.mem_singleton.mp hy, ha]
  rw [Proc.wp_bind, getCustomer, wp_fetch]
  refine ⟨fun e => hlost _ rfl, fun resp' => ?_⟩
  have hcust : customerOf ⟨v.mem, .http (v.mem.client.request .get .customer none), .ok resp'⟩ =
      (fetched "get customer" Body.customer resp').toOption := rfl
  rcases hf : fetched "get customer" Body.customer resp' with e | cust <;> rw [hf] at hcust
  · exact hlost _ hcust
  show Proc.wp _ _ (if (!isAuthenticated cust) = true then _ else _) _
  split_ifs with hauth
  · exact hcleared ((hasked (.ok resp')).of_log rfl) rfl
  · refine Tried.keeps (Tried.of_log (hasked (.ok resp')) rfl) fun _ _ => ?_
    refine ⟨_, List.mem_append_right l (List.mem_singleton.mpr rfl), ?_⟩
    rw [hcust]
    exact Bool.eq_true_of_not_eq_false fun h => hauth (congrArg (!·) h)

lemma steady_login (username password : String) : Steady (login username password) := by
  have hencrypt (what plaintext : String) : Calm Idle (encryptCredential what plaintext) := by
    refine (calm_request ⟨trivial, rfl⟩).bind fun r => ?_
    cases r with
    | ok c => exact calm_pure c
    | error e => exact calm_fail _
  have hsession : Calm Idle ensureSession := by
    refine calm_read.bind fun has => ?_
    cases has with
    | true => exact calm_pure _
    | false =>
      exact (calm_doRequest fun _ => ⟨by simp [Plain, Client.request], rfl⟩).mapError.bind fun _ => calm_pure _
  have htoken : Calm Idle fetchCSRFToken := calm_fetchCSRFToken fun _ => ⟨by simp [Plain, Client.request], rfl⟩
  refine (steady_of_calm hsession).bind fun _ => (steady_of_calm htoken).bind fun _ => ?_
  refine (steady_of_calm (hencrypt _ _)).bind fun u => ?_
  refine (steady_of_calm (hencrypt _ _)).bind fun p w => ?_
  rw [Proc.wp_bind, Proc.wp_mapError, wp_doRequest]
  refine ⟨fun e => ?_, fun resp => confirm_keeps rfl⟩
  have htried : Tried w (sent w (w.mem.client.request .post .login (some (.login u p))) (.error e))
      ⟨w.mem, .http (w.mem.client.request .post .login (some (.login u p))), .error e⟩ [] :=
    ⟨rfl, rfl, rfl, List.forall_mem_nil _⟩
  exact htried.lost rfl rfl (List.forall_mem_nil _)

/-! ### Calls and their sequences -/

lemma steady_op (op : Op) : Steady op.proc := by
  have hcart : Calm Plain Willys.getCart := by
    exact calm_requireAuth.bind fun _ => calm_fetch fun _ => by simp [Plain, Client.request]
  have htoken : Calm Plain ensureCSRF := calm_ensureCSRF fun _ => by simp [Plain, Client.request]
  have hadd (code : String) (qty : ℤ) : Steady (Willys.addToCart code qty) := by
    refine steady_requireAuth (htoken.bind fun _ => ?_)
    refine (calm_doRequest fun _ => by simp [Plain, Client.request]).bind fun resp => ?_
    split_ifs
    · exact calm_fail _
    · exact hcart
  have hget {γ : Type} (route : Route) (what : String) (decode : Body → Except String γ)
      (h : route ≠ .login ∧ route ≠ .customer) : Steady (do
        requireAuth
        fetch route what decode) :=
    steady_requireAuth (calm_fetch fun _ => h)
  cases op with
  | login username password => exact (steady_login _ _).bind fun _ => steady_pure _
  | clearState => exact steady_clearState
  | getCart => exact (hget .cart _ _ (by simp)).bind fun _ => steady_pure _
  | addToCart code qty => exact (hadd code qty).bind fun _ => steady_pure _
  | removeFromCart code => exact (hadd code 0).bind fun _ => steady_pure _
  | clearCart =>
    refine steady_requireAuth (htoken.bind fun _ => ?_)
    refine (calm_doRequest fun _ => by simp [Plain, Client.request]).bind fun resp => ?_
    split_ifs
    · exact calm_fail _
    · exact calm_pure _
  | getOrderHistory => exact (hget .orders _ _ (by simp)).bind fun _ => steady_pure _
  | getOrderDetail number =>
    exact (hget (.orderDetail number) _ _ (by simp)).bind fun _ => steady_pure _

lemma steady_ensureLoggedIn (force : Bool) : Steady (ensureLoggedIn force) := by
  refine (steady_of_calm (calm_request (q := .credentials) ⟨trivial, rfl⟩)).bind fun o => ?_
  cases o with
  | none => exact steady_fail _
  | some creds =>
    refine steady_read.bind fun changed => steady_read.bind fun logged => ?_
    by_cases hskip : (!force && !changed && logged) = true
    · rw [if_pos hskip]
      exact steady_pure _
    rw [if_neg hskip]
    have hclear : Steady (Willys.modify fun c => if changed then c.clearState else c) := by
      cases changed with
      | true => exact steady_clearState
      | false => exact Keeps.refl
    exact hclear.bind fun _ => (steady_login _ _).mapError.bind fun _ => Keeps.refl

lemma steady_withAuth {fn : WillysProc α} (h : Steady fn) : Steady (withAuth fn) := by
  refine (steady_ensureLoggedIn false).bind fun _ => h.attempt.bind fun r => ?_
  cases r with
  | ok a => exact steady_pure a
  | error e =>
    show Steady (if (!looksLikeAuthError e) = true then _ else _)
    split_ifs
    · exact steady_fail e
    · exact (steady_ensureLoggedIn true).bind fun _ => h

lemma steady_session (calls : List Call) : Steady (session calls) := by
  induction calls with
  | nil => exact steady_pure ()
  | cons c calls ih =>
    have hcall : Steady c.proc := by
      rw [Call.proc]
      split_ifs
      · exact steady_withAuth (steady_op c.op)
      · exact steady_op c.op
    exact hcall.attempt.bind fun _ => ih

lemma session_append (calls later : List Call) :
    session (calls ++ later) = session calls >>= fun _ => session later := by
  induction calls with
  | nil => rfl
  | cons c calls ih =>
    rw [List.cons_append, session, session, Proc.bind_assoc]
    exact congrArg _ (funext fun _ => ih)

/-- The world after the calls of a new client. -/
def after (saved : Option Session) (creds : WillysCreds) (calls : List Call) (ans : Upstream) :
    World Memory Query Reply :=
  ((session calls).run ans ⟨⟨newClient saved, creds⟩, []⟩).2

lemma keeps_session (calls : List Call) (ans : Upstream) (w : World Memory Query Reply) :
    Keeps w ((session calls).run ans w).2 := by
  have hrun := Proc.wp_run (steady_session calls w) ans
  rcases hr : (session calls).run ans w with ⟨e | a, v⟩ <;> rw [hr] at hrun <;> exact hrun

lemma session_ok (calls : List Call) (ans : Upstream) (w : World Memory Query Reply) :
    ((session calls).run ans w).1 = .ok () := by
  induction calls generalizing w with
  | nil => rfl
  | cons c calls ih =>
    rw [session, Proc.run_bind_ok (Proc.run_attempt _ _)]
    exact ih _

/-- **The flag stands for a confirmed session**: as long as every login under a set flag is refused
or shows a customer, the flag is set only once the last login has shown a real customer, and
nothing of the cart or the orders is asked for on another session. -/
theorem good_of_settled (saved : Option Session) (creds : WillysCreds) (calls later : List Call)
    (ans : Upstream) (h : settled (after saved creds (calls ++ later) ans).log = true) :
    Good (after saved creds calls ans) := by
  have hstart : Good ⟨⟨newClient saved, creds⟩, []⟩ := by
    refine ⟨fun hflag => ?_, fun before x after he => nomatch List.append_eq_nil_iff.mp he.symm⟩
    cases saved <;> exact absurd hflag Bool.false_ne_true
  have hafter : after saved creds (calls ++ later) ans =
      ((session later).run ans (after saved creds calls ans)).2 := by
    rw [after, session_append, Proc.run_bind_ok (Prod.ext (session_ok _ _ _) rfl), after]
  obtain ⟨l, hl, hfresh, -⟩ := keeps_session later ans (after saved creds calls ans)
  obtain ⟨-, -, -, hgood⟩ := keeps_session calls ans ⟨⟨newClient saved, creds⟩, []⟩
  rw [hafter, hl] at h
  exact hgood (settled_left h hfresh) hstart

/-- The first request for the cart finds the session expired, and question `k` gets lost. -/
def flaky (k : ℕ) : Upstream :=
  replying fun n => if n = k then .error "timeout" else .ok (if n = 8 then 401 else 200)

theorem good_of_settled_renewed : Good (after none ⟨"", ""⟩ [⟨.getCart, true⟩] (flaky 100)) :=
  good_of_settled none ⟨"", ""⟩ [⟨.getCart, true⟩] [⟨.clearState, false⟩] (flaky 100)
    (by decide)

/-- The token after a renewed login gets lost: the flag is still set. -/
theorem not_good : ¬∀ (saved : Option Session) (creds : WillysCreds) (calls : List Call)
    (ans : Upstream), Good (after saved creds calls ans) := by
  intro h
  obtain ⟨-, y, hy, hcust⟩ := (h none ⟨"", ""⟩ [⟨.getCart, true⟩] (flaky 15)).1 (by decide)
  have hnone : ∀ y ∈ since (after none ⟨"", ""⟩ [⟨.getCart, true⟩] (flaky 15)).log,
      (customerOf y).any isAuthenticated = false := by decide
  exact Bool.false_ne_true ((hnone y hy).symm.trans hcust)

end Veckomenyn.Sessions
