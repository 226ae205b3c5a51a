import Veckomenyn.Requests

/-!
How often an add to the cart takes effect.

An add is a POST and a GET of the cart it answers with. When the POST is accepted and the GET
looks like a rejected session, the retry sends the POST once more.
-/

namespace Veckomenyn.AddOnce

open CartTools Remote Willys WillysProvider Requests

/-- What `GetCart` makes of an answer. -/
def cartOf : Except String Response → Except Failure Cart
  | .error e => .error (failed e)
  | .ok resp => fetched "get cart" Body.cart resp

/-! ### One attempt -/

/-- What comes before the POST of an attempt. -/
def ready : WillysProc Unit := do
  requireAuth
  ensureCSRF

def addRequest (code : String) (qty : ℤ) (w : World Memory Query Reply) : Request :=
  w.mem.client.request .post .addProducts (some (.products code qty))

/-- The answer to the POST. -/
def answered (ans : Upstream) (code : String) (qty : ℤ) (w : World Memory Query Reply) :
    Except String Response :=
  ans w.log.length (.http (addRequest code qty w))

/-- The world once the POST has been answered. -/
def posted (ans : Upstream) (code : String) (qty : ℤ) (w : World Memory Query Reply) :
    World Memory Query Reply :=
  sent w (addRequest code qty w) (answered ans code qty w)

/-- The answer to the request for the cart. -/
def shown (ans : Upstream) (w : World Memory Query Reply) : Except String Response :=
  ans w.log.length (.http (w.mem.client.request .get .cart none))

def Accepts (a : Except String Response) : Prop := ∃ resp, a = .ok resp ∧ resp.status = 200

/-- An attempt that starts in `w` sends its POST in `v`, and upstream accepts it. -/
def Takes (ans : Upstream) (code : String) (qty : ℤ) (w v : World Memory Query Reply) : Prop :=
  ready.run ans w = (.ok (), v) ∧ Accepts (answered ans code qty v)

/-- The world once the cart has been asked for. -/
def asked (ans : Upstream) (w : World Memory Query Reply) : World Memory Query Reply :=
  sent w (w.mem.client.request .get .cart none) (shown ans w)

/-- Upstream has failed a request for the cart as it does for a rejected session. -/
def Rejected (a : Except String Response) : Prop :=
  ∃ e, cartOf a = .error e ∧ looksLikeAuthError e = true

lemma ready_run (ans : Upstream) (w : World Memory Query Reply) :
    (ready.run ans w).2.log.countP accepted = w.log.countP accepted ∧
      ∀ v, ready.run ans w = (.ok (), v) → v.mem.client.authenticated = true := by
  have h : ready.wp (fun _ v => Stays OfLogin w v ∧ v.mem.client.authenticated = true)
      (fun _ => Stays OfLogin w) w := by
    rw [ready, Proc.wp_bind, wp_requireAuth]
    split_ifs with hauth
    · exact Proc.wp_mono (fun _ v hv => ⟨hv, hv.1.trans hauth⟩) (fun _ _ hv => hv)
        (calm_ensureCSRF (P := OfLogin) (fun _ => trivial) w)
    · exact Stays.refl _ _
  have hcount {v : World Memory Query Reply} (hv : Stays OfLogin w v) :
      v.log.countP accepted = w.log.countP accepted := by
    obtain ⟨-, l, hl, hP⟩ := hv
    have hzero : l.countP accepted = 0 := List.countP_eq_zero.mpr fun x hx => by
      rw [accepted_of_login (hP x hx)]
      exact Bool.false_ne_true
    rw [hl, List.countP_append, hzero, Nat.add_zero]
  have hrun := Proc.wp_run h ans
  rcases hr : ready.run ans w with ⟨e | ⟨⟩, v⟩ <;> rw [hr] at hrun
  · exact ⟨hcount hrun, nofun⟩
  · refine ⟨hcount hrun.1, fun v' hv' => ?_⟩
    obtain rfl : v = v' := congrArg Prod.snd hv'
    exact hrun.2

lemma run_doRequest (ans : Upstream) (m : Method) (r : Route) (b : Option Payload)
    (w : World Memory Query Reply) {a : Except String Response}
    (ha : ans w.log.length (.http (w.mem.client.request m r b)) = a) :
    (doRequest m r b).run ans w =
      (a.mapError failed, sent w (w.mem.client.request m r b) a) := by
  have key (a : Except String Response) : (match a with
      | .error e => Proc.fail (failed e)
      | .ok resp => (do
        Willys.modify (Client.parseCookies resp)
        pure resp) : WillysProc Response).run ans
          ⟨w.mem, w.log ++ [⟨w.mem, .http (w.mem.client.request m r b), a⟩]⟩ =
        (a.mapError failed, sent w (w.mem.client.request m r b) a) := by
    cases a <;> rfl
  rw [← ha]
  exact key _

lemma run_getCart (ans : Upstream) {w : World Memory Query Reply}
    (h : w.mem.client.authenticated = true) :
    getCart.run ans w = (cartOf (shown ans w), asked ans w) := by
  have hauth : requireAuth.run ans w = (.ok (), w) := by
    show (if w.mem.client.authenticated then pure () else Proc.fail _ : WillysProc Unit).run ans w
      = _
    rw [if_pos h]
    rfl
  rw [getCart, Proc.run_bind_ok hauth, fetch, Proc.run_bind, run_doRequest ans _ _ _ _ rfl]
  rcases ha : shown ans w with e | resp
  · rw [asked, ha]
    rw [shown] at ha
    rw [ha]
    rfl
  · rw [asked, ha]
    rw [shown] at ha
    rw [ha]
    show Proc.run ans (if resp.status ≠ 200 then _ else _) _ = (fetched _ _ resp, _)
    rw [fetched]
    split_ifs
    · rfl
    · cases resp.body.cart <;> rfl

/-- The number of adds upstream has accepted. -/
def adds (w : World Memory Query Reply) : ℕ := w.log.countP accepted

lemma adds_posted (ans : Upstream) (code : String) (qty : ℤ) (w : World Memory Query Reply) :
    (Accepts (answered ans code qty w) → adds (posted ans code qty w) = adds w + 1) ∧
      (¬Accepts (answered ans code qty w) → adds (posted ans code qty w) = adds w) := by
  have hadds : adds (posted ans code qty w) = adds w +
      if accepted ⟨w.mem, .http (addRequest code qty w), answered ans code qty w⟩ then 1 else 0 := by
    show List.countP accepted (w.log ++ [_]) = _
    rw [List.countP_append, List.countP_singleton]
    rfl
  rcases ha : answered ans code qty w with e | resp
  · rw [ha] at hadds
    refine ⟨?_, fun _ => hadds⟩
    rintro ⟨resp, h, -⟩
    exact nomatch h
  · rw [ha] at hadds
    have hacc : accepted ⟨w.mem, .http (addRequest code qty w), .ok resp⟩ =
        decide (resp.status = 200) := Bool.true_and _
    rw [hacc] at hadds
    constructor
    · rintro ⟨resp', h, hst⟩
      obtain rfl : resp = resp' := Except.ok.inj h
      rw [hadds, if_pos (decide_eq_true hst)]
    · intro h
      have hst : resp.status ≠ 200 := fun hst => h ⟨resp, rfl, hst⟩
      rw [hadds, decide_eq_false hst, if_neg Bool.false_ne_true, Nat.add_zero]

lemma adds_asked (ans : Upstream) (w : World Memory Query Reply) : adds (asked ans w) = adds w := by
  have hacc (a : Except String Response) :
      accepted ⟨w.mem, .http (w.mem.client.request .get .cart none), a⟩ = false := by
    cases a <;> rfl
  show List.countP accepted (w.log ++ [_]) = _
  rw [List.countP_append, List.countP_singleton, hacc]
  rfl

/-- An attempt whose POST is accepted ends as the request for the cart does. -/
lemma attempt_run (ans : Upstream) (code : String) (qty : ℤ) (w : World Memory Query Reply) :
    (∃ v, Takes ans code qty w v ∧ adds (asked ans (posted ans code qty v)) = adds w + 1 ∧
      (addToCart code qty).run ans w =
        (cartOf (shown ans (posted ans code qty v)), asked ans (posted ans code qty v))) ∨
    ((∀ v, ¬Takes ans code qty w v) ∧ adds ((addToCart code qty).run ans w).2 = adds w) := by
  have hsplit : addToCart code qty = (do
      ready
      let resp ← doRequest .post .addProducts (some (.products code qty))
      if resp.status ≠ 200 then
        Proc.fail (failed ("add to cart failed (" ++ toString resp.status ++ "): " ++
          resp.body.text))
      else getCart) := by
    rw [ready, Proc.bind_assoc]
    rfl
  obtain ⟨hcount, hflag⟩ := ready_run ans w
  rcases hr : ready.run ans w with ⟨e | ⟨⟩, v⟩
  · refine Or.inr ⟨fun v' h => ?_, ?_⟩
    · rw [Takes, hr] at h
      exact nomatch (Prod.mk.inj h.1).1
    · rw [hsplit, Proc.run_bind_error hr]
      rwa [hr] at hcount
  rw [hr] at hcount
  obtain ⟨hyes, hno⟩ := adds_posted ans code qty v
  have hpost : (doRequest .post .addProducts (some (.products code qty))).run ans v =
      ((answered ans code qty v).mapError failed, posted ans code qty v) :=
    run_doRequest ans _ _ _ _ rfl
  by_cases hacc : Accepts (answered ans code qty v)
  · refine Or.inl ⟨v, ⟨hr, hacc⟩, (adds_asked _ _).trans ((hyes hacc).trans ?_), ?_⟩
    · exact congrArg (· + 1) hcount
    · have hflag' : (posted ans code qty v).mem.client.authenticated = true := by
        refine Eq.trans ?_ (hflag v hr)
        rw [posted]
        cases answered ans code qty v <;> rfl
      obtain ⟨resp, ha, hst⟩ := hacc
      rw [ha] at hpost
      rw [hsplit, Proc.run_bind_ok hr, Proc.run_bind_ok hpost, if_neg (not_not.mpr hst),
        run_getCart ans hflag']
  · refine Or.inr ⟨fun v' h => hacc ?_, Eq.trans ?_ ((hno hacc).trans hcount)⟩
    · obtain rfl : v = v' := congrArg Prod.snd (hr.symm.trans h.1)
      exact h.2
    · rw [hsplit, Proc.run_bind_ok hr, Proc.run_bind, hpost]
      rcases ha : answered ans code qty v with e | resp
      · rfl
      · have hst : resp.status ≠ 200 := fun hst => hacc ⟨resp, ha, hst⟩
        show adds (Proc.run ans (if resp.status ≠ 200 then _ else _) _).2 = _
        rw [if_pos hst]
        rfl

/-! ### A whole call -/

/-- Upstream accepts the add, fails the request for the cart as it does for a rejected session,
lets the login through, and accepts the add again. -/
def Expires (ans : Upstream) (m : Memory) (code : String) (qty : ℤ) : Prop :=
  ∃ w v w' v', (ensureLoggedIn false).run ans ⟨m, []⟩ = (.ok (), w) ∧ Takes ans code qty w v ∧
    Rejected (shown ans (posted ans code qty v)) ∧
    (ensureLoggedIn true).run ans (asked ans (posted ans code qty v)) = (.ok (), w') ∧
    Takes ans code qty w' v'

lemma adds_ensureLoggedIn (ans : Upstream) (force : Bool) (w : World Memory Query Reply) :
    adds ((ensureLoggedIn force).run ans w).2 = adds w := by
  obtain ⟨l, hl, hP⟩ := (asks_ensureLoggedIn force).run ans w
  have hzero : l.countP accepted = 0 := List.countP_eq_zero.mpr fun x hx => by
    rw [accepted_of_login (hP x hx)]
    exact Bool.false_ne_true
  rw [adds, hl, List.countP_append, hzero, Nat.add_zero]
  rfl

/-- The second attempt, after its login. -/
lemma adds_again (ans : Upstream) (code : String) (qty : ℤ) (u : World Memory Query Reply) :
    ((∃ w v, (ensureLoggedIn true).run ans u = (.ok (), w) ∧ Takes ans code qty w v) ∧
      adds ((ensureLoggedIn true >>= fun _ => addToCart code qty).run ans u).2 = adds u + 1) ∨
    ((¬∃ w v, (ensureLoggedIn true).run ans u = (.ok (), w) ∧ Takes ans code qty w v) ∧
      adds ((ensureLoggedIn true >>= fun _ => addToCart code qty).run ans u).2 = adds u) := by
  have hlogin := adds_ensureLoggedIn ans true u
  rcases hl : (ensureLoggedIn true).run ans u with ⟨e | ⟨⟩, w⟩
  · rw [hl] at hlogin
    rw [Proc.run_bind_error hl]
    refine Or.inr ⟨?_, hlogin⟩
    rintro ⟨w, v, h, -⟩
    exact nomatch (Prod.mk.inj h).1
  · rw [hl] at hlogin
    rw [Proc.run_bind_ok hl]
    rcases attempt_run ans code qty w with ⟨v, hv, hadds, hrun⟩ | ⟨hno, hadds⟩
    · rw [hrun]
      exact Or.inl ⟨⟨w, v, rfl, hv⟩, hadds.trans (congrArg (· + 1) hlogin)⟩
    · refine Or.inr ⟨?_, hadds.trans hlogin⟩
      rintro ⟨w', v, h, hv⟩
      obtain rfl : w = w' := congrArg Prod.snd h
      exact hno v hv

/-- An attempt that upstream has accepted is the one the condition speaks of. -/
lemma expires_iff {ans : Upstream} {m : Memory} {code : String} {qty : ℤ}
    {w v : World Memory Query Reply} (hl : (ensureLoggedIn false).run ans ⟨m, []⟩ = (.ok (), w))
    (hv : Takes ans code qty w v) :
    Expires ans m code qty ↔ Rejected (shown ans (posted ans code qty v)) ∧
      ∃ w' v', (ensureLoggedIn true).run ans (asked ans (posted ans code qty v)) = (.ok (), w') ∧
        Takes ans code qty w' v' := by
  constructor
  · rintro ⟨w₁, v₁, w', v', hl₁, hv₁, hrej, hl', hv'⟩
    obtain rfl : w = w₁ := congrArg Prod.snd (hl.symm.trans hl₁)
    obtain rfl : v = v₁ := congrArg Prod.snd (hv.1.symm.trans hv₁.1)
    exact ⟨hrej, w', v', hl', hv'⟩
  · rintro ⟨hrej, w', v', hl', hv'⟩
    exact ⟨w, v, w', v', hl, hv, hrej, hl', hv'⟩

lemma adds_withAuth (ans : Upstream) (m : Memory) (code : String) (qty : ℤ) :
    adds ((withAuth (addToCart code qty)).run ans ⟨m, []⟩).2 ≤ 1 ↔ ¬Expires ans m code qty := by
  have hlogin : adds ((ensureLoggedIn false).run ans ⟨m, []⟩).2 = 0 := adds_ensureLoggedIn ans _ _
  rcases hl : (ensureLoggedIn false).run ans ⟨m, []⟩ with ⟨e | ⟨⟩, w⟩ <;> rw [hl] at hlogin
  · rw [withAuth, Proc.run_bind_error hl]
    refine iff_of_true (hlogin.trans_le (Nat.zero_le 1)) ?_
    rintro ⟨w, v, w', v', h, -⟩
    exact nomatch (Prod.mk.inj (hl.symm.trans h)).1
  rw [withAuth, Proc.run_bind_ok hl, Proc.run_bind_ok (Proc.run_attempt _ _)]
  rcases attempt_run ans code qty w with ⟨v, hv, hadds, hrun⟩ | ⟨hno, hadds⟩
  · have hone : adds (asked ans (posted ans code qty v)) = 1 :=
      hadds.trans (congrArg (· + 1) hlogin)
    rw [hrun, expires_iff hl hv]
    rcases hc : cartOf (shown ans (posted ans code qty v)) with e | c
    · by_cases hauth : looksLikeAuthError e = true
      · have hrej : Rejected (shown ans (posted ans code qty v)) := ⟨e, hc, hauth⟩
        show adds (Proc.run ans (if (!looksLikeAuthError e) = true then _ else _) _).2 ≤ 1 ↔ _
        rw [if_neg (by simp [hauth])]
        rcases adds_again ans code qty (asked ans (posted ans code qty v)) with
          ⟨hex, htwo⟩ | ⟨hno, htwo⟩
        · rw [htwo, hone]
          exact iff_of_false (by omega) (not_not.mpr ⟨hrej, hex⟩)
        · rw [htwo, hone]
          exact iff_of_true le_rfl fun h => hno h.2
      · show adds (Proc.run ans (if (!looksLikeAuthError e) = true then _ else _) _).2 ≤ 1 ↔ _
        rw [if_pos (by simp [hauth])]
        refine iff_of_true hone.le ?_
        rintro ⟨⟨e', he', h⟩, -⟩
        obtain rfl : e = e' := Except.error.inj (hc.symm.trans he')
        exact hauth h
    · refine iff_of_true hone.le ?_
      rintro ⟨⟨e', he', h⟩, -⟩
      exact nomatch hc.symm.trans he'
  · refine iff_of_true ?_ ?_
    · rcases hr : (addToCart code qty).run ans w with ⟨e | c, u⟩
      · have hu : adds u = 0 := by rw [← hlogin, ← hadds, hr]
        show adds (Proc.run ans (if (!looksLikeAuthError e) = true then _ else _) _).2 ≤ 1
        split_ifs
        · exact hu.trans_le (Nat.zero_le 1)
        · rcases adds_again ans code qty u with ⟨-, h⟩ | ⟨-, h⟩ <;> rw [h, hu]
          exact Nat.zero_le 1
      · rw [hr] at hadds
        exact (hadds.trans hlogin).trans_le (Nat.zero_le 1)
    · rintro ⟨w₁, v, w', v', hl₁, hv, -⟩
      obtain rfl : w = w₁ := congrArg Prod.snd (hl.symm.trans hl₁)
      exact hno v hv

/-- **A call of `CartAdd` makes one add**: upstream accepts at most one POST of the call, unless
the session expires between an accepted POST and the request for the cart right after it. -/
theorem at_most_one_add (ans : Upstream) (m : Memory) (code : String) (qty : ℤ) :
    ((cartAdd code qty).run ans ⟨m, []⟩).2.log.countP accepted ≤ 1 ↔
      ¬Expires ans m code (if qty ≤ 0 then 1 else qty) :=
  adds_withAuth ans m code _

/-- The request for the cart, the third question, finds the session expired. -/
def expiring : Upstream := replying fun n => .ok (if n = 2 then 401 else 200)

/-- The session expires after the POST: the add takes effect twice. -/
theorem two_adds :
    ¬∀ (ans : Upstream) (m : Memory) (code : String) (qty : ℤ),
      ((cartAdd code qty).run ans ⟨m, []⟩).2.log.countP accepted ≤ 1 := by
  intro h
  exact absurd (h expiring loggedIn "milk" 2) (by decide)

end Veckomenyn.AddOnce
