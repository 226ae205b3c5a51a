import Veckomenyn.Requests

/-!
Errors that are taken for a rejected session by their text.

The text of an error quotes what upstream has said: a status, a body, or why something could not be
sent or decoded. A word of the four in it is enough for a login and a second run of the operation.
-/

namespace Veckomenyn.AuthText

open CartTools Remote Willys WillysProvider Requests

/-! ### The four words -/

def words : List (List Char) :=
  ["401".toList, "unauthorized".toList, "403".toList, "forbidden".toList]

/-- One of the words is in the text, in either case. -/
def Mentions (cs : List Char) : Prop := ∃ w ∈ words, w <:+: cs.map lower

instance (cs : List Char) : Decidable (Mentions cs) := List.decidableBEx _ words

lemma looksLikeAuthError_iff (e : Failure) :
    looksLikeAuthError e = true ↔ e.auth = true ∨ Mentions e.text.toList := by
  simp only [looksLikeAuthError, contains, Mentions, words, Bool.or_eq_true, decide_eq_true_eq,
    List.mem_cons, List.not_mem_nil, or_false, exists_eq_or_imp, exists_eq_left, or_assoc]

lemma infix_append_cons {α : Type} {c : α} {w a b : List α} (hc : c ∉ w) :
    w <:+: a ++ c :: b ↔ w <:+: a ∨ w <:+: b := by
  constructor
  · rintro ⟨s, t, h⟩
    rw [List.append_assoc] at h
    rcases List.append_eq_append_iff.mp h with ⟨x, rfl, hx⟩ | ⟨x, rfl, hx⟩
    · rcases List.append_eq_append_iff.mp hx with ⟨y, rfl, -⟩ | ⟨y, rfl, hy⟩
      · exact .inl ⟨s, y, by simp⟩
      · cases y with
        | nil => exact .inl ⟨s, [], by simp⟩
        | cons d y =>
          obtain ⟨rfl, -⟩ := List.cons_eq_cons.mp hy
          exact absurd (by simp) hc
    · cases x with
      | nil =>
        cases w with
        | nil => exact .inl (List.nil_infix)
        | cons d w =>
          obtain ⟨rfl, -⟩ := List.cons_eq_cons.mp hx
          exact absurd (by simp) hc
      | cons d x =>
        obtain ⟨-, rfl⟩ := List.cons_eq_cons.mp hx
        exact .inr ⟨x, t, by simp⟩
  · rintro (h | h)
    · exact h.trans (List.prefix_append _ _).isInfix
    · exact h.trans ((List.suffix_cons _ _).trans (List.suffix_append _ _)).isInfix

/-- No word goes across a character that is in none of them. -/
lemma mentions_append_cons {c : Char} (hc : ∀ w ∈ words, lower c ∉ w) (a b : List Char) :
    Mentions (a ++ c :: b) ↔ Mentions a ∨ Mentions b := by
  unfold Mentions
  simp only [List.map_append, List.map_cons]
  constructor
  · rintro ⟨w, hw, h⟩
    rcases (infix_append_cons (hc w hw)).mp h with h | h
    · exact .inl ⟨w, hw, h⟩
    · exact .inr ⟨w, hw, h⟩
  · rintro (⟨w, hw, h⟩ | ⟨w, hw, h⟩)
    · exact ⟨w, hw, (infix_append_cons (hc w hw)).mpr (.inl h)⟩
    · exact ⟨w, hw, (infix_append_cons (hc w hw)).mpr (.inr h)⟩

/-- What is quoted after a blank is all that counts. -/
lemma mentions_quoted {what : String} (h : ¬ Mentions what.toList) (quoted : String) :
    Mentions (what ++ " " ++ quoted).toList ↔ Mentions quoted.toList := by
  have hsplit : (what ++ " " ++ quoted).toList = what.toList ++ ' ' :: quoted.toList := by simp
  rw [hsplit, mentions_append_cons (by decide), or_iff_right h]

lemma lower_digit {c : Char} (h : c.isDigit = true) : lower c = c := by
  have hrange : c.toNat ≤ '9'.toNat := by
    simp only [Char.isDigit, Bool.and_eq_true, decide_eq_true_eq] at h
    exact h.2
  have hne {d : Char} (hd : '9'.toNat < d.toNat) : c ≠ d := by
    rintro rfl
    omega
  have hcapital : ¬ (c.val ≥ 'A'.val ∧ c.val ≤ 'Z'.val) := by
    rintro ⟨hlow, -⟩
    have hA : 'A'.toNat ≤ c.toNat := hlow
    have h9 : '9'.toNat < 'A'.toNat := by decide
    omega
  rw [lower, if_neg (hne (by decide)), if_neg (hne (by decide))]
  exact dif_neg hcapital

lemma eq_of_infix_digits {n k : ℕ} {w : List Char} (h : n < 1000) (hw : w.length = 3)
    (hk : Nat.ofDigitChars 10 w 0 = k) (hin : w <:+: (Nat.toDigits 10 n).map lower) : n = k := by
  have hdigits : (Nat.toDigits 10 n).map lower = Nat.toDigits 10 n :=
    (List.map_congr_left fun c hc => lower_digit
      (Nat.isDigit_of_mem_toDigits (by decide) (by decide) hc)).trans (List.map_id _)
  have hlen : (Nat.toDigits 10 n).length ≤ 3 :=
    (Nat.length_toDigits_le_iff (by decide) (by decide)).mpr h
  rw [hdigits] at hin
  have heq : w = Nat.toDigits 10 n := hin.eq_of_length_le (by omega)
  rw [← hk, heq, Nat.ofDigitChars_ten_toDigits]

/-- A status of three digits is taken for a rejected session if it is one. -/
theorem mentions_status {n : ℕ} (h : n < 1000) :
    Mentions (toString n).toList ↔ n = 401 ∨ n = 403 := by
  have hlen : ((Nat.toDigits 10 n).map lower).length ≤ 3 := by
    rw [List.length_map]
    exact (Nat.length_toDigits_le_iff (by decide) (by decide)).mpr h
  have hlong {w : List Char} (hw : 3 < w.length) : ¬ w <:+: (Nat.toDigits 10 n).map lower :=
    fun hin => absurd hin.length_le (by omega)
  have htext : (toString n).toList = Nat.toDigits 10 n := Nat.toList_repr
  constructor
  · rintro ⟨w, hw, hin⟩
    rw [htext] at hin
    rcases hw with _ | ⟨_, _ | ⟨_, _ | ⟨_, _ | ⟨_, hw⟩⟩⟩⟩
    · exact .inl (eq_of_infix_digits h rfl rfl hin)
    · exact absurd hin (hlong (by decide))
    · exact .inr (eq_of_infix_digits h rfl rfl hin)
    · exact absurd hin (hlong (by decide))
    · cases hw
  · rintro (rfl | rfl)
    · decide
    · decide

/-! ### What an error quotes -/

/-- Why a body does not decode. -/
def undecoded {α : Type} : Except String α → List String
  | .error e => [e]
  | .ok _ => []

/-- What comes of a body that answers a request with 200. -/
def decoded (r : Request) (b : Body) : List String :=
  match r.route with
  | .csrfToken => undecoded b.token
  | .cart => if r.method = .get then undecoded b.cart else []
  | .search _ _ _ => undecoded b.search
  | .orders => undecoded b.orders
  | .orderDetail _ => undecoded b.order
  | _ => []

/-- What an answer adds to the error of an operation that fails on it. -/
def complaint : Exchange Memory Query Reply → List String
  | ⟨_, .http r, a⟩ => match (a : Except String Response) with
    | .error e => [e]
    | .ok resp =>
      if resp.status ≠ 200 then
        toString resp.status :: if r.route = .addProducts then [resp.body.text] else []
      else decoded r resp.body
  | _ => []

/-- The last answer in between, if there is one, makes no error. -/
def Taken (w v : World Memory Query Reply) : Prop :=
  ∃ l, v.log = w.log ++ l ∧ ∀ x ∈ l.getLast?, complaint x = []

/-- An error quotes the last answer, unless it is the client's own. -/
def Quotes (e : Failure) (w v : World Memory Query Reply) : Prop :=
  ∃ l, v.log = w.log ++ l ∧ (e.auth = true ∨ ∃ x ∈ l.getLast?,
    (Mentions e.text.toList ↔ ∃ t ∈ complaint x, Mentions t.toList))

variable {α β : Type} {u v w : World Memory Query Reply}

lemma Taken.refl (w : World Memory Query Reply) : Taken w w :=
  ⟨[], (List.append_nil _).symm, by simp⟩

lemma Taken.trans (h : Taken w u) (h' : Taken u v) : Taken w v := by
  obtain ⟨l, hl, hlast⟩ := h
  obtain ⟨l', hl', hlast'⟩ := h'
  refine ⟨l ++ l', by rw [hl', hl, List.append_assoc], fun x hx => ?_⟩
  rw [List.getLast?_append] at hx
  cases h : l'.getLast? with
  | none => exact hlast x (by simpa [h] using hx)
  | some y => exact hlast' x (by simpa [h] using hx)

lemma Taken.quotes {e : Failure} (h : Taken w u) (h' : Quotes e u v) : Quotes e w v := by
  obtain ⟨l, hl, -⟩ := h
  obtain ⟨l', hl', hlast'⟩ := h'
  refine ⟨l ++ l', by rw [hl', hl, List.append_assoc], hlast'.imp id ?_⟩
  rintro ⟨x, hx, htext⟩
  exact ⟨x, by simp [List.getLast?_append, Option.mem_def.mp hx], htext⟩

lemma taken_sent {r : Request} {resp : Response} (h : complaint ⟨w.mem, .http r, .ok resp⟩ = []) :
    Taken w (sent w r (.ok resp)) :=
  ⟨_, rfl, by simpa using h⟩

lemma quotes_sent {r : Request} {a : Except String Response} {e : Failure}
    (h : Mentions e.text.toList ↔ ∃ t ∈ complaint ⟨w.mem, .http r, a⟩, Mentions t.toList) :
    Quotes e w (sent w r a) :=
  ⟨_, rfl, .inr ⟨_, rfl, h⟩⟩

/-- The errors of the program quote what upstream has said last. -/
def Tells (x : WillysProc α) : Prop := ∀ w, x.wp (fun _ => Taken w) (fun e => Quotes e w) w

lemma tells_pure (a : α) : Tells (pure a) := Taken.refl

lemma Tells.bind {x : WillysProc α} {f : α → WillysProc β} (hx : Tells x)
    (hf : ∀ a, Tells (f a)) : Tells (x >>= f) := fun w =>
  Proc.wp_bind_of (hx w)
    (fun a v hv => Proc.wp_mono (fun _ _ h => hv.trans h) (fun _ _ h => hv.quotes h) (hf a v))
    fun _ _ hv => hv

lemma tells_read {γ : Type} {f : Client → γ} : Tells (Willys.read f) := Taken.refl

lemma tells_requireAuth : Tells requireAuth := by
  intro w
  rw [wp_requireAuth]
  split_ifs
  · exact Taken.refl w
  · exact ⟨[], (List.append_nil _).symm, .inl rfl⟩

/-! ### The client's requests -/

lemma mentions_singleton {cs : List Char} {text : String} (h : Mentions cs ↔ Mentions text.toList) :
    Mentions cs ↔ ∃ t ∈ [text], Mentions t.toList := by
  simpa using h

/-- A request that may only fail by its status or on the way. -/
lemma tells_fetch {route : Route} {what : String} {decode : Body → Except String α}
    (hroute : route ≠ .addProducts) (hwhat : ¬ Mentions (what ++ " failed:").toList)
    (hdecode : ∀ (c : Client) b, decoded (c.request .get route none) b = undecoded (decode b)) :
    Tells (fetch route what decode) := by
  intro w
  rw [wp_fetch]
  refine ⟨fun e => quotes_sent (mentions_singleton Iff.rfl), fun resp => ?_⟩
  have hr : (w.mem.client.request .get route none).route ≠ .addProducts := hroute
  unfold fetched
  split_ifs with hstatus
  · refine quotes_sent ?_
    have htext : what ++ " failed: " ++ toString resp.status =
        what ++ " failed:" ++ " " ++ toString resp.status := by
      rw [@String.append_assoc what " failed:" " "]
      rfl
    simp only [complaint, if_pos hstatus, if_neg hr, failed, htext]
    exact mentions_singleton (mentions_quoted hwhat _)
  · cases hbody : decode resp.body with
    | error e =>
      refine quotes_sent ?_
      simp only [complaint, if_neg hstatus, hdecode, hbody]
      exact mentions_singleton Iff.rfl
    | ok a =>
      refine taken_sent ?_
      simp only [complaint, if_neg hstatus, hdecode, hbody]
      rfl

lemma tells_fetchCSRFToken : Tells fetchCSRFToken := by
  intro w
  rw [fetchCSRFToken, Proc.wp_bind, Proc.wp_mapError, wp_doRequest]
  have hne : Route.csrfToken ≠ .addProducts := by decide
  have hr : (w.mem.client.request .get .csrfToken none).route ≠ .addProducts := hne
  refine ⟨fun e => quotes_sent (mentions_singleton ?_), fun resp => ?_⟩
  · exact @mentions_quoted "fetching CSRF token:" (by decide) e
  · split_ifs with hstatus
    · refine quotes_sent ?_
      simp only [complaint, if_pos hstatus, if_neg hr, failed]
      exact mentions_singleton
        (@mentions_quoted "CSRF token request failed:" (by decide) _)
    · cases hbody : resp.body.token with
      | error e =>
        refine quotes_sent ?_
        simp only [complaint, if_neg hstatus, decoded, Client.request, hbody, failed]
        exact mentions_singleton (@mentions_quoted "decoding CSRF token:" (by decide) _)
      | ok token =>
        have hsent : Taken w (sent w (w.mem.client.request .get .csrfToken none) (.ok resp)) := by
          refine taken_sent ?_
          simp only [complaint, if_neg hstatus, decoded, Client.request, hbody]
          rfl
        exact hsent

lemma tells_ensureCSRF : Tells ensureCSRF := by
  refine tells_read.bind fun missing => ?_
  cases missing with
  | true => exact tells_fetchCSRFToken
  | false => exact tells_pure _

lemma tells_getCart : Tells getCart :=
  tells_requireAuth.bind fun _ => tells_fetch (by decide) (by decide) fun _ _ => rfl

lemma tells_getOrderHistory : Tells getOrderHistory :=
  tells_requireAuth.bind fun _ => tells_fetch (by decide) (by decide) fun _ _ => rfl

lemma tells_getOrderDetail (number : String) : Tells (getOrderDetail number) :=
  tells_requireAuth.bind fun _ => tells_fetch (by simp) (by decide) fun _ _ => rfl

lemma tells_searchProducts (query : String) (page size : ℤ) :
    Tells (searchProducts query page size) :=
  tells_fetch (by simp) (by decide) fun _ _ => rfl

/-- A status and a body, both quoted. -/
lemma mentions_rejected (status : ℕ) (body : String) :
    Mentions ("add to cart failed (" ++ toString status ++ "): " ++ body).toList ↔
      Mentions (toString status).toList ∨ Mentions body.toList := by
  have hsplit : ("add to cart failed (" ++ toString status ++ "): " ++ body).toList =
      "add to cart failed ".toList ++ '(' :: ((toString status).toList ++
        ')' :: (":".toList ++ ' ' :: body.toList)) := by
    simp
  have hhead : ¬ Mentions "add to cart failed ".toList := by decide
  have hcolon : ¬ Mentions ":".toList := by decide
  rw [hsplit, mentions_append_cons (by decide), mentions_append_cons (by decide),
    mentions_append_cons (by decide), or_iff_right hhead, or_iff_right hcolon]

lemma tells_addToCart (code : String) (qty : ℤ) : Tells (addToCart code qty) := by
  refine tells_requireAuth.bind fun _ => tells_ensureCSRF.bind fun _ => ?_
  intro w
  rw [Proc.wp_bind, wp_doRequest]
  refine ⟨fun e => quotes_sent (mentions_singleton Iff.rfl), fun resp => ?_⟩
  have hr : (w.mem.client.request .post .addProducts (some (.products code qty))).route =
      .addProducts := rfl
  split_ifs with hstatus
  · refine quotes_sent ?_
    simp only [complaint, if_pos hstatus, if_pos hr, failed, mentions_rejected]
    simp
  · have hsent : Taken w (sent w
        (w.mem.client.request .post .addProducts (some (.products code qty))) (.ok resp)) := by
      refine taken_sent ?_
      simp only [complaint, if_neg hstatus, decoded, hr]
    exact Proc.wp_mono (fun _ _ h => hsent.trans h) (fun _ _ h => hsent.quotes h) (tells_getCart _)

lemma tells_clearCart : Tells clearCart := by
  refine tells_requireAuth.bind fun _ => tells_ensureCSRF.bind fun _ => ?_
  intro w
  rw [Proc.wp_bind, wp_doRequest]
  refine ⟨fun e => quotes_sent (mentions_singleton Iff.rfl), fun resp => ?_⟩
  have hne : Route.cart ≠ .addProducts := by decide
  have hr : (w.mem.client.request .delete .cart none).route ≠ .addProducts := hne
  split_ifs with hstatus
  · refine quotes_sent ?_
    simp only [complaint, if_pos hstatus, if_neg hr, failed]
    exact mentions_singleton (@mentions_quoted "clear cart failed:" (by decide) _)
  · refine taken_sent ?_
    simp [complaint, hstatus, decoded, Client.request]

/-- The operations the provider runs through `withAuth`. -/
inductive Operation : {α : Type} → WillysProc α → Prop
  | search (query : String) (page size : ℤ) : Operation (searchProducts query page size)
  | cartGet : Operation getCart
  | cartAdd (code : String) (qty : ℤ) : Operation (addToCart code qty)
  | cartRemove (code : String) : Operation (removeFromCart code)
  | cartClear : Operation clearCart
  | ordersRecent : Operation getOrderHistory
  | orderDetail (number : String) : Operation (getOrderDetail number)

lemma Operation.tells {fn : WillysProc α} (h : Operation fn) : Tells fn := by
  cases h with
  | search query page size => exact tells_searchProducts query page size
  | cartGet => exact tells_getCart
  | cartAdd code qty => exact tells_addToCart code qty
  | cartRemove code => exact tells_addToCart code 0
  | cartClear => exact tells_clearCart
  | ordersRecent => exact tells_getOrderHistory
  | orderDetail number => exact tells_getOrderDetail number

/-! ### A call -/

/-- What upstream answers to a program. -/
def answers (ans : Upstream) (x : WillysProc α) (w : World Memory Query Reply) : Log :=
  (x.run ans w).2.log.drop w.log.length

/-- An answer that rejects the session. -/
def Rejects : Exchange Memory Query Reply → Prop
  | ⟨_, .http _, a⟩ => match (a : Except String Response) with
    | .error _ => False
    | .ok resp => resp.status = 401 ∨ resp.status = 403
  | _ => False

/-- Upstream rejects no request of the attempt, and it does not fail with the client's own error. -/
structure NoAuthFailure (ans : Upstream) (fn : WillysProc α) (v : World Memory Query Reply) :
    Prop where
  status : ∀ x ∈ answers ans fn v, ¬ Rejects x
  own : ∀ e, (fn.run ans v).1 = .error e → e.auth = false

/-- The call is one check of the login and one run of the operation, and no more. -/
def Once (ans : Upstream) (fn : WillysProc α) (w : World Memory Query Reply) : Prop :=
  (withAuth fn).run ans w = (ensureLoggedIn false >>= fun _ => fn).run ans w

lemma log_length_le (ans : Upstream) (x : WillysProc α) (w : World Memory Query Reply) :
    w.log.length ≤ (x.run ans w).2.log.length := by
  induction x generalizing w with
  | ret r => exact le_rfl
  | act f k ih => exact ih _ ⟨(f w.mem).2, w.log⟩
  | send q k ih =>
    refine le_trans ?_ (ih (ans w.log.length q) ⟨w.mem, w.log ++ [⟨w.mem, q, _⟩]⟩)
    simp

/-- A second attempt leaves more in the log. -/
lemma log_length_again (ans : Upstream) (fn : WillysProc α) (u : World Memory Query Reply) :
    u.log.length < ((ensureLoggedIn true >>= fun _ => fn).run ans u).2.log.length := by
  have hask : ∃ k : Reply Query.credentials → WillysProc α,
      (ensureLoggedIn true >>= fun _ => fn) = .send Query.credentials k := ⟨_, rfl⟩
  obtain ⟨k, hk⟩ := hask
  rw [hk]
  refine lt_of_lt_of_le ?_ (log_length_le ans (k (ans u.log.length _))
    ⟨u.mem, u.log ++ [⟨u.mem, Query.credentials, ans u.log.length _⟩]⟩)
  simp

lemma once_of_ok {ans : Upstream} {fn : WillysProc α} {a : α}
    (hl : (ensureLoggedIn false).run ans w = (.ok (), v)) (hr : fn.run ans v = (.ok a, u)) :
    Once ans fn w := by
  rw [Once, withAuth, Proc.run_bind_ok hl, Proc.run_bind_ok hl,
    Proc.run_bind_ok (Proc.run_attempt _ _), hr]
  rfl

lemma once_error_iff {ans : Upstream} {fn : WillysProc α} {e : Failure}
    (hl : (ensureLoggedIn false).run ans w = (.ok (), v)) (hr : fn.run ans v = (.error e, u)) :
    Once ans fn w ↔ looksLikeAuthError e = false := by
  rw [Once, withAuth, Proc.run_bind_ok hl, Proc.run_bind_ok hl,
    Proc.run_bind_ok (Proc.run_attempt _ _), hr]
  cases hlooks : looksLikeAuthError e with
  | false => simp [hlooks, Proc.fail, Proc.run]
  | true =>
    refine iff_of_false (fun h => ?_) (by simp)
    have hmore := log_length_again ans fn u
    simp only [hlooks] at h
    have hlog := congrArg (fun r => r.2.log.length) h
    exact absurd hlog (Nat.ne_of_gt hmore)

/-- The operation runs once when no word is in the error it first fails with. -/
lemma once_iff {ans : Upstream} {fn : WillysProc α}
    (hl : (ensureLoggedIn false).run ans w = (.ok (), v)) (h : NoAuthFailure ans fn v) :
    Once ans fn w ↔ ∀ e, (fn.run ans v).1 = .error e → ¬ Mentions e.text.toList := by
  rcases hr : fn.run ans v with ⟨e | a, u⟩
  · have hown : e.auth = false := h.own e (by rw [hr])
    rw [once_error_iff hl hr, ← Bool.not_eq_true, looksLikeAuthError_iff, hown]
    simp
  · exact iff_of_true (once_of_ok hl hr) (by simp)

lemma answers_eq {ans : Upstream} {fn : WillysProc α} {l : Log}
    (h : (fn.run ans v).2.log = v.log ++ l) : answers ans fn v = l := by
  rw [answers, h, List.drop_left]

lemma mentions_iff_complaint {ans : Upstream} {fn : WillysProc α} (hfn : Tells fn)
    (h : NoAuthFailure ans fn v) :
    (∀ e, (fn.run ans v).1 = .error e → ¬ Mentions e.text.toList) ↔
      ∀ x ∈ (answers ans fn v).getLast?, ∀ t ∈ complaint x, ¬ Mentions t.toList := by
  have hrun := Proc.wp_run (hfn v) ans
  have hown := h.own
  rcases hr : fn.run ans v with ⟨e | a, u⟩ <;> rw [hr] at hrun hown
  · obtain ⟨l, hl, hquote⟩ := hrun
    have hauth : e.auth = false := hown e rfl
    obtain ⟨x, hx, hiff⟩ := hquote.resolve_left (by simp [hauth])
    have hans : answers ans fn v = l := answers_eq (by rw [hr]; exact hl)
    rw [hans]
    simp only [Except.error.injEq, forall_eq', Option.mem_def.mp hx, Option.mem_def,
      Option.some.injEq]
    rw [hiff]
    simp
  · obtain ⟨l, hl, hlast⟩ := hrun
    have hans : answers ans fn v = l := answers_eq (by rw [hr]; exact hl)
    rw [hans]
    refine iff_of_true (by simp) fun x hx t ht => ?_
    rw [hlast x hx] at ht
    cases ht

/-- **A second run**: an operation that no answer rejects is run once when the error it fails with
has none of the words, that is when the answer it fails on has not. -/
theorem once_iff_no_word {ans : Upstream} {fn : WillysProc α}
    (hl : (ensureLoggedIn false).run ans w = (.ok (), v)) (h : NoAuthFailure ans fn v) :
    (Once ans fn w ↔ ∀ e, (fn.run ans v).1 = .error e → ¬ Mentions e.text.toList) ∧
    (Operation fn → (Once ans fn w ↔
      ∀ x ∈ (answers ans fn v).getLast?, ∀ t ∈ complaint x, ¬ Mentions t.toList)) :=
  ⟨once_iff hl h, fun hop => (once_iff hl h).trans (mentions_iff_complaint hop.tells h)⟩

/-! ### A product whose code has a word in it -/

/-- Upstream refuses the first request with 400 and a text, and takes every other. -/
def refusing (text : String) : Upstream
  | n, .http _ => .ok ⟨if n = 1 then 400 else 200, [], "", { goodBody with text := text }⟩
  | _, .parseUrl _ => none
  | _, .encrypt _ => .ok ⟨"", ""⟩
  | _, .credentials => some ⟨"anna", "secret"⟩

/-- A provider that is logged in, before a call and once it has checked the login. -/
def before : World Memory Query Reply := ⟨loggedIn, []⟩

def checked : World Memory Query Reply :=
  ⟨loggedIn, [⟨loggedIn, .credentials, (some ⟨"anna", "secret"⟩ : Option WillysCreds)⟩]⟩

lemma checked_run (text : String) :
    (ensureLoggedIn false).run (refusing text) before = (.ok (), checked) := by
  change (if !false && !decide ((⟨"anna", "secret"⟩ : WillysCreds) ≠ loggedIn.creds) &&
      loggedIn.client.authenticated then pure ()
    else do
      Willys.modify fun c => if decide ((⟨"anna", "secret"⟩ : WillysCreds) ≠ loggedIn.creds)
        then c.clearState else c
      let _ ← (login "anna" "secret").mapError (Failure.wrap "willys login")
      Proc.modify fun m => { m with creds := ⟨"anna", "secret"⟩ } :
    WillysProc Unit).run (refusing text) checked = _
  rw [if_pos (by decide)]
  rfl

lemma refused_run (text code : String) :
    ((addToCart code 1).run (refusing text) checked).1 =
      .error (failed ("add to cart failed (" ++ toString 400 ++ "): " ++ text)) := rfl

lemma refused_answers (text code : String) : answers (refusing text) (addToCart code 1) checked =
    [⟨loggedIn, .http (loggedIn.client.request .post .addProducts (some (.products code 1))),
      (.ok ⟨400, [], "", { goodBody with text := text }⟩ : Except String Response)⟩] := rfl

lemma refused_noAuthFailure (text code : String) :
    NoAuthFailure (refusing text) (addToCart code 1) checked where
  status := by
    rw [refused_answers]
    intro x hx
    rw [List.mem_singleton.mp hx]
    rintro (h | h) <;> cases h
  own := by
    rw [refused_run]
    rintro e h
    cases h
    rfl

/-- A refusal without a word in it is final. -/
theorem once_iff_no_word_soldOut : Once (refusing "sold out") (addToCart "101" 1) before := by
  refine ((once_iff_no_word (checked_run _) (refused_noAuthFailure _ _)).2 (.cartAdd _ _)).mpr ?_
  rw [refused_answers]
  intro x hx t ht
  obtain rfl := Option.some.inj hx
  have htexts : t ∈ ["400", "sold out"] := ht
  revert t
  decide

/-- A code with `401` in it, quoted by a refusal, is taken for a rejected session. -/
theorem not_once : ¬ ∀ (α : Type) (ans : Upstream) (fn : WillysProc α)
    (w v : World Memory Query Reply), (ensureLoggedIn false).run ans w = (.ok (), v) →
      NoAuthFailure ans fn v → Once ans fn w := by
  intro h
  have hone := h Cart (refusing "no product 101401234_ST") (addToCart "101401234_ST" 1) before
    checked (checked_run _) (refused_noAuthFailure _ _)
  rw [once_iff (checked_run _) (refused_noAuthFailure _ _)] at hone
  exact hone _ (refused_run _ _) (by decide)

end Veckomenyn.AuthText
