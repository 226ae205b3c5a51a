import Mathlib.Data.List.Chain
import Veckomenyn.Requests

/-!
What a call of the provider does to the upstream cart.

The effects are read off the log: an accepted POST adds or removes, an accepted DELETE clears. A
call that succeeds has shown the cart last; a call that fails may have taken effect all the same.
-/

namespace Veckomenyn.CartLog

open CartTools Remote Willys WillysProvider Requests

inductive CartEffect where
  | add (code : String) (qty : ℤ)
  | remove (code : String)
  | clear
deriving DecidableEq

/-- A POST for no units of a product removes it. -/
def posts (code : String) (qty : ℤ) : CartEffect := if qty = 0 then .remove code else .add code qty

def effectOf : Exchange Memory Query Reply → Option CartEffect
  | ⟨_, .http r, a⟩ => match (a : Except String Response) with
    | .error _ => none
    | .ok resp =>
      if resp.status ≠ 200 then none
      else match r.route, r.body with
        | .addProducts, some (.products code qty) => some (posts code qty)
        | .cart, _ => if r.method = .delete then some .clear else none
        | _, _ => none
  | _ => none

def effects (log : Log) : List CartEffect := log.filterMap effectOf

/-- Upstream has shown the cart. -/
def shows : Exchange Memory Query Reply → Bool
  | ⟨_, .http r, a⟩ => match (a : Except String Response) with
    | .error _ => false
    | .ok resp => decide (r.method = .get ∧ r.route = .cart) &&
      (fetched "get cart" Body.cart resp).toBool
  | _ => false

/-- The last thing in the log is the cart. -/
def EndsShown (log : Log) : Prop := log.getLast?.any shows = true

instance (log : Log) : Decidable (EndsShown log) := inferInstanceAs (Decidable (_ = true))

/-- An accepted POST is followed by the cart. -/
def Tidy (log : Log) : Prop := log.IsChain fun x y => accepted x = true → shows y = true

instance (log : Log) : Decidable (Tidy log) := inferInstanceAs (Decidable (List.IsChain _ _))

/-! ### Logs of calls -/

/-- What is asked has no effect and shows no cart. -/
def Silent (l : Log) : Prop := ∀ x ∈ l, effectOf x = none ∧ shows x = false

lemma silent_of_login {l : Log} (h : ∀ x ∈ l, OfLogin x.query) : Silent l := by
  intro x hx
  have hq := h x hx
  obtain ⟨mem, q, a⟩ := x
  cases q with
  | http r =>
    have hr : r.route ≠ .addProducts ∧ r.route ≠ .cart := by
      constructor <;> intro he <;> rw [OfLogin, he] at hq <;> exact hq
    rcases (a : Except String Response) with e | resp
    · exact ⟨rfl, rfl⟩
    · constructor
      · show (if resp.status ≠ 200 then none else _) = none
        by_cases hst : resp.status = 200
        · rw [if_neg (not_not.mpr hst)]
          split
          · exact absurd ‹_› hr.1
          · exact absurd ‹_› hr.2
          · rfl
        · exact if_pos hst
      · show (decide (r.method = .get ∧ r.route = .cart) && _) = false
        rw [decide_eq_false fun h => hr.2 h.2, Bool.false_and]
  | _ => exact ⟨rfl, rfl⟩

lemma effects_silent {l : Log} (h : Silent l) : effects l = [] :=
  List.filterMap_eq_nil_iff.mpr fun x hx => (h x hx).1

lemma not_endsShown_silent {l : Log} (h : Silent l) : ¬EndsShown l := by
  intro hl
  rcases hlast : l.getLast? with - | x <;> rw [EndsShown, hlast] at hl
  · exact Bool.false_ne_true hl
  · have hx := (h x (List.mem_of_getLast? hlast)).2
    exact Bool.false_ne_true (hx.symm.trans hl)

lemma effects_append (l l' : Log) : effects (l ++ l') = effects l ++ effects l' :=
  List.filterMap_append

lemma Tidy.left {l l' : Log} (h : Tidy (l ++ l')) : Tidy l := List.IsChain.left_of_append h
lemma Tidy.right {l l' : Log} (h : Tidy (l ++ l')) : Tidy l' := List.IsChain.right_of_append h

lemma endsShown_append {l l' : Log} : EndsShown (l ++ l') ↔
    EndsShown l' ∨ l' = [] ∧ EndsShown l := by
  rcases List.eq_nil_or_concat l' with rfl | ⟨l', x, rfl⟩
  · simp [EndsShown]
  · simp [EndsShown, List.getLast?_append]

variable {α : Type}

/-- The log of a call is in `S`, by whether the call succeeds. -/
def Logs (S : Bool → Log → Prop) (x : WillysProc α) : Prop :=
  ∀ w, x.wp (fun _ v => ∃ l, v.log = w.log ++ l ∧ S true l)
    (fun _ v => ∃ l, v.log = w.log ++ l ∧ S false l) w

lemma logs_ensureLoggedIn (force : Bool) :
    Logs (fun _ l => Silent l ∧ l ≠ []) (ensureLoggedIn force) := by
  intro w o
  have h : OfLogin .credentials ∧ ∀ o, _ := asks_ensureLoggedIn force
  have hgrow (w' : World Memory Query Reply)
      (hw' : ∃ l, w'.log = w.log ++ [⟨w.mem, .credentials, o⟩] ++ l ∧ ∀ x ∈ l, OfLogin x.query) :
      ∃ l, w'.log = w.log ++ l ∧ Silent l ∧ l ≠ [] := by
    obtain ⟨l, hl, hP⟩ := hw'
    refine ⟨⟨w.mem, .credentials, o⟩ :: l, hl.trans (List.append_assoc _ _ _), ?_, by simp⟩
    refine silent_of_login fun x hx => ?_
    rcases List.mem_cons.mp hx with rfl | hx
    · exact h.1
    · exact hP x hx
  exact Proc.wp_mono (fun _ => hgrow) (fun _ => hgrow) ((h.2 o).wp
    ⟨w.mem, w.log ++ [⟨w.mem, .credentials, o⟩]⟩)

/-- A call through `withAuth` is one attempt, or a failed one and another one. -/
lemma logs_withAuth {S : Bool → Log → Prop} {fn : WillysProc α} (hsilent : ∀ l, Silent l → S false l)
    (happ : ∀ ok l l', S false l → S ok l' → S ok (l ++ l')) (h : Logs S fn) :
    Logs (fun ok l => S ok l ∧ l ≠ []) (withAuth fn) := by
  intro w
  rw [withAuth]
  refine Proc.wp_bind_of (logs_ensureLoggedIn false w) ?_ ?_
  swap
  · rintro e v ⟨l, hl, hs, hne⟩
    exact ⟨l, hl, hsilent l hs, hne⟩
  rintro - v ⟨l, hl, hs, hne⟩
  rw [Proc.wp_bind, Proc.wp_attempt]
  refine Proc.wp_mono ?_ ?_ (h v)
  · rintro a u ⟨l', hl', hS⟩
    exact ⟨l ++ l', by rw [hl', hl, List.append_assoc], happ _ _ _ (hsilent l hs) hS, by simp [hne]⟩
  rintro e u ⟨l', hl', hS⟩
  have hfirst : S false (l ++ l') := happ _ _ _ (hsilent l hs) hS
  have hu : u.log = w.log ++ (l ++ l') := by rw [hl', hl, List.append_assoc]
  show Proc.wp _ _ (if (!looksLikeAuthError e) = true then _ else _) _
  split_ifs
  · exact ⟨l ++ l', hu, hfirst, by simp [hne]⟩
  have hthen {ok : Bool} {v : World Memory Query Reply}
      (hv : ∃ k, v.log = u.log ++ k ∧ S ok k) :
      ∃ k, v.log = w.log ++ k ∧ S ok k ∧ k ≠ [] := by
    obtain ⟨k, hk, hSk⟩ := hv
    exact ⟨l ++ l' ++ k, by rw [hk, hu, List.append_assoc], happ _ _ _ hfirst hSk, by simp [hne]⟩
  refine Proc.wp_bind_of (logs_ensureLoggedIn true u) ?_ ?_
  swap
  · rintro e v ⟨k, hk, hsk, -⟩
    exact hthen ⟨k, hk, hsilent k hsk⟩
  rintro - v ⟨k, hk, hsk, -⟩
  have hlast {ok : Bool} {v' : World Memory Query Reply} (hv : ∃ k, v'.log = v.log ++ k ∧ S ok k) :
      ∃ k, v'.log = u.log ++ k ∧ S ok k := by
    obtain ⟨k', hk', hSk⟩ := hv
    exact ⟨k ++ k', by rw [hk', hk, List.append_assoc], happ _ _ _ (hsilent k hsk) hSk⟩
  exact Proc.wp_mono (fun _ _ h => hthen (hlast h)) (fun _ _ h => hthen (hlast h)) (h v)

/-! ### Adds and removals -/

/-- The log of a call that posts `e`: once, if it is tidy and the call succeeds. -/
structure Posted (e : CartEffect) (ok : Bool) (l : Log) : Prop where
  same : ∀ f ∈ effects l, f = e
  some : ok = true → effects l ≠ []
  last : EndsShown l ↔ ok = true
  tidy : Tidy l → effects l = if ok then [e] else []

variable {e : CartEffect}

lemma posted_of_silent {l : Log} (h : Silent l) : Posted e false l where
  same := by simp [effects_silent h]
  some := nofun
  last := iff_of_false (not_endsShown_silent h) Bool.false_ne_true
  tidy _ := effects_silent h

lemma Posted.append {ok : Bool} {l l' : Log} (h : Posted e false l) (h' : Posted e ok l') :
    Posted e ok (l ++ l') where
  same f hf := by
    rw [effects_append] at hf
    exact (List.mem_append.mp hf).elim (h.same f) (h'.same f)
  some hok hnil := by
    rw [effects_append] at hnil
    exact h'.some hok (List.append_eq_nil_iff.mp hnil).2
  last := by
    rw [endsShown_append, ← h'.last]
    exact or_iff_left fun hl => Bool.false_ne_true (h.last.mp hl.2)
  tidy ht := by rw [effects_append, h.tidy ht.left, h'.tidy ht.right]; rfl

/-- The log of one attempt: an accepted POST, and then the cart or not. -/
lemma posted_of_pair {l : Log} {x y : Exchange Memory Query Reply} {ok : Bool} (h : Silent l)
    (hx : effectOf x = some e) (hacc : accepted x = true) (hy : effectOf y = none)
    (hshow : shows y = ok) : Posted e ok (l ++ [x, y]) := by
  have heff : effects (l ++ [x, y]) = [e] := by
    rw [effects_append, effects_silent h]
    simp [effects, hx, hy]
  refine ⟨by simp [heff], by simp [heff], ?_, fun ht => ?_⟩
  · simp [EndsShown, hshow]
  · rw [heff]
    have hpair : List.IsChain _ [x, y] := List.IsChain.right_of_append ht
    rw [← hshow, (List.isChain_cons_cons.mp hpair).1 hacc]
    rfl

/-- The request for the cart shows it or fails. -/
lemma getCart_wp {S : Bool → Log → Prop} {log : Log} {w : World Memory Query Reply}
    (hauth : w.mem.client.authenticated = true)
    (h : ∀ a ok, effectOf ⟨w.mem, .http (w.mem.client.request .get .cart none), a⟩ = none →
      shows ⟨w.mem, .http (w.mem.client.request .get .cart none), a⟩ = ok →
        ∃ l, (sent w (w.mem.client.request .get .cart none) a).log = log ++ l ∧ S ok l) :
    getCart.wp (fun _ v => ∃ l, v.log = log ++ l ∧ S true l)
      (fun _ v => ∃ l, v.log = log ++ l ∧ S false l) w := by
  have hnone (resp : Response) :
      effectOf ⟨w.mem, .http (w.mem.client.request .get .cart none), .ok resp⟩ = none := by
    show (if resp.status ≠ 200 then none else none) = none
    split_ifs <;> rfl
  rw [getCart, Proc.wp_bind, wp_requireAuth, if_pos hauth, wp_fetch]
  refine ⟨fun e => h _ false rfl rfl, fun resp => ?_⟩
  have hshows : shows ⟨w.mem, .http (w.mem.client.request .get .cart none), .ok resp⟩ =
      (true && (fetched "get cart" Body.cart resp).toBool) := rfl
  rcases hf : fetched "get cart" Body.cart resp with e | c <;> rw [hf] at hshows
  · exact h _ false (hnone resp) hshows
  · exact h _ true (hnone resp) hshows

lemma logs_addToCart (code : String) (qty : ℤ) :
    Logs (Posted (posts code qty)) (addToCart code qty) := by
  intro w
  rw [addToCart, Proc.wp_bind, wp_requireAuth]
  by_cases hauth : w.mem.client.authenticated = true
  swap
  · rw [if_neg hauth]
    exact ⟨[], (List.append_nil _).symm, posted_of_silent (List.forall_mem_nil _)⟩
  rw [if_pos hauth]
  refine Proc.wp_bind_of (calm_ensureCSRF (P := OfLogin) (fun _ => trivial) w) ?_ ?_
  swap
  · rintro e v ⟨-, l, hl, hP⟩
    exact ⟨l, hl, posted_of_silent (silent_of_login hP)⟩
  rintro - v ⟨hflag, l, hl, hP⟩
  have hsilent := silent_of_login hP
  have hrefused (r : Request) (a : Except String Response)
      (ha : effectOf ⟨v.mem, .http r, a⟩ = none ∧ shows ⟨v.mem, .http r, a⟩ = false) :
      ∃ k, (sent v r a).log = w.log ++ k ∧ Posted (posts code qty) false k := by
    refine ⟨l ++ [⟨v.mem, .http r, a⟩], ?_, posted_of_silent fun x hx => ?_⟩
    · rw [← List.append_assoc, ← hl]
      rfl
    · rcases List.mem_append.mp hx with hx | hx
      · exact hsilent x hx
      · rw [List.mem_singleton.mp hx]
        exact ha
  rw [Proc.wp_bind, wp_doRequest]
  refine ⟨fun e => hrefused _ _ ⟨rfl, rfl⟩, fun resp => ?_⟩
  split_ifs with hst
  · exact hrefused _ _ ⟨if_pos hst, rfl⟩
  generalize hu : sent v _ (.ok resp) = u
  have hauth' : u.mem.client.authenticated = true := hu ▸ hflag.trans hauth
  refine getCart_wp hauth' fun a ok hnone hshow => ?_
  refine ⟨_, ?_, posted_of_pair hsilent (x := ⟨v.mem, .http (v.mem.client.request .post
    .addProducts (some (.products code qty))), .ok resp⟩) (if_neg hst) ?_ hnone hshow⟩
  · rw [← hu, ← List.append_assoc, ← hl]
    exact (List.append_assoc _ _ _)
  · simpa [accepted, Client.request] using hst

/-! ### The cart and the clear -/

/-- The log of a call that asks for the cart. -/
structure Asked (ok : Bool) (l : Log) : Prop where
  effects : effects l = []
  last : EndsShown l ↔ ok = true

lemma asked_of_silent {l : Log} (h : Silent l) : Asked false l :=
  ⟨effects_silent h, iff_of_false (not_endsShown_silent h) Bool.false_ne_true⟩

lemma Asked.append {ok : Bool} {l l' : Log} (h : Asked false l) (h' : Asked ok l') :
    Asked ok (l ++ l') where
  effects := by rw [effects_append, h.effects, h'.effects]; rfl
  last := by
    rw [endsShown_append, ← h'.last]
    exact or_iff_left fun hl => Bool.false_ne_true (h.last.mp hl.2)

lemma logs_getCart : Logs Asked getCart := by
  intro w
  by_cases hauth : w.mem.client.authenticated = true
  · refine getCart_wp hauth fun a ok hnone hshow => ⟨_, rfl, ?_, ?_⟩
    · exact List.filterMap_eq_nil_iff.mpr fun x hx => by rw [List.mem_singleton.mp hx, hnone]
    · rw [EndsShown, List.getLast?_singleton, ← hshow]
      rfl
  · rw [getCart, Proc.wp_bind, wp_requireAuth, if_neg hauth]
    exact ⟨[], (List.append_nil _).symm, asked_of_silent (List.forall_mem_nil _)⟩

/-- The log of a call that clears the cart. -/
def Cleared (ok : Bool) (l : Log) : Prop := effects l = if ok then [.clear] else []

lemma logs_clearCart : Logs Cleared clearCart := by
  intro w
  rw [clearCart, Proc.wp_bind, wp_requireAuth]
  split_ifs
  swap
  · exact ⟨[], (List.append_nil _).symm, rfl⟩
  refine Proc.wp_bind_of (calm_ensureCSRF (P := OfLogin) (fun _ => trivial) w) ?_ ?_
  swap
  · rintro e v ⟨-, l, hl, hP⟩
    exact ⟨l, hl, effects_silent (silent_of_login hP)⟩
  rintro - v ⟨-, l, hl, hP⟩
  have hsent (r : Request) (a : Except String Response) (ok : Bool)
      (ha : effectOf ⟨v.mem, .http r, a⟩ = if ok then some .clear else none) :
      ∃ k, (sent v r a).log = w.log ++ k ∧ Cleared ok k := by
    refine ⟨l ++ [⟨v.mem, .http r, a⟩], ?_, ?_⟩
    · rw [← List.append_assoc, ← hl]
      rfl
    · rw [Cleared, effects_append, effects_silent (silent_of_login hP)]
      cases ok <;> simp [effects, ha]
  rw [Proc.wp_bind, wp_doRequest]
  refine ⟨fun e => hsent _ _ false rfl, fun resp => ?_⟩
  split_ifs with hst
  · exact hsent _ _ false (if_pos hst)
  · exact hsent _ _ true (if_neg hst)

/-! ### The methods -/

lemma logs_cartAdd (code : String) (qty : ℤ) :
    Logs (fun ok l => Posted (.add code (qtyOr1 qty)) ok l ∧ l ≠ []) (cartAdd code qty) := by
  have hqty : posts code (qtyOr1 qty) = .add code (qtyOr1 qty) := by
    refine if_neg ?_
    rw [qtyOr1]
    split_ifs <;> omega
  rw [← hqty]
  exact logs_withAuth (fun _ => posted_of_silent) (fun _ _ _ => Posted.append)
    (logs_addToCart code _)

lemma logs_cartRemove (code : String) :
    Logs (fun ok l => Posted (.remove code) ok l ∧ l ≠ []) (cartRemove code) :=
  logs_withAuth (fun _ => posted_of_silent) (fun _ _ _ => Posted.append) (logs_addToCart code 0)

lemma logs_cartGet : Logs (fun ok l => Asked ok l ∧ l ≠ []) cartGet :=
  logs_withAuth (fun _ => asked_of_silent) (fun _ _ _ => Asked.append) logs_getCart

lemma logs_cartClear : Logs (fun ok l => Cleared ok l ∧ l ≠ []) cartClear :=
  logs_withAuth (fun _ h => effects_silent h)
    (fun _ l l' h h' => by rw [Cleared, effects_append, show effects l = [] from h]; exact h')
    logs_clearCart

/-- What a run of a call has added to the log. -/
lemma Logs.run {S : Bool → Log → Prop} {x : WillysProc α} (h : Logs S x) (ans : Upstream)
    (w : World Memory Query Reply) :
    ∃ l, (x.run ans w).2.log = w.log ++ l ∧ S (x.run ans w).1.toBool l := by
  have hrun := Proc.wp_run (h w) ans
  rcases hr : x.run ans w with ⟨e | a, v⟩ <;> rw [hr] at hrun <;> exact hrun

end Veckomenyn.CartLog
